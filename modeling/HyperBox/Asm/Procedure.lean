import HyperBox.Asm.ExitStub
import HyperBox.Exit.Halves

/-! The procedures around one privileged instruction. Those for model-specific registers split a
value into the halves that the instructions work on and keep the registers that they use; those
for VMX instructions turn the two flags by which an instruction fails into a result. -/
namespace HyperBox.Asm
open HyperBox.Library HyperBox.Exit

section Msr

inductive MsrOp where
  | rdmsr
  | wrmsr
  | xsetbv
deriving DecidableEq

abbrev MsrCode := List (Instr Empty MsrOp)

def hbRdmsr : MsrCode :=
  [.push .rdx,.push .rcx,.xor .rdx .rdx,.xor .rax .rax,.movLow .rcx .rdi,.op .rdmsr,.shl .rdx 32,.or .rax .rdx,
    .pop .rcx,.pop .rdx,.ret]

/-- `hb_wrmsr` and `hb_xsetbv` are the same but for one instruction. -/
def writeCode (o : MsrOp) : MsrCode :=
  [.push .rdx,.push .rcx,.push .rax,.mov .rdx .rsi,.shr .rdx 32,.movLow .rax .rsi,.movLow .rcx .rdi,.op o,
    .pop .rax,.pop .rcx,.pop .rdx,.ret]

def hbWrmsr : MsrCode := writeCode .wrmsr
def hbXsetbv : MsrCode := writeCode .xsetbv

/-- The registers behind the index in ECX. -/
structure MsrFile where
  msr : U32 → Word
  xcr : U32 → Word

def MsrFile.write (file : MsrFile) : MsrOp → U32 → Word → MsrFile
  | .wrmsr,index,value => { file with msr := Function.update file.msr index value }
  | .xsetbv,index,value => { file with xcr := Function.update file.xcr index value }
  | .rdmsr,_,_ => file

/-- RDMSR clears the upper halves of its results. -/
def msrProcessor (place : Nat → Word) : Surroundings MsrOp MsrFile where
  place := place
  exec o m :=
    match o with
    | .rdmsr =>
      let value := m.rest.msr (low (m.regs .rcx))
      .next ((m.set .rdx ((upper value).setWidth 64)).set .rax ((low value).setWidth 64))
    | write =>
      .next { m with rest := m.rest.write write (low (m.regs .rcx)) (low (m.regs .rdx) ++ low (m.regs .rax)) }

variable {place : Nat → Word} {m : Machine MsrFile}

theorem joined_halves (value : Word) : (low value).setWidth 64 ||| (upper value).setWidth 64 <<< 32 = value := by
  apply BitVec.eq_of_getLsbD_eq
  intro i bound
  rw [BitVec.getLsbD_or,BitVec.getLsbD_shiftLeft,BitVec.getLsbD_setWidth,BitVec.getLsbD_setWidth,upper_bit]
  by_cases below : i < 32
  · simp [low,below,bound]
  · have high : i - 32 < 64 ∧ i - 32 < 32 ∧ 32 + (i - 32) = i := by omega
    simp [low,below,bound,high]

theorem split_halves (value : Word) : low (value >>> 32) ++ low ((value.setWidth 32).setWidth 64) = value := by
  apply BitVec.eq_of_getLsbD_eq
  intro i bound
  rw [joined_bit]
  by_cases below : i < 32
  · simp [below,bound]
  · have high : 32 + (i - 32) = i := by omega
    simp [below,bound,high]

theorem low_extended (value : Word) : low ((value.setWidth 32).setWidth 64) = low value := by simp [low]

variable (place m) in
/-- A procedure that saves registers, works on these and RAX alone, and returns. -/
theorem returns_saved (mid : Machine MsrFile) (rs : List Reg) (distinct : rs.Nodup) (stackless : .rsp ∉ rs)
    (short : rs.length ≤ 3) (rsp : mid.regs .rsp = (m.pushAll rs).regs .rsp) (mem : mid.mem = (m.pushAll rs).mem)
    (kept : ∀ r, r ∉ rs → r ≠ .rax → r ≠ .rsp → mid.regs r = m.regs r) (code : MsrCode) :
    ∃ m', Reaches code (msrProcessor place) (.running (rs.reverse.map .pop ++ [.ret]) mid)
        (.returned (loadWord m.mem (m.regs .rsp)) m') ∧
      ReturnsTo 24 m m' (if .rax ∈ rs then m.regs .rax else mid.regs .rax) ∧ m'.rest = mid.rest := by
  obtain ⟨restored,raised,back⟩ := saved_restored distinct stackless (by omega) rsp mem
  have popped : ∀ r, r ≠ .rsp → (mid.popAll rs.reverse).regs r = if r ∈ rs then m.regs r else mid.regs r := by
    intro r apart
    by_cases member : r ∈ rs
    · rw [if_pos member,restored r member]
    · rw [if_neg member,popAll_of_notMem (by simpa using member) apart]
  refine ⟨(mid.popAll rs.reverse).set .rsp (m.regs .rsp + 8),?_,⟨?_,Machine.set_self _ _ _,?_,?_⟩,?_⟩
  · refine (reaches_pops rs.reverse _ mid).trans (.next ?_ (.refl _))
    rw [step,raised,popAll_mem,back]
  · rw [Machine.set_of_ne _ (by decide),popped _ (by decide)]
  · intro r rax apart
    rw [Machine.set_of_ne _ apart,popped r apart]
    by_cases member : r ∈ rs
    · rw [if_pos member]
    · rw [if_neg member,kept r member rax apart]
  · intro addr above
    rw [Machine.set_mem,popAll_mem,mem,pushAll_eq stackless,pushWords_mem]
    rw [List.length_map]
    omega
  · rw [Machine.set_rest,popAll_rest]

theorem saves_regs {rs : List Reg} (stackless : .rsp ∉ rs) {r : Reg} (apart : r ≠ .rsp) :
    (m.pushAll rs).regs r = m.regs r := by
  rw [pushAll_eq stackless,pushWords_of_ne apart]

theorem saves_rest {rs : List Reg} (stackless : .rsp ∉ rs) : (m.pushAll rs).rest = m.rest := by
  rw [pushAll_eq stackless,pushWords_rest]

theorem hbRdmsr_returns : ∃ m', Reaches hbRdmsr (msrProcessor place) (.running hbRdmsr m)
      (.returned (loadWord m.mem (m.regs .rsp)) m') ∧
    ReturnsTo 24 m m' (m.rest.msr (low (m.regs .rdi))) ∧ m'.rest = m.rest := by
  have stackless : Reg.rsp ∉ [Reg.rdx,.rcx] := by decide
  let saved := m.pushAll [.rdx,.rcx]
  let value := m.rest.msr (low (m.regs .rdi))
  let cleared := ((saved.set .rdx (saved.regs .rdx ^^^ saved.regs .rdx)).flags false
    (saved.regs .rdx ^^^ saved.regs .rdx == 0))
  let both := ((cleared.set .rax (cleared.regs .rax ^^^ cleared.regs .rax)).flags false
    (cleared.regs .rax ^^^ cleared.regs .rax == 0))
  let indexed := both.set .rcx (((both.regs .rdi).setWidth 32).setWidth 64)
  let read := (indexed.set .rdx ((upper value).setWidth 64)).set .rax ((low value).setWidth 64)
  let shifted := (read.set .rdx (read.regs .rdx <<< 32)).flags ((read.regs .rdx).getLsbD (64 - 32))
    (read.regs .rdx <<< 32 == 0)
  let joined := (shifted.set .rax (shifted.regs .rax ||| shifted.regs .rdx)).flags false
    (shifted.regs .rax ||| shifted.regs .rdx == 0)
  have index : low (indexed.regs .rcx) = low (m.regs .rdi) := by
    simp only [indexed,Machine.set_self,low_extended]
    simp [both,cleared,saved,saves_regs stackless]
  have rest : indexed.rest = m.rest := saves_rest stackless
  have exec : (msrProcessor place).exec .rdmsr indexed = .next read := by simp only [msrProcessor,index,rest,read,value]
  have result : joined.regs .rax = value := by
    simp [joined,shifted,read,joined_halves]
  obtain ⟨m',returned,same,unchanged⟩ := returns_saved place m joined [.rdx,.rcx] (by decide) stackless (by decide)
    (by simp [joined,shifted,read,indexed,both,cleared,saved]) rfl (by
      intro r other rax apart
      simp only [List.mem_cons,List.not_mem_nil,or_false,not_or] at other
      simp [joined,shifted,read,indexed,both,cleared,saved,rax,other,saves_regs stackless apart]) hbRdmsr
  rw [if_neg (by decide),result] at same
  have toRead : Reaches hbRdmsr (msrProcessor place) (.running hbRdmsr m) (.running (.op .rdmsr::hbRdmsr.drop 6) indexed) :=
    .next rfl (.next rfl (.next rfl (.next rfl (.next rfl (.refl _)))))
  have toPops : Reaches hbRdmsr (msrProcessor place) (.running (hbRdmsr.drop 6) read) (.running (hbRdmsr.drop 8) joined) :=
    .next rfl (.next rfl (.refl _))
  refine ⟨m',toRead.trans (.next ?_ (toPops.trans returned)),same,unchanged.trans (saves_rest stackless)⟩
  rw [step,exec]

theorem writeCode_returns {o : MsrOp} (writes : o ≠ .rdmsr) :
    ∃ m', Reaches (writeCode o) (msrProcessor place) (.running (writeCode o) m)
        (.returned (loadWord m.mem (m.regs .rsp)) m') ∧
      ReturnsTo 24 m m' (m.regs .rax) ∧ m'.rest = m.rest.write o (low (m.regs .rdi)) (m.regs .rsi) := by
  have stackless : Reg.rsp ∉ [Reg.rdx,.rcx,.rax] := by decide
  let saved := m.pushAll [.rdx,.rcx,.rax]
  let copied := saved.set .rdx (saved.regs .rsi)
  let shifted := (copied.set .rdx (copied.regs .rdx >>> 32)).flags ((copied.regs .rdx).getLsbD (32 - 1))
    (copied.regs .rdx >>> 32 == 0)
  let halved := shifted.set .rax (((shifted.regs .rsi).setWidth 32).setWidth 64)
  let indexed := halved.set .rcx (((halved.regs .rdi).setWidth 32).setWidth 64)
  let written := { indexed with rest := m.rest.write o (low (m.regs .rdi)) (m.regs .rsi) }
  have index : low (indexed.regs .rcx) = low (m.regs .rdi) := by
    simp only [indexed,Machine.set_self,low_extended]
    simp [halved,shifted,copied,saved,saves_regs stackless]
  have value : low (indexed.regs .rdx) ++ low (indexed.regs .rax) = m.regs .rsi := by
    simp [indexed,halved,shifted,copied,saved,saves_regs stackless,split_halves]
  have rest : indexed.rest = m.rest := saves_rest stackless
  have exec : (msrProcessor place).exec o indexed = .next written := by
    cases o with
    | rdmsr => exact absurd rfl writes
    | wrmsr => simp only [msrProcessor,index,value,rest,written]
    | xsetbv => simp only [msrProcessor,index,value,rest,written]
  obtain ⟨m',returned,same,unchanged⟩ := returns_saved place m written [.rdx,.rcx,.rax] (by decide) stackless
    (by decide) (by simp [written,indexed,halved,shifted,copied,saved]) rfl (by
      intro r other rax apart
      simp only [List.mem_cons,List.not_mem_nil,or_false,not_or] at other
      simp [written,indexed,halved,shifted,copied,saved,rax,other,saves_regs stackless apart]) (writeCode o)
  rw [if_pos (by decide)] at same
  have toWrite : Reaches (writeCode o) (msrProcessor place) (.running (writeCode o) m)
      (.running (.op o::(writeCode o).drop 8) indexed) :=
    .next rfl (.next rfl (.next rfl (.next rfl (.next rfl (.next rfl (.next rfl (.refl _)))))))
  refine ⟨m',toWrite.trans (.next ?_ returned),same,unchanged⟩
  rw [step,exec]
  rfl

def msrCode : MsrOp → MsrCode
  | .rdmsr => hbRdmsr
  | .wrmsr => hbWrmsr
  | .xsetbv => hbXsetbv

/-- A file of registers of 64 bits. The procedures that write leave RAX as it is. -/
def msrSpec : Specification MsrOp MsrFile
  | .rdmsr,index,_,file,_ => (file.msr (low index),file)
  | write,index,value,file,rax => (rax,file.write write (low index) value)

/-- The handlers read the registers through the same function. -/
theorem msrSpec_rdmsr (cpu : CpuInfo) (index value rax : Word) (xcr : U32 → Word) :
    (msrSpec .rdmsr index value ⟨cpu.rdmsr,xcr⟩ rax).1 = Exit.hbRdmsr cpu index := rfl

theorem msr_implements : Implements msrCode (msrProcessor place) msrSpec 24 := by
  intro o m
  cases o with
  | rdmsr => exact hbRdmsr_returns
  | wrmsr => exact writeCode_returns (by decide)
  | xsetbv => exact writeCode_returns (by decide)

/-- Whatever calls C code makes of the three procedures, in any order, they act as reads and writes
of whole 64-bit registers and disturb nothing that the caller keeps. -/
theorem msr_calls_act_as_file (place : Nat → Word) (m : Machine MsrFile) (calls : List (Call MsrOp)) :
    (∃ results last, CallRun msrCode (msrProcessor place) m calls results last) ∧
      ∀ results last, CallRun msrCode (msrProcessor place) m calls results last →
        results = (specRun msrSpec m.rest (m.regs .rax) calls).1 ∧
          last.rest = (specRun msrSpec m.rest (m.regs .rax) calls).2 ∧ Undisturbed 24 m last :=
  ⟨callRun_exists msr_implements m calls,fun _ _ calling => callRun_spec msr_implements calling⟩

end Msr
end HyperBox.Asm
