import HyperBox.Exit.Operand

/-! The instructions whose operands and results are halves of 64-bit values: CPUID, RDMSR, WRMSR
and XSETBV. The processor looks at the low halves of the registers and clears the upper halves
of its results; the handlers work on whole slots of the guest context. -/
namespace HyperBox.Exit
open HyperBox.PageTable

abbrev U32 := BitVec 32

structure CpuInfo where
  cpuid : U32 → U32 → U32 × U32 × U32 × U32
  rdmsr : U32 → U64

inductive HalvesInst where
  | cpuid
  | rdmsr
  | wrmsr
  | xsetbv

def low (value : U64) : U32 := value.setWidth 32

def upper (value : U64) : U32 := (value >>> 32).setWidth 32

structure Effect where
  registers : GuestRegister
  written : Option (U32 × U64)

section Handlers
variable (cpu : CpuInfo) (guestContext : GuestRegister)

/-- A store through a pointer to `u32` into a slot of 64 bits. -/
def storeLow (slot : U64) (value : U32) : U64 := (slot &&& 0xFFFFFFFF00000000) ||| value.setWidth 64

def hbVmExitCallbackCpuid : Effect :=
  let (eax,ebx,ecx,edx) := cpu.cpuid (low guestContext.rax) (low guestContext.rcx)
  ⟨{ guestContext with
    rax := storeLow guestContext.rax eax
    rbx := storeLow guestContext.rbx ebx
    rcx := storeLow guestContext.rcx ecx
    rdx := storeLow guestContext.rdx edx },none⟩

def hbRdmsr (msrNum : U64) : U64 := cpu.rdmsr (low msrNum)

def handleRdmsr : Effect :=
  let tempValue := hbRdmsr cpu guestContext.rcx
  ⟨{ guestContext with rdx := tempValue >>> 32, rax := tempValue &&& 0xFFFFFFFF },none⟩

def handleWrmsr : Effect :=
  let tempValue := (guestContext.rdx <<< 32) ||| (guestContext.rax &&& 0xFFFFFFFF)
  ⟨guestContext,some (low guestContext.rcx,tempValue)⟩

def handleXsetbv : Effect :=
  let tempValue := (guestContext.rdx <<< 32) ||| guestContext.rax
  ⟨guestContext,some (low guestContext.rcx,tempValue)⟩

def HalvesInst.handle : HalvesInst → Effect
  | cpuid => hbVmExitCallbackCpuid cpu guestContext
  | rdmsr => handleRdmsr cpu guestContext
  | wrmsr => handleWrmsr guestContext
  | xsetbv => handleXsetbv guestContext

def HalvesInst.results (registers : GuestRegister) : HalvesInst → List U64
  | cpuid => [registers.rax,registers.rbx,registers.rcx,registers.rdx]
  | rdmsr => [registers.rax,registers.rdx]
  | _ => []

/-- What the processor writes: EDX:EAX at the index in ECX. -/
def HalvesInst.architectural : HalvesInst → Option (U32 × U64)
  | wrmsr => some (low guestContext.rcx,low guestContext.rdx ++ low guestContext.rax)
  | xsetbv => some (low guestContext.rcx,low guestContext.rdx ++ low guestContext.rax)
  | _ => none

end Handlers

structure Agree (first second : GuestRegister) : Prop where
  rax : low first.rax = low second.rax
  rcx : low first.rcx = low second.rcx
  rdx : low first.rdx = low second.rdx

structure LikeHardware (cpu : CpuInfo) (inst : HalvesInst) (guestContext : GuestRegister) : Prop where
  written : (inst.handle cpu guestContext).written = inst.architectural guestContext
  zeroExtended : ∀ value ∈ inst.results (inst.handle cpu guestContext).registers, upper value = 0

structure LowDetermined (cpu : CpuInfo) (inst : HalvesInst) (first second : GuestRegister) : Prop where
  written : (inst.handle cpu first).written = (inst.handle cpu second).written
  results : inst.results (inst.handle cpu first).registers = inst.results (inst.handle cpu second).registers
  first : LikeHardware cpu inst first
  second : LikeHardware cpu inst second

/-- The upper halves that get in the way. -/
def UpperQuiet (guestContext : GuestRegister) : HalvesInst → Prop
  | .cpuid => upper guestContext.rax = 0 ∧ upper guestContext.rbx = 0 ∧ upper guestContext.rcx = 0 ∧
      upper guestContext.rdx = 0
  | .xsetbv => upper guestContext.rax &&& ~~~low guestContext.rdx = 0
  | _ => True

section Words
variable (value high : U64)

theorem upper_bit (bit : Nat) : (upper value).getLsbD bit = (decide (bit < 32) && value.getLsbD (32 + bit)) := by
  simp [upper]

theorem storeLow_upper (stored : U32) : upper (storeLow value stored) = upper value := by
  have mask : ∀ bit < 32, (0xFFFFFFFF00000000 : U64).getLsbD (32 + bit) = true := by decide
  apply BitVec.eq_of_getLsbD_eq
  intro bit bound
  simp only [upper_bit,storeLow,BitVec.getLsbD_or,BitVec.getLsbD_and,BitVec.getLsbD_setWidth,mask bit bound]
  simp

theorem storeLow_clear (clear : upper value = 0) (stored : U32) : storeLow value stored = stored.setWidth 64 := by
  have zero : value &&& 0xFFFFFFFF00000000 = 0 := by
    have split : ∀ bit < 64, (0xFFFFFFFF00000000 : U64).getLsbD bit = decide (32 ≤ bit) := by decide
    apply BitVec.eq_of_getLsbD_eq
    intro bit bound
    rw [BitVec.getLsbD_and,split bit bound]
    by_cases above : 32 ≤ bit
    · have here := congrArg (fun word => word.getLsbD (bit - 32)) clear
      simp only [upper_bit,show bit - 32 < 32 by omega,show 32 + (bit - 32) = bit by omega] at here
      simpa [above] using here
    · simp [above]
  rw [storeLow,zero]
  simp

theorem joined_bit (bit : Nat) : (low high ++ low value : U64).getLsbD bit =
    if bit < 32 then value.getLsbD bit else decide (bit < 64) && high.getLsbD (bit - 32) := by
  rw [BitVec.getLsbD_append]
  by_cases below : bit < 32
  · simp [low,below]
  · simp [low,below]
    grind

theorem shifted_bit (bit : Nat) : (high <<< 32).getLsbD bit =
    if bit < 32 then false else decide (bit < 64) && high.getLsbD (bit - 32) := by
  rw [BitVec.getLsbD_shiftLeft]
  by_cases below : bit < 32
  · simp [below]
  · simp [below]

theorem masked_joined : (high <<< 32) ||| (value &&& 0xFFFFFFFF) = low high ++ low value := by
  have mask : ∀ bit < 64, (0xFFFFFFFF : U64).getLsbD bit = decide (bit < 32) := by decide
  apply BitVec.eq_of_getLsbD_eq
  intro bit bound
  rw [joined_bit,BitVec.getLsbD_or,BitVec.getLsbD_and,shifted_bit,mask bit bound]
  by_cases below : bit < 32
  · simp [below]
  · simp [below]

theorem unmasked_joined_iff : (high <<< 32) ||| value = low high ++ low value ↔ upper value &&& ~~~low high = 0 := by
  constructor
  · intro same
    apply BitVec.eq_of_getLsbD_eq
    intro bit bound
    have here := congrArg (fun word : U64 => word.getLsbD (32 + bit)) same
    simp only [joined_bit,BitVec.getLsbD_or,shifted_bit,show ¬ 32 + bit < 32 by omega,if_false,
      show 32 + bit < 64 by omega,decide_true,Bool.true_and,show 32 + bit - 32 = bit by omega] at here
    rw [BitVec.getLsbD_and,BitVec.getLsbD_not,upper_bit]
    simp only [low,BitVec.getLsbD_setWidth,bound,decide_true,Bool.true_and]
    cases set : high.getLsbD bit with
    | true => simp
    | false => simpa [set] using here
  · intro quiet
    apply BitVec.eq_of_getLsbD_eq
    intro bit bound
    rw [joined_bit,BitVec.getLsbD_or,shifted_bit]
    by_cases below : bit < 32
    · simp [below]
    · have here := congrArg (fun word : U32 => word.getLsbD (bit - 32)) quiet
      simp only [BitVec.getLsbD_and,BitVec.getLsbD_not,upper_bit,low,BitVec.getLsbD_setWidth,
        show bit - 32 < 32 by omega,show 32 + (bit - 32) = bit by omega,decide_true,
        Bool.true_and] at here
      simp only [below,if_false,bound,decide_true,Bool.true_and]
      cases set : high.getLsbD (bit - 32) with
      | true => simp
      | false => simpa [set] using here

end Words

section Agreement
variable {cpu : CpuInfo} {guestContext first second : GuestRegister}

theorem upper_shift (value : U64) : upper (value >>> 32) = 0 := by
  apply BitVec.eq_of_getLsbD_eq
  intro bit bound
  simp [upper_bit]
  grind

theorem upper_masked (value : U64) : upper (value &&& 0xFFFFFFFF) = 0 := by
  have mask : ∀ bit < 32, (0xFFFFFFFF : U64).getLsbD (32 + bit) = false := by decide
  apply BitVec.eq_of_getLsbD_eq
  intro bit bound
  rw [upper_bit,BitVec.getLsbD_and,mask bit bound]
  simp

/-- One run is like the processor's exactly if no upper half gets in the way. -/
theorem likeHardware_iff (inst : HalvesInst) :
    LikeHardware cpu inst guestContext ↔ UpperQuiet guestContext inst := by
  cases inst with
  | cpuid =>
    have results : (∀ value ∈ HalvesInst.cpuid.results (hbVmExitCallbackCpuid cpu guestContext).registers,
        upper value = 0) ↔ UpperQuiet guestContext .cpuid := by
      simp only [HalvesInst.results,hbVmExitCallbackCpuid,List.forall_mem_cons,List.not_mem_nil,false_imp_iff,
        implies_true,and_true,storeLow_upper,UpperQuiet]
    exact ⟨fun hardware => results.mp hardware.zeroExtended,fun quiet => ⟨rfl,results.mpr quiet⟩⟩
  | rdmsr =>
    refine iff_of_true ⟨rfl,?_⟩ trivial
    simp only [HalvesInst.results,HalvesInst.handle,handleRdmsr,List.forall_mem_cons,List.not_mem_nil,false_imp_iff,
      implies_true,and_true]
    exact ⟨upper_masked _,upper_shift _⟩
  | wrmsr =>
    refine iff_of_true ⟨?_,by simp [HalvesInst.results]⟩ trivial
    rw [HalvesInst.handle,handleWrmsr,HalvesInst.architectural,masked_joined]
  | xsetbv =>
    have joined := unmasked_joined_iff guestContext.rax guestContext.rdx
    constructor
    · intro hardware
      have same := hardware.written
      simp only [HalvesInst.handle,handleXsetbv,HalvesInst.architectural,Option.some.injEq,Prod.mk.injEq,
        true_and] at same
      exact joined.mp same
    · intro quiet
      refine ⟨?_,by simp [HalvesInst.results]⟩
      rw [HalvesInst.handle,handleXsetbv,HalvesInst.architectural,joined.mpr quiet]

theorem effect_agree (agree : Agree first second) {inst : HalvesInst} (quietFirst : UpperQuiet first inst)
    (quietSecond : UpperQuiet second inst) :
    (inst.handle cpu first).written = (inst.handle cpu second).written ∧
      inst.results (inst.handle cpu first).registers = inst.results (inst.handle cpu second).registers := by
  obtain ⟨rax,rcx,rdx⟩ := agree
  have writtenFirst := ((@likeHardware_iff cpu first inst).mpr quietFirst).written
  have writtenSecond := ((@likeHardware_iff cpu second inst).mpr quietSecond).written
  refine ⟨?_,?_⟩
  · rw [writtenFirst,writtenSecond]
    cases inst with
    | cpuid => rfl
    | rdmsr => rfl
    | wrmsr => simp only [HalvesInst.architectural,rax,rcx,rdx]
    | xsetbv => simp only [HalvesInst.architectural,rax,rcx,rdx]
  · cases inst with
    | cpuid =>
      obtain ⟨firstRax,firstRbx,firstRcx,firstRdx⟩ := quietFirst
      obtain ⟨secondRax,secondRbx,secondRcx,secondRdx⟩ := quietSecond
      simp only [HalvesInst.results,HalvesInst.handle,hbVmExitCallbackCpuid,rax,rcx,storeLow_clear _ firstRax,
        storeLow_clear _ firstRbx,storeLow_clear _ firstRcx,storeLow_clear _ firstRdx,storeLow_clear _ secondRax,
        storeLow_clear _ secondRbx,storeLow_clear _ secondRcx,storeLow_clear _ secondRdx]
    | rdmsr => simp only [HalvesInst.results,HalvesInst.handle,handleRdmsr,hbRdmsr,rcx]
    | wrmsr => rfl
    | xsetbv => rfl

end Agreement

/-- For two contexts with the same low halves, the four instructions do the same and what the
processor does exactly if, in both, CPUID finds its four registers with clear upper halves
and XSETBV finds no bit in the upper half of RAX that EDX lacks. -/
theorem low_determined_iff (cpu : CpuInfo) (inst : HalvesInst) (first second : GuestRegister)
    (agree : Agree first second) :
    LowDetermined cpu inst first second ↔ UpperQuiet first inst ∧ UpperQuiet second inst := by
  constructor
  · intro determined
    exact ⟨(likeHardware_iff inst).mp determined.first,(likeHardware_iff inst).mp determined.second⟩
  · intro ⟨quietFirst,quietSecond⟩
    obtain ⟨written,results⟩ := @effect_agree cpu _ _ agree _ quietFirst quietSecond
    exact ⟨written,results,(likeHardware_iff inst).mpr quietFirst,(likeHardware_iff inst).mpr quietSecond⟩

section Sample

def halvesCpu : CpuInfo := ⟨fun _ _ => (0x16,0x756E6547,0x6C65746E,0x49656E69),fun _ => 0⟩

def halvesContext (rax : U64) : GuestRegister := ⟨rax,0,0,0,0,0,0,0,0,0,0,0,0,0,0,0⟩

/-- The context with 1 in RDX, which covers bit 32 of RAX. -/
def coveredContext (rax : U64) : GuestRegister := { halvesContext rax with rdx := 1 }

theorem low_determined_sample : LowDetermined halvesCpu .xsetbv (coveredContext 7) (coveredContext 0x100000007) :=
  (low_determined_iff halvesCpu .xsetbv (coveredContext 7) (coveredContext 0x100000007) ⟨rfl,rfl,rfl⟩).mpr
    (by unfold UpperQuiet; decide)

/-- XCR0 gets the upper half of RAX, and the result of CPUID keeps it. -/
theorem upper_half_leaks :
    Agree (halvesContext 7) (halvesContext 0x100000007) ∧
    (HalvesInst.xsetbv.handle halvesCpu (halvesContext 7)).written = some (0,7) ∧
    (HalvesInst.xsetbv.handle halvesCpu (halvesContext 0x100000007)).written = some (0,0x100000007) ∧
    (HalvesInst.cpuid.handle halvesCpu (halvesContext 0x100000007)).registers.rax = 0x100000016 := by
  refine ⟨⟨rfl,rfl,rfl⟩,?_⟩
  decide

end Sample
end HyperBox.Exit
