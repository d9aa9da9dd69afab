import HyperBox.Exit.Operand
import HyperBox.Monitor.AddTask
import Mathlib.Tactic.FinCases

/-! The four functions of the guest kernel that Hyper-box watches with the debug registers: how
`DR7` is encoded, the exits of debug exceptions, and the guest that runs between them. A breakpoint
causes one, but so do a single step and `INT1`, and a guest can write the `DR7` of its own VMCS. -/
namespace HyperBox.Monitor
open HyperBox.Library HyperBox.PageTable HyperBox.Exit

section Encoding

def drControlShift : Nat := 16
def drControlSize : Nat := 4
def drEnableSize : Nat := 2
def drGlobalEnable : U64 := 0x2
def x86BreakpointLenX : U64 := 0x40
def x86BreakpointExecute : U64 := 0x80

def hbEncodeDr7 (index : Nat) (len type : U64) : U64 :=
  ((len ||| type) &&& 0xf) <<< (drControlShift + index * drControlSize) ||| drGlobalEnable <<< (index * drEnableSize)

/-- The breakpoint is on, for this core's task or for all. -/
def enables (dr7 : U64) (i : Fin 4) : Bool := dr7.getLsbD (2 * i) || dr7.getLsbD (2 * i + 1)

/-- Kind and length of the breakpoint; 0 is the execution of an instruction. -/
def condition (dr7 : U64) (i : Fin 4) : U64 := dr7 >>> (16 + 4 * i.val) &&& 0xf

theorem enables_or (a b : U64) (i : Fin 4) : enables (a ||| b) i = (enables a i || enables b i) := by
  simp only [enables,BitVec.getLsbD_or]
  grind

theorem condition_or (a b : U64) (i : Fin 4) : condition (a ||| b) i = condition a i ||| condition b i := by
  simp only [condition]
  ext k
  simp
  grind

/-- One encoded breakpoint, as the processor reads it. -/
theorem enables_encoded (i j : Fin 4) (len type : U64) : enables (hbEncodeDr7 i len type) j = decide (i = j) := by
  fin_cases i <;> fin_cases j <;>
    simp [enables,hbEncodeDr7,drControlShift,drControlSize,drGlobalEnable,drEnableSize]

theorem nibble_bit (k : Nat) : (0xf : U64).getLsbD k = decide (k < 4) := by
  rw [show (0xf : U64) = BitVec.ofNat 64 (2^4 - 1) from rfl,BitVec.getLsbD_ofNat,Nat.testBit_two_pow_sub_one]
  grind

theorem drGlobalEnable_bit (k : Nat) : drGlobalEnable.getLsbD k = decide (k = 1) := by
  rw [show drGlobalEnable = BitVec.ofNat 64 (2^1) from rfl,BitVec.getLsbD_ofNat,Nat.testBit_two_pow]
  grind

theorem condition_encoded (i j : Fin 4) (len type : U64) :
    condition (hbEncodeDr7 i len type) j = if i = j then (len ||| type) &&& 0xf else 0 := by
  apply BitVec.eq_of_getLsbD_eq
  intro k _
  simp only [condition,hbEncodeDr7,BitVec.getLsbD_and,BitVec.getLsbD_ushiftRight,BitVec.getLsbD_or,
    BitVec.getLsbD_shiftLeft,nibble_bit,drGlobalEnable_bit,drControlShift,drControlSize,drEnableSize]
  by_cases same : i = j
  · subst same
    have shifted : 16 + 4 * i.val + k - (16 + i.val * 4) = k := by omega
    rw [if_pos rfl,shifted,BitVec.getLsbD_and,BitVec.getLsbD_or,nibble_bit]
    grind
  · have apart : i.val ≠ j.val := fun equal => same (Fin.ext equal)
    have zero : (0 : U64).getLsbD k = false := BitVec.getLsbD_zero
    rw [if_neg same,zero]
    grind
/-- The value for the guest's `DR7` in `hb_setup_vm_guest_register`. -/
def watchedDr7 : U64 :=
  hbEncodeDr7 0 x86BreakpointLenX x86BreakpointExecute ||| hbEncodeDr7 1 x86BreakpointLenX x86BreakpointExecute |||
    hbEncodeDr7 2 x86BreakpointLenX x86BreakpointExecute ||| hbEncodeDr7 3 x86BreakpointLenX x86BreakpointExecute |||
    0x01 <<< 10

def hits (dr : Fin 4 → U64) (dr7 rip : U64) (i : Fin 4) : Bool :=
  enables dr7 i && condition dr7 i == 0 && dr i == rip

/-- The conditions that hold, as the exit reports them. -/
def conditionBits (hit : Fin 4 → Bool) : U64 :=
  (if hit 0 then 0x1 else 0) ||| (if hit 1 then 0x2 else 0) ||| (if hit 2 then 0x4 else 0) ||| (if hit 3 then 0x8 else 0)

end Encoding

def drBitAddTask : U64 := 0x01 <<< 0
def drBitDelTask : U64 := 0x01 <<< 1
def drBitSyscall64 : U64 := 0x01 <<< 2
def drBitCommitCreds : U64 := 0x01 <<< 3

def nrExit : U64 := 60
def rflagsBitRf : U64 := 0x01 <<< 16
def rflagsBitTf : U64 := 0x01 <<< 8
def drBitStep : U64 := 0x01 <<< 14
def vmIntDebugException : Nat := 1
def vmExitIntTypeNmi : Nat := 2
def vmExitIntInfoVector (info : U64) : Nat := (info &&& 0xFF).toNat
def vmExitIntInfoIntType (info : U64) : Nat := ((info >>> 8) &&& 0x07).toNat

/-- What a callback reads and changes: the monitor, the credentials in the guest's memory and the
registers of the guest. -/
structure Watched where
  monitor : MonitorState
  creds : Nat → Cred
  regs : GuestRegister

/-- A core and its own VMCS. While `nested`, the guest of a guest hypervisor runs with a VMCS and
with a `DR7` of its own. `shadowed` is the instruction after a load of SS. -/
structure WatchedCore where
  dr : Fin 4 → U64
  dr6 : U64
  guestDr7 : U64
  nested : Bool
  rip : U64
  rflags : U64
  shadowed : Bool
  regs : GuestRegister
  entryIntInfo : U64

section Handlers
variable (rb : Balancing Nat)

def hbHandleSystemcallBreakpoints (current : Nat) (dr6 : U64) (w : Watched) : Watched :=
  if dr6 &&& drBitSyscall64 ≠ 0 then
    let (monitor,ret) := hbCallbackCheckCredUpdateSyscall w.monitor current (w.regs.rax.setWidth 32).toInt
    { w with monitor, regs := if ret ≠ 0 then { w.regs with rax := nrExit, rdx := -1 } else w.regs }
  else if dr6 &&& drBitAddTask ≠ 0 then
    { w with monitor := hbCallbackAddTask rb w.monitor current w.regs.rdi.toNat }
  else if dr6 &&& drBitDelTask ≠ 0 then
    { w with monitor := hbCallbackDelTask rb w.monitor w.regs.rdi.toNat }
  else if dr6 &&& drBitCommitCreds ≠ 0 then
    let (monitor,new) := hbCallbackUpdateCred w.monitor current (w.creds w.regs.rdi.toNat)
    { w with monitor, creds := Function.update w.creds w.regs.rdi.toNat new }
  else w

structure WatchedSystem (n : Nat) where
  core : Fin n → WatchedCore
  monitor : MonitorState
  creds : Nat → Cred

variable {n : Nat}

namespace WatchedSystem
variable (s : WatchedSystem n) (core : Fin n)

def setCore (c : WatchedCore) : WatchedSystem n := { s with core := Function.update s.core core c }

def watched : Watched := ⟨s.monitor,s.creds,(s.core core).regs⟩

def setWatched (w : Watched) : WatchedSystem n :=
  { s.setCore core { s.core core with regs := w.regs } with monitor := w.monitor, creds := w.creds }

end WatchedSystem

def hbRemoveIntExceptionFromVm (vector : Nat) (c : WatchedCore) : WatchedCore :=
  { c with entryIntInfo := c.entryIntInfo &&& ~~~((0x01 : U64) <<< vector) }

/-- `info` is the interruption information of the exit and `dr6` its qualification. -/
def hbVmExitCallbackInt (s : WatchedSystem n) (core : Fin n) (current : Nat) (shutdowning : Bool) (info dr6 : U64) :
    WatchedSystem n :=
  let vector := vmExitIntInfoVector info
  if vmExitIntInfoIntType info ≠ vmExitIntTypeNmi ∧ vector ≠ vmIntDebugException then s
  else
    let s := if shutdowning then s else
      s.setWatched core (hbHandleSystemcallBreakpoints rb current dr6 (s.watched core))
    let c := s.core core
    let c := { c with dr6 := dr6 &&& 0xfffffffffffffff0, rflags := c.rflags ||| rflagsBitRf }
    s.setCore core (hbRemoveIntExceptionFromVm vector c)

end Handlers

/-- An instruction as far as the watch depends on it. `shadows` is a load of SS, `steps` what a set
trap flag does at its end, and `accesses` the registers whose address it reads or writes. `MOV DR` and
the entry of a nested guest exit and are skipped; the entry fails if the nested VMCS cannot be loaded. -/
inductive InstructionKind where
  | plain (rip rflags : U64) (regs : GuestRegister) (shadows steps : Bool) (accesses : Fin 4 → Bool)
  | int1
  | moveDr (length : U64)
  | vmEntry (length : U64) (loaded : Bool)

structure Instruction where
  current : Nat
  shutdowning : Bool
  kind : InstructionKind

/-- `writeDr7` is a VMWRITE of the guest to the VMCS that it runs with. -/
inductive WatchedEvent (n : Nat) where
  | execute (core : Fin n) (instruction : Instruction)
  | writeDr7 (core : Fin n) (value : U64)
  | nestedDr (core : Fin n) (i : Fin 4) (value : U64)
  | nestedExit (core : Fin n) (found : Bool) (rip : U64)
  | memory (kernel : Nat → TaskStruct) (creds : Nat → Cred)

section Runs
variable (rb : Balancing Nat) (symbols : Fin 4 → U64) {n : Nat}

/-- The information of an exit for a debug exception, and for `INT1`. -/
def debugExceptionInfo : U64 := 0x1 ||| 0x3 <<< 8 ||| 0x1 <<< 31
def int1Info : U64 := 0x1 ||| 0x5 <<< 8 ||| 0x1 <<< 31

def WatchedCore.hit (c : WatchedCore) : Fin 4 → Bool := hits c.dr c.guestDr7 c.rip

/-- The resume flag and a load of SS hold breakpoints back for one instruction. -/
def WatchedCore.Attentive (c : WatchedCore) : Prop := c.rflags &&& rflagsBitRf = 0 ∧ c.shadowed = false

instance (c : WatchedCore) : Decidable c.Attentive := inferInstanceAs (Decidable (_ ∧ _))

def WatchedCore.effect (c : WatchedCore) : InstructionKind → WatchedCore
  | .plain rip rflags regs shadows _ _ => { c with rip, rflags, regs, shadowed := shadows }
  | .int1 => c
  | .moveDr length => { c with rip := c.rip + length }
  | .vmEntry length loaded => { c with rip := c.rip + length, nested := loaded }

/-- A breakpoint for data, which `DR7` may have after a write of the guest. -/
def touches (dr7 : U64) (accesses : Fin 4 → Bool) (i : Fin 4) : Bool :=
  enables dr7 i && condition dr7 i != 0 && accesses i

/-- The conditions that hold at the end of an instruction. -/
def WatchedCore.endBits (c : WatchedCore) (steps : Bool) (accesses : Fin 4 → Bool) : U64 :=
  conditionBits (touches c.guestDr7 accesses) ||| if steps && c.rflags &&& rflagsBitTf != 0 then drBitStep else 0

/-- The debug exception at the end of an instruction: the information and the qualification of its exit. -/
def WatchedCore.raises (c : WatchedCore) : InstructionKind → Option (U64 × U64)
  | .plain _ _ _ shadows steps accesses =>
    if shadows || c.endBits steps accesses == 0 then none else some (debugExceptionInfo,c.endBits steps accesses)
  | .int1 => some (int1Info,0)
  | _ => none

/-- An instruction at a breakpoint exits before it has any effect. -/
def executeStep (s : WatchedSystem n) (core : Fin n) (instruction : Instruction) : WatchedSystem n :=
  let c := s.core core
  if c.nested then s
  else if c.Attentive ∧ ∃ i, c.hit i = true then
    hbVmExitCallbackInt rb s core instruction.current instruction.shutdowning debugExceptionInfo (conditionBits c.hit)
  else
    let done := s.setCore core (c.effect instruction.kind)
    match c.raises instruction.kind with
    | none => done
    | some (info,dr6) => hbVmExitCallbackInt rb done core instruction.current instruction.shutdowning info dr6

/-- An exit of a nested guest puts the debug registers back and resumes the guest hypervisor; without
a slot for the VMCS the nested guest is resumed as it is. -/
def nestedExitStep (c : WatchedCore) (found : Bool) (rip : U64) : WatchedCore :=
  if c.nested && found then
    { c with dr := symbols, dr6 := c.dr6 &&& 0xfffffffffffffff0, nested := false, rip, rflags := 0x02 }
  else c

def watchedStep (s : WatchedSystem n) : WatchedEvent n → WatchedSystem n
  | .execute core instruction => executeStep rb s core instruction
  | .writeDr7 core value =>
    let c := s.core core
    if c.nested then s else s.setCore core { c with guestDr7 := value }
  | .nestedDr core i value =>
    let c := s.core core
    if c.nested then s.setCore core { c with dr := Function.update c.dr i value } else s
  | .nestedExit core found rip => s.setCore core (nestedExitStep symbols (s.core core) found rip)
  | .memory kernel creds => { s with monitor := { s.monitor with kernel }, creds }

/-- The cores as `hb_setup_vm_guest_register` leaves them, with any registers. -/
def watchedStart (monitor : MonitorState) (creds : Nat → Cred) (rip rflags : Fin n → U64) (regs : Fin n → GuestRegister) :
    WatchedSystem n :=
  ⟨fun core => ⟨symbols,0,watchedDr7,false,rip core,rflags core,false,regs core,0⟩,monitor,creds⟩

/-- The callback of each function. -/
def watch (i : Fin 4) (current : Nat) (w : Watched) : Watched :=
  match i with
  | 0 => { w with monitor := hbCallbackAddTask rb w.monitor current w.regs.rdi.toNat }
  | 1 => { w with monitor := hbCallbackDelTask rb w.monitor w.regs.rdi.toNat }
  | 2 =>
    let (monitor,ret) := hbCallbackCheckCredUpdateSyscall w.monitor current (w.regs.rax.setWidth 32).toInt
    { w with monitor, regs := if ret ≠ 0 then { w.regs with rax := nrExit, rdx := -1 } else w.regs }
  | 3 =>
    let (monitor,new) := hbCallbackUpdateCred w.monitor current (w.creds w.regs.rdi.toNat)
    { w with monitor, creds := Function.update w.creds w.regs.rdi.toNat new }

/-- The guest goes on, and the next instruction is not caught. -/
def WatchedCore.resumed (c : WatchedCore) (dr6 : U64) : WatchedCore :=
  { c with
    dr6 := dr6 &&& 0xfffffffffffffff0
    rflags := c.rflags ||| rflagsBitRf
    entryIntInfo := c.entryIntInfo &&& ~~~0x2 }

/-- The core runs the guest at one of the functions, and nothing holds the breakpoint back. -/
structure Comes (symbols : Fin 4 → U64) (c : WatchedCore) (i : Fin 4) : Prop where
  own : c.nested = false
  dr7 : c.guestDr7 = watchedDr7
  rip : c.rip = symbols i
  attentive : c.Attentive

/-- The core runs the guest elsewhere, or the breakpoint is held back. -/
structure Passes (symbols : Fin 4 → U64) (c : WatchedCore) : Prop where
  own : c.nested = false
  dr7 : c.guestDr7 = watchedDr7
  free : ¬ c.Attentive ∨ ∀ i, c.rip ≠ symbols i

structure Mediates (s : WatchedSystem n) (event : WatchedEvent n) : Prop where
  armed : ∀ core, (s.core core).nested = false → (s.core core).dr = symbols
  dr7 : ∀ core, (∀ value, event ≠ .writeDr7 core value) →
    ((watchedStep rb symbols s event).core core).guestDr7 = (s.core core).guestDr7
  caught : ∀ core instruction i, event = .execute core instruction → Comes symbols (s.core core) i →
    instruction.shutdowning = false → watchedStep rb symbols s event =
      let seen := s.setWatched core (watch rb i instruction.current (s.watched core))
      seen.setCore core ((seen.core core).resumed 0)
  shutdown : ∀ core instruction i, event = .execute core instruction → Comes symbols (s.core core) i →
    instruction.shutdowning = true → watchedStep rb symbols s event = s.setCore core ((s.core core).resumed 0)
  passed : ∀ core instruction, event = .execute core instruction → Passes symbols (s.core core) →
    (s.core core).raises instruction.kind = none →
    watchedStep rb symbols s event = s.setCore core ((s.core core).effect instruction.kind)
  stepped : ∀ core instruction info dr6, event = .execute core instruction → Passes symbols (s.core core) →
    (s.core core).raises instruction.kind = some (info,dr6) →
    watchedStep rb symbols s event = s.setCore core (((s.core core).effect instruction.kind).resumed dr6)
  elsewhere : (∀ core instruction, event ≠ .execute core instruction) →
    (watchedStep rb symbols s event).monitor.manager = s.monitor.manager ∧
      (watchedStep rb symbols s event).monitor.killed = s.monitor.killed

variable {rb symbols}

theorem watched_enabled (i : Fin 4) : enables watchedDr7 i = true := by
  have first : enables (hbEncodeDr7 0 x86BreakpointLenX x86BreakpointExecute) i = decide (0 = i) := enables_encoded 0 i _ _
  have second : enables (hbEncodeDr7 1 x86BreakpointLenX x86BreakpointExecute) i = decide (1 = i) := enables_encoded 1 i _ _
  have third : enables (hbEncodeDr7 2 x86BreakpointLenX x86BreakpointExecute) i = decide (2 = i) := enables_encoded 2 i _ _
  have fourth : enables (hbEncodeDr7 3 x86BreakpointLenX x86BreakpointExecute) i = decide (3 = i) := enables_encoded 3 i _ _
  rw [watchedDr7,enables_or,enables_or,enables_or,enables_or,first,second,third,fourth]
  fin_cases i <;> rfl

theorem watched_executes (i : Fin 4) : condition watchedDr7 i = 0 := by
  have execute : ∀ j : Fin 4, condition (hbEncodeDr7 j x86BreakpointLenX x86BreakpointExecute) i = 0 := by
    intro j
    rw [condition_encoded]
    exact ite_eq_right_iff.mpr fun _ => by decide
  have exact_ : condition (0x01 <<< 10) i = 0 := by fin_cases i <;> rfl
  rw [watchedDr7,condition_or,condition_or,condition_or,condition_or,exact_]
  rw [show condition (hbEncodeDr7 0 _ _) i = 0 from execute 0,show condition (hbEncodeDr7 1 _ _) i = 0 from execute 1,
    show condition (hbEncodeDr7 2 _ _) i = 0 from execute 2,show condition (hbEncodeDr7 3 _ _) i = 0 from execute 3]
  rfl

theorem hits_watched (rip : U64) (i : Fin 4) : hits symbols watchedDr7 rip i = decide (symbols i = rip) := by
  rw [hits,watched_enabled,watched_executes]
  simp [beq_eq_decide]

/-- One condition alone leads to its callback. -/
theorem handles_one (i : Fin 4) (current : Nat) (w : Watched) :
    hbHandleSystemcallBreakpoints rb current (conditionBits fun j => decide (j = i)) w = watch rb i current w := by
  fin_cases i <;> rfl

theorem breakpoint_vector : vmExitIntInfoVector debugExceptionInfo = 1 := by decide

/-- The exit of a debug exception, whatever its conditions are. -/
theorem debug_exit {info : U64} (vector : vmExitIntInfoVector info = 1) (s : WatchedSystem n) (core : Fin n) (current : Nat)
    (shutdowning : Bool) (dr6 : U64) :
    hbVmExitCallbackInt rb s core current shutdowning info dr6 =
      let seen := if shutdowning then s else
        s.setWatched core (hbHandleSystemcallBreakpoints rb current dr6 (s.watched core))
      seen.setCore core ((seen.core core).resumed dr6) := by
  have mask : ~~~((0x01 : U64) <<< 1) = ~~~0x2 := by decide
  rw [hbVmExitCallbackInt,if_neg fun other => other.2 vector]
  simp only [vector,hbRemoveIntExceptionFromVm,mask]
  rfl

theorem conditionBits_masked (hit : Fin 4 → Bool) : conditionBits hit &&& 0xfffffffffffffff0 = 0 := by
  unfold conditionBits
  cases hit 0 <;> cases hit 1 <;> cases hit 2 <;> cases hit 3 <;> rfl

/-- The conditions that are reported do not matter to the core but for `DR6`. -/
theorem WatchedCore.resumed_masked (c : WatchedCore) {dr6 : U64} (masked : dr6 &&& 0xfffffffffffffff0 = 0) :
    c.resumed dr6 = c.resumed 0 := by
  rw [WatchedCore.resumed,masked]
  rfl

theorem raises_vector {c : WatchedCore} {kind : InstructionKind} {info dr6 : U64} (raised : c.raises kind = some (info,dr6)) :
    vmExitIntInfoVector info = 1 := by
  cases kind with
  | plain rip rflags regs shadows steps accesses =>
    simp only [WatchedCore.raises] at raised
    split at raised
    · cases raised
    · cases raised
      decide
  | int1 =>
    cases raised
    decide
  | moveDr => cases raised
  | vmEntry => cases raised

/-- With the breakpoints as Hyper-box has set them, only a step is reported at the end of an instruction. -/
theorem raises_silent {c : WatchedCore} (dr7 : c.guestDr7 = watchedDr7) {kind : InstructionKind} {info dr6 : U64}
    (raised : c.raises kind = some (info,dr6)) (current : Nat) (w : Watched) :
    hbHandleSystemcallBreakpoints rb current dr6 w = w := by
  have silent : dr6 = drBitStep ∨ dr6 = 0 := by
    cases kind with
    | plain rip rflags regs shadows steps accesses =>
      have untouched : touches c.guestDr7 accesses = fun _ => false := by
        funext i
        rw [dr7,touches,watched_executes]
        simp
      simp only [WatchedCore.raises] at raised
      split at raised
      · cases raised
      · obtain ⟨_,rfl⟩ := Prod.mk.inj (Option.some.inj raised)
        rw [WatchedCore.endBits,untouched]
        split
        · exact .inl (by decide)
        · exact .inr (by decide)
    | int1 =>
      cases raised
      exact .inr rfl
    | moveDr => cases raised
    | vmEntry => cases raised
  rcases silent with rfl | rfl <;> rfl

theorem WatchedSystem.setWatched_self (s : WatchedSystem n) (core : Fin n) : s.setWatched core (s.watched core) = s := by
  have same : Function.update s.core core (s.core core) = s.core := Function.update_eq_self core s.core
  simp only [WatchedSystem.setWatched,WatchedSystem.watched,WatchedSystem.setCore]
  rw [same]

theorem WatchedSystem.setCore_setCore (s : WatchedSystem n) (core : Fin n) (c c' : WatchedCore) :
    (s.setCore core c).setCore core c' = s.setCore core c' := by
  simp [WatchedSystem.setCore]

@[simp] theorem WatchedSystem.setCore_core (s : WatchedSystem n) (core other : Fin n) (c : WatchedCore) :
    (s.setCore core c).core other = if other = core then c else s.core other := Function.update_apply ..

variable (rb) in
/-- What an exit of a debug exception leaves alone: the breakpoints of all cores. -/
theorem debug_exit_keeps {info : U64} (vector : vmExitIntInfoVector info = 1) (s : WatchedSystem n) (core : Fin n)
    (current : Nat) (shutdowning : Bool) (dr6 : U64) (other : Fin n) :
    let after := (hbVmExitCallbackInt rb s core current shutdowning info dr6).core other
    after.dr = (s.core other).dr ∧ after.guestDr7 = (s.core other).guestDr7 ∧ after.nested = (s.core other).nested := by
  simp only [debug_exit vector]
  cases shutdowning with
  | true =>
    simp only [if_true,WatchedSystem.setCore_core]
    split
    next here => exact here ▸ ⟨rfl,rfl,rfl⟩
    next => exact ⟨rfl,rfl,rfl⟩
  | false =>
    simp only [Bool.false_eq_true,if_false,WatchedSystem.setWatched,WatchedSystem.setCore_core]
    split
    next here => exact here ▸ ⟨rfl,rfl,rfl⟩
    next => exact ⟨rfl,rfl,rfl⟩

def Armed (symbols : Fin 4 → U64) (s : WatchedSystem n) : Prop := ∀ core, (s.core core).nested = false → (s.core core).dr = symbols

variable (rb) in
/-- The step of an instruction keeps `DR7`, and unless a nested guest is entered the debug registers. -/
theorem execute_keeps {s : WatchedSystem n} (core : Fin n) (instruction : Instruction) (other : Fin n) :
    let after := (executeStep rb s core instruction).core other
    after.dr = (s.core other).dr ∧ after.guestDr7 = (s.core other).guestDr7 ∧
      (after.nested = false → (s.core other).nested = false) := by
  have effect : let after := (s.setCore core ((s.core core).effect instruction.kind)).core other
      after.dr = (s.core other).dr ∧ after.guestDr7 = (s.core other).guestDr7 ∧
        ((s.core core).nested = false → after.nested = false → (s.core other).nested = false) := by
    simp only [WatchedSystem.setCore_core]
    split
    next here =>
      subst here
      cases instruction.kind <;> exact ⟨rfl,rfl,fun own _ => own⟩
    next => exact ⟨rfl,rfl,fun _ own => own⟩
  simp only [executeStep]
  split
  next => exact ⟨rfl,rfl,id⟩
  next own =>
    rw [Bool.not_eq_true] at own
    split
    next =>
      obtain ⟨dr,dr7,nested⟩ := debug_exit_keeps rb breakpoint_vector s core instruction.current instruction.shutdowning
        (conditionBits (s.core core).hit) other
      exact ⟨dr,dr7,fun after => nested.symm.trans after⟩
    next =>
      obtain ⟨dr,dr7,nested⟩ := effect
      split
      next => exact ⟨dr,dr7,nested own⟩
      next info dr6 raised =>
        obtain ⟨dr',dr7',nested'⟩ := debug_exit_keeps rb (raises_vector raised)
          (s.setCore core ((s.core core).effect instruction.kind)) core instruction.current instruction.shutdowning dr6 other
        exact ⟨dr'.trans dr,dr7'.trans dr7,fun after => nested own (nested'.symm.trans after)⟩

theorem Armed.step {s : WatchedSystem n} (armed : Armed symbols s) (event : WatchedEvent n) :
    Armed symbols (watchedStep rb symbols s event) := by
  intro other own
  cases event with
  | execute core instruction =>
    obtain ⟨dr,_,nested⟩ := execute_keeps rb core instruction other
    exact dr.trans (armed other (nested own))
  | writeDr7 core value =>
    simp only [watchedStep] at own ⊢
    split
    next nested =>
      rw [if_pos nested] at own
      exact armed other own
    next mine =>
      rw [if_neg mine] at own
      simp only [WatchedSystem.setCore_core] at own ⊢
      split
      next here =>
        subst here
        exact armed other (by simpa using mine)
      next apart =>
        rw [if_neg apart] at own
        exact armed other own
  | nestedDr core i value =>
    simp only [watchedStep] at own ⊢
    split
    next nested =>
      rw [if_pos nested] at own
      simp only [WatchedSystem.setCore_core] at own ⊢
      split
      next here =>
        rw [if_pos here] at own
        exact absurd (nested.symm.trans own) (by decide)
      next apart =>
        rw [if_neg apart] at own
        exact armed other own
    next mine =>
      rw [if_neg mine] at own
      exact armed other own
  | nestedExit core found rip =>
    simp only [watchedStep,WatchedSystem.setCore_core] at own ⊢
    split
    next here =>
      subst here
      rw [if_pos rfl] at own
      unfold nestedExitStep at own ⊢
      split
      next => rfl
      next stays =>
        rw [if_neg stays] at own
        exact armed other own
    next apart =>
      rw [if_neg apart] at own
      exact armed other own
  | memory => exact armed other own

/-- Only a write of the guest to its own VMCS changes `DR7`. -/
theorem step_dr7 (s : WatchedSystem n) (event : WatchedEvent n) (core : Fin n) (kept : ∀ value, event ≠ .writeDr7 core value) :
    ((watchedStep rb symbols s event).core core).guestDr7 = (s.core core).guestDr7 := by
  cases event with
  | execute other instruction => exact (execute_keeps rb other instruction core).2.1
  | writeDr7 other value =>
    have apart : core ≠ other := by
      rintro rfl
      exact kept value rfl
    simp only [watchedStep]
    split
    next => rfl
    next => rw [WatchedSystem.setCore_core,if_neg apart]
  | nestedDr other i value =>
    simp only [watchedStep]
    split
    next =>
      rw [WatchedSystem.setCore_core]
      split
      next here => rw [here]
      next => rfl
    next => rfl
  | nestedExit other found rip =>
    simp only [watchedStep,WatchedSystem.setCore_core]
    split
    next here =>
      subst here
      unfold nestedExitStep
      split <;> rfl
    next => rfl
  | memory => rfl

theorem Comes.exits {s : WatchedSystem n} (distinct : Function.Injective symbols) (armed : Armed symbols s) {core : Fin n}
    {i : Fin 4} (comes : Comes symbols (s.core core) i) (instruction : Instruction) :
    executeStep rb s core instruction =
      hbVmExitCallbackInt rb s core instruction.current instruction.shutdowning debugExceptionInfo
        (conditionBits fun j => decide (j = i)) := by
  have hit : (s.core core).hit = fun j => decide (j = i) := by
    funext j
    rw [WatchedCore.hit,comes.dr7,armed core comes.own,hits_watched,comes.rip,decide_eq_decide]
    exact distinct.eq_iff
  simp [executeStep,comes.own,comes.attentive,hit]

theorem Passes.goes {s : WatchedSystem n} (armed : Armed symbols s) {core : Fin n} (passes : Passes symbols (s.core core))
    (instruction : Instruction) : executeStep rb s core instruction =
      match (s.core core).raises instruction.kind with
      | none => s.setCore core ((s.core core).effect instruction.kind)
      | some (info,dr6) => hbVmExitCallbackInt rb (s.setCore core ((s.core core).effect instruction.kind)) core
          instruction.current instruction.shutdowning info dr6 := by
  have free : ¬ ((s.core core).Attentive ∧ ∃ i, (s.core core).hit i = true) := by
    rintro ⟨attentive,i,hit⟩
    rw [WatchedCore.hit,passes.dr7,armed core passes.own,hits_watched,decide_eq_true_eq] at hit
    rcases passes.free with held | apart
    · exact held attentive
    · exact apart i hit.symm
  rw [executeStep,if_neg (by simp [passes.own]),if_neg free]

theorem watched_mediates {s : WatchedSystem n} (distinct : Function.Injective symbols) (armed : Armed symbols s)
    (event : WatchedEvent n) : Mediates rb symbols s event := by
  refine ⟨armed,fun core kept => step_dr7 s event core kept,?_,?_,?_,?_,?_⟩
  · rintro core instruction i rfl comes runs
    rw [watchedStep,comes.exits distinct armed,debug_exit breakpoint_vector,runs,handles_one]
    simp only [Bool.false_eq_true,if_false,WatchedCore.resumed_masked _ (conditionBits_masked _)]
  · rintro core instruction i rfl comes stops
    rw [watchedStep,comes.exits distinct armed,debug_exit breakpoint_vector,stops]
    simp only [if_true,WatchedCore.resumed_masked _ (conditionBits_masked _)]
  · rintro core instruction rfl passes quiet
    rw [watchedStep,passes.goes armed,quiet]
  · rintro core instruction info dr6 rfl passes raised
    rw [watchedStep,passes.goes armed,raised]
    simp only [debug_exit (raises_vector raised),raises_silent passes.dr7 raised,WatchedSystem.setWatched_self,ite_self,
      WatchedSystem.setCore_core,if_true,WatchedSystem.setCore_setCore]
  · intro other
    cases event with
    | execute core instruction => exact absurd rfl (other core instruction)
    | writeDr7 core value =>
      simp only [watchedStep]
      split <;> exact ⟨rfl,rfl⟩
    | nestedDr core i value =>
      simp only [watchedStep]
      split <;> exact ⟨rfl,rfl⟩
    | nestedExit => exact ⟨rfl,rfl⟩
    | memory => exact ⟨rfl,rfl⟩

end Runs

/-- Where a kernel could have the four functions. -/
def sampleSymbols (i : Fin 4) : U64 := 0xffffffff81000000 + BitVec.ofNat 64 (16 * i.val)

def idleRegisters : GuestRegister := ⟨39,0,0,0,0,0,0,0,0,0,0,0,0,0,0,0⟩

theorem sampleSymbols_injective : Function.Injective sampleSymbols := by
  intro i j
  fin_cases i <;> fin_cases j <;> decide

end HyperBox.Monitor
