import HyperBox.Library.Assembly
import Mathlib.Tactic.IntervalCases

/-! `hb_vm_exit_callback_stub`, where the processor arrives at every VM exit. The stub lays the
guest's registers out on the stack as the structure that the callback takes, loads them back
from there, and enters the guest again; it is the loop that all handlers run in. -/
namespace HyperBox.Asm
open HyperBox.Library

/-- The order of the macro PUSHAQ. -/
def pushaq : List Reg := [.rbp,.rax,.rbx,.rcx,.rdx,.rdi,.rsi,.r8,.r9,.r10,.r11,.r12,.r13,.r14,.r15]

/-- The order of the macro POPAQ. -/
def popaq : List Reg := [.r15,.r14,.r13,.r12,.r11,.r10,.r9,.r8,.rsi,.rdi,.rdx,.rcx,.rbx,.rax,.rbp]

inductive ExitLabel where
  | vmLaunch
  | error
  | hang
deriving DecidableEq

inductive ExitOp where
  | hbVmExitCallback
  | vmresume
  | vmlaunch
  | hbVmResumeFailCallback
deriving DecidableEq

def magic : Word := 0x12345678

def failing : List (Instr ExitLabel ExitOp) :=
  [.label .error,.mov .rdi .rax,.call .hbVmResumeFailCallback,.label .hang,.jmp .hang,.ret]

def launching : List (Instr ExitLabel ExitOp) := .op .vmlaunch::failing

def resuming : List (Instr ExitLabel ExitOp) :=
  [.op .vmresume,.jmp .error,.label .vmLaunch] ++ (popaq.map .pop ++ launching)

def returning : List (Instr ExitLabel ExitOp) :=
  [.pop .rbx,.cmp .rbx magic,.jne .vmLaunch] ++ (popaq.map .pop ++ resuming)

def hbVmExitCallbackStub : List (Instr ExitLabel ExitOp) :=
  pushaq.map .push ++ ([.movImm .rax magic,.push .rax,.mov .rdi .rsp,.call .hbVmExitCallback] ++ returning)

/-- The fields of `struct hb_vm_exit_guest_register` in their order in memory. -/
structure VmExitGuestRegister where
  vmLaunch : Word
  r15 : Word
  r14 : Word
  r13 : Word
  r12 : Word
  r11 : Word
  r10 : Word
  r9 : Word
  r8 : Word
  rsi : Word
  rdi : Word
  rdx : Word
  rcx : Word
  rbx : Word
  rax : Word
  rbp : Word

namespace VmExitGuestRegister
variable (guestContext : VmExitGuestRegister)

def words : List Word :=
  [guestContext.vmLaunch,guestContext.r15,guestContext.r14,guestContext.r13,guestContext.r12,guestContext.r11,
    guestContext.r10,guestContext.r9,guestContext.r8,guestContext.rsi,guestContext.rdi,guestContext.rdx,
    guestContext.rcx,guestContext.rbx,guestContext.rax,guestContext.rbp]

/-- What the registers of a machine are in the structure. -/
def ofRegs (vmLaunch : Word) (regs : Reg → Word) : VmExitGuestRegister :=
  ⟨vmLaunch,regs .r15,regs .r14,regs .r13,regs .r12,regs .r11,regs .r10,regs .r9,regs .r8,regs .rsi,regs .rdi,
    regs .rdx,regs .rcx,regs .rbx,regs .rax,regs .rbp⟩

/-- How the guest has to be entered after the callback. -/
def entry : ExitOp := if guestContext.vmLaunch = magic then .vmresume else .vmlaunch

theorem words_ofRegs (vmLaunch : Word) (regs : Reg → Word) : (ofRegs vmLaunch regs).words = vmLaunch::popaq.map regs := rfl

theorem words_injective {first second : VmExitGuestRegister} (same : first.words = second.words) : first = second := by
  cases first
  cases second
  simpa only [words,List.cons.injEq,VmExitGuestRegister.mk.injEq,and_true] using same

end VmExitGuestRegister

open VmExitGuestRegister

section Stub
variable {σ : Type*} (env : Surroundings ExitOp σ)

/-- What `hb_vm_exit_callback` does to the structure and to everything else there is. It can
also stop the core. -/
abbrev Handler (σ : Type*) := VmExitGuestRegister → σ → Option (VmExitGuestRegister × σ)

/-- The callback is called with the structure right above its return address. When it returns,
the stack pointer is as before the call and the structure holds its results. -/
structure Calls (handler : Handler σ) : Prop where
  returns : ∀ (m : Machine σ) guestContext after rest, m.regs .rdi = m.regs .rsp + 8 →
    loadWords m.mem (m.regs .rdi) 16 = guestContext.words → handler guestContext m.rest = some (after,rest) →
    ∃ m', env.exec .hbVmExitCallback m = .next m' ∧ m'.regs .rsp = m.regs .rsp + 8 ∧ m'.rest = rest ∧
      loadWords m'.mem (m.regs .rdi) 16 = after.words
  stops : ∀ (m : Machine σ) guestContext, m.regs .rdi = m.regs .rsp + 8 →
    loadWords m.mem (m.regs .rdi) 16 = guestContext.words → handler guestContext m.rest = none →
    ∃ m', env.exec .hbVmExitCallback m = .leaves m'

/-- The guest's registers are those that the structure has. -/
def Holds (m : Machine σ) (guestContext : VmExitGuestRegister) : Prop :=
  ofRegs guestContext.vmLaunch m.regs = guestContext

def entered (m : Machine σ) : Config ExitLabel ExitOp σ := .running hbVmExitCallbackStub m

variable {env} {handler : Handler σ}

theorem pushaq_popaq : pushaq.reverse = popaq := rfl

theorem pops_hold {m : Machine σ} {guestContext : VmExitGuestRegister}
    (words : loadWords m.mem (m.regs .rsp) 15 = guestContext.words.tail) :
    Holds (m.popAll popaq) guestContext ∧ (m.popAll popaq).regs .rsp = m.regs .rsp + 120 := by
  refine ⟨?_,popAll_rsp (by decide)⟩
  have popped : popaq.map (m.popAll popaq).regs = guestContext.words.tail :=
    (popAll_words (by decide) (by decide)).trans words
  apply words_injective
  rw [words_ofRegs,popped]
  rfl

/-- The machine when the callback is called, without the return address. -/
def laid (m : Machine σ) : Machine σ :=
  let saved := m.pushAll pushaq
  let flagged := (saved.set .rax magic).push magic
  flagged.set .rdi (flagged.regs .rsp)

theorem saved_eq (m : Machine σ) : m.pushAll pushaq = m.pushWords (pushaq.map m.regs) := pushAll_eq (by decide)

theorem saved_rsp (m : Machine σ) : (m.pushAll pushaq).regs .rsp = m.regs .rsp - 120 := by
  rw [saved_eq]
  exact pushWords_rsp

/-- The registers lie on the stack in the order in which POPAQ takes them. -/
theorem saved_words (m : Machine σ) (n : Nat) (room : 8 * (15 + n) ≤ 2^64) :
    loadWords (m.pushAll pushaq).mem ((m.pushAll pushaq).regs .rsp) (15 + n) =
      popaq.map m.regs ++ loadWords m.mem (m.regs .rsp) n := by
  rw [saved_eq,← pushaq_popaq,List.map_reverse]
  exact pushWords_words _ n room

theorem laid_rsp (m : Machine σ) : (laid m).regs .rsp = m.regs .rsp - 128 := by
  simp only [laid,Machine.set_of_ne _ (show Reg.rsp ≠ .rdi by decide),Machine.push_rsp,
    Machine.set_of_ne _ (show Reg.rsp ≠ .rax by decide),saved_rsp]
  bv_omega

theorem laid_words (m : Machine σ) :
    loadWords (laid m).mem ((laid m).regs .rsp) 16 = (ofRegs magic m.regs).words := by
  have flagged := push_words ((m.pushAll pushaq).set .rax magic) magic (n := 15) (by decide)
  rw [Machine.set_of_ne _ (show Reg.rsp ≠ .rax by decide),Machine.set_mem,saved_words m 0 (by decide),loadWords,
    List.append_nil,← words_ofRegs] at flagged
  exact flagged

/-- The machine that the callback is called on. -/
def calling (env : Surroundings ExitOp σ) (m : Machine σ) : Machine σ :=
  (laid m).push (placeOf hbVmExitCallbackStub env returning)

theorem calling_rdi (m : Machine σ) : (calling env m).regs .rdi = (calling env m).regs .rsp + 8 := by
  have pointer : (laid m).regs .rdi = (laid m).regs .rsp := by simp [laid]
  rw [calling,Machine.push_of_ne _ (by decide),Machine.push_rsp,pointer,BitVec.sub_add_cancel]

variable (env) in
theorem calling_rest (m : Machine σ) : (calling env m).rest = m.rest := by
  simp [calling,laid,saved_eq]

theorem calling_words (m : Machine σ) :
    loadWords (calling env m).mem ((calling env m).regs .rdi) 16 = (ofRegs magic m.regs).words := by
  have pointer : (calling env m).regs .rdi = (laid m).regs .rsp := by
    rw [calling_rdi,calling,Machine.push_rsp,BitVec.sub_add_cancel]
  rw [pointer,calling,push_above _ _ (by decide),laid_words]

theorem reaches_call (m : Machine σ) :
    Reaches hbVmExitCallbackStub env (entered m) (.running (.call .hbVmExitCallback::returning) (laid m)) := by
  refine (reaches_pushes pushaq _ m).trans ?_
  exact .next rfl (.next rfl (.next rfl (.refl _)))

variable (env) in
/-- What comes after the callback: the flag is popped and looked at, then the registers. -/
theorem reaches_entry {m : Machine σ} {after : VmExitGuestRegister}
    (words : loadWords m.mem (m.regs .rsp) 16 = after.words) :
    ∃ m', Holds m' after ∧ m'.regs .rsp = m.regs .rsp + 128 ∧ m'.rest = m.rest ∧
      Reaches hbVmExitCallbackStub env (.running returning m)
        (.running (if after.vmLaunch = magic then resuming else launching) m') := by
  obtain ⟨flag,tail⟩ : loadWord m.mem (m.regs .rsp) = after.vmLaunch ∧
      loadWords m.mem (m.regs .rsp + 8) 15 = after.words.tail := by
    rw [loadWords] at words
    exact ⟨(List.cons.inj words).1,congrArg List.tail words⟩
  let popped := m.pop .rbx
  let looked := popped.flags (decide (popped.regs .rbx < magic)) (popped.regs .rbx == magic)
  have rbx : popped.regs .rbx = after.vmLaunch := (m.pop_self .rbx).trans flag
  have rsp : looked.regs .rsp = m.regs .rsp + 8 := m.pop_rsp (show Reg.rbx ≠ .rsp by decide)
  have above : loadWords looked.mem (looked.regs .rsp) 15 = after.words.tail := by
    rw [rsp]
    exact tail
  obtain ⟨holds,raised⟩ := pops_hold above
  refine ⟨looked.popAll popaq,holds,?_,popAll_rest,?_⟩
  · rw [raised,rsp]
    bv_omega
  · have toJump : Reaches hbVmExitCallbackStub env (.running returning m)
        (.running (.jne .vmLaunch::(popaq.map .pop ++ resuming)) looked) := .next rfl (.next rfl (.refl _))
    refine toJump.trans (.head ?_)
    rw [step,goIf]
    by_cases resumes : after.vmLaunch = magic
    · have stays : (!looked.zf) = false := by simp [looked,Machine.flags,rbx,resumes]
      rw [if_pos resumes,stays]
      exact reaches_pops popaq resuming looked
    · have jumps : (!looked.zf) = true := by simp [looked,Machine.flags,rbx,resumes]
      rw [if_neg resumes,jumps]
      exact .next rfl (reaches_pops popaq launching looked)

/-- The machine that the guest is entered from, when the callback returns. -/
theorem stub_enters (calls : Calls env handler) (m : Machine σ) {after : VmExitGuestRegister} {rest : σ}
    (handled : handler (ofRegs magic m.regs) m.rest = some (after,rest)) :
    ∃ m', Holds m' after ∧ m'.regs .rsp = m.regs .rsp ∧ m'.rest = rest ∧
      Reaches hbVmExitCallbackStub env (entered m)
        (.running (if after.vmLaunch = magic then resuming else launching) m') := by
  rw [← calling_rest env m] at handled
  obtain ⟨back,returned,rsp,rest',words⟩ := calls.returns _ _ _ _ (calling_rdi m) (calling_words m) handled
  rw [calling_rdi,← rsp] at words
  obtain ⟨m',holds,raised,kept,reached⟩ := reaches_entry env words
  refine ⟨m',holds,?_,kept.trans rest',(reaches_call m).trans (.next ?_ reached)⟩
  · rw [raised,rsp,calling,Machine.push_rsp,laid_rsp]
    bv_omega
  · rw [step,← calling,returned]

theorem stub_stops (calls : Calls env handler) (m : Machine σ) (handled : handler (ofRegs magic m.regs) m.rest = none) :
    ∃ m', Reaches hbVmExitCallbackStub env (entered m) (.gone .hbVmExitCallback m') := by
  rw [← calling_rest env m] at handled
  obtain ⟨m',stopped⟩ := calls.stops _ _ (calling_rdi m) (calling_words m) handled
  refine ⟨m',(reaches_call m).trans (.next ?_ (.refl _))⟩
  rw [step,← calling,stopped]

/-- After an entry that failed the core reports it and runs in a circle. -/
def Stuck : Config ExitLabel ExitOp σ → Prop
  | .running code _ => ∃ k < 5, code = failing.drop k
  | .gone o _ => o = .hbVmResumeFailCallback
  | _ => False

theorem Stuck.step {c : Config ExitLabel ExitOp σ} (stuck : Stuck c) : Stuck (step hbVmExitCallbackStub env c) := by
  cases c with
  | running code m =>
    obtain ⟨k,bound,rfl⟩ := stuck
    interval_cases k
    · exact ⟨1,by decide,rfl⟩
    · exact ⟨2,by decide,rfl⟩
    · have failing : failing.drop 2 = (.call .hbVmResumeFailCallback::failing.drop 3) := rfl
      rw [failing,Library.step]
      split
      · exact ⟨3,by decide,rfl⟩
      · rfl
    · exact ⟨4,by decide,rfl⟩
    · exact ⟨3,by decide,rfl⟩
  | gone o m => exact stuck
  | returned addr m => exact stuck
  | lost m => exact stuck

theorem Stuck.never {c finish : Config ExitLabel ExitOp σ} (stuck : Stuck c)
    (reached : Reaches hbVmExitCallbackStub env c finish) {o : ExitOp} {g : Machine σ} (gone : finish = .gone o g) :
    o = .hbVmResumeFailCallback := by
  have still : Stuck finish := reached.keeps (fun _ => Stuck.step) stuck
  rw [gone] at still
  exact still

end Stub

section Loop
variable {σ : Type*}

/-- The guest as the handlers see it: its registers and everything else. -/
abbrev View (σ : Type*) := VmExitGuestRegister × σ

abbrev Phase (σ : Type*) := View σ → View σ

def ExitOp.enters (o : ExitOp) : Prop := o = .vmresume ∨ o = .vmlaunch

theorem entry_enters (after : VmExitGuestRegister) : after.entry.enters := by
  unfold entry ExitOp.enters
  split <;> simp

/-- What VMLAUNCH and VMRESUME do: the guest is entered, or the instruction is refused with a flag. They
keep the registers that the structure has. An entry into a guest state that is not valid is an exit
like others, and counts as entered. -/
structure Enters (env : Surroundings ExitOp σ) (enter : ExitOp → σ → Option σ) : Prop where
  succeeds : ∀ o (m : Machine σ) rest, o.enters → enter o m.rest = some rest →
    ∃ g, env.exec o m = .leaves g ∧ ofRegs magic g.regs = ofRegs magic m.regs ∧ g.rest = rest
  fails : ∀ o (m : Machine σ), o.enters → enter o m.rest = none → ∃ f, env.exec o m = .next f

def withMagic (guestContext : VmExitGuestRegister) : VmExitGuestRegister := { guestContext with vmLaunch := magic }

def view (m : Machine σ) : View σ := (ofRegs magic m.regs,m.rest)

/-- The purpose of the stub: hand the guest's registers to the handler, and enter the guest with
what it left there. -/
def serve (handler : Handler σ) (enter : ExitOp → σ → Option σ) (v : View σ) : Option (View σ) := do
  let (after,rest) ← handler (withMagic v.1) v.2
  let rest' ← enter after.entry rest
  return (withMagic after,rest')

def serveNext (handler : Handler σ) (enter : ExitOp → σ → Option σ) (core : Option (View σ)) (phase : Phase σ) :
    Option (View σ) := core.bind fun v => serve handler enter (phase v)

/-- How the stub ends: in the guest, or never there. -/
inductive Ends (env : Surroundings ExitOp σ) (m : Machine σ) : Option (Machine σ) → Prop where
  | guest {o : ExitOp} {g : Machine σ} : o.enters → Reaches hbVmExitCallbackStub env (entered m) (.gone o g) →
      Ends env m (some g)
  | never : (∀ (o : ExitOp) (g : Machine σ), o.enters →
      ¬ Reaches hbVmExitCallbackStub env (entered m) (.gone o g)) → Ends env m none

/-- A core that runs the guest from one exit to the next, with the stub in between. At an exit
only the registers and the rest follow from what the guest did; the memory is anything. -/
inductive Loops (env : Surroundings ExitOp σ) : Option (Machine σ) → List (Phase σ) → Option (Machine σ) → Prop where
  | done (core : Option (Machine σ)) : Loops env core [] core
  | exits {g m : Machine σ} {phase : Phase σ} {phases : List (Phase σ)} {core last : Option (Machine σ)} :
      view m = (withMagic (phase (view g)).1,(phase (view g)).2) → Ends env m core → Loops env core phases last →
      Loops env (some g) (phase::phases) last
  | off {phase : Phase σ} {phases : List (Phase σ)} {last : Option (Machine σ)} : Loops env none phases last →
      Loops env none (phase::phases) last

variable {env : Surroundings ExitOp σ} {handler : Handler σ} {enter : ExitOp → σ → Option σ}

theorem holds_view {m : Machine σ} {after : VmExitGuestRegister} (holds : Holds m after) :
    ofRegs magic m.regs = withMagic after := by
  rw [← holds]
  rfl

theorem leaves_step (o : ExitOp) {rest : List (Instr ExitLabel ExitOp)} {m g : Machine σ} (leaves : env.exec o m = .leaves g) :
    step hbVmExitCallbackStub env (.running (.op o::rest) m) = .gone o g := by
  rw [step,leaves]

theorem next_step (o : ExitOp) {rest : List (Instr ExitLabel ExitOp)} {m f : Machine σ} (next : env.exec o m = .next f) :
    step hbVmExitCallbackStub env (.running (.op o::rest) m) = .running rest f := by
  rw [step,next]

variable (env) in
theorem entering_code (after : VmExitGuestRegister) :
    ∃ rest, (if after.vmLaunch = magic then resuming else launching) = .op after.entry::rest ∧
      ∀ f, ∃ c, Reaches hbVmExitCallbackStub env (.running rest f) c ∧ Stuck c := by
  by_cases resumes : after.vmLaunch = magic
  · refine ⟨resuming.tail,?_,fun f => ⟨.running failing f,.next rfl (.refl _),0,by decide,rfl⟩⟩
    rw [if_pos resumes,entry,if_pos resumes]
    rfl
  · refine ⟨failing,?_,fun f => ⟨.running failing f,.refl _,0,by decide,rfl⟩⟩
    rw [if_neg resumes,entry,if_neg resumes]
    rfl

/-- One exit: the stub ends as the abstract loop says. -/
theorem stub_ends (calls : Calls env handler) (enters : Enters env enter) (m : Machine σ) :
    ∃ core, Ends env m core ∧ core.map view = serve handler enter (view m) := by
  have same : serve handler enter (view m) = (handler (ofRegs magic m.regs) m.rest).bind fun result =>
      (enter result.1.entry result.2).bind fun rest => some (withMagic result.1,rest) := rfl
  rw [same]
  cases handled : handler (ofRegs magic m.regs) m.rest with
  | none =>
    obtain ⟨m',stopped⟩ := stub_stops calls m handled
    refine ⟨none,.never ?_,rfl⟩
    intro o g entering reached
    have here := (stopped.passes rfl reached).rested rfl
    rw [Config.gone.injEq] at here
    rw [here.1] at entering
    simp [ExitOp.enters] at entering
  | some result =>
    obtain ⟨after,rest⟩ := result
    obtain ⟨m',holds,_,rfl,reached⟩ := stub_enters calls m handled
    obtain ⟨code,entering,fails⟩ := entering_code env after
    rw [entering] at reached
    rw [Option.bind_some]
    cases entry : enter after.entry m'.rest with
    | some rest' =>
      obtain ⟨g,leaves,regs,rfl⟩ := enters.succeeds _ m' _ (entry_enters after) entry
      refine ⟨some g,.guest (entry_enters after) (reached.trans (.next (leaves_step _ leaves) (.refl _))),?_⟩
      rw [Option.map_some,Option.bind_some,view,regs,holds_view holds]
    | none =>
      obtain ⟨f,next⟩ := enters.fails _ m' (entry_enters after) entry
      obtain ⟨c,toStuck,stuck⟩ := fails f
      refine ⟨none,.never ?_,rfl⟩
      intro o g entering reached'
      have passed := (reached.trans (.next (next_step _ next) toStuck)).passes rfl reached'
      rw [stuck.never passed rfl] at entering
      simp [ExitOp.enters] at entering

theorem Ends.unique {m : Machine σ} {first second : Option (Machine σ)} (ends : Ends env m first)
    (ends' : Ends env m second) : first = second := by
  cases ends with
  | guest entering reached =>
    cases ends' with
    | guest entering' reached' =>
      have here := (reached.passes rfl reached').rested rfl
      rw [Config.gone.injEq] at here
      rw [here.2]
    | never out => exact absurd reached (out _ _ entering)
  | never out =>
    cases ends' with
    | guest entering reached => exact absurd reached (out _ _ entering)
    | never _ => rfl

theorem loops_run (calls : Calls env handler) (enters : Enters env enter) {core last : Option (Machine σ)}
    {phases : List (Phase σ)} (loops : Loops env core phases last) :
    last.map view = run (serveNext handler enter) (core.map view) phases := by
  induction loops with
  | done core => rfl
  | @exits g m phase phases core last shown ends later ih =>
    obtain ⟨core',ends',served⟩ := stub_ends calls enters m
    obtain rfl := ends.unique ends'
    have next : core.map view = serveNext handler enter ((some g).map view) phase := by
      rw [served,shown]
      rfl
    rw [ih,run_cons,next]
  | off later ih => exact ih

/-- A machine that a view shows. -/
def shows (g : Machine σ) (v : View σ) : Machine σ :=
  { g with
    regs := fun
      | .rax => v.1.rax
      | .rbx => v.1.rbx
      | .rcx => v.1.rcx
      | .rdx => v.1.rdx
      | .rbp => v.1.rbp
      | .rsp => g.regs .rsp
      | .rsi => v.1.rsi
      | .rdi => v.1.rdi
      | .r8 => v.1.r8
      | .r9 => v.1.r9
      | .r10 => v.1.r10
      | .r11 => v.1.r11
      | .r12 => v.1.r12
      | .r13 => v.1.r13
      | .r14 => v.1.r14
      | .r15 => v.1.r15
    rest := v.2 }

theorem loops_exist (calls : Calls env handler) (enters : Enters env enter) (core : Option (Machine σ))
    (phases : List (Phase σ)) : ∃ last, Loops env core phases last := by
  induction phases generalizing core with
  | nil => exact ⟨core,.done core⟩
  | cons phase phases ih =>
    cases core with
    | none =>
      obtain ⟨last,later⟩ := ih none
      exact ⟨last,.off later⟩
    | some g =>
      obtain ⟨core',ends,_⟩ := stub_ends calls enters (shows g (phase (view g)))
      obtain ⟨last,later⟩ := ih core'
      exact ⟨last,.exits rfl ends later⟩

/-- Whatever the guest does between its exits, a core that runs through the stub is the loop in
which the handler gets the guest's registers and the guest goes on with what it left there. -/
theorem exit_stub_refines (env : Surroundings ExitOp σ) (handler : Handler σ) (enter : ExitOp → σ → Option σ)
    (calls : Calls env handler) (enters : Enters env enter) (g : Machine σ) (phases : List (Phase σ)) :
    (∃ last, Loops env (some g) phases last) ∧
      ∀ last, Loops env (some g) phases last → last.map view = run (serveNext handler enter) (some (view g)) phases :=
  ⟨loops_exist calls enters _ _,fun _ loops => loops_run calls enters loops⟩

end Loop

section Processor
variable {σ : Type*} (handler : Handler σ) (enter : ExitOp → σ → Option σ)

def ofWords : List Word → VmExitGuestRegister
  | [vmLaunch,r15,r14,r13,r12,r11,r10,r9,r8,rsi,rdi,rdx,rcx,rbx,rax,rbp] =>
    ⟨vmLaunch,r15,r14,r13,r12,r11,r10,r9,r8,rsi,rdi,rdx,rcx,rbx,rax,rbp⟩
  | _ => ⟨0,0,0,0,0,0,0,0,0,0,0,0,0,0,0,0⟩

/-- A processor, and a compiled callback that does what the handler does and returns. -/
def processor : Surroundings ExitOp σ where
  place position := BitVec.ofNat 64 position
  exec o m :=
    match o with
    | .hbVmExitCallback =>
      match handler (ofWords (loadWords m.mem (m.regs .rdi) 16)) m.rest with
      | none => .leaves m
      | some (after,rest) =>
        .next { m.set .rsp (m.regs .rsp + 8) with mem := storeWords m.mem (m.regs .rdi) after.words, rest := rest }
    | .hbVmResumeFailCallback => .next (m.set .rsp (m.regs .rsp + 8))
    | entry =>
      match enter entry m.rest with
      | none => .next (m.flags true false)
      | some rest => .leaves { m with rest := rest }

theorem processor_calls : Calls (processor handler enter) handler := by
  refine ⟨?_,?_⟩
  · intro m guestContext after rest _ words handled
    have read : handler (ofWords (loadWords m.mem (m.regs .rdi) 16)) m.rest = some (after,rest) := by
      rw [words]
      exact handled
    refine ⟨{ m.set .rsp (m.regs .rsp + 8) with mem := storeWords m.mem (m.regs .rdi) after.words, rest := rest },?_,?_⟩
    · simp only [processor,read]
    · refine ⟨m.set_self .rsp _,rfl,?_⟩
      have room : 8 * after.words.length ≤ 2^64 := (by decide : 8 * 16 ≤ 2^64)
      exact loadWords_storeWords room
  · intro m guestContext _ words handled
    have read : handler (ofWords (loadWords m.mem (m.regs .rdi) 16)) m.rest = none := by
      rw [words]
      exact handled
    exact ⟨m,by simp only [processor,read]⟩

theorem processor_enters : Enters (processor handler enter) enter := by
  refine ⟨?_,?_⟩
  · rintro o m rest (rfl | rfl) entry
    · exact ⟨{ m with rest := rest },by simp only [processor,entry],rfl,rfl⟩
    · exact ⟨{ m with rest := rest },by simp only [processor,entry],rfl,rfl⟩
  · rintro o m (rfl | rfl) entry
    · exact ⟨m.flags true false,by simp only [processor,entry]⟩
    · exact ⟨m.flags true false,by simp only [processor,entry]⟩

end Processor

section Sample

/-- The time stamp counter is read as 5, and an exit with RCX at 1 asks for a launch. -/
def sampleHandler : Handler Bool := fun guestContext launched =>
  some (if guestContext.rcx = 1 then { guestContext with vmLaunch := 0 } else { guestContext with rax := 5, rdx := 0 },launched)

def sampleEnter (o : ExitOp) (launched : Bool) : Option Bool :=
  if (o = .vmresume) = (launched = true) then some true else none

def sampleMachine : Machine Bool := ⟨fun _ => 3,false,false,fun _ => 0,true⟩

theorem exit_stub_refines_sample :
    (∃ last, Loops (processor sampleHandler sampleEnter) (some sampleMachine) [id,fun v => ({ v.1 with rcx := 1 },v.2)] last) ∧
      ∀ last, Loops (processor sampleHandler sampleEnter) (some sampleMachine)
        [id,fun v => ({ v.1 with rcx := 1 },v.2)] last → last.map view = none :=
  exit_stub_refines _ sampleHandler sampleEnter (processor_calls _ _) (processor_enters _ _) sampleMachine
    [id,fun v => ({ v.1 with rcx := 1 },v.2)]

end Sample
end HyperBox.Asm
