import HyperBox.Asm.ExitStub

/-! Interrupts and exceptions that arrive while the host runs. The processor pushes what it needs
to come back, and for some vectors an error code; the stubs save all registers, call a C function
and leave with IRETQ. -/
namespace HyperBox.Asm
open HyperBox.Library

inductive IntOp where
  | hbIntCallback
  | hbIntWithErrorCallback
  | hbIntNmiCallback
  | iretq
deriving DecidableEq

abbrev IntCode := List (Instr Empty IntOp)

/-- The three stubs differ in the function called, and one drops the error code. -/
def intStub (callback : IntOp) (dropped : List (Instr Empty IntOp)) : IntCode :=
  pushaq.map .push ++ (.call callback::(popaq.map .pop ++ (dropped ++ [.op .iretq])))

def hbIntCallbackStub : IntCode := intStub .hbIntCallback []
def hbIntWithErrorCallbackStub : IntCode := intStub .hbIntWithErrorCallback [.add .rsp 8]
def hbIntNmiCallbackStub : IntCode := intStub .hbIntNmiCallback []

/-- The table of `hb_setup_host_idt_and_protect`, and what the entries behind it get. -/
def handlers : List IntCode :=
  [hbIntCallbackStub,hbIntCallbackStub,hbIntNmiCallbackStub,hbIntCallbackStub,hbIntCallbackStub,hbIntCallbackStub,
    hbIntCallbackStub,hbIntCallbackStub,hbIntWithErrorCallbackStub,hbIntCallbackStub,hbIntWithErrorCallbackStub,
    hbIntWithErrorCallbackStub,hbIntWithErrorCallbackStub,hbIntWithErrorCallbackStub,hbIntWithErrorCallbackStub,
    hbIntCallbackStub,hbIntCallbackStub,hbIntWithErrorCallbackStub,hbIntCallbackStub,hbIntCallbackStub,
    hbIntCallbackStub,hbIntWithErrorCallbackStub]

def hostHandler (vector : Nat) : IntCode := if vector < 22 then handlers.getD vector [] else hbIntCallbackStub

/-- The exceptions for which the processor pushes an error code. -/
def errorVectors : List Nat := [8,10,11,12,13,14,17,21]

/-- What is saved besides the general registers. The two flags that code looks at are kept apart
from the rest of RFLAGS. -/
structure Flow (τ : Type*) where
  rip : Word
  cs : Word
  ss : Word
  rflags : Word
  other : τ

section Delivery
variable {τ : Type*}

def flagMask : Word := 0x41

/-- RFLAGS as it is pushed: CF is bit 0 and ZF bit 6. -/
def packFlags (m : Machine (Flow τ)) : Word :=
  (m.rest.rflags &&& ~~~flagMask) ||| (if m.cf then 1 else 0) ||| (if m.zf then 0x40 else 0)

/-- The frame of an interrupt, lowest address first. -/
def frame (m : Machine (Flow τ)) : List Word :=
  [m.rest.rip,m.rest.cs,packFlags m,m.regs .rsp,m.rest.ss]

/-- The processor goes to the stack of the gate, pushes the frame there and starts the handler. -/
def deliver (top : Word) (errorCode : Option Word) (m : Machine (Flow τ)) : Machine (Flow τ) :=
  (m.set .rsp top).pushWords ((frame m).reverse ++ errorCode.toList)

def iretq (m : Machine (Flow τ)) : Machine (Flow τ) :=
  let rflags := loadWord m.mem (m.regs .rsp + 16)
  { m.set .rsp (loadWord m.mem (m.regs .rsp + 24)) with
    cf := rflags.getLsbD 0
    zf := rflags.getLsbD 6
    rest := { m.rest with
      rip := loadWord m.mem (m.regs .rsp)
      cs := loadWord m.mem (m.regs .rsp + 8)
      rflags := rflags
      ss := loadWord m.mem (m.regs .rsp + 32) } }

/-- The interrupted code goes on as if nothing had been. -/
structure Resumes (m m' : Machine (Flow τ)) : Prop where
  regs : m'.regs = m.regs
  cf : m'.cf = m.cf
  zf : m'.zf = m.zf
  rflags : packFlags m' = packFlags m
  rip : m'.rest.rip = m.rest.rip
  cs : m'.rest.cs = m.rest.cs
  ss : m'.rest.ss = m.rest.ss

/-- The C functions return, and leave alone what the stub has on the stack. -/
structure Host (env : Surroundings IntOp (Flow τ)) (effect : τ → τ) : Prop where
  iretq : ∀ m, env.exec .iretq m = .leaves (iretq m)
  callback : ∀ (o : IntOp) (m : Machine (Flow τ)), o ≠ .iretq → ∃ m', env.exec o m = .next m' ∧
    m'.regs .rsp = m.regs .rsp + 8 ∧ m'.rest = { m.rest with other := effect m.rest.other } ∧
    loadWords m'.mem (m.regs .rsp + 8) 21 = loadWords m.mem (m.regs .rsp + 8) 21

theorem packFlags_bit (m : Machine (Flow τ)) {i : Nat} (bound : i < 64) :
    (packFlags m).getLsbD i = if i = 0 then m.cf else if i = 6 then m.zf else m.rest.rflags.getLsbD i := by
  have mask : ∀ i < 64, flagMask.getLsbD i = (decide (i = 0) || decide (i = 6)) := by decide
  have carry : ∀ i < 64, ∀ cf : Bool, (if cf then (1 : Word) else 0).getLsbD i = (cf && decide (i = 0)) := by decide
  have zero : ∀ i < 64, ∀ zf : Bool, (if zf then (0x40 : Word) else 0).getLsbD i = (zf && decide (i = 6)) := by decide
  rw [packFlags,BitVec.getLsbD_or,BitVec.getLsbD_or,BitVec.getLsbD_and,BitVec.getLsbD_not,mask i bound,carry i bound,
    zero i bound]
  by_cases first : i = 0
  · simp [first]
  · by_cases second : i = 6
    · simp [second]
    · simp [first,second,bound]

variable {m : Machine (Flow τ)}

theorem iretq_resumes {b : Machine (Flow τ)} (regs : ∀ r, r ≠ .rsp → b.regs r = m.regs r)
    (words : loadWords b.mem (b.regs .rsp) 5 = frame m) : Resumes m (iretq b) := by
  have far : ∀ sp : Word, sp + 8 + 8 = sp + 16 ∧ sp + 16 + 8 = sp + 24 ∧ sp + 24 + 8 = sp + 32 := by
    intro sp
    refine ⟨?_,?_,?_⟩ <;> bv_omega
  obtain ⟨second,third,fourth⟩ := far (b.regs .rsp)
  simp only [loadWords,frame,List.cons.injEq,and_true,second,third,fourth] at words
  obtain ⟨rip,cs,rflags,rsp,ss⟩ := words
  have carry : (iretq b).cf = m.cf := by
    simp only [iretq,rflags]
    exact packFlags_bit m (by decide)
  have zero : (iretq b).zf = m.zf := by
    simp only [iretq,rflags]
    exact packFlags_bit m (by decide)
  refine ⟨?_,carry,zero,?_,rip,cs,ss⟩
  · funext r
    by_cases stack : r = .rsp
    · rw [stack]
      exact (b.set_self .rsp _).trans rsp
    · exact (b.set_of_ne stack _).trans (regs r stack)
  · apply BitVec.eq_of_getLsbD_eq
    intro i bound
    rw [packFlags_bit _ bound,carry,zero,packFlags_bit m bound]
    by_cases first : i = 0
    · rw [if_pos first,if_pos first]
    · by_cases second : i = 6
      · rw [if_neg first,if_neg first,if_pos second,if_pos second]
      · simp only [iretq,rflags,packFlags_bit m bound,if_neg first,if_neg second]

theorem deliver_rest (top : Word) (errorCode : Option Word) : (deliver top errorCode m).rest = m.rest := pushWords_rest

theorem deliver_regs (top : Word) (errorCode : Option Word) {r : Reg} (apart : r ≠ .rsp) :
    (deliver top errorCode m).regs r = m.regs r := by
  rw [deliver,pushWords_of_ne apart,Machine.set_of_ne _ apart]

theorem deliver_rsp (top : Word) (errorCode : Option Word) :
    (deliver top errorCode m).regs .rsp = top - BitVec.ofNat 64 (8 * (5 + errorCode.toList.length)) := by
  rw [deliver,pushWords_rsp,Machine.set_self,List.length_append]
  rfl

theorem deliver_words (top : Word) (errorCode : Option Word) :
    loadWords (deliver top errorCode m).mem ((deliver top errorCode m).regs .rsp) (errorCode.toList.length + 5) =
      errorCode.toList ++ frame m := by
  have pushed := pushWords_words (m := m.set .rsp top) ((frame m).reverse ++ errorCode.toList) 0 (by
    cases errorCode <;> simp [frame])
  have backwards : errorCode.toList.reverse = errorCode.toList := by cases errorCode <;> rfl
  rw [List.length_append,List.length_reverse,List.reverse_append,List.reverse_reverse,backwards,loadWords,
    List.append_nil,Nat.add_zero,Nat.add_comm] at pushed
  exact pushed

/-- All that the stub has on the stack when the C function is called. -/
def context (errorCode : Option Word) (m : Machine (Flow τ)) : List Word :=
  popaq.map m.regs ++ (errorCode.toList ++ frame m)

def contextSize (errorCode : Option Word) : Nat := 15 + (errorCode.toList.length + 5)

theorem contextSize_le (errorCode : Option Word) : contextSize errorCode ≤ 21 := by
  cases errorCode <;> simp [contextSize]

theorem saved_context (top : Word) (errorCode : Option Word) :
    let saved := (deliver top errorCode m).pushAll pushaq
    loadWords saved.mem (saved.regs .rsp) (contextSize errorCode) = context errorCode m := by
  have same : popaq.map (deliver top errorCode m).regs = popaq.map m.regs := by
    apply List.map_congr_left
    intro r member
    exact deliver_regs top errorCode (fun stack => by simp [stack,popaq] at member)
  have room : 8 * (15 + (errorCode.toList.length + 5)) ≤ 2^64 := by cases errorCode <;> simp
  have words := saved_words (deliver top errorCode m) (errorCode.toList.length + 5) room
  rw [same,deliver_words] at words
  exact words

def dropped (errorCode : Option Word) : IntCode := if errorCode.isSome then [.add .rsp 8] else []

section Stubs
variable {env : Surroundings IntOp (Flow τ)} {effect : τ → τ} (host : Host env effect) {errorCode : Option Word}
include host

theorem reaches_iretq (code : IntCode) {b : Machine (Flow τ)} (regs : ∀ r, r ≠ .rsp → b.regs r = m.regs r)
    (words : loadWords b.mem (b.regs .rsp) (errorCode.toList.length + 5) = errorCode.toList ++ frame m) :
    ∃ g, Reaches code env (.running (dropped errorCode ++ [.op .iretq]) b) (.gone .iretq g) ∧
      Resumes m g ∧ g.rest.other = b.rest.other ∧ g.mem = b.mem := by
  cases errorCode with
  | none =>
    refine ⟨iretq b,.next ?_ (.refl _),iretq_resumes regs words,rfl,rfl⟩
    rw [show dropped none ++ [.op .iretq] = [.op .iretq] from rfl,step,host.iretq]
  | some errorCode =>
    let raised := (b.set .rsp (b.regs .rsp + 8)).flags (decide (b.regs .rsp + 8 < b.regs .rsp)) (b.regs .rsp + 8 == 0)
    have kept : ∀ r, r ≠ .rsp → raised.regs r = m.regs r := fun r apart => (b.set_of_ne apart _).trans (regs r apart)
    have above : loadWords raised.mem (raised.regs .rsp) 5 = frame m := (loadWords_split (m := 1) rfl words).2
    refine ⟨iretq raised,.next rfl (.next ?_ (.refl _)),iretq_resumes kept above,rfl,rfl⟩
    change step code env (.running [.op .iretq] raised) = _
    rw [step,host.iretq]

/-- What a stub does after the C function: it goes back to whatever context is on the stack. -/
theorem unwinds (code : IntCode) {b : Machine (Flow τ)}
    (words : loadWords b.mem (b.regs .rsp) (contextSize errorCode) = context errorCode m) :
    ∃ g, Reaches code env (.running (popaq.map .pop ++ (dropped errorCode ++ [.op .iretq])) b) (.gone .iretq g) ∧
      Resumes m g ∧ g.rest.other = b.rest.other ∧ g.mem = b.mem := by
  obtain ⟨saved,above⟩ := loadWords_split (m := 15) rfl words
  have same : popaq.map (b.popAll popaq).regs = popaq.map m.regs := (popAll_words (by decide) (by decide)).trans saved
  have regs : ∀ r, r ≠ .rsp → (b.popAll popaq).regs r = m.regs r := by
    intro r apart
    refine List.map_inj_left.mp same r ?_
    cases r <;> first | exact absurd rfl apart | decide
  have rsp : (b.popAll popaq).regs .rsp = b.regs .rsp + 120 := popAll_rsp (by decide)
  have frame : loadWords (b.popAll popaq).mem ((b.popAll popaq).regs .rsp) (errorCode.toList.length + 5) =
      errorCode.toList ++ frame m := by
    rw [popAll_mem,rsp]
    exact above
  obtain ⟨g,reached,resumes,other,mem⟩ := reaches_iretq host code regs frame
  rw [popAll_rest] at other
  rw [popAll_mem] at mem
  exact ⟨g,(reaches_pops popaq _ b).trans reached,resumes,other,mem⟩

end Stubs

/-- The table has the stub that drops an error code exactly where the processor pushes one. -/
theorem handler_shape (vector : Nat) : ∃ callback, callback ≠ .iretq ∧
    hostHandler vector = intStub callback (if vector ∈ errorVectors then [.add .rsp 8] else []) := by
  have table : ∀ vector < 22, ∃ callback ∈ [IntOp.hbIntCallback,.hbIntWithErrorCallback,.hbIntNmiCallback],
      hostHandler vector = intStub callback (if vector ∈ errorVectors then [.add .rsp 8] else []) := by decide
  by_cases listed : vector < 22
  · obtain ⟨callback,member,same⟩ := table vector listed
    refine ⟨callback,?_,same⟩
    rintro rfl
    simp at member
  · have plain : vector ∉ errorVectors := by
      simp only [errorVectors,List.mem_cons,List.not_mem_nil,or_false]
      omega
    exact ⟨.hbIntCallback,by decide,by rw [if_neg plain,hostHandler,if_neg listed]; rfl⟩

/-- What `hostHandler` runs after the call of its C function. -/
def afterCallback (vector : Nat) : IntCode := (hostHandler vector).drop 16

section Stubs
variable {env : Surroundings IntOp (Flow τ)} {effect : τ → τ} {vector : Nat} {errorCode : Option Word}
  (host : Host env effect) (pushed : errorCode.isSome = decide (vector ∈ errorVectors))
include pushed

theorem handler_code : ∃ callback, callback ≠ .iretq ∧
    hostHandler vector = pushaq.map .push ++ (.call callback::afterCallback vector) ∧
    afterCallback vector = popaq.map .pop ++ (dropped errorCode ++ [.op .iretq]) := by
  obtain ⟨callback,real,same⟩ := handler_shape vector
  have drops : (if vector ∈ errorVectors then [.add .rsp 8] else []) = dropped errorCode := by
    simp only [dropped,pushed,decide_eq_true_eq]
  have after : afterCallback vector = popaq.map .pop ++ (dropped errorCode ++ [.op .iretq]) := by
    rw [afterCallback,same,drops]
    rfl
  exact ⟨callback,real,by rw [same,drops,after]; rfl,after⟩

include host

/-- The C function is called with the context on the stack, and it is still there afterwards. -/
theorem winds (top : Word) (m : Machine (Flow τ)) :
    ∃ b, Reaches (hostHandler vector) env (.running (hostHandler vector) (deliver top errorCode m))
        (.running (afterCallback vector) b) ∧
      b.regs .rsp = top - BitVec.ofNat 64 (8 * contextSize errorCode) ∧
      loadWords b.mem (b.regs .rsp) (contextSize errorCode) = context errorCode m ∧
      b.rest.other = effect m.rest.other := by
  obtain ⟨callback,real,code,_⟩ := handler_code pushed
  let saved := (deliver top errorCode m).pushAll pushaq
  let called := saved.push (placeOf (hostHandler vector) env (afterCallback vector))
  obtain ⟨b,returned,rsp,rest,words⟩ := host.callback callback called real
  have pointer : b.regs .rsp = saved.regs .rsp := by rw [rsp,Machine.push_rsp,BitVec.sub_add_cancel]
  refine ⟨b,?_,?_,?_,?_⟩
  · conv => arg 3; rw [code]
    refine (reaches_pushes pushaq _ _).trans (.next ?_ (.refl _))
    rw [step,returned]
  · rw [pointer,saved_rsp,deliver_rsp,contextSize]
    cases errorCode <;> simp <;> bv_omega
  · have whole : loadWords b.mem (saved.regs .rsp) 21 = loadWords saved.mem (saved.regs .rsp) 21 := by
      rw [← pointer,rsp,words,← rsp,pointer]
      exact push_above saved _ (by decide)
    rw [pointer,loadWords_le (contextSize_le errorCode) whole]
    exact saved_context top errorCode
  · have kept : called.rest = m.rest := by
      simp only [called,saved,Machine.push_rest,saved_eq,pushWords_rest,deliver_rest]
    rw [rest,kept]

end Stubs

/-- Whatever interrupt or exception hits the host, the code that it hit goes on with all registers
and flags as they were, when the C function has returned. -/
theorem interrupt_transparent (env : Surroundings IntOp (Flow τ)) (effect : τ → τ) (vector : Nat)
    (errorCode : Option Word) (top : Word) (m : Machine (Flow τ)) (host : Host env effect)
    (pushed : errorCode.isSome = decide (vector ∈ errorVectors)) :
    ∃ g, Reaches (hostHandler vector) env (.running (hostHandler vector) (deliver top errorCode m)) (.gone .iretq g) ∧
      Resumes m g ∧ g.rest.other = effect m.rest.other := by
  obtain ⟨b,called,_,words,effected⟩ := winds host pushed top m
  obtain ⟨g,left,resumes,other,_⟩ := unwinds host (hostHandler vector) words
  obtain ⟨_,_,_,after⟩ := handler_code pushed
  rw [← after] at left
  exact ⟨g,called.trans left,resumes,other.trans effected⟩

/-- All gates start on the same stack. An interrupt that hits the C function of a handler, at `k`,
puts its context where that handler has its own: when the C function returns, the handler
goes back to `k`, whatever it was that it had interrupted. -/
theorem nested_interrupt_loses_context (env : Surroundings IntOp (Flow τ)) (effect : τ → τ) (outer inner : Nat)
    (errorCode : Option Word) (top : Word) (k : Machine (Flow τ)) (host : Host env effect)
    (pushed : errorCode.isSome = decide (inner ∈ errorVectors))
    (alike : outer ∈ errorVectors ↔ inner ∈ errorVectors) :
    ∃ g, Reaches (hostHandler inner) env (.running (hostHandler inner) (deliver top errorCode k)) (.gone .iretq g) ∧
      Resumes k g ∧ ∀ b, b.regs .rsp = top - BitVec.ofNat 64 (8 * contextSize errorCode) →
        loadWords b.mem (b.regs .rsp) (contextSize errorCode) = loadWords g.mem (b.regs .rsp) (contextSize errorCode) →
        ∃ g', Reaches (hostHandler outer) env (.running (afterCallback outer) b) (.gone .iretq g') ∧ Resumes k g' := by
  obtain ⟨b,called,rsp,words,_⟩ := winds host pushed top k
  obtain ⟨g,left,resumes,_,mem⟩ := unwinds host (hostHandler inner) words
  obtain ⟨_,_,_,after⟩ := handler_code pushed
  rw [← after] at left
  refine ⟨g,called.trans left,resumes,?_⟩
  intro b' rsp' kept
  have same : errorCode.isSome = decide (outer ∈ errorVectors) := by rw [pushed,decide_eq_decide.mpr alike]
  obtain ⟨_,_,_,after'⟩ := handler_code same
  rw [mem,rsp',← rsp,words,rsp,← rsp'] at kept
  obtain ⟨g',left',resumes',_⟩ := unwinds host (hostHandler outer) kept
  rw [after']
  exact ⟨g',left',resumes'⟩

end Delivery

section Sample

/-- The C functions of a host that does nothing in them. -/
def quietHost : Surroundings IntOp (Flow Unit) where
  place position := BitVec.ofNat 64 position
  exec o m := if o = .iretq then .leaves (iretq m) else .next (m.set .rsp (m.regs .rsp + 8))

theorem quiet_host : Host quietHost id := by
  refine ⟨fun m => rfl,?_⟩
  intro o m real
  exact ⟨m.set .rsp (m.regs .rsp + 8),if_neg real,m.set_self _ _,rfl,rfl⟩

def interruptedMachine : Machine (Flow Unit) := ⟨fun _ => 7,true,false,fun _ => 0,⟨0x400000,0x10,0x18,0x202,()⟩⟩

theorem interrupt_transparent_sample :
    ∃ g, Reaches (hostHandler 14) quietHost (.running (hostHandler 14) (deliver 0x8000 (some 2) interruptedMachine))
      (.gone .iretq g) ∧ Resumes interruptedMachine g ∧ g.rest.other = () :=
  interrupt_transparent quietHost id 14 (some 2) 0x8000 interruptedMachine quiet_host rfl

theorem nested_interrupt_loses_context_sample :
    ∃ g, Reaches (hostHandler 3) quietHost (.running (hostHandler 3) (deliver 0x8000 none interruptedMachine))
        (.gone .iretq g) ∧
      Resumes interruptedMachine g ∧ ∀ b, b.regs .rsp = 0x8000 - BitVec.ofNat 64 (8 * contextSize none) →
        loadWords b.mem (b.regs .rsp) (contextSize none) = loadWords g.mem (b.regs .rsp) (contextSize none) →
        ∃ g', Reaches (hostHandler 2) quietHost (.running (afterCallback 2) b) (.gone .iretq g') ∧
          Resumes interruptedMachine g' :=
  nested_interrupt_loses_context quietHost id 2 3 none 0x8000 interruptedMachine quiet_host rfl (by decide)

end Sample
end HyperBox.Asm
