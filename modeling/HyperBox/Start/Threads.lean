import HyperBox.Library.Run
import HyperBox.Library.Countdown
import Mathlib.Data.Fintype.Basic

/-! The start of Hyper-box. `hb_start` creates one `hb_vm_thread` for each core and waits for
them; the threads meet at countdown barriers, and core 0 prepares the host page table and
the monitor between two of them. Atomic counters are atomic steps of any interleaving. -/
namespace HyperBox.Start
open HyperBox.Library

/-- The counters that `hb_start` sets to the number of cores. -/
inductive Barrier
  | threadEntryCount | threadRcuSyncCount | threadRunFlags | syncFlags | completeFlags
deriving DecidableEq

inductive Call
  | hbProtectModuleListRoArea | preemptDisable | hbDupPageTableForHost | hbInitMonitor
  | hbInitVmx | hbVmLaunch | preemptEnable
deriving DecidableEq

/-- Where `hb_vm_thread` stands. The waits are its spin loops. -/
inductive Line
  | disableMachineCheck
  | countDown (barrier : Barrier)
  | waitFor (barrier : Barrier)
  | allocRegisters
  | allocFailed
  | synchronizeRcu
  | lockModules
  | setMutexLockFlags
  | waitMutexLockFlags
  | begins (call : Call)
  | inside (call : Call)
  | countEnter
  | error
  | unlockModules
  | returned
deriving DecidableEq

/-- Where `hb_start` stands after it has set the counters and created the threads. -/
inductive StartLine (n : Nat)
  | wake (pending : List (Fin n))
  | waitComplete
  | checkResult
  | returned (result : Int)
deriving DecidableEq

inductive Mark (n : Nat)
  | starts (core : Fin n) (call : Call)
  | finishes (core : Fin n) (call : Call) (result : Int)
deriving DecidableEq

/-- What the kernel and the processor answer: the thread creations and the allocations that
succeed, and the result of each call on each core. -/
structure StartEnv (n : Nat) where
  created : Fin n → Bool
  registers : Fin n → Bool
  result : Fin n → Call → Int

/-- `counter` holds the atomic counters, `result` is the local variable of each thread, and
`marks` lists the starts and ends of calls, the latest first. -/
structure State (n : Nat) where
  counter : Barrier → Int
  mutexLockFlags : Int
  enterCount : Int
  threadResult : Int
  awake : Fin n → Bool
  line : Fin n → Line
  result : Fin n → Int
  start : StartLine n
  marks : List (Mark n)

inductive Actor (n : Nat)
  | start
  | thread (core : Fin n)

section Model
variable {n : Nat} (env : StartEnv (n+1))

def State.goto {m : Nat} (s : State m) (core : Fin m) (line : Line) : State m :=
  { s with line := Function.update s.line core line }

def State.setResult {m : Nat} (s : State m) (core : Fin m) (result : Int) : State m :=
  { s with result := Function.update s.result core result }

def State.mark {m : Nat} (s : State m) (mark : Mark m) : State m := { s with marks := mark::s.marks }

def State.decrement {m : Nat} (s : State m) (barrier : Barrier) : State m :=
  { s with counter := Function.update s.counter barrier (s.counter barrier - 1) }

def afterBarrier (core : Fin (n+1)) : Barrier → Line
  | .threadEntryCount => .allocRegisters
  | .threadRcuSyncCount => if core = 0 then .lockModules else .waitMutexLockFlags
  | .threadRunFlags => if core = 0 then .begins .hbDupPageTableForHost else .countDown .syncFlags
  | .syncFlags => .begins .hbInitVmx
  | .completeFlags => .returned

/-- The rest of `hb_vm_thread` after a call has returned. `hb_protect_gdt` and the setup of
the VMCS between `hb_init_vmx` and `hb_vm_launch` touch none of the shared variables. -/
def afterCall (s : State (n+1)) (core : Fin (n+1)) (result : Int) : Call → State (n+1)
  | .hbProtectModuleListRoArea => s.goto core .setMutexLockFlags
  | .preemptDisable => s.goto core (.countDown .threadRunFlags)
  | .hbDupPageTableForHost => s.goto core (.begins .hbInitMonitor)
  | .hbInitMonitor => s.goto core (.countDown .syncFlags)
  | .hbInitVmx =>
    if result < 0 then (s.setResult core (-1)).goto core .countEnter
    else s.goto core (.begins .hbVmLaunch)
  | .hbVmLaunch => (s.setResult core result).goto core .countEnter
  | .preemptEnable => s.goto core (if core = 0 then .unlockModules else .countDown .completeFlags)

def hbVmThread (s : State (n+1)) (core : Fin (n+1)) : State (n+1) :=
  match s.line core with
  | .disableMachineCheck => s.goto core (.countDown .threadEntryCount)
  | .countDown barrier =>
    (s.decrement barrier).goto core (if barrier = .completeFlags then .returned else .waitFor barrier)
  | .waitFor barrier => if s.counter barrier > 0 then s else s.goto core (afterBarrier core barrier)
  | .allocRegisters =>
    if env.registers core then
      s.goto core (if core = 0 then .synchronizeRcu else .countDown .threadRcuSyncCount)
    else { s with threadResult := -1 }.goto core .allocFailed
  | .synchronizeRcu => s.goto core (.countDown .threadRcuSyncCount)
  | .lockModules => s.goto core (.begins .hbProtectModuleListRoArea)
  | .setMutexLockFlags => { s with mutexLockFlags := 1 }.goto core (.begins .preemptDisable)
  | .waitMutexLockFlags => if s.mutexLockFlags = 0 then s else s.goto core (.begins .preemptDisable)
  | .begins call => (s.mark (.starts core call)).goto core (.inside call)
  | .inside call =>
    afterCall (s.mark (.finishes core call (env.result core call))) core (env.result core call) call
  | .countEnter =>
    let failed := s.result core = -2 ∨ s.result core = -1
    ({ s with enterCount := s.enterCount + 1 }.setResult core (if failed then -1 else 0)).goto core .error
  | .error =>
    { s with threadResult := if s.result core ≠ 0 then -1 else s.threadResult }.goto core (.begins .preemptEnable)
  | .unlockModules => s.goto core (.countDown .completeFlags)
  | .allocFailed => s
  | .returned => s

def hbStart (s : State (n+1)) : State (n+1) :=
  match s.start with
  | .wake [] => { s with start := .waitComplete }
  | .wake (core::pending) =>
    { s with start := .wake pending
             awake := Function.update s.awake core (env.created core) }
  | .waitComplete => if s.counter .completeFlags > 0 then s else { s with start := .checkResult }
  | .checkResult => { s with start := .returned (if s.threadResult ≠ 0 then -1 else 0) }
  | .returned _ => s

def step (s : State (n+1)) : Actor (n+1) → State (n+1)
  | .start => hbStart env s
  | .thread core => if s.awake core then hbVmThread env s core else s

/-- The state in which `hb_start`, running on `cpuId`, begins to wake the threads: its own
core comes last. -/
def hbStartState (cpuId : Fin (n+1)) : State (n+1) where
  counter _ := n+1
  mutexLockFlags := 0
  enterCount := 0
  threadResult := 0
  awake _ := false
  line _ := .disableMachineCheck
  result _ := 0
  start := .wake ((List.finRange (n+1)).filter (· ≠ cpuId) ++ [cpuId])
  marks := []

end Model

/-- The lines of `hb_vm_thread` in the order in which a thread passes them. -/
def stage : Line → Nat
  | .disableMachineCheck => 0
  | .countDown .threadEntryCount => 1
  | .waitFor .threadEntryCount => 2
  | .allocRegisters => 3
  | .allocFailed => 3
  | .synchronizeRcu => 4
  | .countDown .threadRcuSyncCount => 5
  | .waitFor .threadRcuSyncCount => 6
  | .lockModules => 7
  | .begins .hbProtectModuleListRoArea => 8
  | .inside .hbProtectModuleListRoArea => 9
  | .setMutexLockFlags => 10
  | .waitMutexLockFlags => 10
  | .begins .preemptDisable => 11
  | .inside .preemptDisable => 12
  | .countDown .threadRunFlags => 13
  | .waitFor .threadRunFlags => 14
  | .begins .hbDupPageTableForHost => 15
  | .inside .hbDupPageTableForHost => 16
  | .begins .hbInitMonitor => 17
  | .inside .hbInitMonitor => 18
  | .countDown .syncFlags => 19
  | .waitFor .syncFlags => 20
  | .begins .hbInitVmx => 21
  | .inside .hbInitVmx => 22
  | .begins .hbVmLaunch => 23
  | .inside .hbVmLaunch => 24
  | .countEnter => 25
  | .error => 26
  | .begins .preemptEnable => 27
  | .inside .preemptEnable => 28
  | .unlockModules => 29
  | .countDown .completeFlags => 30
  | .waitFor .completeFlags => 31
  | .returned => 32

/-- The calls that a thread does not pass by: core 0 makes the three preparations. -/
def Performs {n : Nat} (core : Fin (n+1)) (call : Call) : Prop :=
  call = .preemptDisable ∨ call = .hbInitVmx ∨
    core = 0 ∧ call ∈ [Call.hbProtectModuleListRoArea,Call.hbDupPageTableForHost,Call.hbInitMonitor]

theorem stage_countDown {barrier : Barrier} {line : Line} (same : stage (.countDown barrier) = stage line) :
    line = .countDown barrier := by
  cases barrier <;> cases line using stage.fun_cases <;> simp_all [stage]

theorem stage_waitFor {barrier : Barrier} {line : Line} (same : stage (.waitFor barrier) = stage line) :
    line = .waitFor barrier := by
  cases barrier <;> cases line using stage.fun_cases <;> simp_all [stage]

theorem stage_inside {call : Call} {line : Line} (same : stage (.inside call) = stage line) :
    line = .inside call := by
  cases call <;> cases line using stage.fun_cases <;> simp_all [stage]

section Step
variable {n : Nat} {env : StartEnv (n+1)} {s : State (n+1)} {core : Fin (n+1)}

def arrived (barrier : Barrier) (line : Line) : Bool := stage (.countDown barrier) < stage line

/-- What a step of a thread from `start` to `line` passes on its way. -/
structure Advance (counter : Barrier → Int) (core : Fin (n+1)) (start line : Line) : Prop where
  forward : stage start ≤ stage line
  arrives : ∀ barrier, stage (.countDown barrier) < stage line →
    stage (.countDown barrier) < stage start ∨ start = .countDown barrier
  released : ∀ barrier ≠ Barrier.completeFlags, stage (.waitFor barrier) < stage line →
    stage (.waitFor barrier) < stage start ∨ counter barrier ≤ 0
  finished : ∀ call, Performs core call → stage (.inside call) < stage line →
    stage (.inside call) < stage start ∨ start = .inside call

theorem Advance.skip {counter : Barrier → Int} {start line : Line} (forward : stage start ≤ stage line)
    (alone : ∀ barrier, stage start < stage (.countDown barrier) → stage line ≤ stage (.countDown barrier))
    (unblocked : ∀ barrier ≠ Barrier.completeFlags, stage start < stage (.waitFor barrier) →
      stage line ≤ stage (.waitFor barrier))
    (silent : ∀ call, Performs core call → stage start < stage (.inside call) →
      stage line ≤ stage (.inside call))
    (released : ∀ barrier, start = .waitFor barrier → counter barrier ≤ 0) :
    Advance counter core start line where
  forward := forward
  arrives barrier passed := by
    by_cases before : stage (.countDown barrier) < stage start
    · exact Or.inl before
    · have between := alone barrier
      exact Or.inr (stage_countDown (by omega))
  released barrier waits passed := by
    by_cases before : stage (.waitFor barrier) < stage start
    · exact Or.inl before
    · have between := unblocked barrier waits
      exact Or.inr (released barrier (stage_waitFor (by omega)))
  finished call performs passed := by
    by_cases before : stage (.inside call) < stage start
    · exact Or.inl before
    · have between := silent call performs
      exact Or.inr (stage_inside (by omega))

theorem Advance.next {counter : Barrier → Int} {start line : Line} (forward : stage start ≤ stage line)
    (close : stage line ≤ stage start + 1)
    (released : ∀ barrier, start = .waitFor barrier → counter barrier ≤ 0) :
    Advance counter core start line := by
  apply Advance.skip forward _ _ _ released
  all_goals intros
  all_goals omega

theorem Advance.unwaited {counter : Barrier → Int} {start line : Line}
    (running : ∀ barrier, start ≠ .waitFor barrier) (forward : stage start ≤ stage line)
    (close : stage line ≤ stage start + 1) : Advance counter core start line :=
  Advance.next forward close fun barrier waits => absurd waits (running barrier)

theorem Advance.jump {counter : Barrier → Int} {start line : Line}
    (running : ∀ barrier, start ≠ .waitFor barrier) (forward : stage start ≤ stage line)
    (alone : ∀ barrier, stage start < stage (.countDown barrier) → stage line ≤ stage (.countDown barrier))
    (unblocked : ∀ barrier ≠ Barrier.completeFlags, stage start < stage (.waitFor barrier) →
      stage line ≤ stage (.waitFor barrier))
    (silent : ∀ call, Performs core call → stage start < stage (.inside call) →
      stage line ≤ stage (.inside call)) : Advance counter core start line :=
  Advance.skip forward alone unblocked silent fun barrier waits => absurd waits (running barrier)

theorem performs_other (other : core ≠ 0) {call : Call} (performs : Performs core call) :
    call = .preemptDisable ∨ call = .hbInitVmx := by
  rcases performs with same | same | ⟨same,_⟩
  · exact Or.inl same
  · exact Or.inr same
  · exact absurd same other

theorem afterBarrier_advance {counter : Barrier → Int} {barrier : Barrier} (zero : counter barrier ≤ 0) :
    Advance counter core (.waitFor barrier) (afterBarrier core barrier) := by
  have released : ∀ other, Line.waitFor barrier = .waitFor other → counter other ≤ 0 := by
    intro other same
    cases same
    exact zero
  by_cases first : core = 0
  · subst first
    cases barrier <;> exact Advance.next (by simp [stage,afterBarrier]) (by simp [stage,afterBarrier]) released
  · cases barrier with
    | threadEntryCount | syncFlags | completeFlags =>
      exact Advance.next (by simp [stage,afterBarrier]) (by simp [stage,afterBarrier]) released
    | threadRcuSyncCount | threadRunFlags =>
      rw [afterBarrier,if_neg first]
      apply Advance.skip (by decide) _ _ _ released
      · intro other
        cases other <;> simp [stage]
      · intro other
        cases other <;> simp [stage]
      · intro call performs
        rcases performs_other first performs with rfl | rfl <;> decide

theorem afterCall_advance {result : Int} {call : Call} (s' : State (n+1)) (same : s'.line = s.line) :
    ∃ line, (afterCall s' core result call).line = Function.update s.line core line ∧
      Advance s.counter core (.inside call) line := by
  cases call with
  | hbProtectModuleListRoArea | preemptDisable | hbDupPageTableForHost | hbInitMonitor | hbVmLaunch =>
    refine ⟨_,by rw [← same]; rfl,Advance.unwaited (by simp) ?_ ?_⟩
    all_goals simp [stage]
  | hbInitVmx =>
    rw [afterCall]
    split
    · refine ⟨.countEnter,by rw [← same]; rfl,Advance.jump (by simp) (by decide) ?_ ?_ ?_⟩
      · intro barrier
        cases barrier <;> simp [stage]
      · intro barrier
        cases barrier <;> simp [stage]
      · intro call performs
        cases call <;> simp_all [stage,Performs]
    · refine ⟨_,by rw [← same]; rfl,Advance.unwaited (by simp) ?_ ?_⟩
      all_goals simp [stage]
  | preemptEnable =>
    refine ⟨if core = 0 then .unlockModules else .countDown .completeFlags,by rw [← same]; rfl,?_⟩
    split
    · exact Advance.unwaited (by simp) (by simp [stage]) (by simp [stage])
    · apply Advance.jump (by simp) (by decide)
      · intro barrier
        cases barrier <;> simp [stage]
      · intro barrier
        cases barrier <;> simp [stage]
      · intro call performs
        cases call <;> simp [stage]

theorem Advance.stay {counter : Barrier → Int} {line : Line} : Advance counter core line line where
  forward := Nat.le_refl _
  arrives _ passed := Or.inl passed
  released _ _ passed := Or.inl passed
  finished _ _ passed := Or.inl passed

/-- A step of a thread moves only its own line, and along the order of `stage`. -/
theorem hbVmThread_line : ∃ line, (hbVmThread env s core).line = Function.update s.line core line ∧
    Advance s.counter core (s.line core) line := by
  unfold hbVmThread
  cases at_ : s.line core with
  | disableMachineCheck | synchronizeRcu | lockModules | setMutexLockFlags | countEnter | error | unlockModules =>
    exact ⟨_,rfl,Advance.unwaited (by simp) (by decide) (by decide)⟩
  | begins call =>
    refine ⟨_,rfl,Advance.unwaited (by simp) ?_ ?_⟩
    all_goals cases call <;> decide
  | countDown barrier =>
    refine ⟨_,rfl,?_⟩
    split
    case isTrue last =>
      subst last
      apply Advance.jump (by simp) (by decide)
      · intro barrier
        cases barrier <;> simp [stage]
      · intro barrier
        cases barrier <;> simp [stage]
      · intro call performs
        cases call <;> simp [stage]
    case isFalse =>
      apply Advance.unwaited (by simp)
      all_goals cases barrier <;> decide
  | waitFor barrier =>
    by_cases closed : s.counter barrier > 0
    · refine ⟨s.line core,?_,?_⟩
      · simp [closed]
      · rw [at_]
        exact Advance.stay
    · refine ⟨afterBarrier core barrier,?_,afterBarrier_advance (by omega)⟩
      simp [closed,State.goto]
  | allocRegisters =>
    cases env.registers core with
    | false => exact ⟨_,rfl,Advance.unwaited (by simp) (by decide) (by decide)⟩
    | true =>
      refine ⟨_,rfl,?_⟩
      split
      · exact Advance.unwaited (by simp) (by decide) (by decide)
      · apply Advance.jump (by simp) (by decide)
        · intro barrier
          cases barrier <;> simp [stage]
        · intro barrier
          cases barrier <;> simp [stage]
        · intro call performs
          cases call <;> simp [stage]
  | waitMutexLockFlags =>
    by_cases closed : s.mutexLockFlags = 0
    · refine ⟨s.line core,?_,?_⟩
      · simp [closed]
      · rw [at_]
        exact Advance.stay
    · refine ⟨.begins .preemptDisable,?_,Advance.unwaited (by simp) (by decide) (by decide)⟩
      simp [closed,State.goto]
  | inside call => exact afterCall_advance _ rfl
  | allocFailed | returned => exact ⟨s.line core,by simp,by rw [at_]; exact Advance.stay⟩

theorem afterCall_frame (result : Int) (call : Call) :
    (afterCall s core result call).counter = s.counter ∧ (afterCall s core result call).marks = s.marks ∧
      (afterCall s core result call).threadResult = s.threadResult ∧
      (afterCall s core result call).start = s.start ∧
      (∀ other ≠ core, (afterCall s core result call).result other = s.result other) ∧
      (call = .preemptEnable → (afterCall s core result call).result core = s.result core) := by
  cases call with
  | hbInitVmx =>
    rw [afterCall]
    split
    · refine ⟨rfl,rfl,rfl,rfl,?_,by simp⟩
      intro other distinct
      exact Function.update_of_ne distinct _ _
    · exact ⟨rfl,rfl,rfl,rfl,fun _ _ => rfl,fun _ => rfl⟩
  | hbVmLaunch =>
    refine ⟨rfl,rfl,rfl,rfl,?_,by simp⟩
    intro other distinct
    exact Function.update_of_ne distinct _ _
  | _ => exact ⟨rfl,rfl,rfl,rfl,fun _ _ => rfl,fun _ => rfl⟩

/-- What a step of a thread does to the shared variables and to the other threads. -/
structure Effect (env : StartEnv (n+1)) (s : State (n+1)) (core : Fin (n+1)) (after : State (n+1)) : Prop where
  counter : ∀ barrier, after.counter barrier =
    s.counter barrier - if s.line core = .countDown barrier then 1 else 0
  marks : after.marks = (match s.line core with
    | .begins call => [.starts core call]
    | .inside call => [.finishes core call (env.result core call)]
    | _ => []) ++ s.marks
  threadResult : after.threadResult =
    if s.line core = .allocRegisters ∧ env.registers core = false ∨ s.line core = .error ∧ s.result core ≠ 0
    then -1 else s.threadResult
  start : after.start = s.start
  others : ∀ other ≠ core, after.result other = s.result other
  decided : stage .error ≤ stage (s.line core) → after.result core = s.result core

theorem Effect.silent {after : State (n+1)} (counter : after.counter = s.counter)
    (marks : after.marks = s.marks) (threadResult : after.threadResult = s.threadResult)
    (start : after.start = s.start) (others : ∀ other ≠ core, after.result other = s.result other)
    (decided : stage .error ≤ stage (s.line core) → after.result core = s.result core)
    (quiet : ∀ barrier, s.line core ≠ .countDown barrier)
    (outside : ∀ call, s.line core ≠ .begins call ∧ s.line core ≠ .inside call)
    (fine : s.line core ≠ .error) (allocated : s.line core = .allocRegisters → env.registers core = true) :
    Effect env s core after where
  counter barrier := by simp [counter,quiet barrier]
  marks := by
    rw [marks]
    cases at_ : s.line core with
    | begins call => exact absurd at_ (outside call).1
    | inside call => exact absurd at_ (outside call).2
    | _ => rfl
  threadResult := by
    rw [threadResult,if_neg]
    rintro (⟨at_,failed⟩ | ⟨at_,_⟩)
    · rw [allocated at_] at failed
      cases failed
    · exact fine at_
  start := start
  others := others
  decided := decided

theorem hbVmThread_effect : Effect env s core (hbVmThread env s core) := by
  unfold hbVmThread
  cases at_ : s.line core with
  | disableMachineCheck | synchronizeRcu | lockModules | setMutexLockFlags | unlockModules | allocFailed
      | returned => apply Effect.silent <;> simp [at_,State.goto]
  | waitFor barrier =>
    by_cases closed : s.counter barrier > 0 <;> apply Effect.silent <;> simp [at_,closed,State.goto]
  | waitMutexLockFlags =>
    by_cases closed : s.mutexLockFlags = 0 <;> apply Effect.silent <;> simp [at_,closed,State.goto]
  | allocRegisters =>
    cases allocated : env.registers core with
    | false => constructor <;> simp [at_,allocated,State.goto]
    | true => apply Effect.silent <;> simp [at_,allocated,State.goto]
  | countEnter =>
    apply Effect.silent <;> simp [at_,State.goto,State.setResult,stage]
    intro other distinct
    simp [distinct]
  | begins call => constructor <;> simp [at_,State.goto,State.mark]
  | inside call =>
    constructor <;> simp only [at_,State.mark,afterCall_frame]
    · simp
    · simp
    · simp
    · exact (afterCall_frame _ _).2.2.2.2.1
    · intro late
      apply (afterCall_frame _ _).2.2.2.2.2
      cases call <;> simp [stage] at late ⊢
  | error => constructor <;> simp [at_,State.goto]
  | countDown barrier =>
    constructor
    · intro other
      by_cases same : barrier = other
      · subst same
        simp [at_,State.goto,State.decrement]
      · have apart : other ≠ barrier := Ne.symm same
        simp [at_,State.goto,State.decrement,Function.update_of_ne apart,same]
    all_goals simp [at_,State.goto,State.decrement]

end Step

section Safety
variable {n : Nat} {env : StartEnv (n+1)} {s : State (n+1)} {core : Fin (n+1)}

def Finished (marks : List (Mark (n+1))) (core : Fin (n+1)) (call : Call) : Prop :=
  ∃ result, .finishes core call result ∈ marks

/-- Both calls have returned what `hb_vm_thread` takes for success. -/
def Succeeded (marks : List (Mark (n+1))) (core : Fin (n+1)) : Prop :=
  (∃ result ≥ 0, .finishes core .hbInitVmx result ∈ marks) ∧
    ∃ result, result ≠ -1 ∧ result ≠ -2 ∧ .finishes core .hbVmLaunch result ∈ marks

/-- What must have happened before a call starts. -/
def Prepared (earlier : List (Mark (n+1))) : Mark (n+1) → Prop
  | .starts _ .hbInitVmx => Finished earlier 0 .hbProtectModuleListRoArea ∧
      Finished earlier 0 .hbDupPageTableForHost ∧ Finished earlier 0 .hbInitMonitor
  | .starts _ .hbDupPageTableForHost => ∀ core, Finished earlier core .preemptDisable ∧
      .starts core .preemptEnable ∉ earlier
  | _ => True

def Ordered : List (Mark (n+1)) → Prop
  | [] => True
  | mark::earlier => Prepared earlier mark ∧ Ordered earlier

theorem Ordered.split {later earlier : List (Mark (n+1))} {mark : Mark (n+1)}
    (ordered : Ordered (later ++ mark::earlier)) : Prepared earlier mark := by
  induction later with
  | nil => exact ordered.1
  | cons _ _ ih => exact ih ordered.2

/-- What the line and the local result of a thread tell about its calls. -/
structure Judged (marks : List (Mark (n+1))) (threadResult : Int) (core : Fin (n+1)) (line : Line)
    (result : Int) : Prop where
  initialised : line = .begins .hbVmLaunch ∨ line = .inside .hbVmLaunch →
    ∃ result ≥ 0, .finishes core .hbInitVmx result ∈ marks
  entered : line = .countEnter → result ≠ -1 → result ≠ -2 → Succeeded marks core
  judged : stage .error ≤ stage line → result = 0 → Succeeded marks core
  reported : stage .error < stage line → result = 0 ∨ threadResult ≠ 0

structure Inv (s : State (n+1)) : Prop where
  counts : ∀ barrier, s.counter barrier = remaining fun core => arrived barrier (s.line core)
  released : ∀ core, ∀ barrier ≠ Barrier.completeFlags, stage (.waitFor barrier) < stage (s.line core) →
    s.counter barrier ≤ 0
  finished : ∀ core call, Performs core call → stage (.inside call) < stage (s.line core) →
    Finished s.marks core call
  enabled : ∀ core, .starts core .preemptEnable ∈ s.marks →
    stage (.begins .preemptEnable) < stage (s.line core)
  judged : ∀ core, Judged s.marks s.threadResult core (s.line core) (s.result core)
  complete : (s.start = .checkResult ∨ ∃ result, s.start = .returned result) → s.counter .completeFlags ≤ 0
  reported : s.start = .returned 0 → s.threadResult = 0
  ordered : Ordered s.marks

theorem Inv.all_arrived (inv : Inv s) {barrier : Barrier} (zero : s.counter barrier ≤ 0) (core : Fin (n+1)) :
    stage (.countDown barrier) < stage (s.line core) := by
  have none : remaining (fun core => arrived barrier (s.line core)) = 0 := by
    have counts := inv.counts barrier
    omega
  have all := remaining_eq_zero.mp none core
  simpa [arrived] using all

theorem Inv.past (inv : Inv s) (core : Fin (n+1)) (barrier : Barrier) (waits : barrier ≠ .completeFlags)
    (passed : stage (.waitFor barrier) < stage (s.line core)) (other : Fin (n+1)) :
    stage (.countDown barrier) < stage (s.line other) :=
  inv.all_arrived (inv.released core barrier waits passed) other

theorem hbStartState_inv (cpuId : Fin (n+1)) : Inv (hbStartState cpuId) where
  counts barrier := by
    have none : (fun core => arrived barrier ((hbStartState cpuId).line core)) = fun _ => false := by
      funext core
      cases barrier <;> rfl
    rw [none,remaining_none]
    simp [hbStartState]
  released core barrier _ passed := by simp [hbStartState,stage] at passed
  finished core call _ passed := by simp [hbStartState,stage] at passed
  enabled core started := by simp [hbStartState] at started
  judged core := by constructor <;> simp [hbStartState,stage]
  complete := by simp [hbStartState]
  reported := by simp [hbStartState]
  ordered := trivial

theorem hbVmThread_counted {barrier : Barrier} (at_ : s.line core = .countDown barrier) :
    stage (.countDown barrier) < stage ((hbVmThread env s core).line core) := by
  unfold hbVmThread
  simp only [at_,State.goto,Function.update_self]
  cases barrier <;> decide

theorem arrived_step (barrier : Barrier) :
    (fun other => arrived barrier ((hbVmThread env s core).line other)) =
      if s.line core = .countDown barrier
      then Function.update (fun other => arrived barrier (s.line other)) core true
      else fun other => arrived barrier (s.line other) := by
  obtain ⟨line,moved,advance⟩ := @hbVmThread_line n env s core
  funext other
  by_cases same : other = core
  · subst same
    split
    case isTrue at_ => simpa [arrived] using hbVmThread_counted at_
    case isFalse elsewhere =>
      have forward := advance.forward
      have arrives := advance.arrives barrier
      simp only [moved,Function.update_self,arrived,decide_eq_decide]
      constructor
      · intro passed
        exact (arrives passed).resolve_right elsewhere
      · intro passed
        exact lt_of_lt_of_le passed forward
  · rw [moved,Function.update_of_ne same]
    split <;> simp [same]

theorem counts_step (counts : ∀ barrier, s.counter barrier = remaining fun core => arrived barrier (s.line core))
    (barrier : Barrier) : (hbVmThread env s core).counter barrier =
      remaining fun other => arrived barrier ((hbVmThread env s core).line other) := by
  rw [hbVmThread_effect.counter,counts,arrived_step]
  split
  case isTrue at_ =>
    have absent : arrived barrier (s.line core) = false := by simp [arrived,at_]
    have arrive := @remaining_arrive _ _ _ (fun other => arrived barrier (s.line other)) core absent
    omega
  case isFalse => simp

theorem Effect.grows {after : State (n+1)} (effect : Effect env s core after) {mark : Mark (n+1)}
    (member : mark ∈ s.marks) : mark ∈ after.marks := by
  rw [effect.marks]
  exact List.mem_append_right _ member

theorem Effect.fails {after : State (n+1)} (effect : Effect env s core after) (failed : s.threadResult ≠ 0) :
    after.threadResult ≠ 0 := by
  rw [effect.threadResult]
  split
  · decide
  · exact failed

theorem Succeeded.mono {marks later : List (Mark (n+1))} (grows : ∀ mark ∈ marks, mark ∈ later)
    (succeeded : Succeeded marks core) : Succeeded later core := by
  obtain ⟨⟨first,positive,initialised⟩,second,notInvalid,notValid,launched⟩ := succeeded
  exact ⟨⟨first,positive,grows _ initialised⟩,second,notInvalid,notValid,grows _ launched⟩

theorem Judged.mono {marks later : List (Mark (n+1))} {before after result : Int} {line : Line}
    (judged : Judged marks before core line result) (grows : ∀ mark ∈ marks, mark ∈ later)
    (fails : before ≠ 0 → after ≠ 0) : Judged later after core line result where
  initialised at_ := by
    obtain ⟨first,positive,initialised⟩ := judged.initialised at_
    exact ⟨first,positive,grows _ initialised⟩
  entered at_ notInvalid notValid := (judged.entered at_ notInvalid notValid).mono grows
  judged passed zero := (judged.judged passed zero).mono grows
  reported passed := (judged.reported passed).imp_right fails

theorem Judged.early {marks : List (Mark (n+1))} {threadResult result : Int} {line : Line}
    (early : stage line < stage (.begins .hbVmLaunch)) : Judged marks threadResult core line result := by
  have bound : stage line < 23 := early
  constructor
  · rintro (rfl | rfl) <;> simp [stage] at early
  · rintro rfl
    simp [stage] at early
  · intro passed
    have passed : 26 ≤ stage line := passed
    omega
  · intro passed
    have passed : 26 < stage line := passed
    omega

theorem Judged.late {marks : List (Mark (n+1))} {threadResult result : Int} {line next : Line}
    (judged : Judged marks threadResult core line result) (late : stage .error < stage line)
    (later : stage line ≤ stage next) : Judged marks threadResult core next result where
  initialised at_ := by
    have bound := lt_of_lt_of_le late later
    rcases at_ with rfl | rfl <;> simp [stage] at bound
  entered at_ := by
    have bound := lt_of_lt_of_le late later
    subst at_
    simp [stage] at bound
  judged _ zero := judged.judged (le_of_lt late) zero
  reported _ := judged.reported late

theorem launching_cases {line : Line} (from_ : ¬ stage line < stage (.inside .hbInitVmx))
    (until_ : ¬ stage .error < stage line) :
    line = .inside .hbInitVmx ∨ line = .begins .hbVmLaunch ∨ line = .inside .hbVmLaunch ∨
      line = .countEnter ∨ line = .error := by
  cases line using stage.fun_cases <;> simp [stage] at from_ until_ ⊢

/-- The verdict on the core's thread after its next step. -/
def JudgedNext (env : StartEnv (n+1)) (s : State (n+1)) (core : Fin (n+1)) : Prop :=
  Judged (hbVmThread env s core).marks (hbVmThread env s core).threadResult core
    ((hbVmThread env s core).line core) ((hbVmThread env s core).result core)

theorem judged_hbInitVmx (at_ : s.line core = .inside .hbInitVmx) : JudgedNext env s core := by
  have marks := (@hbVmThread_effect n env s core).marks
  rw [at_] at marks
  unfold JudgedNext
  by_cases failed : env.result core .hbInitVmx < 0
  · constructor <;> simp [hbVmThread,at_,afterCall,failed,State.goto,State.setResult,stage]
  · have after : (hbVmThread env s core).line core = .begins .hbVmLaunch := by
      simp [hbVmThread,at_,afterCall,failed,State.goto]
    rw [after,marks]
    constructor
    · intro _
      exact ⟨_,not_lt.mp failed,List.mem_cons_self⟩
    all_goals simp [stage]

section Grown
variable (grown : Judged (hbVmThread env s core).marks (hbVmThread env s core).threadResult core (s.line core)
  (s.result core))
include grown

theorem judged_begins_launch (at_ : s.line core = .begins .hbVmLaunch) : JudgedNext env s core := by
  have after : (hbVmThread env s core).line core = .inside .hbVmLaunch := by
    simp [hbVmThread,at_,State.goto]
  rw [JudgedNext,after]
  constructor
  · intro _
    exact grown.initialised (Or.inl at_)
  all_goals simp [stage]

theorem judged_hbVmLaunch (at_ : s.line core = .inside .hbVmLaunch) : JudgedNext env s core := by
  have marks := (@hbVmThread_effect n env s core).marks
  rw [at_] at marks
  have after : (hbVmThread env s core).line core = .countEnter := by
    simp [hbVmThread,at_,afterCall,State.goto]
  have result : (hbVmThread env s core).result core = env.result core .hbVmLaunch := by
    simp [hbVmThread,at_,afterCall,State.goto,State.setResult]
  have initialised := grown.initialised (Or.inr at_)
  rw [JudgedNext,after,result]
  constructor
  · simp
  · intro _ notInvalid notValid
    refine ⟨initialised,_,notInvalid,notValid,?_⟩
    rw [marks]
    exact List.mem_cons_self
  all_goals simp [stage]

theorem judged_countEnter (at_ : s.line core = .countEnter) : JudgedNext env s core := by
  have after : (hbVmThread env s core).line core = .error := by
    simp [hbVmThread,at_,State.goto]
  have result : (hbVmThread env s core).result core =
      if s.result core = -2 ∨ s.result core = -1 then -1 else 0 := by
    simp [hbVmThread,at_,State.goto,State.setResult]
  rw [JudgedNext,after,result]
  constructor
  · simp
  · simp
  · intro _ zero
    split at zero
    case isTrue => simp at zero
    case isFalse fine => exact grown.entered at_ (fun same => fine (Or.inr same)) fun same => fine (Or.inl same)
  · simp

theorem judged_error (at_ : s.line core = .error) : JudgedNext env s core := by
  have effect := @hbVmThread_effect n env s core
  have after : (hbVmThread env s core).line core = .begins .preemptEnable := by
    simp [hbVmThread,at_,State.goto]
  have passed : stage .error ≤ stage (s.line core) := by rw [at_]
  rw [JudgedNext,after,effect.decided passed]
  constructor
  · simp
  · simp
  · intro _
    exact grown.judged passed
  · intro _
    by_cases zero : s.result core = 0
    · exact Or.inl zero
    · right
      simp [effect.threadResult,at_,zero]

end Grown

theorem judged_step (judged : Judged s.marks s.threadResult core (s.line core) (s.result core)) :
    JudgedNext env s core := by
  have effect := @hbVmThread_effect n env s core
  have grown := judged.mono (fun _ => effect.grows) effect.fails
  obtain ⟨line,moved,advance⟩ := @hbVmThread_line n env s core
  by_cases early : stage (s.line core) < stage (.inside .hbInitVmx)
  · apply Judged.early
    have initialises := advance.finished .hbInitVmx (Or.inr (Or.inl rfl))
    rw [moved,Function.update_self]
    have bound : stage line ≤ stage (.inside .hbInitVmx) := by
      by_contra passed
      rcases initialises (not_le.mp passed) with before | at_
      · exact absurd before (not_lt.mpr early.le)
      · rw [at_] at early
        exact lt_irrefl _ early
    exact lt_of_le_of_lt bound (by decide)
  by_cases late : stage .error < stage (s.line core)
  · rw [JudgedNext,moved,Function.update_self,effect.decided late.le]
    exact grown.late late advance.forward
  rcases launching_cases early late with at_ | at_ | at_ | at_ | at_
  · exact judged_hbInitVmx at_
  · exact judged_begins_launch grown at_
  · exact judged_hbVmLaunch grown at_
  · exact judged_countEnter grown at_
  · exact judged_error grown at_

theorem Inv.prepared (inv : Inv s) {call : Call} (at_ : s.line core = .begins call) :
    Prepared s.marks (.starts core call) := by
  cases call with
  | hbInitVmx =>
    have arrived := inv.past core .syncFlags (by decide) (by rw [at_]; decide) 0
    refine ⟨?_,?_,?_⟩
    all_goals
      apply inv.finished
      · exact Or.inr (Or.inr ⟨rfl,by simp⟩)
      · exact lt_trans (by decide) arrived
  | hbDupPageTableForHost =>
    intro other
    constructor
    · have arrived := inv.past core .threadRunFlags (by decide) (by rw [at_]; decide) other
      apply inv.finished
      · exact Or.inl rfl
      · exact lt_trans (by decide) arrived
    · intro started
      have late := inv.enabled other started
      have arrived := inv.past other .syncFlags (by decide) (lt_trans (by decide) late) core
      rw [at_] at arrived
      exact absurd arrived (by decide)
  | _ => trivial

/-- A step of a thread keeps the invariant. -/
theorem hbVmThread_inv (inv : Inv s) : Inv (hbVmThread env s core) := by
  have effect := @hbVmThread_effect n env s core
  obtain ⟨line,moved,advance⟩ := @hbVmThread_line n env s core
  have counts := @counts_step n env s core inv.counts
  have lowered : ∀ barrier, s.counter barrier ≤ 0 → (hbVmThread env s core).counter barrier ≤ 0 := by
    intro barrier zero
    rw [effect.counter]
    split <;> omega
  have older : ∀ other, stage (s.line other) ≤ stage ((hbVmThread env s core).line other) := by
    intro other
    rw [moved]
    by_cases same : other = core
    · subst same
      simpa using advance.forward
    · simp [same]
  constructor
  case counts => exact counts
  case released =>
    intro other barrier waits passed
    by_cases same : other = core
    · subst same
      rw [moved,Function.update_self] at passed
      apply lowered
      rcases advance.released barrier waits passed with before | zero
      · exact inv.released other barrier waits before
      · exact zero
    · rw [moved,Function.update_of_ne same] at passed
      exact lowered barrier (inv.released other barrier waits passed)
  case finished =>
    intro other call performs passed
    have keeps : Finished s.marks other call → Finished (hbVmThread env s core).marks other call := by
      intro finished
      obtain ⟨result,member⟩ := finished
      exact ⟨result,effect.grows member⟩
    by_cases same : other = core
    · subst same
      rw [moved,Function.update_self] at passed
      rcases advance.finished call performs passed with before | at_
      · exact keeps (inv.finished other call performs before)
      · refine ⟨env.result other call,?_⟩
        rw [effect.marks,at_]
        exact List.mem_cons_self
    · rw [moved,Function.update_of_ne same] at passed
      exact keeps (inv.finished other call performs passed)
  case enabled =>
    intro other started
    rw [effect.marks] at started
    rcases List.mem_append.mp started with new | old
    · split at new
      case h_1 call at_ =>
        simp only [List.mem_singleton,Mark.starts.injEq] at new
        obtain ⟨rfl,rfl⟩ := new
        simp [hbVmThread,at_,State.goto,stage]
      case h_2 => simp at new
      case h_3 => simp at new
    · exact lt_of_lt_of_le (inv.enabled other old) (older other)
  case judged =>
    intro other
    by_cases same : other = core
    · subst same
      exact judged_step (inv.judged other)
    · rw [moved,Function.update_of_ne same,effect.others other same]
      exact (inv.judged other).mono (fun _ => effect.grows) effect.fails
  case complete =>
    intro done
    rw [effect.start] at done
    exact lowered _ (inv.complete done)
  case reported =>
    intro done
    rw [effect.start] at done
    have arrived := inv.all_arrived (inv.complete (Or.inr ⟨0,done⟩)) core
    rw [effect.threadResult,if_neg]
    · exact inv.reported done
    · rintro (⟨at_,_⟩ | ⟨at_,_⟩) <;> simp [at_,stage] at arrived
  case ordered =>
    rw [effect.marks]
    cases at_ : s.line core with
    | begins call => exact ⟨inv.prepared at_,inv.ordered⟩
    | inside call => exact ⟨by cases call <;> exact trivial,inv.ordered⟩
    | _ => exact inv.ordered

theorem hbStart_inv (inv : Inv s) : Inv (hbStart env s) := by
  unfold hbStart
  cases at_ : s.start with
  | wake pending =>
    cases pending <;> exact ⟨inv.counts,inv.released,inv.finished,inv.enabled,inv.judged,by simp,by simp,inv.ordered⟩
  | waitComplete =>
    dsimp only
    split
    case isTrue => exact inv
    case isFalse open_ =>
      exact ⟨inv.counts,inv.released,inv.finished,inv.enabled,inv.judged,fun _ => not_lt.mp open_,by simp,inv.ordered⟩
  | checkResult =>
    refine ⟨inv.counts,inv.released,inv.finished,inv.enabled,inv.judged,fun _ => inv.complete (Or.inl at_),?_,inv.ordered⟩
    simp
  | returned result => exact inv

/-- The state after any interleaving, with `hb_start` called on `cpuId`. -/
def started (env : StartEnv (n+1)) (cpuId : Fin (n+1)) (schedule : List (Actor (n+1))) : State (n+1) :=
  run (step env) (hbStartState cpuId) schedule

theorem started_inv (env : StartEnv (n+1)) (cpuId : Fin (n+1)) (schedule : List (Actor (n+1))) :
    Inv (started env cpuId schedule) := by
  have keeps : ∀ s, Inv s → ∀ actor, Inv (step env s actor) := by
    intro s inv actor
    cases actor with
    | start => exact hbStart_inv inv
    | thread core =>
      rw [step]
      split
      · exact hbVmThread_inv inv
      · exact inv
  rw [started]
  generalize hbStartState cpuId = s, hbStartState_inv cpuId = inv
  induction schedule generalizing s with
  | nil => exact inv
  | cons actor rest ih => exact ih _ (keeps _ inv actor)

/-- In every interleaving of `hb_start` and the threads of `n + 1` cores, no core starts
`hb_init_vmx` before core 0 has made the three preparations, the duplication starts only
while every core has preemption disabled, and `hb_start` returns 0 only if `hb_init_vmx`
and `hb_vm_launch` have succeeded on every core. -/
theorem hbStart_synchronizes (env : StartEnv (n+1)) (cpuId : Fin (n+1)) (schedule : List (Actor (n+1))) :
    (∀ core later earlier, (started env cpuId schedule).marks = later ++ .starts core .hbInitVmx::earlier →
      Finished earlier 0 .hbProtectModuleListRoArea ∧ Finished earlier 0 .hbDupPageTableForHost ∧
        Finished earlier 0 .hbInitMonitor) ∧
    (∀ core later earlier,
      (started env cpuId schedule).marks = later ++ .starts core .hbDupPageTableForHost::earlier →
      ∀ other, Finished earlier other .preemptDisable ∧ .starts other .preemptEnable ∉ earlier) ∧
    ((started env cpuId schedule).start = .returned 0 → ∀ core, Succeeded (started env cpuId schedule).marks core) := by
  have inv := started_inv env cpuId schedule
  refine ⟨?_,?_,?_⟩
  · intro core later earlier split
    have ordered := inv.ordered
    rw [split] at ordered
    exact ordered.split
  · intro core later earlier split
    have ordered := inv.ordered
    rw [split] at ordered
    exact ordered.split
  · intro done core
    have arrived := inv.all_arrived (inv.complete (Or.inr ⟨0,done⟩)) core
    have judged := inv.judged core
    have late : stage .error < stage _ := lt_trans (by decide) arrived
    apply judged.judged late.le
    rcases judged.reported late with zero | failed
    · exact zero
    · exact absurd (inv.reported done) failed

/-- On a machine with one core where everything succeeds, `hb_start` does return 0. -/
example : (started ⟨fun _ => true,fun _ => true,fun _ _ => 0⟩ (0 : Fin 1)
    ([.start,.start] ++ List.replicate 31 (.thread 0) ++ [.start,.start])).start = .returned 0 := by
  decide

end Safety

end HyperBox.Start
