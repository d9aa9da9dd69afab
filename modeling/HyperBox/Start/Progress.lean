import HyperBox.Start.Threads
import Mathlib.Algebra.BigOperators.Group.Finset.Basic
import Mathlib.Algebra.Order.BigOperators.Group.Finset
import Mathlib.Data.Finset.Max

/-! Can the start of Hyper-box get stuck? The threads wait for each other at the barriers, so a
thread that returns early leaves the others waiting. The thread that is furthest behind tells
what everybody waits for. -/
namespace HyperBox.Start
open HyperBox.Library

section Stuck
variable {n : Nat} (env : StartEnv (n+1)) (s : State (n+1))

def Returned (line : Line) : Prop := line = .returned ∨ line = .allocFailed

/-- `hb_start` has woken the threads, and no core can take a step. -/
structure Stuck : Prop where
  woken : ∀ pending, s.start ≠ .wake pending
  rests : ∀ core, step env s (.thread core) = s

/-- A failure in `hb_vm_thread` on the core. -/
def Fails (core : Fin (n+1)) : Prop :=
  env.registers core = false ∨ env.result core .hbInitVmx < 0 ∨
    env.result core .hbVmLaunch = -1 ∨ env.result core .hbVmLaunch = -2

/-- Every thread has returned and `hb_start` can return on its own, with an error if a thread failed. -/
structure Completes : Prop where
  returned : ∀ core, Returned (s.line core)
  complete : s.counter .completeFlags = 0
  result : ∃ steps result, (run (step env) s (List.replicate steps .start)).start = .returned result ∧
    ((∃ core, Fails env core) → result = -1)

def Waits : Line → Prop
  | .returned => True
  | .allocFailed => True
  | .waitFor barrier => s.counter barrier > 0
  | .waitMutexLockFlags => s.mutexLockFlags = 0
  | _ => False

end Stuck

def rank (line : Line) : Nat := 2 * stage line + if line = .allocFailed then 1 else 0

section Moves
variable {n : Nat} {env : StartEnv (n+1)} {s : State (n+1)} {core : Fin (n+1)}

theorem rank_bound (line : Line) : rank line ≤ 64 := by
  have bound : stage line ≤ 32 := by
    cases line using stage.fun_cases <;> decide
  by_cases failed : line = .allocFailed
  · subst failed
    decide
  · rw [rank,if_neg failed]
    omega

theorem rank_lt {line next : Line} (ahead : stage line < stage next) : rank line < rank next := by
  unfold rank
  split <;> split <;> omega

theorem afterBarrier_stage (core : Fin (n+1)) (barrier : Barrier) :
    stage (.waitFor barrier) < stage (afterBarrier core barrier) := by
  by_cases first : core = 0 <;> cases barrier <;> simp [afterBarrier,first,stage]

theorem afterCall_stage (s : State (n+1)) (result : Int) (call : Call) :
    stage (.inside call) < stage ((afterCall s core result call).line core) := by
  cases call with
  | hbInitVmx =>
    rw [afterCall]
    split <;> simp [State.goto,stage]
  | preemptEnable =>
    rw [afterCall]
    by_cases first : core = 0 <;> simp [State.goto,first,stage]
  | _ => simp [afterCall,State.goto,stage]

theorem hbVmThread_moves :
    Waits s (s.line core) ∨ rank (s.line core) < rank ((hbVmThread env s core).line core) := by
  unfold hbVmThread
  cases at_ : s.line core with
  | returned | allocFailed => exact Or.inl trivial
  | waitFor barrier =>
    by_cases closed : s.counter barrier > 0
    · exact Or.inl closed
    · right
      simp only [closed,if_false,State.goto,Function.update_self]
      exact rank_lt (afterBarrier_stage core barrier)
  | waitMutexLockFlags =>
    by_cases closed : s.mutexLockFlags = 0
    · exact Or.inl closed
    · right
      simp only [closed,if_false,State.goto,Function.update_self]
      exact rank_lt (by decide)
  | allocRegisters =>
    right
    cases env.registers core with
    | false => simp [State.goto,rank,stage]
    | true =>
      by_cases first : core = 0 <;> simp [State.goto,first,rank,stage]
  | inside call => exact Or.inr (rank_lt (afterCall_stage _ _ _))
  | countDown barrier =>
    right
    apply rank_lt
    cases barrier <;> simp [State.goto,stage]
  | begins call =>
    right
    apply rank_lt
    cases call <;> simp [State.goto,stage]
  | _ =>
    right
    exact rank_lt (by simp [State.goto,stage])

theorem hbVmThread_waits (waits : Waits s (s.line core)) : hbVmThread env s core = s := by
  unfold hbVmThread
  cases at_ : s.line core with
  | returned | allocFailed => rfl
  | waitFor barrier =>
    rw [at_] at waits
    exact if_pos waits
  | waitMutexLockFlags =>
    rw [at_] at waits
    exact if_pos waits
  | _ =>
    rw [at_] at waits
    exact waits.elim

theorem hbVmThread_rests : hbVmThread env s core = s ↔ Waits s (s.line core) := by
  constructor
  · intro rests
    rcases @hbVmThread_moves n env s core with waits | moves
    · exact waits
    · rw [rests] at moves
      exact absurd moves (lt_irrefl _)
  · exact hbVmThread_waits

def ahead (s : State (n+1)) : Nat := ∑ core, (64 - rank (s.line core))

theorem ahead_lowers : hbVmThread env s core = s ∨ ahead (hbVmThread env s core) < ahead s := by
  rcases @hbVmThread_moves n env s core with waits | moves
  · exact Or.inl (hbVmThread_waits waits)
  · right
    obtain ⟨line,moved,_⟩ := @hbVmThread_line n env s core
    have bound := rank_bound ((hbVmThread env s core).line core)
    apply Finset.sum_lt_sum
    · intro other _
      by_cases same : other = core
      · subst same
        omega
      · rw [moved,Function.update_of_ne same]
    · exact ⟨core,Finset.mem_univ _,by omega⟩

theorem thread_start (threads : List (Actor (n+1))) (only : ∀ actor ∈ threads, ∃ core, actor = .thread core) :
    (run (step env) s threads).start = s.start := by
  induction threads generalizing s with
  | nil => rfl
  | cons actor rest ih =>
    obtain ⟨here,later⟩ := List.forall_mem_cons.mp only
    obtain ⟨core,rfl⟩ := here
    rw [run_cons,ih later,step]
    split
    · exact hbVmThread_effect.start
    · rfl

theorem wakes_all (env : StartEnv (n+1)) (pending : List (Fin (n+1))) (s : State (n+1))
    (wakes : s.start = .wake pending) :
    ∃ schedule, ∀ others, (run (step env) s schedule).start ≠ .wake others := by
  induction pending generalizing s with
  | nil =>
    refine ⟨[.start],?_⟩
    intro others
    simp [step,hbStart,wakes]
  | cons core rest ih =>
    obtain ⟨schedule,woken⟩ := ih (step env s .start) (by simp [step,hbStart,wakes])
    exact ⟨.start::schedule,woken⟩

/-- From every state some interleaving leads to a stuck one: all that matters is what it is like. -/
theorem reaches_stuck (env : StartEnv (n+1)) (s : State (n+1)) :
    ∃ schedule, Stuck env (run (step env) s schedule) := by
  have woken : ∃ schedule, ∀ others, (run (step env) s schedule).start ≠ .wake others := by
    by_cases wakes : ∃ pending, s.start = .wake pending
    · obtain ⟨pending,wakes⟩ := wakes
      exact wakes_all env pending s wakes
    · exact ⟨[],fun others start => wakes ⟨others,start⟩⟩
  obtain ⟨first,woken⟩ := woken
  have lowers : ∀ s (actor : Actor (n+1)), (∃ core, actor = .thread core) → True →
      step env s actor = s ∨ ahead (step env s actor) < ahead s := by
    intro s actor thread _
    obtain ⟨core,rfl⟩ := thread
    rw [step]
    split
    · exact ahead_lowers
    · exact Or.inl rfl
  obtain ⟨second,threads,_,rests⟩ :=
    reaches_rest (fun _ => True) ahead (fun _ _ _ _ => trivial) lowers trivial
  refine ⟨first ++ second,?_,?_⟩
  · intro pending
    rw [run_append,thread_start second threads]
    exact woken pending
  · intro core
    rw [run_append]
    exact rests _ ⟨core,rfl⟩

end Moves

section Facts
variable {n : Nat} {env : StartEnv (n+1)} {s : State (n+1)} {core : Fin (n+1)}

/-- What ties the threads to the answers of the kernel and the processor. -/
structure Faithful (env : StartEnv (n+1)) (s : State (n+1)) : Prop where
  woken : ∀ core, s.awake core = env.created core ∨ ∃ pending, s.start = .wake pending ∧ core ∈ pending
  created : ∀ core, env.created core = false → s.awake core = false
  asleep : ∀ core, s.awake core = false → s.line core = .disableMachineCheck
  registers : ∀ core, env.registers core = false → stage (s.line core) ≤ stage .allocRegisters
  allocated : ∀ core, s.line core = .allocFailed → env.registers core = false
  locked : stage .setMutexLockFlags < stage (s.line 0) → s.mutexLockFlags ≠ 0
  locks : s.line 0 ≠ .waitMutexLockFlags
  truthful : ∀ core call result, .finishes core call result ∈ s.marks → result = env.result core call
  answers : ∀ result, s.start = .returned result → result = 0 ∨ result = -1

theorem hbStartState_faithful (env : StartEnv (n+1)) (cpuId : Fin (n+1)) : Faithful env (hbStartState cpuId) where
  woken core := by
    right
    refine ⟨_,rfl,?_⟩
    by_cases same : core = cpuId <;> simp [same]
  created _ _ := rfl
  asleep _ _ := rfl
  registers _ _ := by simp [hbStartState,stage]
  allocated _ failed := by simp [hbStartState] at failed
  locked passed := by simp [hbStartState,stage] at passed
  locks := by simp [hbStartState]
  truthful _ _ _ member := by simp [hbStartState] at member
  answers _ returned := by simp [hbStartState] at returned

theorem early_line (early : stage (s.line core) ≤ stage .allocRegisters) (missing : env.registers core = false) :
    stage ((hbVmThread env s core).line core) ≤ stage .allocRegisters := by
  unfold hbVmThread
  cases at_ : s.line core using stage.fun_cases <;> simp [at_,stage] at early
  case case3 =>
    by_cases closed : s.counter .threadEntryCount > 0 <;> simp [closed,State.goto,afterBarrier,stage,at_]
  all_goals simp [State.goto,missing,stage,at_]

theorem alloc_line (failed : (hbVmThread env s core).line core = .allocFailed) :
    s.line core = .allocFailed ∨ env.registers core = false := by
  obtain ⟨line,moved,advance⟩ := @hbVmThread_line n env s core
  have early : stage (s.line core) ≤ stage .allocFailed := by
    have forward := advance.forward
    rwa [← Function.update_self core line s.line,← moved,failed] at forward
  unfold hbVmThread at failed
  cases at_ : s.line core using stage.fun_cases <;> simp [at_,stage] at early failed ⊢
  case case3 =>
    by_cases closed : s.counter .threadEntryCount > 0 <;> simp [closed,State.goto,afterBarrier,at_] at failed
  case case4 =>
    cases allocated : env.registers core with
    | false => rfl
    | true =>
      simp only [allocated,if_true,State.goto,Function.update_self] at failed
      split at failed <;> cases failed
  all_goals simp [State.goto] at failed

/-- Core 0 passes the lock of the modules only by setting the flag that the others wait for. -/
theorem lock_line (passed : stage .setMutexLockFlags < stage ((hbVmThread env s core).line core)) :
    stage .setMutexLockFlags < stage (s.line core) ∨ s.line core = .setMutexLockFlags ∨
      s.line core = .waitMutexLockFlags := by
  by_contra before
  push Not at before
  obtain ⟨early,notSet,notWait⟩ := before
  unfold hbVmThread at passed
  cases at_ : s.line core using stage.fun_cases <;> simp [at_,stage] at early notSet notWait <;>
    simp only [at_] at passed
  case case3 =>
    by_cases closed : s.counter .threadEntryCount > 0 <;> simp [closed,State.goto,afterBarrier,stage,at_] at passed
  case case4 =>
    cases allocated : env.registers core <;>
      simp only [allocated,if_true,State.goto,Function.update_self,Bool.false_eq_true,if_false] at passed
    · simp [stage] at passed
    · by_cases first : core = 0 <;> simp [first,stage] at passed
  case case8 =>
    by_cases closed : s.counter .threadRcuSyncCount > 0
    · simp [closed,at_,stage] at passed
    · simp only [closed,if_false,State.goto,Function.update_self,afterBarrier] at passed
      by_cases first : core = 0 <;> simp [first,stage] at passed
  all_goals simp [State.goto,State.mark,afterCall,stage] at passed

theorem wait_line (waits : (hbVmThread env s 0).line 0 = .waitMutexLockFlags) : s.line 0 = .waitMutexLockFlags := by
  unfold hbVmThread at waits
  cases at_ : s.line 0 with
  | waitMutexLockFlags => rfl
  | waitFor barrier =>
    by_cases closed : s.counter barrier > 0
    · simp [at_,closed] at waits
    · cases barrier <;> simp [at_,closed,State.goto,afterBarrier] at waits
  | allocRegisters => cases allocated : env.registers 0 <;> simp [at_,allocated,State.goto] at waits
  | inside call =>
    cases call with
    | hbInitVmx =>
      simp only [at_,afterCall] at waits
      split at waits <;> simp [State.goto] at waits
    | _ => simp [at_,afterCall,State.goto] at waits
  | countDown barrier => cases barrier <;> simp [at_,State.goto] at waits
  | _ => simp [at_,State.goto] at waits

theorem hbVmThread_shared : (hbVmThread env s core).awake = s.awake ∧
    (hbVmThread env s core).mutexLockFlags = if s.line core = .setMutexLockFlags then 1 else s.mutexLockFlags := by
  unfold hbVmThread
  cases at_ : s.line core with
  | waitFor barrier => by_cases closed : s.counter barrier > 0 <;> simp [closed,State.goto]
  | waitMutexLockFlags => by_cases closed : s.mutexLockFlags = 0 <;> simp [closed,State.goto]
  | allocRegisters => cases env.registers core <;> simp [State.goto]
  | inside call =>
    cases call with
    | hbInitVmx =>
      simp only [afterCall]
      split <;> simp [State.goto,State.setResult,State.mark]
    | _ => simp [afterCall,State.goto,State.setResult,State.mark]
  | _ => simp [State.goto,State.decrement,State.setResult,State.mark]

theorem hbVmThread_faithful (faithful : Faithful env s) (awake : s.awake core = true) :
    Faithful env (hbVmThread env s core) := by
  have effect := @hbVmThread_effect n env s core
  obtain ⟨line,moved,advance⟩ := @hbVmThread_line n env s core
  obtain ⟨sameAwake,mutex⟩ := @hbVmThread_shared n env s core
  have elsewhere : ∀ other ≠ core, (hbVmThread env s core).line other = s.line other := by
    intro other distinct
    rw [moved,Function.update_of_ne distinct]
  constructor
  case woken =>
    intro other
    rw [sameAwake,effect.start]
    exact faithful.woken other
  case created =>
    intro other missing
    rw [sameAwake]
    exact faithful.created other missing
  case asleep =>
    intro other sleeps
    rw [sameAwake] at sleeps
    have distinct : other ≠ core := by
      intro same
      rw [same,awake] at sleeps
      cases sleeps
    rw [elsewhere other distinct]
    exact faithful.asleep other sleeps
  case registers =>
    intro other missing
    by_cases same : other = core
    · subst same
      exact early_line (faithful.registers other missing) missing
    · rw [elsewhere other same]
      exact faithful.registers other missing
  case allocated =>
    intro other failed
    by_cases same : other = core
    · subst same
      exact (alloc_line failed).elim (faithful.allocated other) id
    · rw [elsewhere other same] at failed
      exact faithful.allocated other failed
  case locked =>
    intro passed
    rw [mutex]
    split
    · decide
    case isFalse notSet =>
      by_cases same : 0 = core
      · subst same
        rcases lock_line passed with before | set | wait
        · exact faithful.locked before
        · exact absurd set notSet
        · exact absurd wait faithful.locks
      · rw [elsewhere 0 same] at passed
        exact faithful.locked passed
  case locks =>
    intro waits
    by_cases same : 0 = core
    · subst same
      exact faithful.locks (wait_line waits)
    · rw [elsewhere 0 same] at waits
      exact faithful.locks waits
  case truthful =>
    intro other call result member
    rw [effect.marks] at member
    rcases List.mem_append.mp member with new | old
    · split at new
      case h_1 => simp at new
      case h_2 =>
        simp only [List.mem_singleton,Mark.finishes.injEq] at new
        obtain ⟨rfl,rfl,rfl⟩ := new
        rfl
      case h_3 => simp at new
    · exact faithful.truthful other call result old
  case answers =>
    intro result returned
    rw [effect.start] at returned
    exact faithful.answers result returned

theorem hbStart_faithful (faithful : Faithful env s) : Faithful env (hbStart env s) := by
  obtain ⟨woken,created,asleep,registers,allocated,locked,locks,truthful,answers⟩ := faithful
  unfold hbStart
  cases at_ : s.start with
  | wake pending =>
    cases pending with
    | nil =>
      refine ⟨?_,created,asleep,registers,allocated,locked,locks,truthful,by simp⟩
      intro core
      rcases woken core with same | ⟨pending,start,member⟩
      · exact Or.inl same
      · rw [at_] at start
        cases start
        cases member
    | cons first rest =>
      dsimp only
      refine ⟨?_,?_,?_,registers,allocated,locked,locks,truthful,by simp⟩
      · intro core
        by_cases here : core = first
        · subst here
          left
          simp
        · rcases woken core with same | ⟨pending,start,member⟩
          · left
            simpa [here] using same
          · rw [at_] at start
            cases start
            exact Or.inr ⟨rest,rfl,(List.mem_cons.mp member).resolve_left here⟩
      · intro core missing
        by_cases here : core = first
        · subst here
          simpa using missing
        · simpa [here] using created core missing
      · intro core sleeps
        by_cases here : core = first
        · subst here
          simp only [Function.update_self] at sleeps
          exact asleep core (created core sleeps)
        · simp only [Function.update_of_ne here] at sleeps
          exact asleep core sleeps
  | waitComplete =>
    dsimp only
    split
    · exact ⟨woken,created,asleep,registers,allocated,locked,locks,truthful,answers⟩
    · refine ⟨?_,created,asleep,registers,allocated,locked,locks,truthful,by simp⟩
      intro core
      exact Or.inl ((woken core).resolve_right (by simp [at_]))
  | checkResult =>
    refine ⟨?_,created,asleep,registers,allocated,locked,locks,truthful,?_⟩
    · intro core
      exact Or.inl ((woken core).resolve_right (by simp [at_]))
    · intro result returned
      simp only [StartLine.returned.injEq] at returned
      split at returned
      · exact Or.inr returned.symm
      · exact Or.inl returned.symm
  | returned result => exact ⟨woken,created,asleep,registers,allocated,locked,locks,truthful,answers⟩

theorem started_faithful (env : StartEnv (n+1)) (cpuId : Fin (n+1)) (schedule : List (Actor (n+1))) :
    Faithful env (started env cpuId schedule) := by
  have keeps : ∀ s, Faithful env s → ∀ actor, Faithful env (step env s actor) := by
    intro s faithful actor
    cases actor with
    | start => exact hbStart_faithful faithful
    | thread core =>
      rw [step]
      split
      case isTrue awake => exact hbVmThread_faithful faithful awake
      case isFalse => exact faithful
  rw [started]
  generalize hbStartState cpuId = s, hbStartState_faithful env cpuId = faithful
  induction schedule generalizing s with
  | nil => exact faithful
  | cons actor rest ih => exact ih _ (keeps _ faithful actor)

theorem stage_late {line : Line} (late : stage .returned ≤ stage line) : line = .returned := by
  cases line using stage.fun_cases <;> simp [stage] at late ⊢

theorem stage_lock {line : Line} (same : stage line = stage .setMutexLockFlags) :
    line = .setMutexLockFlags ∨ line = .waitMutexLockFlags := by
  cases line using stage.fun_cases <;> simp [stage] at same ⊢

/-- If every thread waits, the one furthest behind has returned. -/
theorem all_returned (inv : Inv s) (faithful : Faithful env s) (allocated : ∀ core, env.registers core = true)
    (waits : ∀ core, Waits s (s.line core)) (core : Fin (n+1)) : s.line core = .returned := by
  obtain ⟨last,_,behind⟩ := Finset.exists_min_image Finset.univ (fun core => stage (s.line core))
    ⟨0,Finset.mem_univ 0⟩
  have wait := waits last
  cases at_ : s.line last with
  | returned =>
    have order := behind core (Finset.mem_univ core)
    rw [at_] at order
    exact stage_late order
  | allocFailed =>
    have missing := faithful.allocated last at_
    rw [allocated last] at missing
    cases missing
  | waitFor barrier =>
    -- someone has not arrived at the barrier, and so is further behind
    rw [at_] at wait
    have open_ : remaining (fun core => arrived barrier (s.line core)) ≠ 0 := by
      have counts := inv.counts barrier
      have closed : s.counter barrier > 0 := wait
      omega
    rw [Ne,remaining_eq_zero] at open_
    push Not at open_
    obtain ⟨absent,absence⟩ := open_
    have order := behind absent (Finset.mem_univ absent)
    rw [at_] at order
    simp only [arrived,ne_eq,decide_eq_true_eq,not_lt] at absence
    have step : stage (.countDown barrier) < stage (.waitFor barrier) := by
      cases barrier <;> decide
    omega
  | waitMutexLockFlags =>
    -- core 0 has not set the flag yet, and it waits for nothing before that
    rw [at_] at wait
    have closed : s.mutexLockFlags = 0 := wait
    have order := behind 0 (Finset.mem_univ 0)
    rw [at_] at order
    have early : ¬ stage .setMutexLockFlags < stage (s.line 0) := fun passed => faithful.locked passed closed
    have here : stage (s.line 0) = stage .setMutexLockFlags := le_antisymm (not_lt.mp early) order
    rcases stage_lock here with set | other
    · have stops := waits 0
      rw [set] at stops
      exact stops.elim
    · exact absurd other faithful.locks
  | _ =>
    rw [at_] at wait
    exact wait.elim

theorem failure_reported (inv : Inv s) (faithful : Faithful env s) (returned : s.line core = .returned)
    (allocated : env.registers core = true) (fails : Fails env core) : s.threadResult ≠ 0 := by
  have judged := inv.judged core
  rw [returned] at judged
  rcases judged.reported (by decide) with zero | failed
  · obtain ⟨⟨first,positive,initialised⟩,second,notInvalid,notValid,launched⟩ := judged.judged (by decide) zero
    rw [faithful.truthful _ _ _ initialised] at positive
    rw [faithful.truthful _ _ _ launched] at notInvalid notValid
    rcases fails with missing | negative | invalid | valid
    · rw [allocated] at missing
      cases missing
    · exact absurd negative (not_lt.mpr positive)
    · exact absurd invalid notInvalid
    · exact absurd valid notValid
  · exact failed

theorem hbStart_returns (complete : s.counter .completeFlags = 0) (woken : ∀ pending, s.start ≠ .wake pending) :
    ∃ steps result, (run (step env) s (List.replicate steps .start)).start = .returned result ∧
      (s.start = .returned result ∨ result = if s.threadResult ≠ 0 then -1 else 0) := by
  cases at_ : s.start with
  | wake pending => exact absurd at_ (woken pending)
  | waitComplete =>
    refine ⟨2,if s.threadResult ≠ 0 then -1 else 0,?_,Or.inr rfl⟩
    simp [List.replicate,step,hbStart,at_,complete]
  | checkResult =>
    refine ⟨1,if s.threadResult ≠ 0 then -1 else 0,?_,Or.inr rfl⟩
    simp [List.replicate,step,hbStart,at_]
  | returned result => exact ⟨0,result,at_,Or.inl rfl⟩

theorem stuck_completes (inv : Inv s) (faithful : Faithful env s) (stuck : Stuck env s)
    (good : ∀ core, env.created core = true ∧ env.registers core = true) : Completes env s := by
  have awake : ∀ core, s.awake core = true := by
    intro core
    rcases faithful.woken core with same | ⟨pending,start,_⟩
    · rw [same]
      exact (good core).1
    · exact absurd start (stuck.woken pending)
  have waits : ∀ core, Waits s (s.line core) := by
    intro core
    have rests := stuck.rests core
    rw [step,if_pos (awake core)] at rests
    exact hbVmThread_rests.mp rests
  have returned := all_returned inv faithful (fun core => (good core).2) waits
  have complete : s.counter .completeFlags = 0 := by
    rw [inv.counts]
    have all : remaining (fun core => arrived .completeFlags (s.line core)) = 0 := by
      rw [remaining_eq_zero]
      intro core
      rw [returned core]
      decide
    omega
  obtain ⟨steps,result,returns,value⟩ := @hbStart_returns n env s complete stuck.woken
  refine ⟨fun core => Or.inl (returned core),complete,steps,result,returns,?_⟩
  intro failure
  obtain ⟨core,fails⟩ := failure
  have failed := failure_reported inv faithful (returned core) (good core).2 fails
  rcases value with done | value
  · rcases faithful.answers result done with zero | minus
    · rw [zero] at done
      exact absurd (inv.reported done) failed
    · exact minus
  · rw [value,if_pos failed]

theorem completes_needs {cpuId : Fin (n+1)}
    (completes : ∀ schedule, Stuck env (started env cpuId schedule) → Completes env (started env cpuId schedule))
    (core : Fin (n+1)) : env.created core = true ∧ env.registers core = true := by
  obtain ⟨schedule,stuck⟩ := reaches_stuck env (hbStartState cpuId)
  have faithful := started_faithful env cpuId schedule
  have done := (completes schedule stuck).complete
  have passed := (started_inv env cpuId schedule).all_arrived (le_of_eq done) core
  by_contra bad
  rw [not_and_or,Bool.not_eq_true,Bool.not_eq_true] at bad
  rcases bad with missing | missing
  · rw [faithful.asleep core (faithful.created core missing)] at passed
    exact absurd passed (by decide)
  · have early := faithful.registers core missing
    have order : stage .allocRegisters < stage (.countDown .completeFlags) := by decide
    omega

/-- No interleaving leaves the start of Hyper-box stuck before every thread has returned, exactly
when every thread is created and gets its register structures. -/
theorem start_completes_iff (env : StartEnv (n+1)) (cpuId : Fin (n+1)) :
    (∀ schedule, Stuck env (started env cpuId schedule) → Completes env (started env cpuId schedule)) ↔
      ∀ core, env.created core = true ∧ env.registers core = true := by
  constructor
  · exact completes_needs
  · intro good schedule stuck
    exact stuck_completes (started_inv env cpuId schedule) (started_faithful env cpuId schedule) stuck good

/-- Two cores, and no memory for the register structures of the second: core 0 waits for ever
at the next barrier. -/
theorem start_stuck :
    ¬ ∀ (n : Nat) (env : StartEnv (n+1)) (cpuId : Fin (n+1)) (schedule : List (Actor (n+1))),
      (∀ core, env.created core = true) → Stuck env (started env cpuId schedule) →
      Completes env (started env cpuId schedule) := by
  intro claim
  let env : StartEnv 2 := ⟨fun _ => true,fun core => core = 0,fun _ _ => 0⟩
  have good := completes_needs (fun schedule => claim 1 env 0 schedule (fun _ => rfl)) 1
  exact absurd good.2 (by decide)

end Facts
end HyperBox.Start
