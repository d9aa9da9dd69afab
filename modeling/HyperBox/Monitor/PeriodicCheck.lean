import HyperBox.Monitor.FunctionPointer

/-! The periodic checks of the monitor. Every core that takes an exit of the preemption timer tries
both timers; the lock of the timers is only tried, so a core that does not get it skips the check.
The pointers are checked outside of the lock, word by word, and the other cores go on meanwhile. The
exits come only with `HYPERBOX_USE_PRE_TIMER`. -/
namespace HyperBox.Monitor
open HyperBox.Library HyperBox.PageTable HyperBox.ReadOnly

/-- `TIMER_INTERVAL`, in microseconds. -/
def timerInterval : BitVec 32 := 100000

inductive Timer where
  | task
  | dkom
deriving DecidableEq

/-- Where a core is in `hb_callback_vm_timer`. -/
inductive TimerStage where
  | idle
  | tryLock (timer : Timer)
  | read (timer : Timer)
  | store (timer : Timer)
  | unlock (timer : Timer) (expired : Bool)
  | tasks
  | vfs
  | vfsCheck
  | net
  | netCheck
deriving DecidableEq

/-- The message about an attack: its core and the text for the function that has found it. -/
structure PointerAlarm (n : Nat) where
  core : Fin n
  function : String

/-- `now` counts the jiffies without end; `passes` are the times at which the timer of the pointer
checks was set. -/
structure WatchState (n : Nat) where
  stage : Fin n → TimerStage
  timeLock : Option (Fin n)
  now : Nat
  last : Timer → U64
  view : View
  checking : Fin n → Checking
  vfsDetected : Bool
  netDetected : Bool
  alarms : List (PointerAlarm n)
  passes : List Nat

/-- `tasklistFree` is the result of `write_trylock` on the list of tasks. -/
inductive WatchEvent (n : Nat) where
  | enter (core : Fin n) (valid : Bool)
  | step (core : Fin n) (tasklistFree : Bool)
  | tick
  | change (view : View)

section Code
variable {n : Nat} (env : WatchEnv)

def WatchState.jiffies (s : WatchState n) : U64 := BitVec.ofNat 64 s.now

/-- The result has 32 bits. -/
def jiffiesToUsecs (jiffies : U64) : BitVec 32 := BitVec.ofNat 32 (env.usecPerJiffy * jiffies.toNat)

def WatchState.goto (s : WatchState n) (core : Fin n) (stage : TimerStage) : WatchState n :=
  { s with stage := Function.update s.stage core stage }

/-- A timer that has not expired, or was not tried, goes on to the next check. -/
def afterTimer : Timer → TimerStage
  | .task => .tryLock .dkom
  | .dkom => .idle

def checkOf : Timer → TimerStage
  | .task => .tasks
  | .dkom => .vfs

def WatchState.store (s : WatchState n) (timer : Timer) : WatchState n :=
  { s with
    last := Function.update s.last timer s.jiffies
    passes := if timer = .dkom then s.passes ++ [s.now] else s.passes }

/-- A check begins, or there is none any more. -/
def WatchState.begin (s : WatchState n) (core : Fin n) (stage : TimerStage) (actions : List CheckAction) : WatchState n :=
  { s.goto core stage with checking := Function.update s.checking core (.start actions) }

def WatchState.checkOn (s : WatchState n) (core : Fin n) : WatchState n :=
  { s with
    checking := Function.update s.checking core ((s.checking core).step env.offset s.view)
    alarms := s.alarms ++ (s.checking core).message.toList.map (⟨core,·⟩) }

/-- One step of `hb_callback_vm_timer` on a core. -/
def WatchState.advance (s : WatchState n) (core : Fin n) (tasklistFree : Bool) : WatchState n :=
  match s.stage core with
  | .idle => s
  | .tryLock timer =>
    if s.timeLock.isNone then { s.goto core (.read timer) with timeLock := some core }
    else s.goto core (afterTimer timer)
  | .read timer =>
    if timerInterval ≤ jiffiesToUsecs env (s.jiffies - s.last timer) then s.goto core (.store timer)
    else s.goto core (.unlock timer false)
  | .store timer => (s.store timer).goto core (.unlock timer true)
  | .unlock timer expired =>
    { s.goto core (if expired then checkOf timer else afterTimer timer) with timeLock := none }
  | .tasks =>
    if tasklistFree then s.goto core (afterTimer .task)
    else { s.goto core (afterTimer .task) with last := Function.update s.last .task 0 }
  | .vfs => if s.vfsDetected then s.goto core .net else s.begin core .vfsCheck (hbCheckVfsObject env)
  | .vfsCheck =>
    if (s.checking core).ended then
      { s.begin core .net [] with vfsDetected := s.vfsDetected || (s.checking core).found }
    else s.checkOn env core
  | .net => if s.netDetected then s.goto core .idle else s.begin core .netCheck (hbCheckNetObject env)
  | .netCheck =>
    if (s.checking core).ended then
      { s.begin core .idle [] with netDetected := s.netDetected || (s.checking core).found }
    else s.checkOn env core

def WatchState.step (s : WatchState n) : WatchEvent n → WatchState n
  | .enter core valid => if s.stage core = .idle ∧ valid then s.goto core (.tryLock .task) else s
  | .step core tasklistFree => s.advance env core tasklistFree
  | .tick => { s with now := s.now + 1 }
  | .change view => { s with view }

/-- The state after `hb_init_monitor`. -/
def watchStart (now : Nat) (view : View) : WatchState n :=
  ⟨fun _ => .idle,none,now,fun _ => 0,view,fun _ => .start [],false,false,[],[]⟩

end Code

section Timed
variable {n : Nat} {env : WatchEnv} {s : WatchState n} {core : Fin n}

/-- The part of the callback under the lock of the timers. -/
def TimerStage.Inside : TimerStage → Prop
  | .read _ | .store _ | .unlock _ _ => True
  | _ => False

/-- The interval has passed between two times. -/
def WatchEnv.Apart (env : WatchEnv) (earlier later : Nat) : Prop :=
  earlier ≤ later ∧ timerInterval.toNat ≤ env.usecPerJiffy * (later - earlier)

theorem WatchEnv.Apart.later {earlier later now : Nat} (apart : env.Apart earlier later) (on : later ≤ now) :
    env.Apart earlier now :=
  ⟨apart.1.trans on,apart.2.trans (Nat.mul_le_mul_left _ (Nat.sub_le_sub_right on _))⟩

structure Timed (env : WatchEnv) (s : WatchState n) : Prop where
  holder : ∀ core, (s.stage core).Inside ↔ s.timeLock = some core
  last : s.last .dkom = BitVec.ofNat 64 (s.passes.getLast?.getD 0)
  past : ∀ pass ∈ s.passes, pass ≤ s.now
  spaced : s.passes.Pairwise env.Apart
  due : ∀ core, s.stage core = .store .dkom → ∀ pass ∈ s.passes, env.Apart pass s.now

/-- The expired timer tells the truth: 32 bits of a product are never more than the product. -/
theorem expired_apart {pass : Nat} (past : pass ≤ s.now)
    (expired : timerInterval ≤ jiffiesToUsecs env (s.jiffies - BitVec.ofNat 64 pass)) : env.Apart pass s.now := by
  have elapsed : s.jiffies - BitVec.ofNat 64 pass = BitVec.ofNat 64 (s.now - pass) := by
    have sum := congrArg (BitVec.ofNat 64) (Nat.sub_add_cancel past)
    rw [BitVec.ofNat_add] at sum
    rw [WatchState.jiffies,← sum,BitVec.add_sub_cancel]
  rw [elapsed,BitVec.le_def,jiffiesToUsecs,BitVec.toNat_ofNat,BitVec.toNat_ofNat] at expired
  refine ⟨past,expired.trans ((Nat.mod_le _ _).trans (Nat.mul_le_mul_left _ (Nat.mod_le _ _)))⟩

@[simp] theorem goto_stage (stage : TimerStage) (other : Fin n) :
    (s.goto core stage).stage other = if other = core then stage else s.stage other :=
  Function.update_apply ..

/-- A step that leaves the lock and the times alone. -/
theorem Timed.move (timed : Timed env s) {stage : TimerStage} (inside : stage.Inside ↔ (s.stage core).Inside)
    (due : stage = .store .dkom → ∀ pass ∈ s.passes, env.Apart pass s.now) : Timed env (s.goto core stage) := by
  refine ⟨?_,timed.last,timed.past,timed.spaced,?_⟩
  · intro other
    rw [goto_stage]
    split
    · rename_i same
      rw [inside,same]
      exact timed.holder core
    · exact timed.holder other
  · intro other here
    rw [goto_stage] at here
    split at here
    · exact due here
    · exact timed.due other here

/-- What is not of the timers may change. -/
theorem Timed.other (timed : Timed env s) (view : View) (checking : Fin n → Checking) (vfsDetected netDetected : Bool)
    (alarms : List (PointerAlarm n)) : Timed env { s with view, checking, vfsDetected, netDetected, alarms } :=
  ⟨timed.holder,timed.last,timed.past,timed.spaced,timed.due⟩

theorem Timed.acquire (timed : Timed env s) (free : s.timeLock = none) (timer : Timer) :
    Timed env { s.goto core (.read timer) with timeLock := some core } := by
  refine ⟨?_,timed.last,timed.past,timed.spaced,?_⟩
  · intro other
    change ((s.goto core (.read timer)).stage other).Inside ↔ some core = some other
    rw [goto_stage,Option.some.injEq]
    split
    · rename_i same
      exact iff_of_true trivial same.symm
    · rename_i apart
      rw [timed.holder other,free]
      exact iff_of_false (by simp) (Ne.symm apart)
  · intro other here
    change (s.goto core (.read timer)).stage other = _ at here
    rw [goto_stage] at here
    split at here
    · cases here
    · exact timed.due other here

theorem Timed.release (timed : Timed env s) {timer : Timer} {expired : Bool} (here : s.stage core = .unlock timer expired)
    {stage : TimerStage} (outside : ¬ stage.Inside) : Timed env { s.goto core stage with timeLock := none } := by
  have held : s.timeLock = some core := (timed.holder core).mp (here ▸ trivial)
  refine ⟨?_,timed.last,timed.past,timed.spaced,?_⟩
  · intro other
    change ((s.goto core stage).stage other).Inside ↔ none = some other
    rw [goto_stage]
    refine iff_of_false ?_ (by simp)
    split
    · exact outside
    · rename_i apart
      rw [timed.holder other,held,Option.some.injEq]
      exact Ne.symm apart
  · intro other there
    change (s.goto core stage).stage other = _ at there
    rw [goto_stage] at there
    split at there
    · rw [there] at outside
      exact absurd trivial outside
    · exact timed.due other there

theorem Timed.store (timed : Timed env s) {timer : Timer} (here : s.stage core = .store timer) :
    Timed env ((s.store timer).goto core (.unlock timer true)) := by
  have held : s.timeLock = some core := (timed.holder core).mp (here ▸ trivial)
  have alone (other : Fin n) (there : s.stage other = .store .dkom) : other = core := by
    have holds := (timed.holder other).mp (there ▸ trivial)
    rw [held,Option.some.injEq] at holds
    exact holds.symm
  have inside (other : Fin n) :
      (((s.store timer).goto core (.unlock timer true)).stage other).Inside ↔ s.timeLock = some other := by
    rw [goto_stage]
    split
    · rename_i same
      rw [same]
      exact iff_of_true trivial held
    · exact timed.holder other
  have none (other : Fin n) : ((s.store timer).goto core (.unlock timer true)).stage other ≠ .store .dkom := by
    rw [goto_stage]
    split
    · simp
    · rename_i apart
      exact fun there => apart (alone other there)
  cases timer with
  | task =>
    have last := timed.last
    refine ⟨inside,?_,timed.past,timed.spaced,fun other there => absurd there (none other)⟩
    simpa [WatchState.goto,WatchState.store] using last
  | dkom =>
    refine ⟨inside,?_,?_,?_,fun other there => absurd there (none other)⟩
    · simp [WatchState.goto,WatchState.store,WatchState.jiffies]
    · intro pass member
      change pass ∈ s.passes ++ [s.now] at member
      rcases List.mem_append.mp member with old | new
      · exact timed.past pass old
      · exact (List.mem_singleton.mp new).le
    · change (s.passes ++ [s.now]).Pairwise env.Apart
      rw [List.pairwise_append]
      refine ⟨timed.spaced,List.pairwise_singleton _ _,?_⟩
      intro pass member now same
      rw [List.mem_singleton.mp same]
      exact timed.due core here pass member

theorem Timed.expired (timed : Timed env s)
    (expired : timerInterval ≤ jiffiesToUsecs env (s.jiffies - s.last .dkom)) : ∀ pass ∈ s.passes, env.Apart pass s.now := by
  have last := timed.last
  have past := timed.past
  have spaced := timed.spaced
  intro pass member
  rcases List.eq_nil_or_concat s.passes with empty | ⟨before,latest,whole⟩
  · rw [empty] at member
    cases member
  · rw [List.concat_eq_append] at whole
    rw [whole] at member last past spaced
    rw [List.getLast?_concat,Option.getD_some] at last
    rw [last] at expired
    have apart := expired_apart (past latest (by simp)) expired
    rcases List.mem_append.mp member with old | new
    · exact ((List.pairwise_append.mp spaced).2.2 pass old latest (by simp)).later apart.1
    · rw [List.mem_singleton.mp new]
      exact apart

theorem Timed.advance (timed : Timed env s) (core : Fin n) (tasklistFree : Bool) :
    Timed env (s.advance env core tasklistFree) := by
  unfold WatchState.advance
  cases here : s.stage core with
  | idle => exact timed
  | tryLock timer =>
    dsimp only
    split
    · rename_i free
      exact timed.acquire (by simpa using free) timer
    · exact timed.move (by cases timer <;> simp [afterTimer,TimerStage.Inside,here]) (by cases timer <;> simp [afterTimer])
  | read timer =>
    dsimp only
    split
    · rename_i expired
      refine timed.move (by simp [TimerStage.Inside,here]) ?_
      rintro same
      cases same
      exact timed.expired expired
    · exact timed.move (by simp [TimerStage.Inside,here]) (by simp)
  | store timer => exact timed.store here
  | unlock timer expired =>
    apply timed.release here
    cases timer <;> cases expired <;> exact id
  | tasks =>
    have moved : Timed env (s.goto core (afterTimer .task)) :=
      timed.move (by simp [afterTimer,TimerStage.Inside,here]) (by simp [afterTimer])
    dsimp only
    split
    · exact moved
    · have kept : Function.update s.last .task 0 .dkom = s.last .dkom := Function.update_of_ne (by decide) 0 s.last
      exact ⟨moved.holder,kept.trans moved.last,moved.past,moved.spaced,moved.due⟩
  | vfs =>
    dsimp only
    split
    · exact timed.move (by simp [TimerStage.Inside,here]) (by simp)
    · have moved : Timed env (s.goto core .vfsCheck) := timed.move (by simp [TimerStage.Inside,here]) (by simp)
      exact moved.other ..
  | vfsCheck =>
    dsimp only
    split
    · have moved : Timed env (s.goto core .net) := timed.move (by simp [TimerStage.Inside,here]) (by simp)
      exact moved.other ..
    · exact timed.other ..
  | net =>
    dsimp only
    split
    · exact timed.move (by simp [TimerStage.Inside,here]) (by simp)
    · have moved : Timed env (s.goto core .netCheck) := timed.move (by simp [TimerStage.Inside,here]) (by simp)
      exact moved.other ..
  | netCheck =>
    dsimp only
    split
    · have moved : Timed env (s.goto core .idle) := timed.move (by simp [TimerStage.Inside,here]) (by simp)
      exact moved.other ..
    · exact timed.other ..

theorem Timed.step (timed : Timed env s) (event : WatchEvent n) : Timed env (s.step env event) := by
  cases event with
  | enter core valid =>
    rw [WatchState.step]
    split
    · rename_i enters
      exact timed.move (by simp [TimerStage.Inside,enters.1]) (by simp)
    · exact timed
  | step core tasklistFree => exact timed.advance core tasklistFree
  | tick =>
    refine ⟨timed.holder,timed.last,?_,timed.spaced,?_⟩
    · intro pass member
      exact (timed.past pass member).trans (Nat.le_succ _)
    · intro other here pass member
      exact (timed.due other here pass member).later (Nat.le_succ _)
  | change view => exact timed.other ..

theorem timed_start (now : Nat) (view : View) : Timed env (watchStart now view : WatchState n) := by
  refine ⟨?_,rfl,by simp [watchStart],.nil,by simp [watchStart]⟩
  intro core
  exact iff_of_false id (by simp [watchStart])

end Timed

section Detection
variable {n : Nat} {env : WatchEnv} {s : WatchState n} {core : Fin n}

def TimerStage.Checks : TimerStage → Prop
  | .vfsCheck | .netCheck => True
  | _ => False

/-- What an event does to the checks: nothing, or one of them begins, goes on or ends. -/
inductive Moves (env : WatchEnv) (s : WatchState n) : WatchEvent n → WatchState n → Prop
  | rests {event : WatchEvent n} {s' : WatchState n} (checking : s'.checking = s.checking) (alarms : s'.alarms = s.alarms)
    (vfs : s'.vfsDetected = s.vfsDetected) (net : s'.netDetected = s.netDetected)
    (stage : ∀ core, (s.stage core).Checks → (s'.stage core).Checks) : Moves env s event s'
  | begins {core : Fin n} {free : Bool} {stage : TimerStage} {actions : List CheckAction}
    (outside : ¬ (s.stage core).Checks) (inside : stage.Checks) : Moves env s (.step core free) (s.begin core stage actions)
  | goes {core : Fin n} {free : Bool} (inside : (s.stage core).Checks) : Moves env s (.step core free) (s.checkOn env core)
  | ends {core : Fin n} {free : Bool} {stage : TimerStage} {vfsDetected netDetected : Bool}
    (vfs : s.vfsDetected = true → vfsDetected = true) (net : s.netDetected = true → netDetected = true)
    (flags : vfsDetected = true ∨ netDetected = true ↔
      (s.vfsDetected = true ∨ s.netDetected = true) ∨ (s.checking core).found = true) :
    Moves env s (.step core free) { s.begin core stage [] with vfsDetected, netDetected }

/-- A core that is outside the checks and stays there. -/
theorem moves_goto (event : WatchEvent n) {s' : WatchState n} (outside : ¬ (s.stage core).Checks) {stage : TimerStage}
    (moved : s'.stage = (s.goto core stage).stage) (checking : s'.checking = s.checking) (alarms : s'.alarms = s.alarms)
    (vfs : s'.vfsDetected = s.vfsDetected) (net : s'.netDetected = s.netDetected) : Moves env s event s' := by
  refine .rests checking alarms vfs net fun other inside => ?_
  have apart : other ≠ core := by
    rintro rfl
    exact outside inside
  rw [moved,goto_stage,if_neg apart]
  exact inside

variable (env) in
theorem step_moves (s : WatchState n) (event : WatchEvent n) : Moves env s event (s.step env event) := by
  cases event with
  | enter core valid =>
    rw [WatchState.step]
    split
    · rename_i enters
      exact moves_goto _ (by simp [enters.1,TimerStage.Checks]) rfl rfl rfl rfl rfl
    · exact .rests rfl rfl rfl rfl fun _ inside => inside
  | tick => exact .rests rfl rfl rfl rfl fun _ inside => inside
  | change view => exact .rests rfl rfl rfl rfl fun _ inside => inside
  | step core free =>
    rw [WatchState.step]
    unfold WatchState.advance
    cases here : s.stage core with
    | idle => exact .rests rfl rfl rfl rfl fun _ inside => inside
    | tryLock | read | tasks =>
      have outside : ¬ (s.stage core).Checks := by simp [here,TimerStage.Checks]
      dsimp only
      split <;> exact moves_goto _ outside rfl rfl rfl rfl rfl
    | store | unlock => exact moves_goto _ (by simp [here,TimerStage.Checks]) rfl rfl rfl rfl rfl
    | vfs | net =>
      have outside : ¬ (s.stage core).Checks := by simp [here,TimerStage.Checks]
      dsimp only
      split
      · exact moves_goto _ outside rfl rfl rfl rfl rfl
      · exact .begins outside trivial
    | vfsCheck =>
      dsimp only
      split
      · exact .ends (fun detected => by simp [detected]) id (by rw [Bool.or_eq_true]; tauto)
      · exact .goes (by simp [here,TimerStage.Checks])
    | netCheck =>
      dsimp only
      split
      · exact .ends id (fun detected => by simp [detected]) (by rw [Bool.or_eq_true]; tauto)
      · exact .goes (by simp [here,TimerStage.Checks])

/-- The flags stay. -/
theorem Moves.flags {event : WatchEvent n} {s' : WatchState n} (moves : Moves env s event s') :
    (s.vfsDetected = true → s'.vfsDetected = true) ∧ (s.netDetected = true → s'.netDetected = true) := by
  cases moves with
  | rests _ _ vfs net _ =>
    rw [vfs,net]
    exact ⟨id,id⟩
  | begins | goes => exact ⟨id,id⟩
  | ends vfs net _ => exact ⟨vfs,net⟩

/-- A message about the pointers, and no other one, comes with a result, and so with a flag. -/
structure Told (s : WatchState n) : Prop where
  checks : ∀ core, (s.checking core).found = true → (s.stage core).Checks
  told : s.alarms ≠ [] ↔ (s.vfsDetected = true ∨ s.netDetected = true) ∨ ∃ core, (s.checking core).found = true

theorem step_message (c : Checking) (offset : Member → U64) (view : View) :
    (c.step offset view).found = true ↔ c.found = true ∨ c.message.toList ≠ [] := by
  unfold Checking.step Checking.message
  cases c.search with
  | some search => simp [lookUp_found]
  | none =>
    cases c.rest with
    | nil => simp
    | cons action rest =>
      cases action with
      | report pointer skipped => cases error : c.error <;> simp
      | _ => simp

theorem update_found {value : Checking} {checking : Fin n → Checking} :
    (∃ other, (Function.update checking core value other).found = true) ↔
      value.found = true ∨ ∃ other ≠ core, (checking other).found = true := by
  constructor
  · rintro ⟨other,found⟩
    by_cases same : other = core
    · rw [same,Function.update_self] at found
      exact .inl found
    · rw [Function.update_of_ne same] at found
      exact .inr ⟨other,same,found⟩
  · rintro (found | ⟨other,apart,found⟩)
    · exact ⟨core,by rwa [Function.update_self]⟩
    · exact ⟨other,by rwa [Function.update_of_ne apart]⟩

theorem found_core (checking : Fin n → Checking) (core : Fin n) : (∃ other, (checking other).found = true) ↔
    (checking core).found = true ∨ ∃ other ≠ core, (checking other).found = true := by
  rw [← update_found,Function.update_eq_self]

theorem Told.begin (told : Told s) (stage : TimerStage) (actions : List CheckAction) (other : Fin n)
    (found : (Function.update s.checking core (Checking.start actions) other).found = true) :
    ((s.begin core stage actions).stage other).Checks := by
  by_cases same : other = core
  · rw [same,Function.update_self] at found
    cases found
  · rw [Function.update_of_ne same] at found
    change ((s.goto core stage).stage other).Checks
    rw [goto_stage,if_neg same]
    exact told.checks other found

theorem Told.moves (told : Told s) {event : WatchEvent n} {s' : WatchState n} (moves : Moves env s event s') : Told s' := by
  have before := told.told
  cases moves with
  | rests checking alarms vfs net stage =>
    refine ⟨fun core found => stage core (told.checks core ?_),?_⟩
    · rwa [checking] at found
    · rw [alarms,vfs,net,checking]
      exact before
  | @begins core free stage actions outside inside =>
    refine ⟨told.begin stage actions,?_⟩
    have none : ¬ (s.checking core).found = true := fun found => outside (told.checks core found)
    change s.alarms ≠ [] ↔ (s.vfsDetected = true ∨ s.netDetected = true) ∨
      ∃ other, (Function.update s.checking core (Checking.start actions) other).found = true
    rw [update_found,before,found_core s.checking core]
    simp [none,Checking.start]
  | @goes core free inside =>
    refine ⟨?_,?_⟩
    · intro other found
      by_cases same : other = core
      · exact same ▸ inside
      · change (Function.update s.checking core _ other).found = true at found
        rw [Function.update_of_ne same] at found
        exact told.checks other found
    · change s.alarms ++ (s.checking core).message.toList.map _ ≠ [] ↔ (s.vfsDetected = true ∨ s.netDetected = true) ∨
        ∃ other, (Function.update s.checking core ((s.checking core).step env.offset s.view) other).found = true
      rw [update_found,step_message,ne_eq,List.append_eq_nil_iff,List.map_eq_nil_iff,not_and_or,← ne_eq,before,
        found_core s.checking core]
      grind
  | @ends core free stage vfsDetected netDetected vfs net flags =>
    refine ⟨told.begin stage [],?_⟩
    change s.alarms ≠ [] ↔ (vfsDetected = true ∨ netDetected = true) ∨
      ∃ other, (Function.update s.checking core (Checking.start []) other).found = true
    rw [update_found,before,found_core s.checking core,flags]
    simp [Checking.start,or_assoc]

/-- In a function the core has read a pointer, and it has not left the function since. It was not NULL, and
in no area that has stayed in a slot which the search has been at. -/
def Looked (env : WatchEnv) (start : WatchState n) (events : List (WatchEvent n)) (core : Fin n) (function : String)
    (pointer : U64) (passed : Nat → Prop) : Prop :=
  ∃ before free after, events = before ++ .step core free::after ∧ pointer ≠ 0 ∧
    ((run (WatchState.step env) start before).stage core).Checks ∧
    ((run (WatchState.step env) start before).checking core).Reads env.offset (run (WatchState.step env) start before).view
      pointer ∧
    Along (WatchState.step env) (fun s _ => reporter (s.checking core).rest = some function)
      (run (WatchState.step env) start before) (.step core free::after) ∧
    ∀ slot, passed slot → ∀ area, Along (WatchState.step env) (fun s _ => s.view.table.areas[slot]? = some area)
      (run (WatchState.step env) start before) (.step core free::after) → inArea pointer area = false

section Provenance
variable {start : WatchState n} {events : List (WatchEvent n)} {function : String} {pointer : U64} {passed passed' : Nat → Prop}

/-- One more event in the function. The slots that the search has passed meanwhile do not hold the pointer. -/
theorem Looked.extend (looked : Looked env start events core function pointer passed) (event : WatchEvent n)
    (still : reporter ((run (WatchState.step env) start events).checking core).rest = some function)
    (more : ∀ slot, passed' slot → passed slot ∨ ∀ area,
      (run (WatchState.step env) start events).view.table.areas[slot]? = some area → inArea pointer area = false) :
    Looked env start (events ++ [event]) core function pointer passed' := by
  obtain ⟨before,free,after,rfl,nonnull,inside,reads,stays,clear⟩ := looked
  rw [run_append] at still more
  refine ⟨before,free,after ++ [event],by simp,nonnull,inside,reads,?_,?_⟩
  · rw [← List.cons_append,along_append]
    exact ⟨stays,still,trivial⟩
  · intro slot here area held
    rw [← List.cons_append,along_append] at held
    rcases more slot here with old | new
    · exact clear slot old area held.1
    · exact new area held.2.1

end Provenance

section Origin
variable {c : Checking} {offset : Member → U64} {view : View} {function : String}

/-- The search has come to the end of the table. -/
def Checking.Exhausted (c : Checking) (view : View) : Prop :=
  ∃ search, c.search = some search ∧ view.table.areas[search.slot]? = none

/-- An error that is there after a step was there before, or a search has ended without result. -/
theorem step_error (error : (c.step offset view).error = true) (reports : reporter (c.step offset view).rest = some function) :
    reporter c.rest = some function ∧ (c.error = true ∨ c.Exhausted view) := by
  obtain ⟨rest,search,locals,before,found⟩ := c
  cases search with
  | some search =>
    simp only [Checking.step] at error reports
    rcases lookUp_cases ⟨rest,some search,locals,before,found⟩ view search with ⟨_,_,goes⟩ | ends | ⟨ended,fails⟩
    · rw [goes] at error reports
      exact ⟨reports,.inl error⟩
    · rw [ends] at error reports
      exact ⟨reports,.inl error⟩
    · rw [fails] at reports
      exact ⟨reports,.inr ⟨search,rfl,ended⟩⟩
  | none =>
    cases rest with
    | nil => cases reports
    | cons action rest =>
      cases action with
      | point | load | address | check => exact ⟨reports,.inl error⟩
      | report =>
        -- the report clears the error that it tells
        cases before <;> cases error

/-- A search after a step has gone on, or it is that of a pointer that was read. -/
theorem step_search {search : Search} (searches : (c.step offset view).search = some search)
    (reports : reporter (c.step offset view).rest = some function) : reporter c.rest = some function ∧
      ((∃ before, c.search = some before ∧ before.Passes search view) ∨
        c.Reads offset view search.pointer ∧ search.pointer ≠ 0 ∧ search.slot = 0) := by
  obtain ⟨rest,before,locals,error,found⟩ := c
  cases before with
  | some before =>
    simp only [Checking.step] at searches reports
    rcases lookUp_cases ⟨rest,some before,locals,error,found⟩ view before with ⟨_,passes,goes⟩ | ends | ⟨_,fails⟩
    · rw [goes] at searches reports
      obtain rfl := Option.some.inj searches
      exact ⟨reports,.inl ⟨before,rfl,passes⟩⟩
    · rw [ends] at searches
      cases searches
    · rw [fails] at searches
      cases searches
  | none =>
    cases rest with
    | nil => cases searches
    | cons action rest =>
      cases action with
      | point | load | address => cases searches
      | report => cases error <;> cases searches
      | check table member =>
        simp only [Checking.step,hbIsAddrInRoAreaStart] at searches
        split at searches
        · cases searches
        · rename_i nonnull
          obtain rfl := Option.some.inj searches
          exact ⟨reports,.inr ⟨⟨rfl,table,member,rest,rfl,rfl⟩,nonnull,rfl⟩⟩

end Origin

/-- The error and the search of a check come from pointers that were read. -/
structure Accounted (env : WatchEnv) (start : WatchState n) (events : List (WatchEvent n)) (core : Fin n) (c : Checking) :
    Prop where
  error : ∀ function, c.error = true → reporter c.rest = some function →
    ∃ pointer, Looked env start events core function pointer fun _ => True
  search : ∀ function search, c.search = some search → reporter c.rest = some function →
    Looked env start events core function search.pointer (· < search.slot)

section Provenance
variable {start : WatchState n} {events : List (WatchEvent n)}

theorem accounted_start (actions : List CheckAction) : Accounted env start events core (.start actions) := ⟨nofun,nofun⟩

/-- The event leaves the check of the core as it is. -/
theorem Accounted.beside (accounted : Accounted env start events core ((run (WatchState.step env) start events).checking core))
    (event : WatchEvent n) :
    Accounted env start (events ++ [event]) core ((run (WatchState.step env) start events).checking core) := by
  constructor
  · intro function error reports
    obtain ⟨pointer,looked⟩ := accounted.error function error reports
    exact ⟨pointer,looked.extend event reports fun _ here => .inl here⟩
  · intro function search searches reports
    exact (accounted.search function search searches reports).extend event reports fun _ here => .inl here

theorem Accounted.goes (accounted : Accounted env start events core ((run (WatchState.step env) start events).checking core))
    (inside : ((run (WatchState.step env) start events).stage core).Checks) (free : Bool) :
    Accounted env start (events ++ [.step core free]) core
      (((run (WatchState.step env) start events).checking core).step env.offset
        (run (WatchState.step env) start events).view) := by
  constructor
  · intro function error reports
    obtain ⟨still,old | ⟨search,searches,ended⟩⟩ := step_error error reports
    · obtain ⟨pointer,looked⟩ := accounted.error function old still
      exact ⟨pointer,looked.extend _ still fun _ here => .inl here⟩
    · refine ⟨search.pointer,(accounted.search function search searches still).extend _ still fun slot _ => ?_⟩
      by_cases small : slot < search.slot
      · exact .inl small
      · -- behind the end of the table there is no area
        have none := List.getElem?_eq_none ((List.getElem?_eq_none_iff.mp ended).trans (Nat.le_of_not_lt small))
        exact .inr fun area here => absurd (none.symm.trans here) nofun
  · intro function search searches reports
    obtain ⟨still,⟨before,found,same,passes⟩ | ⟨reads,nonnull,first⟩⟩ := step_search searches reports
    · rw [same]
      exact (accounted.search function before found still).extend _ still passes
    · exact ⟨events,free,[],rfl,nonnull,inside,reads,⟨still,trivial⟩,fun slot small => absurd (first ▸ small) (Nat.not_lt_zero _)⟩

theorem run_accounted (start : WatchState n) (clear : ∀ core, start.checking core = .start []) (events : List (WatchEvent n))
    (core : Fin n) : Accounted env start events core ((run (WatchState.step env) start events).checking core) := by
  induction events using List.reverseRecOn with
  | nil =>
    rw [run_nil,clear core]
    exact accounted_start []
  | append_singleton events event ih =>
    have moves := step_moves env (run (WatchState.step env) start events) event
    have beside := ih.beside event
    rw [run_append,run_cons,run_nil]
    generalize (run (WatchState.step env) start events).step env event = s' at moves
    cases moves with
    | rests checking _ _ _ _ =>
      rw [checking]
      exact beside
    | @begins other =>
      simp only [WatchState.begin,Function.update_apply]
      split
      · exact accounted_start _
      · exact beside
    | @ends other =>
      simp only [WatchState.begin,Function.update_apply]
      split
      · exact accounted_start _
      · exact beside
    | @goes other free inside =>
      simp only [WatchState.checkOn,Function.update_apply]
      split
      · rename_i same
        subst same
        exact ih.goes inside free
      · exact beside

/-- Each message names a function in which its core has read a pointer that was in no area. -/
def Truthful (env : WatchEnv) (start : WatchState n) (before : List (WatchEvent n)) (event : WatchEvent n) : Prop :=
  (run (WatchState.step env) start (before ++ [event])).alarms = (run (WatchState.step env) start before).alarms ∨
    ∃ core function pointer, Looked env start before core function pointer (fun _ => True) ∧
      (run (WatchState.step env) start (before ++ [event])).alarms =
        (run (WatchState.step env) start before).alarms ++ [⟨core,function⟩]

theorem message_error {c : Checking} {function : String} (message : c.message = some function) :
    c.error = true ∧ reporter c.rest = some function := by
  unfold Checking.message at message
  split at message
  next _ here =>
    split at message
    next error => exact ⟨error,by rw [here]; exact message⟩
    next => cases message
  next => cases message

theorem run_truthful (start : WatchState n) (clear : ∀ core, start.checking core = .start [])
    (before : List (WatchEvent n)) (event : WatchEvent n) : Truthful env start before event := by
  rw [Truthful,run_append,run_cons,run_nil]
  have moves := step_moves env (run (WatchState.step env) start before) event
  generalize (run (WatchState.step env) start before).step env event = s' at moves ⊢
  cases moves with
  | rests _ alarms _ _ _ => exact .inl alarms
  | begins => exact .inl rfl
  | ends => exact .inl rfl
  | @goes core free inside =>
    cases told : ((run (WatchState.step env) start before).checking core).message with
    | none => exact .inl (by simp [WatchState.checkOn,told])
    | some function =>
      obtain ⟨error,reports⟩ := message_error told
      obtain ⟨pointer,looked⟩ := (run_accounted start clear before core).error function error reports
      exact .inr ⟨core,function,pointer,looked,by simp [WatchState.checkOn,told]⟩

end Provenance

/-- A core that has passed the timer has the check of the file system before it, is in one that finds the
attack, or the check is not needed. -/
def VfsDue (env : WatchEnv) (W : View → Prop) (core : Fin n) (s : WatchState n) : Prop :=
  s.stage core = .vfs ∨ (s.stage core = .vfsCheck ∧ Finds env.offset W (s.checking core)) ∨ s.vfsDetected = true

def NetDue (env : WatchEnv) (W : View → Prop) (core : Fin n) (s : WatchState n) : Prop :=
  s.stage core = .vfs ∨ s.stage core = .vfsCheck ∨ s.stage core = .net ∨
    (s.stage core = .netCheck ∧ Finds env.offset W (s.checking core)) ∨ s.netDetected = true

variable (env) in
/-- A core moves no other core. -/
theorem advance_other (s : WatchState n) {core other : Fin n} (free : Bool) (apart : other ≠ core) :
    (s.advance env core free).stage other = s.stage other ∧ (s.advance env core free).checking other = s.checking other := by
  unfold WatchState.advance
  cases here : s.stage core with
  | idle => exact ⟨rfl,rfl⟩
  | store | unlock => exact ⟨Function.update_of_ne apart ..,rfl⟩
  | tryLock | read | tasks =>
    dsimp only
    split <;> exact ⟨Function.update_of_ne apart ..,rfl⟩
  | vfs | net =>
    dsimp only
    split
    · exact ⟨Function.update_of_ne apart ..,rfl⟩
    · exact ⟨Function.update_of_ne apart ..,Function.update_of_ne apart ..⟩
  | vfsCheck | netCheck =>
    dsimp only
    split
    · exact ⟨Function.update_of_ne apart ..,Function.update_of_ne apart ..⟩
    · exact ⟨rfl,Function.update_of_ne apart ..⟩

variable (env) in
/-- A core that is in the callback moves by its own steps only. -/
theorem moves_itself (event : WatchEvent n) (outside : s.stage core ≠ .idle) : (∃ free, event = .step core free) ∨
    (s.step env event).stage core = s.stage core ∧ (s.step env event).checking core = s.checking core := by
  cases event with
  | enter other valid =>
    refine .inr ?_
    rw [WatchState.step]
    split
    · rename_i enters
      have apart : core ≠ other := by
        rintro rfl
        exact outside enters.1
      exact ⟨Function.update_of_ne apart ..,rfl⟩
    · exact ⟨rfl,rfl⟩
  | tick | change => exact .inr ⟨rfl,rfl⟩
  | step other free =>
    by_cases own : core = other
    · exact .inl ⟨free,by rw [own]⟩
    · exact .inr (advance_other env s free own)

variable {W : View → Prop}

theorem VfsDue.step (starts : Finds env.offset W (.start (hbCheckVfsObject env))) (due : VfsDue env W core s)
    (event : WatchEvent n) (holds : W s.view) : VfsDue env W core (s.step env event) := by
  rcases due with tests | ⟨checks,finds⟩ | detected
  · rcases moves_itself env event (by rw [tests]; simp) with ⟨free,rfl⟩ | ⟨stage,_⟩
    · rw [WatchState.step,WatchState.advance,tests]
      dsimp only
      split
      next detected => exact .inr (.inr detected)
      next => exact .inr (.inl ⟨Function.update_self ..,by simpa [WatchState.begin] using starts⟩)
    · exact .inl (stage.trans tests)
  · rcases moves_itself env event (by rw [checks]; simp) with ⟨free,rfl⟩ | ⟨stage,checking⟩
    · rw [WatchState.step,WatchState.advance,checks]
      dsimp only
      split
      next ended =>
        have found := finds.done ended
        exact .inr (.inr (by simp [found]))
      next => exact .inr (.inl ⟨checks,by simpa [WatchState.checkOn] using finds.step holds⟩)
    · exact .inr (.inl ⟨stage.trans checks,checking ▸ finds⟩)
  · exact .inr (.inr ((step_moves env s event).flags.1 detected))

theorem NetDue.step (starts : Finds env.offset W (.start (hbCheckNetObject env))) (due : NetDue env W core s)
    (event : WatchEvent n) (holds : W s.view) : NetDue env W core (s.step env event) := by
  rcases due with tests | checks | tests | ⟨checks,finds⟩ | detected
  · rcases moves_itself env event (by rw [tests]; simp) with ⟨free,rfl⟩ | ⟨stage,_⟩
    · rw [WatchState.step,WatchState.advance,tests]
      dsimp only
      split
      · exact .inr (.inr (.inl (Function.update_self ..)))
      · exact .inr (.inl (Function.update_self ..))
    · exact .inl (stage.trans tests)
  · rcases moves_itself env event (by rw [checks]; simp) with ⟨free,rfl⟩ | ⟨stage,_⟩
    · rw [WatchState.step,WatchState.advance,checks]
      dsimp only
      split
      · exact .inr (.inr (.inl (Function.update_self ..)))
      · exact .inr (.inl checks)
    · exact .inr (.inl (stage.trans checks))
  · rcases moves_itself env event (by rw [tests]; simp) with ⟨free,rfl⟩ | ⟨stage,_⟩
    · rw [WatchState.step,WatchState.advance,tests]
      dsimp only
      split
      next detected => exact .inr (.inr (.inr (.inr detected)))
      next => exact .inr (.inr (.inr (.inl ⟨Function.update_self ..,by simpa [WatchState.begin] using starts⟩)))
    · exact .inr (.inr (.inl (stage.trans tests)))
  · rcases moves_itself env event (by rw [checks]; simp) with ⟨free,rfl⟩ | ⟨stage,checking⟩
    · rw [WatchState.step,WatchState.advance,checks]
      dsimp only
      split
      next ended =>
        have found := finds.done ended
        exact .inr (.inr (.inr (.inr (by simp [found]))))
      next => exact .inr (.inr (.inr (.inl ⟨checks,by simpa [WatchState.checkOn] using finds.step holds⟩)))
    · exact .inr (.inr (.inr (.inl ⟨stage.trans checks,checking ▸ finds⟩)))
  · exact .inr (.inr (.inr (.inr ((step_moves env s event).flags.2 detected))))

/-- From a pass of the timer on, a watched pointer stays outside the read-only areas. -/
def Attacked (env : WatchEnv) (start : WatchState n) (way : Way) (before after : List (WatchEvent n)) : Prop :=
  Along (WatchState.step env) (fun s _ => Persists (run (WatchState.step env) start before).view way s.view)
    (run (WatchState.step env) start before) after

/-- What the watch on the pointers does in a run. -/
structure PointersWatched (env : WatchEnv) (start : WatchState n) (events : List (WatchEvent n)) : Prop where
  spaced : (run (WatchState.step env) start events).passes.Pairwise env.Apart
  told : Told (run (WatchState.step env) start events)
  truthful : ∀ before event after, events = before ++ event::after → Truthful env start before event
  vfs : ∀ way ∈ vfsWays env, ∀ before after core, events = before ++ after →
    (run (WatchState.step env) start before).stage core = .vfs → Attacked env start way before after →
    (run (WatchState.step env) start events).stage core = .idle → (run (WatchState.step env) start events).vfsDetected = true
  net : ∀ way ∈ netWays env, ∀ before after core, events = before ++ after →
    (run (WatchState.step env) start before).stage core = .vfs → Attacked env start way before after →
    (run (WatchState.step env) start events).stage core = .idle → (run (WatchState.step env) start events).netDetected = true

/-- Whatever the cores, the clock and the guest do, also in the middle of a check: two checks of the
pointers are an interval apart, there are messages if and only if a check has found an attack, each
message comes after its core has read a pointer in the function that it names which is in no area that
has stayed since, and an attack that lasts, together with the way to the pointer and the areas, from a
core's pass of the timer to the end of its callback is detected. -/
theorem pointers_watched (env : WatchEnv) (now : Nat) (view : View) (events : List (WatchEvent n)) :
    PointersWatched env (watchStart now view) events := by
  refine ⟨?_,?_,?_,?_,?_⟩
  · have timed := run_invariant (Timed env) (fun _ event timed => timed.step event) (timed_start (n := n) now view) events
    exact timed.spaced
  · have start : Told (watchStart now view : WatchState n) := by
      refine ⟨?_,?_⟩ <;> simp [watchStart,Checking.start]
    exact run_invariant Told (fun s event told => told.moves (step_moves env s event)) start events
  · intro before event after _
    exact run_truthful _ (fun _ => rfl) before event
  · intro way listed before after core split tests attacked idle
    rw [split,run_append] at idle ⊢
    have due := attacked.reaches (VfsDue env _ core) (fun s event due here => due.step (vfsObject_finds listed) event here)
      (.inl tests)
    simpa [VfsDue,idle] using due
  · intro way listed before after core split tests attacked idle
    rw [split,run_append] at idle ⊢
    have due := attacked.reaches (NetDue env _ core) (fun s event due here => due.step (netObject_finds listed) event here)
      (.inl tests)
    simpa [NetDue,idle] using due

end Detection
end HyperBox.Monitor
