import HyperBox.Library.Run
import Mathlib.Data.List.Induction
import Mathlib.Logic.Function.Basic

/-! Where the messages of `hb_printf` go. A flag for each core says whether it is in VMX root mode:
then a message goes to a buffer under a lock, and otherwise to the kernel. The callback of a VM
exit sets the flag and clears it in the end, and so does the handler of an interrupt or exception,
which may hit the callback or another handler. The handlers of a core share one stack, so one that
comes to its end goes back to where the last of them has hit. -/
namespace HyperBox.Host
open HyperBox.Library

/-- How far the callback of a core is. It has set the flag, found it set, or holds the lock. -/
inductive CallbackStage where
  | guest
  | exited
  | running
  | checked
  | locked
  | leaving
deriving DecidableEq

/-- `hb_int_callback` and its siblings set the flag, print one message and clear the flag. -/
inductive HandlerStage where
  | none
  | entered
  | running
  | checked
  | locked
  | printed
  | cleared
deriving DecidableEq

inductive Sink where
  | kernel
  | buffer
deriving DecidableEq

/-- `context` is what the last interrupt has hit: a handler, or with `none` the callback. The history
of a core is whether it has gone back from a handler since its exit set the flag, and whether it has
since its handler did. -/
structure LogState (n : Nat) where
  vmxRootMode : Fin n → Bool
  callback : Fin n → CallbackStage
  handler : Fin n → HandlerStage
  context : Fin n → HandlerStage
  lock : Option (Fin n)
  returned : Fin n → Bool
  resumed : Fin n → Bool
  messages : List (Fin n × Sink)

inductive LogEvent (n : Nat) where
  | vmExit (core : Fin n)
  | print (core : Fin n)
  | finish (core : Fin n)
  | interrupt (core : Fin n)
  | go (core : Fin n)

section Steps
variable {n : Nat}

namespace LogState
variable (s : LogState n) (core : Fin n)

def setMode (mode : Bool) : LogState n := { s with vmxRootMode := Function.update s.vmxRootMode core mode }
def setCallback (stage : CallbackStage) : LogState n := { s with callback := Function.update s.callback core stage }
def setHandler (stage : HandlerStage) : LogState n := { s with handler := Function.update s.handler core stage }
def setContext (stage : HandlerStage) : LogState n := { s with context := Function.update s.context core stage }
def setReturned (returned : Bool) : LogState n := { s with returned := Function.update s.returned core returned }
def setResumed (resumed : Bool) : LogState n := { s with resumed := Function.update s.resumed core resumed }
def setLock (owner : Option (Fin n)) : LogState n := { s with lock := owner }
def say (sink : Sink) : LogState n := { s with messages := s.messages ++ [(core,sink)] }

def vmExit : LogState n := if s.callback core = .guest then s.setCallback core .exited else s

/-- Also code of the guest that is part of Hyper-box prints; it never finds the flag set. -/
def print : LogState n :=
  if s.handler core ≠ .none then s else
    match s.callback core with
    | .guest => if s.vmxRootMode core then s else s.say core .kernel
    | .running => if s.vmxRootMode core then s.setCallback core .checked else s.say core .kernel
    | _ => s

def finish : LogState n :=
  if s.handler core = .none ∧ s.callback core = .running then (s.setCallback core .leaving).setMode core false else s

/-- Interrupts of the guest are its own. -/
def interrupt : LogState n :=
  if s.callback core = .guest then s else (s.setContext core (s.handler core)).setHandler core .entered

/-- The core goes on with what it is in the middle of; it spins if the lock is taken. -/
def go : LogState n :=
  match s.handler core with
  | .none =>
    match s.callback core with
    | .exited => ((s.setCallback core .running).setMode core true).setReturned core false
    | .checked => if s.lock = none then (s.setLock (some core)).setCallback core .locked else s
    | .locked => ((s.say core .buffer).setLock none).setCallback core .running
    | .leaving => s.setCallback core .guest
    | _ => s
  | .entered => ((s.setHandler core .running).setMode core true).setResumed core false
  | .running => if s.vmxRootMode core then s.setHandler core .checked else (s.say core .kernel).setHandler core .printed
  | .checked => if s.lock = none then (s.setLock (some core)).setHandler core .locked else s
  | .locked => ((s.say core .buffer).setLock none).setHandler core .printed
  | .printed => (s.setHandler core .cleared).setMode core false
  | .cleared => ((s.setHandler core (s.context core)).setReturned core true).setResumed core true

def step : LogEvent n → LogState n
  | .vmExit core => s.vmExit core
  | .print core => s.print core
  | .finish core => s.finish core
  | .interrupt core => s.interrupt core
  | .go core => s.go core

def start : LogState n :=
  ⟨fun _ => false,fun _ => .guest,fun _ => .none,fun _ => .none,none,fun _ => false,fun _ => false,[]⟩

end LogState

/-- What a step of a core can be, with what it needs. -/
inductive Changes (s : LogState n) : LogEvent n → LogState n → Prop where
  | nothing {event : LogEvent n} : (∀ core, event = .interrupt core → s.callback core = .guest) → Changes s event s
  | exits {core : Fin n} : s.callback core = .guest → Changes s (.vmExit core) (s.setCallback core .exited)
  | prints {core : Fin n} : s.handler core = .none → s.vmxRootMode core = false → Changes s (.print core) (s.say core .kernel)
  | checks {core : Fin n} : s.handler core = .none → s.callback core = .running → s.vmxRootMode core = true →
      Changes s (.print core) (s.setCallback core .checked)
  | finishes {core : Fin n} : s.handler core = .none → s.callback core = .running →
      Changes s (.finish core) ((s.setCallback core .leaving).setMode core false)
  | interrupts {core : Fin n} : s.callback core ≠ .guest →
      Changes s (.interrupt core) ((s.setContext core (s.handler core)).setHandler core .entered)
  | runs {core : Fin n} : s.handler core = .none → s.callback core = .exited →
      Changes s (.go core) (((s.setCallback core .running).setMode core true).setReturned core false)
  | locks {core : Fin n} : s.handler core = .none → s.callback core = .checked → s.lock = none →
      Changes s (.go core) ((s.setLock (some core)).setCallback core .locked)
  | unlocks {core : Fin n} : s.handler core = .none → s.callback core = .locked →
      Changes s (.go core) (((s.say core .buffer).setLock none).setCallback core .running)
  | resumes {core : Fin n} : s.handler core = .none → s.callback core = .leaving →
      Changes s (.go core) (s.setCallback core .guest)
  | handlerRuns {core : Fin n} : s.handler core = .entered →
      Changes s (.go core) (((s.setHandler core .running).setMode core true).setResumed core false)
  | handlerChecks {core : Fin n} : s.handler core = .running → s.vmxRootMode core = true →
      Changes s (.go core) (s.setHandler core .checked)
  | handlerSays {core : Fin n} : s.handler core = .running → s.vmxRootMode core = false →
      Changes s (.go core) ((s.say core .kernel).setHandler core .printed)
  | handlerLocks {core : Fin n} : s.handler core = .checked → s.lock = none →
      Changes s (.go core) ((s.setLock (some core)).setHandler core .locked)
  | handlerUnlocks {core : Fin n} : s.handler core = .locked →
      Changes s (.go core) (((s.say core .buffer).setLock none).setHandler core .printed)
  | handlerClears {core : Fin n} : s.handler core = .printed →
      Changes s (.go core) ((s.setHandler core .cleared).setMode core false)
  | handlerLeaves {core : Fin n} : s.handler core = .cleared →
      Changes s (.go core) (((s.setHandler core (s.context core)).setReturned core true).setResumed core true)

theorem step_changes (s : LogState n) (event : LogEvent n) : Changes s event (s.step event) := by
  cases event with
  | vmExit core =>
    simp only [LogState.step,LogState.vmExit]
    split
    next guest => exact .exits guest
    next => exact .nothing nofun
  | print core =>
    simp only [LogState.step,LogState.print]
    split
    next => exact .nothing nofun
    next idle =>
      rw [not_not] at idle
      split
      next =>
        cases mode : s.vmxRootMode core with
        | true => exact .nothing nofun
        | false => exact .prints idle mode
      next running =>
        cases mode : s.vmxRootMode core with
        | true => exact .checks idle running mode
        | false => exact .prints idle mode
      next => exact .nothing nofun
  | finish core =>
    simp only [LogState.step,LogState.finish]
    split
    next holds => exact .finishes holds.1 holds.2
    next => exact .nothing nofun
  | interrupt core =>
    simp only [LogState.step,LogState.interrupt]
    split
    next guest =>
      refine .nothing ?_
      rintro _ ⟨⟩
      exact guest
    next inHost => exact .interrupts inHost
  | go core =>
    simp only [LogState.step,LogState.go]
    cases handler : s.handler core with
    | none =>
      dsimp only
      cases callback : s.callback core with
      | exited => exact .runs handler callback
      | checked =>
        dsimp only
        split
        next free => exact .locks handler callback free
        next => exact .nothing nofun
      | locked => exact .unlocks handler callback
      | leaving => exact .resumes handler callback
      | _ => exact .nothing nofun
    | entered => exact .handlerRuns handler
    | running =>
      cases mode : s.vmxRootMode core with
      | true => exact .handlerChecks handler mode
      | false => exact .handlerSays handler mode
    | checked =>
      dsimp only
      split
      next free => exact .handlerLocks handler free
      next => exact .nothing nofun
    | locked => exact .handlerUnlocks handler
    | printed => exact .handlerClears handler
    | cleared => exact .handlerLeaves handler

section Routing

/-- What the flag of a core says at each stage. -/
structure Routed (s : LogState n) : Prop where
  guest : ∀ core, s.callback core = .guest → s.handler core = .none ∧ s.vmxRootMode core = false
  leaving : ∀ core, s.callback core = .leaving → s.handler core = .none → s.vmxRootMode core = false
  callback : ∀ core, s.handler core = .none → s.callback core ∉ [.guest,.exited,.leaving] →
    s.vmxRootMode core = !s.returned core
  running : ∀ core, s.handler core = .running → s.vmxRootMode core = !s.resumed core
  cleared : ∀ core, s.handler core = .cleared → s.vmxRootMode core = false

theorem Routed.start : Routed (.start : LogState n) := by
  constructor <;> simp [LogState.start]

theorem Routed.changes {s s' : LogState n} {event : LogEvent n} (inv : Routed s) (changes : Changes s event s') : Routed s' := by
  obtain ⟨guest,leaving,callback,running,cleared⟩ := inv
  cases changes with
  | nothing => exact ⟨guest,leaving,callback,running,cleared⟩
  | _ =>
    constructor
    all_goals
      intro other
      simp only [LogState.setMode,LogState.setCallback,LogState.setHandler,LogState.setContext,LogState.setReturned,
        LogState.setResumed,LogState.setLock,LogState.say,Function.update_apply]
      grind

/-- Where the next message of a core goes. -/
structure Routes (s : LogState n) (core : Fin n) : Prop where
  guest : s.callback core = .guest → s.step (.print core) = s.say core .kernel
  callback : s.handler core = .none → s.callback core = .running →
    s.step (.print core) = if s.returned core then s.say core .kernel else s.setCallback core .checked
  handler : s.handler core = .running → s.step (.go core) =
    if s.resumed core then (s.say core .kernel).setHandler core .printed else s.setHandler core .checked

/-- In every run the messages of the guest go to the kernel. Those of a callback or a handler go to the
buffer until a handler goes back to it, and from then on to the kernel, in VMX root mode. -/
theorem host_messages_routed (events : List (LogEvent n)) (core : Fin n) :
    Routes (run LogState.step .start events) core := by
  have inv : Routed (run LogState.step (.start : LogState n) events) :=
    run_invariant Routed (fun s event inv => inv.changes (step_changes s event)) .start events
  generalize run LogState.step .start events = s at inv
  refine ⟨?_,?_,?_⟩
  · intro guest
    obtain ⟨idle,mode⟩ := inv.guest core guest
    simp [LogState.step,LogState.print,idle,guest,mode]
  · intro idle running
    have mode : s.vmxRootMode core = !s.returned core := inv.callback core idle (by simp [running])
    cases returned : s.returned core <;> simp [LogState.step,LogState.print,idle,running,mode,returned]
  · intro running
    have mode := inv.running core running
    cases resumed : s.resumed core <;> simp [LogState.step,LogState.go,running,mode,resumed]

end Routing

section Lock

/-- The core is about to write to the buffer. -/
def Holder (s : LogState n) (core : Fin n) : Prop :=
  s.handler core = .locked ∨ s.handler core = .none ∧ s.callback core = .locked

/-- The interrupt does not hit a core that holds the lock. -/
def SparesHolder (s : LogState n) (event : LogEvent n) : Prop := ∀ core, event = .interrupt core → ¬ Holder s core

/-- The core holds the lock below a handler that wants it. -/
def LockedOut (s : LogState n) (core : Fin n) : Prop :=
  s.lock = some core ∧
    (s.handler core = .entered ∨ s.handler core = .running ∧ s.vmxRootMode core = true ∨ s.handler core = .checked)

/-- Who holds the lock, and that nobody gets back to code that was hit with it. -/
structure Owned (s : LogState n) : Prop where
  owner : ∀ core, s.lock = some core ↔ Holder s core ∨ LockedOut s core
  context : ∀ core, s.context core = .locked → LockedOut s core
  callback : ∀ core, s.handler core ≠ .none → s.callback core = .locked → LockedOut s core

theorem Owned.start : Owned (.start : LogState n) := by
  constructor <;> simp [LogState.start,Holder,LockedOut]

theorem Owned.changes {s s' : LogState n} {event : LogEvent n} (inv : Owned s) (changes : Changes s event s') : Owned s' := by
  obtain ⟨owner,context,callback⟩ := inv
  cases changes with
  | nothing => exact ⟨owner,context,callback⟩
  | _ =>
    unfold Holder LockedOut at *
    constructor
    all_goals
      intro other
      simp only [Holder,LockedOut,LogState.setMode,LogState.setCallback,LogState.setHandler,LogState.setContext,
        LogState.setReturned,LogState.setResumed,LogState.setLock,LogState.say,Function.update_apply]
      grind

theorem owned_run (events : List (LogEvent n)) : Owned (run LogState.step (.start : LogState n) events) :=
  run_invariant Owned (fun s event inv => inv.changes (step_changes s event)) .start events

theorem LockedOut.changes {s s' : LogState n} {event : LogEvent n} {core : Fin n} (inv : Owned s) (out : LockedOut s core)
    (changes : Changes s event s') : LockedOut s' core := by
  have owner := inv.owner
  cases changes with
  | nothing => exact out
  | _ =>
    unfold Holder LockedOut at *
    simp only [LogState.setMode,LogState.setCallback,LogState.setHandler,LogState.setContext,LogState.setReturned,
      LogState.setResumed,LogState.setLock,LogState.say,Function.update_apply]
    grind

/-- Only an interrupt that hits the holder of the lock locks a core out. -/
theorem Changes.hit {s s' : LogState n} {event : LogEvent n} (changes : Changes s event s') (inv : Owned s) {core : Fin n}
    (free : ¬ LockedOut s core) (out : LockedOut s' core) : event = .interrupt core ∧ Holder s core := by
  have owner := inv.owner
  cases changes with
  | nothing => exact absurd out free
  | _ =>
    unfold Holder LockedOut at *
    simp only [LogState.setMode,LogState.setCallback,LogState.setHandler,LogState.setContext,LogState.setReturned,
      LogState.setResumed,LogState.setLock,LogState.say,Function.update_apply] at out
    grind

theorem lockedOut_step_iff {s : LogState n} (inv : Owned s) (inHost : ∀ core, s.callback core = .guest → s.handler core = .none)
    (free : ∀ core, ¬ LockedOut s core) (event : LogEvent n) :
    (∃ core, LockedOut (s.step event) core) ↔ ¬ SparesHolder s event := by
  unfold SparesHolder
  push Not
  constructor
  · rintro ⟨core,out⟩
    exact ⟨core,(step_changes s event).hit inv (free core) out⟩
  · rintro ⟨core,rfl,holder⟩
    have owned := (inv.owner core).mpr (.inl holder)
    have inside : s.callback core ≠ .guest := by
      intro guest
      have idle := inHost core guest
      rcases holder with locked | ⟨_,locked⟩
      · simp [idle] at locked
      · simp [guest] at locked
    refine ⟨core,?_,.inl ?_⟩
    · simpa [LogState.step,LogState.interrupt,inside,LogState.setContext,LogState.setHandler] using owned
    · simp [LogState.step,LogState.interrupt,inside,LogState.setContext,LogState.setHandler]

/-- A core that is locked out stays so, and with it the lock is taken forever. -/
theorem lockedOut_stays {s : LogState n} {core : Fin n} (inv : Owned s) (out : LockedOut s core) (events : List (LogEvent n)) :
    LockedOut (run LogState.step s events) core := by
  induction events generalizing s with
  | nil => exact out
  | cons event rest ih => exact ih (inv.changes (step_changes s event)) (out.changes inv (step_changes s event))

theorem lockedOut_run {s : LogState n} (inv : Owned s) (routed : Routed s) (free : ∀ core, ¬ LockedOut s core)
    (events : List (LogEvent n)) :
    Along LogState.step SparesHolder s events ↔ ∀ core, ¬ LockedOut (run LogState.step s events) core := by
  induction events generalizing s with
  | nil => simp [Along,free]
  | cons event rest ih =>
    rw [Along,run_cons]
    have next := lockedOut_step_iff inv (fun core guest => (routed.guest core guest).1) free event
    have changes := step_changes s event
    by_cases spares : SparesHolder s event
    · rw [ih (inv.changes changes) (routed.changes changes) fun core out => next.mp ⟨core,out⟩ spares]
      exact and_iff_right spares
    · obtain ⟨core,out⟩ := next.mpr spares
      have stays := lockedOut_stays (inv.changes changes) out rest
      exact iff_of_false (fun along => spares along.1) (fun never => never core stays)

theorem holder_releases {s : LogState n} (inv : Owned s) (free : ∀ core, ¬ LockedOut s core) :
    ∃ more, (run LogState.step s more).lock = none := by
  cases owned : s.lock with
  | none => exact ⟨[],owned⟩
  | some core =>
    refine ⟨[.go core],?_⟩
    rw [run_cons,run_nil,LogState.step,LogState.go]
    rcases ((inv.owner core).mp owned).resolve_right (free core) with locked | ⟨idle,locked⟩
    · simp [locked,LogState.setHandler,LogState.setLock]
    · simp [idle,locked,LogState.setCallback,LogState.setLock]

/-- The lock of the log can be given back, however the cores have run, exactly if no interrupt has
hit the callback or a handler of a core that held it. One that did locks that core, and every core
that prints, out forever. -/
theorem log_lock_released_iff (events : List (LogEvent n)) :
    Along LogState.step SparesHolder .start events ↔
      ∃ more, (run LogState.step .start (events ++ more)).lock = none := by
  have initial : ∀ core, ¬ LockedOut (.start : LogState n) core := fun core => by simp [LockedOut,LogState.start]
  have inv := owned_run events
  rw [lockedOut_run .start .start initial]
  constructor
  · intro free
    obtain ⟨more,released⟩ := holder_releases inv free
    exact ⟨more,by rw [run_append]; exact released⟩
  · rintro ⟨more,released⟩ core out
    have owned := (lockedOut_stays inv out more).1
    rw [run_append] at released
    rw [released] at owned
    cases owned

end Lock
end Steps
end HyperBox.Host
