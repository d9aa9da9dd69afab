import HyperBox.Monitor.Condemned

/-! Processes that may not spawn others. The mark of a new process is taken from the name
that its creator, or the creator's group leader, has at that time, and not from the
creator's own mark; so the mark is inherited as long as the name is kept. -/
namespace HyperBox.Monitor
open HyperBox.Library

/-- The monitor, the tasks that descend from a traced task, and the processes among them. -/
structure Lineage where
  monitor : MonitorState
  descended : List Nat
  spawned : List Nat

section Lineage
variable (rb : Balancing Nat)

def traced (m : TaskManager) (task : Nat) : Bool :=
  match hbSearchTree m task with
  | none => false
  | some n => (m.pool n).needTrace

/-- `current` is traced or descends from a traced task, and is not caught creating tasks in
another syscall than `fork`, `vfork` and `clone`. -/
def spawns (l : Lineage) (current : Nat) : Bool :=
  (l.descended.contains current || traced l.monitor.manager current) &&
    match hbSearchTree l.monitor.manager current with
    | none => true
    | some n => createsTasks (l.monitor.manager.pool n).syscallNumber

def lineageStep (l : Lineage) (event : MonitorEvent) : Lineage :=
  let monitor := monitorStep rb l.monitor event
  match event with
  | .add current task =>
    if spawns l current then
      let process := (l.monitor.kernel task).pid = (l.monitor.kernel task).tgid
      ⟨monitor,task::l.descended,if process then task::l.spawned else l.spawned⟩
    else ⟨monitor,l.descended,l.spawned⟩
  | .del task => ⟨monitor,l.descended.filter (· ≠ task),l.spawned.filter (· ≠ task)⟩
  | _ => ⟨monitor,l.descended,l.spawned⟩

def lineageStart (size : Nat) (kernel : Nat → TaskStruct) : Lineage := ⟨monitorStart size kernel,[],[]⟩

/-- After an `execve` the next check of `task` fails and marks its whole group. -/
def Caught (s : MonitorState) (task n : Nat) : Prop :=
  (s.manager.pool n).syscallNumber = Nr.execve ∨ (s.manager.pool n).syscallNumber = Nr.execveat →
    ∀ syscallNumber, (hbCallbackCheckCredUpdateSyscall s task syscallNumber).2 = -1 ∧
      ∀ k ∈ (hbCallbackCheckCredUpdateSyscall s task syscallNumber).1.manager.existing.toList,
        ((hbCallbackCheckCredUpdateSyscall s task syscallNumber).1.manager.pool k).tgid =
          (s.manager.pool n).tgid →
        ((hbCallbackCheckCredUpdateSyscall s task syscallNumber).1.manager.pool k).needExit = true

/-- Every process that descends from a traced task is traced itself. -/
def Confined (l : Lineage) : Prop :=
  ∀ task ∈ l.spawned, ∃ n, hbSearchTree l.monitor.manager task = some n ∧
    (l.monitor.manager.pool n).needTrace = true ∧ Caught l.monitor task n

/-- A process that descends from a traced task is created under a spawning-disabled name, by
a tracked creator, and finds a node. -/
def Recognised (l : Lineage) (event : MonitorEvent) : Prop :=
  ∀ current task, event = .add current task → spawns l current = true →
    (l.monitor.kernel task).pid = (l.monitor.kernel task).tgid →
    hbSearchTree l.monitor.manager task = none ∧ l.monitor.manager.freeNodes ≠ [] ∧
      (hbSearchTree l.monitor.manager current).isSome ∧
      spawningDisabled (creatorComm l.monitor.kernel current) = true

theorem checkProcess_traced {m : TaskManager} {task : TaskStruct} {n : Nat}
    (trace : (m.pool n).needTrace = true)
    (executed : (m.pool n).syscallNumber = Nr.execve ∨ (m.pool n).syscallNumber = Nr.execveat) :
    (checkProcess m task n).2 = -1 := by
  simp [checkProcess,executed,trace]

theorem checkCred_refused {m : TaskManager} {task : TaskStruct} {n : Nat} : (checkCred m task n (-1)).2 = -1 := by
  unfold checkCred
  dsimp only
  split_ifs <;> rfl

theorem traced_caught {s : MonitorState} {task n : Nat} (found : hbSearchTree s.manager task = some n)
    (trace : (s.manager.pool n).needTrace = true) : Caught s task n := by
  intro executed syscallNumber
  have failed := @checkProcess_traced _ (s.kernel task) _ trace executed
  constructor
  · rw [syscall_eq syscallNumber found,failed]
    exact checkCred_refused
  · have nobody : Flagged [] s.manager := fun _ _ member => by cases member
    have flagged := syscall_flagged (Balancing.plain Nat) task syscallNumber nobody
    intro k member mine
    apply flagged k member
    rw [mine]
    simp [condemnedBy,found,failed]

def Traced (m : TaskManager) (task : Nat) : Prop :=
  ∃ n, hbSearchTree m task = some n ∧ (m.pool n).needTrace = true

theorem InPlace.traced {m after : TaskManager} (inPlace : InPlace m after) {task : Nat} (trace : Traced m task) :
    Traced after task := by
  obtain ⟨n,found,mark⟩ := trace
  exact ⟨n,(inPlace.search task).trans found,inPlace.needTrace n mark⟩

theorem add_traced {m : TaskManager} {task : Nat} (info : TaskStruct) {other : Nat} (sound : Sound m)
    (trace : Traced m other) : Traced (hbAddTaskToTaskManager rb m task info).1 other := by
  obtain ⟨n,found,mark⟩ := trace
  obtain ⟨kept,node⟩ := add_search rb info sound found
  exact ⟨n,kept,by rw [node,mark]⟩

theorem del_traced {m : TaskManager} {task other : Nat} (sound : Sound m) (apart : other ≠ task)
    (trace : Traced m other) : Traced (hbDelTaskFromTaskManager rb m task).1 other := by
  obtain ⟨n,found,mark⟩ := trace
  refine ⟨n,del_search rb sound found apart,?_⟩
  rw [(del_members rb m task).1]
  exact mark

theorem monitorStep_traced {s : MonitorState} {event : MonitorEvent} {task : Nat} (sound : Sound s.manager)
    (alive : event ≠ .del task) (trace : Traced s.manager task) :
    Traced (monitorStep rb s event).manager task := by
  cases event with
  | copy other => exact add_traced rb _ sound trace
  | add current other => exact (addTask_inPlace rb s current other).traced (add_traced rb _ sound trace)
  | del other =>
    apply del_traced rb sound _ trace
    rintro rfl
    exact alive rfl
  | syscall other syscallNumber => exact (syscall_inPlace s other syscallNumber).traced trace
  | commit other new => exact (commit_inPlace s other new).traced trace
  | guest kernel => exact trace

theorem addTask_traced {s : MonitorState} {current task n : Nat} (sound : Sound s.manager)
    (absent : hbSearchTree s.manager task = none) (free : s.manager.freeNodes ≠ [])
    (creator : hbSearchTree s.manager current = some n)
    (creates : createsTasks (s.manager.pool n).syscallNumber = true)
    (process : (s.kernel task).pid = (s.kernel task).tgid)
    (disabled : spawningDisabled (creatorComm s.kernel current) = true) :
    Traced (hbCallbackAddTask rb s current task).manager task := by
  rcases add_cases rb (s.kernel task) sound with ⟨none,_⟩ | ⟨added,after,fresh,same,pool,kept,linked⟩
  · exact absurd none free
  obtain ⟨found,node⟩ := @add_search rb _ task (s.kernel task) _ _ sound creator
  rw [same] at found node
  have new : hbSearchTree after task = some added := by
    rcases linked with ⟨present,_⟩ | ⟨_,perm⟩
    · exact absurd absent present
    · refine kept.search_iff.mpr ⟨perm.mem_iff.mpr List.mem_cons_self,?_⟩
      rw [pool,TaskManager.setNode_pool_self]
      rfl
  refine ⟨added,?_,?_⟩
  · have inPlace := addTask_inPlace rb s current task
    rw [inPlace.search,same]
    exact new
  · dsimp only at found node
    simp only [hbCallbackAddTask,same,found,node,creates]
    simp [process,disabled]

structure LineageInv (l : Lineage) : Prop where
  sound : Sound l.monitor.manager
  traced : ∀ task ∈ l.spawned, Traced l.monitor.manager task

theorem lineageStep_monitor (l : Lineage) (event : MonitorEvent) :
    (lineageStep rb l event).monitor = monitorStep rb l.monitor event := by
  unfold lineageStep
  cases event with
  | add current task =>
    dsimp only
    split <;> rfl
  | _ => rfl

theorem lineageStep_inv (l : Lineage) (event : MonitorEvent) (inv : LineageInv l)
    (recognised : Recognised l event) : LineageInv (lineageStep rb l event) := by
  refine ⟨?_,?_⟩
  · rw [lineageStep_monitor]
    exact monitorStep_sound rb event inv.sound
  · intro task member
    rw [lineageStep_monitor]
    cases event with
    | add current created =>
      have before : task ∈ l.spawned → Traced (monitorStep rb l.monitor (.add current created)).manager task :=
        fun old => monitorStep_traced rb inv.sound (by simp) (inv.traced task old)
      simp only [lineageStep] at member
      split at member
      case isFalse => exact before member
      case isTrue spawning =>
        dsimp only at member
        split at member
        case isFalse => exact before member
        case isTrue process =>
          rcases List.mem_cons.mp member with rfl | old
          · obtain ⟨absent,free,tracked,disabled⟩ := recognised current task rfl spawning process
            obtain ⟨n,creator⟩ := Option.isSome_iff_exists.mp tracked
            have creates : createsTasks (l.monitor.manager.pool n).syscallNumber = true := by
              rw [spawns,creator,Bool.and_eq_true] at spawning
              exact spawning.2
            exact addTask_traced rb inv.sound absent free creator creates process disabled
          · exact before old
    | del gone =>
      obtain ⟨old,apart⟩ := List.mem_filter.mp member
      apply monitorStep_traced rb inv.sound _ (inv.traced task old)
      rintro ⟨⟩
      simp at apart
    | copy _ | syscall _ _ | commit _ _ | guest _ =>
      exact monitorStep_traced rb inv.sound (by simp) (inv.traced task member)

/-- In every run in which processes that descend from a traced task are created under a
spawning-disabled name, all of them are traced and caught after an `execve`. -/
theorem spawned_processes_confined (size : Nat) (kernel : Nat → TaskStruct) (events : List MonitorEvent)
    (recognised : Along (lineageStep rb) Recognised (lineageStart size kernel) events) :
    Confined (run (lineageStep rb) (lineageStart size kernel) events) := by
  have start : LineageInv (lineageStart size kernel) := by
    refine ⟨monitorStart_sound size kernel,?_⟩
    intro task member
    cases member
  have inv := recognised.reaches LineageInv (lineageStep_inv rb) start
  intro task member
  obtain ⟨n,found,trace⟩ := inv.traced task member
  exact ⟨n,found,trace,traced_caught found trace⟩

def qemu : List Char := ['q','e','m','u','-','s','y','s','t','e','m','-','x','8','6']

def sampleProcesses (comm : Nat → List Char) (task : Nat) : TaskStruct :=
  ⟨task,task,comm task,userIds,0,task,0,[]⟩

theorem spawned_processes_confined_qemu :
    Confined (run (lineageStep (Balancing.plain Nat)) (lineageStart 4 (sampleProcesses fun _ => qemu))
      [.copy 1,.syscall 1 Nr.fork,.add 1 2,.add 1 3]) := by
  apply spawned_processes_confined
  refine ⟨?_,?_,?_,?_,trivial⟩
  · intro current task equal
    cases equal
  · intro current task equal
    cases equal
  · intro current task equal spawning
    cases equal
    exact absurd spawning (by decide)
  · intro current task equal spawning process
    cases equal
    exact ⟨by decide,by decide,by decide,by decide⟩

/-- A traced qemu process renames itself before it forks again: the new process is not
traced. -/
theorem renamed_process_escapes :
    ¬ Confined (run (lineageStep (Balancing.plain Nat))
      (lineageStart taskNodeMax (sampleProcesses fun _ => qemu))
      [.copy 1,.syscall 1 Nr.fork,.add 1 2,.guest (sampleProcesses fun _ => ['s','h']),.add 1 3]) := by
  intro confined
  obtain ⟨n,found,trace,_⟩ := confined 3 (by decide)
  have node : hbSearchTree (run (lineageStep (Balancing.plain Nat))
      (lineageStart taskNodeMax (sampleProcesses fun _ => qemu))
      [.copy 1,.syscall 1 Nr.fork,.add 1 2,.guest (sampleProcesses fun _ => ['s','h']),.add 1 3]).monitor.manager 3 =
      some 4194301 := rfl
  rw [node] at found
  cases found
  exact absurd trace (by decide)

end Lineage

end HyperBox.Monitor
