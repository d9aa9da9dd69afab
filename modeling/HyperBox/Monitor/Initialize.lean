import HyperBox.Monitor.CheckTasks

/-! The start of the monitor, at boot and again after sleep: the tasks of the kernel's list are
copied into the task manager until its nodes run out. -/
namespace HyperBox.Monitor
open HyperBox.Library

section Code
variable (rb : Balancing Nat) (env : TaskListEnv)

/-- `tasks` is what remains of the kernel's list. -/
def hbCopyTaskListToTaskManager (m : TaskManager) : List Nat → TaskManager
  | [] => m
  | task::tasks =>
    match hbAddTaskToTaskManager rb m task (env.task task) with
    | (m,none) => m
    | (m,some _) => hbCopyTaskListToTaskManager m tasks

def hbInitMonitor (reinit : Bool) (m : TaskManager) : TaskManager :=
  if reinit then hbCopyTaskListToTaskManager rb env (hbResetTaskManager taskNodeMax m) env.iters
  else hbCopyTaskListToTaskManager rb env m env.iters

end Code

section Copy
variable (rb : Balancing Nat) (env : TaskListEnv) {size : Nat} {m : TaskManager} {task : Nat}

/-- The nodes hold what the kernel says of their tasks: no flag is set in them. -/
def AsListed (m : TaskManager) : Prop :=
  ∀ n ∈ m.existing.toList, m.pool n = TaskNode.ofTask (m.key n) (env.task (m.key n))

theorem untracked_iff (ordered : m.existing.Ordered m.key) : hbSearchTree m task = none ↔ task ∉ m.tracked := by
  rw [hbSearchTree,SearchTree.search_eq_none _ _ ordered,TaskManager.tracked,List.mem_map]
  constructor
  · rintro absent ⟨n,member,same⟩
    exact absent n member same
  · intro absent n member same
    exact absent ⟨n,member,same⟩

theorem add_tracked (sound : Sound m) (absent : task ∉ m.tracked) (free : m.freeNodes ≠ []) (fresh : AsListed env m) :
    ∃ n, (hbAddTaskToTaskManager rb m task (env.task task)).2 = some n ∧
      (hbAddTaskToTaskManager rb m task (env.task task)).1.freeNodes = m.freeNodes.tail ∧
      (hbAddTaskToTaskManager rb m task (env.task task)).1.taskCount = m.taskCount + 1 ∧
      (hbAddTaskToTaskManager rb m task (env.task task)).1.tracked.Perm (task::m.tracked) ∧
      AsListed env (hbAddTaskToTaskManager rb m task (env.task task)).1 := by
  obtain ⟨n,rest,linked,nodes,outside,equal,perm,_⟩ :=
    add_regular rb (env.task task) sound ((untracked_iff sound.ordered).mpr absent) free
  have tree : (rb.insertColor linked).toList.Perm (n :: m.existing.toList) := by
    rw [rb.insertColor_toList]
    exact perm
  have own : (m.setNode n (TaskNode.ofTask task (env.task task))).pool n = TaskNode.ofTask task (env.task task) :=
    m.setNode_pool_self n _
  have others : ∀ x ∈ m.existing.toList, (m.setNode n (TaskNode.ofTask task (env.task task))).pool x = m.pool x :=
    fun x member => m.setNode_pool_ne _ (fun same => outside (same ▸ member))
  rw [equal]
  refine ⟨n,rfl,by rw [nodes]; rfl,rfl,?_,?_⟩
  · refine (tree.map _).trans ?_
    rw [List.map_cons]
    refine List.Perm.of_eq (congrArg₂ List.cons ?_ ?_)
    · exact congrArg TaskNode.task own
    · exact List.map_congr_left fun x member => congrArg TaskNode.task (others x member)
  · intro x member
    rw [TaskManager.key]
    rcases List.mem_cons.mp (tree.mem_iff.mp member) with rfl | old
    · simp only [own]
      rfl
    · simp only [others x old]
      exact fresh x old

/-- A full manager counts one task more, and the copy ends. -/
theorem copy_full (full : m.freeNodes = []) (tasks : List Nat) :
    hbCopyTaskListToTaskManager rb env m (task::tasks) = { m with taskCount := m.taskCount + 1 } := by
  simp only [hbCopyTaskListToTaskManager,hbAddTaskToTaskManager,full]

/-- What the copy leaves, by induction on the rest of the list. -/
theorem copy_tracks (managed : Managed size m) (fresh : AsListed env m) (tasks : List Nat) (once : tasks.Nodup)
    (absent : ∀ task ∈ tasks, task ∉ m.tracked) :
    (hbCopyTaskListToTaskManager rb env m tasks).existing.Ordered (hbCopyTaskListToTaskManager rb env m tasks).key ∧
      (hbCopyTaskListToTaskManager rb env m tasks).tracked.Perm (m.tracked ++ tasks.take m.freeNodes.length) ∧
      (hbCopyTaskListToTaskManager rb env m tasks).taskCount =
        m.taskCount + min tasks.length (m.freeNodes.length + 1) ∧
      AsListed env (hbCopyTaskListToTaskManager rb env m tasks) := by
  induction tasks generalizing m with
  | nil => exact ⟨managed.ordered,by simp [hbCopyTaskListToTaskManager],by simp [hbCopyTaskListToTaskManager],fresh⟩
  | cons task tasks ih =>
    by_cases full : m.freeNodes = []
    · rw [copy_full rb env full]
      refine ⟨managed.ordered,?_,?_,fresh⟩
      · rw [full,List.length_nil,List.take_zero,List.append_nil]
        exact .refl _
      · simp [full]
    · have here := absent task (by simp)
      have untracked := (untracked_iff managed.ordered).mpr here
      obtain ⟨n,added,nodes,count,tracked,fresh'⟩ := add_tracked rb env managed.sound here full fresh
      have managed' := managed_add rb (env.task task) managed untracked full
      obtain ⟨apart,once⟩ := List.nodup_cons.mp once
      have absent' : ∀ other ∈ tasks, other ∉ (hbAddTaskToTaskManager rb m task (env.task task)).1.tracked := by
        intro other member inside
        rcases List.mem_cons.mp (tracked.mem_iff.mp inside) with rfl | old
        · exact apart member
        · exact absent other (List.mem_cons_of_mem _ member) old
      have step : hbCopyTaskListToTaskManager rb env m (task::tasks) =
          hbCopyTaskListToTaskManager rb env (hbAddTaskToTaskManager rb m task (env.task task)).1 tasks := by
        rw [hbCopyTaskListToTaskManager]
        generalize hbAddTaskToTaskManager rb m task (env.task task) = result at added
        obtain ⟨m',node⟩ := result
        obtain rfl : node = some n := added
        rfl
      obtain ⟨ordered,all,total,unflagged⟩ := ih managed' fresh' once absent'
      have length : m.freeNodes.length = m.freeNodes.tail.length + 1 := by
        have positive := List.length_pos_of_ne_nil full
        rw [List.length_tail]
        omega
      rw [step]
      refine ⟨ordered,?_,?_,unflagged⟩
      · rw [length,List.take_succ_cons]
        rw [nodes] at all
        exact all.trans ((tracked.append_right _).trans List.perm_middle.symm)
      · rw [total,nodes,count,length,List.length_cons]
        omega

theorem prepared_nodes (size : Nat) : (hbPrepareMonitor size).freeNodes.length = size :=
  (fillFreeNodes_perm size).length_eq.trans List.length_range

/-- After sleep the monitor starts as at boot, whatever it held before. -/
theorem init_again (m : TaskManager) :
    hbInitMonitor rb env true m = hbInitMonitor rb env false (hbPrepareMonitor taskNodeMax) := rfl

theorem init_copies (once : env.iters.Nodup) :
    (hbInitMonitor rb env false (hbPrepareMonitor taskNodeMax)).existing.Ordered
        (hbInitMonitor rb env false (hbPrepareMonitor taskNodeMax)).key ∧
      (hbInitMonitor rb env false (hbPrepareMonitor taskNodeMax)).tracked.Perm (env.iters.take taskNodeMax) ∧
      (hbInitMonitor rb env false (hbPrepareMonitor taskNodeMax)).taskCount =
        min env.iters.length (taskNodeMax + 1) ∧
      AsListed env (hbInitMonitor rb env false (hbPrepareMonitor taskNodeMax)) := by
  have none : (hbPrepareMonitor taskNodeMax).tracked = [] := rfl
  have copied := copy_tracks rb env (managed_empty taskNodeMax) (fun n member => nomatch member)
    env.iters once (fun task _ inside => by rw [none] at inside; cases inside)
  rw [none,List.nil_append,prepared_nodes] at copied
  obtain ⟨ordered,tracked,count,fresh⟩ := copied
  exact ⟨ordered,tracked,count.trans (Int.zero_add _),fresh⟩

end Copy

end HyperBox.Monitor
