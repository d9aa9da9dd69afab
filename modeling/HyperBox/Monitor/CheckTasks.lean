import HyperBox.Monitor.TaskManager

/-! The search for hidden tasks: a walk over the tree of tracked tasks that kills and removes
those which the kernel's list lacks. -/
namespace HyperBox.Monitor
open HyperBox.Library

/-- The kernel's task list, the task structures, and what `rb_next` finds in a node that is not
linked in the tree any more. -/
structure TaskListEnv where
  iters : List Nat
  task : Nat → TaskStruct
  stale : TaskManager → Nat → Option Nat

def hbGetTaskCount (env : TaskListEnv) : Nat := min env.iters.length (taskNodeMax - 1)

def hbIsInTaskList (env : TaskListEnv) (task : Nat) : Bool :=
  env.iters.any (fun iter =>
    iter == task && (env.task task).pid == (env.task iter).pid && (env.task task).tgid == (env.task iter).tgid)

/-- The signals sent so far, and whether the walk has gone on from a node outside the tree. -/
structure CheckState where
  manager : TaskManager
  killed : List Nat
  unlinked : Bool

section Check
variable (rb : Balancing Nat) (env : TaskListEnv)

def rbNext (s : CheckState) (n : Nat) : Option Nat × CheckState :=
  if n ∈ s.manager.existing.toList then (s.manager.existing.next n,s)
  else (env.stale s.manager n,{ s with unlinked := true })

def checkNode (s : CheckState) (n : Nat) : CheckState :=
  let task := s.manager.key n
  if hbIsInTaskList env task then s
  else { s with manager := (hbDelTaskFromTaskManager rb s.manager task).1, killed := s.killed ++ [task] }

/-- The loop of `hb_check_task_list`, for a number of rounds. -/
def checkLoop : Nat → Option Nat → CheckState → Option CheckState
  | _,none,s => some s
  | 0,some _,_ => none
  | fuel+1,some n,s =>
    let (node,s) := rbNext env (checkNode rb env s n) n
    checkLoop fuel node s

def hbCheckTaskList (fuel : Nat) (m : TaskManager) : Option (CheckState × Int) :=
  let s : CheckState := ⟨m,[],false⟩
  if m.taskCount > hbGetTaskCount env then (checkLoop rb env fuel m.existing.first s).map (fun s => (s,-1))
  else some (s,0)

end Check

def TaskManager.tracked (m : TaskManager) : List Nat := m.existing.toList.map m.key

/-- The search ends, has killed each hidden task once and tracks exactly the others. -/
def ChecksOut (rb : Balancing Nat) (env : TaskListEnv) (m : TaskManager) : Prop :=
  ∃ fuel s result, hbCheckTaskList rb env fuel m = some (s,result) ∧ s.unlinked = false ∧
    (∀ task ∈ s.manager.tracked, task ∈ env.iters) ∧
    (∀ task ∈ m.tracked, task ∉ env.iters → s.killed.count task = 1 ∧ task ∉ s.manager.tracked) ∧
    ∀ task ∈ m.tracked, task ∈ env.iters → task ∈ s.manager.tracked

section Loop
variable {rb : Balancing Nat} {env : TaskListEnv}

theorem isInTaskList_eq (task : Nat) : hbIsInTaskList env task = decide (task ∈ env.iters) := by
  rw [Bool.eq_iff_iff]
  simp only [hbIsInTaskList,List.any_eq_true,Bool.and_eq_true,beq_iff_eq,decide_eq_true_eq]
  constructor
  · rintro ⟨iter,member,⟨rfl,_⟩,_⟩
    exact member
  · intro member
    exact ⟨task,member,⟨rfl,rfl⟩,rfl⟩

theorem checkNode_listed {s : CheckState} {n : Nat} (listed : s.manager.key n ∈ env.iters) :
    checkNode rb env s n = s := by
  simp [checkNode,isInTaskList_eq,listed]

theorem rbNext_linked {s : CheckState} {before after : List Nat} {n : Nat}
    (list : s.manager.existing.toList = before ++ n :: after) (nodup : s.manager.existing.toList.Nodup) :
    rbNext env s n = (after.head?,s) := by
  rw [rbNext,if_pos (by simp [list]),SearchTree.next_eq list nodup]

/-- From a node on, the walk ends with nothing changed if all tasks are listed. -/
theorem checkLoop_listed {s : CheckState} (nodup : s.manager.existing.toList.Nodup)
    (listed : ∀ n ∈ s.manager.existing.toList, s.manager.key n ∈ env.iters) (before after : List Nat)
    (list : s.manager.existing.toList = before ++ after) :
    checkLoop rb env after.length after.head? s = some s := by
  induction after generalizing before with
  | nil => rfl
  | cons n rest ih =>
    have here := listed n (by simp [list])
    have step : checkLoop rb env (rest.length + 1) (some n) s = checkLoop rb env rest.length rest.head? s := by
      rw [checkLoop,checkNode_listed here,rbNext_linked list nodup]
    rw [List.length_cons,List.head?_cons,step]
    exact ih (before ++ [n]) (by simp [list])

theorem checkLoop_unlinked {fuel : Nat} {node : Option Nat} {s s' : CheckState} (unlinked : s.unlinked = true)
    (ends : checkLoop rb env fuel node s = some s') : s'.unlinked = true := by
  induction fuel generalizing node s with
  | zero =>
    cases node with
    | none =>
      obtain rfl := Option.some.inj ends
      exact unlinked
    | some n => cases ends
  | succ fuel ih =>
    cases node with
    | none =>
      obtain rfl := Option.some.inj ends
      exact unlinked
    | some n =>
      refine ih ?_ ends
      have kept : (checkNode rb env s n).unlinked = true := by
        unfold checkNode
        dsimp only
        split <;> exact unlinked
      change (rbNext env (checkNode rb env s n) n).2.unlinked = true
      unfold rbNext
      split
      · exact kept
      · rfl

theorem rbNext_hidden {s : CheckState} {n : Nat} (ordered : s.manager.existing.Ordered s.manager.key)
    (member : n ∈ s.manager.existing.toList) (hidden : s.manager.key n ∉ env.iters) :
    (rbNext env (checkNode rb env s n) n).2.unlinked = true := by
  have found : hbSearchTree s.manager (s.manager.key n) = some n :=
    SearchTree.search_eq_some _ _ ordered n member
  have gone : n ∉ (checkNode rb env s n).manager.existing.toList := by
    simp only [checkNode,isInTaskList_eq,hidden,decide_false,Bool.false_eq_true,if_false,del_regular rb found,
      rb.erase_toList]
    exact (SearchTree.ordered_nodup ordered).not_mem_erase
  rw [rbNext,if_neg gone]

theorem checkLoop_hidden {s s' : CheckState} (ordered : s.manager.existing.Ordered s.manager.key)
    (before after : List Nat) (list : s.manager.existing.toList = before ++ after)
    (hidden : ∃ n ∈ after, s.manager.key n ∉ env.iters) {fuel : Nat}
    (ends : checkLoop rb env fuel after.head? s = some s') : s'.unlinked = true := by
  induction after generalizing before fuel with
  | nil =>
    obtain ⟨n,member,_⟩ := hidden
    cases member
  | cons n rest ih =>
    cases fuel with
    | zero => cases ends
    | succ fuel =>
      rw [List.head?_cons,checkLoop] at ends
      by_cases listed : s.manager.key n ∈ env.iters
      · rw [checkNode_listed listed,rbNext_linked list (SearchTree.ordered_nodup ordered)] at ends
        refine ih (before ++ [n]) (by simp [list]) ?_ ends
        obtain ⟨other,member,absent⟩ := hidden
        rcases List.mem_cons.mp member with rfl | later
        · exact (absent listed).elim
        · exact ⟨other,later,absent⟩
      · exact checkLoop_unlinked (rbNext_hidden ordered (by simp [list]) listed) ends

end Loop

/-- A check that finds every tracked task in the list changes nothing. -/
theorem check_listed (rb : Balancing Nat) {env : TaskListEnv} {m : TaskManager}
    (nodup : m.existing.toList.Nodup) (listed : ∀ task ∈ m.tracked, task ∈ env.iters) :
    ∃ fuel, hbCheckTaskList rb env fuel m =
      some (⟨m,[],false⟩,if m.taskCount > hbGetTaskCount env then -1 else 0) := by
  have nodes : ∀ n ∈ m.existing.toList, m.key n ∈ env.iters :=
    fun n member => listed _ (List.mem_map_of_mem member)
  have walked : checkLoop rb env m.existing.toList.length m.existing.toList.head? ⟨m,[],false⟩ = some ⟨m,[],false⟩ :=
    checkLoop_listed nodup nodes [] m.existing.toList rfl
  refine ⟨m.existing.toList.length,?_⟩
  unfold hbCheckTaskList
  split
  · dsimp only
    rw [SearchTree.first,walked]
    rfl
  · rfl

theorem checksOut_of_listed (rb : Balancing Nat) {env : TaskListEnv} {m : TaskManager}
    (nodup : m.existing.toList.Nodup) (listed : ∀ task ∈ m.tracked, task ∈ env.iters) : ChecksOut rb env m := by
  obtain ⟨fuel,ends⟩ := check_listed rb nodup listed
  exact ⟨fuel,_,_,ends,rfl,listed,fun task tracked absent => absurd (listed task tracked) absent,
    fun task tracked _ => tracked⟩

theorem listed_of_checksOut {rb : Balancing Nat} {env : TaskListEnv} {m : TaskManager}
    (ordered : m.existing.Ordered m.key) (checks : ChecksOut rb env m) : ∀ task ∈ m.tracked, task ∈ env.iters := by
  obtain ⟨fuel,s,result,ends,linked,listed,_,_⟩ := checks
  intro task tracked
  by_contra absent
  unfold hbCheckTaskList at ends
  split at ends
  next more =>
    obtain ⟨s',walked,same⟩ := Option.map_eq_some_iff.mp ends
    obtain ⟨n,member,rfl⟩ := List.mem_map.mp tracked
    have unlinked := checkLoop_hidden (s := ⟨m,[],false⟩) ordered [] m.existing.toList rfl ⟨n,member,absent⟩ walked
    cases same
    rw [linked] at unlinked
    cases unlinked
  next =>
    cases ends
    exact absent (listed task tracked)

/-- The search does its work exactly if there is none: a hidden task is left alone while the
counts agree, and otherwise its node leaves the tree under the walk. -/
theorem check_task_list_iff (rb : Balancing Nat) (env : TaskListEnv) (m : TaskManager)
    (ordered : m.existing.Ordered m.key) :
    ChecksOut rb env m ↔ ∀ task ∈ m.tracked, task ∈ env.iters :=
  ⟨listed_of_checksOut ordered,checksOut_of_listed rb (SearchTree.ordered_nodup ordered)⟩

section Sample

def twoTasks : TaskManager :=
  run (taskStep (Balancing.plain Nat) 4) (hbPrepareMonitor 4) [.add 7 sampleTask,.add 9 sampleTask]

def sampleList (iters : List Nat) : TaskListEnv := ⟨iters,fun _ => sampleTask,fun _ _ => none⟩

theorem twoTasks_ordered : twoTasks.existing.Ordered twoTasks.key := by
  have keys : (twoTasks.existing.toList.map twoTasks.key).Pairwise (fun a b => a < b) := by decide
  exact List.pairwise_map.mp keys

theorem check_task_list_sample : ChecksOut (Balancing.plain Nat) (sampleList [9,11,7]) twoTasks :=
  (check_task_list_iff (Balancing.plain Nat) (sampleList [9,11,7]) twoTasks twoTasks_ordered).mpr (by decide)

/-- With one hidden task, the walk goes on from its erased node. With a further task in the list,
the counts agree and nothing is done. -/
theorem hidden_task_missed :
    (hbCheckTaskList (Balancing.plain Nat) (sampleList [7]) 2 twoTasks).map
      (fun checked => (checked.1.killed,checked.1.unlinked)) = some ([9],true) ∧
    (hbCheckTaskList (Balancing.plain Nat) (sampleList [7,11]) 2 twoTasks).map
      (fun checked => (checked.1.killed,checked.1.manager.tracked)) = some ([],[7,9]) ∧
    ¬ ChecksOut (Balancing.plain Nat) (sampleList [7]) twoTasks ∧
    ¬ ChecksOut (Balancing.plain Nat) (sampleList [7,11]) twoTasks := by
  refine ⟨by decide,by decide,fun checks => ?_,fun checks => ?_⟩
  · exact absurd (listed_of_checksOut twoTasks_ordered checks) (by decide)
  · exact absurd (listed_of_checksOut twoTasks_ordered checks) (by decide)

end Sample
end HyperBox.Monitor
