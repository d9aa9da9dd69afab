import HyperBox.Library.Run
import HyperBox.Library.SearchTree
import HyperBox.Monitor.Task

/-! The task manager: a fixed pool of nodes, split between a free list and a
search tree keyed by the task pointer, and the running task count. Nodes are
named by their index in the pool. The tree's rebalancing is the kernel's and
enters as a `Balancing`. -/
namespace HyperBox.Monitor
open HyperBox.Library

structure TaskManager where
  pool : Nat → TaskNode
  freeNodes : List Nat
  existing : SearchTree Nat
  taskCount : Int

namespace TaskManager

def key (m : TaskManager) (n : Nat) : Nat := (m.pool n).task

def setNode (m : TaskManager) (n : Nat) (node : TaskNode) : TaskManager :=
  {m with pool := fun i => if i = n then node else m.pool i}

@[simp] theorem setNode_pool_self (m : TaskManager) (n : Nat) (node : TaskNode) :
    (m.setNode n node).pool n = node := by simp [setNode]

theorem setNode_pool_ne (m : TaskManager) {n i : Nat} (node : TaskNode) (other : i ≠ n) :
    (m.setNode n node).pool i = m.pool i := by simp [setNode,other]

@[simp] theorem setNode_existing (m : TaskManager) (n : Nat) (node : TaskNode) :
    (m.setNode n node).existing = m.existing := rfl

@[simp] theorem setNode_freeNodes (m : TaskManager) (n : Nat) (node : TaskNode) :
    (m.setNode n node).freeNodes = m.freeNodes := rfl

end TaskManager

/-- `TASK_NODE_MAX`, the kernel's `PID_MAX_LIMIT` on 64-bit systems. -/
def taskNodeMax : Nat := 4 * 1024 * 1024

def fillFreeNodes (size : Nat) : List Nat := loop size (fun i free => i::free) []

def hbPrepareMonitor (size : Nat) : TaskManager :=
  ⟨fun _ => TaskNode.zero,fillFreeNodes size,.leaf,0⟩

def hbResetTaskManager (size : Nat) (_ : TaskManager) : TaskManager :=
  ⟨fun _ => TaskNode.zero,fillFreeNodes size,.leaf,0⟩

def hbSearchTree (m : TaskManager) (task : Nat) : Option Nat :=
  m.existing.search m.key task

variable (rb : Balancing Nat)

/-- An equal key makes `hb_add_tree` return with the tree as it was. -/
def hbAddTree (m : TaskManager) (n : Nat) : TaskManager :=
  match m.existing.link m.key n with
  | none => m
  | some linked => {m with existing := rb.insertColor linked}

def hbDelTree (m : TaskManager) (n : Nat) : TaskManager :=
  {m with existing := rb.erase n m.existing}

def TaskNode.ofTask (task : Nat) (info : TaskStruct) : TaskNode where
  task := task
  pid := info.pid
  tgid := info.tgid
  comm := info.comm
  cred := info.cred
  syscallNumber := -1
  needExit := false
  needTrace := false
  seccompMode := info.seccompMode
  mm := info.mm

/-- The count moves before the pool is looked at, also when nothing is added. -/
def hbAddTaskToTaskManager (m : TaskManager) (task : Nat) (info : TaskStruct) :
    TaskManager × Option Nat :=
  let m := {m with taskCount := m.taskCount + 1}
  match m.freeNodes with
  | [] => (m,none)
  | n::rest =>
    let m := {m with freeNodes := rest}.setNode n (TaskNode.ofTask task info)
    (hbAddTree rb m n,some n)

def hbDelTaskFromTaskManager (m : TaskManager) (task : Nat) : TaskManager × Int :=
  let m := {m with taskCount := m.taskCount - 1}
  match hbSearchTree m task with
  | none => (m,-1)
  | some n =>
    let m := hbDelTree rb m n
    ({m with freeNodes := n::m.freeNodes},0)

inductive TaskEvent where
  | add (task : Nat) (info : TaskStruct)
  | del (task : Nat)
  | reset

def taskStep (size : Nat) (m : TaskManager) : TaskEvent → TaskManager
  | .add task info => (hbAddTaskToTaskManager rb m task info).1
  | .del task => (hbDelTaskFromTaskManager rb m task).1
  | .reset => hbResetTaskManager size m

/-- The bookkeeping that the pool, the tree and the count promise each other. -/
structure Consistent (size : Nat) (m : TaskManager) : Prop where
  oneOf : ∀ n < size, (n ∈ m.freeNodes ∧ n ∉ m.existing.toList) ∨
    (n ∉ m.freeNodes ∧ n ∈ m.existing.toList)
  freeOnce : m.freeNodes.Nodup
  treeOnce : m.existing.toList.Nodup
  keys : m.existing.toList.Pairwise (fun a b => m.key a ≠ m.key b)
  count : m.taskCount = m.existing.toList.length

/-- The events that stay clear of the error paths: adding an untracked pointer
while a node is free, deleting a tracked one. -/
def Regular (m : TaskManager) : TaskEvent → Prop
  | .add task _ => hbSearchTree m task = none ∧ m.freeNodes ≠ []
  | .del task => (hbSearchTree m task).isSome
  | .reset => True

/-- The working form of the invariant: free list and tree partition the pool and
the tree is ordered by task pointer. -/
structure Managed (size : Nat) (m : TaskManager) : Prop where
  split : (m.freeNodes ++ m.existing.toList).Perm (List.range size)
  ordered : m.existing.Ordered m.key
  count : m.taskCount = m.existing.toList.length

/-- What survives the error paths as well: no node is in two places, and the tree stays
ordered. -/
structure Sound (m : TaskManager) : Prop where
  once : (m.freeNodes ++ m.existing.toList).Nodup
  ordered : m.existing.Ordered m.key

theorem Managed.sound {size : Nat} {m : TaskManager} (h : Managed size m) : Sound m :=
  ⟨h.split.nodup_iff.mpr List.nodup_range,h.ordered⟩

theorem Managed.consistent {size : Nat} {m : TaskManager} (h : Managed size m) :
    Consistent size m := by
  obtain ⟨freeOnce,treeOnce,apart⟩ := List.nodup_append.mp h.sound.once
  refine ⟨?_,freeOnce,treeOnce,h.ordered.imp (fun less => ne_of_lt less),h.count⟩
  intro n bound
  have member : n ∈ m.freeNodes ++ m.existing.toList := h.split.mem_iff.mpr (by simpa using bound)
  rcases List.mem_append.mp member with free | tree
  · exact .inl ⟨free,fun tree => apart n free n tree rfl⟩
  · exact .inr ⟨fun free => apart n free n tree rfl,tree⟩

theorem fillFreeNodes_perm (size : Nat) : (fillFreeNodes size).Perm (List.range size) := by
  refine loop_invariant (fun i (free : List Nat) => free.Perm (List.range i)) (by simp) ?_
  intro i _ free filled
  rw [List.range_succ]
  exact (filled.cons i).trans (List.perm_append_singleton _ _).symm

theorem managed_empty (size : Nat) : Managed size (hbPrepareMonitor size) := by
  refine ⟨?_,List.Pairwise.nil,rfl⟩
  simpa [hbPrepareMonitor,SearchTree.toList] using fillFreeNodes_perm size

theorem setNode_key {m : TaskManager} {n x : Nat} (node : TaskNode) (fresh : n ∉ m.existing.toList)
    (member : x ∈ m.existing.toList) : (m.setNode n node).key x = m.key x := by
  have other : x ≠ n := fun equal => fresh (equal ▸ member)
  simp [TaskManager.key,TaskManager.setNode_pool_ne _ _ other]

theorem setNode_ordered {m : TaskManager} {n : Nat} (node : TaskNode) (ordered : m.existing.Ordered m.key)
    (fresh : n ∉ m.existing.toList) : m.existing.Ordered (m.setNode n node).key :=
  (SearchTree.ordered_congr fun _ member => setNode_key node fresh member).mpr ordered

theorem add_regular (info : TaskStruct) {m : TaskManager} {task : Nat}
    (h : Sound m) (absent : hbSearchTree m task = none) (free : m.freeNodes ≠ []) :
    ∃ n rest linked, m.freeNodes = n::rest ∧ n ∉ m.existing.toList ∧
      hbAddTaskToTaskManager rb m task info =
        (⟨(m.setNode n (TaskNode.ofTask task info)).pool,rest,rb.insertColor linked,
          m.taskCount + 1⟩,some n) ∧
      linked.toList.Perm (n :: m.existing.toList) ∧
      linked.Ordered (m.setNode n (TaskNode.ofTask task info)).key := by
  obtain ⟨n,rest,hfree⟩ := List.exists_cons_of_ne_nil free
  have fresh : n ∉ m.existing.toList := fun tree =>
    (List.nodup_append.mp h.once).2.2 n (by simp [hfree]) n tree rfl
  let m' := m.setNode n (TaskNode.ofTask task info)
  have same : ∀ x ∈ m.existing.toList, m'.key x = m.key x := fun x member => setNode_key _ fresh member
  have ordered : m.existing.Ordered m'.key := setNode_ordered _ h.ordered fresh
  have keyNew : m'.key n = task := by simp [TaskManager.key,m',TaskNode.ofTask]
  have missing : m.existing.search m'.key (m'.key n) = none := by
    rw [SearchTree.search_eq_none _ _ ordered,keyNew]
    intro x member
    rw [same x member]
    exact (SearchTree.search_eq_none _ _ h.ordered task).mp absent x member
  cases linked : m.existing.link m'.key n with
  | none =>
    have taken := (SearchTree.link_eq_none m'.key n m.existing).mp linked
    rw [missing] at taken
    cases taken
  | some t =>
    refine ⟨n,rest,t,hfree,fresh,?_,SearchTree.link_perm _ _ _ _ linked,
      SearchTree.link_ordered _ _ _ _ ordered linked⟩
    have step : SearchTree.link (TaskManager.setNode ⟨m.pool,rest,m.existing,m.taskCount + 1⟩ n
        (TaskNode.ofTask task info)).key n m.existing = some t := linked
    simp only [hbAddTaskToTaskManager,hfree,hbAddTree,TaskManager.setNode_existing,step]
    rfl

theorem del_regular {m : TaskManager} {task n : Nat} (found : hbSearchTree m task = some n) :
    hbDelTaskFromTaskManager rb m task =
      (⟨m.pool,n::m.freeNodes,rb.erase n m.existing,m.taskCount - 1⟩,0) := by
  have same : hbSearchTree {m with taskCount := m.taskCount - 1} task = some n := found
  simp only [hbDelTaskFromTaskManager,same,hbDelTree]

theorem managed_add (info : TaskStruct) {size : Nat} {m : TaskManager} {task : Nat}
    (h : Managed size m) (absent : hbSearchTree m task = none) (free : m.freeNodes ≠ []) :
    Managed size (hbAddTaskToTaskManager rb m task info).1 := by
  obtain ⟨n,rest,linked,hfree,_,equal,perm,ordered⟩ := add_regular rb info h.sound absent free
  have tree : (rb.insertColor linked).toList.Perm (n :: m.existing.toList) := by
    rw [rb.insertColor_toList]
    exact perm
  rw [equal]
  refine ⟨?_,?_,?_⟩
  · have split := h.split
    rw [hfree] at split
    exact ((tree.append_left rest).trans List.perm_middle).trans split
  · unfold SearchTree.Ordered
    rw [rb.insertColor_toList]
    exact ordered
  · have size := tree.length_eq
    simp only [List.length_cons] at size
    simp only [size,h.count]
    push_cast
    rfl

theorem managed_del {size : Nat} {m : TaskManager} {task n : Nat} (h : Managed size m)
    (found : hbSearchTree m task = some n) :
    Managed size (hbDelTaskFromTaskManager rb m task).1 := by
  have member : n ∈ m.existing.toList := (SearchTree.search_mem _ _ _ _ found).1
  rw [del_regular rb found]
  refine ⟨?_,?_,?_⟩
  · simp only [rb.erase_toList]
    have moved : (n :: m.freeNodes ++ m.existing.toList.erase n).Perm
        (m.freeNodes ++ m.existing.toList) :=
      List.perm_middle.symm.trans ((List.perm_cons_erase member).symm.append_left _)
    exact moved.trans h.split
  · unfold SearchTree.Ordered
    simp only [rb.erase_toList]
    exact List.Pairwise.sublist List.erase_sublist h.ordered
  · have size := List.length_erase_add_one member
    simp only [rb.erase_toList,h.count]
    omega

theorem managed_step {size : Nat} (m : TaskManager) (event : TaskEvent) (h : Managed size m)
    (regular : Regular m event) : Managed size (taskStep rb size m event) := by
  cases event with
  | add task info => exact managed_add rb info h regular.1 regular.2
  | del task =>
    obtain ⟨n,found⟩ := Option.isSome_iff_exists.mp regular
    exact managed_del rb h found
  | reset => exact managed_empty size

theorem search_add_self (info : TaskStruct) {size : Nat} {m : TaskManager} {task : Nat}
    (h : Managed size m) (absent : hbSearchTree m task = none) (free : m.freeNodes ≠ []) :
    hbSearchTree (hbAddTaskToTaskManager rb m task info).1 task =
      (hbAddTaskToTaskManager rb m task info).2 := by
  have managed := managed_add rb info h absent free
  obtain ⟨n,rest,linked,_,_,equal,perm,_⟩ := add_regular rb info h.sound absent free
  rw [equal] at managed ⊢
  refine (SearchTree.search_iff _ _ managed.ordered task n).mpr ⟨?_,?_⟩
  · simp only [rb.insertColor_toList]
    exact perm.mem_iff.mpr (by simp)
  · simp [TaskManager.key,TaskManager.setNode,TaskNode.ofTask]

theorem search_step {size : Nat} {m : TaskManager} {task n : Nat} {event : TaskEvent}
    (h : Managed size m) (found : hbSearchTree m task = some n) (regular : Regular m event)
    (kept : event ≠ .del task) (running : event ≠ .reset) :
    hbSearchTree (taskStep rb size m event) task = some n := by
  have managed := managed_step rb m event h regular
  obtain ⟨member,keyed⟩ := SearchTree.search_mem _ _ _ _ found
  cases event with
  | add other info =>
    obtain ⟨fresh,rest,linked,_,outside,equal,perm,_⟩ :=
      add_regular rb info h.sound regular.1 regular.2
    have different : n ≠ fresh := fun same => outside (same ▸ member)
    simp only [taskStep,equal] at managed ⊢
    refine (SearchTree.search_iff _ _ managed.ordered task n).mpr ⟨?_,?_⟩
    · simp only [rb.insertColor_toList]
      exact perm.mem_iff.mpr (by simp [member])
    · simpa [TaskManager.key,TaskManager.setNode,different] using keyed
  | del other =>
    obtain ⟨gone,foundOther⟩ := Option.isSome_iff_exists.mp regular
    obtain ⟨_,keyedOther⟩ := SearchTree.search_mem _ _ _ _ foundOther
    have different : n ≠ gone := by
      rintro rfl
      exact kept (by rw [← keyed,← keyedOther])
    simp only [taskStep,del_regular rb foundOther] at managed ⊢
    refine (SearchTree.search_iff _ _ managed.ordered task n).mpr ⟨?_,keyed⟩
    simp only [rb.erase_toList]
    exact (List.mem_erase_of_ne different).mpr member
  | reset => exact (running rfl).elim

theorem search_run {size : Nat} {m : TaskManager} {task n : Nat} (h : Managed size m)
    (found : hbSearchTree m task = some n) (events : List TaskEvent)
    (regular : Along (taskStep rb size) Regular m events)
    (kept : ∀ event ∈ events, event ≠ .del task ∧ event ≠ .reset) :
    hbSearchTree (run (taskStep rb size) m events) task = some n := by
  induction events generalizing m with
  | nil => exact found
  | cons event rest ih =>
    have here := kept event (by simp)
    exact ih (managed_step rb m event h regular.1)
      (search_step rb h found regular.1 here.1 here.2) regular.2
      (fun later member => kept later (by simp [member]))

/-- Along every regular run the pool stays partitioned, the keys distinct and the
count exact, and the node an add returns is the one a later search finds until
the task is deleted or the manager reset. -/
theorem task_manager_run (size : Nat) (events : List TaskEvent)
    (regular : Along (taskStep rb size) Regular (hbPrepareMonitor size) events) :
    (∀ before after, events = before ++ after →
      Consistent size (run (taskStep rb size) (hbPrepareMonitor size) before)) ∧
    ∀ before task info between after n,
      events = before ++ .add task info :: (between ++ after) →
      (hbAddTaskToTaskManager rb (run (taskStep rb size) (hbPrepareMonitor size) before)
        task info).2 = some n →
      (∀ event ∈ between, event ≠ .del task ∧ event ≠ .reset) →
      hbSearchTree (run (taskStep rb size) (hbPrepareMonitor size)
        (before ++ .add task info :: between)) task = some n := by
  constructor
  · rintro before after rfl
    have first := ((along_append _ _ _).mp regular).1
    exact (first.reaches (Managed size) (managed_step rb) (managed_empty size)).consistent
  · rintro before task info between after n rfl returned kept
    obtain ⟨first,add,rest⟩ := (along_append _ _ _).mp regular
    have managed := first.reaches (Managed size) (managed_step rb) (managed_empty size)
    have found := search_add_self rb info managed add.1 add.2
    rw [returned] at found
    rw [run_append,run_cons]
    exact search_run rb (managed_step rb _ _ managed add) found between
      ((along_append _ _ _).mp rest).1 kept

def sampleTask : TaskStruct :=
  ⟨7,7,[],⟨1000,1000,1000,1000,1000,1000,1000,1000⟩,0,0,0,[]⟩

theorem task_manager_run_pair :
    Consistent 2 (run (taskStep (Balancing.plain Nat) 2) (hbPrepareMonitor 2)
      [.add 7 sampleTask,.del 7]) :=
  (task_manager_run (Balancing.plain Nat) 2 [.add 7 sampleTask,.del 7]
    ⟨⟨rfl,by decide⟩,rfl,trivial⟩).1 _ [] (by simp)

/-- Adding a tracked pointer again: the second node leaves the free list, is not
linked, and is not the node that a search finds; the count runs ahead. -/
theorem duplicate_add_inconsistent :
    (hbAddTaskToTaskManager (Balancing.plain Nat)
      (run (taskStep (Balancing.plain Nat) taskNodeMax) (hbPrepareMonitor taskNodeMax)
        [.add 7 sampleTask]) 7 sampleTask).2 = some 4194302 ∧
    hbSearchTree (run (taskStep (Balancing.plain Nat) taskNodeMax) (hbPrepareMonitor taskNodeMax)
      [.add 7 sampleTask,.add 7 sampleTask]) 7 = some 4194303 ∧
    ¬ Consistent taskNodeMax
      (run (taskStep (Balancing.plain Nat) taskNodeMax) (hbPrepareMonitor taskNodeMax)
        [.add 7 sampleTask,.add 7 sampleTask]) := by
  refine ⟨rfl,rfl,fun consistent => ?_⟩
  have counted := consistent.count
  have two : (run (taskStep (Balancing.plain Nat) taskNodeMax) (hbPrepareMonitor taskNodeMax)
      [.add 7 sampleTask,.add 7 sampleTask]).taskCount = 2 := rfl
  have one : (run (taskStep (Balancing.plain Nat) taskNodeMax) (hbPrepareMonitor taskNodeMax)
      [.add 7 sampleTask,.add 7 sampleTask]).existing.toList.length = 1 := rfl
  rw [two,one] at counted
  cases counted

end HyperBox.Monitor
