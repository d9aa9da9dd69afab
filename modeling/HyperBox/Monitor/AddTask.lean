import HyperBox.Monitor.CredGuard

/-! The callback for new tasks, and the system of all callbacks together with a guest kernel
that may change its task structures at any time. The bookkeeping of the task manager
survives every order of the callbacks, also on their error paths. -/
namespace HyperBox.Monitor
open HyperBox.Library

def taskCommLen : Nat := 16

def gHbSpawningDisabledProcess : List (List Char) :=
  [['q','e','m','u','-','s','y','s','t','e','m','-','x','8','6','_','6','4']]

/-- The name that is checked when `current` creates a process: its own, or that of its group
leader when it is a thread. -/
def creatorComm (kernel : Nat → TaskStruct) (current : Nat) : List Char :=
  let info := kernel current
  if info.pid = info.tgid then info.comm
  else if info.groupLeader ≠ 0 then (kernel info.groupLeader).comm
  else info.comm

/-- The loop over the names with `strncmp(…, TASK_COMM_LEN - 1)`. -/
def spawningDisabled (comm : List Char) : Bool :=
  gHbSpawningDisabledProcess.any fun name => comm.take (taskCommLen-1) == name.take (taskCommLen-1)

def createsTasks (syscallNumber : Int) : Bool :=
  syscallNumber == Nr.fork || syscallNumber == Nr.vfork || syscallNumber == Nr.clone || syscallNumber == -1

section Callbacks
variable (rb : Balancing Nat)

/-- `hb_callback_add_task` on a core that runs `current`. -/
def hbCallbackAddTask (s : MonitorState) (current task : Nat) : MonitorState :=
  let info := s.kernel task
  match hbAddTaskToTaskManager rb s.manager task info with
  | (m,none) => {s with manager := m}
  | (m,some added) =>
    match hbSearchTree m current with
    | none => {s with manager := m}
    | some n =>
      if createsTasks (m.pool n).syscallNumber = false then
        {s with manager := hbSetExitFlagInListWithLock m info.tgid, killed := task::s.killed}
      else if info.pid = info.tgid ∧ spawningDisabled (creatorComm s.kernel current) then
        let m := m.setNode n {m.pool n with needTrace := true}
        {s with manager := m.setNode added {m.pool added with needTrace := true}}
      else {s with manager := m}

def hbCallbackDelTask (s : MonitorState) (task : Nat) : MonitorState :=
  {s with manager := (hbDelTaskFromTaskManager rb s.manager task).1}

/-- `copy` is an entry of `hb_copy_task_list_to_task_manager`, `guest` any change that the
guest makes to its own task structures: new tasks, renames, `execve`. -/
inductive MonitorEvent where
  | copy (task : Nat)
  | add (current task : Nat)
  | del (task : Nat)
  | syscall (task : Nat) (syscallNumber : Int)
  | commit (task : Nat) (new : Cred)
  | guest (kernel : Nat → TaskStruct)

def monitorStep (s : MonitorState) : MonitorEvent → MonitorState
  | .copy task => {s with manager := (hbAddTaskToTaskManager rb s.manager task (s.kernel task)).1}
  | .add current task => hbCallbackAddTask rb s current task
  | .del task => hbCallbackDelTask rb s task
  | .syscall task syscallNumber => credStep s (.syscall task syscallNumber)
  | .commit task new => credStep s (.commit task new)
  | .guest kernel => {s with kernel := kernel}

def monitorStart (size : Nat) (kernel : Nat → TaskStruct) : MonitorState := ⟨hbPrepareMonitor size,kernel,[]⟩

end Callbacks

/-- Updates in place: the tree and the free list stay, and no flag is taken back. -/
structure InPlace (m after : TaskManager) : Prop where
  existing : after.existing = m.existing
  freeNodes : after.freeNodes = m.freeNodes
  task : ∀ n, (after.pool n).task = (m.pool n).task
  tgid : ∀ n, (after.pool n).tgid = (m.pool n).tgid
  needExit : ∀ n, (m.pool n).needExit = true → (after.pool n).needExit = true
  needTrace : ∀ n, (m.pool n).needTrace = true → (after.pool n).needTrace = true

theorem InPlace.refl (m : TaskManager) : InPlace m m :=
  ⟨rfl,rfl,fun _ => rfl,fun _ => rfl,fun _ => id,fun _ => id⟩

theorem InPlace.trans {m m' m'' : TaskManager} (first : InPlace m m') (second : InPlace m' m'') :
    InPlace m m'' where
  existing := second.existing.trans first.existing
  freeNodes := second.freeNodes.trans first.freeNodes
  task n := (second.task n).trans (first.task n)
  tgid n := (second.tgid n).trans (first.tgid n)
  needExit n flag := second.needExit n (first.needExit n flag)
  needTrace n flag := second.needTrace n (first.needTrace n flag)

theorem inPlace_setNode {m : TaskManager} {n : Nat} {node : TaskNode} (task : node.task = (m.pool n).task)
    (tgid : node.tgid = (m.pool n).tgid) (needExit : (m.pool n).needExit = true → node.needExit = true)
    (needTrace : (m.pool n).needTrace = true → node.needTrace = true) : InPlace m (m.setNode n node) := by
  have at_ : ∀ k, (m.setNode n node).pool k = if k = n then node else m.pool k := fun _ => rfl
  constructor
  · rfl
  · rfl
  all_goals
    intro k
    rw [at_]
    split
    case isTrue same =>
      subst same
      assumption
    case isFalse => simp

theorem inPlace_trace (m : TaskManager) (n : Nat) : InPlace m (m.setNode n {m.pool n with needTrace := true}) :=
  inPlace_setNode rfl rfl id fun _ => rfl

theorem inPlace_syscall (m : TaskManager) (n : Nat) (syscallNumber : Int) :
    InPlace m (m.setNode n {m.pool n with syscallNumber := syscallNumber}) :=
  inPlace_setNode rfl rfl id id

theorem exitFlag_freeNodes (m : TaskManager) (tgid : Int) :
    (hbSetExitFlagInListWithLock m tgid).freeNodes = m.freeNodes := by
  unfold hbSetExitFlagInListWithLock
  generalize m.existing.toList = nodes
  induction nodes generalizing m with
  | nil => rfl
  | cons k rest ih =>
    rw [List.foldl_cons,ih]
    split <;> rfl

theorem inPlace_exitFlag (m : TaskManager) (tgid : Int) : InPlace m (hbSetExitFlagInListWithLock m tgid) := by
  have node : ∀ n, ∃ flag, (hbSetExitFlagInListWithLock m tgid).pool n = {m.pool n with needExit := flag} ∧
      ((m.pool n).needExit = true → flag = true) := by
    intro n
    obtain ⟨flag,same,kept,_⟩ := setExitFlag_node tgid m.existing.toList m n
    exact ⟨flag,same,kept⟩
  refine ⟨exitFlag_existing m tgid,exitFlag_freeNodes m tgid,?_,?_,?_,?_⟩
  all_goals
    intro n
    obtain ⟨flag,same,kept⟩ := node n
    rw [same]
  · exact kept
  · exact id

theorem checkProcess_inPlace (m : TaskManager) (task : TaskStruct) (n : Nat) :
    InPlace m (checkProcess m task n).1 := by
  unfold checkProcess
  dsimp only
  split_ifs
  · exact inPlace_setNode rfl rfl id id
  · exact inPlace_exitFlag m _
  · exact inPlace_setNode rfl rfl id id
  · exact inPlace_exitFlag m _
  · exact .refl m

theorem checkCred_inPlace (m : TaskManager) (task : TaskStruct) (n : Nat) (ret : Int) :
    InPlace m (checkCred m task n ret).1 := by
  unfold checkCred
  dsimp only
  split_ifs
  · exact inPlace_exitFlag m _
  · exact .refl m
  · exact .refl m

theorem entered_inPlace (s : MonitorState) (task n : Nat) (syscallNumber : Int) :
    InPlace s.manager (enteredManager s task n syscallNumber) := by
  have checked := checkProcess_inPlace s.manager (s.kernel task) n
  unfold enteredManager
  generalize (checkProcess s.manager (s.kernel task) n).1 = m at checked
  exact checked.trans (inPlace_syscall m n syscallNumber)

theorem syscall_inPlace (s : MonitorState) (task : Nat) (syscallNumber : Int) :
    InPlace s.manager (hbCallbackCheckCredUpdateSyscall s task syscallNumber).1.manager := by
  cases found : hbSearchTree s.manager task with
  | none =>
    simp only [hbCallbackCheckCredUpdateSyscall,found]
    exact .refl _
  | some n =>
    rw [syscall_eq syscallNumber found]
    exact (entered_inPlace s task n syscallNumber).trans (checkCred_inPlace _ _ _ _)

theorem commit_inPlace (s : MonitorState) (task : Nat) (new : Cred) :
    InPlace s.manager (hbCallbackUpdateCred s task new).1.manager := by
  unfold hbCallbackUpdateCred
  split
  · exact .refl _
  · dsimp only
    split_ifs
    · exact inPlace_exitFlag _ _
    · exact inPlace_setNode rfl rfl id id
    · exact inPlace_setNode rfl rfl id id

theorem InPlace.search {m after : TaskManager} (inPlace : InPlace m after) (task : Nat) :
    hbSearchTree after task = hbSearchTree m task := by
  have keys : after.key = m.key := funext inPlace.task
  rw [hbSearchTree,hbSearchTree,inPlace.existing,keys]

theorem InPlace.sound {m after : TaskManager} (inPlace : InPlace m after) (sound : Sound m) : Sound after := by
  have keys : after.key = m.key := funext inPlace.task
  constructor
  · rw [inPlace.freeNodes,inPlace.existing]
    exact sound.once
  · rw [inPlace.existing,keys]
    exact sound.ordered

theorem Sound.search_iff {m : TaskManager} (sound : Sound m) {task n : Nat} :
    hbSearchTree m task = some n ↔ n ∈ m.existing.toList ∧ (m.pool n).task = task :=
  SearchTree.search_iff _ _ sound.ordered task n

section Add
variable (rb : Balancing Nat) {m : TaskManager} {task : Nat}

/-- The three outcomes of an add: no node is free, the pointer is already in the tree, or a
fresh node is linked. -/
theorem add_cases (info : TaskStruct) (sound : Sound m) :
    (m.freeNodes = [] ∧ hbAddTaskToTaskManager rb m task info = ({m with taskCount := m.taskCount + 1},none)) ∨
    ∃ n after, n ∉ m.existing.toList ∧ hbAddTaskToTaskManager rb m task info = (after,some n) ∧
      after.pool = (m.setNode n (TaskNode.ofTask task info)).pool ∧ Sound after ∧
      ((hbSearchTree m task ≠ none ∧ after.existing = m.existing) ∨
        (hbSearchTree m task = none ∧ after.existing.toList.Perm (n::m.existing.toList))) := by
  cases free : m.freeNodes with
  | nil => exact Or.inl ⟨rfl,by simp [hbAddTaskToTaskManager,free]⟩
  | cons n rest =>
    right
    cases search : hbSearchTree m task with
    | none =>
      obtain ⟨n,rest,linked,free,fresh,equal,perm,ordered⟩ := add_regular rb info sound search (by simp [free])
      have tree : (rb.insertColor linked).toList.Perm (n::m.existing.toList) := by
        rw [rb.insertColor_toList]
        exact perm
      refine ⟨n,_,fresh,equal,rfl,⟨?_,?_⟩,Or.inr ⟨rfl,tree⟩⟩
      · have once := sound.once
        rw [free] at once
        exact ((tree.append_left rest).trans List.perm_middle).nodup_iff.mpr once
      · unfold SearchTree.Ordered
        rw [rb.insertColor_toList]
        exact ordered
    | some old =>
      have fresh : n ∉ m.existing.toList := fun tree =>
        (List.nodup_append.mp sound.once).2.2 n (by simp [free]) n tree rfl
      have ordered := setNode_ordered (TaskNode.ofTask task info) sound.ordered fresh
      obtain ⟨member,keyed⟩ := sound.search_iff.mp search
      have taken : m.existing.link (m.setNode n (TaskNode.ofTask task info)).key n = none := by
        rw [SearchTree.link_eq_none,Option.isSome_iff_exists]
        refine ⟨old,(SearchTree.search_iff _ _ ordered _ _).mpr ⟨member,?_⟩⟩
        rw [setNode_key _ fresh member]
        simp [TaskManager.key,keyed,TaskNode.ofTask]
      refine ⟨n,⟨(m.setNode n (TaskNode.ofTask task info)).pool,rest,m.existing,m.taskCount + 1⟩,fresh,?_,rfl,
        ⟨?_,ordered⟩,Or.inl ⟨by simp,rfl⟩⟩
      · have step : m.existing.link (TaskManager.setNode ⟨m.pool,rest,m.existing,m.taskCount + 1⟩ n
            (TaskNode.ofTask task info)).key n = none := taken
        simp only [hbAddTaskToTaskManager,free,hbAddTree,TaskManager.setNode_existing,step]
        rfl
      · have once := sound.once
        rw [free,List.cons_append] at once
        exact once.of_cons

theorem addTask_inPlace (s : MonitorState) (current task : Nat) :
    InPlace (hbAddTaskToTaskManager rb s.manager task (s.kernel task)).1
      (hbCallbackAddTask rb s current task).manager := by
  simp only [hbCallbackAddTask]
  generalize hbAddTaskToTaskManager rb s.manager task (s.kernel task) = result
  obtain ⟨m,added⟩ := result
  cases added with
  | none => exact .refl m
  | some added =>
    dsimp only
    split
    · exact .refl m
    · split_ifs
      · exact inPlace_exitFlag m _
      · exact (inPlace_trace m _).trans (inPlace_trace _ _)
      · exact .refl m

theorem add_sound (info : TaskStruct) (sound : Sound m) : Sound (hbAddTaskToTaskManager rb m task info).1 := by
  rcases add_cases rb info sound with ⟨_,same⟩ | ⟨n,after,_,same,_,kept,_⟩
  · rw [same]
    exact ⟨sound.once,sound.ordered⟩
  · rw [same]
    exact kept

theorem del_sound (sound : Sound m) : Sound (hbDelTaskFromTaskManager rb m task).1 := by
  cases found : hbSearchTree m task with
  | none =>
    have same : hbSearchTree {m with taskCount := m.taskCount - 1} task = none := found
    simp only [hbDelTaskFromTaskManager,same]
    exact ⟨sound.once,sound.ordered⟩
  | some n =>
    obtain ⟨member,_⟩ := sound.search_iff.mp found
    rw [del_regular rb found]
    constructor
    · simp only [rb.erase_toList]
      have moved : (n::m.freeNodes ++ m.existing.toList.erase n).Perm (m.freeNodes ++ m.existing.toList) :=
        List.perm_middle.symm.trans ((List.perm_cons_erase member).symm.append_left _)
      exact moved.nodup_iff.mpr sound.once
    · unfold SearchTree.Ordered
      simp only [rb.erase_toList]
      exact List.Pairwise.sublist List.erase_sublist sound.ordered

theorem del_members (m : TaskManager) (task : Nat) :
    (hbDelTaskFromTaskManager rb m task).1.pool = m.pool ∧
      ∀ n ∈ (hbDelTaskFromTaskManager rb m task).1.existing.toList, n ∈ m.existing.toList := by
  cases found : hbSearchTree m task with
  | none =>
    have same : hbSearchTree {m with taskCount := m.taskCount - 1} task = none := found
    simp only [hbDelTaskFromTaskManager,same]
    exact ⟨trivial,fun _ => id⟩
  | some n =>
    rw [del_regular rb found]
    refine ⟨rfl,?_⟩
    intro k member
    rw [rb.erase_toList] at member
    exact List.mem_of_mem_erase member

theorem add_search (info : TaskStruct) {other n : Nat} (sound : Sound m) (found : hbSearchTree m other = some n) :
    hbSearchTree (hbAddTaskToTaskManager rb m task info).1 other = some n ∧
      (hbAddTaskToTaskManager rb m task info).1.pool n = m.pool n := by
  rcases add_cases rb info sound with ⟨_,same⟩ | ⟨added,after,fresh,same,pool,kept,linked⟩
  · rw [same]
    exact ⟨found,rfl⟩
  · obtain ⟨member,keyed⟩ := sound.search_iff.mp found
    have apart : n ≠ added := fun equal => fresh (equal ▸ member)
    have node : after.pool n = m.pool n := by rw [pool,TaskManager.setNode_pool_ne _ _ apart]
    rw [same]
    refine ⟨kept.search_iff.mpr ⟨?_,by rw [node,keyed]⟩,node⟩
    rcases linked with ⟨_,existing⟩ | ⟨_,perm⟩
    · rwa [existing]
    · exact perm.mem_iff.mpr (List.mem_cons_of_mem _ member)

theorem del_search {other n : Nat} (sound : Sound m) (found : hbSearchTree m other = some n)
    (apart : other ≠ task) : hbSearchTree (hbDelTaskFromTaskManager rb m task).1 other = some n := by
  have kept : Sound (hbDelTaskFromTaskManager rb m task).1 := del_sound rb sound
  obtain ⟨member,keyed⟩ := sound.search_iff.mp found
  rw [kept.search_iff,(del_members rb m task).1]
  refine ⟨?_,keyed⟩
  cases search : hbSearchTree m task with
  | none =>
    have same : hbSearchTree {m with taskCount := m.taskCount - 1} task = none := search
    simp only [hbDelTaskFromTaskManager,same]
    exact member
  | some gone =>
    obtain ⟨_,gonekey⟩ := sound.search_iff.mp search
    rw [del_regular rb search]
    simp only [rb.erase_toList]
    apply (List.mem_erase_of_ne _).mpr member
    rintro rfl
    exact apart (keyed.symm.trans gonekey)

theorem monitorStep_sound {s : MonitorState} (event : MonitorEvent) (sound : Sound s.manager) :
    Sound (monitorStep rb s event).manager := by
  cases event with
  | copy task => exact add_sound rb (s.kernel task) sound
  | add current task => exact (addTask_inPlace rb s current task).sound (add_sound rb (s.kernel task) sound)
  | del task => exact del_sound rb sound
  | syscall task syscallNumber => exact (syscall_inPlace s task syscallNumber).sound sound
  | commit task new => exact (commit_inPlace s task new).sound sound
  | guest kernel => exact sound

theorem monitorStart_sound (size : Nat) (kernel : Nat → TaskStruct) : Sound (monitorStart size kernel).manager :=
  (managed_empty size).sound

end Add

end HyperBox.Monitor
