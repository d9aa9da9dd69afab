import HyperBox.Monitor.AddTask

/-! Condemned thread groups. A check that condemns a group marks the nodes that the group has
in the tree at that time, so a thread whose node is added later escapes, unless its own
creation is what condemns the group. -/
namespace HyperBox.Monitor
open HyperBox.Library

section Groups
variable (rb : Balancing Nat)

/-- The groups for which an event calls `hb_set_exit_flag_in_list_with_lock`. -/
def condemnedBy (s : MonitorState) : MonitorEvent → List Int
  | .add current task =>
    match hbAddTaskToTaskManager rb s.manager task (s.kernel task) with
    | (_,none) => []
    | (m,some _) =>
      match hbSearchTree m current with
      | none => []
      | some n => if createsTasks (m.pool n).syscallNumber = false then [(s.kernel task).tgid] else []
  | .syscall task _ =>
    match hbSearchTree s.manager task with
    | none => []
    | some n =>
      let found := s.manager.pool n
      (if (checkProcess s.manager (s.kernel task) n).2 = -1 then [found.tgid] else []) ++
        if hbIsCredSame found.cred (s.kernel task).cred ≠ 0 then [found.tgid] else []
  | .commit task new =>
    match hbSearchTree s.manager task with
    | none => []
    | some n =>
      let found := s.manager.pool n
      if hbCheckSystemcallForCred found.syscallNumber ≠ 0 ∧ hbIsCredSame found.cred new ≠ 0
      then [(s.kernel task).tgid] else []
  | _ => []

/-- The monitor and the groups that have been condemned so far. -/
structure Trial where
  monitor : MonitorState
  condemned : List Int

def trialStep (t : Trial) (event : MonitorEvent) : Trial :=
  ⟨monitorStep rb t.monitor event,condemnedBy rb t.monitor event ++ t.condemned⟩

def trialStart (size : Nat) (kernel : Nat → TaskStruct) : Trial := ⟨monitorStart size kernel,[]⟩

/-- A syscall entry of a tracked task of a condemned group is refused. -/
def Obeyed (t : Trial) (event : MonitorEvent) : Prop :=
  ∀ task syscallNumber n, event = .syscall task syscallNumber → hbSearchTree t.monitor.manager task = some n →
    (t.monitor.manager.pool n).tgid ∈ t.condemned →
    (hbCallbackCheckCredUpdateSyscall t.monitor task syscallNumber).2 = -1

/-- No event links a new node for a task of a condemned group, unless it condemns the group
itself. -/
def NoLateThread (t : Trial) (event : MonitorEvent) : Prop :=
  ∀ task, (event = .copy task ∨ ∃ current, event = .add current task) →
    hbSearchTree t.monitor.manager task = none → t.monitor.manager.freeNodes ≠ [] →
    (t.monitor.kernel task).tgid ∈ t.condemned →
    (t.monitor.kernel task).tgid ∈ condemnedBy rb t.monitor event

def Flagged (condemned : List Int) (m : TaskManager) : Prop :=
  ∀ n ∈ m.existing.toList, (m.pool n).tgid ∈ condemned → (m.pool n).needExit = true

theorem InPlace.flagged {condemned : List Int} {m after : TaskManager} (inPlace : InPlace m after)
    (flagged : Flagged condemned m) : Flagged condemned after := by
  intro n member mine
  rw [inPlace.existing] at member
  rw [inPlace.tgid] at mine
  exact inPlace.needExit n (flagged n member mine)

theorem exitFlag_flagged {condemned : List Int} {m : TaskManager} (tgid : Int) (flagged : Flagged condemned m) :
    Flagged (tgid::condemned) (hbSetExitFlagInListWithLock m tgid) := by
  intro n member mine
  rw [exitFlag_existing] at member
  rw [exitFlag_tgid] at mine
  rcases List.mem_cons.mp mine with now | before
  · exact exitFlag_marked m tgid n member now
  · exact (inPlace_exitFlag m tgid).needExit n (flagged n member before)

theorem add_flagged {condemned : List Int} {m : TaskManager} {task : Nat} {info : TaskStruct} (sound : Sound m)
    (flagged : Flagged condemned m)
    (clear : hbSearchTree m task = none → m.freeNodes ≠ [] → info.tgid ∉ condemned) :
    Flagged condemned (hbAddTaskToTaskManager rb m task info).1 := by
  rcases add_cases rb info sound with ⟨_,same⟩ | ⟨n,after,fresh,same,pool,_,linked⟩
  · rw [same]
    exact flagged
  · have old : ∀ k ∈ m.existing.toList, after.pool k = m.pool k := by
      intro k member
      have other : k ≠ n := fun equal => fresh (equal ▸ member)
      rw [pool,TaskManager.setNode_pool_ne _ _ other]
    have free : m.freeNodes ≠ [] := by
      intro none
      simp [hbAddTaskToTaskManager,none] at same
    rw [same]
    intro k member mine
    rcases linked with ⟨_,existing⟩ | ⟨absent,perm⟩
    · rw [existing] at member
      rw [old k member] at mine ⊢
      exact flagged k member mine
    · rcases List.mem_cons.mp (perm.mem_iff.mp member) with rfl | before
      · rw [pool,TaskManager.setNode_pool_self] at mine
        exact absurd mine (clear absent free)
      · rw [old k before] at mine ⊢
        exact flagged k before mine

theorem del_flagged {condemned : List Int} {m : TaskManager} (task : Nat) (flagged : Flagged condemned m) :
    Flagged condemned (hbDelTaskFromTaskManager rb m task).1 := by
  obtain ⟨pool,members⟩ := del_members rb m task
  intro n member mine
  rw [pool] at mine ⊢
  exact flagged n (members n member) mine

theorem Flagged.mono {condemned more : List Int} {m : TaskManager} (flagged : Flagged more m)
    (fewer : ∀ tgid ∈ condemned, tgid ∈ more) : Flagged condemned m :=
  fun n member mine => flagged n member (fewer _ mine)

theorem checkProcess_flagged {condemned : List Int} {m : TaskManager} (task : TaskStruct) (n : Nat)
    (flagged : Flagged condemned m) :
    Flagged ((if (checkProcess m task n).2 = -1 then [(m.pool n).tgid] else []) ++ condemned)
      (checkProcess m task n).1 := by
  by_cases failed : (checkProcess m task n).2 = -1
  · rw [if_pos failed]
    have same : (checkProcess m task n).1 = hbSetExitFlagInListWithLock m (m.pool n).tgid := by
      unfold checkProcess at failed ⊢
      dsimp only at failed ⊢
      split_ifs at failed ⊢ <;> simp_all
    rw [same]
    exact exitFlag_flagged _ flagged
  · rw [if_neg failed]
    exact (checkProcess_inPlace m task n).flagged flagged

theorem checkCred_flagged {condemned : List Int} {m : TaskManager} (task : TaskStruct) (n : Nat) (ret : Int)
    (flagged : Flagged condemned m) :
    Flagged ((if hbIsCredSame (m.pool n).cred task.cred ≠ 0 then [(m.pool n).tgid] else []) ++ condemned)
      (checkCred m task n ret).1 := by
  by_cases differ : hbIsCredSame (m.pool n).cred task.cred ≠ 0
  · rw [if_pos differ,checkCred_condemns _ _ _ _ differ]
    exact exitFlag_flagged _ flagged
  · rw [if_neg differ]
    exact (checkCred_inPlace m task n ret).flagged flagged

theorem syscall_flagged {condemned : List Int} {s : MonitorState} (task : Nat) (syscallNumber : Int)
    (flagged : Flagged condemned s.manager) :
    Flagged (condemnedBy rb s (.syscall task syscallNumber) ++ condemned)
      (hbCallbackCheckCredUpdateSyscall s task syscallNumber).1.manager := by
  cases found : hbSearchTree s.manager task with
  | none =>
    simp only [hbCallbackCheckCredUpdateSyscall,condemnedBy,found]
    exact flagged
  | some n =>
    have record := entered_record s task n syscallNumber
    have checked := checkProcess_flagged (s.kernel task) n flagged
    have entered : Flagged ((if (checkProcess s.manager (s.kernel task) n).2 = -1
        then [(s.manager.pool n).tgid] else []) ++ condemned) (enteredManager s task n syscallNumber) := by
      unfold enteredManager
      generalize (checkProcess s.manager (s.kernel task) n).1 = m at checked
      exact (inPlace_syscall m n syscallNumber).flagged checked
    have judged := checkCred_flagged (s.kernel task) n (checkProcess s.manager (s.kernel task) n).2 entered
    rw [(record.2 n).1,(record.2 n).2] at judged
    rw [syscall_eq syscallNumber found]
    simp only [condemnedBy,found]
    apply judged.mono
    intro tgid member
    simp only [List.mem_append] at member ⊢
    tauto

theorem commit_flagged {condemned : List Int} {s : MonitorState} (task : Nat) (new : Cred)
    (flagged : Flagged condemned s.manager) :
    Flagged (condemnedBy rb s (.commit task new) ++ condemned) (hbCallbackUpdateCred s task new).1.manager := by
  cases found : hbSearchTree s.manager task with
  | none =>
    simp only [hbCallbackUpdateCred,condemnedBy,found]
    exact flagged
  | some n =>
    by_cases barred : hbCheckSystemcallForCred (s.manager.pool n).syscallNumber ≠ 0 ∧
        hbIsCredSame (s.manager.pool n).cred new ≠ 0
    · simp only [hbCallbackUpdateCred,condemnedBy,found,if_pos barred]
      exact exitFlag_flagged _ flagged
    · have none : condemnedBy rb s (.commit task new) = [] := by
        simp only [condemnedBy,found,if_neg barred]
      rw [none]
      exact (commit_inPlace s task new).flagged flagged

/-- A new thread of a condemned group is marked only when its own creation is disallowed. -/
theorem addTask_flagged {condemned : List Int} {s : MonitorState} {current task : Nat} (sound : Sound s.manager)
    (flagged : Flagged condemned s.manager)
    (clear : hbSearchTree s.manager task = none → s.manager.freeNodes ≠ [] →
      (s.kernel task).tgid ∈ condemned → (s.kernel task).tgid ∈ condemnedBy rb s (.add current task)) :
    Flagged (condemnedBy rb s (.add current task) ++ condemned) (hbCallbackAddTask rb s current task).manager := by
  by_cases quiet : condemnedBy rb s (.add current task) = []
  · rw [quiet] at clear ⊢
    apply (addTask_inPlace rb s current task).flagged
    apply add_flagged rb sound flagged
    intro absent free member
    exact absurd (clear absent free member) (by simp)
  · have other : Flagged (condemned.filter (· ≠ (s.kernel task).tgid))
        (hbAddTaskToTaskManager rb s.manager task (s.kernel task)).1 := by
      apply add_flagged rb sound
      · apply flagged.mono
        intro tgid member
        exact (List.mem_filter.mp member).1
      · simp
    simp only [condemnedBy,hbCallbackAddTask] at quiet ⊢
    generalize hbAddTaskToTaskManager rb s.manager task (s.kernel task) = result at other quiet ⊢
    obtain ⟨m,added⟩ := result
    cases added with
    | none => exact absurd rfl quiet
    | some added =>
      dsimp only at other quiet ⊢
      cases found : hbSearchTree m current with
      | none => simp [found] at quiet
      | some n =>
        by_cases disallowed : createsTasks (m.pool n).syscallNumber = false
        · simp only [if_pos disallowed]
          apply (exitFlag_flagged _ other).mono
          intro tgid member
          simp only [List.mem_cons,List.mem_filter,List.cons_append,List.nil_append] at member ⊢
          by_cases same : tgid = (s.kernel task).tgid
          · exact Or.inl same
          · rcases member with now | before
            · exact Or.inl now
            · exact Or.inr ⟨before,by simpa using same⟩
        · simp [found,disallowed] at quiet

structure TrialInv (t : Trial) : Prop where
  sound : Sound t.monitor.manager
  flagged : Flagged t.condemned t.monitor.manager

theorem trialStep_inv (t : Trial) (event : MonitorEvent) (inv : TrialInv t) (clear : NoLateThread rb t event) :
    TrialInv (trialStep rb t event) := by
  refine ⟨monitorStep_sound rb event inv.sound,?_⟩
  cases event with
  | copy task =>
    apply add_flagged rb inv.sound inv.flagged
    intro absent free member
    exact absurd (clear task (Or.inl rfl) absent free member) (by simp [condemnedBy])
  | add current task =>
    exact addTask_flagged rb inv.sound inv.flagged fun absent free member =>
      clear task (Or.inr ⟨current,rfl⟩) absent free member
  | del task => exact del_flagged rb task inv.flagged
  | syscall task syscallNumber => exact syscall_flagged rb task syscallNumber inv.flagged
  | commit task new => exact commit_flagged rb task new inv.flagged
  | guest kernel => exact inv.flagged

theorem syscall_refused {s : MonitorState} {task n : Nat} (syscallNumber : Int)
    (found : hbSearchTree s.manager task = some n) (marked : (s.manager.pool n).needExit = true) :
    (hbCallbackCheckCredUpdateSyscall s task syscallNumber).2 = -1 := by
  have entered := (entered_inPlace s task n syscallNumber).needExit n marked
  rw [syscall_eq syscallNumber found]
  simp only [checkCred,entered]
  split_ifs <;> rfl

/-- In every run of callbacks in which no late thread joins a condemned group, every syscall
entry of a tracked task of a condemned group is refused. -/
theorem condemned_group_refused (size : Nat) (kernel : Nat → TaskStruct) (events : List MonitorEvent)
    (clear : Along (trialStep rb) (NoLateThread rb) (trialStart size kernel) events) :
    Along (trialStep rb) Obeyed (trialStart size kernel) events := by
  apply clear.mono TrialInv (trialStep_inv rb)
  · intro t event inv _ task syscallNumber n _ found condemned
    obtain ⟨member,_⟩ := inv.sound.search_iff.mp found
    exact syscall_refused syscallNumber found (inv.flagged n member condemned)
  · exact ⟨monitorStart_sound size kernel,fun n member => by cases member⟩

def sampleThread (pid : Int) (ids : Cred) : TaskStruct := ⟨pid,7,[],ids,0,1,0,[]⟩

def userIds : Cred := ⟨1000,1000,1000,1000,1000,1000,1000,1000⟩

/-- Three threads of the group 7; the ids of the second one have been set to 0. -/
def sampleGroup (task : Nat) : TaskStruct :=
  if task = 2 then sampleThread 8 {userIds with uid := 0}
  else sampleThread (task+6) userIds

theorem condemned_group_refused_example :
    Along (trialStep (Balancing.plain Nat)) Obeyed (trialStart 4 fun _ => sampleThread 7 userIds)
      [.copy 1,.copy 2,.guest sampleGroup,.syscall 2 0,.syscall 1 0] := by
  apply condemned_group_refused
  refine ⟨?_,?_,?_,?_,?_,trivial⟩
  all_goals
    intro task added
    rcases added with equal | ⟨_,equal⟩
  all_goals cases equal
  all_goals
    intro _ _ member
    exact absurd member (by decide)

/-- The first thread is inside `clone` while a check of the second condemns the group. The
new thread is added after that, and its first syscall entry is let through. -/
theorem late_thread_passes :
    ¬ Along (trialStep (Balancing.plain Nat)) Obeyed (trialStart taskNodeMax fun _ => sampleThread 7 userIds)
      [.copy 1,.copy 2,.syscall 1 Nr.clone,.guest sampleGroup,.syscall 2 0,.add 1 3,.syscall 3 0] := by
  intro ⟨_,_,_,_,_,_,obeyed,_⟩
  have refused := obeyed 3 0 4194301 rfl rfl (by decide)
  exact absurd refused (by decide)

end Groups

end HyperBox.Monitor
