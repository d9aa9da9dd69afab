import HyperBox.Library.Parity
import HyperBox.Monitor.TaskManager

/-! The credential guard: the check at every syscall entry and the check inside
`commit_creds`, as steps of a system that also lets an attacker overwrite the
ids of any live task. Log lines are left out; signals are kept, latest first. -/
namespace HyperBox.Monitor
open HyperBox.Library

structure MonitorState where
  manager : TaskManager
  kernel : Nat → TaskStruct
  killed : List Nat

def hbSetExitFlagInListWithLock (m : TaskManager) (tgid : Int) : TaskManager :=
  m.existing.toList.foldl (fun m n =>
    if (m.pool n).tgid = tgid then m.setNode n {m.pool n with needExit := true} else m) m

/-- The ids of `new` are put back to the recorded ones on the rejecting path;
`current` is the checked task. -/
def hbCallbackUpdateCred (s : MonitorState) (task : Nat) (new : Cred) : MonitorState × Cred :=
  match hbSearchTree s.manager task with
  | none => (s,new)
  | some n =>
    let found := s.manager.pool n
    if hbCheckSystemcallForCred found.syscallNumber ≠ 0 ∧ hbIsCredSame found.cred new ≠ 0 then
      ({s with
        manager := hbSetExitFlagInListWithLock s.manager (s.kernel task).tgid
        killed := task::s.killed},
        ⟨found.cred.uid,found.cred.gid,found.cred.suid,found.cred.sgid,
          found.cred.euid,found.cred.egid,found.cred.fsuid,found.cred.fsgid⟩)
    else
      let comm := if found.syscallNumber = Nr.execve ∧ new.uid < 1000 then (s.kernel task).comm
        else found.comm
      ({s with manager := s.manager.setNode n {found with comm := comm, cred := new}},new)

/-- The first part of the syscall check: was the process replaced by an `execve`
it may not do, or created abnormally? The second component is `ret`. -/
def checkProcess (m : TaskManager) (task : TaskStruct) (n : Nat) : TaskManager × Int :=
  let found := m.pool n
  if found.syscallNumber = Nr.execve ∨ found.syscallNumber = Nr.execveat then
    if found.needTrace = false then
      (m.setNode n {found with mm := task.mm, comm := task.comm},0)
    else (hbSetExitFlagInListWithLock m found.tgid,-1)
  else if found.mm ≠ task.mm then
    if needsWorkaround task then (m.setNode n {found with mm := task.mm},0)
    else (hbSetExitFlagInListWithLock m found.tgid,-1)
  else (m,0)

def checkCred (m : TaskManager) (task : TaskStruct) (n : Nat) (ret : Int) : TaskManager × Int :=
  let found := m.pool n
  if hbIsCredSame found.cred task.cred ≠ 0 then (hbSetExitFlagInListWithLock m found.tgid,-1)
  else if found.needExit then (m,-1)
  else (m,ret)

def hbCallbackCheckCredUpdateSyscall (s : MonitorState) (task : Nat) (syscallNumber : Int) :
    MonitorState × Int :=
  match hbSearchTree s.manager task with
  | none => (s,0)
  | some n =>
    let (m,ret) := checkProcess s.manager (s.kernel task) n
    let m := m.setNode n {m.pool n with syscallNumber := syscallNumber}
    let (m,ret) := checkCred m (s.kernel task) n ret
    ({s with manager := m, killed := if ret = -1 then task::s.killed else s.killed},ret)

inductive CredEvent where
  | syscall (task : Nat) (syscallNumber : Int)
  | commit (task : Nat) (new : Cred)
  | overwrite (task : Nat) (ids : Cred)

def MonitorState.setCred (s : MonitorState) (task : Nat) (cred : Cred) : MonitorState :=
  {s with kernel := fun t => if t = task then {s.kernel t with cred := cred} else s.kernel t}

/-- After its check the guest resumes in `commit_creds`, which installs the
credentials the check left. -/
def credStep (s : MonitorState) : CredEvent → MonitorState
  | .syscall task syscallNumber => (hbCallbackCheckCredUpdateSyscall s task syscallNumber).1
  | .commit task new =>
    (hbCallbackUpdateCred s task new).1.setCred task (hbCallbackUpdateCred s task new).2
  | .overwrite task ids => s.setCred task ids

/-- What the guard promises of one step: recorded ids move only in an allowed
`commit_creds`, a disallowed one is undone, and differing ids at a syscall entry
condemn the thread group. -/
structure Guarded (s : MonitorState) (event : CredEvent) : Prop where
  recorded : ∀ n ∈ s.manager.existing.toList,
    ((credStep s event).manager.pool n).cred ≠ (s.manager.pool n).cred →
    ∃ task new, event = .commit task new ∧ hbSearchTree s.manager task = some n ∧
      hbCheckSystemcallForCred (s.manager.pool n).syscallNumber = 0
  disallowed : ∀ task new n, event = .commit task new → hbSearchTree s.manager task = some n →
    hbCheckSystemcallForCred (s.manager.pool n).syscallNumber ≠ 0 →
    ((credStep s event).manager.pool n).cred = (s.manager.pool n).cred ∧
      (hbCallbackUpdateCred s task new).2 = (s.manager.pool n).cred
  condemned : ∀ task syscallNumber n, event = .syscall task syscallNumber →
    hbSearchTree s.manager task = some n → (s.kernel task).cred ≠ (s.manager.pool n).cred →
    (hbCallbackCheckCredUpdateSyscall s task syscallNumber).2 = -1 ∧
      (credStep s event).killed = task::s.killed ∧
      ∀ k ∈ (credStep s event).manager.existing.toList,
        ((credStep s event).manager.pool k).tgid = (s.manager.pool n).tgid →
        ((credStep s event).manager.pool k).needExit = true

def idDifference (a b : Cred) : Kid :=
  (a.uid ^^^ b.uid) ^^^ (a.gid ^^^ b.gid) ^^^ (a.suid ^^^ b.suid) ^^^ (a.sgid ^^^ b.sgid) ^^^
    (a.euid ^^^ b.euid) ^^^ (a.egid ^^^ b.egid) ^^^ (a.fsuid ^^^ b.fsuid) ^^^ (a.fsgid ^^^ b.fsgid)

/-- The differences do not cancel each other out. -/
def Telling (a b : Cred) : Prop := a ≠ b → idDifference a b ≠ 0

instance (a b : Cred) : Decidable (Telling a b) := inferInstanceAs (Decidable (_ → _))

/-- The steps whose ids, when they differ from the recorded ones, differ visibly. -/
def NoCancel (s : MonitorState) : CredEvent → Prop
  | .syscall task _ => ∀ n, hbSearchTree s.manager task = some n →
    Telling (s.manager.pool n).cred (s.kernel task).cred
  | .commit task new => ∀ n, hbSearchTree s.manager task = some n →
    hbCheckSystemcallForCred (s.manager.pool n).syscallNumber ≠ 0 →
    Telling (s.manager.pool n).cred new
  | .overwrite _ _ => True

theorem hbIsCredSame_eq_zero (a b : Cred) : hbIsCredSame a b = 0 ↔ idDifference a b = 0 := by
  have reorder : b.uid ^^^ a.uid ^^^ b.gid ^^^ a.gid ^^^ b.suid ^^^ a.suid ^^^ b.sgid ^^^ a.sgid ^^^
      b.euid ^^^ a.euid ^^^ b.egid ^^^ a.egid ^^^ b.fsuid ^^^ a.fsuid ^^^ b.fsgid ^^^ a.fsgid =
      idDifference a b := by
    unfold idDifference
    ac_rfl
  unfold hbIsCredSame
  rw [reorder]
  split <;> simp_all

section Ids
variable (new old : Cred)

/-- The comparison that `hb_is_cred_same` keeps in its comment. -/
def hbIsCredSameByField : Int :=
  if old.uid ≠ new.uid ∨ old.gid ≠ new.gid ∨ old.suid ≠ new.suid ∨ old.sgid ≠ new.sgid ∨
      old.euid ≠ new.euid ∨ old.egid ≠ new.egid ∨ old.fsuid ≠ new.fsuid ∨ old.fsgid ≠ new.fsgid then -1 else 0

def idDifferences : List Kid :=
  [new.uid ^^^ old.uid,new.gid ^^^ old.gid,new.suid ^^^ old.suid,new.sgid ^^^ old.sgid,
    new.euid ^^^ old.euid,new.egid ^^^ old.egid,new.fsuid ^^^ old.fsuid,new.fsgid ^^^ old.fsgid]

/-- In this bit an odd number of the eight ids differ. -/
def OddlyDiffers (bit : Nat) : Prop := bitCount (idDifferences new old) bit % 2 = 1

theorem hbIsCredSame_parity : hbIsCredSame new old = 0 ↔ ∀ bit < 32, ¬ OddlyDiffers new old bit := by
  have folded : idDifference new old = xorAll (idDifferences new old) := by
    simp only [idDifference,xorAll,idDifferences,List.foldr_cons,List.foldr_nil]
    rw [BitVec.ofNat_eq_ofNat,BitVec.xor_zero]
    ac_rfl
  rw [hbIsCredSame_eq_zero,folded,xorAll_eq_zero]
  apply forall_congr'
  intro bit
  apply forall_congr'
  intro _
  rw [OddlyDiffers]
  omega

theorem hbIsCredSameByField_eq_zero : hbIsCredSameByField new old = 0 ↔ new = old := by
  unfold hbIsCredSameByField
  constructor
  · intro same
    split at same
    next => cases same
    next all =>
      push Not at all
      obtain ⟨uid,gid,suid,sgid,euid,egid,fsuid,fsgid⟩ := all
      cases new
      cases old
      simp_all
  · intro same
    simp [same]

/-- The XOR agrees with the comparison field by field exactly when the ids are the same or
some bit differs in an odd number of them. -/
theorem hbIsCredSame_agrees_iff :
    ((hbIsCredSame new old = 0 ↔ new.uid = old.uid ∧ new.gid = old.gid ∧ new.suid = old.suid ∧
        new.sgid = old.sgid ∧ new.euid = old.euid ∧ new.egid = old.egid ∧ new.fsuid = old.fsuid ∧
        new.fsgid = old.fsgid) ∧
      hbIsCredSame new old = hbIsCredSameByField new old) ↔
    (new = old ∨ ∃ bit < 32, OddlyDiffers new old bit) := by
  have fields : (new.uid = old.uid ∧ new.gid = old.gid ∧ new.suid = old.suid ∧ new.sgid = old.sgid ∧
      new.euid = old.euid ∧ new.egid = old.egid ∧ new.fsuid = old.fsuid ∧ new.fsgid = old.fsgid) ↔ new = old := by
    cases new
    cases old
    simp
  have results : hbIsCredSame new old = hbIsCredSameByField new old ↔
      (hbIsCredSame new old = 0 ↔ hbIsCredSameByField new old = 0) := by
    unfold hbIsCredSame hbIsCredSameByField
    split <;> split <;> simp
  rw [results,fields,hbIsCredSameByField_eq_zero,and_self,hbIsCredSame_parity]
  constructor
  · intro agrees
    by_cases same : new = old
    · exact Or.inl same
    · right
      by_contra even
      push Not at even
      exact same (agrees.mp even)
  · intro tells
    constructor
    · intro even
      rcases tells with same | ⟨bit,bound,odd⟩
      · exact same
      · exact absurd odd (even bit bound)
    · intro same
      rw [← hbIsCredSame_parity,same,hbIsCredSame_eq_zero]
      simp [idDifference]

/-- The exploit of the README, run by an ordinary user: six ids become 0 and the test sees nothing. -/
theorem hbIsCredSame_misses :
    ¬ ∀ new old : Cred, (hbIsCredSame new old = 0 ↔ new.uid = old.uid ∧ new.gid = old.gid ∧ new.suid = old.suid ∧
        new.sgid = old.sgid ∧ new.euid = old.euid ∧ new.egid = old.egid ∧ new.fsuid = old.fsuid ∧
        new.fsgid = old.fsgid) ∧
      hbIsCredSame new old = hbIsCredSameByField new old := by
  intro claim
  have agrees := claim ⟨0,0,0,0,0,0,1000,1000⟩ ⟨1000,1000,1000,1000,1000,1000,1000,1000⟩
  exact absurd agrees.2 (by decide)

end Ids

theorem Telling.detects {a b : Cred} (telling : Telling a b) (differ : a ≠ b) :
    hbIsCredSame a b ≠ 0 :=
  fun same => telling differ ((hbIsCredSame_eq_zero a b).mp same)

section ExitFlag

theorem setExitFlag_node (tgid : Int) (nodes : List Nat) (m : TaskManager) (n : Nat) :
    ∃ flag, (nodes.foldl (fun m n =>
        if (m.pool n).tgid = tgid then m.setNode n {m.pool n with needExit := true} else m) m).pool n =
      {m.pool n with needExit := flag} ∧ ((m.pool n).needExit = true → flag = true) ∧
      (n ∈ nodes → (m.pool n).tgid = tgid → flag = true) := by
  induction nodes generalizing m with
  | nil => exact ⟨(m.pool n).needExit,rfl,id,by simp⟩
  | cons k rest ih =>
    simp only [List.foldl_cons]
    by_cases mine : (m.pool k).tgid = tgid
    · obtain ⟨flag,same,kept,marked⟩ := ih (m.setNode k {m.pool k with needExit := true})
      rw [if_pos mine]
      by_cases here : n = k
      · subst here
        simp only [TaskManager.setNode_pool_self] at same kept marked
        exact ⟨flag,same,fun _ => kept trivial,fun _ _ => kept trivial⟩
      · rw [TaskManager.setNode_pool_ne _ _ here] at same kept marked
        exact ⟨flag,same,kept,by simpa [here] using marked⟩
    · obtain ⟨flag,same,kept,marked⟩ := ih m
      rw [if_neg mine]
      refine ⟨flag,same,kept,fun member equal => ?_⟩
      rcases List.mem_cons.mp member with rfl | inside
      · exact (mine equal).elim
      · exact marked inside equal

theorem setExitFlag_existing (tgid : Int) (nodes : List Nat) (m : TaskManager) :
    (nodes.foldl (fun m n =>
      if (m.pool n).tgid = tgid then m.setNode n {m.pool n with needExit := true} else m) m).existing =
      m.existing := by
  induction nodes generalizing m with
  | nil => rfl
  | cons k rest ih =>
    simp only [List.foldl_cons]
    rw [ih]
    split <;> rfl

theorem exitFlag_existing (m : TaskManager) (tgid : Int) :
    (hbSetExitFlagInListWithLock m tgid).existing = m.existing :=
  setExitFlag_existing tgid _ m

theorem exitFlag_cred (m : TaskManager) (tgid : Int) (n : Nat) :
    ((hbSetExitFlagInListWithLock m tgid).pool n).cred = (m.pool n).cred := by
  obtain ⟨flag,same,_⟩ := setExitFlag_node tgid m.existing.toList m n
  simp [hbSetExitFlagInListWithLock,same]

theorem exitFlag_tgid (m : TaskManager) (tgid : Int) (n : Nat) :
    ((hbSetExitFlagInListWithLock m tgid).pool n).tgid = (m.pool n).tgid := by
  obtain ⟨flag,same,_⟩ := setExitFlag_node tgid m.existing.toList m n
  simp [hbSetExitFlagInListWithLock,same]

theorem exitFlag_marked (m : TaskManager) (tgid : Int) (n : Nat) (member : n ∈ m.existing.toList)
    (mine : (m.pool n).tgid = tgid) : ((hbSetExitFlagInListWithLock m tgid).pool n).needExit = true := by
  obtain ⟨flag,same,_,marked⟩ := setExitFlag_node tgid m.existing.toList m n
  simp [hbSetExitFlagInListWithLock,same,marked member mine]

end ExitFlag

def SameRecord (m m' : TaskManager) : Prop :=
  m'.existing = m.existing ∧ ∀ n, (m'.pool n).cred = (m.pool n).cred ∧
    (m'.pool n).tgid = (m.pool n).tgid

theorem SameRecord.refl (m : TaskManager) : SameRecord m m := ⟨rfl,fun _ => ⟨rfl,rfl⟩⟩

theorem SameRecord.trans {m₁ m₂ m₃ : TaskManager} (first : SameRecord m₁ m₂)
    (second : SameRecord m₂ m₃) : SameRecord m₁ m₃ :=
  ⟨second.1.trans first.1,fun n => ⟨(second.2 n).1.trans (first.2 n).1,
    (second.2 n).2.trans (first.2 n).2⟩⟩

theorem sameRecord_exitFlag (m : TaskManager) (tgid : Int) :
    SameRecord m (hbSetExitFlagInListWithLock m tgid) :=
  ⟨exitFlag_existing m tgid,fun n => ⟨exitFlag_cred m tgid n,exitFlag_tgid m tgid n⟩⟩

theorem sameRecord_setNode (m : TaskManager) (n : Nat) (node : TaskNode)
    (cred : node.cred = (m.pool n).cred) (tgid : node.tgid = (m.pool n).tgid) :
    SameRecord m (m.setNode n node) := by
  refine ⟨rfl,fun k => ?_⟩
  by_cases here : k = n
  · subst here
    simp [cred,tgid]
  · simp [TaskManager.setNode_pool_ne _ _ here]

theorem checkProcess_record (m : TaskManager) (task : TaskStruct) (n : Nat) :
    SameRecord m (checkProcess m task n).1 := by
  unfold checkProcess
  dsimp only
  split_ifs
  · exact sameRecord_setNode m n _ rfl rfl
  · exact sameRecord_exitFlag m _
  · exact sameRecord_setNode m n _ rfl rfl
  · exact sameRecord_exitFlag m _
  · exact .refl m

theorem checkCred_record (m : TaskManager) (task : TaskStruct) (n : Nat) (ret : Int) :
    SameRecord m (checkCred m task n ret).1 := by
  unfold checkCred
  dsimp only
  split_ifs
  · exact sameRecord_exitFlag m _
  · exact .refl m
  · exact .refl m

theorem checkCred_condemns (m : TaskManager) (task : TaskStruct) (n : Nat) (ret : Int)
    (differ : hbIsCredSame (m.pool n).cred task.cred ≠ 0) :
    checkCred m task n ret = (hbSetExitFlagInListWithLock m (m.pool n).tgid,-1) := by
  simp [checkCred,differ]

def enteredManager (s : MonitorState) (task n : Nat) (syscallNumber : Int) : TaskManager :=
  let m := (checkProcess s.manager (s.kernel task) n).1
  m.setNode n {m.pool n with syscallNumber := syscallNumber}

theorem entered_record (s : MonitorState) (task n : Nat) (syscallNumber : Int) :
    SameRecord s.manager (enteredManager s task n syscallNumber) :=
  (checkProcess_record s.manager (s.kernel task) n).trans (sameRecord_setNode _ n _ rfl rfl)

theorem syscall_eq {s : MonitorState} {task n : Nat} (syscallNumber : Int)
    (found : hbSearchTree s.manager task = some n) :
    hbCallbackCheckCredUpdateSyscall s task syscallNumber =
      let checked := checkCred (enteredManager s task n syscallNumber) (s.kernel task) n
        (checkProcess s.manager (s.kernel task) n).2
      ({s with
        manager := checked.1
        killed := if checked.2 = -1 then task::s.killed else s.killed},checked.2) := by
  simp only [hbCallbackCheckCredUpdateSyscall,found]
  rfl

theorem syscall_record (s : MonitorState) (task : Nat) (syscallNumber : Int) :
    SameRecord s.manager (hbCallbackCheckCredUpdateSyscall s task syscallNumber).1.manager := by
  cases found : hbSearchTree s.manager task with
  | none =>
    simp only [hbCallbackCheckCredUpdateSyscall,found]
    exact .refl _
  | some n =>
    rw [syscall_eq syscallNumber found]
    exact (entered_record s task n syscallNumber).trans (checkCred_record _ _ _ _)

theorem syscall_condemns {s : MonitorState} {task n : Nat} (syscallNumber : Int)
    (found : hbSearchTree s.manager task = some n)
    (telling : Telling (s.manager.pool n).cred (s.kernel task).cred)
    (differ : (s.kernel task).cred ≠ (s.manager.pool n).cred) :
    (hbCallbackCheckCredUpdateSyscall s task syscallNumber).2 = -1 ∧
      (hbCallbackCheckCredUpdateSyscall s task syscallNumber).1.killed = task::s.killed ∧
      ∀ k ∈ (hbCallbackCheckCredUpdateSyscall s task syscallNumber).1.manager.existing.toList,
        ((hbCallbackCheckCredUpdateSyscall s task syscallNumber).1.manager.pool k).tgid =
          (s.manager.pool n).tgid →
        ((hbCallbackCheckCredUpdateSyscall s task syscallNumber).1.manager.pool k).needExit = true := by
  have record := entered_record s task n syscallNumber
  have seen : hbIsCredSame ((enteredManager s task n syscallNumber).pool n).cred
      (s.kernel task).cred ≠ 0 := by
    rw [(record.2 n).1]
    exact telling.detects (Ne.symm differ)
  rw [syscall_eq syscallNumber found,checkCred_condemns _ _ _ _ seen]
  refine ⟨rfl,by simp,fun k member mine => ?_⟩
  rw [exitFlag_existing] at member
  rw [exitFlag_tgid] at mine
  exact exitFlag_marked _ _ _ member (by rw [mine,(record.2 n).2])

theorem commit_untracked {s : MonitorState} {task : Nat} (new : Cred)
    (missing : hbSearchTree s.manager task = none) : hbCallbackUpdateCred s task new = (s,new) := by
  simp [hbCallbackUpdateCred,missing]

theorem commit_disallowed {s : MonitorState} {task n : Nat} {new : Cred}
    (found : hbSearchTree s.manager task = some n)
    (barred : hbCheckSystemcallForCred (s.manager.pool n).syscallNumber ≠ 0)
    (telling : Telling (s.manager.pool n).cred new) :
    (∀ k, ((hbCallbackUpdateCred s task new).1.manager.pool k).cred = (s.manager.pool k).cred) ∧
      (hbCallbackUpdateCred s task new).2 = (s.manager.pool n).cred := by
  by_cases same : (s.manager.pool n).cred = new
  · have quiet : ¬ (hbCheckSystemcallForCred (s.manager.pool n).syscallNumber ≠ 0 ∧
        hbIsCredSame (s.manager.pool n).cred new ≠ 0) := by
      rw [same,not_and_not_right]
      exact fun _ => (hbIsCredSame_eq_zero new new).mpr (by simp [idDifference])
    simp only [hbCallbackUpdateCred,found,if_neg quiet]
    refine ⟨fun k => ?_,same.symm⟩
    by_cases here : k = n
    · subst here
      simp [same]
    · simp [TaskManager.setNode_pool_ne _ _ here]
  · have seen := telling.detects same
    simp only [hbCallbackUpdateCred,found,if_pos (And.intro barred seen)]
    exact ⟨fun k => exitFlag_cred _ _ _,trivial⟩

theorem commit_other {s : MonitorState} {task n k : Nat} {new : Cred}
    (found : hbSearchTree s.manager task = some n) (other : k ≠ n) :
    ((hbCallbackUpdateCred s task new).1.manager.pool k).cred = (s.manager.pool k).cred := by
  simp only [hbCallbackUpdateCred,found]
  split
  · exact exitFlag_cred _ _ _
  · simp [TaskManager.setNode_pool_ne _ _ other]

theorem commit_recorded {s : MonitorState} {task k : Nat} {new : Cred}
    (telling : NoCancel s (.commit task new))
    (moved : ((hbCallbackUpdateCred s task new).1.manager.pool k).cred ≠ (s.manager.pool k).cred) :
    hbSearchTree s.manager task = some k ∧
      hbCheckSystemcallForCred (s.manager.pool k).syscallNumber = 0 := by
  cases found : hbSearchTree s.manager task with
  | none => exact (moved (by rw [commit_untracked new found])).elim
  | some n =>
    have here : k = n := by
      by_contra other
      exact moved (commit_other found other)
    subst here
    refine ⟨rfl,?_⟩
    by_contra barred
    exact moved ((commit_disallowed found barred (telling k found barred)).1 k)

theorem guarded_step (s : MonitorState) (event : CredEvent) (telling : NoCancel s event) :
    Guarded s event := by
  cases event with
  | syscall task syscallNumber =>
    refine ⟨fun n _ moved => ?_,by simp,?_⟩
    · exact (moved ((syscall_record s task syscallNumber).2 n).1).elim
    · rintro _ _ n ⟨⟩ found differ
      exact syscall_condemns syscallNumber found (telling n found) differ
  | commit task new =>
    refine ⟨fun n _ moved => ?_,?_,by simp⟩
    · obtain ⟨found,allowed⟩ := commit_recorded telling moved
      exact ⟨task,new,rfl,found,allowed⟩
    · rintro _ _ n ⟨⟩ found barred
      obtain ⟨kept,restored⟩ := commit_disallowed found barred (telling n found barred)
      exact ⟨kept n,restored⟩
  | overwrite task ids => exact ⟨fun n _ moved => (moved rfl).elim,by simp,by simp⟩

/-- Every step of every run in which differing ids never cancel is guarded. -/
theorem cred_run_guarded (s : MonitorState) (events : List CredEvent)
    (telling : Along credStep NoCancel s events) : Along credStep Guarded s events :=
  telling.mono (fun _ => True) (fun _ _ _ _ => trivial)
    (fun s event _ holds => guarded_step s event holds) trivial

def sampleMonitor : MonitorState where
  manager := (hbAddTaskToTaskManager (Balancing.plain Nat) (hbPrepareMonitor 2) 7 sampleTask).1
  kernel := fun _ => sampleTask
  killed := []

theorem cred_run_guarded_uid :
    Along credStep Guarded sampleMonitor
      [.overwrite 7 ⟨0,1000,1000,1000,1000,1000,1000,1000⟩,.syscall 7 39] :=
  cred_run_guarded _ _ ⟨trivial,fun n found => by
    obtain rfl : 1 = n := Option.some.inj found
    decide,trivial⟩

/-- The privilege escalation of the README sets six ids to 0: an even number of
equal differences cancels, and the next syscall entry lets the task pass. -/
theorem cred_run_unguarded :
    ¬ Along credStep Guarded sampleMonitor
      [.overwrite 7 ⟨0,0,0,0,0,0,1000,1000⟩,.syscall 7 39] := by
  rintro ⟨_,guarded,_⟩
  have condemned := guarded.condemned 7 39 1 rfl rfl (by decide)
  exact absurd condemned.1 (by decide)

end HyperBox.Monitor
