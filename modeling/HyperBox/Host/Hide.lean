import HyperBox.Ept.Violation

/-! Hiding the module while all cores take exits. `hb_start` announces that the pages are still to
be hidden, launches the cores, and in the end notes the time and allows the hide. Each exit looks
at the flag and then at the time, and takes the announcement by a compare-and-exchange; the core that
got it hides the pages and withdraws the permission. `Ept.hideStep` does all of this in one step. -/
namespace HyperBox.Host
open HyperBox.Library HyperBox.PageTable HyperBox.Ept

/-- How far a core is in the hide. `off` is a core that is not in VMX operation. -/
inductive HideStage where
  | off
  | guest
  | looked
  | passed (jiffies : U64)
  | won
  | hid
deriving DecidableEq

/-- How far `hb_start` is. It waits for its threads between `waiting` and `stamped`. -/
inductive StartStage where
  | idle
  | marked
  | waiting
  | stamped
deriving DecidableEq

/-- A start and an exit as one step each. -/
inductive HideCall where
  | starts
  | started (jiffies : U64)
  | exits (jiffies : U64)

structure HideState (n : Nat) where
  shared : ExitState
  start : StartStage
  core : Fin n → HideStage
  calls : List HideCall

inductive HideEvent (n : Nat) where
  | mark
  | clear
  | launch (core : Fin n)
  | fail
  | stamp (jiffies : U64)
  | permit
  | suspend (core : Fin n)
  | look (core : Fin n) (jiffies : U64)
  | time (core : Fin n) (jiffies : U64)
  | exchange (core : Fin n)
  | protect (core : Fin n)
  | withdraw (core : Fin n)

section Steps
variable {ramEnd n : Nat} (env : ExitEnv ramEnd)

/-- An exit, of which `hideStep` looks at the time alone. -/
def exitAt (jiffies : U64) : Exit := ⟨0,jiffies,0,0,.nested⟩

def Late (jiffies since : U64) : Prop := hyperBoxHideTimeBufferMs ≤ env.jiffiesToMsecs (jiffies - since)

instance (jiffies since : U64) : Decidable (Late env jiffies since) := inferInstanceAs (Decidable (_ ≤ _))

def hidePages (s : ExitState) : ExitState :=
  { s with mem := hbProtectMonitorData env (hbProtectHyperBoxModule env .hide s.mem) }

def callStep (s : ExitState) : HideCall → ExitState
  | .starts => { s with needInitInSecure := true, allowHyperBoxHide := false }
  | .started jiffies => { s with initInSecureJiffies := jiffies, allowHyperBoxHide := true }
  | .exits jiffies => hideStep env (exitAt jiffies) s

namespace HideState
variable (s : HideState n)

def setStart (start : StartStage) : HideState n := { s with start }
def setCore (core : Fin n) (stage : HideStage) : HideState n := { s with core := Function.update s.core core stage }
def setShared (shared : ExitState) : HideState n := { s with shared }
def call (call : HideCall) : HideState n := { s with calls := s.calls ++ [call] }

/-- At load, or after a sleep; the cores may be in VMX operation. -/
def mark : HideState n :=
  if s.start = .idle then
    ((s.setShared { s.shared with needInitInSecure := true }).setStart .marked).call .starts
  else s

def clear : HideState n :=
  if s.start = .marked then (s.setShared { s.shared with allowHyperBoxHide := false }).setStart .waiting else s

def launch (core : Fin n) : HideState n :=
  if s.start = .waiting ∧ s.core core = .off then s.setCore core .guest else s

def fail : HideState n := if s.start = .waiting then s.setStart .idle else s

def stamp (jiffies : U64) : HideState n :=
  if s.start = .waiting then (s.setShared { s.shared with initInSecureJiffies := jiffies }).setStart .stamped else s

def permit : HideState n :=
  if s.start = .stamped then
    ((s.setShared { s.shared with allowHyperBoxHide := true }).setStart .idle).call (.started s.shared.initInSecureJiffies)
  else s

def suspend (core : Fin n) : HideState n := if s.core core = .guest then s.setCore core .off else s

/-- The flag. An exit that finds it clear does not ask for the time, which only goes on record. -/
def look (core : Fin n) (jiffies : U64) : HideState n :=
  if s.core core = .guest then
    if s.shared.allowHyperBoxHide then s.setCore core .looked else s.call (.exits jiffies)
  else s

def time (core : Fin n) (jiffies : U64) : HideState n :=
  if s.core core = .looked then
    if Late env jiffies s.shared.initInSecureJiffies then s.setCore core (.passed jiffies)
    else (s.setCore core .guest).call (.exits jiffies)
  else s

/-- `atomic_cmpxchg(&g_need_init_in_secure, 1, 0)` -/
def exchange (core : Fin n) : HideState n :=
  match s.core core with
  | .passed jiffies =>
    if s.shared.needInitInSecure then
      ((s.setShared { s.shared with needInitInSecure := false }).setCore core .won).call (.exits jiffies)
    else (s.setCore core .guest).call (.exits jiffies)
  | _ => s

def protect (core : Fin n) : HideState n :=
  if s.core core = .won then (s.setShared (hidePages env s.shared)).setCore core .hid else s

def withdraw (core : Fin n) : HideState n :=
  if s.core core = .hid then (s.setShared { s.shared with allowHyperBoxHide := false }).setCore core .guest else s

def step : HideEvent n → HideState n
  | .mark => s.mark
  | .clear => s.clear
  | .launch core => s.launch core
  | .fail => s.fail
  | .stamp jiffies => s.stamp jiffies
  | .permit => s.permit
  | .suspend core => s.suspend core
  | .look core jiffies => s.look core jiffies
  | .time core jiffies => s.time env core jiffies
  | .exchange core => s.exchange core
  | .protect core => s.protect env core
  | .withdraw core => s.withdraw core

end HideState

/-- A start begins with every core outside the code of the hide, and no exit looks at the flag
before the start has cleared it. So it is when no core is in VMX operation. -/
def ClearOfHide (s : HideState n) (event : HideEvent n) : Prop :=
  (event = .mark → ∀ core, s.core core = .off ∨ s.core core = .guest) ∧
    (s.start = .marked → ∀ core jiffies, event ≠ .look core jiffies)

/-- The module is loaded, `hb_start` was not called yet: the flags have their first values. -/
def loadedShared (s : ExitState) : ExitState := { s with needInitInSecure := true, allowHyperBoxHide := false }

def loaded (n : Nat) (s : ExitState) : HideState n := ⟨loadedShared s,.idle,fun _ => .off,[]⟩

/-- `hb_is_valid_vm_status` -/
def hbIsValidVmStatus (s : ExitState) : Bool := !s.needInitInSecure

end Steps

section Serial
variable {ramEnd n : Nat} {env : ExitEnv ramEnd} {s : HideState n}

theorem hideStep_eq (jiffies : U64) (s : ExitState) : hideStep env (exitAt jiffies) s =
    if s.allowHyperBoxHide ∧ Late env jiffies s.initInSecureJiffies ∧ s.needInitInSecure then
      hidePages env { s with needInitInSecure := false, allowHyperBoxHide := false }
    else s := by
  have test : (s.allowHyperBoxHide && decide (hyperBoxHideTimeBufferMs ≤
      env.jiffiesToMsecs ((exitAt jiffies).jiffies - s.initInSecureJiffies))) = true ↔
      s.allowHyperBoxHide = true ∧ Late env jiffies s.initInSecureJiffies := by
    rw [Bool.and_eq_true,decide_eq_true_eq]
    rfl
  by_cases passes : s.allowHyperBoxHide = true ∧ Late env jiffies s.initInSecureJiffies
  · rw [hideStep,if_pos (test.mpr passes)]
    simp only [passes.1,passes.2,true_and]
    rfl
  · rw [hideStep,if_neg fun holds => passes (test.mp holds),if_neg]
    rintro ⟨allowed,late,_⟩
    exact passes ⟨allowed,late⟩

/-- A core is between the exchange that it won and the end of the hide. -/
def HideStage.Claims (stage : HideStage) : Prop := stage = .won ∨ stage = .hid

/-- What the shared state will be when all that has begun is done. -/
inductive Pending (env : ExitEnv ramEnd) (s : HideState n) : ExitState → Prop where
  | settled : (s.start = .idle ∨ s.start = .waiting) → (∀ core, ¬ (s.core core).Claims) → Pending env s s.shared
  | marked : s.start = .marked → (∀ core, ¬ (s.core core).Claims) →
      Pending env s { s.shared with allowHyperBoxHide := false }
  | stamped (before : U64) : s.start = .stamped → (∀ core, ¬ (s.core core).Claims) →
      Pending env s { s.shared with initInSecureJiffies := before }
  | won (core : Fin n) : s.start = .idle → s.core core = .won → (∀ other, other ≠ core → ¬ (s.core other).Claims) →
      s.shared.needInitInSecure = false →
      Pending env s (hidePages env { s.shared with allowHyperBoxHide := false })
  | hid (core : Fin n) : s.start = .idle → s.core core = .hid → (∀ other, other ≠ core → ¬ (s.core other).Claims) →
      s.shared.needInitInSecure = false →
      Pending env s { s.shared with allowHyperBoxHide := false }

/-- What a core has found out holds until another one has taken the announcement. -/
def HideStage.Passes (env : ExitEnv ramEnd) (s : ExitState) : HideStage → Prop
  | .looked => s.needInitInSecure = true → s.allowHyperBoxHide = true
  | .passed jiffies => Late env jiffies s.initInSecureJiffies ∧ (s.needInitInSecure = true → s.allowHyperBoxHide = true)
  | _ => True

/-- `hb_start` gets to its end only after it has announced the hide. -/
def Announced (s : ExitState) (call : HideCall) : Prop :=
  ∀ jiffies, call = .started jiffies → s.needInitInSecure = true ∧ s.allowHyperBoxHide = false

structure HideInv (env : ExitEnv ramEnd) (initial : ExitState) (s : HideState n) : Prop where
  pending : Pending env s (run (callStep env) initial s.calls)
  calls : Along (callStep env) Announced initial s.calls
  announced : s.start ≠ .idle → s.shared.needInitInSecure = true
  starting : s.start ≠ .idle → ∀ core, s.core core = .off ∨ s.core core = .guest
  refused : s.start = .waiting ∨ s.start = .stamped → s.shared.allowHyperBoxHide = false
  passed : ∀ core, (s.core core).Passes env s.shared

variable {initial outcome : ExitState}

theorem HideStage.passes_outside {stage : HideStage} (outside : stage = .off ∨ stage = .guest) (s : ExitState) :
    stage.Passes env s := by
  rcases outside with rfl | rfl <;> trivial

theorem HideInv.start (s : ExitState) : HideInv env (loadedShared s) (loaded n s) := by
  refine ⟨.settled (.inl rfl) ?_,trivial,?_,?_,?_,?_⟩ <;> simp [loaded,HideStage.Claims,HideStage.Passes]

theorem Announced.append {call : HideCall} (calls : Along (callStep env) Announced initial s.calls)
    (announced : Announced (run (callStep env) initial s.calls) call) :
    Along (callStep env) Announced initial (s.call call).calls := by
  rw [HideState.call,along_append]
  exact ⟨calls,announced,trivial⟩

theorem Pending.call (pending : Pending env s outcome) (call : HideCall) : Pending env (s.call call) outcome := by
  cases pending with
  | settled start unclaimed => exact .settled start unclaimed
  | marked start unclaimed => exact .marked start unclaimed
  | stamped before start unclaimed => exact .stamped before start unclaimed
  | won core start stage alone need => exact .won core start stage alone need
  | hid core start stage alone need => exact .hid core start stage alone need

/-- What a core does outside the hide itself. -/
theorem Pending.setCore (pending : Pending env s outcome) {core : Fin n} {stage : HideStage}
    (before : ¬ (s.core core).Claims) (after : ¬ stage.Claims) : Pending env (s.setCore core stage) outcome := by
  have unclaimed : ∀ other, ¬ (s.core other).Claims → ¬ ((s.setCore core stage).core other).Claims := by
    intro other free
    by_cases same : other = core
    · subst same
      simpa [HideState.setCore] using after
    · simpa [HideState.setCore,same] using free
  have kept : ∀ claimant, (s.core claimant).Claims → (s.setCore core stage).core claimant = s.core claimant := by
    intro claimant claims
    have apart : claimant ≠ core := by
      rintro rfl
      exact before claims
    simp [HideState.setCore,apart]
  cases pending with
  | settled start free => exact .settled start fun other => unclaimed other (free other)
  | marked start free => exact .marked start fun other => unclaimed other (free other)
  | stamped jiffies start free => exact .stamped jiffies start fun other => unclaimed other (free other)
  | won claimant start stage alone need =>
    exact .won claimant start ((kept claimant (.inl stage)).trans stage)
      (fun other apart => unclaimed other (alone other apart)) need
  | hid claimant start stage alone need =>
    exact .hid claimant start ((kept claimant (.inr stage)).trans stage)
      (fun other apart => unclaimed other (alone other apart)) need

/-- The exit that found the flag clear or the time too short. -/
theorem HideInv.refused_exit (inv : HideInv env initial s) {jiffies : U64}
    (refused : ¬ (s.shared.allowHyperBoxHide = true ∧ Late env jiffies s.shared.initInSecureJiffies)) :
    callStep env (run (callStep env) initial s.calls) (.exits jiffies) = run (callStep env) initial s.calls := by
  have pending := inv.pending
  generalize run (callStep env) initial s.calls = outcome at pending
  rw [callStep,hideStep_eq,if_neg]
  rintro ⟨allowed,late,_⟩
  cases pending with
  | settled => exact refused ⟨allowed,late⟩
  | stamped before start =>
    rw [inv.refused (.inr start)] at allowed
    cases allowed
  | marked => cases allowed
  | won => cases allowed
  | hid => cases allowed

/-- A step that a core takes in the guest or with an exit that does not hide. -/
theorem HideInv.setCore (inv : HideInv env initial s) {core : Fin n} {stage : HideStage}
    (before : ¬ (s.core core).Claims) (after : ¬ stage.Claims)
    (starting : s.start ≠ .idle → stage = .off ∨ stage = .guest) (passed : stage.Passes env s.shared) :
    HideInv env initial (s.setCore core stage) := by
  refine ⟨inv.pending.setCore before after,inv.calls,inv.announced,?_,inv.refused,?_⟩
  · intro start other
    by_cases same : other = core
    · subst same
      simpa [HideState.setCore] using starting start
    · simpa [HideState.setCore,same] using inv.starting start other
  · intro other
    by_cases same : other = core
    · subst same
      simpa [HideState.setCore] using passed
    · simpa [HideState.setCore,same] using inv.passed other

/-- An exit that changes nothing that is shared. -/
theorem HideInv.silent_exit (inv : HideInv env initial s) {jiffies : U64}
    (silent : callStep env (run (callStep env) initial s.calls) (.exits jiffies) = run (callStep env) initial s.calls) :
    HideInv env initial (s.call (.exits jiffies)) := by
  refine ⟨?_,Announced.append inv.calls (by rintro _ ⟨⟩),inv.announced,inv.starting,inv.refused,inv.passed⟩
  have same : run (callStep env) initial (s.call (.exits jiffies)).calls = run (callStep env) initial s.calls := by
    rw [HideState.call,run_append]
    exact silent
  rw [same]
  exact inv.pending.call _

theorem HideInv.unclaimed (inv : HideInv env initial s) (start : s.start ≠ .idle) (core : Fin n) :
    ¬ (s.core core).Claims := by
  rcases inv.starting start core with stage | stage <;> simp [HideStage.Claims,stage]

/-- While no start is going on and no core claims the hide, nothing is pending. -/
theorem Pending.eq_shared (pending : Pending env s outcome) (start : s.start = .idle)
    (unclaimed : ∀ core, ¬ (s.core core).Claims) : outcome = s.shared := by
  cases pending with
  | settled => rfl
  | marked other => exact absurd (start.symm.trans other) (by decide)
  | stamped before other => exact absurd (start.symm.trans other) (by decide)
  | won core _ stage => exact absurd (.inl stage) (unclaimed core)
  | hid core _ stage => exact absurd (.inr stage) (unclaimed core)

theorem HideInv.mark (inv : HideInv env initial s) (outside : ∀ core, s.core core = .off ∨ s.core core = .guest) :
    HideInv env initial s.mark := by
  unfold HideState.mark
  split
  next start =>
    have unclaimed : ∀ core, ¬ (s.core core).Claims := by
      intro core
      rcases outside core with stage | stage <;> simp [HideStage.Claims,stage]
    have settled := inv.pending.eq_shared start unclaimed
    refine ⟨?_,Announced.append inv.calls (by rintro _ ⟨⟩),fun _ => rfl,fun _ => outside,?_,
      fun core => HideStage.passes_outside (outside core) _⟩
    · have next : run (callStep env) initial ((((s.setShared { s.shared with needInitInSecure := true }).setStart .marked).call
          .starts).calls) = { s.shared with needInitInSecure := true, allowHyperBoxHide := false } := by
        simp only [HideState.call,HideState.setStart,HideState.setShared,run_append,settled]
        rfl
      rw [next]
      exact .marked rfl unclaimed
    · rintro (start | start) <;> cases start
  next => exact inv

theorem HideInv.clear (inv : HideInv env initial s) : HideInv env initial s.clear := by
  unfold HideState.clear
  split
  next start =>
    have starts : s.start ≠ .idle := by simp [start]
    have outside := inv.starting starts
    have pending := inv.pending
    refine ⟨?_,inv.calls,fun _ => inv.announced starts,fun _ => outside,fun _ => rfl,
      fun core => HideStage.passes_outside (outside core) _⟩
    simp only [HideState.setStart,HideState.setShared]
    generalize run (callStep env) initial s.calls = outcome at pending
    cases pending with
    | marked _ unclaimed => exact .settled (.inr rfl) unclaimed
    | settled other =>
      rw [start] at other
      rcases other with other | other <;> cases other
    | stamped before other => exact absurd (start.symm.trans other) (by decide)
    | won core other => exact absurd (start.symm.trans other) (by decide)
    | hid core other => exact absurd (start.symm.trans other) (by decide)
  next => exact inv

/-- While `hb_start` waits for its threads, nothing is pending. -/
theorem Pending.waiting (pending : Pending env s outcome) (start : s.start = .waiting) : outcome = s.shared := by
  cases pending with
  | settled => rfl
  | marked other => exact absurd (start.symm.trans other) (by decide)
  | stamped before other => exact absurd (start.symm.trans other) (by decide)
  | won core other => exact absurd (start.symm.trans other) (by decide)
  | hid core other => exact absurd (start.symm.trans other) (by decide)

theorem HideInv.fail (inv : HideInv env initial s) : HideInv env initial s.fail := by
  unfold HideState.fail
  split
  next start =>
    have waits : s.start ≠ .idle := by simp [start]
    refine ⟨?_,inv.calls,fun starting => absurd rfl starting,fun starting => absurd rfl starting,?_,inv.passed⟩
    · rw [show (s.setStart .idle).calls = s.calls from rfl,inv.pending.waiting start]
      exact .settled (.inl rfl) (inv.unclaimed waits)
    · rintro (start | start) <;> cases start
  next => exact inv

theorem HideInv.stamp (inv : HideInv env initial s) (jiffies : U64) : HideInv env initial (s.stamp jiffies) := by
  unfold HideState.stamp
  split
  next start =>
    have waits : s.start ≠ .idle := by simp [start]
    refine ⟨?_,inv.calls,fun _ => inv.announced waits,fun _ => inv.starting waits,fun _ => inv.refused (.inl start),
      fun core => HideStage.passes_outside (inv.starting waits core) _⟩
    simp only [HideState.setStart,HideState.setShared]
    rw [inv.pending.waiting start]
    exact .stamped s.shared.initInSecureJiffies rfl (inv.unclaimed waits)
  next => exact inv

/-- When the threads are done and the time is noted, the permission alone is missing. -/
theorem HideInv.stamped (inv : HideInv env initial s) (start : s.start = .stamped) :
    (run (callStep env) initial s.calls).needInitInSecure = true ∧
      (run (callStep env) initial s.calls).allowHyperBoxHide = false ∧
      { run (callStep env) initial s.calls with initInSecureJiffies := s.shared.initInSecureJiffies } = s.shared := by
  have need := inv.announced (by simp [start])
  have refused := inv.refused (.inr start)
  have pending := inv.pending
  generalize run (callStep env) initial s.calls = outcome at pending
  cases pending with
  | stamped before => exact ⟨need,refused,rfl⟩
  | settled other =>
    rw [start] at other
    rcases other with other | other <;> cases other
  | marked other => exact absurd (start.symm.trans other) (by decide)
  | won core other => exact absurd (start.symm.trans other) (by decide)
  | hid core other => exact absurd (start.symm.trans other) (by decide)

theorem HideInv.permit (inv : HideInv env initial s) : HideInv env initial s.permit := by
  unfold HideState.permit
  split
  next start =>
    have waits : s.start ≠ .idle := by simp [start]
    obtain ⟨need,refused,same⟩ := inv.stamped start
    have next : callStep env (run (callStep env) initial s.calls) (.started s.shared.initInSecureJiffies) =
        { s.shared with allowHyperBoxHide := true } :=
      calc callStep env (run (callStep env) initial s.calls) (.started s.shared.initInSecureJiffies)
        _ = { { run (callStep env) initial s.calls with initInSecureJiffies := s.shared.initInSecureJiffies } with
              allowHyperBoxHide := true } := rfl
        _ = { s.shared with allowHyperBoxHide := true } := by rw [same]
    refine ⟨?_,Announced.append inv.calls fun _ _ => ⟨need,refused⟩,fun starting => absurd rfl starting,
      fun starting => absurd rfl starting,?_,fun core => HideStage.passes_outside (inv.starting waits core) _⟩
    · simp only [HideState.call,HideState.setStart,HideState.setShared,run_append,run_cons,run_nil]
      rw [next]
      exact .settled (.inl rfl) (inv.unclaimed waits)
    · rintro (start | start) <;> cases start
  next => exact inv

theorem HideInv.launch (inv : HideInv env initial s) (core : Fin n) : HideInv env initial (s.launch core) := by
  unfold HideState.launch
  split
  next ready =>
    exact inv.setCore (by simp [HideStage.Claims,ready.2]) (by simp [HideStage.Claims]) (fun _ => .inr rfl) trivial
  next => exact inv

theorem HideInv.suspend (inv : HideInv env initial s) (core : Fin n) : HideInv env initial (s.suspend core) := by
  unfold HideState.suspend
  split
  next guest =>
    exact inv.setCore (by simp [HideStage.Claims,guest]) (by simp [HideStage.Claims]) (fun _ => .inl rfl) trivial
  next => exact inv

theorem HideInv.inExit (inv : HideInv env initial s) (core : Fin n) (off : s.core core ≠ .off) (guest : s.core core ≠ .guest) :
    s.start = .idle := by
  by_contra starting
  rcases inv.starting starting core with stage | stage
  · exact off stage
  · exact guest stage

theorem HideInv.look (inv : HideInv env initial s) (core : Fin n) (jiffies : U64) (cleared : s.start ≠ .marked) :
    HideInv env initial (s.look core jiffies) := by
  unfold HideState.look
  split
  next guest =>
    split
    next allowed =>
      have idle : s.start = .idle := by
        by_contra starting
        have refused : s.shared.allowHyperBoxHide = false := by
          cases start : s.start with
          | idle => exact absurd start starting
          | marked => exact absurd start cleared
          | waiting => exact inv.refused (.inl start)
          | stamped => exact inv.refused (.inr start)
        exact absurd (allowed.symm.trans refused) (by decide)
      exact inv.setCore (by simp [HideStage.Claims,guest]) (by simp [HideStage.Claims])
        (fun starting => absurd idle starting) (fun _ => allowed)
    next refused => exact inv.silent_exit (inv.refused_exit fun holds => refused holds.1)
  next => exact inv

theorem HideInv.time (inv : HideInv env initial s) (core : Fin n) (jiffies : U64) :
    HideInv env initial (s.time env core jiffies) := by
  unfold HideState.time
  split
  next looked =>
    have idle : s.start = .idle := inv.inExit core (by simp [looked]) (by simp [looked])
    have free : ¬ (s.core core).Claims := by simp [HideStage.Claims,looked]
    have allowed := inv.passed core
    rw [looked] at allowed
    split
    next late => exact inv.setCore free (by simp [HideStage.Claims]) (fun starting => absurd idle starting) ⟨late,allowed⟩
    next early =>
      have after : HideInv env initial (s.setCore core .guest) :=
        inv.setCore free (by simp [HideStage.Claims]) (fun _ => .inr rfl) trivial
      exact after.silent_exit (inv.refused_exit fun holds => early holds.2)
  next => exact inv

theorem HideInv.of_idle (idle : s.start = .idle) (pending : Pending env s (run (callStep env) initial s.calls))
    (calls : Along (callStep env) Announced initial s.calls)
    (passed : ∀ core, (s.core core).Passes env s.shared) : HideInv env initial s := by
  refine ⟨pending,calls,fun starting => absurd idle starting,fun starting => absurd idle starting,?_,passed⟩
  rintro (start | start) <;> exact absurd (idle.symm.trans start) (by decide)

/-- When the announcement is taken, all that a core still has to go by is the time. -/
theorem HideStage.Passes.taken {stage : HideStage} {before after : ExitState} (passes : stage.Passes env before)
    (need : after.needInitInSecure = false) (since : after.initInSecureJiffies = before.initInSecureJiffies) :
    stage.Passes env after := by
  cases stage with
  | looked => exact fun again => absurd (again.symm.trans need) (by decide)
  | passed jiffies => exact ⟨since ▸ passes.1,fun again => absurd (again.symm.trans need) (by decide)⟩
  | _ => trivial

theorem HideInv.other_passes (inv : HideInv env initial s) {core : Fin n} {stage : HideStage} {shared : ExitState}
    (here : stage.Passes env shared) (need : shared.needInitInSecure = false)
    (since : shared.initInSecureJiffies = s.shared.initInSecureJiffies) (other : Fin n) :
    ((Function.update s.core core stage) other).Passes env shared := by
  rw [Function.update_apply]
  split
  next => exact here
  next => exact (inv.passed other).taken need since

/-- The core that claims the hide is the only one, and what is pending is its own. -/
structure Claimed (env : ExitEnv ramEnd) (s : HideState n) (core : Fin n) (outcome : ExitState) : Prop where
  idle : s.start = .idle
  alone : ∀ other, other ≠ core → ¬ (s.core other).Claims
  taken : s.shared.needInitInSecure = false
  won : s.core core = .won → outcome = hidePages env { s.shared with allowHyperBoxHide := false }
  hid : s.core core = .hid → outcome = { s.shared with allowHyperBoxHide := false }

theorem HideInv.claimed (inv : HideInv env initial s) {core : Fin n} (claims : (s.core core).Claims) :
    Claimed env s core (run (callStep env) initial s.calls) := by
  have idle : s.start = .idle := by
    rcases claims with stage | stage <;> exact inv.inExit core (by simp [stage]) (by simp [stage])
  have pending := inv.pending
  generalize run (callStep env) initial s.calls = outcome at pending
  cases pending with
  | settled _ unclaimed => exact absurd claims (unclaimed core)
  | marked start => exact absurd (idle.symm.trans start) (by decide)
  | stamped before start => exact absurd (idle.symm.trans start) (by decide)
  | won claimant _ stage alone taken =>
    have same : core = claimant := by
      by_contra apart
      exact alone core apart claims
    subst same
    exact ⟨idle,alone,taken,fun _ => rfl,fun other => absurd (stage.symm.trans other) (by decide)⟩
  | hid claimant _ stage alone taken =>
    have same : core = claimant := by
      by_contra apart
      exact alone core apart claims
    subst same
    exact ⟨idle,alone,taken,fun other => absurd (stage.symm.trans other) (by decide),fun _ => rfl⟩

theorem HideInv.exchange (inv : HideInv env initial s) (core : Fin n) : HideInv env initial (s.exchange core) := by
  unfold HideState.exchange
  split
  next jiffies stage =>
    have idle : s.start = .idle := inv.inExit core (by simp [stage]) (by simp [stage])
    have free : ¬ (s.core core).Claims := by simp [HideStage.Claims,stage]
    have passes := inv.passed core
    rw [stage] at passes
    obtain ⟨late,allowed⟩ := passes
    split
    next need =>
      have unclaimed : ∀ other, ¬ (s.core other).Claims := by
        intro other claims
        exact absurd (need.symm.trans (inv.claimed claims).taken) (by decide)
      refine .of_idle idle ?_ (Announced.append inv.calls (by rintro _ ⟨⟩)) (inv.other_passes trivial rfl rfl)
      simp only [HideState.call,HideState.setCore,HideState.setShared,run_append]
      rw [inv.pending.eq_shared idle unclaimed,run_cons,run_nil,callStep,hideStep_eq,if_pos ⟨allowed need,late,need⟩]
      refine .won core idle (by simp) ?_ rfl
      intro other apart
      simpa [apart] using unclaimed other
    next taken =>
      have silent : callStep env (run (callStep env) initial s.calls) (.exits jiffies) = run (callStep env) initial s.calls := by
        have pending := inv.pending
        generalize run (callStep env) initial s.calls = outcome at pending
        have same : outcome.needInitInSecure = s.shared.needInitInSecure := by cases pending <;> rfl
        rw [callStep,hideStep_eq,if_neg]
        rintro ⟨_,_,need⟩
        exact taken (same.symm.trans need)
      have after : HideInv env initial (s.setCore core .guest) :=
        inv.setCore free (by simp [HideStage.Claims]) (fun _ => .inr rfl) trivial
      exact after.silent_exit silent
  next => exact inv

theorem HideInv.protect (inv : HideInv env initial s) (core : Fin n) : HideInv env initial (s.protect env core) := by
  unfold HideState.protect
  split
  next stage =>
    have claimed := inv.claimed (.inl stage)
    refine .of_idle claimed.idle ?_ inv.calls (inv.other_passes trivial claimed.taken rfl)
    simp only [HideState.setCore,HideState.setShared,claimed.won stage]
    refine .hid core claimed.idle (by simp) ?_ claimed.taken
    intro other apart
    simpa [apart] using claimed.alone other apart
  next => exact inv

theorem HideInv.withdraw (inv : HideInv env initial s) (core : Fin n) : HideInv env initial (s.withdraw core) := by
  unfold HideState.withdraw
  split
  next stage =>
    have claimed := inv.claimed (.inr stage)
    refine .of_idle claimed.idle ?_ inv.calls (inv.other_passes trivial claimed.taken rfl)
    simp only [HideState.setCore,HideState.setShared,claimed.hid stage]
    refine .settled (.inl claimed.idle) ?_
    intro other
    by_cases same : other = core
    · simp [same,HideStage.Claims]
    · simpa [same] using claimed.alone other same
  next => exact inv

theorem HideInv.step (inv : HideInv env initial s) (event : HideEvent n) (clear : ClearOfHide s event) :
    HideInv env initial (s.step env event) := by
  cases event with
  | mark => exact inv.mark (clear.1 rfl)
  | clear => exact inv.clear
  | launch core => exact inv.launch core
  | fail => exact inv.fail
  | stamp jiffies => exact inv.stamp jiffies
  | permit => exact inv.permit
  | suspend core => exact inv.suspend core
  | look core jiffies => exact inv.look core jiffies fun marked => clear.2 marked core jiffies rfl
  | time core jiffies => exact inv.time core jiffies
  | exchange core => exact inv.exchange core
  | protect core => exact inv.protect core
  | withdraw core => exact inv.withdraw core

end Serial

section Once
variable {ramEnd n : Nat} (env : ExitEnv ramEnd)

def sinceStarted : Option (U64 × List U64) → HideCall → Option (U64 × List U64)
  | _,.starts => none
  | _,.started jiffies => some (jiffies,[])
  | some (since,exits),.exits jiffies => some (since,exits ++ [jiffies])
  | none,.exits _ => none

/-- When the last start came to its end, if it did with success, and the exits since then. -/
def lastStart (calls : List HideCall) : Option (U64 × List U64) := run sinceStarted none calls

/-- No exit since the start was late enough before this one. -/
def FirstLate (calls : List HideCall) (jiffies : U64) : Prop :=
  ∃ since exits, lastStart calls = some (since,exits) ∧ (∀ j ∈ exits, ¬ Late env j since) ∧ Late env jiffies since

structure HiddenOnce (initial : ExitState) (s : HideState n) : Prop where
  alone : ∀ core other, (s.core core).Claims → (s.core other).Claims → core = other
  serial : s.start = .idle → (∀ core, ¬ (s.core core).Claims) → s.shared = run (callStep env) initial s.calls
  first : ∀ before jiffies after, s.calls = before ++ .exits jiffies::after → FirstLate env before jiffies →
    run (callStep env) initial (before ++ [.exits jiffies]) = hidePages env
      { run (callStep env) initial before with needInitInSecure := false, allowHyperBoxHide := false }
  others : ∀ before jiffies after, s.calls = before ++ .exits jiffies::after → ¬ FirstLate env before jiffies →
    run (callStep env) initial (before ++ [.exits jiffies]) = run (callStep env) initial before
  valid : hbIsValidVmStatus s.shared = true ↔
    ∃ since exits, lastStart s.calls = some (since,exits) ∧ ∃ j ∈ exits, Late env j since

variable {env} {s : ExitState}

/-- The flags as the calls so far have left them. -/
structure Tracks (env : ExitEnv ramEnd) (start : Option (U64 × List U64)) (s : ExitState) : Prop where
  refused : start = none → s.allowHyperBoxHide = false ∧ s.needInitInSecure = true
  early : ∀ since exits, start = some (since,exits) → (∀ j ∈ exits, ¬ Late env j since) →
    s.allowHyperBoxHide = true ∧ s.needInitInSecure = true ∧ s.initInSecureJiffies = since
  late : ∀ since exits, start = some (since,exits) → (∃ j ∈ exits, Late env j since) →
    s.allowHyperBoxHide = false ∧ s.needInitInSecure = false

theorem Tracks.exits {start : Option (U64 × List U64)} (tracks : Tracks env start s) (jiffies : U64) :
    Tracks env (sinceStarted start (.exits jiffies)) (callStep env s (.exits jiffies)) := by
  rw [callStep,hideStep_eq]
  cases start with
  | none =>
    obtain ⟨refused,_⟩ := tracks.refused rfl
    rw [if_neg (by simp [refused])]
    exact tracks
  | some started =>
    obtain ⟨since,exits⟩ := started
    by_cases early : ∀ j ∈ exits, ¬ Late env j since
    · obtain ⟨allowed,need,rfl⟩ := tracks.early _ _ rfl early
      by_cases late : Late env jiffies s.initInSecureJiffies
      · rw [if_pos ⟨allowed,late,need⟩]
        refine ⟨nofun,?_,fun _ _ _ _ => ⟨rfl,rfl⟩⟩
        rintro _ _ ⟨⟩ none
        exact absurd late (none jiffies (by simp))
      · rw [if_neg fun holds => late holds.2.1]
        refine ⟨nofun,?_,?_⟩
        · rintro _ _ ⟨⟩ _
          exact ⟨allowed,need,rfl⟩
        · rintro _ _ ⟨⟩ ⟨j,member,late'⟩
          rcases List.mem_append.mp member with member | member
          · exact absurd late' (early j member)
          · exact absurd (List.mem_singleton.mp member ▸ late') late
    · push Not at early
      obtain ⟨refused,taken⟩ := tracks.late _ _ rfl early
      rw [if_neg (by simp [refused])]
      refine ⟨nofun,?_,?_⟩
      · rintro _ _ ⟨⟩ none
        obtain ⟨j,member,late⟩ := early
        exact absurd late (none j (List.mem_append_left _ member))
      · exact fun _ _ _ _ => ⟨refused,taken⟩

theorem Tracks.call {start : Option (U64 × List U64)} (tracks : Tracks env start s) {call : HideCall}
    (announced : Announced s call) : Tracks env (sinceStarted start call) (callStep env s call) := by
  cases call with
  | starts => exact ⟨fun _ => ⟨rfl,rfl⟩,nofun,nofun⟩
  | started jiffies =>
    refine ⟨nofun,?_,?_⟩
    · rintro _ _ ⟨⟩ _
      exact ⟨rfl,(announced jiffies rfl).1,rfl⟩
    · rintro _ _ ⟨⟩ ⟨j,member,_⟩
      cases member
  | exits jiffies => exact tracks.exits jiffies

theorem tracks_run {initial : ExitState} {calls : List HideCall} (along : Along (callStep env) Announced initial calls)
    (tracks : Tracks env none initial) : Tracks env (lastStart calls) (run (callStep env) initial calls) := by
  induction calls using List.reverseRecOn with
  | nil => exact tracks
  | append_singleton calls call ih =>
    obtain ⟨before,announced,_⟩ := (along_append _ _ _).mp along
    rw [lastStart,run_append,run_append]
    exact (ih before).call announced

theorem Tracks.loaded (s : ExitState) : Tracks env none (loadedShared s) := ⟨fun _ => ⟨rfl,rfl⟩,nofun,nofun⟩

/-- What an exit does to the shared state, seen from the calls before it. -/
theorem Tracks.first_late {calls : List HideCall} (tracks : Tracks env (lastStart calls) s) (jiffies : U64) :
    (s.allowHyperBoxHide = true ∧ Late env jiffies s.initInSecureJiffies ∧ s.needInitInSecure = true) ↔
      FirstLate env calls jiffies := by
  unfold FirstLate
  constructor
  · rintro ⟨allowed,late,need⟩
    cases start : lastStart calls with
    | none => exact absurd (allowed.symm.trans (tracks.refused start).1) (by decide)
    | some started =>
      obtain ⟨since,exits⟩ := started
      have early : ∀ j ∈ exits, ¬ Late env j since := by
        intro j member late'
        exact absurd (need.symm.trans (tracks.late _ _ start ⟨j,member,late'⟩).2) (by decide)
      obtain ⟨_,_,rfl⟩ := tracks.early _ _ start early
      exact ⟨_,exits,rfl,early,late⟩
  · rintro ⟨since,exits,start,early,late⟩
    obtain ⟨allowed,need,rfl⟩ := tracks.early _ _ start early
    exact ⟨allowed,late,need⟩

/-- Whatever the cores and `hb_start` do in whatever order, the pages are hidden by one core alone
and by the first exit late enough after each start that succeeded. The status of the VM is valid
from then on, to the next start. -/
theorem module_hidden_once (env : ExitEnv ramEnd) (s : ExitState) (events : List (HideEvent n))
    (clear : Along (HideState.step env) ClearOfHide (loaded n s) events) :
    HiddenOnce env (loadedShared s) (run (HideState.step env) (loaded n s) events) := by
  have inv := clear.reaches (HideInv env (loadedShared s)) (fun _ event inv => inv.step event) (.start s)
  generalize run (HideState.step env) (loaded n s) events = state at inv
  have tracked : ∀ before call after, state.calls = before ++ call::after →
      Tracks env (lastStart before) (run (callStep env) (loadedShared s) before) := by
    intro before call after split
    have along := inv.calls
    rw [split,along_append] at along
    exact tracks_run along.1 (.loaded s)
  refine ⟨?_,?_,?_,?_,?_⟩
  · intro core other claims claims'
    by_contra apart
    exact (inv.claimed claims').alone core apart claims
  · intro idle unclaimed
    exact (inv.pending.eq_shared idle unclaimed).symm
  · intro before jiffies after split first
    have fires := ((tracked before _ after split).first_late jiffies).mpr first
    rw [run_append,run_cons,run_nil,callStep,hideStep_eq,if_pos fires]
  · intro before jiffies after split other
    have stays := fun fires => other (((tracked before _ after split).first_late jiffies).mp fires)
    rw [run_append,run_cons,run_nil,callStep,hideStep_eq,if_neg stays]
  · have tracks := tracks_run inv.calls (.loaded s)
    have pending := inv.pending
    generalize run (callStep env) (loadedShared s) state.calls = outcome at pending tracks
    have same : outcome.needInitInSecure = state.shared.needInitInSecure := by cases pending <;> rfl
    rw [hbIsValidVmStatus,← same,Bool.not_eq_true']
    constructor
    · intro taken
      cases start : lastStart state.calls with
      | none => exact absurd (taken.symm.trans (tracks.refused start).2) (by decide)
      | some started =>
        obtain ⟨since,exits⟩ := started
        refine ⟨since,exits,rfl,?_⟩
        by_contra early
        push Not at early
        exact absurd (taken.symm.trans (tracks.early _ _ start early).2.1) (by decide)
    · rintro ⟨since,exits,start,late⟩
      exact (tracks.late _ _ start late).2

end Once

section Sample

/-- Two cores come to the exchange at once after a start. -/
def hideRun {n : Nat} (first second : Fin n) : List (HideEvent n) :=
  [.mark,.clear,.launch first,.launch second,.stamp 1000,.permit,.look first 2500,.look second 2500,.time first 2500,
    .time second 2500,.exchange second,.exchange first,.protect second,.withdraw second]

theorem module_hidden_once_sample :
    HiddenOnce exitSample (loadedShared bootState)
      (run (HideState.step exitSample) (loaded 2 bootState) (hideRun 0 1)) := by
  refine module_hidden_once exitSample bootState (hideRun 0 1) ?_
  refine ⟨⟨fun _ _ => .inl rfl,nofun⟩,?_⟩
  repeat' constructor
  all_goals nofun

/-- A start amid the hide announces it a second time: both cores take the announcement. -/
example : ∃ s, s = run (HideState.step exitSample) (loaded 2 bootState) ((hideRun 0 1).take 11 ++ [.mark,.exchange 0]) ∧
    s.core 0 = .won ∧ s.core 1 = .won := ⟨_,rfl,by decide,by decide⟩

end Sample
end HyperBox.Host
