import HyperBox.Library.Extends
import HyperBox.Probe.Vmx

/-! Whatever fails while the probe module is loaded, on whatever processor, is undone: the callback
takes its own processor back, the load takes back those before it, and the unload all of them. -/
namespace HyperBox.Probe
open HyperBox.Library

/-- VMXOFF is executed in VMX operation only, and no value without VMXE is loaded into CR4 there. -/
def Entry.Safe (entry : Entry) : Prop :=
  match entry.op with
  | .vmxoff => entry.before.vmx = true
  | .setCr4 value => entry.before.vmx = true → value.getLsbD 13 = true
  | _ => True

/-- What a callback does concerns its own processor and leaves the regions alone. -/
structure Switched (cpu : Nat) (s s' : State) : Prop where
  others : ∀ c, c ≠ cpu → s'.cpu c = s.cpu c ∧ s'.percpu c = s.percpu c
  table : s'.table = s.table
  allocated : s'.allocated = s.allocated
  vmxonRegion : (s'.percpu cpu).vmxonRegion = (s.percpu cpu).vmxonRegion
  vmcsRegion : (s'.percpu cpu).vmcsRegion = (s.percpu cpu).vmcsRegion
  log : Extends Entry.Safe s.log s'.log

section Steps
variable {env : Env} {cpu : Nat} {s s' s'' : State}

theorem Switched.refl (cpu : Nat) (s : State) : Switched cpu s s :=
  ⟨fun _ _ => ⟨rfl,rfl⟩,rfl,rfl,rfl,rfl,.refl _⟩

theorem Switched.trans (first : Switched cpu s s') (second : Switched cpu s' s'') : Switched cpu s s'' := by
  refine ⟨fun c other => ?_,?_,?_,?_,?_,first.log.trans second.log⟩
  · have early := first.others c other
    have late := second.others c other
    exact ⟨late.1.trans early.1,late.2.trans early.2⟩
  · exact second.table.trans first.table
  · exact second.allocated.trans first.allocated
  · exact second.vmxonRegion.trans first.vmxonRegion
  · exact second.vmcsRegion.trans first.vmcsRegion

theorem exec_switched {op : Op} (safe : Entry.Safe ⟨cpu,op,s.cpu cpu⟩) : Switched cpu s (exec cpu s op) :=
  ⟨fun _ other => ⟨Function.update_of_ne other _ _,rfl⟩,rfl,rfl,rfl,rfl,.snoc safe⟩

@[simp] theorem exec_cpu (op : Op) : (exec cpu s op).cpu cpu = op.effect (s.cpu cpu) := Function.update_self _ _ _

@[simp] theorem exec_percpu (op : Op) : (exec cpu s op).percpu = s.percpu := rfl

@[simp] theorem exec_probeFailed (op : Op) : (exec cpu s op).probeFailed = s.probeFailed := rfl

theorem setPercpu_switched {pc : PercpuVmx} (vmxon : pc.vmxonRegion = (s.percpu cpu).vmxonRegion)
    (vmcs : pc.vmcsRegion = (s.percpu cpu).vmcsRegion) : Switched cpu s (setPercpu cpu s pc) := by
  refine ⟨fun c other => ⟨rfl,Function.update_of_ne other _ _⟩,rfl,rfl,?_,?_,.refl _⟩
  · exact (congrArg PercpuVmx.vmxonRegion (Function.update_self _ _ _)).trans vmxon
  · exact (congrArg PercpuVmx.vmcsRegion (Function.update_self _ _ _)).trans vmcs

@[simp] theorem setPercpu_cpu (pc : PercpuVmx) : (setPercpu cpu s pc).cpu = s.cpu := rfl

@[simp] theorem setPercpu_percpu (pc : PercpuVmx) : (setPercpu cpu s pc).percpu cpu = pc := Function.update_self _ _ _

@[simp] theorem setPercpu_probeFailed (pc : PercpuVmx) : (setPercpu cpu s pc).probeFailed = s.probeFailed := rfl

theorem fail_switched : Switched cpu s { s with probeFailed := true } :=
  ⟨fun _ _ => ⟨rfl,rfl⟩,rfl,rfl,rfl,rfl,.refl _⟩

theorem setCr4_safe {value : U64} (out : (s.cpu cpu).vmx = false) : Entry.Safe ⟨cpu,.setCr4 value,s.cpu cpu⟩ := by
  intro inside
  rw [out] at inside
  cases inside

/-- An instruction that reads or writes the VMCS changes nothing that is followed here. -/
structure Quiet (cpu : Nat) (s s' : State) : Prop where
  switched : Switched cpu s s'
  cpu_eq : s'.cpu cpu = s.cpu cpu
  percpu_eq : s'.percpu = s.percpu
  probeFailed_eq : s'.probeFailed = s.probeFailed

theorem Quiet.refl (cpu : Nat) (s : State) : Quiet cpu s s := ⟨.refl _ _,rfl,rfl,rfl⟩

theorem Quiet.trans (first : Quiet cpu s s') (second : Quiet cpu s' s'') : Quiet cpu s s'' :=
  ⟨first.switched.trans second.switched,second.cpu_eq.trans first.cpu_eq,second.percpu_eq.trans first.percpu_eq,
    second.probeFailed_eq.trans first.probeFailed_eq⟩

theorem exec_quiet {op : Op} (safe : Entry.Safe ⟨cpu,op,s.cpu cpu⟩) (same : ∀ c, op.effect c = c) :
    Quiet cpu s (exec cpu s op) :=
  ⟨exec_switched safe,by rw [exec_cpu,same],rfl,rfl⟩

theorem vmwrites_quiet (writes : List (U64 × Source)) :
    ∀ (n : Nat) (s : State), Quiet cpu s (hbProbeVmwriteGuestState env cpu writes n s).2 := by
  induction writes with
  | nil => exact fun n s => .refl _ _
  | cons write rest ih =>
    intro n s
    obtain ⟨field,source⟩ := write
    have first : Quiet cpu s (exec cpu s (.vmwrite field (source.value env cpu s field) (env.vmwrite cpu n))) :=
      exec_quiet trivial (fun _ => rfl)
    simp only [hbProbeVmwriteGuestState]
    split
    · exact first.trans (ih _ _)
    · exact first

theorem hbVmxProbeVmwrite_quiet : Quiet cpu s (hbVmxProbeVmwrite env cpu s).2 := by
  have link : ∀ (ok : Bool) (v : U64), Quiet cpu s (exec cpu s (.vmwrite vmVmcsLinkPtr v ok)) :=
    fun _ _ => exec_quiet trivial (fun _ => rfl)
  have read : ∀ (s : State) (field : U64) (result : Option U64), Quiet cpu s (exec cpu s (.vmread field result)) :=
    fun _ _ _ => exec_quiet trivial (fun _ => rfl)
  unfold hbVmxProbeVmwrite
  dsimp only
  split
  · exact link _ _
  · split
    · exact (link _ _).trans (read _ _ _)
    · have writes := @vmwrites_quiet env cpu guestStateWrites 1 (exec cpu (exec cpu s
        (.vmwrite vmVmcsLinkPtr 0xffffffffffffffff (env.vmwrite cpu 0))) (.vmread vmVmcsLinkPtr (env.vmread cpu 0)))
      generalize hbProbeVmwriteGuestState env cpu guestStateWrites 1 _ = result at writes ⊢
      have before := ((link (env.vmwrite cpu 0) 0xffffffffffffffff).trans (read _ _ _)).trans writes
      obtain ⟨_ | _,after⟩ := result
      · exact before
      · exact before.trans (read _ _ _)

theorem probeVmcs_quiet : Quiet cpu s (probeVmcs env cpu s).2 := by
  have clear : ∀ (s : State) (ok : Bool), Quiet cpu s (exec cpu s (.vmclear ok)) :=
    fun _ _ => exec_quiet trivial (fun _ => rfl)
  have load : ∀ (s : State) (ok : Bool), Quiet cpu s (exec cpu s (.vmptrld ok)) :=
    fun _ _ => exec_quiet trivial (fun _ => rfl)
  unfold probeVmcs
  dsimp only
  split
  · exact clear _ _
  · split
    · exact (clear _ _).trans (load _ _)
    · exact ((clear _ _).trans (load _ _)).trans hbVmxProbeVmwrite_quiet

theorem outRestoreCr_spec (cr0 cr4 : U64) (out : (s.cpu cpu).vmx = false) :
    Switched cpu s (outRestoreCr cpu cr0 cr4 s) ∧ (outRestoreCr cpu cr0 cr4 s).cpu cpu = ⟨cr0,cr4,false⟩ ∧
      (outRestoreCr cpu cr0 cr4 s).percpu = s.percpu ∧ (outRestoreCr cpu cr0 cr4 s).probeFailed = s.probeFailed := by
  have toggle : Switched cpu s (hbDisableVmx cpu s) := exec_switched (setCr4_safe out)
  have still : ((hbDisableVmx cpu s).cpu cpu).vmx = false := by simpa [hbDisableVmx,Op.effect] using out
  have cr4set : Switched cpu (hbDisableVmx cpu s) (exec cpu (hbDisableVmx cpu s) (.setCr4 cr4)) :=
    exec_switched (setCr4_safe still)
  refine ⟨(toggle.trans cr4set).trans (exec_switched trivial),?_,rfl,rfl⟩
  simp [outRestoreCr,hbDisableVmx,Op.effect,out]

theorem outVmxoff_spec (cr0 cr4 : U64) (inside : (s.cpu cpu).vmx = true) :
    Switched cpu s (outVmxoff cpu cr0 cr4 s) ∧ (outVmxoff cpu cr0 cr4 s).cpu cpu = ⟨cr0,cr4,false⟩ ∧
      ((outVmxoff cpu cr0 cr4 s).percpu cpu).vmxOn = false ∧
      (outVmxoff cpu cr0 cr4 s).probeFailed = s.probeFailed := by
  have off : Switched cpu s (exec cpu s .vmxoff) := exec_switched inside
  have mark : Switched cpu (exec cpu s .vmxoff)
      (setPercpu cpu (exec cpu s .vmxoff) { s.percpu cpu with vmxOn := false }) := setPercpu_switched rfl rfl
  obtain ⟨restore,cpu_eq,percpu_eq,failed⟩ := @outRestoreCr_spec cpu
    (setPercpu cpu (exec cpu s .vmxoff) { s.percpu cpu with vmxOn := false }) cr0 cr4 (by simp [Op.effect])
  refine ⟨(off.trans mark).trans restore,cpu_eq,?_,failed⟩
  rw [outVmxoff,exec_percpu,percpu_eq,setPercpu_percpu]

/-- The processor is in VMX operation, and its entry tells so and holds the original values. -/
structure Running (original : Cpu) (cpu : Nat) (s : State) : Prop where
  vmx : (s.cpu cpu).vmx = true
  vmxOn : (s.percpu cpu).vmxOn = true
  savedCr0 : (s.percpu cpu).savedCr0 = original.cr0
  savedCr4 : (s.percpu cpu).savedCr4 = original.cr4

/-- The processor is as it was, and its entry tells so. -/
structure Idle (original : Cpu) (cpu : Nat) (s : State) : Prop where
  cpu_eq : s.cpu cpu = original
  vmxOn : (s.percpu cpu).vmxOn = false

theorem Running.quiet {original : Cpu} (h : Running original cpu s) (quiet : Quiet cpu s s') : Running original cpu s' := by
  constructor
  · rw [quiet.cpu_eq]
    exact h.vmx
  · rw [quiet.percpu_eq]
    exact h.vmxOn
  · rw [quiet.percpu_eq]
    exact h.savedCr0
  · rw [quiet.percpu_eq]
    exact h.savedCr4

theorem hbEnableVmx_spec (out : (s.cpu cpu).vmx = false) :
    Switched cpu s (hbEnableVmx cpu (hbAdjustVmxCr0Cr4 env cpu s)) ∧
      ((hbEnableVmx cpu (hbAdjustVmxCr0Cr4 env cpu s)).cpu cpu).vmx = false := by
  have cr0 : Switched cpu s (exec cpu s (.setCr0 (((s.cpu cpu).cr0 ||| env.cr0Fixed0 cpu) &&& env.cr0Fixed1 cpu))) :=
    exec_switched trivial
  have adjusted : ((hbAdjustVmxCr0Cr4 env cpu s).cpu cpu).vmx = false := by
    simpa [hbAdjustVmxCr0Cr4,Op.effect] using out
  constructor
  · refine (cr0.trans (exec_switched (setCr4_safe ?_))).trans (exec_switched (setCr4_safe adjusted))
    simpa [Op.effect] using out
  · simpa [hbEnableVmx,Op.effect] using adjusted

/-- A processor that is switched on is running or has been put back, whatever fails on the way. -/
theorem hbVmxonOnCpu_spec (fresh : s.probeFailed = false) (out : (s.cpu cpu).vmx = false)
    (idle : (s.percpu cpu).vmxOn = false) :
    Switched cpu s (hbVmxonOnCpu env cpu s) ∧
      ((hbVmxonOnCpu env cpu s).probeFailed = false ∧ Running (s.cpu cpu) cpu (hbVmxonOnCpu env cpu s) ∨
        (hbVmxonOnCpu env cpu s).probeFailed = true ∧ Idle (s.cpu cpu) cpu (hbVmxonOnCpu env cpu s)) := by
  have original : s.cpu cpu = ⟨(s.cpu cpu).cr0,(s.cpu cpu).cr4,false⟩ := by rw [← out]
  unfold hbVmxonOnCpu
  simp only [fresh,Bool.false_eq_true,if_false]
  split
  · exact ⟨fail_switched,.inr ⟨rfl,rfl,idle⟩⟩
  · generalize saved : setPercpu cpu s
      { s.percpu cpu with savedCr0 := (s.cpu cpu).cr0, savedCr4 := (s.cpu cpu).cr4 } = s1
    have first : Switched cpu s s1 := by
      rw [← saved]
      exact setPercpu_switched rfl rfl
    have entry : s1.percpu cpu =
        { s.percpu cpu with savedCr0 := (s.cpu cpu).cr0, savedCr4 := (s.cpu cpu).cr4 } := by
      rw [← saved,setPercpu_percpu]
    have enable := @hbEnableVmx_spec env cpu s1 (by rw [← saved]; exact out)
    have percpu2 : (hbEnableVmx cpu (hbAdjustVmxCr0Cr4 env cpu s1)).percpu = s1.percpu := rfl
    have fresh2 : (hbEnableVmx cpu (hbAdjustVmxCr0Cr4 env cpu s1)).probeFailed = false := by
      rw [← saved]
      exact fresh
    generalize hbEnableVmx cpu (hbAdjustVmxCr0Cr4 env cpu s1) = s2 at enable percpu2 fresh2 ⊢
    have on : Switched cpu s2 (exec cpu s2 (.vmxon (env.vmxon cpu))) := exec_switched trivial
    have before := (first.trans enable.1).trans on
    split
    next failed =>
      have off : env.vmxon cpu = false := by simpa using failed
      obtain ⟨restore,cpu_eq,percpu_eq,marked⟩ := @outRestoreCr_spec cpu
        { exec cpu s2 (.vmxon (env.vmxon cpu)) with probeFailed := true } (s.cpu cpu).cr0 (s.cpu cpu).cr4
        (by simpa [off,Op.effect] using enable.2)
      refine ⟨(before.trans fail_switched).trans restore,.inr ⟨marked,cpu_eq.trans original.symm,?_⟩⟩
      rw [percpu_eq]
      simpa [percpu2,entry] using idle
    next succeeded =>
      have success : env.vmxon cpu = true := by simpa using succeeded
      generalize marked : setPercpu cpu (exec cpu s2 (.vmxon (env.vmxon cpu)))
        { (exec cpu s2 (.vmxon (env.vmxon cpu))).percpu cpu with vmxOn := true } = s3
      have third : Switched cpu s s3 := by
        rw [← marked]
        exact before.trans (setPercpu_switched rfl rfl)
      have running : Running (s.cpu cpu) cpu s3 := by
        rw [← marked]
        constructor <;> simp [success,Op.effect,percpu2,entry]
      have fresh3 : s3.probeFailed = false := by rw [← marked]; exact fresh2
      have quiet := @probeVmcs_quiet env cpu s3
      generalize probeVmcs env cpu s3 = result at quiet ⊢
      obtain ⟨_ | _,s4⟩ := result
      · obtain ⟨stop,cpu_eq,vmxOn,failed⟩ := @outVmxoff_spec cpu { s4 with probeFailed := true } (s.cpu cpu).cr0
          (s.cpu cpu).cr4 (running.quiet quiet).vmx
        exact ⟨((third.trans quiet.switched).trans fail_switched).trans stop,
          .inr ⟨failed,cpu_eq.trans original.symm,vmxOn⟩⟩
      · exact ⟨third.trans quiet.switched,.inl ⟨quiet.probeFailed_eq.trans fresh3,running.quiet quiet⟩⟩

theorem hbVmxoffOnCpu_spec {original : Cpu} (out : original.vmx = false)
    (known : Running original cpu s ∨ Idle original cpu s) :
    Switched cpu s (hbVmxoffOnCpu cpu s) ∧ Idle original cpu (hbVmxoffOnCpu cpu s) := by
  unfold hbVmxoffOnCpu
  rcases known with running | idle
  · have off : Switched cpu s (exec cpu s .vmxoff) := exec_switched running.vmx
    obtain ⟨restore,cpu_eq,percpu_eq,_⟩ := @outRestoreCr_spec cpu (exec cpu s .vmxoff) (s.percpu cpu).savedCr0
      (s.percpu cpu).savedCr4 (by simp [Op.effect])
    simp only [running.vmxOn,Bool.not_true,Bool.false_eq_true,if_false]
    refine ⟨(off.trans restore).trans (setPercpu_switched rfl rfl),?_,?_⟩
    · rw [setPercpu_cpu,cpu_eq,running.savedCr0,running.savedCr4,← out]
    · rw [setPercpu_percpu]
  · simp only [idle.vmxOn,Bool.not_false,if_true]
    exact ⟨.refl _ _,idle⟩

theorem Running.other {original : Cpu} {c : Nat} (h : Running original c s) (step : Switched cpu s s') (other : c ≠ cpu) :
    Running original c s' := by
  obtain ⟨cpu_eq,percpu_eq⟩ := step.others c other
  exact ⟨cpu_eq ▸ h.vmx,percpu_eq ▸ h.vmxOn,percpu_eq ▸ h.savedCr0,percpu_eq ▸ h.savedCr4⟩

theorem Idle.other {original : Cpu} {c : Nat} (h : Idle original c s) (step : Switched cpu s s') (other : c ≠ cpu) :
    Idle original c s' := by
  obtain ⟨cpu_eq,percpu_eq⟩ := step.others c other
  exact ⟨cpu_eq.trans h.cpu_eq,percpu_eq ▸ h.vmxOn⟩

end Steps

/-- What a pass over the processors leaves alone. -/
structure Kept (s s' : State) : Prop where
  table : s'.table = s.table
  allocated : s'.allocated = s.allocated
  vmxonRegion : ∀ c, (s'.percpu c).vmxonRegion = (s.percpu c).vmxonRegion
  vmcsRegion : ∀ c, (s'.percpu c).vmcsRegion = (s.percpu c).vmcsRegion
  log : Extends Entry.Safe s.log s'.log

section Passes
variable {env : Env} {s s' s'' : State}

theorem Kept.refl (s : State) : Kept s s := ⟨rfl,rfl,fun _ => rfl,fun _ => rfl,.refl _⟩

theorem Kept.trans (first : Kept s s') (second : Kept s' s'') : Kept s s'' :=
  ⟨second.table.trans first.table,second.allocated.trans first.allocated,
    fun c => (second.vmxonRegion c).trans (first.vmxonRegion c),
    fun c => (second.vmcsRegion c).trans (first.vmcsRegion c),first.log.trans second.log⟩

theorem Switched.kept {cpu : Nat} (h : Switched cpu s s') : Kept s s' := by
  refine ⟨h.table,h.allocated,fun c => ?_,fun c => ?_,h.log⟩
  · by_cases same : c = cpu
    · rw [same]
      exact h.vmxonRegion
    · rw [(h.others c same).2]
  · by_cases same : c = cpu
    · rw [same]
      exact h.vmcsRegion
    · rw [(h.others c same).2]

variable {original : Nat → Cpu}

/-- Every processor is running or as it was. -/
def Restorable (original : Nat → Cpu) (s : State) : Prop := ∀ c, Running (original c) c s ∨ Idle (original c) c s

theorem startupCpus_spec (out : ∀ c, (original c).vmx = false) (cpus : List Nat) :
    ∀ s : State, cpus.Nodup → s.probeFailed = false → Restorable original s →
      (∀ c ∈ cpus, Idle (original c) c s) →
      Kept s (startupCpus env cpus s).2 ∧ Restorable original (startupCpus env cpus s).2 ∧
        (∀ c, c ∉ cpus → Running (original c) c s → Running (original c) c (startupCpus env cpus s).2) ∧
        (∀ c, Idle (original c) c s → c ∉ cpus → Idle (original c) c (startupCpus env cpus s).2) ∧
        ((startupCpus env cpus s).1 = 0 → ∀ c ∈ cpus, Running (original c) c (startupCpus env cpus s).2) := by
  induction cpus with
  | nil =>
    intro s _ _ restorable _
    exact ⟨.refl _,restorable,fun _ _ running => running,fun _ idle _ => idle,fun _ c member => by cases member⟩
  | cons cpu rest ih =>
    intro s distinct fresh restorable idle
    obtain ⟨absent,distinct⟩ := List.nodup_cons.mp distinct
    have here := idle cpu List.mem_cons_self
    obtain ⟨step,outcome⟩ := @hbVmxonOnCpu_spec env cpu s fresh (by rw [here.cpu_eq]; exact out cpu) here.vmxOn
    rw [here.cpu_eq] at outcome
    have others : ∀ c, c ≠ cpu → Running (original c) c s ∨ Idle (original c) c s →
        Running (original c) c (hbVmxonOnCpu env cpu s) ∨ Idle (original c) c (hbVmxonOnCpu env cpu s) :=
      fun c other known => known.imp (fun h => h.other step other) (fun h => h.other step other)
    simp only [startupCpus]
    rcases outcome with ⟨good,running⟩ | ⟨bad,back⟩
    · simp only [good,Bool.false_eq_true,if_false]
      have known : Restorable original (hbVmxonOnCpu env cpu s) := fun c => by
        by_cases same : c = cpu
        · rw [same]
          exact .inl running
        · exact others c same (restorable c)
      have waiting : ∀ c ∈ rest, Idle (original c) c (hbVmxonOnCpu env cpu s) := fun c member =>
        (idle c (List.mem_cons_of_mem cpu member)).other step (fun same => absent (same ▸ member))
      obtain ⟨kept,after,stays,rests,all⟩ := ih _ distinct good known waiting
      refine ⟨step.kept.trans kept,after,fun c outside h => ?_,fun c h outside => ?_,fun zero c member => ?_⟩
      · obtain ⟨other,outside⟩ := not_or.mp (fun either => outside (List.mem_cons.mpr either))
        exact stays c outside (h.other step other)
      · obtain ⟨other,outside⟩ := not_or.mp (fun either => outside (List.mem_cons.mpr either))
        exact rests c (h.other step other) outside
      · rcases List.mem_cons.mp member with rfl | member
        · exact stays c absent running
        · exact all zero c member
    · simp only [bad,if_true]
      refine ⟨step.kept,fun c => ?_,fun c outside h => ?_,fun c h outside => ?_,fun zero => ?_⟩
      · by_cases same : c = cpu
        · rw [same]
          exact .inr back
        · exact others c same (restorable c)
      · exact h.other step (fun same => outside (same ▸ List.mem_cons_self))
      · exact h.other step (fun same => outside (same ▸ List.mem_cons_self))
      · exact absurd zero (by decide)

theorem teardownCpus_spec (out : ∀ c, (original c).vmx = false) (cpus : List Nat) :
    ∀ s : State, Restorable original s →
      Kept s (cpus.foldl (fun s cpu => hbVmxoffOnCpu cpu s) s) ∧
        (∀ c, Idle (original c) c s → Idle (original c) c (cpus.foldl (fun s cpu => hbVmxoffOnCpu cpu s) s)) ∧
        ∀ c ∈ cpus, Idle (original c) c (cpus.foldl (fun s cpu => hbVmxoffOnCpu cpu s) s) := by
  induction cpus with
  | nil => exact fun s _ => ⟨.refl _,fun _ idle => idle,fun c member => by cases member⟩
  | cons cpu rest ih =>
    intro s restorable
    obtain ⟨step,back⟩ := hbVmxoffOnCpu_spec (out cpu) (restorable cpu)
    have idles : ∀ c, Idle (original c) c s → Idle (original c) c (hbVmxoffOnCpu cpu s) := fun c idle => by
      by_cases same : c = cpu
      · rw [same]
        exact back
      · exact idle.other step same
    have known : Restorable original (hbVmxoffOnCpu cpu s) := fun c => by
      by_cases same : c = cpu
      · rw [same]
        exact .inr back
      · exact (restorable c).imp (fun h => h.other step same) (fun h => h.other step same)
    obtain ⟨kept,still,all⟩ := ih _ known
    refine ⟨step.kept.trans kept,fun c idle => still c (idles c idle),fun c member => ?_⟩
    rcases List.mem_cons.mp member with rfl | member
    · exact still c back
    · exact all c member

end Passes

/-- A page is allocated exactly when its pointer is set, and only online processors have pages. -/
structure Tracked (env : Env) (s : State) : Prop where
  table : s.allocated .table = s.table
  vmxon : ∀ c, s.allocated (.vmxon c) = (s.percpu c).vmxonRegion
  vmcs : ∀ c, s.allocated (.vmcs c) = (s.percpu c).vmcsRegion
  online : ∀ c, c ∉ env.online → (s.percpu c).vmxonRegion = false ∧ (s.percpu c).vmcsRegion = false

section Regions
variable {env : Env} {s s' : State}

theorem Tracked.kept (h : Tracked env s) (kept : Kept s s') : Tracked env s' := by
  refine ⟨?_,fun c => ?_,fun c => ?_,fun c outside => ?_⟩
  · rw [kept.allocated,kept.table,h.table]
  · rw [kept.allocated,kept.vmxonRegion,h.vmxon]
  · rw [kept.allocated,kept.vmcsRegion,h.vmcs]
  · rw [kept.vmxonRegion,kept.vmcsRegion]
    exact h.online c outside

theorem allocCpu_tracked (h : Tracked env s) {cpu : Nat} (member : cpu ∈ env.online) :
    Tracked env (allocCpu env s cpu) := by
  refine ⟨by simpa [allocCpu] using h.table,fun c => ?_,fun c => ?_,fun c outside => ?_⟩
  · by_cases same : c = cpu
    · simp [allocCpu,same]
    · simpa [allocCpu,same] using h.vmxon c
  · by_cases same : c = cpu
    · simp [allocCpu,same]
    · simpa [allocCpu,same] using h.vmcs c
  · have other : c ≠ cpu := fun same => outside (same ▸ member)
    simpa [allocCpu,other] using h.online c outside

theorem allocCpus_spec (cpus : List Nat) (online : ∀ c ∈ cpus, c ∈ env.online) :
    ∀ s : State, Tracked env s → (∀ c, (s.percpu c).vmxOn = false) →
      Tracked env (allocCpus env cpus s).2 ∧ (∀ c, ((allocCpus env cpus s).2.percpu c).vmxOn = false) ∧
        (allocCpus env cpus s).2.cpu = s.cpu ∧ (allocCpus env cpus s).2.log = s.log ∧
        (allocCpus env cpus s).2.table = s.table := by
  induction cpus with
  | nil => exact fun s h idle => ⟨h,idle,rfl,rfl,rfl⟩
  | cons cpu rest ih =>
    intro s h idle
    have next := allocCpu_tracked h (online cpu List.mem_cons_self)
    have still : ∀ c, ((allocCpu env s cpu).percpu c).vmxOn = false := fun c => by
      by_cases same : c = cpu
      · simp [allocCpu,same,idle cpu]
      · simp [allocCpu,same,idle c]
    simp only [allocCpus]
    split
    · exact ⟨next,still,rfl,rfl,rfl⟩
    · exact ih (fun c member => online c (List.mem_cons_of_mem cpu member)) _ next still

theorem freeCpu_tracked (h : Tracked env s) (cpu : Nat) : Tracked env (freeCpu s cpu) := by
  refine ⟨by simpa [freeCpu] using h.table,fun c => ?_,fun c => ?_,fun c outside => ?_⟩
  · by_cases same : c = cpu
    · subst same
      have held := h.vmxon c
      cases region : (s.percpu c).vmxonRegion <;> simp_all [freeCpu]
    · simpa [freeCpu,same] using h.vmxon c
  · by_cases same : c = cpu
    · subst same
      have held := h.vmcs c
      cases region : (s.percpu c).vmcsRegion <;> simp_all [freeCpu]
    · simpa [freeCpu,same] using h.vmcs c
  · by_cases same : c = cpu
    · simp [freeCpu,same]
    · simpa [freeCpu,same] using h.online c outside

theorem freeCpus_spec (cpus : List Nat) : ∀ s : State, Tracked env s →
    Tracked env (cpus.foldl freeCpu s) ∧
      (∀ c, (c ∈ cpus ∨ (s.percpu c).vmxonRegion = false ∧ (s.percpu c).vmcsRegion = false) →
        ((cpus.foldl freeCpu s).percpu c).vmxonRegion = false ∧ ((cpus.foldl freeCpu s).percpu c).vmcsRegion = false) ∧
      (cpus.foldl freeCpu s).cpu = s.cpu ∧ (cpus.foldl freeCpu s).log = s.log := by
  induction cpus with
  | nil =>
    intro s h
    refine ⟨h,fun c none => ?_,rfl,rfl⟩
    rcases none with member | none
    · cases member
    · exact none
  | cons cpu rest ih =>
    intro s h
    obtain ⟨tracked,cleared,cpu_eq,log_eq⟩ := ih _ (freeCpu_tracked h cpu)
    refine ⟨tracked,fun c none => cleared c ?_,cpu_eq,log_eq⟩
    by_cases same : c = cpu
    · simp [freeCpu,same]
    · simpa [freeCpu,same] using none

theorem hbVmxFreeRegions_spec (h : Tracked env s) (present : s.table = true) :
    (∀ block, (hbVmxFreeRegions env s).allocated block = false) ∧ (hbVmxFreeRegions env s).cpu = s.cpu ∧
      (hbVmxFreeRegions env s).log = s.log := by
  obtain ⟨tracked,cleared,cpu_eq,log_eq⟩ := freeCpus_spec env.online s h
  have none : ∀ c, ((env.online.foldl freeCpu s).percpu c).vmxonRegion = false ∧
      ((env.online.foldl freeCpu s).percpu c).vmcsRegion = false := fun c => by
    by_cases member : c ∈ env.online
    · exact cleared c (.inl member)
    · exact cleared c (.inr (h.online c member))
  simp only [hbVmxFreeRegions,present,Bool.not_true,Bool.false_eq_true,if_false]
  refine ⟨fun block => ?_,cpu_eq,log_eq⟩
  cases block with
  | table => simp
  | vmxon c => simpa [tracked.vmxon c] using (none c).1
  | vmcs c => simpa [tracked.vmcs c] using (none c).2

theorem errors_nonzero : enodev ≠ 0 ∧ ebusy ≠ 0 ∧ enomem ≠ 0 := by decide

/-- Either the regions are there and no processor has been touched, or nothing has been kept. -/
theorem hbVmxAllocRegions_spec {cr0 cr4 : Nat → U64} :
    ((hbVmxAllocRegions env (unloaded cr0 cr4)).1 = 0 ∧ Tracked env (hbVmxAllocRegions env (unloaded cr0 cr4)).2 ∧
        (hbVmxAllocRegions env (unloaded cr0 cr4)).2.table = true ∧
        (∀ c, Idle ⟨cr0 c,cr4 c,false⟩ c (hbVmxAllocRegions env (unloaded cr0 cr4)).2) ∧
        (hbVmxAllocRegions env (unloaded cr0 cr4)).2.log = [] ∨
      (hbVmxAllocRegions env (unloaded cr0 cr4)).1 ≠ 0 ∧
        (∀ block, (hbVmxAllocRegions env (unloaded cr0 cr4)).2.allocated block = false) ∧
        (hbVmxAllocRegions env (unloaded cr0 cr4)).2.cpu = (unloaded cr0 cr4).cpu ∧
        (hbVmxAllocRegions env (unloaded cr0 cr4)).2.log = []) := by
  unfold hbVmxAllocRegions
  split
  · exact .inr ⟨errors_nonzero.2.2,fun _ => rfl,rfl,rfl⟩
  · dsimp only
    generalize start : ({ unloaded cr0 cr4 with
      table := true
      percpu := fun _ => ⟨false,false,false,0,0⟩
      allocated := Function.update (unloaded cr0 cr4).allocated .table true } : State) = s0
    have tracked : Tracked env s0 := by
      rw [← start]
      exact ⟨rfl,fun _ => rfl,fun _ => rfl,fun _ _ => ⟨rfl,rfl⟩⟩
    have fresh : s0.cpu = (unloaded cr0 cr4).cpu ∧ s0.log = [] ∧ s0.table = true ∧ ∀ c, (s0.percpu c).vmxOn = false := by
      rw [← start]
      exact ⟨rfl,rfl,rfl,fun _ => rfl⟩
    obtain ⟨after,idle,cpu_eq,log_eq,table_eq⟩ := allocCpus_spec env.online (fun _ member => member) s0 tracked fresh.2.2.2
    generalize allocCpus env env.online s0 = result at after idle cpu_eq log_eq table_eq ⊢
    obtain ⟨_ | _,s1⟩ := result
    · obtain ⟨none,same,log⟩ := hbVmxFreeRegions_spec after (table_eq.trans fresh.2.2.1)
      exact .inr ⟨errors_nonzero.2.2,none,same.trans (cpu_eq.trans fresh.1),log.trans (log_eq.trans fresh.2.1)⟩
    · refine .inl ⟨rfl,after,table_eq.trans fresh.2.2.1,fun c => ⟨?_,idle c⟩,log_eq.trans fresh.2.1⟩
      exact congrFun (cpu_eq.trans fresh.1) c

/-- Taking every processor out of VMX operation and freeing the regions undoes everything. -/
theorem hypervisorExit_spec {original : Nat → Cpu} (out : ∀ c, (original c).vmx = false) (tracked : Tracked env s)
    (present : s.table = true) (restorable : Restorable original s)
    (offline : ∀ c, c ∉ env.online → Idle (original c) c s) :
    (hypervisorExit env s).cpu = original ∧ (∀ block, (hypervisorExit env s).allocated block = false) ∧
      Extends Entry.Safe s.log (hypervisorExit env s).log := by
  obtain ⟨kept,still,back⟩ := teardownCpus_spec out env.online s restorable
  obtain ⟨none,cpu_eq,log_eq⟩ := hbVmxFreeRegions_spec (tracked.kept kept) (kept.table.trans present)
  have teardown : hbVmxTeardownAllCpus env s = env.online.foldl (fun s cpu => hbVmxoffOnCpu cpu s) s := by
    simp only [hbVmxTeardownAllCpus,present,Bool.not_true,Bool.false_eq_true,if_false]
  unfold hypervisorExit
  rw [teardown]
  refine ⟨?_,none,by rw [log_eq]; exact kept.log⟩
  rw [cpu_eq]
  funext c
  by_cases member : c ∈ env.online
  · exact (back c member).cpu_eq
  · exact (still c (offline c member)).cpu_eq

end Regions

section Load
variable (env : Env) (cr0 cr4 : Nat → U64)

/-- A load that succeeds leaves every online processor in VMX operation, to be undone by the unload;
one that fails has undone everything itself. -/
theorem hypervisorInit_spec :
    ((hypervisorInit env (unloaded cr0 cr4)).1 ≠ 0 →
      (hypervisorInit env (unloaded cr0 cr4)).2.cpu = (unloaded cr0 cr4).cpu ∧
        ∀ block, (hypervisorInit env (unloaded cr0 cr4)).2.allocated block = false) ∧
    ((hypervisorInit env (unloaded cr0 cr4)).1 = 0 →
      Tracked env (hypervisorInit env (unloaded cr0 cr4)).2 ∧ (hypervisorInit env (unloaded cr0 cr4)).2.table = true ∧
        (∀ c ∈ env.online, Running ((unloaded cr0 cr4).cpu c) c (hypervisorInit env (unloaded cr0 cr4)).2) ∧
        ∀ c, c ∉ env.online → Idle ((unloaded cr0 cr4).cpu c) c (hypervisorInit env (unloaded cr0 cr4)).2) ∧
    ∀ entry ∈ (hypervisorInit env (unloaded cr0 cr4)).2.log, entry.Safe := by
  unfold hypervisorInit
  split
  · exact ⟨fun _ => ⟨rfl,fun _ => rfl⟩,fun zero => absurd zero errors_nonzero.1,nofun⟩
  split
  · exact ⟨fun _ => ⟨rfl,fun _ => rfl⟩,fun zero => absurd zero errors_nonzero.1,nofun⟩
  split
  · exact ⟨fun _ => ⟨rfl,fun _ => rfl⟩,fun zero => absurd zero errors_nonzero.2.1,nofun⟩
  have regions := @hbVmxAllocRegions_spec env cr0 cr4
  generalize hbVmxAllocRegions env (unloaded cr0 cr4) = result at regions ⊢
  obtain ⟨ret,s⟩ := result
  dsimp only at regions ⊢
  rcases regions with ⟨rfl,tracked,present,idle,empty⟩ | ⟨failed,none,cpu_eq,empty⟩
  · have out : ∀ c, ((unloaded cr0 cr4).cpu c).vmx = false := fun _ => rfl
    have idles : ∀ c, Idle ((unloaded cr0 cr4).cpu c) c { s with probeFailed := false } := fun c =>
      ⟨(idle c).cpu_eq,(idle c).vmxOn⟩
    obtain ⟨kept,known,_,rests,all⟩ := @startupCpus_spec env _ out env.online { s with probeFailed := false }
      env.distinct rfl (fun c => .inr (idles c)) (fun c _ => idles c)
    have kept' : Kept s (startupCpus env env.online { s with probeFailed := false }).2 :=
      ⟨kept.table,kept.allocated,kept.vmxonRegion,kept.vmcsRegion,kept.log⟩
    have tracked' := tracked.kept kept'
    have present' := kept.table.trans present
    have offline := fun c outside => rests c (idles c) outside
    have safe : ∀ entry ∈ (startupCpus env env.online { s with probeFailed := false }).2.log, entry.Safe := by
      intro entry member
      rcases kept.log.split member with early | holds
      · rw [empty] at early
        cases early
      · exact holds
    by_cases zero : (startupCpus env env.online { s with probeFailed := false }).1 = 0
    · simp only [hbVmxStartupAllCpus,zero,ne_eq,not_true_eq_false,if_false,false_implies,true_implies,true_and]
      exact ⟨⟨tracked',present',fun c member => all zero c member,offline⟩,safe⟩
    · obtain ⟨back,none,log⟩ := hypervisorExit_spec out tracked' present' known offline
      simp only [hbVmxStartupAllCpus,zero,ne_eq,not_true_eq_false,not_false_eq_true,if_true,if_false,false_implies,
        true_implies,true_and]
      refine ⟨⟨back,none⟩,fun entry member => ?_⟩
      exact (log.split member).elim (safe entry) id
  · simp only [ne_eq,failed,not_false_eq_true,if_true,false_implies,true_implies,true_and]
    refine ⟨⟨cpu_eq,none⟩,?_⟩
    rw [empty]
    exact nofun

/-- Whatever fails on whatever processor: a load that fails leaves every processor out of VMX
operation with its original CR0 and CR4 and nothing allocated; one that succeeds leaves every
online processor in VMX operation, and the unload restores the same. -/
theorem hypervisor_restores :
    ((hypervisorInit env (unloaded cr0 cr4)).1 ≠ 0 →
      (∀ c, (hypervisorInit env (unloaded cr0 cr4)).2.cpu c = ⟨cr0 c,cr4 c,false⟩) ∧
        ∀ block, (hypervisorInit env (unloaded cr0 cr4)).2.allocated block = false) ∧
    ((hypervisorInit env (unloaded cr0 cr4)).1 = 0 →
      (∀ c ∈ env.online, ((hypervisorInit env (unloaded cr0 cr4)).2.cpu c).vmx = true) ∧
        (∀ c, (hypervisorExit env (hypervisorInit env (unloaded cr0 cr4)).2).cpu c = ⟨cr0 c,cr4 c,false⟩) ∧
        (∀ block, (hypervisorExit env (hypervisorInit env (unloaded cr0 cr4)).2).allocated block = false) ∧
        ∀ entry ∈ (hypervisorExit env (hypervisorInit env (unloaded cr0 cr4)).2).log, entry.Safe) ∧
    ∀ entry ∈ (hypervisorInit env (unloaded cr0 cr4)).2.log, entry.Safe := by
  obtain ⟨failure,success,safe⟩ := hypervisorInit_spec env cr0 cr4
  refine ⟨fun failed => ⟨congrFun (failure failed).1,(failure failed).2⟩,fun zero => ?_,safe⟩
  obtain ⟨tracked,present,running,offline⟩ := success zero
  have known : Restorable (unloaded cr0 cr4).cpu (hypervisorInit env (unloaded cr0 cr4)).2 := fun c => by
    by_cases member : c ∈ env.online
    · exact .inl (running c member)
    · exact .inr (offline c member)
  obtain ⟨back,none,log⟩ := hypervisorExit_spec (fun _ => rfl) tracked present known offline
  refine ⟨fun c member => (running c member).vmx,congrFun back,none,fun entry member => ?_⟩
  exact (log.split member).elim (safe entry) id

/-- Two processors with the usual fixed bits. -/
def probeSample : Env where
  online := [0,1]
  distinct := by decide
  vmxSupported := true
  biosVmxAllowed := true
  kvmLoaded := false
  obtains _ := true
  cr0Fixed0 _ := 0x80000021
  cr0Fixed1 _ := 0xFFFFFFFF
  cr4Fixed0 _ := 0x2000
  cr4Fixed1 _ := 0x3767FF
  vmxon _ := true
  vmclear _ := true
  vmptrld _ := true
  vmwrite _ _ := true
  vmread _ n := some (if n = 0 then 0xffffffffffffffff else 0x100000)
  captured _ _ := 0x100000

/-- The second processor does not take VMPTRLD. -/
def refusedSample : Env := { probeSample with vmptrld := fun c => c = 0 }

def sampleUnloaded : State := unloaded (fun _ => 0x80050033) (fun _ => 0x3606E0)

theorem hypervisor_restores_sample :
    (hypervisorInit probeSample sampleUnloaded).1 = 0 ∧
    (∀ c ∈ [0,1], ((hypervisorInit probeSample sampleUnloaded).2.cpu c).vmx = true) ∧
    (∀ c, (hypervisorExit probeSample (hypervisorInit probeSample sampleUnloaded).2).cpu c = ⟨0x80050033,0x3606E0,false⟩) ∧
    (hypervisorInit refusedSample sampleUnloaded).1 ≠ 0 ∧
    ∀ c, (hypervisorInit refusedSample sampleUnloaded).2.cpu c = ⟨0x80050033,0x3606E0,false⟩ := by
  have loads : (hypervisorInit probeSample sampleUnloaded).1 = 0 := by decide +kernel
  have fails : (hypervisorInit refusedSample sampleUnloaded).1 ≠ 0 := by decide +kernel
  obtain ⟨running,back,_⟩ := (@hypervisor_restores probeSample _ _).2.1 loads
  obtain ⟨restored,_⟩ := (@hypervisor_restores refusedSample _ _).1 fails
  exact ⟨loads,running,back,fails,restored⟩

end Load
end HyperBox.Probe
