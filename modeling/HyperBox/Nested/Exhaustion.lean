import HyperBox.Nested.Resume

/-! How long the table of nested VMCSs lasts. A slot is taken with the first access to a VMCS that
exits and is never given back, so the table holds what was accessed in the whole run. -/
namespace HyperBox.Nested
open HyperBox.Library HyperBox.PageTable HyperBox.Ept

/-- A state, and the VMCSs to which an access has exited on the way there. -/
structure SlotRun (n : Nat) where
  state : NestedState n
  accessed : Finset U64

section Lookups
variable {n : Nat} (env : VmxEnv n)

def isAccess : VmxInst → Bool
  | .vmread _ _ => true
  | .vmwrite _ _ => true
  | .invalidate => true
  | _ => false

/-- The current VMCS of the guest hypervisor, if an access to it exits. -/
def accesses (s : NestedState n) : VmxEvent n → Option U64
  | .exit taken =>
    if s.current taken.cpuId = env.guestVmcsPhyAddr taken.cpuId ∧ isAccess taken.inst ∧
        s.nestedVmcsPtr taken.cpuId ≠ 0 then some (s.nestedVmcsPtr taken.cpuId)
    else none
  | .shadowed _ _ _ => none

/-- The VMCS that an exit looks up: the one that is accessed, or that of the nested VM. -/
def looksUp (s : NestedState n) (event : VmxEvent n) : Option U64 :=
  match event with
  | .exit taken =>
    if s.current taken.cpuId = env.guestVmcsPhyAddr taken.cpuId then accesses env s event
    else some (s.current taken.cpuId)
  | .shadowed _ _ _ => none

def slotStep (r : SlotRun n) (event : VmxEvent n) : SlotRun n where
  state := vmxStep env r.state event
  accessed :=
    match accesses env r.state event with
    | some vmcs => insert vmcs r.accessed
    | none => r.accessed

def SlotFound (r : SlotRun n) (event : VmxEvent n) : Prop :=
  ∀ vmcs, looksUp env r.state event = some vmcs → hbFindNestedVmcsStruct r.state.nestedVmcsArray vmcs ≠ none

/-- The VMCS was accessed before, or fewer than the table has slots were. -/
def FewAccessed (r : SlotRun n) (event : VmxEvent n) : Prop :=
  ∀ vmcs, looksUp env r.state event = some vmcs → vmcs ∈ r.accessed ∨ r.accessed.card < maxNestedVmcs

end Lookups

/-- The table holds exactly the VMCSs that were accessed. -/
structure Filled {n : Nat} (r : SlotRun n) : Prop where
  packed : Packed (slotKey r.state.nestedVmcsArray) 0
  exact : ∀ vmcs, vmcs ∈ r.accessed ↔ vmcs ≠ 0 ∧ ∃ i, slotKey r.state.nestedVmcsArray i = vmcs

section Fill
variable {n : Nat} {env : VmxEnv n} {r : SlotRun n} {event : VmxEvent n}

theorem findNested_iff {slots : Fin maxNestedVmcs → NestedVmcs} {ptr : U64} :
    hbFindNestedVmcsStruct slots ptr ≠ none ↔ ∃ i, Fits (slotKey slots) 0 ptr i := by
  constructor
  · intro found
    obtain ⟨slot,found⟩ := Option.ne_none_iff_exists'.mp found
    exact ⟨slot,(findNested_some found).1⟩
  · rintro ⟨i,fits⟩ missing
    exact findNested_none missing i fits

theorem Filled.found_iff (filled : Filled r) : SlotFound env r event ↔ FewAccessed env r event := by
  refine forall_congr' (fun vmcs => imp_congr_right (fun _ => ?_))
  rw [findNested_iff]
  exact filled.packed.fits_iff filled.exact

theorem claimSlot_key {t : SlotState n} {cpuId : Fin n} {inst : VmxInst} {slot : Fin maxNestedVmcs}
    (found : hbFindNestedVmcsStruct t.array (t.pointer cpuId) = some slot) :
    slotKey (t.claimSlot cpuId inst).array = Function.update (slotKey t.array) slot (t.pointer cpuId) := by
  rw [claimSlot_found found]
  dsimp only
  rw [slotKey_update,useSlot_key]

theorem claimSlot_null {t : SlotState n} {cpuId : Fin n} (inst : VmxInst) (none : t.pointer cpuId = 0) :
    slotKey (t.claimSlot cpuId inst).array = slotKey t.array := by
  cases found : hbFindNestedVmcsStruct t.array (t.pointer cpuId) with
  | none => simp only [SlotState.claimSlot,found]
  | some slot =>
    have free : slotKey t.array slot = t.pointer cpuId := by simpa [Fits,none] using (findNested_some found).1
    rw [claimSlot_key found,← free,Function.update_eq_self]

theorem handle_access {t : SlotState n} {cpuId : Fin n} {inst : VmxInst} (access : isAccess inst = true) :
    t.handle cpuId inst = t.claimSlot cpuId inst := by
  cases inst <;> first | rfl | cases access

theorem handle_array {t : SlotState n} {cpuId : Fin n} {inst : VmxInst} (other : isAccess inst = false) :
    (t.handle cpuId inst).array = t.array := by
  cases inst with
  | vmclear data =>
    dsimp only [SlotState.handle]
    split <;> rfl
  | vmread => cases other
  | vmwrite => cases other
  | invalidate => cases other
  | _ => rfl

/-- The keys of the table change only with an access that exits. -/
theorem vmxStep_key (env : VmxEnv n) (s : NestedState n) (event : VmxEvent n) :
    slotKey (vmxStep env s event).nestedVmcsArray =
      match accesses env s event with
      | some vmcs =>
        match hbFindNestedVmcsStruct s.nestedVmcsArray vmcs with
        | some slot => Function.update (slotKey s.nestedVmcsArray) slot vmcs
        | none => slotKey s.nestedVmcsArray
      | none => slotKey s.nestedVmcsArray := by
  have step := congrArg SlotState.array (slots_vmxStep env s event)
  have array : (vmxStep env s event).nestedVmcsArray = (vmxStep env s event).slots.array := rfl
  rw [array,step]
  cases event with
  | shadowed cpuId field value => rfl
  | exit taken =>
    dsimp only [accesses]
    by_cases home : s.current taken.cpuId = env.guestVmcsPhyAddr taken.cpuId
    · rw [if_pos home]
      cases access : isAccess taken.inst with
      | false =>
        rw [handle_array access]
        simp [NestedState.slots]
      | true =>
        rw [handle_access access]
        by_cases none : s.nestedVmcsPtr taken.cpuId = 0
        · rw [claimSlot_null taken.inst none]
          simp [none,NestedState.slots]
        · simp only [home,none,ne_eq,not_false_eq_true,and_self,if_true]
          have pointer : s.slots.pointer taken.cpuId = s.nestedVmcsPtr taken.cpuId := rfl
          have table : s.slots.array = s.nestedVmcsArray := rfl
          cases found : hbFindNestedVmcsStruct s.nestedVmcsArray (s.nestedVmcsPtr taken.cpuId) with
          | none => simp only [SlotState.claimSlot,pointer,table,found]
          | some slot => exact claimSlot_key found
    · rw [if_neg home]
      simp [home,NestedState.slots]

theorem accesses_ne_zero {s : NestedState n} {vmcs : U64} (access : accesses env s event = some vmcs) :
    vmcs ≠ 0 ∧ looksUp env s event = some vmcs := by
  cases event with
  | shadowed cpuId field value => cases access
  | exit taken =>
    have seen := access
    dsimp only [accesses] at access
    split at access
    next here =>
      obtain rfl := Option.some.inj access
      refine ⟨here.2.2,?_⟩
      dsimp only [looksUp]
      rw [if_pos here.1]
      exact seen
    next => cases access

theorem Filled.step (filled : Filled r) (found : SlotFound env r event) : Filled (slotStep env r event) := by
  have keys := vmxStep_key env r.state event
  cases access : accesses env r.state event with
  | none =>
    have state : (slotStep env r event).accessed = r.accessed := by simp only [slotStep,access]
    rw [access] at keys
    have table : slotKey (slotStep env r event).state.nestedVmcsArray = slotKey r.state.nestedVmcsArray := keys
    exact ⟨table ▸ filled.packed,by rw [state,table]; exact filled.exact⟩
  | some vmcs =>
    obtain ⟨real,seen⟩ := accesses_ne_zero access
    obtain ⟨slot,here⟩ := Option.ne_none_iff_exists'.mp (found vmcs seen)
    have state : (slotStep env r event).accessed = insert vmcs r.accessed := by simp only [slotStep,access]
    simp only [access,here] at keys
    have table : slotKey (slotStep env r event).state.nestedVmcsArray =
        Function.update (slotKey r.state.nestedVmcsArray) slot vmcs := keys
    have first := findNested_some here
    refine ⟨table ▸ filled.packed.claim real first,?_⟩
    rw [state,table]
    exact Packed.claim_exact filled.exact real first

theorem filled_start {start : NestedState n} (empty : ∀ slot, (start.nestedVmcsArray slot).vmcsPtr = 0) :
    Filled ⟨start,∅⟩ := by
  refine ⟨.empty empty,fun vmcs => iff_of_false (Finset.notMem_empty vmcs) ?_⟩
  rintro ⟨real,i,here⟩
  exact real (here.symm.trans (empty i))

end Fill

/-- In every run from an empty table, the lookups find a slot exactly as long as each is for a VMCS
accessed before or fewer VMCSs than the table has slots were accessed. -/
theorem slots_found_iff {n : Nat} (env : VmxEnv n) {start : NestedState n}
    (empty : ∀ slot, (start.nestedVmcsArray slot).vmcsPtr = 0) (events : List (VmxEvent n)) :
    Along (slotStep env) (SlotFound env) ⟨start,∅⟩ events ↔ Along (slotStep env) (FewAccessed env) ⟨start,∅⟩ events :=
  along_iff Filled (fun _ _ _ filled found => filled.step found) (fun _ _ _ filled => filled.found_iff)
    (filled_start empty) (fun _ _ => trivial)

section Turnover
variable {n : Nat}

/-- The regions that are VMPTRLDed and not VMCLEARed since. -/
def activeStep (active : Finset U64) : VmxEvent n → Finset U64
  | .exit taken =>
    match taken.inst with
    | .vmptrld data => insert data active
    | .vmclear data => active.erase data
    | _ => active
  | .shadowed _ _ _ => active

variable {env : VmxEnv n} {r : SlotRun n} {taken : VmxExit n}

structure HomeRun (env : VmxEnv n) (cpuId : Fin n) (r : SlotRun n) : Prop where
  placed : Placed env (Sound env) r.state
  home : r.state.current cpuId = env.guestVmcsPhyAddr cpuId

theorem HomeRun.step (home : HomeRun env taken.cpuId r) (stays : isBackToVm taken.inst = false)
    (named : taken.inst.Names (Sound env)) : HomeRun env taken.cpuId (slotStep env r (.exit taken)) ∧
      (slotStep env r (.exit taken)).state.slots = r.state.slots.handle taken.cpuId taken.inst := by
  have named' : (VmxEvent.exit taken).Names (Sound env) := named
  have current : (vmxStep env r.state (.exit taken)).current = r.state.current := by
    have seen := congrArg Control.current (control_vmxStep home.placed named')
    have start : (r.state.control env).current taken.cpuId = env.guestVmcsPhyAddr taken.cpuId := home.home
    have returned : ((r.state.control env).step env (.exit taken)).current = (r.state.control env).current := by
      dsimp only [Control.step,Control.enter,Control.setLaunched,Control.returns]
      rw [if_pos start,Control.refresh_current,(Control.handle_stays stays).1]
      rfl
    exact seen.trans returned
  refine ⟨⟨run_placed home.placed (List.forall_mem_singleton.mpr named'),?_⟩,?_⟩
  · exact (congrFun current taken.cpuId).trans home.home
  · have slots := slots_vmxStep env r.state (.exit taken)
    dsimp only at slots
    rwa [if_pos home.home] at slots

theorem HomeRun.looksUp_eq (home : HomeRun env taken.cpuId r) :
    looksUp env r.state (.exit taken) = accesses env r.state (.exit taken) := if_pos home.home

theorem HomeRun.accesses_eq (home : HomeRun env taken.cpuId r) :
    accesses env r.state (.exit taken) =
      if isAccess taken.inst ∧ r.state.nestedVmcsPtr taken.cpuId ≠ 0 then some (r.state.nestedVmcsPtr taken.cpuId)
      else none := by
  simp [accesses,home.home]

theorem HomeRun.plain (home : HomeRun env taken.cpuId r) (filled : Filled r) (other : isAccess taken.inst = false) :
    Filled (slotStep env r (.exit taken)) ∧ (slotStep env r (.exit taken)).accessed = r.accessed := by
  have none : accesses env r.state (.exit taken) = none := by simp [home.accesses_eq,other]
  constructor
  · apply filled.step
    intro vmcs seen
    rw [home.looksUp_eq,none] at seen
    cases seen
  · simp only [slotStep,none]

theorem HomeRun.access (home : HomeRun env taken.cpuId r) (filled : Filled r) (access : isAccess taken.inst = true)
    (real : r.state.nestedVmcsPtr taken.cpuId ≠ 0) (room : r.accessed.card < maxNestedVmcs) :
    Filled (slotStep env r (.exit taken)) ∧
      (slotStep env r (.exit taken)).accessed = insert (r.state.nestedVmcsPtr taken.cpuId) r.accessed := by
  have seen : accesses env r.state (.exit taken) = some (r.state.nestedVmcsPtr taken.cpuId) := by
    rw [home.accesses_eq,if_pos ⟨access,real⟩]
  constructor
  · exact filled.step (filled.found_iff.mpr (fun _ _ => .inr room))
  · simp only [slotStep,seen]

theorem slotRun_state (r : SlotRun n) (events : List (VmxEvent n)) :
    (run (slotStep env) r events).state = run (vmxStep env) r.state events := by
  induction events generalizing r with
  | nil => rfl
  | cons event rest ih => exact ih (slotStep env r event)

end Turnover

section Sample

def regionAt (k : Nat) : U64 := BitVec.ofNat 64 ((k + 16) * 4096)

def useOnce (k : Nat) : List (VmxEvent 1) :=
  [sampleExit (.vmptrld (regionAt k)),sampleExit (.vmwrite vmHostRip 0x1111),sampleExit (.vmclear (regionAt k))]

def turnover (m : Nat) : List (VmxEvent 1) := (List.range m).flatMap useOnce

theorem regionAt_toNat {k : Nat} (small : k ≤ 1024) : (regionAt k).toNat = (k + 16) * 4096 := by
  rw [regionAt,BitVec.toNat_ofNat]
  omega

theorem regionAt_ne_zero {k : Nat} (small : k ≤ 1024) : regionAt k ≠ 0 := by
  intro zero
  have value := regionAt_toNat small
  rw [zero] at value
  have none : (0 : U64).toNat = 0 := rfl
  omega

theorem regionAt_inj {j k : Nat} (small : j ≤ 1024) (small' : k ≤ 1024) (same : regionAt j = regionAt k) : j = k := by
  have value := regionAt_toNat small
  rw [same,regionAt_toNat small'] at value
  omega

theorem sound_regionAt {k : Nat} (small : k ≤ 1024) : Sound sampleVmx (regionAt k) := by
  have value := regionAt_toNat small
  have aligned : pageStart (regionAt k) = regionAt k := by
    apply BitVec.eq_of_toNat_eq
    rw [pageStart_toNat,value]
    omega
  refine ⟨?_,fun _ => aligned⟩
  rw [Foreign,pageStart_dword aligned]
  rintro ⟨_,guest | vmxOn⟩
  · have page : (regionAt k).toNat = 0x2000 := congrArg BitVec.toNat guest
    omega
  · have page : (regionAt k).toNat = 0x1000 := congrArg BitVec.toNat vmxOn
    omega

structure Used (m : Nat) (r : SlotRun 1) : Prop where
  home : HomeRun sampleVmx 0 r
  filled : Filled r
  pointer : r.state.nestedVmcsPtr 0 = 0
  accessed : r.accessed = (Finset.range m).image regionAt

theorem Used.card {m : Nat} {r : SlotRun 1} (used : Used m r) (small : m ≤ 1024) : r.accessed.card = m := by
  rw [used.accessed,Finset.card_image_of_injOn,Finset.card_range]
  intro j low k low' same
  have first := Finset.mem_range.mp low
  have second := Finset.mem_range.mp low'
  exact regionAt_inj (by omega) (by omega) same

theorem Used.load {m : Nat} {r : SlotRun 1} (used : Used m r) (small : m ≤ 1024) :
    HomeRun sampleVmx 0 (slotStep sampleVmx r (sampleExit (.vmptrld (regionAt m)))) ∧
    Filled (slotStep sampleVmx r (sampleExit (.vmptrld (regionAt m)))) ∧
    (slotStep sampleVmx r (sampleExit (.vmptrld (regionAt m)))).state.nestedVmcsPtr 0 = regionAt m ∧
    (slotStep sampleVmx r (sampleExit (.vmptrld (regionAt m)))).accessed = r.accessed := by
  let taken : VmxExit 1 := ⟨0,fun _ => 0,0,.vmptrld (regionAt m)⟩
  have home : HomeRun sampleVmx taken.cpuId r := used.home
  obtain ⟨next,slots⟩ := home.step rfl (sound_regionAt small)
  obtain ⟨filled,accessed⟩ := home.plain used.filled rfl
  refine ⟨next,filled,?_,accessed⟩
  have pointer : (r.state.slots.handle 0 (.vmptrld (regionAt m))).pointer 0 = regionAt m := by
    simp [SlotState.handle,SlotState.setPointer]
  exact (congrFun (congrArg SlotState.pointer slots) 0).trans pointer

theorem Used.step {m : Nat} {r : SlotRun 1} (used : Used m r) (room : m < 1024) :
    Used (m+1) (run (slotStep sampleVmx) r (useOnce m)) := by
  have real : regionAt m ≠ 0 := regionAt_ne_zero (by omega)
  obtain ⟨loaded,filled,pointer,accessed⟩ := used.load (by omega)
  rw [useOnce,run_cons,run_cons,run_cons,run_nil]
  generalize slotStep sampleVmx r (sampleExit (.vmptrld (regionAt m))) = r1 at loaded filled pointer accessed ⊢
  let write : VmxExit 1 := ⟨0,fun _ => 0,0,.vmwrite vmHostRip 0x1111⟩
  have loaded' : HomeRun sampleVmx write.cpuId r1 := loaded
  have count : r1.accessed.card < maxNestedVmcs := by
    rw [accessed,used.card (by omega)]
    exact room
  obtain ⟨written,slots⟩ := loaded'.step rfl trivial
  obtain ⟨filled',accessed'⟩ := loaded'.access filled rfl (by rwa [← pointer] at real) count
  have pointer' : (slotStep sampleVmx r1 (.exit write)).state.nestedVmcsPtr 0 = regionAt m := by
    have same := congrFun (congrArg SlotState.pointer slots) 0
    rw [handle_access rfl,SlotState.claimSlot_pointer] at same
    exact same.trans pointer
  change Used (m+1) (slotStep sampleVmx (slotStep sampleVmx r1 (.exit write)) (sampleExit (.vmclear (regionAt m))))
  generalize slotStep sampleVmx r1 (.exit write) = r2 at written filled' pointer' accessed' ⊢
  let clear : VmxExit 1 := ⟨0,fun _ => 0,0,.vmclear (regionAt m)⟩
  have written' : HomeRun sampleVmx clear.cpuId r2 := written
  obtain ⟨cleared,slots'⟩ := written'.step rfl (sound_regionAt (by omega))
  obtain ⟨filled'',accessed''⟩ := written'.plain filled' rfl
  refine ⟨cleared,filled'',?_,?_⟩
  · have here : r2.state.slots.pointer 0 = regionAt m := pointer'
    have none : (r2.state.slots.handle 0 (.vmclear (regionAt m))).pointer 0 = 0 := by
      simp [SlotState.handle,SlotState.setPointer,here]
    exact (congrFun (congrArg SlotState.pointer slots') 0).trans none
  · have given : r1.state.nestedVmcsPtr write.cpuId = regionAt m := pointer
    have all : (slotStep sampleVmx r2 (.exit clear)).accessed = insert (regionAt m) r.accessed := by
      rw [accessed'',accessed',given,accessed]
    rw [Finset.range_add_one,Finset.image_insert,← used.accessed]
    exact all

theorem turnover_used {m : Nat} (small : m ≤ 1024) :
    Used m (run (slotStep sampleVmx) ⟨sampleLaunch,∅⟩ (turnover m)) := by
  induction m with
  | zero => exact ⟨⟨sampleLaunch_launched.placed sound_zero,rfl⟩,filled_start (fun _ => rfl),rfl,rfl⟩
  | succ m ih =>
    rw [turnover,List.range_succ,List.flatMap_append,run_append,List.flatMap_singleton]
    exact (ih (by omega)).step (by omega)

theorem useOnce_active (k : Nat) : Along activeStep (fun active _ => active.card ≤ 1) ∅ (useOnce k) ∧
    run activeStep ∅ (useOnce k) = ∅ := by
  simp [useOnce,sampleExit,activeStep,Along]

theorem turnover_active (m : Nat) : Along activeStep (fun active _ => active.card ≤ 1) ∅ (turnover m) ∧
    run activeStep ∅ (turnover m) = ∅ := by
  induction m with
  | zero => exact ⟨trivial,rfl⟩
  | succ m ih =>
    rw [turnover,List.range_succ,List.flatMap_append,List.flatMap_singleton,along_append,run_append,← turnover,ih.2]
    exact ⟨⟨ih.1,(useOnce_active m).1⟩,(useOnce_active m).2⟩

theorem turnover_load_active (m : Nat) : Along activeStep (fun active _ => active.card ≤ 1) ∅
    (turnover m ++ [sampleExit (.vmptrld (regionAt m))]) := by
  obtain ⟨along,active⟩ := turnover_active m
  rw [along_append,active]
  have none : (∅ : Finset U64).card ≤ 1 := Nat.zero_le 1
  exact ⟨along,none,trivial⟩

theorem turnover_exhausts {m : Nat} (full : m = maxNestedVmcs) :
    Along activeStep (fun active _ => active.card ≤ 1) ∅ (turnover m ++ [sampleExit (.vmptrld (regionAt m))]) ∧
    (run (vmxStep sampleVmx) sampleLaunch (turnover m ++ [sampleExit (.vmptrld (regionAt m))])).nestedVmcsPtr 0 =
      regionAt m ∧
    hbFindNestedVmcsStruct (run (vmxStep sampleVmx) sampleLaunch
      (turnover m ++ [sampleExit (.vmptrld (regionAt m))])).nestedVmcsArray (regionAt m) = none := by
  unfold maxNestedVmcs at full
  have used := turnover_used (show m ≤ 1024 by omega)
  obtain ⟨_,filled,pointer,accessed⟩ := used.load (by omega)
  have state : (slotStep sampleVmx (run (slotStep sampleVmx) ⟨sampleLaunch,∅⟩ (turnover m))
      (sampleExit (.vmptrld (regionAt m)))).state =
      run (vmxStep sampleVmx) sampleLaunch (turnover m ++ [sampleExit (.vmptrld (regionAt m))]) := by
    rw [run_append,← slotRun_state ⟨sampleLaunch,∅⟩]
    rfl
  generalize slotStep sampleVmx (run (slotStep sampleVmx) ⟨sampleLaunch,∅⟩ (turnover m))
    (sampleExit (.vmptrld (regionAt m))) = r at filled pointer accessed state
  refine ⟨turnover_load_active m,state ▸ pointer,?_⟩
  by_contra found
  rw [← state,← ne_eq,findNested_iff,filled.packed.fits_iff filled.exact,accessed,used.card (by omega)] at found
  rcases found with member | room
  · rw [used.accessed] at member
    obtain ⟨k,low,same⟩ := Finset.mem_image.mp member
    have small := Finset.mem_range.mp low
    have equal := regionAt_inj (by omega) (by omega) same
    omega
  · unfold maxNestedVmcs at room
    omega

/-- With one region active at any time, the access to the 1025th finds no slot. -/
theorem slots_exhausted :
    Along activeStep (fun active _ => active.card ≤ 1) ∅
      (turnover maxNestedVmcs ++ [sampleExit (.vmptrld (regionAt maxNestedVmcs))]) ∧
    (run (vmxStep sampleVmx) sampleLaunch
      (turnover maxNestedVmcs ++ [sampleExit (.vmptrld (regionAt maxNestedVmcs))])).nestedVmcsPtr 0 =
        regionAt maxNestedVmcs ∧
    hbFindNestedVmcsStruct (run (vmxStep sampleVmx) sampleLaunch
      (turnover maxNestedVmcs ++ [sampleExit (.vmptrld (regionAt maxNestedVmcs))])).nestedVmcsArray (regionAt maxNestedVmcs) = none :=
  turnover_exhausts (m := maxNestedVmcs) rfl

theorem slots_found_sample :
    Along (slotStep sampleVmx) (SlotFound sampleVmx) ⟨sampleLaunch,∅⟩
      [sampleExit (.vmptrld (regionAt 0)),sampleExit (.vmwrite vmHostRip 0x1111)] := by
  refine (slots_found_iff sampleVmx (fun _ => rfl)
    [sampleExit (.vmptrld (regionAt 0)),sampleExit (.vmwrite vmHostRip 0x1111)]).mpr ⟨?_,?_,trivial⟩
  · exact fun _ _ => .inr (by decide)
  · exact fun _ _ => .inr (by decide)

end Sample
end HyperBox.Nested
