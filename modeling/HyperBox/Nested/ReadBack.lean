import HyperBox.Nested.OperandExit

/-! VMWRITE and then VMREAD of the same field, and what VMREAD leaves alone. -/
namespace HyperBox.Nested
open HyperBox.Library HyperBox.PageTable HyperBox.Ept

section Cut

/-- What a field keeps of a value that is written to it, as it is read back. -/
def fieldCut (field value : U64) : U64 :=
  if highAccess field then value &&& 0xFFFFFFFF
  else match fieldWidth field with
    | .word => value &&& 0xFFFF
    | .double => value &&& 0xFFFFFFFF
    | .quad => value
    | .natural => value

theorem lowDword_bit (i : Nat) : (BitVec.ofNat 64 4294967295).getLsbD i = decide (i < 32) := by
  rw [show 4294967295 = 2^32 - 1 by rfl,BitVec.getLsbD_ofNat,Nat.testBit_two_pow_sub_one]
  by_cases low : i < 32
  · simp [low,Nat.lt_trans low (show 32 < 64 by decide)]
  · simp [low]

theorem high_dword (old value : U64) :
    ((old &&& BitVec.ofNat 64 4294967295) ||| (value <<< 32)) >>> 32 = value &&& BitVec.ofNat 64 4294967295 := by
  apply BitVec.eq_of_getLsbD_eq
  intro i bound
  have beyond : ¬ 32 + i < 32 := by omega
  have inside : 32 + i < 64 ↔ i < 32 := by omega
  rw [BitVec.getLsbD_ushiftRight,BitVec.getLsbD_or,BitVec.getLsbD_and,BitVec.getLsbD_and,BitVec.getLsbD_shiftLeft,
    lowDword_bit,lowDword_bit,Nat.add_sub_cancel_left]
  simp [beyond,inside,Bool.and_comm]

theorem read_write (region : Region) (field value : U64) : (region.write field value).read field = fieldCut field value := by
  unfold Region.read Region.write fieldCut fieldValue
  cases high : highAccess field with
  | true =>
    simp only [if_true,Function.update_self]
    exact high_dword _ _
  | false =>
    rw [fieldKey_low high]
    cases fieldWidth field <;> simp

theorem fieldCut_host {field : U64} (host : field ∈ hostFields) (value : U64) : fieldCut field value = value := by
  simp only [hostFields,List.mem_cons,List.not_mem_nil,or_false] at host
  rcases host with rfl | rfl | rfl <;> rfl

theorem littleEndian_inj {value value' : U64} (same : Exit.littleEndian 8 value = Exit.littleEndian 8 value') :
    value = value' := by
  apply word_ext
  intro lane
  exact List.map_inj_left.mp same lane.val (List.mem_range.mpr lane.isLt)

end Cut

section Undisturbed
variable {n : Nat} {env : VmxEnv n} {s s' s'' : NestedState n} {cpuId : Fin n} {region : U64}

/-- A CPU still finds and loads a nested VMCS as before, with the same contents. -/
structure Undisturbed (env : VmxEnv n) (cpuId : Fin n) (region : U64) (s s' : NestedState n) : Prop where
  pointer : s'.nestedVmcsPtr cpuId = s.nestedVmcsPtr cpuId
  array : s'.nestedVmcsArray = s.nestedVmcsArray
  fields : ∀ field, s'.field region field = s.field region field
  loads : loadable env cpuId s region → loadable env cpuId s' region

theorem Undisturbed.trans (first : Undisturbed env cpuId region s s') (second : Undisturbed env cpuId region s' s'') :
    Undisturbed env cpuId region s s'' where
  pointer := second.pointer.trans first.pointer
  array := second.array.trans first.array
  fields field := (second.fields field).trans (first.fields field)
  loads before := second.loads (first.loads before)

theorem Unmoved.undisturbed (unmoved : Unmoved s s') (fields : ∀ field, s'.field region field = s.field region field) :
    Undisturbed env cpuId region s s' :=
  ⟨congrFun unmoved.pointer cpuId,unmoved.array,fields,fun before => (unmoved.loadable cpuId region).trans before⟩

variable (apart : region ≠ s.current cpuId)
include apart

theorem hbWriteVmcs_undisturbed (field value : U64) :
    Undisturbed env cpuId region s (hbWriteVmcs env cpuId s field value) :=
  (hbWriteVmcs_unmoved env s cpuId field value).undisturbed (hbWriteVmcs_elsewhere apart)

theorem handled_undisturbed (stale : U64) : Undisturbed env cpuId region s
    (hbClearVmxInstFlags env cpuId stale (hbAdvanceVmGuestRip env cpuId stale s)) := by
  obtain ⟨rip,advanced⟩ := hbAdvanceVmGuestRip_write env cpuId stale s
  rw [advanced]
  exact (hbWriteVmcs_undisturbed apart _ _).trans (hbWriteVmcs_undisturbed (by rwa [hbWriteVmcs_current]) _ _)

theorem vmExit_undisturbed {exit : VmxExit n} (same : exit.cpuId = cpuId) :
    Undisturbed env cpuId region s (vmExit exit s) := by
  subst same
  have saved : ∀ field, (s.updateRegion (s.current exit.cpuId) (fun region => region.save exit.saved)).field region field =
      s.field region field := updateRegion_field_other apart _
  exact (vmExit_unmoved s exit).undisturbed saved

end Undisturbed

section Refresh
variable {n : Nat} {env : VmxEnv n} {s : NestedState n} {cpuId : Fin n} {region : U64}

theorem vmEntry_undisturbed : Undisturbed env cpuId region s (vmEntry s cpuId) := by
  have unmoved : Unmoved s (vmEntry s cpuId) := updateRegion_unmoved s _ (fun _ => rfl)
  exact unmoved.undisturbed (fun field => vmEntry_field cpuId region field)

theorem relink_loads {t : Control n} (loads : t.loads env cpuId region) :
    (t.relink env cpuId region).loads env cpuId region := by
  unfold Control.relink
  split
  next shadowing =>
    simp only [Control.loads,Control.setLink,Control.mark,Control.clear_revision,Function.update_self,if_true,
      Bool.and_eq_true] at loads ⊢
    refine ⟨loads.1,?_⟩
    have good := loads.2
    simp only [goodRevision,shadowing,Bool.true_and,Bool.or_eq_true,decide_eq_true_eq] at good ⊢
    right
    rcases good with plain | marked
    · rw [plain]
    · rw [marked,BitVec.or_assoc,BitVec.or_self]
  next => exact loads

theorem setShadowing_undisturbed (home : s.current cpuId = env.guestVmcsPhyAddr cpuId) (foreign : Foreign env region)
    (loads : loadable env cpuId s region) :
    Undisturbed env cpuId region s (hbVmSetVmcsShadowingToCurrent env cpuId s region) := by
  have differ : s.current cpuId ≠ region := by
    rw [home]
    exact foreign_ne_own foreign
  have aligned : pageStart region = region := by
    simp only [loadable,Processor.validAddress,Bool.and_eq_true,decide_eq_true_eq] at loads
    exact loads.1.1.1
  have slots : (hbVmSetVmcsShadowingToCurrent env cpuId s region).slots = s.slots := slots_setShadowing env cpuId s region
  refine ⟨congrFun (congrArg SlotState.pointer slots) cpuId,congrArg SlotState.array slots,?_,?_⟩
  · intro field
    unfold hbVmSetVmcsShadowingToCurrent
    split
    · rfl
    · rw [hbWriteVmcs_elsewhere,shadowStore_aligned aligned]
      · have cleared : (hbClearVmcs env cpuId s region).2.field region field = s.field region field :=
          hbClearVmcs_field _ _ _
        simpa [NestedState.field] using cleared
      · exact ((congrFun (hbClearVmcs_current differ) cpuId).trans home).symm ▸ (foreign_ne_own foreign).symm
  · intro before
    have control := control_relink home ⟨foreign,fun _ => aligned⟩
    have same : loadable env cpuId (hbVmSetVmcsShadowingToCurrent env cpuId s region) region =
        ((s.control env).relink env cpuId region).loads env cpuId region := by
      rw [← control]
      rfl
    rw [same]
    exact relink_loads before

end Refresh

section Held
variable {n : Nat} {env : VmxEnv n} {s s' : NestedState n} {cpuId : Fin n} {region field value : U64}
  {slot : Fin maxNestedVmcs}

theorem findNested_claimed {slots : Fin maxNestedVmcs → NestedVmcs} {entry : NestedVmcs}
    (found : hbFindNestedVmcsStruct slots entry.vmcsPtr = some slot) :
    hbFindNestedVmcsStruct (Function.update slots slot entry) entry.vmcsPtr = some slot := by
  have claimed := (findNested_some found).claimed
  rw [← slotKey_update] at claimed
  cases again : hbFindNestedVmcsStruct (Function.update slots slot entry) entry.vmcsPtr with
  | none => exact absurd claimed.1 (findNested_none again slot)
  | some other => exact congrArg some ((findNested_some again).unique claimed)

/-- The current nested VMCS of a CPU holds a value in a field, which is in its slot if the field
is one of the three of the host state. -/
structure Held (env : VmxEnv n) (cpuId : Fin n) (region : U64) (slot : Fin maxNestedVmcs) (field value : U64)
    (s : NestedState n) : Prop where
  pointer : s.nestedVmcsPtr cpuId = region
  found : hbFindNestedVmcsStruct s.nestedVmcsArray region = some slot
  loads : loadable env cpuId s region
  entry : field ∈ hostFields → slotValue field (s.nestedVmcsArray slot) = value
  stored : field ∉ hostFields → (s.regions region).read field = value

theorem Held.undisturbed (held : Held env cpuId region slot field value s)
    (kept : Undisturbed env cpuId region s s') : Held env cpuId region slot field value s' where
  pointer := kept.pointer.trans held.pointer
  found := by rw [kept.array,held.found]
  loads := kept.loads held.loads
  entry host := by rw [kept.array,held.entry host]
  stored guest := by
    have same : (s'.regions region).fields = (s.regions region).fields := funext kept.fields
    rw [← held.stored guest,Region.read,Region.read,same]

theorem loadable_real (loads : loadable env cpuId s region) : region ≠ noVmcs := by
  have same : (s.control env).loads env cpuId region = true := loads
  exact (loads_clearable same).2

theorem nestedFieldValue_held (held : Held env cpuId region slot field value s) (supported : env.supported field) :
    nestedFieldValue env cpuId (s.setCurrent cpuId region) (s.nestedVmcsArray slot) field = value := by
  have real := loadable_real held.loads
  by_cases host : field ∈ hostFields
  · rw [← held.entry host]
    simp only [hostFields,List.mem_cons,List.not_mem_nil,or_false] at host
    rcases host with rfl | rfl | rfl <;> rfl
  · have other : field ≠ vmHostRip ∧ field ≠ vmHostRsp ∧ field ≠ vmHostCr3 := by
      simpa [hostFields] using host
    rw [nestedFieldValue,if_neg other.1,if_neg other.2.1,if_neg other.2.2,hbReadVmcs,
      if_pos ⟨by simpa using real,supported⟩,Option.getD_some,← held.stored host]
    simp

theorem hostFieldValue_guest (regField destAddr : U64) (guest : regField ∉ hostFields) :
    hostFieldValue env cpuId regField destAddr = destAddr := by
  have other : regField ≠ vmHostRip ∧ regField ≠ vmHostRsp ∧ regField ≠ vmHostCr3 := by
    simpa [hostFields] using guest
  rw [hostFieldValue,if_neg other.1,if_neg other.2.1,if_neg other.2.2]

theorem emulateVmwrite_regions (slot : Fin maxNestedVmcs) (home : AtHome env (Foreign env) (fun _ => True) cpuId s)
    (loads : loadable env cpuId s (s.nestedVmcsPtr cpuId)) (supported : env.supported field)
    (writable : env.writable field) (destAddr : U64) :
    (emulateVmwrite env cpuId s slot (env.guestVmcsPhyAddr cpuId) field destAddr).regions =
      (s.updateRegion (s.nestedVmcsPtr cpuId)
        (fun region => region.write field (hostFieldValue env cpuId field destAddr))).regions := by
  have stable := placed_stable env (Foreign env)
  have slotted := home.updateSlot stable slot (saveHostField field destAddr)
  have foreign := home.placed.pointer cpuId
  have current : ((s.updateSlot slot (saveHostField field destAddr)).setCurrent cpuId
      (s.nestedVmcsPtr cpuId)).current cpuId = s.nestedVmcsPtr cpuId := by simp
  have entered : Guarded env (Foreign env) (fun _ => True)
      ((s.updateSlot slot (saveHostField field destAddr)).setCurrent cpuId (s.nestedVmcsPtr cpuId)) :=
    slotted.visit stable
  have written := entered.guestWrite stable (fun _ foreign => foreign) (by rwa [current]) field destAddr
  have loaded : hbLoadVmcs env cpuId (s.updateSlot slot (saveHostField field destAddr)) (s.nestedVmcsPtr cpuId) =
      (true,(s.updateSlot slot (saveHostField field destAddr)).setCurrent cpuId (s.nestedVmcsPtr cpuId)) := if_pos loads
  unfold emulateVmwrite
  dsimp only
  rw [NestedState.updateSlot_nestedVmcsPtr,loaded]
  dsimp only
  rw [written.placed.load_own,guestVmwrite,hbWriteVmcs,NestedState.record_current,current,
    if_pos ⟨loadable_real loads,supported,writable⟩]
  rfl

/-- A VMWRITE that is emulated with a slot and a VMCS to load leaves the value in the field. -/
theorem vmwrite_held (home : AtHome env (Foreign env) (fun _ => True) cpuId s)
    (loads : loadable env cpuId s (s.nestedVmcsPtr cpuId))
    (found : hbFindNestedVmcsStruct s.nestedVmcsArray (s.nestedVmcsPtr cpuId) = some slot)
    (supported : env.supported field) (writable : env.writable field) (stale destAddr : U64) :
    Held env cpuId (s.nestedVmcsPtr cpuId) slot field (fieldCut field destAddr)
      (hbVmExitCallbackVmxInstType2 env cpuId stale s (.vmwrite field destAddr)) := by
  have stable := placed_stable env (Foreign env)
  have start := home.handled stale stable
  have apart : s.nestedVmcsPtr cpuId ≠ s.current cpuId := by
    rw [home.home]
    exact (foreign_ne_own (home.placed.pointer cpuId)).symm
  have kept : Undisturbed env cpuId (s.nestedVmcsPtr cpuId) s _ := handled_undisturbed apart stale
  have slots := slots_type2 env cpuId stale s (.vmwrite field destAddr)
  rw [claimSlot_found found] at slots
  have table : (hbVmExitCallbackVmxInstType2 env cpuId stale s (.vmwrite field destAddr)).nestedVmcsArray =
      Function.update s.nestedVmcsArray slot (SlotState.useSlot (s.nestedVmcsPtr cpuId) (.vmwrite field destAddr)
        (s.nestedVmcsArray slot)) := congrArg SlotState.array slots
  have key := useSlot_key (s.nestedVmcsPtr cpuId) (.vmwrite field destAddr) (s.nestedVmcsArray slot)
  have regions : (hbVmExitCallbackVmxInstType2 env cpuId stale s (.vmwrite field destAddr)).regions =
      ((hbClearVmxInstFlags env cpuId stale (hbAdvanceVmGuestRip env cpuId stale s)).updateRegion
        (s.nestedVmcsPtr cpuId) (fun region => region.write field (hostFieldValue env cpuId field destAddr))).regions := by
    unfold hbVmExitCallbackVmxInstType2
    dsimp only
    generalize hbClearVmxInstFlags env cpuId stale (hbAdvanceVmGuestRip env cpuId stale s) = s' at start kept
    rw [kept.array,kept.pointer,found,hbStoreVmcs,start.home]
    have slotted := start.updateSlot stable slot (fun entry => { entry with vmcsPtr := s.nestedVmcsPtr cpuId })
    have result := emulateVmwrite_regions slot slotted
      (by rw [NestedState.updateSlot_nestedVmcsPtr,kept.pointer]; exact kept.loads loads) supported writable destAddr
    rw [NestedState.updateSlot_nestedVmcsPtr,kept.pointer] at result
    exact result
  have here := congrFun regions (s.nestedVmcsPtr cpuId)
  rw [NestedState.updateRegion_regions,Function.update_self] at here
  refine ⟨congrFun (congrArg SlotState.pointer slots) cpuId,?_,?_,?_,?_⟩
  · rw [table]
    have claimed := @findNested_claimed slot s.nestedVmcsArray
      (SlotState.useSlot (s.nestedVmcsPtr cpuId) (.vmwrite field destAddr) (s.nestedVmcsArray slot))
    rw [key] at claimed
    exact claimed found
  · have before := kept.loads loads
    unfold loadable at before ⊢
    rw [here]
    exact before
  · intro host
    rw [table,fieldCut_host host,Function.update_self,useSlot_value host]
    exact if_pos rfl
  · intro guest
    rw [here,read_write,hostFieldValue_guest _ _ guest]

end Held

section Step
variable {n : Nat} {env : VmxEnv n} {s : NestedState n} {exit : OperandExit n} {reason : Type2Reason}
  (guarded : Guarded env (Foreign env) (fun _ => True) s) (home : s.current exit.cpuId = env.guestVmcsPhyAddr exit.cpuId)
include guarded home

theorem started_atHome : AtHome env (Foreign env) (fun _ => True) exit.cpuId (exit.started env s reason) := by
  have stable := placed_stable env (Foreign env)
  have saved : AtHome env (Foreign env) (fun _ => True) exit.cpuId (vmExit (exit.taken reason) s) :=
    ⟨vmExit_guarded stable guarded _,home⟩
  exact saved.plainField stable 0 (by simp [plainFields])

theorem started_undisturbed :
    Undisturbed env exit.cpuId (s.nestedVmcsPtr exit.cpuId) s (exit.started env s reason) := by
  have apart : s.nestedVmcsPtr exit.cpuId ≠ s.current exit.cpuId := by
    rw [home]
    exact (foreign_ne_own (guarded.placed.pointer exit.cpuId)).symm
  have later : s.nestedVmcsPtr exit.cpuId ≠ (vmExit (exit.taken reason) s).current exit.cpuId := apart
  exact (vmExit_undisturbed apart rfl).trans (hbWriteVmcs_undisturbed later _ _)

omit guarded in
theorem step_callback : hbVmExitCallbackStub env (exit.taken reason) s = vmEntry (skipAll env exit.cpuId
    (hbVmExitCallbackVmxInstType2 env exit.cpuId exit.stale (exit.started env s reason) (exit.inst reason))
    (exit.inst reason)) exit.cpuId := by
  have callback : hbVmExitCallback env (exit.taken reason) (vmExit (exit.taken reason) s) =
      skipAll env exit.cpuId (dispatch env exit.cpuId exit.stale (exit.started env s reason) (exit.inst reason))
        (exit.inst reason) := if_neg (not_not.mpr home)
  rw [hbVmExitCallbackStub,callback]
  cases reason <;> rfl

theorem step_atHome : AtHome env (Foreign env) (fun _ => True) exit.cpuId (vmxStep env s (.exit (exit.taken reason))) := by
  have stable := placed_stable env (Foreign env)
  have started : AtHome env (Foreign env) (fun _ => True) exit.cpuId (exit.started env s reason) :=
    started_atHome guarded home
  have handled := started.hbVmExitCallbackVmxInstType2 exit.stale (fun _ foreign => foreign) stable (exit.inst reason)
  have refreshed : AtHome env (Foreign env) (fun _ => True) exit.cpuId (skipAll env exit.cpuId
      (hbVmExitCallbackVmxInstType2 env exit.cpuId exit.stale (exit.started env s reason) (exit.inst reason))
      (exit.inst reason)) := by
    unfold skipAll
    split
    · exact handled.hbVmSetVmcsShadowingToCurrent (fun _ foreign => foreign) stable (handled.placed.pointer exit.cpuId)
    · exact handled
  rw [vmxStep,step_callback home]
  exact ⟨vmEntry_guarded stable refreshed.toGuarded exit.cpuId,refreshed.home⟩

theorem step_held {slot : Fin maxNestedVmcs} (loads : loadable env exit.cpuId s (s.nestedVmcsPtr exit.cpuId))
    (found : hbFindNestedVmcsStruct s.nestedVmcsArray (s.nestedVmcsPtr exit.cpuId) = some slot)
    (supported : env.supported exit.field) (writable : env.writable exit.field) :
    Held env exit.cpuId (s.nestedVmcsPtr exit.cpuId) slot exit.field (fieldCut exit.field exit.operandSum)
      (vmxStep env s (.exit (exit.taken .vmwrite))) := by
  have stable := placed_stable env (Foreign env)
  have started : AtHome env (Foreign env) (fun _ => True) exit.cpuId (exit.started env s .vmwrite) :=
    started_atHome guarded home
  have kept : Undisturbed env exit.cpuId (s.nestedVmcsPtr exit.cpuId) s (exit.started env s .vmwrite) :=
    started_undisturbed guarded home
  have handled := started.hbVmExitCallbackVmxInstType2 exit.stale (fun _ foreign => foreign) stable (exit.inst .vmwrite)
  have held := vmwrite_held started (by rw [kept.pointer]; exact kept.loads loads)
    (by rw [kept.pointer,kept.array]; exact found) supported writable exit.stale exit.operandSum
  rw [kept.pointer] at held
  rw [vmxStep,step_callback home]
  refine Held.undisturbed (Held.undisturbed held ?_) vmEntry_undisturbed
  unfold skipAll
  split
  · rw [OperandExit.inst,held.pointer]
    refine setShadowing_undisturbed handled.home ?_ held.loads
    rw [← held.pointer]
    exact handled.placed.pointer exit.cpuId
  · exact ⟨rfl,rfl,fun _ => rfl,fun loads => loads⟩

end Step

section Read
variable {n : Nat} {env : VmxEnv n} {s s' : NestedState n} {exit : OperandExit n} {slot : Fin maxNestedVmcs}

def OperandExit.ready (exit : OperandExit n) (env : VmxEnv n) (s : NestedState n) (reason : Type2Reason) : NestedState n :=
  hbClearVmxInstFlags env exit.cpuId exit.stale (hbAdvanceVmGuestRip env exit.cpuId exit.stale (exit.started env s reason))

def readValue (env : VmxEnv n) (s : NestedState n) (exit : OperandExit n) (slot : Fin maxNestedVmcs) : U64 :=
  nestedFieldValue env exit.cpuId (s.setCurrent exit.cpuId (s.nestedVmcsPtr exit.cpuId)) (s.nestedVmcsArray slot) exit.field

theorem readValue_kept (kept : Undisturbed env exit.cpuId (s.nestedVmcsPtr exit.cpuId) s s') (key : U64) :
    nestedFieldValue env exit.cpuId (s'.setCurrent exit.cpuId (s.nestedVmcsPtr exit.cpuId))
      { s'.nestedVmcsArray slot with vmcsPtr := key } exit.field = readValue env s exit slot := by
  have same : (s'.regions (s.nestedVmcsPtr exit.cpuId)).fields = (s.regions (s.nestedVmcsPtr exit.cpuId)).fields :=
    funext kept.fields
  rw [readValue,kept.array]
  unfold nestedFieldValue
  dsimp only
  have read : hbReadVmcs env exit.cpuId (s'.setCurrent exit.cpuId (s.nestedVmcsPtr exit.cpuId)) exit.field =
      hbReadVmcs env exit.cpuId (s.setCurrent exit.cpuId (s.nestedVmcsPtr exit.cpuId)) exit.field := by
    simp [hbReadVmcs,Region.read,same]
  rw [read]

variable (guarded : Guarded env (Foreign env) (fun _ => True) s) (home : s.current exit.cpuId = env.guestVmcsPhyAddr exit.cpuId)
include guarded home

theorem ready_kept (reason : Type2Reason) :
    Undisturbed env exit.cpuId (s.nestedVmcsPtr exit.cpuId) s (exit.ready env s reason) := by
  have started : AtHome env (Foreign env) (fun _ => True) exit.cpuId (exit.started env s reason) :=
    started_atHome guarded home
  have apart : s.nestedVmcsPtr exit.cpuId ≠ (exit.started env s reason).current exit.cpuId := by
    rw [started.home]
    exact (foreign_ne_own (guarded.placed.pointer exit.cpuId)).symm
  exact (started_undisturbed guarded home).trans (handled_undisturbed apart exit.stale)

theorem handled_missing (missing : hbFindNestedVmcsStruct s.nestedVmcsArray (s.nestedVmcsPtr exit.cpuId) = none)
    (reason : Type2Reason) :
    (exit.handled env s reason).guestContext = exit.guestContext ∧ (exit.handled env s reason).stores = [] := by
  have ready := ready_kept guarded home reason
  unfold OperandExit.handled OperandExit.hbVmExitCallbackVmxInstType2
  dsimp only
  rw [← OperandExit.ready,ready.array,ready.pointer,missing]
  exact ⟨rfl,rfl⟩

omit guarded home in
theorem ready_unmoved (reason : Type2Reason) : Unmoved s (exit.ready env s reason) :=
  ((vmExit_unmoved s _).trans (hbWriteVmcs_unmoved env _ _ _ _)).trans (handled_unmoved env _ _ _)

theorem handled_vmread (found : hbFindNestedVmcsStruct s.nestedVmcsArray (s.nestedVmcsPtr exit.cpuId) = some slot) :
    ((exit.handled env s .vmread).guestContext,(exit.handled env s .vmread).stores) =
      if loadable env exit.cpuId s (s.nestedVmcsPtr exit.cpuId) then
        if exit.isRegister then
          (if exit.reg1 = regNumRsp then exit.guestContext
            else Exit.hbSetRegValueFromIndex exit.guestContext exit.reg1 (readValue env s exit slot),[])
        else (exit.guestContext,Exit.hbSetValueToMemory exit.instInfo exit.operandSum (readValue env s exit slot))
      else (exit.guestContext,[]) := by
  have ready := ready_kept guarded home .vmread
  have unmoved : Unmoved s (exit.ready env s .vmread) := ready_unmoved .vmread
  unfold OperandExit.handled OperandExit.hbVmExitCallbackVmxInstType2
  rw [OperandExit.destAddr_eq (OperandExit.started_home .vmread home) (OperandExit.started_saved .vmread home),
    OperandExit.regField_eq (OperandExit.started_home .vmread home) (OperandExit.started_saved .vmread home)]
  dsimp only
  rw [← OperandExit.ready]
  generalize exit.ready env s .vmread = s' at ready unmoved
  rw [ready.array,ready.pointer,found]
  have value := @readValue_kept _ _ _ _ _ slot ready (s.nestedVmcsPtr exit.cpuId)
  rw [ready.array] at value
  have same : loadable env exit.cpuId (s'.updateSlot slot (fun entry =>
      { entry with vmcsPtr := s.nestedVmcsPtr exit.cpuId })) (s.nestedVmcsPtr exit.cpuId) =
      loadable env exit.cpuId s (s.nestedVmcsPtr exit.cpuId) := unmoved.loadable exit.cpuId _
  dsimp only
  rw [OperandExit.emulateVmread,NestedState.updateSlot_nestedVmcsPtr,ready.pointer,hbLoadVmcs,same]
  cases loadable env exit.cpuId s (s.nestedVmcsPtr exit.cpuId) with
  | false => rfl
  | true =>
    have delivered : nestedFieldValue env exit.cpuId ((s'.updateSlot slot (fun entry =>
        { entry with vmcsPtr := s.nestedVmcsPtr exit.cpuId })).setCurrent exit.cpuId (s.nestedVmcsPtr exit.cpuId))
        (((s'.updateSlot slot (fun entry => { entry with vmcsPtr := s.nestedVmcsPtr exit.cpuId })).setCurrent exit.cpuId
          (s.nestedVmcsPtr exit.cpuId)).nestedVmcsArray slot) exit.field = readValue env s exit slot := by
      rw [← value]
      simp only [NestedState.setCurrent_nestedVmcsArray,NestedState.updateSlot_nestedVmcsArray,Function.update_self,
        ready.array]
      rfl
    simp only [if_true,OperandExit.deliver]
    rw [delivered]
    cases exit.isRegister with
    | false => rfl
    | true =>
      simp only [if_true,hbSetRegValueFromIndex]
      split <;> rfl

end Read

section Own
variable {n : Nat} {env : VmxEnv n} {s : NestedState n} {cpuId : Fin n}

theorem type2_own (home : AtHome env (Foreign env) (fun _ => True) cpuId s) (stale : U64) (inst : VmxInst) {field : U64}
    (rip : vmGuestRip ≠ field) (rflags : vmGuestRflags ≠ field) :
    (hbVmExitCallbackVmxInstType2 env cpuId stale s inst).field (env.guestVmcsPhyAddr cpuId) field =
      s.field (env.guestVmcsPhyAddr cpuId) field := by
  have flagsKey : fieldKey vmGuestRflags ≠ field := by rwa [plainFields_key _ (by simp [plainFields])]
  rw [type2_field stale home,hbClearVmxInstFlags,hbWriteVmcs_field_other flagsKey,advance_field _ _ rip.symm]

end Own

section Delivery
variable {n : Nat} {env : VmxEnv n} {s : NestedState n} {exit : OperandExit n} {slot : Fin maxNestedVmcs}
  (guarded : Guarded env (Foreign env) (fun _ => True) s) (home : s.current exit.cpuId = env.guestVmcsPhyAddr exit.cpuId)

theorem reg1_lt (exit : OperandExit n) : exit.reg1 < 16 := by
  have mask : ∀ value : U64, (value &&& 0x0F).toNat < 16 := by
    intro value
    rw [BitVec.toNat_and]
    exact Nat.lt_of_le_of_lt Nat.and_le_right (by decide)
  exact mask _

theorem received_rsp (guarded : Guarded env (Foreign env) (fun _ => True) s)
    (home : s.current exit.cpuId = env.guestVmcsPhyAddr exit.cpuId) (reason : Type2Reason) :
    hbGetRegValueFromIndex env exit.cpuId (exit.handled env s reason).guestContext (exit.handled env s reason).nested
      regNumRsp = exit.saved vmGuestRsp := by
  have started : AtHome env (Foreign env) (fun _ => True) exit.cpuId (exit.started env s reason) :=
    started_atHome guarded home
  have after := started.hbVmExitCallbackVmxInstType2 exit.stale (fun _ foreign => foreign)
    (placed_stable env (Foreign env)) (exit.inst reason)
  have current : (exit.handled env s reason).nested.current exit.cpuId = env.guestVmcsPhyAddr exit.cpuId := by
    rw [OperandExit.handled_nested reason home]
    exact after.home
  rw [hbGetReg_rsp (home_real current),current,
    OperandExit.handled_nested reason home,type2_own started exit.stale _ (by decide) (by decide)]
  exact OperandExit.started_saved reason home

theorem received_other {handled : OperandHandled n} (other : exit.reg1 ≠ regNumRsp) :
    hbGetRegValueFromIndex env exit.cpuId handled.guestContext handled.nested exit.reg1 =
      Exit.hbGetRegValueFromIndex handled.guestContext exit.reg1 := if_neg other

theorem operandSum_memory (memory : exit.isRegister = false) :
    exit.operandSum = Exit.effectiveAddress exit.guest exit.instInfo exit.exitQual := by
  rw [OperandExit.operandSum,memory,if_neg Bool.false_ne_true,Exit.hbCalcDestMemAddr_sum]

theorem stores_operand_iff (memory : exit.isRegister = false) (value value' : U64) :
    Exit.hbSetValueToMemory exit.instInfo exit.operandSum value = [⟨exit.linear,Exit.littleEndian 8 value'⟩] ↔
      value = value' ∧ exit.IsWide := by
  have short : ∀ count, count ≠ 8 → ∀ addr,
      [(⟨addr,Exit.littleEndian count value⟩ : Exit.HostStore)] ≠ [⟨exit.linear,Exit.littleEndian 8 value'⟩] := by
    intro count few addr same
    have bytes := congrArg (fun stores => (stores.map (fun store => store.bytes.length)).sum) same
    simp only [List.map_cons,List.map_nil,List.sum_singleton,Exit.littleEndian_length] at bytes
    exact few bytes
  unfold Exit.hbSetValueToMemory OperandExit.IsWide
  split
  next size => exact iff_of_false (short 2 (by decide) _) (fun wide => absurd (size.symm.trans wide.2.1) (by decide))
  next size => exact iff_of_false (short 4 (by decide) _) (fun wide => absurd (size.symm.trans wide.2.1) (by decide))
  next size =>
    have bits : Exit.addressBits exit.instInfo = 64 := by
      rw [Exit.addressBits,size]
      rfl
    have linear : exit.linear = exit.operandSum +
        Exit.segmentBase (exit.saved vmGuestFsBase) (exit.saved vmGuestGsBase) exit.instInfo := by
      rw [OperandExit.linear,Exit.linearAddress,Exit.cutOff_wide _ _ bits,operandSum_memory memory]
    rw [List.singleton_inj,Exit.HostStore.mk.injEq,linear,left_eq_add]
    constructor
    · rintro ⟨base,bytes⟩
      exact ⟨littleEndian_inj bytes,size,base⟩
    · rintro ⟨rfl,_,base⟩
      exact ⟨base,rfl⟩
  next _ _ other =>
    exact iff_of_false (by simp) (fun wide => other wide.2.1)

theorem guest_register (index : Nat) : Exit.hbGetRegValueFromIndex exit.guest index =
    if index = regNumRsp then exit.saved vmGuestRsp else Exit.hbGetRegValueFromIndex exit.guestContext index := by
  split
  next rsp =>
    subst rsp
    rfl
  next other =>
    unfold Exit.hbGetRegValueFromIndex
    split <;> first | rfl | exact absurd rfl other

theorem delivered_missing (guarded : Guarded env (Foreign env) (fun _ => True) s)
    (home : s.current exit.cpuId = env.guestVmcsPhyAddr exit.cpuId)
    (missing : hbFindNestedVmcsStruct s.nestedVmcsArray (s.nestedVmcsPtr exit.cpuId) = none) (value : U64) :
    exit.Delivered env (exit.handled env s .vmread) value ↔
      exit.isRegister = true ∧ Exit.hbGetRegValueFromIndex exit.guest exit.reg1 = value := by
  obtain ⟨context,stores⟩ := handled_missing guarded home missing .vmread
  unfold OperandExit.Delivered
  cases register : exit.isRegister with
  | false => simp [stores]
  | true =>
    rw [if_pos rfl,guest_register]
    by_cases rsp : exit.reg1 = regNumRsp
    · rw [rsp,received_rsp guarded home,if_pos rfl]
      simp
    · rw [received_other rsp,context,if_neg rsp]
      simp

theorem delivered_found (guarded : Guarded env (Foreign env) (fun _ => True) s)
    (home : s.current exit.cpuId = env.guestVmcsPhyAddr exit.cpuId)
    (loads : loadable env exit.cpuId s (s.nestedVmcsPtr exit.cpuId))
    (found : hbFindNestedVmcsStruct s.nestedVmcsArray (s.nestedVmcsPtr exit.cpuId) = some slot) (value : U64) :
    exit.Delivered env (exit.handled env s .vmread) value ↔
      if exit.isRegister then
        (if exit.reg1 = regNumRsp then exit.saved vmGuestRsp = value else readValue env s exit slot = value)
      else readValue env s exit slot = value ∧ exit.IsWide := by
  have results := handled_vmread guarded home found
  rw [if_pos loads] at results
  unfold OperandExit.Delivered
  cases register : exit.isRegister with
  | false =>
    rw [register,if_neg Bool.false_ne_true] at results
    rw [if_neg Bool.false_ne_true,if_neg Bool.false_ne_true,(Prod.mk.inj results).2]
    exact stores_operand_iff register _ _
  | true =>
    rw [register,if_pos rfl] at results
    rw [if_pos rfl,if_pos rfl]
    by_cases rsp : exit.reg1 = regNumRsp
    · rw [rsp,received_rsp guarded home,if_pos rfl]
    · rw [if_neg rsp] at results
      rw [received_other rsp,(Prod.mk.inj results).1,Exit.hbSetReg_same _ (reg1_lt exit),if_neg rsp]

end Delivery

section Pair
variable {n : Nat} {env : VmxEnv n} {s : NestedState n}

/-- The handler's value of the source is the operand's and survives the field, and the destination is
a register other than RSP or a memory operand that the handler addresses right. What the handler
does not write has to hold the value already. -/
def ReadsBack (s : NestedState n) (write read : OperandExit n) : Prop :=
  if read.isRegister ∧ read.reg1 = regNumRsp then read.saved vmGuestRsp = write.value
  else if (hbFindNestedVmcsStruct s.nestedVmcsArray (s.nestedVmcsPtr write.cpuId)).isSome then
    fieldCut write.field write.operandSum = write.value ∧ (read.isRegister = false → read.IsWide)
  else read.isRegister = true ∧ Exit.hbGetRegValueFromIndex read.guest read.reg1 = write.value

theorem step_missing {write : OperandExit n} (home : s.current write.cpuId = env.guestVmcsPhyAddr write.cpuId)
    (missing : hbFindNestedVmcsStruct s.nestedVmcsArray (s.nestedVmcsPtr write.cpuId) = none) (reason : Type2Reason) :
    (vmxStep env s (.exit (write.taken reason))).slots = s.slots := by
  have slots : (vmxStep env s (.exit (write.taken reason))).slots = s.slots.handle write.cpuId (write.inst reason) :=
    (slots_vmxStep env s (.exit (write.taken reason))).trans (if_pos home)
  have unclaimed : ∀ inst, s.slots.claimSlot write.cpuId inst = s.slots := by
    intro inst
    have search : hbFindNestedVmcsStruct s.slots.array (s.slots.pointer write.cpuId) = none := missing
    rw [SlotState.claimSlot,search]
  rw [slots]
  cases reason with
  | vmread => exact unclaimed _
  | vmwrite => exact unclaimed _

theorem reads_back_iff (guarded : Guarded env (Foreign env) (fun _ => True) s) {write read : OperandExit n}
    (home : s.current write.cpuId = env.guestVmcsPhyAddr write.cpuId)
    (loads : loadable env write.cpuId s (s.nestedVmcsPtr write.cpuId)) (cpu : read.cpuId = write.cpuId)
    (field : read.field = write.field) (supported : env.supported write.field) (writable : env.writable write.field) :
    read.Delivered env (read.handled env (vmxStep env s (.exit (write.taken .vmwrite))) .vmread) write.value ↔
      ReadsBack s write read := by
  have after : AtHome env (Foreign env) (fun _ => True) write.cpuId (vmxStep env s (.exit (write.taken .vmwrite))) :=
    step_atHome guarded home
  have here : (vmxStep env s (.exit (write.taken .vmwrite))).current read.cpuId = env.guestVmcsPhyAddr read.cpuId := by
    rw [cpu]
    exact after.home
  unfold ReadsBack
  cases found : hbFindNestedVmcsStruct s.nestedVmcsArray (s.nestedVmcsPtr write.cpuId) with
  | none =>
    have slots := @step_missing _ env _ _ home found .vmwrite
    have missing : hbFindNestedVmcsStruct (vmxStep env s (.exit (write.taken .vmwrite))).nestedVmcsArray
        ((vmxStep env s (.exit (write.taken .vmwrite))).nestedVmcsPtr read.cpuId) = none := by
      have search : hbFindNestedVmcsStruct s.slots.array (s.slots.pointer write.cpuId) = none := found
      rw [← slots,← cpu] at search
      exact search
    rw [delivered_missing after.toGuarded here missing,guest_register]
    by_cases rsp : read.isRegister = true ∧ read.reg1 = regNumRsp
    · rw [if_pos rsp,if_pos rsp.2]
      exact and_iff_right rsp.1
    · rw [if_neg rsp]
      simp
  | some slot =>
    have held := step_held guarded home loads found supported writable
    have value : readValue env (vmxStep env s (.exit (write.taken .vmwrite))) read slot =
        fieldCut write.field write.operandSum := by
      have stored := nestedFieldValue_held held supported
      rw [readValue,field,cpu,held.pointer]
      exact stored
    have target := held.pointer
    have loaded := held.loads
    have search := held.found
    rw [← target,← cpu] at loaded search
    rw [delivered_found after.toGuarded here loaded search,value]
    cases register : read.isRegister with
    | false => simp
    | true => simp

end Pair
end HyperBox.Nested
