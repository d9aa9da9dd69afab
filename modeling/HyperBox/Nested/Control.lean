import HyperBox.Nested.HostState

/-! The emulation of VMX instructions without the contents of VMCSs. `Control` keeps the pointers,
the table of nested VMCSs, the launch states and the revisions; on it the callback is a small
machine of its own, which the emulation simulates as long as the guest hypervisor names no
region of Hyper-box's own. -/
namespace HyperBox.Nested
open HyperBox.Library HyperBox.PageTable HyperBox.Ept

@[ext] structure SlotState (n : Nat) where
  pointer : Fin n → U64
  array : Fin maxNestedVmcs → NestedVmcs

def NestedState.slots {n : Nat} (s : NestedState n) : SlotState n := ⟨s.nestedVmcsPtr,s.nestedVmcsArray⟩

namespace SlotState
variable {n : Nat} (t : SlotState n)

def setPointer (cpuId : Fin n) (addr : U64) : SlotState n :=
  { t with pointer := Function.update t.pointer cpuId addr }

def useSlot (ptr : U64) (inst : VmxInst) (entry : NestedVmcs) : NestedVmcs :=
  match inst with
  | .vmwrite regField destAddr => saveHostField regField destAddr { entry with vmcsPtr := ptr }
  | _ => { entry with vmcsPtr := ptr }

def claimSlot (cpuId : Fin n) (inst : VmxInst) : SlotState n :=
  match hbFindNestedVmcsStruct t.array (t.pointer cpuId) with
  | none => t
  | some slot =>
    { t with array := Function.update t.array slot (useSlot (t.pointer cpuId) inst (t.array slot)) }

/-- What an instruction of the guest hypervisor does to its current pointer and to the table. -/
def handle (cpuId : Fin n) (inst : VmxInst) : SlotState n :=
  match inst with
  | .vmclear data => if t.pointer cpuId = data then t.setPointer cpuId 0 else t
  | .vmptrld data => t.setPointer cpuId data
  | .vmxoff => t.setPointer cpuId 0
  | .vmread _ _ => t.claimSlot cpuId inst
  | .vmwrite _ _ => t.claimSlot cpuId inst
  | .invalidate => t.claimSlot cpuId inst
  | .vmptrst => t
  | .vmxon => t
  | .vmlaunch => t
  | .vmresume => t

theorem claimSlot_pointer (cpuId : Fin n) (inst : VmxInst) : (t.claimSlot cpuId inst).pointer = t.pointer := by
  unfold claimSlot
  split <;> rfl

end SlotState

section Slots
variable {n : Nat} (env : VmxEnv n) (cpuId : Fin n) (stale : U64) (s : NestedState n)

@[simp] theorem slots_updateRegion (addr : U64) (update : Region → Region) :
    (s.updateRegion addr update).slots = s.slots := rfl

@[simp] theorem slots_setCurrent (addr : U64) : (s.setCurrent cpuId addr).slots = s.slots := rfl

@[simp] theorem slots_setVmLaunch (launch : Bool) : (s.setVmLaunch cpuId launch).slots = s.slots := rfl

@[simp] theorem slots_record (op : VmcsOp) : (s.record op).slots = s.slots := rfl

@[simp] theorem slots_setNestedVmcsPtr (addr : U64) :
    (s.setNestedVmcsPtr cpuId addr).slots = s.slots.setPointer cpuId addr := rfl

@[simp] theorem slots_hbWriteVmcs (field value : U64) : (hbWriteVmcs env cpuId s field value).slots = s.slots := by
  unfold hbWriteVmcs
  split <;> rfl

@[simp] theorem slots_hbLoadVmcs (addr : U64) : (hbLoadVmcs env cpuId s addr).2.slots = s.slots := by
  unfold hbLoadVmcs
  split <;> rfl

@[simp] theorem slots_hbClearVmcs (addr : U64) : (hbClearVmcs env cpuId s addr).2.slots = s.slots := by
  unfold hbClearVmcs
  dsimp only
  split
  · dsimp only
    split <;> rfl
  · rfl

@[simp] theorem slots_shadowStore (addr : U64) (set : Bool) : (shadowStore env s addr set).slots = s.slots := rfl

@[simp] theorem slots_hbAdvanceVmGuestRip : (hbAdvanceVmGuestRip env cpuId stale s).slots = s.slots := by
  obtain ⟨rip,advanced⟩ := hbAdvanceVmGuestRip_write env cpuId stale s
  rw [advanced,slots_hbWriteVmcs]

@[simp] theorem slots_hbClearVmxInstFlags : (hbClearVmxInstFlags env cpuId stale s).slots = s.slots := by
  simp [hbClearVmxInstFlags]

@[simp] theorem slots_setShadowing (addr : U64) :
    (hbVmSetVmcsShadowingToCurrent env cpuId s addr).slots = s.slots := by
  unfold hbVmSetVmcsShadowingToCurrent
  split <;> simp

@[simp] theorem slots_clearShadowing : (hbVmClearVmcsShadowingToCurrent env cpuId stale s).slots = s.slots := by
  unfold hbVmClearVmcsShadowingToCurrent
  split
  · rfl
  · dsimp only
    split <;> simp

@[simp] theorem slots_enterNested : (enterNested env cpuId stale s).2.slots = s.slots := by
  simp [enterNested]

@[simp] theorem slots_guestVmwrite (field value : U64) : (guestVmwrite env cpuId s field value).slots = s.slots := by
  simp [guestVmwrite]

@[simp] theorem slots_emulateVmread (slot : Fin maxNestedVmcs) (prevVmcs regField : U64) (toRsp : Bool) :
    (emulateVmread env cpuId s slot prevVmcs regField toRsp).slots = s.slots := by
  unfold emulateVmread
  rcases hbLoadVmcs_cases env cpuId s (s.nestedVmcsPtr cpuId) with loaded | failed
  · rw [loaded]
    dsimp only
    split <;> simp
  · simp [failed]

theorem slots_updateSlot (slot : Fin maxNestedVmcs) (update : NestedVmcs → NestedVmcs) :
    (s.updateSlot slot update).slots =
      { s.slots with array := Function.update s.slots.array slot (update (s.slots.array slot)) } := rfl

theorem slots_emulateVmwrite (slot : Fin maxNestedVmcs) (prevVmcs regField destAddr : U64) :
    (emulateVmwrite env cpuId s slot prevVmcs regField destAddr).slots =
      (s.updateSlot slot (saveHostField regField destAddr)).slots := by
  unfold emulateVmwrite
  dsimp only
  generalize s.updateSlot slot (saveHostField regField destAddr) = s'
  rcases hbLoadVmcs_cases env cpuId s' (s'.nestedVmcsPtr cpuId) with loaded | failed
  · simp [loaded]
  · simp [failed]

theorem slots_type1 (inst : VmxInst) : (hbVmExitCallbackVmxInstType1 env cpuId stale s inst).slots =
    match inst with
    | .vmclear data => if s.slots.pointer cpuId = data then s.slots.setPointer cpuId 0 else s.slots
    | .vmptrld data => s.slots.setPointer cpuId data
    | _ => s.slots := by
  unfold hbVmExitCallbackVmxInstType1
  cases inst with
  | vmclear data =>
    dsimp only
    generalize done : (hbClearVmcs env cpuId (hbClearVmxInstFlags env cpuId stale
      (hbAdvanceVmGuestRip env cpuId stale s)) data).2 = s'
    have same : s'.slots = s.slots := by simp [← done]
    have pointer : s'.nestedVmcsPtr = s.slots.pointer := congrArg SlotState.pointer same
    rw [pointer]
    split <;> simp [same]
  | _ => simp

theorem slots_type2 (inst : VmxInst) :
    (hbVmExitCallbackVmxInstType2 env cpuId stale s inst).slots = s.slots.claimSlot cpuId inst := by
  unfold hbVmExitCallbackVmxInstType2
  dsimp only
  generalize done : hbClearVmxInstFlags env cpuId stale (hbAdvanceVmGuestRip env cpuId stale s) = s'
  have same : s'.slots = s.slots := by simp [← done]
  rw [← same]
  unfold SlotState.claimSlot
  cases found : hbFindNestedVmcsStruct s'.nestedVmcsArray (s'.nestedVmcsPtr cpuId) with
  | none =>
    have found' : hbFindNestedVmcsStruct s'.slots.array (s'.slots.pointer cpuId) = none := found
    rw [found']
  | some slot =>
    have found' : hbFindNestedVmcsStruct s'.slots.array (s'.slots.pointer cpuId) = some slot := found
    rw [found']
    cases inst with
    | vmwrite regField destAddr =>
      dsimp only
      rw [slots_emulateVmwrite,slots_updateSlot,slots_updateSlot]
      simp only [SlotState.useSlot,Function.update_self,Function.update_idem]
      rfl
    | vmread regField toRsp =>
      dsimp only
      rw [slots_emulateVmread,slots_updateSlot]
      rfl
    | _ => rfl

theorem slots_dispatch (inst : VmxInst) : (dispatch env cpuId stale s inst).slots = s.slots.handle cpuId inst := by
  unfold dispatch SlotState.handle
  cases inst with
  | vmlaunch =>
    dsimp only [handleVmlaunch]
    have same := slots_enterNested env cpuId stale s
    split
    next entered => simpa [entered] using same
    next entered => simpa [entered] using same
  | vmresume =>
    dsimp only [handleVmresume]
    split <;> simp
  | vmxoff => simp [handleVmxoff]
  | vmclear data => rw [slots_type1]
  | vmptrld data => rw [slots_type1]
  | vmptrst => rw [slots_type1]
  | vmxon => rw [slots_type1]
  | vmread regField toRsp => rw [slots_type2]
  | vmwrite regField destAddr => rw [slots_type2]
  | invalidate => rw [slots_type2]

theorem slots_exitFromVm : (exitFromVm env cpuId stale s).slots = s.slots := by
  unfold exitFromVm
  dsimp only
  split <;> simp

/-- The pointers and the table change only with instructions of the guest hypervisor itself. -/
theorem slots_vmxStep (event : VmxEvent n) : (vmxStep env s event).slots =
    match event with
    | .exit taken =>
      if s.current taken.cpuId = env.guestVmcsPhyAddr taken.cpuId then s.slots.handle taken.cpuId taken.inst
      else s.slots
    | .shadowed _ _ _ => s.slots := by
  cases event with
  | exit taken =>
    have callback : (vmxStep env s (.exit taken)).slots = (hbVmExitCallback env taken (vmExit taken s)).slots := rfl
    rw [callback,hbVmExitCallback]
    have current : hbStoreVmcs taken.cpuId (vmExit taken s) = s.current taken.cpuId := rfl
    rw [current]
    by_cases home : s.current taken.cpuId = env.guestVmcsPhyAddr taken.cpuId
    · simp only [home,ne_eq,not_true_eq_false,if_false,if_true,skipAll]
      have result := slots_dispatch env taken.cpuId taken.stale
        (hbWriteVmcs env taken.cpuId (vmExit taken s) vmCtrlVmEntryInstLength 0) taken.inst
      rw [slots_hbWriteVmcs] at result
      split
      · rw [slots_setShadowing,result]
        rfl
      · rw [result]
        rfl
    · simp only [ne_eq,home,not_false_eq_true,if_true,if_false]
      rw [slots_exitFromVm]
      rfl
  | shadowed cpuId field value =>
    dsimp only [vmxStep,shadowVmwrite]
    split <;> rfl

end Slots


/-- The operands on which the regions' launch states and revisions can be followed: with VMCS
shadowing Hyper-box stores to the first dword of a region, so that it has to be a region. -/
def Sound {n : Nat} (env : VmxEnv n) (addr : U64) : Prop :=
  Foreign env addr ∧ (env.supportVmcsShadowing = true → pageStart addr = addr)

theorem sound_zero {n : Nat} {env : VmxEnv n} : Sound env 0 := ⟨foreign_zero,fun _ => by decide⟩

@[ext] structure Control (n : Nat) extends SlotState n where
  current : Fin n → U64
  link : Fin n → U64
  vmLaunch : Fin n → Bool
  launched : U64 → Bool
  revision : U64 → BitVec 32

def NestedState.control {n : Nat} (env : VmxEnv n) (s : NestedState n) : Control n where
  toSlotState := s.slots
  current := s.current
  link := fun cpuId => s.field (env.guestVmcsPhyAddr cpuId) vmVmcsLinkPtr
  vmLaunch := s.vmLaunch
  launched := fun addr => (s.regions addr).launched
  revision := fun addr => (s.regions addr).revision

namespace Control
variable {n : Nat} (env : VmxEnv n) (cpuId : Fin n) (t : Control n)

def withSlots (slots : SlotState n) : Control n := { t with toSlotState := slots }

def setCurrent (addr : U64) : Control n := { t with current := Function.update t.current cpuId addr }

def setLink (addr : U64) : Control n := { t with link := Function.update t.link cpuId addr }

def setVmLaunch (launch : Bool) : Control n := { t with vmLaunch := Function.update t.vmLaunch cpuId launch }

def setLaunched (addr : U64) (launched : Bool) : Control n :=
  { t with launched := Function.update t.launched addr launched }

def mark (addr : U64) (set : Bool) : Control n :=
  { t with
    revision := Function.update t.revision addr
      (if set then t.revision addr ||| vmBitRevisionShadowVmcs else t.revision addr &&& ~~~vmBitRevisionShadowVmcs) }

def loads (addr : U64) : Bool :=
  env.validAddress addr && addr ≠ env.vmxOnVmcsPhyAddr cpuId && goodRevision env (t.revision addr)

def load (addr : U64) : Control n := if t.loads env cpuId addr then t.setCurrent cpuId addr else t

def clear (addr : U64) : Control n := if clearable env cpuId addr then t.setLaunched addr false else t

def relink (addr : U64) : Control n :=
  if env.supportVmcsShadowing then ((t.clear env cpuId addr).mark addr true).setLink cpuId addr else t

def unlink : Control n :=
  if env.supportVmcsShadowing ∧ t.link cpuId ≠ noVmcs then
    ((t.setLink cpuId noVmcs).clear env cpuId (t.link cpuId)).mark (t.link cpuId) false
  else t

def vmclear (data : U64) : Control n :=
  if t.pointer cpuId = data then
    ((t.clear env cpuId data).withSlots (t.toSlotState.setPointer cpuId 0)).unlink env cpuId
  else t.clear env cpuId data

def enterNested : Control n := (t.unlink env cpuId).load env cpuId (t.pointer cpuId)

def vmlaunch : Control n :=
  if (t.unlink env cpuId).loads env cpuId (t.pointer cpuId) then
    (t.enterNested env cpuId).setVmLaunch cpuId true
  else t.enterNested env cpuId

def vmresume : Control n :=
  if env.supportVmcsShadowing then (t.enterNested env cpuId).setVmLaunch cpuId true
  else t.enterNested env cpuId

def handle (inst : VmxInst) : Control n :=
  match inst with
  | .vmclear data => t.vmclear env cpuId data
  | .vmptrld data => (t.withSlots (t.toSlotState.setPointer cpuId data)).relink env cpuId data
  | .vmlaunch => t.vmlaunch env cpuId
  | .vmresume => t.vmresume env cpuId
  | _ => t.withSlots (t.toSlotState.handle cpuId inst)

def refresh (inst : VmxInst) : Control n :=
  if isBackToVm inst = false ∧ t.pointer cpuId ≠ 0 then t.relink env cpuId (t.pointer cpuId) else t

def leave : Control n :=
  if (hbFindNestedVmcsStruct t.array (t.current cpuId)).isSome then
    (t.setCurrent cpuId (env.guestVmcsPhyAddr cpuId)).relink env cpuId (t.current cpuId)
  else t

/-- The machine up to the entry with which the callback ends. -/
def returns (inst : VmxInst) : Control n :=
  if t.current cpuId = env.guestVmcsPhyAddr cpuId then
    (((t.setVmLaunch cpuId false).handle env cpuId inst).refresh env cpuId inst)
  else (t.setVmLaunch cpuId false).leave env cpuId

def enter : Control n := t.setLaunched (t.current cpuId) (t.launched (t.current cpuId) || t.vmLaunch cpuId)

def step : VmxEvent n → Control n
  | .exit taken => (t.returns env taken.cpuId taken.inst).enter taken.cpuId
  | .shadowed _ _ _ => t

section Parts
variable {env cpuId t} (addr : U64)

@[simp] theorem clear_current : (t.clear env cpuId addr).current = t.current := by
  unfold clear
  split <;> rfl

@[simp] theorem clear_vmLaunch : (t.clear env cpuId addr).vmLaunch = t.vmLaunch := by
  unfold clear
  split <;> rfl

@[simp] theorem clear_slots : (t.clear env cpuId addr).toSlotState = t.toSlotState := by
  unfold clear
  split <;> rfl

@[simp] theorem clear_link : (t.clear env cpuId addr).link = t.link := by
  unfold clear
  split <;> rfl

@[simp] theorem clear_revision : (t.clear env cpuId addr).revision = t.revision := by
  unfold clear
  split <;> rfl

@[simp] theorem relink_current : (t.relink env cpuId addr).current = t.current := by
  unfold relink
  split
  · exact clear_current addr
  · rfl

@[simp] theorem relink_vmLaunch : (t.relink env cpuId addr).vmLaunch = t.vmLaunch := by
  unfold relink
  split
  · exact clear_vmLaunch addr
  · rfl

@[simp] theorem relink_slots : (t.relink env cpuId addr).toSlotState = t.toSlotState := by
  unfold relink
  split
  · exact clear_slots addr
  · rfl

@[simp] theorem unlink_current : (t.unlink env cpuId).current = t.current := by
  unfold unlink
  split
  · exact clear_current _
  · rfl

@[simp] theorem unlink_vmLaunch : (t.unlink env cpuId).vmLaunch = t.vmLaunch := by
  unfold unlink
  split
  · exact clear_vmLaunch _
  · rfl

@[simp] theorem unlink_slots : (t.unlink env cpuId).toSlotState = t.toSlotState := by
  unfold unlink
  split
  · exact clear_slots _
  · rfl

@[simp] theorem refresh_current (inst : VmxInst) : (t.refresh env cpuId inst).current = t.current := by
  unfold refresh
  split <;> simp

@[simp] theorem refresh_vmLaunch (inst : VmxInst) : (t.refresh env cpuId inst).vmLaunch = t.vmLaunch := by
  unfold refresh
  split <;> simp

@[simp] theorem load_launched : (t.load env cpuId addr).launched = t.launched := by
  unfold load
  split <;> rfl

@[simp] theorem load_vmLaunch : (t.load env cpuId addr).vmLaunch = t.vmLaunch := by
  unfold load
  split <;> rfl

@[simp] theorem load_slots : (t.load env cpuId addr).toSlotState = t.toSlotState := by
  unfold load
  split <;> rfl

@[simp] theorem load_link : (t.load env cpuId addr).link = t.link := by
  unfold load
  split <;> rfl

@[simp] theorem load_revision : (t.load env cpuId addr).revision = t.revision := by
  unfold load
  split <;> rfl

@[simp] theorem enterNested_slots : (t.enterNested env cpuId).toSlotState = t.toSlotState := by
  rw [enterNested,load_slots,unlink_slots]

theorem vmclear_slots (data : U64) :
    (t.vmclear env cpuId data).toSlotState = t.toSlotState.handle cpuId (.vmclear data) := by
  unfold vmclear SlotState.handle
  dsimp only
  split
  · rw [unlink_slots]
    rfl
  · exact clear_slots data

theorem handle_slots (inst : VmxInst) : (t.handle env cpuId inst).toSlotState = t.toSlotState.handle cpuId inst := by
  cases inst with
  | vmclear data => exact vmclear_slots data
  | vmptrld data => exact relink_slots data
  | vmlaunch =>
    dsimp only [handle,vmlaunch]
    split
    · exact enterNested_slots
    · exact enterNested_slots
  | vmresume =>
    dsimp only [handle,vmresume]
    split
    · exact enterNested_slots
    · exact enterNested_slots
  | _ => rfl

theorem handle_stays {inst : VmxInst} (stays : isBackToVm inst = false) :
    (t.handle env cpuId inst).current = t.current ∧ (t.handle env cpuId inst).vmLaunch = t.vmLaunch := by
  cases inst with
  | vmclear data =>
    dsimp only [handle,vmclear]
    split
    · rw [unlink_current,unlink_vmLaunch]
      exact ⟨clear_current data,clear_vmLaunch data⟩
    · exact ⟨clear_current data,clear_vmLaunch data⟩
  | vmptrld data => exact ⟨relink_current data,relink_vmLaunch data⟩
  | vmlaunch => cases stays
  | vmresume => cases stays
  | _ => exact ⟨rfl,rfl⟩

theorem handle_back {inst : VmxInst} (back : isBackToVm inst = true) :
    ∃ launch, t.handle env cpuId inst = (t.enterNested env cpuId).setVmLaunch cpuId launch := by
  have idle : t.enterNested env cpuId =
      (t.enterNested env cpuId).setVmLaunch cpuId ((t.enterNested env cpuId).vmLaunch cpuId) := by
    rw [setVmLaunch,Function.update_eq_self]
  cases inst with
  | vmlaunch =>
    dsimp only [handle,vmlaunch]
    split
    · exact ⟨true,rfl⟩
    · exact ⟨_,idle⟩
  | vmresume =>
    dsimp only [handle,vmresume]
    split
    · exact ⟨true,rfl⟩
    · exact ⟨_,idle⟩
  | _ => cases back

end Parts

end Control

section Operations
variable {n : Nat} {env : VmxEnv n} {s : NestedState n} {cpuId : Fin n} {addr : U64}

theorem control_record (op : VmcsOp) : (s.record op).control env = s.control env := rfl

theorem control_setCurrent (addr : U64) :
    (s.setCurrent cpuId addr).control env = (s.control env).setCurrent cpuId addr := rfl

theorem control_setVmLaunch (launch : Bool) :
    (s.setVmLaunch cpuId launch).control env = (s.control env).setVmLaunch cpuId launch := rfl

theorem control_setNestedVmcsPtr (addr : U64) :
    (s.setNestedVmcsPtr cpuId addr).control env =
      (s.control env).withSlots (s.slots.setPointer cpuId addr) := rfl

theorem control_load (addr : U64) :
    (hbLoadVmcs env cpuId s addr).2.control env = (s.control env).load env cpuId addr := by
  have same : loadable env cpuId s addr = (s.control env).loads env cpuId addr := rfl
  unfold hbLoadVmcs Control.load
  rw [same]
  split <;> rfl

theorem control_region (addr : U64) (update : Region → Region) :
    (s.updateRegion addr update).control env =
      { s.control env with
        link := fun cpuId => if env.guestVmcsPhyAddr cpuId = addr then (update (s.regions addr)).fields vmVmcsLinkPtr
          else (s.control env).link cpuId
        launched := Function.update (s.control env).launched addr (update (s.regions addr)).launched
        revision := Function.update (s.control env).revision addr (update (s.regions addr)).revision } := by
  have part : ∀ {β : Type} (get : Region → β), (fun other => get ((s.updateRegion addr update).regions other)) =
      Function.update (fun other => get (s.regions other)) addr (get (update (s.regions addr))) := by
    intro β get
    funext other
    by_cases here : other = addr
    · subst here
      simp
    · simp [here]
  apply Control.ext
  · rfl
  · rfl
  · rfl
  · funext cpuId
    by_cases here : env.guestVmcsPhyAddr cpuId = addr
    · simp [NestedState.control,NestedState.field,here]
    · simp [NestedState.control,NestedState.field,here]
  · rfl
  · exact part Region.launched
  · exact part Region.revision

theorem control_updateRegion (update : Region → Region)
    (link : ∀ cpuId, addr = env.guestVmcsPhyAddr cpuId →
      (update (s.regions addr)).fields vmVmcsLinkPtr = (s.regions addr).fields vmVmcsLinkPtr) :
    (s.updateRegion addr update).control env =
      { s.control env with
        launched := Function.update (s.control env).launched addr (update (s.regions addr)).launched
        revision := Function.update (s.control env).revision addr (update (s.regions addr)).revision } := by
  have same : (fun cpuId => if env.guestVmcsPhyAddr cpuId = addr then (update (s.regions addr)).fields vmVmcsLinkPtr
      else (s.control env).link cpuId) = (s.control env).link := by
    funext cpuId
    split
    next here =>
      subst here
      exact link cpuId rfl
    next => rfl
  rw [control_region,same]

theorem control_fields (fields : Region → U64 → U64)
    (link : ∀ cpuId, addr = env.guestVmcsPhyAddr cpuId →
      fields (s.regions addr) vmVmcsLinkPtr = (s.regions addr).fields vmVmcsLinkPtr) :
    (s.updateRegion addr (fun region => { region with fields := fields region })).control env = s.control env := by
  rw [control_updateRegion _ link]
  apply Control.ext
  · rfl
  · rfl
  · rfl
  · rfl
  · rfl
  · exact Function.update_eq_self _ _
  · exact Function.update_eq_self _ _

theorem control_write {field value : U64} (hidden : fieldKey field ≠ vmVmcsLinkPtr ∨ ¬ Own env (s.current cpuId)) :
    (hbWriteVmcs env cpuId s field value).control env = s.control env := by
  unfold hbWriteVmcs
  split
  · refine control_fields (fun region => (region.write field value).fields) (fun other here => ?_)
    rcases hidden with differ | foreign
    · exact write_other differ
    · exact absurd ⟨other,.inl here⟩ foreign
  · rfl

theorem control_writeLink (home : s.current cpuId = env.guestVmcsPhyAddr cpuId) (value : U64) :
    (hbWriteVmcs env cpuId s vmVmcsLinkPtr value).control env = (s.control env).setLink cpuId value := by
  have core := env.core vmVmcsLinkPtr (by simp [coreFields])
  rw [hbWriteVmcs,if_pos ⟨home_real home,core⟩,home,control_region]
  apply Control.ext
  · rfl
  · rfl
  · rfl
  · funext other
    by_cases here : other = cpuId
    · subst here
      simp [Control.setLink,write_link]
    · have apart : env.guestVmcsPhyAddr other ≠ env.guestVmcsPhyAddr cpuId := fun same => here (env.guestDistinct same)
      simp [Control.setLink,here,apart]
  · rfl
  · exact Function.update_eq_self _ _
  · exact Function.update_eq_self _ _

theorem control_launched (addr : U64) (launched : Region → Bool) :
    (s.updateRegion addr (fun region => { region with launched := launched region })).control env =
      (s.control env).setLaunched addr (launched (s.regions addr)) := by
  rw [control_updateRegion _ (fun _ _ => rfl)]
  apply Control.ext
  · rfl
  · rfl
  · rfl
  · rfl
  · rfl
  · rfl
  · exact Function.update_eq_self _ _

theorem hbClearVmcs_current (differ : s.current cpuId ≠ addr) : (hbClearVmcs env cpuId s addr).2.current = s.current := by
  unfold hbClearVmcs
  simp only [NestedState.updateRegion_current,NestedState.record_current,differ,if_false]
  split <;> rfl

theorem control_clear (differ : s.current cpuId ≠ addr) :
    (hbClearVmcs env cpuId s addr).2.control env = (s.control env).clear env cpuId addr := by
  unfold hbClearVmcs Control.clear
  simp only [NestedState.updateRegion_current,NestedState.record_current,differ,if_false]
  split
  · rw [control_launched addr (fun _ => false)]
    rfl
  · rfl

theorem control_shadowStore (aligned : pageStart addr = addr) (set : Bool) :
    (shadowStore env s addr set).control env = (s.control env).mark addr set := by
  rw [shadowStore_aligned aligned,control_updateRegion _ (fun _ _ => rfl)]
  apply Control.ext
  · rfl
  · rfl
  · rfl
  · rfl
  · rfl
  · exact Function.update_eq_self _ _
  · rfl

end Operations

section Handlers
variable {n : Nat} {env : VmxEnv n} {I : NestedState n → Prop} {s : NestedState n} {cpuId : Fin n} {addr : U64}
  (stale : U64)

theorem foreign_ne_own (foreign : Foreign env addr) : env.guestVmcsPhyAddr cpuId ≠ addr :=
  fun same => foreign.not_own ⟨cpuId,.inl same.symm⟩

theorem control_plainField {field value : U64} (plain : field ∈ plainFields) :
    (hbWriteVmcs env cpuId s field value).control env = s.control env :=
  control_write (.inl (by rw [plainFields_key field plain]; exact plainFields_link field plain))

theorem control_advance : (hbAdvanceVmGuestRip env cpuId stale s).control env = s.control env := by
  obtain ⟨rip,advanced⟩ := hbAdvanceVmGuestRip_write env cpuId stale s
  rw [advanced]
  exact control_plainField (by simp [plainFields])

theorem control_flags : (hbClearVmxInstFlags env cpuId stale s).control env = s.control env :=
  control_plainField (by simp [plainFields])

theorem control_handled :
    (hbClearVmxInstFlags env cpuId stale (hbAdvanceVmGuestRip env cpuId stale s)).control env = s.control env := by
  rw [control_flags,control_advance]

theorem control_hostRsp :
    (hbWriteVmcs env cpuId s vmHostRsp (env.hostRsp cpuId)).control env = s.control env :=
  control_write (.inl (by decide))

theorem control_relink (home : s.current cpuId = env.guestVmcsPhyAddr cpuId) (sound : Sound env addr) :
    (hbVmSetVmcsShadowingToCurrent env cpuId s addr).control env = (s.control env).relink env cpuId addr := by
  have differ : s.current cpuId ≠ addr := by
    rw [home]
    exact foreign_ne_own sound.1
  have cleared : (hbClearVmcs env cpuId s addr).2.current = s.current := hbClearVmcs_current differ
  unfold hbVmSetVmcsShadowingToCurrent Control.relink
  cases shadowing : env.supportVmcsShadowing with
  | false => rfl
  | true =>
    simp only [Bool.not_true,Bool.false_eq_true,if_false,if_true]
    rw [control_writeLink,control_shadowStore (sound.2 shadowing),control_record,control_clear differ]
    exact (congrFun cleared cpuId).trans home

theorem control_clearShadowing (home : s.current cpuId = env.guestVmcsPhyAddr cpuId)
    (foreign : (s.control env).link cpuId ≠ noVmcs → Foreign env ((s.control env).link cpuId))
    (aligned : env.supportVmcsShadowing = true → (s.control env).link cpuId ≠ noVmcs →
      pageStart ((s.control env).link cpuId) = (s.control env).link cpuId) :
    (hbVmClearVmcsShadowingToCurrent env cpuId stale s).control env = (s.control env).unlink env cpuId := by
  have same : (s.control env).link cpuId = s.field (env.guestVmcsPhyAddr cpuId) vmVmcsLinkPtr := rfl
  unfold hbVmClearVmcsShadowingToCurrent Control.unlink
  rw [hbReadVmcs_link home,Option.getD_some,← same]
  cases shadowing : env.supportVmcsShadowing with
  | false => simp
  | true =>
    by_cases linked : (s.control env).link cpuId = noVmcs
    · simp [linked]
    · have differ : (hbWriteVmcs env cpuId s vmVmcsLinkPtr noVmcs).current cpuId ≠ (s.control env).link cpuId := by
        rw [hbWriteVmcs_current,home]
        exact foreign_ne_own (foreign linked)
      simp only [Bool.not_true,Bool.false_eq_true,if_false,linked,ne_eq,not_false_eq_true,and_self,if_true]
      rw [control_shadowStore (aligned shadowing linked),control_record,control_clear differ,control_writeLink home]

theorem control_unlink (home : AtHome env (Sound env) I cpuId s) :
    (hbVmClearVmcsShadowingToCurrent env cpuId stale s).control env = (s.control env).unlink env cpuId := by
  have sound : (s.control env).link cpuId ≠ noVmcs → Sound env ((s.control env).link cpuId) :=
    fun linked => (home.placed.link cpuId).resolve_left linked
  exact control_clearShadowing stale home.home (fun linked => (sound linked).1)
    (fun shadowing linked => (sound linked).2 shadowing)

theorem setCurrent_back {t : Control n} {home : U64} (current : t.current cpuId = home) (addr : U64) :
    (t.setCurrent cpuId addr).setCurrent cpuId home = t := by
  subst current
  apply Control.ext
  · rfl
  · rfl
  · simp [Control.setCurrent]
  · rfl
  · rfl
  · rfl
  · rfl

theorem control_visit {nested : NestedState n} (home : AtHome env (Sound env) I cpuId s)
    (placed : Placed env (Sound env) nested) (visited : nested.control env = (s.control env).setCurrent cpuId addr) :
    (hbLoadVmcs env cpuId nested (env.guestVmcsPhyAddr cpuId)).2.control env = s.control env := by
  rw [placed.load_own,control_setCurrent,visited]
  exact setCurrent_back home.home addr

theorem control_write_sound {nested : NestedState n} (sound : Sound env (nested.current cpuId)) (field value : U64) :
    (hbWriteVmcs env cpuId nested field value).control env = nested.control env :=
  control_write (.inr sound.1.not_own)

theorem control_guestVmwrite {nested : NestedState n} (sound : Sound env (nested.current cpuId)) (field value : U64) :
    (guestVmwrite env cpuId nested field value).control env = nested.control env := by
  rw [guestVmwrite,control_write_sound (by rwa [NestedState.record_current])]
  rfl

theorem control_emulateVmread (home : AtHome env (Sound env) (fun _ => True) cpuId s) (slot : Fin maxNestedVmcs)
    (regField : U64) (toRsp : Bool) :
    (emulateVmread env cpuId s slot (env.guestVmcsPhyAddr cpuId) regField toRsp).control env = s.control env := by
  have sound := home.placed.pointer cpuId
  unfold emulateVmread
  rcases hbLoadVmcs_cases env cpuId s (s.nestedVmcsPtr cpuId) with loaded | failed
  · rw [loaded]
    dsimp only
    have entered := home.visit (placed_stable env (Sound env))
    have inside : Sound env ((s.setCurrent cpuId (s.nestedVmcsPtr cpuId)).current cpuId) := by simpa using sound
    split
    · have written := entered.guestRsp (placed_stable env (Sound env)) (fun _ sound => sound.1) inside
      exact control_visit home (written _).placed (control_write_sound inside _ _)
    · exact control_visit home entered.placed rfl
  · rw [failed]

theorem control_emulateVmwrite (home : AtHome env (Sound env) (fun _ => True) cpuId s) (slot : Fin maxNestedVmcs)
    (regField destAddr : U64) :
    (emulateVmwrite env cpuId s slot (env.guestVmcsPhyAddr cpuId) regField destAddr).control env =
      (s.updateSlot slot (saveHostField regField destAddr)).control env := by
  have stable := placed_stable env (Sound env)
  have slotted := home.updateSlot stable slot (saveHostField regField destAddr)
  unfold emulateVmwrite
  dsimp only
  generalize s.updateSlot slot (saveHostField regField destAddr) = s' at slotted
  have sound := slotted.placed.pointer cpuId
  rcases hbLoadVmcs_cases env cpuId s' (s'.nestedVmcsPtr cpuId) with loaded | failed
  · rw [loaded]
    dsimp only
    have current : (s'.setCurrent cpuId (s'.nestedVmcsPtr cpuId)).current cpuId = s'.nestedVmcsPtr cpuId := by simp
    have entered := slotted.visit stable
    have written := entered.guestWrite stable (fun _ sound => sound.1) (by rwa [current]) regField destAddr
    exact control_visit slotted written.placed (control_guestVmwrite (by rwa [current]) _ _)
  · rw [failed]

theorem control_type2 (home : AtHome env (Sound env) (fun _ => True) cpuId s) (inst : VmxInst) :
    (hbVmExitCallbackVmxInstType2 env cpuId stale s inst).control env =
      (s.control env).withSlots (s.slots.claimSlot cpuId inst) := by
  have start := home.handled stale (placed_stable env (Sound env))
  have slots := slots_type2 env cpuId stale s inst
  have same : ∀ s' : NestedState n, s'.control env = (s.control env).withSlots s'.slots →
      s'.slots = s.slots.claimSlot cpuId inst →
      s'.control env = (s.control env).withSlots (s.slots.claimSlot cpuId inst) := by
    intro s' seen claimed
    rw [seen,claimed]
  refine same _ ?_ slots
  have handled := @control_handled _ env s cpuId stale
  unfold hbVmExitCallbackVmxInstType2
  dsimp only
  generalize hbClearVmxInstFlags env cpuId stale (hbAdvanceVmGuestRip env cpuId stale s) = s' at start handled
  rw [← handled]
  split
  next => rfl
  next slot _ =>
    have slotted := start.updateSlot (placed_stable env (Sound env)) slot
      (fun entry => { entry with vmcsPtr := s'.nestedVmcsPtr cpuId })
    rw [hbStoreVmcs,start.home]
    split
    next regField destAddr =>
      have written := control_emulateVmwrite slotted slot regField destAddr
      have table := slots_emulateVmwrite env cpuId
        (s'.updateSlot slot (fun entry => { entry with vmcsPtr := s'.nestedVmcsPtr cpuId })) slot
        (env.guestVmcsPhyAddr cpuId) regField destAddr
      rw [written,table]
      rfl
    next regField toRsp => rw [control_emulateVmread slotted slot regField toRsp,slots_emulateVmread]; rfl
    next => rfl

theorem control_type1 (home : AtHome env (Sound env) (fun _ => True) cpuId s) {inst : VmxInst}
    (named : inst.Names (Sound env)) :
    (hbVmExitCallbackVmxInstType1 env cpuId stale s inst).control env =
      match inst with
      | .vmclear data => (s.control env).vmclear env cpuId data
      | .vmptrld data => ((s.control env).withSlots (s.slots.setPointer cpuId data)).relink env cpuId data
      | _ => s.control env := by
  have stable := placed_stable env (Sound env)
  have start := home.handled stale stable
  have handled := @control_handled _ env s cpuId stale
  unfold hbVmExitCallbackVmxInstType1
  dsimp only
  generalize hbClearVmxInstFlags env cpuId stale (hbAdvanceVmGuestRip env cpuId stale s) = s' at start handled
  have slots : s.slots = s'.slots := (congrArg Control.toSlotState handled).symm
  rw [← handled,slots]
  cases inst with
  | vmclear data =>
    have differ : s'.current cpuId ≠ data := by
      rw [start.home]
      exact foreign_ne_own named.1
    have cleared := start.hbClearVmcs (fun _ sound => sound.1) stable named
    have same : (hbClearVmcs env cpuId s' data).2.slots = s'.slots := slots_hbClearVmcs _ _ _ _
    have pointer : (hbClearVmcs env cpuId s' data).2.nestedVmcsPtr cpuId = (s'.control env).pointer cpuId :=
      congrFun (congrArg SlotState.pointer same) cpuId
    dsimp only [Control.vmclear]
    rw [pointer]
    split
    · rw [control_unlink stale (cleared.setNestedVmcsPtr stable sound_zero),control_setNestedVmcsPtr,same,
        control_clear differ]
      rfl
    · exact control_clear differ
  | vmptrld data =>
    exact control_relink (start.setNestedVmcsPtr stable named).home named
  | _ => rfl

theorem control_enterNested (home : AtHome env (Sound env) (fun _ => True) cpuId s) :
    (enterNested env cpuId stale s).1 =
      ((s.control env).unlink env cpuId).loads env cpuId ((s.control env).pointer cpuId) ∧
    (enterNested env cpuId stale s).2.control env = (s.control env).enterNested env cpuId := by
  have stable := placed_stable env (Sound env)
  have advanced := home.hbAdvanceVmGuestRip stale stable
  have started : (hbClearVmxInstFlags env cpuId stale (hbVmClearVmcsShadowingToCurrent env cpuId stale
      (hbAdvanceVmGuestRip env cpuId stale s))).control env = (s.control env).unlink env cpuId := by
    rw [control_flags,control_unlink stale advanced,control_advance]
  have slots : (hbClearVmxInstFlags env cpuId stale (hbVmClearVmcsShadowingToCurrent env cpuId stale
      (hbAdvanceVmGuestRip env cpuId stale s))).slots = s.slots := by simp
  unfold enterNested Control.enterNested
  dsimp only
  generalize hbClearVmxInstFlags env cpuId stale (hbVmClearVmcsShadowingToCurrent env cpuId stale
    (hbAdvanceVmGuestRip env cpuId stale s)) = s' at started slots
  have pointer : s'.nestedVmcsPtr cpuId = (s.control env).pointer cpuId :=
    congrFun (congrArg SlotState.pointer slots) cpuId
  rw [← started,pointer]
  refine ⟨?_,control_load _⟩
  unfold hbLoadVmcs
  have same : loadable env cpuId s' ((s.control env).pointer cpuId) =
    (s'.control env).loads env cpuId ((s.control env).pointer cpuId) := rfl
  rw [← same]
  split
  next loads => exact loads.symm
  next fails => exact (Bool.not_eq_true _ ▸ fails).symm

theorem control_vmlaunch (home : AtHome env (Sound env) (fun _ => True) cpuId s) :
    (handleVmlaunch env cpuId stale s).control env = (s.control env).vmlaunch env cpuId := by
  obtain ⟨loads,entered⟩ := control_enterNested stale home
  unfold handleVmlaunch Control.vmlaunch
  rw [← loads]
  split
  next done =>
    rw [done] at entered ⊢
    rw [if_pos rfl,control_hostRsp,control_setVmLaunch,entered]
  next done =>
    rw [done] at entered ⊢
    rw [if_neg (Bool.false_ne_true),control_hostRsp,entered]

theorem control_vmresume (home : AtHome env (Sound env) (fun _ => True) cpuId s) :
    (handleVmresume env cpuId stale s).control env = (s.control env).vmresume env cpuId := by
  obtain ⟨_,entered⟩ := control_enterNested stale home
  unfold handleVmresume Control.vmresume
  dsimp only
  split
  · rw [control_setVmLaunch,control_hostRsp,entered]
  · rw [control_hostRsp,entered]

theorem control_dispatch (home : AtHome env (Sound env) (fun _ => True) cpuId s) {inst : VmxInst}
    (named : inst.Names (Sound env)) :
    (dispatch env cpuId stale s inst).control env = (s.control env).handle env cpuId inst := by
  have type1 := control_type1 stale home named
  have type2 := control_type2 stale home inst
  cases inst with
  | vmlaunch => exact control_vmlaunch stale home
  | vmresume => exact control_vmresume stale home
  | vmxoff =>
    dsimp only [dispatch,handleVmxoff]
    rw [control_advance,control_setNestedVmcsPtr]
    rfl
  | vmread => exact type2
  | vmwrite => exact type2
  | invalidate => exact type2
  | vmclear => exact type1
  | vmptrld => exact type1
  | vmptrst => exact type1
  | vmxon => exact type1

theorem control_skipAll {inst : VmxInst} (home : isBackToVm inst = false → AtHome env (Sound env) I cpuId s) :
    (skipAll env cpuId s inst).control env = (s.control env).refresh env cpuId inst := by
  unfold skipAll Control.refresh
  have pointer : (s.control env).pointer cpuId = s.nestedVmcsPtr cpuId := rfl
  rw [pointer]
  cases back : isBackToVm inst with
  | true => simp
  | false =>
    have here := home back
    cases shadowing : env.supportVmcsShadowing with
    | false => simp [Control.relink,shadowing]
    | true =>
      simp only [Bool.not_false,Bool.and_true,Bool.true_and,decide_eq_true_eq,true_and]
      split
      · exact control_relink here.home (here.placed.pointer cpuId)
      · rfl

theorem control_exitFromVm (placed : Placed env (Sound env) s) (away : s.current cpuId ≠ env.guestVmcsPhyAddr cpuId) :
    (exitFromVm env cpuId stale s).control env = (s.control env).leave env cpuId := by
  have sound := (placed.current cpuId).resolve_left away
  have current : (s.control env).current cpuId = s.current cpuId := rfl
  have table : (s.control env).array = s.nestedVmcsArray := rfl
  unfold exitFromVm Control.leave hbStoreVmcs
  rw [current,table]
  dsimp only
  cases hbFindNestedVmcsStruct s.nestedVmcsArray (s.current cpuId) with
  | none => rfl
  | some slot =>
    dsimp only
    rw [placed.load_own,control_relink _ sound,control_plainField,control_plainField,control_plainField,
      control_plainField,control_plainField,control_plainField,control_setCurrent]
    · rfl
    all_goals simp [plainFields,hbWriteVmcs_current]

end Handlers

section Simulation
variable {n : Nat} {env : VmxEnv n} {s : NestedState n}

theorem control_vmExit (exit : VmxExit n) :
    (vmExit exit s).control env = (s.control env).setVmLaunch exit.cpuId false := by
  have unsaved : savedOnExit vmVmcsLinkPtr = false := by decide
  have saved : (s.updateRegion (s.current exit.cpuId) (fun region => region.save exit.saved)).control env =
      s.control env := by
    refine control_fields (fun region => (region.save exit.saved).fields) (fun _ _ => ?_)
    simp [Region.save,unsaved]
  rw [vmExit,control_setVmLaunch,saved]

theorem control_vmEntry (cpuId : Fin n) : (vmEntry s cpuId).control env = (s.control env).enter cpuId :=
  control_launched _ _

/-- What the callback does to the control state, up to the entry with which it ends. -/
theorem control_returned (placed : Placed env (Sound env) s) {exit : VmxExit n} (named : exit.inst.Names (Sound env)) :
    (returned env exit s).control env = (s.control env).returns env exit.cpuId exit.inst := by
  have stable := placed_stable env (Sound env)
  have saved := vmExit_guarded stable ⟨placed,trivial⟩ exit
  have current : (s.control env).current exit.cpuId = hbStoreVmcs exit.cpuId (vmExit exit s) := rfl
  unfold returned hbVmExitCallback Control.returns
  rw [current,ite_not]
  split
  next home =>
    have here : AtHome env (Sound env) (fun _ => True) exit.cpuId (vmExit exit s) := ⟨saved,home⟩
    have started := here.plainField stable 0 (show vmCtrlVmEntryInstLength ∈ plainFields by simp [plainFields])
    obtain ⟨_,back⟩ := dispatch_guarded exit.stale (fun _ sound => sound.1) stable sound_zero named started
    dsimp only
    rw [control_skipAll back,control_dispatch exit.stale started named,control_plainField (by simp [plainFields]),
      control_vmExit]
  next away => rw [control_exitFromVm exit.stale saved.placed away,control_vmExit]

/-- The emulation simulates the small machine, event by event. -/
theorem control_vmxStep (placed : Placed env (Sound env) s) {event : VmxEvent n} (named : event.Names (Sound env)) :
    (vmxStep env s event).control env = (s.control env).step env event := by
  cases event with
  | exit exit =>
    have callback : vmxStep env s (.exit exit) = vmEntry (returned env exit s) exit.cpuId := rfl
    rw [callback,control_vmEntry,control_returned placed named]
    rfl
  | shadowed cpuId field value =>
    dsimp only [vmxStep,shadowVmwrite,Control.step]
    split
    next allowed =>
      have sound := (placed.link cpuId).resolve_left allowed.2.2.1
      refine control_fields (fun region => (region.write field value).fields) (fun other here => ?_)
      exact absurd ⟨other,.inl here⟩ sound.1.not_own
    next => rfl

theorem run_placed (placed : Placed env (Sound env) s) {events : List (VmxEvent n)}
    (named : ∀ event ∈ events, event.Names (Sound env)) : Placed env (Sound env) (run (vmxStep env) s events) :=
  (run_guarded (fun _ sound => sound.1) (placed_stable env (Sound env)) ⟨placed,trivial⟩ sound_zero named).placed

/-- The emulation simulates the small machine in whole runs. -/
theorem control_run (placed : Placed env (Sound env) s) {events : List (VmxEvent n)}
    (named : ∀ event ∈ events, event.Names (Sound env)) :
    (run (vmxStep env) s events).control env = run (Control.step env) (s.control env) events := by
  induction events generalizing s with
  | nil => rfl
  | cons event rest ih =>
    obtain ⟨here,later⟩ := List.forall_mem_cons.mp named
    have next := run_placed placed (List.forall_mem_singleton.mpr here)
    have result := ih next later
    rw [run_cons,run_cons]
    rw [run_cons,run_nil,control_vmxStep placed here] at result
    exact result

/-- What depends on the control state only can be followed on the small machine. -/
theorem along_control {R : Control n → VmxEvent n → Prop} (placed : Placed env (Sound env) s)
    {events : List (VmxEvent n)} (named : ∀ event ∈ events, event.Names (Sound env)) :
    Along (vmxStep env) (fun s event => R (s.control env) event) s events ↔
      Along (Control.step env) R (s.control env) events := by
  induction events generalizing s with
  | nil => exact Iff.rfl
  | cons event rest ih =>
    obtain ⟨here,later⟩ := List.forall_mem_cons.mp named
    have next := run_placed placed (List.forall_mem_singleton.mpr here)
    have result := ih next later
    rw [run_cons,run_nil,control_vmxStep placed here] at result
    exact and_congr_right (fun _ => result)

theorem run_current (placed : Placed env (Sound env) s) {events : List (VmxEvent n)}
    (named : ∀ event ∈ events, event.Names (Sound env)) :
    (run (vmxStep env) s events).current = (run (Control.step env) (s.control env) events).current :=
  congrArg Control.current (control_run placed named)

end Simulation

theorem VmxInst.Names.mono {G H : U64 → Prop} (weaker : ∀ addr, G addr → H addr) {inst : VmxInst}
    (named : inst.Names G) : inst.Names H := by
  cases inst with
  | vmclear data => exact weaker data named
  | vmptrld data => exact weaker data named
  | _ => trivial

theorem VmxEvent.Names.mono {n : Nat} {G H : U64 → Prop} (weaker : ∀ addr, G addr → H addr) {event : VmxEvent n}
    (named : event.Names G) : event.Names H := by
  cases event with
  | exit taken => exact VmxInst.Names.mono weaker named
  | shadowed cpuId field value => trivial

theorem handle_pointer {n : Nat} {env : VmxEnv n} {cpuId : Fin n} {t : Control n} {G : U64 → Prop} {inst : VmxInst}
    (zero : G 0) (pointer : G (t.pointer cpuId)) (named : inst.Names G) :
    G ((t.handle env cpuId inst).pointer cpuId) := by
  rw [Control.handle_slots]
  cases inst with
  | vmclear data =>
    dsimp only [SlotState.handle]
    split
    · simpa [SlotState.setPointer] using zero
    · exact pointer
  | vmptrld data =>
    have good : G data := named
    simpa [SlotState.handle,SlotState.setPointer] using good
  | vmxoff => simpa [SlotState.handle,SlotState.setPointer] using zero
  | vmread => simpa [SlotState.handle,SlotState.claimSlot_pointer] using pointer
  | vmwrite => simpa [SlotState.handle,SlotState.claimSlot_pointer] using pointer
  | invalidate => simpa [SlotState.handle,SlotState.claimSlot_pointer] using pointer
  | _ => exact pointer

section Loads
variable {n : Nat} {env : VmxEnv n} {cpuId : Fin n} {t : Control n} {addr : U64}

theorem validAddress_real (valid : env.validAddress addr) : addr ≠ noVmcs := by
  rintro rfl
  simp only [Processor.validAddress,Bool.and_eq_true,decide_eq_true_eq] at valid
  exact absurd valid.1 (by decide)

theorem revision_plain (env : VmxEnv n) : env.revisionId.getLsbD 31 = false := by
  have plain := congrArg (fun value => value.getLsbD 31) env.revisionPlain
  simp only [BitVec.getLsbD_and,shadow_bits ⟨31,by decide⟩] at plain
  simpa using plain

theorem goodRevision_clear (shadowing : env.supportVmcsShadowing = true) (revision : BitVec 32) :
    goodRevision env (revision &&& ~~~vmBitRevisionShadowVmcs) = goodRevision env revision := by
  apply Bool.eq_iff_iff.mpr
  refine ⟨goodRevision_cleared shadowing,?_⟩
  intro good
  have bit := revision_plain env
  have same : ∀ i < 32, (revision &&& ~~~vmBitRevisionShadowVmcs).getLsbD i = env.revisionId.getLsbD i := by
    intro i bound
    rw [BitVec.getLsbD_and,BitVec.getLsbD_not,shadow_bits ⟨i,bound⟩]
    simp only [goodRevision,shadowing,Bool.true_and,Bool.or_eq_true,decide_eq_true_eq] at good
    by_cases last : i = 31
    · subst last
      rw [bit]
      simp
    · rcases good with rfl | rfl
      · simp [last,bound]
      · rw [BitVec.getLsbD_or,shadow_bits ⟨i,bound⟩]
        simp [last,bound]
  have plain : revision &&& ~~~vmBitRevisionShadowVmcs = env.revisionId := BitVec.eq_of_getLsbD_eq same
  simp [goodRevision,plain]

theorem unlink_loads : (t.unlink env cpuId).loads env cpuId addr = t.loads env cpuId addr := by
  unfold Control.unlink
  split
  next linked =>
    unfold Control.loads Control.mark
    dsimp only
    rw [Control.clear_revision]
    by_cases here : addr = t.link cpuId
    · subst here
      rw [Function.update_self]
      simp only [Bool.false_eq_true,if_false,Control.setLink]
      rw [goodRevision_clear linked.1]
    · rw [Function.update_of_ne here]
      rfl
  next => rfl

end Loads

section Sample

def shadowVmx : VmxEnv 1 := { sampleVmx with supportVmcsShadowing := true }

def baseSupported (field : U64) : Bool := [vmHostFsBase,vmHostGsBase].contains field || sampleProcessor.supported field

theorem base_highQuad (field : U64) (supported : baseSupported field) (high : highAccess field) :
    fieldWidth field = .quad := by
  simp only [baseSupported,Bool.or_eq_true,List.contains_eq_mem,List.mem_cons,List.not_mem_nil,or_false,
    decide_eq_true_eq] at supported
  rcases supported with (rfl | rfl) | core
  · exact absurd high (by decide)
  · exact absurd high (by decide)
  · exact sampleProcessor.highQuad field core high

theorem base_core (field : U64) (member : field ∈ coreFields) :
    baseSupported field ∧ sampleProcessor.writable field := by
  obtain ⟨supported,writable⟩ := sampleProcessor.core field member
  exact ⟨by simp [baseSupported,supported],writable⟩

def baseProcessor : Processor :=
  { sampleProcessor with
    supported := baseSupported
    highQuad := base_highQuad
    core := base_core }

theorem base_guestValid (cpuId : Fin 1) : baseProcessor.validAddress (sampleVmx.guestVmcsPhyAddr cpuId) :=
  sampleVmx.guestValid cpuId

def baseVmx : VmxEnv 1 :=
  { sampleVmx with
    toProcessor := baseProcessor
    guestValid := base_guestValid }

end Sample

end HyperBox.Nested
