import HyperBox.Nested.ControlRegister
import HyperBox.Nested.Resume

/-! The pinned bits of the control registers. The masks of Hyper-box's own VMCS never change,
so no guest instruction changes a pinned bit without an exit; and the handlers that write a
control register write these bits as they should be. -/
namespace HyperBox.Nested.ControlRegister
open HyperBox.Library HyperBox.PageTable HyperBox.Ept

/-- CR0.WP, CR4.VMXE and CR4.SMEP are pinned to one and CR4.MCE to zero. -/
def crPins : List (U64 × Nat × Bool) :=
  [(vmGuestCr0,16,true),(vmGuestCr4,13,true),(vmGuestCr4,20,true),(vmGuestCr4,6,false)]

def Unpinned (field : U64) (bit : Nat) : Prop := ∀ pin ∈ crPins, pin.1 = field → pin.2.1 ≠ bit

def Pinned {n : Nat} (env : VmxEnv n) (s : NestedState n) : Prop :=
  ∀ cpuId, ∀ pin ∈ crPins, (s.field (env.guestVmcsPhyAddr cpuId) pin.1).getLsbD pin.2.1 = pin.2.2

def Controlled {n : Nat} (env : VmxEnv n) (s : NestedState n) : Prop :=
  ∀ cpuId, ∀ control ∈ crControls, s.field (env.guestVmcsPhyAddr cpuId) control.1 = control.2

section Bits

theorem movToCr_masked {mask : U64} {bit : Nat} (masked : mask.getLsbD bit = true) (shadow cr value : U64) :
    (movToCr mask shadow cr value).getLsbD bit = cr.getLsbD bit := by
  unfold movToCr
  split
  · simp only [BitVec.getLsbD_or,BitVec.getLsbD_and,BitVec.getLsbD_not,masked,Bool.and_true,Bool.not_true,
      Bool.and_false,Bool.or_false]
  · rfl

theorem run_movToCr_masked {mask : U64} {bit : Nat} (masked : mask.getLsbD bit = true) (shadow : U64)
    (values : List U64) (cr : U64) : (run (movToCr mask shadow) cr values).getLsbD bit = cr.getLsbD bit := by
  induction values generalizing cr with
  | nil => rfl
  | cons value rest ih => rw [run_cons,ih,movToCr_masked masked]

theorem unpinned_cr0 : ∀ bit < 64, bit ≠ 16 → cr0BitWp.getLsbD bit = false := by decide

theorem unpinned_cr4 : ∀ bit < 64, bit ≠ 13 → bit ≠ 20 → bit ≠ 6 →
    (cr4BitVmxe ||| cr4BitSmep).getLsbD bit = false ∧ cr4BitMce.getLsbD bit = false := by decide

theorem cr0_bit (value : U64) {bit : Nat} (bound : bit < 64) (unpinned : Unpinned vmGuestCr0 bit) :
    (value ||| cr0BitWp).getLsbD bit = value.getLsbD bit := by
  have apart : 16 ≠ bit := unpinned (vmGuestCr0,16,true) (by simp [crPins]) rfl
  rw [BitVec.getLsbD_or,unpinned_cr0 bit bound apart.symm,Bool.or_false]

theorem cr4_bit (value : U64) {bit : Nat} (bound : bit < 64) (unpinned : Unpinned vmGuestCr4 bit) :
    ((value ||| (cr4BitVmxe ||| cr4BitSmep)) &&& ~~~cr4BitMce).getLsbD bit = value.getLsbD bit := by
  have vmxe : 13 ≠ bit := unpinned (vmGuestCr4,13,true) (by simp [crPins]) rfl
  have smep : 20 ≠ bit := unpinned (vmGuestCr4,20,true) (by simp [crPins]) rfl
  have mce : 6 ≠ bit := unpinned (vmGuestCr4,6,false) (by simp [crPins]) rfl
  obtain ⟨set,clear⟩ := unpinned_cr4 bit bound vmxe.symm smep.symm mce.symm
  rw [BitVec.getLsbD_and,BitVec.getLsbD_or,BitVec.getLsbD_not,set,clear]
  simp [bound]

theorem crValues_pinned (value : U64) :
    (value ||| cr0BitWp).getLsbD 16 = true ∧
    ((value ||| (cr4BitVmxe ||| cr4BitSmep)) &&& ~~~cr4BitMce).getLsbD 13 = true ∧
    ((value ||| (cr4BitVmxe ||| cr4BitSmep)) &&& ~~~cr4BitMce).getLsbD 20 = true ∧
    ((value ||| (cr4BitVmxe ||| cr4BitSmep)) &&& ~~~cr4BitMce).getLsbD 6 = false := by
  simp only [BitVec.getLsbD_and,BitVec.getLsbD_or,BitVec.getLsbD_not]
  have wp : cr0BitWp.getLsbD 16 = true := by decide
  have vmxe : cr4BitVmxe.getLsbD 13 = true := by decide
  have smep : cr4BitSmep.getLsbD 20 = true := by decide
  have mce : cr4BitMce.getLsbD 6 = true ∧ cr4BitMce.getLsbD 13 = false ∧ cr4BitMce.getLsbD 20 = false := by decide
  simp only [wp,vmxe,smep,mce]
  simp

end Bits

section Fields
variable {n : Nat} {env : VmxEnv n} {cpuId : Fin n} {s : NestedState n} {addr : U64}

/-- The invariant of a run: the bits and the controls that keep them. -/
def Held (env : VmxEnv n) (s : NestedState n) : Prop := Pinned env s ∧ Controlled env s

theorem Held.updateRegion (held : Held env s) {update : Region → Region}
    (pins : ∀ cpuId, addr = env.guestVmcsPhyAddr cpuId → ∀ pin ∈ crPins,
      ((update (s.regions addr)).fields pin.1).getLsbD pin.2.1 = pin.2.2)
    (controls : ∀ cpuId, addr = env.guestVmcsPhyAddr cpuId → ∀ control ∈ crControls,
      (update (s.regions addr)).fields control.1 = control.2) : Held env (s.updateRegion addr update) := by
  refine ⟨?_,?_⟩
  · intro cpuId pin member
    by_cases here : env.guestVmcsPhyAddr cpuId = addr
    · simpa [NestedState.field,here] using pins cpuId here.symm pin member
    · simpa [NestedState.field,here] using held.1 cpuId pin member
  · intro cpuId control member
    by_cases here : env.guestVmcsPhyAddr cpuId = addr
    · simpa [NestedState.field,here] using controls cpuId here.symm control member
    · simpa [NestedState.field,here] using held.2 cpuId control member

theorem Held.foreign (held : Held env s) (away : ¬ Own env addr) (update : Region → Region) :
    Held env (s.updateRegion addr update) :=
  held.updateRegion (fun cpuId here => absurd ⟨cpuId,.inl here⟩ away)
    (fun cpuId here => absurd ⟨cpuId,.inl here⟩ away)

theorem Held.record (held : Held env s) (op : VmcsOp) : Held env (s.record op) := held

theorem Held.shadowStore (held : Held env s) (foreign : Foreign env addr) (op : VmcsOp) (set : Bool) :
    Held env (shadowStore env (s.record op) addr set) := by
  unfold Nested.shadowStore
  exact (held.record op).foreign foreign _

theorem pin_field : ∀ pin ∈ crPins, pin.1 ∈ crFields := by decide

theorem crControls_all {P : U64 × U64 → Prop} : (∀ control ∈ crControls, P control) ↔
    P (vmCtrlCr0GuestHostMask,cr0BitWp) ∧ P (vmCtrlCr4GuestHostMask,cr4BitVmxe ||| cr4BitSmep ||| cr4BitMce) ∧
      P (vmCtrlCr0ReadShadow,cr0BitWp) ∧ P (vmCtrlCr4ReadShadow,cr4BitVmxe ||| cr4BitSmep) := by
  simp only [crControls,List.forall_mem_cons,List.not_mem_nil,false_imp_iff,implies_true,and_true]

theorem control_field : ∀ control ∈ crControls, control.1 ∈ crFields := crControls_all.mpr (by decide)

theorem Held.write (held : Held env s) {field value : U64} (misses : fieldKey field ∉ crFields) :
    Held env (hbWriteVmcs env cpuId s field value) := by
  have differ : ∀ other ∈ crFields, fieldKey field ≠ other := fun other member same => misses (same ▸ member)
  unfold hbWriteVmcs
  split
  next =>
    refine held.updateRegion (fun cpuId here pin member => ?_) (fun cpuId here control member => ?_)
    · rw [write_other (differ _ (pin_field pin member)),here]
      exact held.1 cpuId pin member
    · rw [write_other (differ _ (control_field control member)),here]
      exact held.2 cpuId control member
  next => exact held

theorem plain_misses : ∀ field ∈ vmHostRsp::vmVmcsLinkPtr::plainFields, fieldKey field ∉ crFields := by
  simp only [plainFields,List.forall_mem_cons,List.not_mem_nil,false_imp_iff,implies_true,and_true]
  decide

theorem OwnWrite.misses {field value : U64} (write : OwnWrite env cpuId field value) : fieldKey field ∉ crFields := by
  rcases write with plain | rfl | ⟨rfl,_⟩
  · exact plain_misses field (by simp [plain])
  · exact plain_misses _ (by simp)
  · exact plain_misses _ (by simp)

theorem held_kept : Kept env (Foreign env) (Held env) where
  setCurrent _ _ _ held := held
  setNestedVmcsPtr _ _ _ held := held
  setVmLaunch _ _ _ held := held
  updateSlot _ _ _ held := held
  launched s addr launched held := held.updateRegion
    (fun cpuId here pin member => by rw [here]; exact held.1 cpuId pin member)
    (fun cpuId here control member => by rw [here]; exact held.2 cpuId control member)
  clear _ _ _ held := held
  setShadow _ _ foreign held := held.shadowStore foreign _ true
  clearShadow _ _ foreign held := held.shadowStore foreign _ false
  ownWrite _ _ _ _ _ write held := held.write (OwnWrite.misses write)
  guestWrite s cpuId field value foreign held := by
    unfold guestVmwrite hbWriteVmcs
    split
    · exact (held.record _).foreign foreign.not_own _
    · exact held.record _
  rspWrite _ _ _ _ held := held.write (plain_misses _ (by simp [plainFields]))
  shadowed _ _ _ _ foreign _ _ held := held.foreign foreign.not_own _

def Natural (field : U64) : Prop :=
  fieldKey field = field ∧ highAccess field = false ∧ fieldWidth field = .natural

theorem write_natural {field : U64} (natural : Natural field) (region : Region) (value : U64) :
    (region.write field value).fields field = value := by
  obtain ⟨key,low,width⟩ := natural
  simp [Region.write,key,fieldValue,low,width]

theorem natural_crs : Natural vmGuestCr0 ∧ Natural vmGuestCr3 ∧ Natural vmGuestCr4 := by
  unfold Natural
  decide

theorem Held.writeCr (held : Held env s) {field value : U64} (natural : Natural field)
    (pins : ∀ pin ∈ crPins, pin.1 = field → value.getLsbD pin.2.1 = pin.2.2)
    (controls : ∀ control ∈ crControls, control.1 ≠ field) : Held env (hbWriteVmcs env cpuId s field value) := by
  unfold hbWriteVmcs
  split
  next =>
    refine held.updateRegion (fun cpuId here pin member => ?_) (fun cpuId here control member => ?_)
    · by_cases same : pin.1 = field
      · rw [same,write_natural natural]
        exact pins pin member same
      · rw [write_other (by rw [natural.1]; exact Ne.symm same),here]
        exact held.1 cpuId pin member
    · rw [write_other (by rw [natural.1]; exact (controls control member).symm),here]
      exact held.2 cpuId control member
  next => exact held

theorem Held.writeCr0 (held : Held env s) (value : U64) :
    Held env (hbWriteVmcs env cpuId s vmGuestCr0 (value ||| cr0BitWp)) := by
  refine held.writeCr natural_crs.1 ?_ (crControls_all.mpr (by decide))
  have bits := crValues_pinned value
  simp only [crPins,List.forall_mem_cons,List.not_mem_nil,false_imp_iff,implies_true,and_true]
  exact ⟨fun _ => bits.1,fun same => absurd same (by decide),fun same => absurd same (by decide),
    fun same => absurd same (by decide)⟩

theorem Held.writeCr4 (held : Held env s) (value : U64) : Held env (hbWriteVmcs env cpuId s vmGuestCr4
    ((value ||| (cr4BitVmxe ||| cr4BitSmep)) &&& ~~~cr4BitMce)) := by
  refine held.writeCr natural_crs.2.2 ?_ (crControls_all.mpr (by decide))
  have bits := crValues_pinned value
  simp only [crPins,List.forall_mem_cons,List.not_mem_nil,false_imp_iff,implies_true,and_true]
  exact ⟨fun same => absurd same (by decide),fun _ => bits.2.1,fun _ => bits.2.2.1,fun _ => bits.2.2.2⟩

end Fields

section Handlers
variable {n : Nat} {env : VmxEnv n} {cpuId : Fin n} {s : NestedState n}

/-- A state in which a handler works on the own VMCS of its CPU. -/
abbrev Home (env : VmxEnv n) (cpuId : Fin n) (s : NestedState n) : Prop :=
  AtHome env (Foreign env) (Held env) cpuId s

theorem home_write (home : Home env cpuId s) {field value : U64} (link : fieldKey field ≠ vmVmcsLinkPtr)
    (held : Held env (hbWriteVmcs env cpuId s field value)) : Home env cpuId (hbWriteVmcs env cpuId s field value) := by
  refine ⟨⟨?_,held⟩,by rw [hbWriteVmcs_current,home.home]⟩
  unfold hbWriteVmcs
  split
  next =>
    refine home.placed.updateRegion (fun cpuId here => ⟨rfl,?_⟩)
    rw [write_other link,here]
    exact home.placed.link cpuId
  next => exact home.placed

theorem other_misses : ∀ field ∈ otherFields, fieldKey field ≠ vmVmcsLinkPtr ∧ fieldKey field ∉ crFields := by
  simp only [otherFields,List.forall_mem_cons,List.not_mem_nil,false_imp_iff,implies_true,and_true]
  decide

theorem home_other (home : Home env cpuId s) {field : U64} (value : U64) (member : field ∈ otherFields) :
    Home env cpuId (hbWriteVmcs env cpuId s field value) := by
  obtain ⟨link,misses⟩ := other_misses field member
  exact home_write home link (home.inv.write misses)

theorem home_others (home : Home env cpuId s) (writes : List ({ field // field ∈ otherFields } × U64)) :
    Home env cpuId (run (fun s write => hbWriteVmcs env cpuId s write.1.val write.2) s writes) := by
  induction writes generalizing s with
  | nil => exact home
  | cons write rest ih => exact ih (home_other home write.2 write.1.property)

theorem home_writeCr (home : Home env cpuId s) (value : U64) (number : Nat) :
    Home env cpuId (writeCr env cpuId value s number) := by
  unfold writeCr
  split
  · exact home_write home (by decide) (home.inv.writeCr0 value)
  · exact home.plainField held_kept value (by simp [plainFields])
  · exact home_write home (by decide) (home.inv.writeCr4 value)
  · exact home

theorem home_setReg (home : Home env cpuId s) (guestContext : Exit.GuestRegister) (index : Nat) (value : U64) :
    Home env cpuId (hbSetRegValueFromIndex env cpuId guestContext s index value).2 := by
  unfold hbSetRegValueFromIndex
  split
  · exact home_other home value (by simp [otherFields])
  · exact home

theorem home_accessCr (home : Home env cpuId s) (stale : U64) (guestContext : Exit.GuestRegister)
    (exitQual cr2 cr8 : U64) :
    Home env cpuId (hbVmExitCallbackAccessCr env cpuId stale guestContext exitQual cr2 cr8 s).2 := by
  unfold hbVmExitCallbackAccessCr
  dsimp only
  split
  · exact (home_setReg home _ _ _).hbAdvanceVmGuestRip stale held_kept
  · split
    · exact (home_writeCr home _ _).hbAdvanceVmGuestRip stale held_kept
    · exact home.hbAdvanceVmGuestRip stale held_kept

theorem home_eptViolation (home : Home env cpuId s) (stale : U64) (atSleepNotify shutdowning workaround : Bool) :
    Home env cpuId (hbVmExitCallbackEptViolation env cpuId stale atSleepNotify shutdowning workaround s) := by
  unfold hbVmExitCallbackEptViolation hbInsertUdExceptionToVm
  split
  · exact home
  · have info := home_other home vmEntryIntInfoUd (show vmCtrlVmEntryIntInfoField ∈ otherFields by simp [otherFields])
    have code := home_other info 0 (show vmCtrlVmEntryExceptErrCode ∈ otherFields by simp [otherFields])
    dsimp only
    split
    · exact home_write code (by decide) (code.inv.writeCr0 _)
    · exact code

end Handlers

section Exits
variable {n : Nat} {env : VmxEnv n} {s : NestedState n} {exit : GuestExit n}

theorem saved_crs : savedOnExit vmGuestCr0 = true ∧ savedOnExit vmGuestCr4 = true ∧
    savedOnExit vmVmcsLinkPtr = false ∧ ∀ control ∈ crControls, savedOnExit control.1 = false :=
  ⟨by decide,by decide,by decide,crControls_all.mpr (by decide)⟩

/-- What the processor saves agrees with the VMCS in the bits of the masks, which are those pinned. -/
theorem savedFields_pinned {region : Region} (controls : ∀ control ∈ crControls, region.fields control.1 = control.2) :
    ∀ pin ∈ crPins, (exit.savedFields region pin.1).getLsbD pin.2.1 = (region.fields pin.1).getLsbD pin.2.1 := by
  have cr0 := controls (vmCtrlCr0GuestHostMask,cr0BitWp) (by simp [crControls])
  have cr4 := controls (vmCtrlCr4GuestHostMask,cr4BitVmxe ||| cr4BitSmep ||| cr4BitMce) (by simp [crControls])
  have apart : vmGuestCr4 ≠ vmGuestCr0 := by decide
  dsimp only at cr0 cr4
  simp only [crPins,List.forall_mem_cons,List.not_mem_nil,false_imp_iff,implies_true,and_true,
    GuestExit.savedFields,if_true,if_neg apart,cr0,cr4]
  exact ⟨run_movToCr_masked (by decide) _ _ _,run_movToCr_masked (by decide) _ _ _,
    run_movToCr_masked (by decide) _ _ _,run_movToCr_masked (by decide) _ _ _⟩

theorem save_pinned {region : Region} (controls : ∀ control ∈ crControls, region.fields control.1 = control.2) :
    ∀ pin ∈ crPins,
      ((region.save (exit.savedFields region)).fields pin.1).getLsbD pin.2.1 = (region.fields pin.1).getLsbD pin.2.1 := by
  have saved : ∀ pin ∈ crPins, savedOnExit pin.1 = true := by decide
  intro pin member
  rw [← @savedFields_pinned _ exit _ controls pin member]
  simp only [Region.save,saved pin member,if_true]

theorem vmExit_held (guarded : Guarded env (Foreign env) (Held env) s) :
    Guarded env (Foreign env) (Held env) (vmExit exit s) := by
  obtain ⟨_,_,link,controls⟩ := saved_crs
  refine Guarded.setVmLaunch held_kept ⟨?_,?_⟩ false
  · refine guarded.placed.updateRegion (fun cpuId here => ⟨rfl,?_⟩)
    have linked := guarded.placed.link cpuId
    rw [← here] at linked
    simpa [Region.save,link,NestedState.field] using linked
  · refine guarded.inv.updateRegion (fun cpuId here pin member => ?_) (fun cpuId here control member => ?_)
    · have controlled := guarded.inv.2 cpuId
      rw [← here] at controlled
      rw [save_pinned controlled pin member,here]
      exact guarded.inv.1 cpuId pin member
    · simp only [Region.save,controls control member,Bool.false_eq_true,if_false]
      rw [here]
      exact guarded.inv.2 cpuId control member

theorem handle_home {cpuId : Fin n} (home : Home env cpuId s) (stale : U64) (guestContext : Exit.GuestRegister)
    {reason : ExitReason} (named : reason.Names (Foreign env)) :
    Guarded env (Foreign env) (Held env) (handle env cpuId stale guestContext s reason) ∧
      (isBackToVm reason = false → Home env cpuId (handle env cpuId stale guestContext s reason)) := by
  cases reason with
  | vmx inst => exact dispatch_guarded stale (fun _ foreign => foreign) held_kept foreign_zero named home
  | ctrlRegAccess exitQual cr2 cr8 =>
    have handled := home_accessCr home stale guestContext exitQual cr2 cr8
    exact ⟨handled.toGuarded,fun _ => handled⟩
  | eptViolation atSleepNotify shutdowning workaround =>
    have handled := home_eptViolation home stale atSleepNotify shutdowning workaround
    exact ⟨handled.toGuarded,fun _ => handled⟩
  | other writes =>
    have handled := home_others home writes
    exact ⟨handled.toGuarded,fun _ => handled⟩

theorem hbVmExitCallback_held (guarded : Guarded env (Foreign env) (Held env) s)
    (named : exit.reason.Names (Foreign env)) :
    Guarded env (Foreign env) (Held env) (hbVmExitCallback env exit s) := by
  unfold hbVmExitCallback
  split
  next away => exact exitFromVm_guarded (fun _ foreign => foreign) held_kept guarded exit.stale away
  next same =>
    have home : Home env exit.cpuId s := ⟨guarded,not_not.mp same⟩
    have started := home.plainField held_kept 0 (show vmCtrlVmEntryInstLength ∈ plainFields by simp [plainFields])
    obtain ⟨handled,back⟩ := handle_home started exit.stale exit.registers named
    dsimp only
    split
    next shadowing =>
      simp only [Bool.and_eq_true,Bool.not_eq_true'] at shadowing
      have after := back shadowing.1.2
      exact (after.hbVmSetVmcsShadowingToCurrent (fun _ foreign => foreign) held_kept
        (after.placed.pointer exit.cpuId)).toGuarded
    next => exact handled

theorem crStep_held (guarded : Guarded env (Foreign env) (Held env) s) {event : CrEvent n}
    (named : event.Names (Foreign env)) : Guarded env (Foreign env) (Held env) (crStep env s event) := by
  cases event with
  | exit exit =>
    have called := hbVmExitCallback_held (@vmExit_held _ _ _ exit guarded) named
    exact vmEntry_guarded held_kept called exit.cpuId
  | shadowed cpuId field value =>
    exact shadowVmwrite_guarded (fun _ foreign => foreign) held_kept guarded cpuId field value

theorem run_held {events : List (CrEvent n)} (named : ∀ event ∈ events, event.Names (Foreign env))
    (guarded : Guarded env (Foreign env) (Held env) s) :
    Guarded env (Foreign env) (Held env) (run (crStep env) s events) := by
  induction events generalizing s with
  | nil => exact guarded
  | cons event rest ih =>
    obtain ⟨here,later⟩ := List.forall_mem_cons.mp named
    exact ih later (crStep_held guarded here)

end Exits

section Moves
variable {n : Nat} {env : VmxEnv n} {cpuId : Fin n} {s : NestedState n} {exit : GuestExit n} {exitQual : U64}

def crField : Nat → Option U64
  | 0 => some vmGuestCr0
  | 3 => some vmGuestCr3
  | 4 => some vmGuestCr4
  | _ => none

/-- The value that the guest moves: its RSP at the exit is the one the processor saves. -/
def GuestExit.movedValue (exit : GuestExit n) (exitQual : U64) : U64 :=
  if gpRegNumber exitQual = regNumRsp then exit.saved vmGuestRsp
  else Exit.hbGetRegValueFromIndex exit.registers (gpRegNumber exitQual)

theorem hbWriteVmcs_same {field value : U64} (natural : Natural field) (real : s.current cpuId ≠ noVmcs)
    (allowed : env.supported field ∧ env.writable field) :
    (hbWriteVmcs env cpuId s field value).field (s.current cpuId) field = value := by
  rw [hbWriteVmcs,if_pos ⟨real,allowed⟩]
  simpa [NestedState.field] using write_natural natural _ value

theorem writeCr_bit (fields : ∀ field ∈ crFields, env.supported field ∧ env.writable field)
    (real : s.current cpuId ≠ noVmcs) (value : U64) {number bit : Nat} {field : U64}
    (named : crField number = some field) (bound : bit < 64) (unpinned : Unpinned field bit) :
    ((writeCr env cpuId value s number).field (s.current cpuId) field).getLsbD bit = value.getLsbD bit := by
  obtain ⟨cr0,cr3,cr4⟩ := natural_crs
  unfold crField at named
  split at named
  next =>
    obtain rfl := Option.some.inj named
    rw [writeCr,hbWriteVmcs_same cr0 real (fields _ (by simp [crFields]))]
    exact cr0_bit value bound unpinned
  next =>
    obtain rfl := Option.some.inj named
    rw [writeCr,hbWriteVmcs_same cr3 real (env.core _ (by simp [coreFields]))]
  next =>
    obtain rfl := Option.some.inj named
    rw [writeCr,hbWriteVmcs_same cr4 real (fields _ (by simp [crFields]))]
    exact cr4_bit value bound unpinned
  next => cases named

theorem crField_apart {number : Nat} {field : U64} (named : crField number = some field) :
    field ≠ vmVmcsLinkPtr ∧ field ≠ vmGuestRip := by
  unfold crField at named
  split at named <;> cases named
  · decide
  · decide
  · decide

theorem movedValue_read (home : s.current exit.cpuId = env.guestVmcsPhyAddr exit.cpuId) :
    hbGetRegValueFromIndex env exit.cpuId exit.registers
      (hbWriteVmcs env exit.cpuId (vmExit exit s) vmCtrlVmEntryInstLength 0) (gpRegNumber exitQual) =
      exit.movedValue exitQual := by
  have current : (hbWriteVmcs env exit.cpuId (vmExit exit s) vmCtrlVmEntryInstLength 0).current exit.cpuId =
      env.guestVmcsPhyAddr exit.cpuId := by rw [hbWriteVmcs_current]; exact home
  have real := guest_ne_noVmcs env exit.cpuId
  unfold GuestExit.movedValue
  split
  next rsp =>
    have shape : savedOnExit vmGuestRsp = true ∧ vmGuestRsp ≠ vmGuestCr0 ∧ vmGuestRsp ≠ vmGuestCr4 := by decide
    obtain ⟨saved,notCr0,notCr4⟩ := shape
    rw [rsp,hbGetReg_rsp (by rw [current]; exact real),hbWriteVmcs_field_other (by decide),current]
    simp [NestedState.field,vmExit,home,Region.save,saved,GuestExit.savedFields,notCr0,notCr4]
  next other => rw [hbGetRegValueFromIndex,if_neg other]

theorem moved_bit (fields : ∀ field ∈ crFields, env.supported field ∧ env.writable field)
    (guarded : Guarded env (Foreign env) (Held env) s) (home : s.current exit.cpuId = env.guestVmcsPhyAddr exit.cpuId)
    {cr2 cr8 : U64} (reason : exit.reason = .ctrlRegAccess exitQual cr2 cr8) (moves : accType exitQual = moveToCr)
    {bit : Nat} {field : U64} (named : crField (ctrlRegNumber exitQual) = some field) (bound : bit < 64)
    (unpinned : Unpinned field bit) :
    ((crStep env s (.exit exit)).field (env.guestVmcsPhyAddr exit.cpuId) field).getLsbD bit =
      (exit.movedValue exitQual).getLsbD bit := by
  obtain ⟨link,rip⟩ := crField_apart named
  have read := @movedValue_read _ env _ exit exitQual home
  have here : (vmExit exit s).current exit.cpuId = env.guestVmcsPhyAddr exit.cpuId := home
  have started : Home env exit.cpuId (hbWriteVmcs env exit.cpuId (vmExit exit s) vmCtrlVmEntryInstLength 0) := by
    have saved : Home env exit.cpuId (vmExit exit s) := ⟨vmExit_held guarded,here⟩
    exact saved.plainField held_kept 0 (by simp [plainFields])
  rw [crStep,hbVmExitCallbackStub,vmEntry_field]
  unfold hbVmExitCallback hbStoreVmcs
  rw [if_neg (fun away => away here),reason]
  dsimp only [handle]
  generalize hbWriteVmcs env exit.cpuId (vmExit exit s) vmCtrlVmEntryInstLength 0 = s' at started read
  have handled := home_accessCr started exit.stale exit.registers exitQual cr2 cr8
  have written : ((hbVmExitCallbackAccessCr env exit.cpuId exit.stale exit.registers exitQual cr2 cr8 s').2.field
      (env.guestVmcsPhyAddr exit.cpuId) field).getLsbD bit = (exit.movedValue exitQual).getLsbD bit := by
    have real := home_real started.home
    have notFrom : moveToCr ≠ moveFromCr := by decide
    unfold hbVmExitCallbackAccessCr
    dsimp only
    rw [moves,if_neg notFrom,if_pos rfl,advance_field _ _ rip,read,← started.home]
    exact writeCr_bit fields real _ named bound unpinned
  split
  · rw [setShadowing_field (handled.placed.pointer exit.cpuId) link]
    exact written
  · exact written

end Moves

section Launch
variable {n : Nat}

/-- The state after `hb_setup_vmcs` has also written the masks and shadows on every CPU. -/
structure CrLaunched (env : VmxEnv n) (s : NestedState n) : Prop extends Launched env s where
  controlled : Controlled env s

theorem control_natural : ∀ control ∈ crControls, Natural control.1 := by
  unfold Natural
  exact crControls_all.mpr (by decide)

theorem runWrites_field (env : CrEnv n) {cpuId : Fin n} {controls : List (U64 × U64)}
    (inside : ∀ control ∈ controls, control ∈ crControls) (distinct : (controls.map Prod.fst).Nodup)
    {s : NestedState n} (home : s.current cpuId = env.guestVmcsPhyAddr cpuId) {field value : U64}
    (given : (field,value) ∈ controls ∨
      (field ∉ controls.map Prod.fst ∧ s.field (env.guestVmcsPhyAddr cpuId) field = value)) :
    (run (fun s control => hbWriteVmcs env.toVmxEnv cpuId s control.1 control.2) s controls).field
      (env.guestVmcsPhyAddr cpuId) field = value := by
  induction controls generalizing s with
  | nil => exact (given.resolve_left (by simp)).2
  | cons first rest ih =>
    obtain ⟨member,later⟩ := List.forall_mem_cons.mp inside
    simp only [List.map_cons,List.nodup_cons] at distinct
    have natural := control_natural first member
    have real := home_real home
    apply ih later distinct.2 (by rw [hbWriteVmcs_current,home])
    rcases given with given | ⟨absent,before⟩
    · rcases List.mem_cons.mp given with rfl | given
      · have set := @hbWriteVmcs_same _ _ _ _ _ value natural real (env.crFields _ (control_field _ member))
        rw [home] at set
        exact .inr ⟨distinct.1,set⟩
      · exact .inl given
    · simp only [List.map_cons,List.mem_cons,not_or] at absent
      refine .inr ⟨absent.2,?_⟩
      rw [hbWriteVmcs_field_other (by rw [natural.1]; exact Ne.symm absent.1),before]

/-- The writes of `hb_setup_vmcs` give the VMCS of a CPU the masks and shadows. -/
theorem hbSetupVmcsControls_controlled (env : CrEnv n) {cpuId : Fin n} {s : NestedState n}
    (home : s.current cpuId = env.guestVmcsPhyAddr cpuId) : ∀ control ∈ crControls,
      (hbSetupVmcsControls env.toVmxEnv cpuId s).field (env.guestVmcsPhyAddr cpuId) control.1 = control.2 :=
  fun _ member => runWrites_field env (fun _ inside => inside) (by decide) home (.inl member)

end Launch

/-- As long as the guest hypervisor names no region of Hyper-box's own, the pinned bits of the
control registers keep their values in every run, and a trapped MOV to a control register sets
every other bit as the guest wrote it. -/
theorem control_registers_pinned {n : Nat} (env : CrEnv n) {start : NestedState n}
    (launched : CrLaunched env.toVmxEnv start) (pinned : Pinned env.toVmxEnv start) (events : List (CrEvent n))
    (named : ∀ event ∈ events, event.Names (Foreign env.toVmxEnv)) :
    Pinned env.toVmxEnv (run (crStep env.toVmxEnv) start events) ∧
    ∀ (exit : GuestExit n) (exitQual cr2 cr8 : U64), exit.reason = .ctrlRegAccess exitQual cr2 cr8 →
      accType exitQual = moveToCr →
      (run (crStep env.toVmxEnv) start events).current exit.cpuId = env.guestVmcsPhyAddr exit.cpuId →
      ∀ field, crField (ctrlRegNumber exitQual) = some field → ∀ bit < 64, Unpinned field bit →
        ((crStep env.toVmxEnv (run (crStep env.toVmxEnv) start events) (.exit exit)).field
          (env.guestVmcsPhyAddr exit.cpuId) field).getLsbD bit = (exit.movedValue exitQual).getLsbD bit := by
  have initial : Guarded env.toVmxEnv (Foreign env.toVmxEnv) (Held env.toVmxEnv) start :=
    ⟨launched.toLaunched.placed foreign_zero,pinned,launched.controlled⟩
  have reached := run_held named initial
  refine ⟨reached.inv.1,?_⟩
  intro exit exitQual cr2 cr8 reason moves home field named bit bound unpinned
  exact moved_bit env.crFields reached home reason moves named bound unpinned

section Sample

def crSupported (field : U64) : Bool := (coreFields ++ crFields).contains field

theorem cr_highQuad (field : U64) (supported : crSupported field) (high : highAccess field) : fieldWidth field = .quad := by
  have low : ∀ field ∈ coreFields ++ crFields, highAccess field = false := by
    simp only [coreFields,crFields,List.cons_append,List.nil_append,List.forall_mem_cons,List.not_mem_nil,
      false_imp_iff,implies_true,and_true]
    decide
  rw [low field (by simpa [crSupported] using supported)] at high
  cases high

theorem cr_core (field : U64) (member : field ∈ coreFields) : crSupported field ∧ sampleProcessor.writable field :=
  ⟨by simp [crSupported,member],rfl⟩

def crProcessor : Processor :=
  { sampleProcessor with
    supported := crSupported
    highQuad := cr_highQuad
    core := cr_core }

theorem cr_guestValid (cpuId : Fin 1) : crProcessor.validAddress (sampleVmx.guestVmcsPhyAddr cpuId) :=
  sampleVmx.guestValid cpuId

def withProcessor {n : Nat} (env : VmxEnv n) (processor : Processor)
    (guestValid : ∀ cpuId, processor.validAddress (env.guestVmcsPhyAddr cpuId)) : VmxEnv n :=
  { env with toProcessor := processor, guestValid }

theorem cr_fields (field : U64) (member : field ∈ crFields) :
    (withProcessor sampleVmx crProcessor cr_guestValid).supported field ∧
      (withProcessor sampleVmx crProcessor cr_guestValid).writable field :=
  ⟨by simp [withProcessor,crProcessor,crSupported,member],rfl⟩

def crVmx : CrEnv 1 where
  toVmxEnv := withProcessor sampleVmx crProcessor cr_guestValid
  crFields := cr_fields

def crOwnField (field : U64) : U64 :=
  if field = vmGuestCr0 then 0x80010001
  else if field = vmGuestCr4 then 0x102000
  else if field = vmCtrlCr0GuestHostMask then 0x10000
  else if field = vmCtrlCr4GuestHostMask then 0x102040
  else if field = vmCtrlCr0ReadShadow then 0x10000
  else if field = vmCtrlCr4ReadShadow then 0x102000
  else sampleOwnField field

def crLaunch : NestedState 1 :=
  { sampleLaunch with regions := fun addr => ⟨4,false,if addr = 0x2000 then crOwnField else fun _ => 0⟩ }

def crMove : GuestExit 1 where
  cpuId := launchExit.cpuId
  cr0Writes := []
  cr4Writes := []
  saved := fun _ => 0
  stale := 0
  registers := ⟨0x80000001,0,0,0,0,0,0,0,0,0,0,0,0,0,0,0⟩
  reason := .ctrlRegAccess 0 0 0

theorem crLaunch_launched : CrLaunched crVmx.toVmxEnv crLaunch :=
  ⟨⟨by decide,by decide,by decide,by decide,by decide,by decide,by decide,rfl⟩,
    Fin.forall_fin_one.mpr (crControls_all.mpr (by decide))⟩

theorem crLaunch_pinned : Pinned crVmx.toVmxEnv crLaunch := by
  unfold Pinned
  decide

theorem control_registers_pinned_sample :
    ((run (crStep crVmx.toVmxEnv) crLaunch [.exit crMove]).field 0x2000 vmGuestCr0).getLsbD 16 = true ∧
    ((crStep crVmx.toVmxEnv crLaunch (.exit crMove)).field 0x2000 vmGuestCr0).getLsbD 31 = true := by
  refine ⟨?_,?_⟩
  · exact (control_registers_pinned crVmx crLaunch_launched crLaunch_pinned [.exit crMove]
      (List.forall_mem_singleton.mpr trivial)).1 0 (vmGuestCr0,16,true) (by simp [crPins])
  · have moved := (control_registers_pinned crVmx crLaunch_launched crLaunch_pinned [] (by simp)).2
      crMove 0 0 0 rfl (by decide) rfl vmGuestCr0 rfl 31 (by decide) (by unfold Unpinned; decide)
    exact moved

end Sample

end HyperBox.Nested.ControlRegister
