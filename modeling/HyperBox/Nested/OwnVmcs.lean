import HyperBox.Nested.Invariant

/-! What a guest hypervisor can do to Hyper-box's own VMCSs. Hyper-box does not compare
the pointers it is given with its own regions, so the answer depends on whether one is
ever given. -/
namespace HyperBox.Nested
open HyperBox.Library HyperBox.PageTable HyperBox.Ept

def pinnedFields : List U64 :=
  [vmCtrlSecProcBasedExeCtrl,vmCtrlEptPtr,vmHostRip,vmHostRsp,vmHostCr3]

section Launch
variable {n : Nat} (env : VmxEnv n)

/-- The state after `hb_init_vmx` and `hb_setup_vmcs` have run on every CPU. -/
structure Launched (s : NestedState n) : Prop where
  current : ∀ cpuId, s.current cpuId = env.guestVmcsPhyAddr cpuId
  pointer : ∀ cpuId, s.nestedVmcsPtr cpuId = 0
  link : ∀ cpuId, s.field (env.guestVmcsPhyAddr cpuId) vmVmcsLinkPtr = noVmcs
  revision : ∀ cpuId, (s.regions (env.guestVmcsPhyAddr cpuId)).revision = env.revisionId
  hostRip : ∀ cpuId, s.field (env.guestVmcsPhyAddr cpuId) vmHostRip = env.vmExitCallbackStub
  hostRsp : ∀ cpuId, s.field (env.guestVmcsPhyAddr cpuId) vmHostRsp = env.hostRsp cpuId
  hostCr3 : ∀ cpuId, s.field (env.guestVmcsPhyAddr cpuId) vmHostCr3 = env.vmHostPhyPml4
  ops : s.ops = []

theorem Launched.placed {env} {s : NestedState n} (launched : Launched env s) {G : U64 → Prop} (zero : G 0) :
    Placed env G s where
  current cpuId := .inl (launched.current cpuId)
  pointer cpuId := by rwa [launched.pointer cpuId]
  link cpuId := .inl (launched.link cpuId)
  revision := launched.revision

end Launch

section Pins
variable {n : Nat} {env : VmxEnv n} {pins : Fin n → U64 → U64} {s : NestedState n} {addr : U64}

def Untouched (env : VmxEnv n) (pins : Fin n → U64 → U64) (s : NestedState n) : Prop :=
  (∀ op ∈ s.ops, ¬ Own env op.target) ∧
    ∀ cpuId, ∀ field ∈ pinnedFields, s.field (env.guestVmcsPhyAddr cpuId) field = pins cpuId field

theorem Untouched.record (held : Untouched env pins s) {op : VmcsOp} (away : ¬ Own env op.target) :
    Untouched env pins (s.record op) := by
  refine ⟨?_,held.2⟩
  intro other member
  rcases List.mem_cons.mp member with rfl | earlier
  · exact away
  · exact held.1 other earlier

theorem Untouched.updateRegion (held : Untouched env pins s) {update : Region → Region}
    (keeps : ∀ cpuId, addr = env.guestVmcsPhyAddr cpuId → ∀ field ∈ pinnedFields,
      (update (s.regions addr)).fields field = pins cpuId field) :
    Untouched env pins (s.updateRegion addr update) := by
  refine ⟨held.1,?_⟩
  intro cpuId field pinned
  by_cases here : env.guestVmcsPhyAddr cpuId = addr
  · simpa [NestedState.field,here] using keeps cpuId here.symm field pinned
  · simpa [NestedState.field,here] using held.2 cpuId field pinned

theorem Untouched.foreign (held : Untouched env pins s) (away : ¬ Own env addr) (update : Region → Region) :
    Untouched env pins (s.updateRegion addr update) :=
  held.updateRegion (fun cpuId here => absurd ⟨cpuId,.inl here⟩ away)

theorem plain_not_pinned : ∀ field ∈ vmVmcsLinkPtr::plainFields, field ∉ pinnedFields := by
  simp only [plainFields,List.forall_mem_cons,List.not_mem_nil,false_imp_iff,implies_true,and_true]
  decide

theorem pinned_unsaved : ∀ field ∈ pinnedFields, savedOnExit field = false := by
  simp only [pinnedFields,List.forall_mem_cons,List.not_mem_nil,false_imp_iff,implies_true,and_true]
  decide

theorem write_hostRsp (region : Region) (value : U64) :
    (region.write vmHostRsp value).fields vmHostRsp = value := by
  have key : fieldKey vmHostRsp = vmHostRsp := by decide
  have low : highAccess vmHostRsp = false := by decide
  have width : fieldWidth vmHostRsp = .natural := by decide
  simp [Region.write,key,fieldValue,low,width]

theorem Untouched.ownWrite (rsp : ∀ cpuId, pins cpuId vmHostRsp = env.hostRsp cpuId)
    (placed : Placed env (Foreign env) s) (held : Untouched env pins s) {cpuId : Fin n} {field value : U64}
    (write : OwnWrite env cpuId field value) : Untouched env pins (hbWriteVmcs env cpuId s field value) := by
  unfold hbWriteVmcs
  split
  next =>
    rcases placed.current cpuId with home | foreign
    · refine held.updateRegion (fun other here pinned member => ?_)
      have same : other = cpuId := env.guestDistinct (here.symm.trans home)
      subst same
      by_cases written : fieldKey field = pinned
      · rw [write.key] at written
        subst written
        rcases write with plain | rfl | ⟨rfl,rfl⟩
        · exact absurd member (plain_not_pinned field (List.mem_cons_of_mem _ plain))
        · exact absurd member (plain_not_pinned _ List.mem_cons_self)
        · rw [write_hostRsp,rsp]
      · rw [write_other written,here]
        exact held.2 other pinned member
    · exact held.foreign foreign.not_own _
  next => exact held

theorem Untouched.shadowStore (held : Untouched env pins s) (foreign : Foreign env addr) {op : VmcsOp}
    (target : op.target = addr) (set : Bool) :
    Untouched env pins (shadowStore env (s.record op) addr set) :=
  (held.record (target ▸ foreign.not_own)).foreign foreign _

theorem untouched_stable (rsp : ∀ cpuId, pins cpuId vmHostRsp = env.hostRsp cpuId) :
    Stable env (Foreign env) (Untouched env pins) where
  setCurrent _ _ _ held := held
  setNestedVmcsPtr _ _ _ held := held
  setVmLaunch _ _ _ held := held
  updateSlot _ _ _ held := held
  launched s addr launched held := held.updateRegion (fun cpuId here field pinned => by
    subst here
    exact held.2 cpuId field pinned)
  clear _ _ foreign held := held.record foreign.not_own
  setShadow _ _ foreign held := held.shadowStore foreign rfl true
  clearShadow _ _ foreign held := held.shadowStore foreign rfl false
  ownWrite _ _ _ _ placed write held := held.ownWrite rsp placed write
  guestWrite s cpuId field value foreign held := by
    have recorded : Untouched env pins (s.record (.guestVmwrite (s.current cpuId) field
        (hostFieldValue env cpuId field value))) := held.record foreign.not_own
    unfold guestVmwrite hbWriteVmcs
    split
    · exact recorded.foreign foreign.not_own _
    · exact recorded
  rspWrite s cpuId value foreign held := by
    unfold hbWriteVmcs
    split
    · exact held.foreign foreign.not_own _
    · exact held
  save s cpuId saved placed held := held.updateRegion (fun other here field pinned => by
    have unsaved := pinned_unsaved field pinned
    simp only [Region.save,unsaved,Bool.false_eq_true,if_false]
    rw [here]
    exact held.2 other field pinned)
  shadowed _ _ _ _ foreign _ _ held := held.foreign foreign.not_own _

end Pins

/-- If the guest hypervisor never names a page with a region of Hyper-box's own, none of
them is cleared, marked as shadow or written for it, in whatever order the instructions come. -/
theorem own_vmcs_untouched {n : Nat} (env : VmxEnv n) {start : NestedState n} (launched : Launched env start)
    (events : List (VmxEvent n)) (named : ∀ event ∈ events, event.Names (Foreign env)) :
    (∀ op ∈ (run (vmxStep env) start events).ops, ¬ Own env op.target) ∧
    ∀ cpuId, ∀ field ∈ pinnedFields,
      (run (vmxStep env) start events).field (env.guestVmcsPhyAddr cpuId) field =
        start.field (env.guestVmcsPhyAddr cpuId) field := by
  have stable : Stable env (Foreign env)
      (Untouched env (fun cpuId => start.field (env.guestVmcsPhyAddr cpuId))) := untouched_stable launched.hostRsp
  have initial : Guarded env (Foreign env)
      (Untouched env (fun cpuId => start.field (env.guestVmcsPhyAddr cpuId))) start := by
    refine ⟨launched.placed foreign_zero,?_,fun _ _ _ => rfl⟩
    rw [launched.ops]
    simp
  exact (run_guarded (fun _ foreign => foreign) stable initial foreign_zero named).inv

section Sample

def sampleProcessor : Processor where
  revisionId := 4
  physicalWidth := 39
  supported := fun field => (coreFields ++ [vmCtrlSecProcBasedExeCtrl,vmCtrlEptPtr]).contains field
  writable := fun _ => true
  scribble := fun _ _ region => region
  revisionPlain := by decide
  highQuad := by
    intro field supported high
    simp only [coreFields,List.contains_eq_mem,List.mem_append,List.mem_cons,List.not_mem_nil,or_false,
      decide_eq_true_eq] at supported
    rcases supported with (rfl | rfl | rfl | rfl | rfl | rfl | rfl | rfl | rfl | rfl | rfl) | rfl | rfl <;>
      exact absurd high (by decide)
  core := fun field member => ⟨by simp [member],rfl⟩

/-- One CPU without VMCS shadowing; its VMXON region is page 1 and its VMCS page 2. -/
def sampleVmx : VmxEnv 1 where
  toProcessor := sampleProcessor
  guestVmcsPhyAddr := fun _ => 0x2000
  vmxOnVmcsPhyAddr := fun _ => 0x1000
  vmExitStackAddr := fun _ => 0x80000
  stackSize := 0x4000
  vmExitCallbackStub := 0xC0000200
  vmHostPhyPml4 := 0x3000
  supportVmcsShadowing := false
  guestValid := by decide
  guestDistinct := fun _ _ _ => Subsingleton.elim _ _
  vmxOnAligned := by decide
  guestVmxOn := by decide
  guestNonzero := by decide
  vmxOnNonzero := by decide

def sampleOwnField (field : U64) : U64 :=
  if field = vmVmcsLinkPtr then noVmcs
  else if field = vmHostRip then 0xC0000200
  else if field = vmHostRsp then 0x83000
  else if field = vmHostCr3 then 0x3000
  else if field = vmCtrlSecProcBasedExeCtrl then 0x2
  else 0

def sampleLaunch : NestedState 1 where
  regions := fun addr => ⟨4,false,if addr = 0x2000 then sampleOwnField else fun _ => 0⟩
  current := fun _ => 0x2000
  nestedVmcsPtr := fun _ => 0
  nestedVmcsArray := fun _ => ⟨0,0,0,0⟩
  vmLaunch := fun _ => false
  ops := []

def sampleExit (inst : VmxInst) : VmxEvent 1 := .exit ⟨0,fun _ => 0,0,inst⟩

def launchExit : VmxExit 1 := ⟨0,fun _ => 0,0,.vmlaunch⟩

theorem sampleLaunch_launched : Launched sampleVmx sampleLaunch :=
  ⟨by decide,by decide,by decide,by decide,by decide,by decide,by decide,rfl⟩

theorem foreign_sample : Foreign sampleVmx 0x5000 := by
  rintro ⟨_,guest | vmxOn⟩
  · exact absurd guest (show pageStart (0x5000 + 3) ≠ 0x2000 by decide)
  · exact absurd vmxOn (show pageStart (0x5000 + 3) ≠ 0x1000 by decide)

theorem own_vmcs_untouched_sample :
    (run (vmxStep sampleVmx) sampleLaunch
      [sampleExit (.vmptrld 0x5000),sampleExit (.vmwrite vmCtrlSecProcBasedExeCtrl 0)]).field 0x2000
        vmCtrlSecProcBasedExeCtrl = 0x2 :=
  (own_vmcs_untouched sampleVmx sampleLaunch_launched
    [sampleExit (.vmptrld 0x5000),sampleExit (.vmwrite vmCtrlSecProcBasedExeCtrl 0)]
    (List.forall_mem_cons.mpr ⟨foreign_sample,List.forall_mem_singleton.mpr trivial⟩)).2 0 _
    (by simp [pinnedFields])

/-- A guest hypervisor that loads Hyper-box's own VMCS and clears its secondary controls
turns the extended page table off. -/
theorem own_vmcs_written :
    .guestVmwrite 0x2000 vmCtrlSecProcBasedExeCtrl 0 ∈ (run (vmxStep sampleVmx) sampleLaunch
      [sampleExit (.vmptrld 0x2000),sampleExit (.vmwrite vmCtrlSecProcBasedExeCtrl 0)]).ops ∧
    Own sampleVmx 0x2000 ∧
    (run (vmxStep sampleVmx) sampleLaunch
      [sampleExit (.vmptrld 0x2000),sampleExit (.vmwrite vmCtrlSecProcBasedExeCtrl 0)]).field 0x2000
        vmCtrlSecProcBasedExeCtrl = 0 := by
  refine ⟨by decide +kernel,⟨0,.inl rfl⟩,by decide +kernel⟩

end Sample
end HyperBox.Nested
