import HyperBox.Library.Run
import HyperBox.Nested.Exit

/-! An invariant rule for runs of emulated VMX instructions. As long as the guest hypervisor
names only regions that satisfy `G`, so do all the pointers that Hyper-box derives from
them; an invariant that the single operations keep on such regions is then kept by the
whole callback. -/
namespace HyperBox.Nested
open HyperBox.Library HyperBox.PageTable HyperBox.Ept

section Own
variable {n : Nat} (env : VmxEnv n)

def Own (page : U64) : Prop :=
  ∃ cpuId, page = env.guestVmcsPhyAddr cpuId ∨ page = env.vmxOnVmcsPhyAddr cpuId

/-- The dword at the address is outside the pages of Hyper-box's own regions. -/
def Foreign (addr : U64) : Prop := ¬ Own env (pageStart (addr + 3))

variable {addr : U64}

theorem pageStart_toNat (addr : U64) : (pageStart addr).toNat = addr.toNat / 4096 * 4096 := by
  have bound := addr.isLt
  rw [pageStart,address_frame,frame,BitVec.toNat_ofNat]
  omega

theorem aligned_toNat (aligned : pageStart addr = addr) : addr.toNat % 4096 = 0 := by
  have same := pageStart_toNat addr
  rw [aligned] at same
  omega

theorem pageStart_dword (aligned : pageStart addr = addr) : pageStart (addr + 3) = addr := by
  have low := aligned_toNat aligned
  have bound := addr.isLt
  apply BitVec.eq_of_toNat_eq
  rw [pageStart_toNat,BitVec.toNat_add,show (3 : U64).toNat = 3 by rfl]
  omega

theorem guest_aligned (cpuId : Fin n) :
    pageStart (env.guestVmcsPhyAddr cpuId) = env.guestVmcsPhyAddr cpuId := by
  have valid := env.guestValid cpuId
  simp only [Processor.validAddress,Bool.and_eq_true,decide_eq_true_eq] at valid
  exact valid.1

theorem guest_ne_noVmcs (cpuId : Fin n) : env.guestVmcsPhyAddr cpuId ≠ noVmcs := by
  intro same
  have aligned := guest_aligned env cpuId
  rw [same] at aligned
  exact absurd aligned (by decide)

variable {env}

theorem Own.aligned (own : Own env addr) : pageStart addr = addr := by
  obtain ⟨cpuId,rfl | rfl⟩ := own
  · exact guest_aligned env cpuId
  · exact env.vmxOnAligned cpuId

theorem Foreign.not_own (foreign : Foreign env addr) : ¬ Own env addr := by
  intro own
  rw [Foreign,pageStart_dword own.aligned] at foreign
  exact foreign own

theorem foreign_zero : Foreign env 0 := by
  have page : pageStart (0 + 3) = 0 := by decide
  rw [Foreign,page]
  rintro ⟨cpuId,zero | zero⟩
  · exact env.guestNonzero cpuId zero.symm
  · exact env.vmxOnNonzero cpuId zero.symm

end Own

def plainFields : List U64 :=
  [vmGuestCr3,vmGuestFsBase,vmGuestGsBase,vmGuestRsp,vmGuestRip,vmGuestRflags,vmCtrlVmEntryInstLength]

def OwnWrite {n : Nat} (env : VmxEnv n) (cpuId : Fin n) (field value : U64) : Prop :=
  field ∈ plainFields ∨ field = vmVmcsLinkPtr ∨ (field = vmHostRsp ∧ value = env.hostRsp cpuId)

def VmxInst.Names (G : U64 → Prop) : VmxInst → Prop
  | .vmclear data => G data
  | .vmptrld data => G data
  | _ => True

def VmxEvent.Names {n : Nat} (G : U64 → Prop) : VmxEvent n → Prop
  | .exit taken => taken.inst.Names G
  | .shadowed _ _ _ => True

section Rule
variable {n : Nat}

/-- Where the pointers of a state lead: a CPU is in its own VMCS or in a region of `G`. -/
structure Placed (env : VmxEnv n) (G : U64 → Prop) (s : NestedState n) : Prop where
  current : ∀ cpuId, s.current cpuId = env.guestVmcsPhyAddr cpuId ∨ G (s.current cpuId)
  pointer : ∀ cpuId, G (s.nestedVmcsPtr cpuId)
  link : ∀ cpuId, s.field (env.guestVmcsPhyAddr cpuId) vmVmcsLinkPtr = noVmcs ∨
    G (s.field (env.guestVmcsPhyAddr cpuId) vmVmcsLinkPtr)
  revision : ∀ cpuId, (s.regions (env.guestVmcsPhyAddr cpuId)).revision = env.revisionId

/-- The single operations keep `I`, as far as the callback uses them. -/
structure Kept (env : VmxEnv n) (G : U64 → Prop) (I : NestedState n → Prop) : Prop where
  setCurrent : ∀ s cpuId addr, I s → I (s.setCurrent cpuId addr)
  setNestedVmcsPtr : ∀ s cpuId addr, I s → I (s.setNestedVmcsPtr cpuId addr)
  setVmLaunch : ∀ s cpuId launch, I s → I (s.setVmLaunch cpuId launch)
  updateSlot : ∀ s slot update, I s → I (s.updateSlot slot update)
  launched : ∀ s addr (launched : Region → Bool), I s →
    I (s.updateRegion addr (fun region => { region with launched := launched region }))
  clear : ∀ s addr, G addr → I s → I (s.record (.vmclear addr))
  setShadow : ∀ s addr, G addr → I s → I (shadowStore env (s.record (.setShadow addr)) addr true)
  clearShadow : ∀ s addr, G addr → I s → I (shadowStore env (s.record (.clearShadow addr)) addr false)
  ownWrite : ∀ s cpuId field value, Placed env G s → OwnWrite env cpuId field value → I s →
    I (hbWriteVmcs env cpuId s field value)
  guestWrite : ∀ s cpuId field value, G (s.current cpuId) → I s →
    I (guestVmwrite env cpuId s field (hostFieldValue env cpuId field value))
  rspWrite : ∀ s cpuId value, G (s.current cpuId) → I s → I (hbWriteVmcs env cpuId s vmGuestRsp value)
  shadowed : ∀ s addr field value, G addr → vmwriteBitmap field = false → env.supported field → I s →
    I (s.updateRegion addr (fun region => region.write field value))

/-- The callback keeps `I`, and so does the exit before it, whatever the processor saves there. -/
structure Stable (env : VmxEnv n) (G : U64 → Prop) (I : NestedState n → Prop) : Prop extends Kept env G I where
  save : ∀ s cpuId saved, Placed env G s → I s →
    I (s.updateRegion (s.current cpuId) (fun region => region.save saved))

instance {env : VmxEnv n} {G : U64 → Prop} {I : NestedState n → Prop} : Coe (Stable env G I) (Kept env G I) :=
  ⟨Stable.toKept⟩

structure Guarded (env : VmxEnv n) (G : U64 → Prop) (I : NestedState n → Prop) (s : NestedState n) : Prop where
  placed : Placed env G s
  inv : I s

/-- Between the loads of a nested VMCS the callback works on its CPU's own VMCS. -/
structure AtHome (env : VmxEnv n) (G : U64 → Prop) (I : NestedState n → Prop) (cpuId : Fin n)
    (s : NestedState n) : Prop extends Guarded env G I s where
  home : s.current cpuId = env.guestVmcsPhyAddr cpuId

variable {env : VmxEnv n} {G : U64 → Prop} {I : NestedState n → Prop} {s : NestedState n}
  {cpuId : Fin n} {addr : U64}

theorem Placed.updateRegion (placed : Placed env G s) {update : Region → Region}
    (keeps : ∀ cpuId, addr = env.guestVmcsPhyAddr cpuId →
      (update (s.regions addr)).revision = (s.regions addr).revision ∧
      ((update (s.regions addr)).fields vmVmcsLinkPtr = noVmcs ∨
        G ((update (s.regions addr)).fields vmVmcsLinkPtr))) : Placed env G (s.updateRegion addr update) := by
  refine ⟨placed.current,placed.pointer,?_,?_⟩
  · intro cpuId
    by_cases here : env.guestVmcsPhyAddr cpuId = addr
    · have link := (keeps cpuId here.symm).2
      simpa [NestedState.field,here] using link
    · simpa [NestedState.field,here] using placed.link cpuId
  · intro cpuId
    by_cases here : env.guestVmcsPhyAddr cpuId = addr
    · have revision := placed.revision cpuId
      rw [here] at revision
      simp [here,(keeps cpuId here.symm).1,revision]
    · simpa [here] using placed.revision cpuId

theorem Placed.foreign (placed : Placed env G s) (away : ¬ Own env addr) (update : Region → Region) :
    Placed env G (s.updateRegion addr update) :=
  placed.updateRegion (fun cpuId here => absurd ⟨cpuId,.inl here⟩ away)

theorem Placed.setCurrent (placed : Placed env G s) (target : addr = env.guestVmcsPhyAddr cpuId ∨ G addr) :
    Placed env G (s.setCurrent cpuId addr) := by
  refine ⟨?_,placed.pointer,placed.link,placed.revision⟩
  intro other
  by_cases here : other = cpuId
  · subst here
    simpa using target
  · simpa [here] using placed.current other

theorem Placed.record (placed : Placed env G s) {op : VmcsOp} : Placed env G (s.record op) :=
  ⟨placed.current,placed.pointer,placed.link,placed.revision⟩

theorem Placed.setVmLaunch (placed : Placed env G s) {launch : Bool} : Placed env G (s.setVmLaunch cpuId launch) :=
  ⟨placed.current,placed.pointer,placed.link,placed.revision⟩

theorem Placed.updateSlot (placed : Placed env G s) {slot : Fin maxNestedVmcs} {update : NestedVmcs → NestedVmcs} :
    Placed env G (s.updateSlot slot update) :=
  ⟨placed.current,placed.pointer,placed.link,placed.revision⟩

theorem Placed.setNestedVmcsPtr (placed : Placed env G s) (target : G addr) :
    Placed env G (s.setNestedVmcsPtr cpuId addr) := by
  refine ⟨placed.current,?_,placed.link,placed.revision⟩
  intro other
  by_cases here : other = cpuId
  · subst here
    simpa using target
  · simpa [here] using placed.pointer other

theorem hbLoadVmcs_cases (env : VmxEnv n) (cpuId : Fin n) (s : NestedState n) (addr : U64) :
    hbLoadVmcs env cpuId s addr = (true,s.setCurrent cpuId addr) ∨ hbLoadVmcs env cpuId s addr = (false,s) := by
  unfold hbLoadVmcs
  split
  · exact .inl rfl
  · exact .inr rfl

theorem Placed.load_own (placed : Placed env G s) (cpuId : Fin n) :
    hbLoadVmcs env cpuId s (env.guestVmcsPhyAddr cpuId) = (true,s.setCurrent cpuId (env.guestVmcsPhyAddr cpuId)) := by
  have valid := env.guestValid cpuId
  have apart := env.guestVmxOn cpuId cpuId
  have revision := placed.revision cpuId
  simp [hbLoadVmcs,loadable,goodRevision,valid,apart,revision]

theorem plainFields_key : ∀ field ∈ plainFields, fieldKey field = field := by
  simp only [plainFields,List.forall_mem_cons,List.not_mem_nil,false_imp_iff,implies_true,and_true]
  decide

theorem plainFields_link : ∀ field ∈ plainFields, field ≠ vmVmcsLinkPtr := by
  simp only [plainFields,List.forall_mem_cons,List.not_mem_nil,false_imp_iff,implies_true,and_true]
  decide

theorem OwnWrite.key {field value : U64} (write : OwnWrite env cpuId field value) : fieldKey field = field := by
  rcases write with plain | rfl | ⟨rfl,_⟩
  · exact plainFields_key field plain
  · decide
  · decide

theorem write_other {region : Region} {field other value : U64} (differ : fieldKey field ≠ other) :
    (region.write field value).fields other = region.fields other := by
  simp [Region.write,Ne.symm differ]

theorem write_link (region : Region) (value : U64) :
    (region.write vmVmcsLinkPtr value).fields vmVmcsLinkPtr = value := by
  have key : fieldKey vmVmcsLinkPtr = vmVmcsLinkPtr := by decide
  have low : highAccess vmVmcsLinkPtr = false := by decide
  have width : fieldWidth vmVmcsLinkPtr = .quad := by decide
  simp [Region.write,key,fieldValue,low,width]

theorem home_real (home : s.current cpuId = env.guestVmcsPhyAddr cpuId) : s.current cpuId ≠ noVmcs := by
  rw [home]
  exact guest_ne_noVmcs env cpuId

theorem hbWriteVmcs_current (field value : U64) : (hbWriteVmcs env cpuId s field value).current = s.current := by
  unfold hbWriteVmcs
  split <;> rfl

theorem hbAdvanceVmGuestRip_write (env : VmxEnv n) (cpuId : Fin n) (stale : U64) (s : NestedState n) :
    ∃ rip, hbAdvanceVmGuestRip env cpuId stale s = hbWriteVmcs env cpuId s vmGuestRip rip := by
  unfold hbAdvanceVmGuestRip
  split
  · exact ⟨_,rfl⟩
  · exact ⟨_,rfl⟩

theorem Placed.ownWrite (placed : Placed env G s) {field value : U64} (write : OwnWrite env cpuId field value)
    (link : field = vmVmcsLinkPtr → value = noVmcs ∨ G value) :
    Placed env G (hbWriteVmcs env cpuId s field value) := by
  unfold hbWriteVmcs
  split
  next =>
    refine placed.updateRegion (fun other here => ⟨rfl,?_⟩)
    by_cases same : field = vmVmcsLinkPtr
    · subst same
      rw [write_link]
      exact link rfl
    · rw [write_other (by rwa [write.key]),here]
      exact placed.link other
  next => exact placed

theorem shadowStore_placed (placed : Placed env G s) (outside : Foreign env addr) (set : Bool) :
    Placed env G (shadowStore env s addr set) := by
  unfold shadowStore
  exact placed.foreign outside _

theorem hbReadVmcs_link (home : s.current cpuId = env.guestVmcsPhyAddr cpuId) :
    hbReadVmcs env cpuId s vmVmcsLinkPtr = some (s.field (env.guestVmcsPhyAddr cpuId) vmVmcsLinkPtr) := by
  have supported := (env.core vmVmcsLinkPtr (by simp [coreFields])).1
  have low : highAccess vmVmcsLinkPtr = false := by decide
  simp [hbReadVmcs,home,guest_ne_noVmcs,supported,Region.read,low,NestedState.field]

end Rule

theorem placed_stable {n : Nat} (env : VmxEnv n) (G : U64 → Prop) : Stable env G (fun _ => True) where
  setCurrent _ _ _ _ := trivial
  setNestedVmcsPtr _ _ _ _ := trivial
  setVmLaunch _ _ _ _ := trivial
  updateSlot _ _ _ _ := trivial
  launched _ _ _ _ := trivial
  clear _ _ _ _ := trivial
  setShadow _ _ _ _ := trivial
  clearShadow _ _ _ _ := trivial
  ownWrite _ _ _ _ _ _ _ := trivial
  guestWrite _ _ _ _ _ _ := trivial
  rspWrite _ _ _ _ _ := trivial
  save _ _ _ _ _ := trivial
  shadowed _ _ _ _ _ _ _ _ := trivial

section Walk
variable {n : Nat} {env : VmxEnv n} {G : U64 → Prop} {I : NestedState n → Prop} {s : NestedState n}
  {cpuId : Fin n} {addr : U64} (stale : U64) (outside : ∀ addr, G addr → Foreign env addr)
  (stable : Kept env G I)
include stable

theorem Guarded.load (guarded : Guarded env G I s) (target : addr = env.guestVmcsPhyAddr cpuId ∨ G addr) :
    Guarded env G I (hbLoadVmcs env cpuId s addr).2 := by
  unfold hbLoadVmcs
  split
  · exact ⟨guarded.placed.setCurrent target,stable.setCurrent _ _ _ guarded.inv⟩
  · exact guarded

theorem Guarded.guestWrite (outside : ∀ addr, G addr → Foreign env addr) (guarded : Guarded env G I s)
    (good : G (s.current cpuId)) (field value : U64) :
    Guarded env G I (guestVmwrite env cpuId s field (hostFieldValue env cpuId field value)) := by
  refine ⟨?_,stable.guestWrite _ _ _ _ good guarded.inv⟩
  unfold guestVmwrite hbWriteVmcs
  split
  · exact guarded.placed.record.foreign (outside _ good).not_own _
  · exact guarded.placed.record

theorem Guarded.guestRsp (outside : ∀ addr, G addr → Foreign env addr) (guarded : Guarded env G I s)
    (good : G (s.current cpuId)) (value : U64) : Guarded env G I (hbWriteVmcs env cpuId s vmGuestRsp value) := by
  refine ⟨?_,stable.rspWrite _ _ _ good guarded.inv⟩
  unfold hbWriteVmcs
  split
  · exact guarded.placed.foreign (outside _ good).not_own _
  · exact guarded.placed

theorem Guarded.ownWrite (guarded : Guarded env G I s) {field value : U64}
    (write : OwnWrite env cpuId field value) (link : field = vmVmcsLinkPtr → value = noVmcs ∨ G value) :
    Guarded env G I (hbWriteVmcs env cpuId s field value) :=
  ⟨guarded.placed.ownWrite write link,stable.ownWrite _ _ _ _ guarded.placed write guarded.inv⟩

theorem Guarded.load_home (guarded : Guarded env G I s) :
    AtHome env G I cpuId (hbLoadVmcs env cpuId s (env.guestVmcsPhyAddr cpuId)).2 := by
  refine ⟨guarded.load stable (.inl rfl),?_⟩
  rw [guarded.placed.load_own]
  simp

namespace AtHome
variable (home : AtHome env G I cpuId s)
include home

theorem ownWrite {field value : U64} (write : OwnWrite env cpuId field value)
    (link : field = vmVmcsLinkPtr → value = noVmcs ∨ G value) :
    AtHome env G I cpuId (hbWriteVmcs env cpuId s field value) :=
  ⟨home.toGuarded.ownWrite stable write link,by rw [hbWriteVmcs_current,home.home]⟩

theorem plainField {field : U64} (value : U64) (plain : field ∈ plainFields) :
    AtHome env G I cpuId (hbWriteVmcs env cpuId s field value) :=
  home.ownWrite stable (.inl plain) (fun same => absurd same (plainFields_link field plain))

theorem hbAdvanceVmGuestRip : AtHome env G I cpuId (hbAdvanceVmGuestRip env cpuId stale s) := by
  obtain ⟨rip,advanced⟩ := hbAdvanceVmGuestRip_write env cpuId stale s
  rw [advanced]
  exact home.plainField stable _ (by simp [plainFields])

theorem hbClearVmxInstFlags : AtHome env G I cpuId (hbClearVmxInstFlags env cpuId stale s) :=
  home.plainField stable _ (by simp [plainFields])

theorem setNestedVmcsPtr (good : G addr) : AtHome env G I cpuId (s.setNestedVmcsPtr cpuId addr) :=
  ⟨⟨home.placed.setNestedVmcsPtr good,stable.setNestedVmcsPtr _ _ _ home.inv⟩,home.home⟩

theorem updateSlot (slot : Fin maxNestedVmcs) (update : NestedVmcs → NestedVmcs) :
    AtHome env G I cpuId (s.updateSlot slot update) :=
  ⟨⟨home.placed.updateSlot,stable.updateSlot _ _ _ home.inv⟩,home.home⟩

theorem visit : Guarded env G I (s.setCurrent cpuId (s.nestedVmcsPtr cpuId)) :=
  ⟨home.placed.setCurrent (.inr (home.placed.pointer cpuId)),stable.setCurrent _ _ _ home.inv⟩

theorem handled : AtHome env G I cpuId
    (Nested.hbClearVmxInstFlags env cpuId stale (Nested.hbAdvanceVmGuestRip env cpuId stale s)) :=
  (home.hbAdvanceVmGuestRip stale stable).hbClearVmxInstFlags stale stable

include outside

theorem hbClearVmcs (good : G addr) : AtHome env G I cpuId (hbClearVmcs env cpuId s addr).2 := by
  have away : ¬ Own env addr := (outside addr good).not_own
  have differ : s.current cpuId ≠ addr := fun same => away ⟨cpuId,.inl (same ▸ home.home)⟩
  have recorded := stable.clear _ _ good home.inv
  unfold Nested.hbClearVmcs
  simp only [NestedState.updateRegion_current,NestedState.record_current,differ,if_false]
  split
  · refine ⟨⟨?_,stable.launched _ _ (fun _ => false) recorded⟩,home.home⟩
    exact home.placed.record.foreign away (fun region => { region with launched := false })
  · exact ⟨⟨home.placed.record,recorded⟩,home.home⟩

theorem hbVmSetVmcsShadowingToCurrent (good : G addr) :
    AtHome env G I cpuId (hbVmSetVmcsShadowingToCurrent env cpuId s addr) := by
  unfold Nested.hbVmSetVmcsShadowingToCurrent
  split
  · exact home
  · have cleared := home.hbClearVmcs outside stable good
    have shadow : AtHome env G I cpuId (shadowStore env
        ((Nested.hbClearVmcs env cpuId s addr).2.record (.setShadow addr)) addr true) :=
      ⟨⟨shadowStore_placed cleared.placed.record (outside addr good) true,
        stable.setShadow _ _ good cleared.inv⟩,cleared.home⟩
    exact shadow.ownWrite stable (.inr (.inl rfl)) (fun _ => .inr good)

theorem hbVmClearVmcsShadowingToCurrent :
    AtHome env G I cpuId (hbVmClearVmcsShadowingToCurrent env cpuId stale s) := by
  unfold Nested.hbVmClearVmcsShadowingToCurrent
  rw [hbReadVmcs_link home.home,Option.getD_some]
  split
  · exact home
  · dsimp only
    split
    next => exact home
    next linked =>
      have good := (home.placed.link cpuId).resolve_left linked
      have written : AtHome env G I cpuId (hbWriteVmcs env cpuId s vmVmcsLinkPtr noVmcs) :=
        home.ownWrite stable (.inr (.inl rfl)) (fun _ => .inl rfl)
      have cleared := written.hbClearVmcs outside stable good
      exact ⟨⟨shadowStore_placed cleared.placed.record (outside _ good) false,
        stable.clearShadow _ _ good cleared.inv⟩,cleared.home⟩

variable (zero : G 0) (inst : VmxInst) (named : inst.Names G)

include zero named in
theorem hbVmExitCallbackVmxInstType1 :
    AtHome env G I cpuId (hbVmExitCallbackVmxInstType1 env cpuId stale s inst) := by
  have start := home.handled stale stable
  cases inst with
  | vmclear data =>
    have cleared := start.hbClearVmcs outside stable named
    unfold Nested.hbVmExitCallbackVmxInstType1
    dsimp only
    split
    · exact (cleared.setNestedVmcsPtr stable zero).hbVmClearVmcsShadowingToCurrent stale outside stable
    · exact cleared
  | vmptrld data =>
    exact (start.setNestedVmcsPtr stable named).hbVmSetVmcsShadowingToCurrent outside stable named
  | _ => exact start

theorem emulateVmwrite (slot : Fin maxNestedVmcs) (regField destAddr : U64) :
    AtHome env G I cpuId (emulateVmwrite env cpuId s slot (env.guestVmcsPhyAddr cpuId) regField destAddr) := by
  have slotted := home.updateSlot stable slot (saveHostField regField destAddr)
  have good := home.placed.pointer cpuId
  unfold Nested.emulateVmwrite
  rcases hbLoadVmcs_cases env cpuId (s.updateSlot slot (saveHostField regField destAddr)) (s.nestedVmcsPtr cpuId)
    with loaded | failed
  · have entered : Guarded env G I
        ((s.updateSlot slot (saveHostField regField destAddr)).setCurrent cpuId (s.nestedVmcsPtr cpuId)) :=
      slotted.visit stable
    simp only [NestedState.updateSlot_nestedVmcsPtr,loaded]
    exact (entered.guestWrite stable outside (by simpa using good) _ _).load_home stable
  · simp only [NestedState.updateSlot_nestedVmcsPtr,failed]
    exact slotted

theorem emulateVmread (slot : Fin maxNestedVmcs) (regField : U64) (toRsp : Bool) :
    AtHome env G I cpuId (emulateVmread env cpuId s slot (env.guestVmcsPhyAddr cpuId) regField toRsp) := by
  have good := home.placed.pointer cpuId
  have entered : Guarded env G I (hbLoadVmcs env cpuId s (s.nestedVmcsPtr cpuId)).2 :=
    home.toGuarded.load stable (.inr good)
  unfold Nested.emulateVmread
  rcases hbLoadVmcs_cases env cpuId s (s.nestedVmcsPtr cpuId) with loaded | failed
  · rw [loaded] at entered ⊢
    dsimp only
    split
    · exact (entered.guestRsp stable outside (by simpa using good) _).load_home stable
    · exact entered.load_home stable
  · rw [failed]
    exact home

theorem hbVmExitCallbackVmxInstType2 :
    AtHome env G I cpuId (hbVmExitCallbackVmxInstType2 env cpuId stale s inst) := by
  have start := home.handled stale stable
  unfold Nested.hbVmExitCallbackVmxInstType2
  dsimp only
  split
  next => exact start
  next slot _ =>
    have slotted := start.updateSlot stable slot
    rw [hbStoreVmcs,start.home]
    split
    · exact (slotted _).emulateVmwrite outside stable _ _ _
    · exact (slotted _).emulateVmread outside stable _ _ _
    · exact slotted _

theorem enterNested : Guarded env G I (enterNested env cpuId stale s).2 := by
  have advanced := home.hbAdvanceVmGuestRip stale stable
  have cleared := advanced.hbVmClearVmcsShadowingToCurrent stale outside stable
  have start := cleared.hbClearVmxInstFlags stale stable
  exact start.toGuarded.load stable (.inr (start.placed.pointer cpuId))

end AtHome

theorem Guarded.hostRsp (guarded : Guarded env G I s) :
    Guarded env G I (hbWriteVmcs env cpuId s vmHostRsp (env.hostRsp cpuId)) :=
  guarded.ownWrite stable (.inr (.inr ⟨rfl,rfl⟩)) (fun same => absurd same (by decide))

theorem Guarded.setVmLaunch (guarded : Guarded env G I s) (launch : Bool) :
    Guarded env G I (s.setVmLaunch cpuId launch) :=
  ⟨guarded.placed.setVmLaunch,stable.setVmLaunch _ _ _ guarded.inv⟩

include outside

theorem handleVmlaunch_guarded (home : AtHome env G I cpuId s) :
    Guarded env G I (handleVmlaunch env cpuId stale s) := by
  have entered := home.enterNested stale outside stable
  unfold handleVmlaunch
  split
  next eq =>
    rw [eq] at entered
    exact (entered.setVmLaunch stable true).hostRsp stable
  next eq =>
    rw [eq] at entered
    exact entered.hostRsp stable

theorem handleVmresume_guarded (home : AtHome env G I cpuId s) :
    Guarded env G I (handleVmresume env cpuId stale s) := by
  have entered := home.enterNested stale outside stable
  have written : Guarded env G I (hbWriteVmcs env cpuId (enterNested env cpuId stale s).2 vmHostRsp
      (env.hostRsp cpuId)) := entered.hostRsp stable
  unfold handleVmresume
  dsimp only
  split
  · exact written.setVmLaunch stable true
  · exact written

variable (zero : G 0) {inst : VmxInst} (named : inst.Names G)
include zero named

theorem dispatch_guarded (home : AtHome env G I cpuId s) :
    Guarded env G I (dispatch env cpuId stale s inst) ∧
      (isBackToVm inst = false → AtHome env G I cpuId (dispatch env cpuId stale s inst)) := by
  have type1 := home.hbVmExitCallbackVmxInstType1 stale outside stable zero inst named
  have type2 := home.hbVmExitCallbackVmxInstType2 stale outside stable inst
  cases inst with
  | vmlaunch => exact ⟨handleVmlaunch_guarded stale outside stable home,fun back => absurd back (by decide)⟩
  | vmresume => exact ⟨handleVmresume_guarded stale outside stable home,fun back => absurd back (by decide)⟩
  | vmxoff =>
    have off := (home.setNestedVmcsPtr stable zero).hbAdvanceVmGuestRip stale stable
    exact ⟨off.toGuarded,fun _ => off⟩
  | vmread => exact ⟨type2.toGuarded,fun _ => type2⟩
  | vmwrite => exact ⟨type2.toGuarded,fun _ => type2⟩
  | invalidate => exact ⟨type2.toGuarded,fun _ => type2⟩
  | _ => exact ⟨type1.toGuarded,fun _ => type1⟩

theorem skipAll_guarded (home : AtHome env G I cpuId s) :
    Guarded env G I (skipAll env cpuId (dispatch env cpuId stale s inst) inst) := by
  obtain ⟨guarded,back⟩ := dispatch_guarded stale outside stable zero named home
  unfold skipAll
  split
  next shadowing =>
    simp only [Bool.and_eq_true,Bool.not_eq_true'] at shadowing
    have after := back shadowing.1.2
    exact (after.hbVmSetVmcsShadowingToCurrent outside stable (after.placed.pointer cpuId)).toGuarded
  next => exact guarded

end Walk

section Step
variable {n : Nat} {env : VmxEnv n} {G : U64 → Prop} {I : NestedState n → Prop} {s : NestedState n}
  (outside : ∀ addr, G addr → Foreign env addr) (stable : Kept env G I) (guarded : Guarded env G I s)
include outside stable guarded

theorem exitFromVm_guarded {cpuId : Fin n} (stale : U64) (away : s.current cpuId ≠ env.guestVmcsPhyAddr cpuId) :
    Guarded env G I (exitFromVm env cpuId stale s) := by
  have good := (guarded.placed.current cpuId).resolve_left away
  unfold exitFromVm
  dsimp only
  split
  next => exact guarded
  next slot _ =>
    have home : AtHome env G I cpuId (hbLoadVmcs env cpuId s (env.guestVmcsPhyAddr cpuId)).2 :=
      guarded.load_home stable
    have cr3 := home.plainField stable (s.nestedVmcsArray slot).cr3
      (show vmGuestCr3 ∈ plainFields by simp [plainFields])
    have fs := cr3.plainField stable ((hbReadVmcs env cpuId s vmHostFsBase).getD stale)
      (show vmGuestFsBase ∈ plainFields by simp [plainFields])
    have gs := fs.plainField stable ((hbReadVmcs env cpuId s vmHostGsBase).getD stale)
      (show vmGuestGsBase ∈ plainFields by simp [plainFields])
    have rip := gs.plainField stable (s.nestedVmcsArray slot).rip
      (show vmGuestRip ∈ plainFields by simp [plainFields])
    have rsp := rip.plainField stable (s.nestedVmcsArray slot).rsp
      (show vmGuestRsp ∈ plainFields by simp [plainFields])
    have rflags := rsp.plainField stable 0x02 (show vmGuestRflags ∈ plainFields by simp [plainFields])
    exact (rflags.hbVmSetVmcsShadowingToCurrent outside stable good).toGuarded

theorem hbVmExitCallback_guarded (zero : G 0) {exit : VmxExit n} (named : exit.inst.Names G) :
    Guarded env G I (hbVmExitCallback env exit s) := by
  unfold hbVmExitCallback
  split
  next away => exact exitFromVm_guarded outside stable guarded exit.stale away
  next same =>
    have home : AtHome env G I exit.cpuId s := ⟨guarded,not_not.mp same⟩
    have started := home.plainField stable 0 (show vmCtrlVmEntryInstLength ∈ plainFields by simp [plainFields])
    exact skipAll_guarded exit.stale outside stable zero named started

omit outside in
theorem vmEntry_guarded (cpuId : Fin n) : Guarded env G I (vmEntry s cpuId) := by
  refine ⟨guarded.placed.updateRegion (fun other here => ⟨rfl,?_⟩),stable.launched _ _ _ guarded.inv⟩
  have link := guarded.placed.link other
  rw [← here] at link
  exact link

theorem shadowVmwrite_guarded (cpuId : Fin n) (field value : U64) :
    Guarded env G I (shadowVmwrite env s cpuId field value) := by
  unfold shadowVmwrite
  dsimp only
  split
  next allowed =>
    obtain ⟨_,_,linked,trapped,supported,_⟩ := allowed
    have good := (guarded.placed.link cpuId).resolve_left linked
    exact ⟨guarded.placed.foreign (outside _ good).not_own _,
      stable.shadowed _ _ _ _ good trapped supported guarded.inv⟩
  next => exact guarded

end Step

section Runs
variable {n : Nat} {env : VmxEnv n} {G : U64 → Prop} {I : NestedState n → Prop} {s : NestedState n}
  (outside : ∀ addr, G addr → Foreign env addr) (stable : Stable env G I) (guarded : Guarded env G I s)
include outside stable guarded

omit outside in
theorem vmExit_guarded (exit : VmxExit n) : Guarded env G I (vmExit exit s) := by
  have unsaved : savedOnExit vmVmcsLinkPtr = false := by decide
  refine Guarded.setVmLaunch (↑stable) ⟨?_,stable.save _ _ _ guarded.placed guarded.inv⟩ false
  refine guarded.placed.updateRegion (fun cpuId here => ⟨rfl,?_⟩)
  have link := guarded.placed.link cpuId
  rw [← here] at link
  simpa [Region.save,unsaved,NestedState.field] using link

theorem vmxStep_guarded (zero : G 0) {event : VmxEvent n} (named : event.Names G) :
    Guarded env G I (vmxStep env s event) := by
  cases event with
  | exit exit =>
    have saved := vmExit_guarded stable guarded exit
    exact vmEntry_guarded stable (hbVmExitCallback_guarded outside stable saved zero named) _
  | shadowed cpuId field value => exact shadowVmwrite_guarded outside stable guarded cpuId field value

/-- Every state of a run whose operands satisfy `G` is guarded. -/
theorem run_guarded (zero : G 0) {events : List (VmxEvent n)} (named : ∀ event ∈ events, event.Names G) :
    Guarded env G I (run (vmxStep env) s events) := by
  induction events generalizing s with
  | nil => exact guarded
  | cons event rest ih =>
    have step := vmxStep_guarded outside stable guarded zero (named event (by simp))
    exact ih step (fun event member => named event (by simp [member]))

end Runs
end HyperBox.Nested
