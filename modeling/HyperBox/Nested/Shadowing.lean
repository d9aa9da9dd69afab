import HyperBox.Nested.LaunchState

/-! VMCS shadowing. Hyper-box links the VMCS that the guest hypervisor has loaded to its own one
and marks it as a shadow VMCS in the first dword of the region. The mark and the link are
meant to follow the pointer. -/
namespace HyperBox.Nested
open HyperBox.Library HyperBox.PageTable HyperBox.Ept

def shadowBit (revision : BitVec 32) : Bool := revision.getLsbD 31

section Marks
variable {n : Nat} {env : VmxEnv n} {cpuId : Fin n} {t : Control n} {addr region : U64}

theorem mark_bit (set : Bool) :
    shadowBit ((t.mark addr set).revision region) = if region = addr then set else shadowBit (t.revision region) := by
  have top := shadow_bits ⟨31,by decide⟩
  unfold Control.mark shadowBit
  by_cases here : region = addr
  · subst here
    cases set with
    | true =>
      simp only [Function.update_self,if_true]
      rw [BitVec.getLsbD_or,top]
      simp
    | false =>
      simp only [Function.update_self,Bool.false_eq_true,if_false,if_true]
      rw [BitVec.getLsbD_and,BitVec.getLsbD_not,top]
      simp
  · simp [here]

/-- The regions of the guest hypervisor that are marked are those that are linked. -/
def Marked (env : VmxEnv n) (cpuId : Fin n) (t : Control n) : Prop :=
  ∀ addr, Plain env addr → (shadowBit (t.revision addr) = true ↔ t.link cpuId = addr)

variable (shadowing : env.supportVmcsShadowing = true)
include shadowing

theorem relink_link (addr : U64) : (t.relink env cpuId addr).link cpuId = addr := by
  simp [Control.relink,shadowing,Control.setLink]

theorem relink_bit (addr : U64) :
    shadowBit ((t.relink env cpuId addr).revision region) =
      (decide (region = addr) || shadowBit (t.revision region)) := by
  rw [Control.relink,if_pos shadowing]
  have marked := @mark_bit _ (t.clear env cpuId addr) addr region true
  rw [Control.clear_revision] at marked
  refine marked.trans ?_
  split <;> simp [*]

theorem unlink_link : (t.unlink env cpuId).link cpuId = noVmcs := by
  unfold Control.unlink
  split
  next => simp [Control.mark,Control.setLink]
  next none => simpa [shadowing] using none

theorem unlink_bit (plain : Plain env region) (marked : Marked env cpuId t) :
    shadowBit ((t.unlink env cpuId).revision region) = false := by
  unfold Control.unlink
  split
  next linked =>
    rw [mark_bit,Control.clear_revision]
    split
    next => rfl
    next apart =>
      have absent : ¬ shadowBit (t.revision region) = true := fun set => apart ((marked region plain).mp set).symm
      simpa [Control.setLink] using absent
  next none =>
    have free : t.link cpuId = noVmcs := by simpa [shadowing] using none
    have absent : ¬ shadowBit (t.revision region) = true := by
      intro set
      exact plain_ne_noVmcs plain (((marked region plain).mp set).symm.trans free)
    simpa using absent

theorem Marked.unlink (marked : Marked env cpuId t) : Marked env cpuId (t.unlink env cpuId) := by
  intro region plain
  rw [unlink_bit shadowing plain marked,unlink_link shadowing]
  simpa using (plain_ne_noVmcs plain).symm

theorem marked_relink_iff (marked : Marked env cpuId t)
    (link : t.link cpuId = noVmcs ∨ Plain env (t.link cpuId)) :
    Marked env cpuId (t.relink env cpuId addr) ↔ t.link cpuId = noVmcs ∨ t.link cpuId = addr := by
  constructor
  · intro after
    rcases link with none | linked
    · exact .inl none
    · right
      have set : shadowBit (t.revision (t.link cpuId)) = true := (marked _ linked).mpr rfl
      have still := (after (t.link cpuId) linked).mp (by simp [relink_bit shadowing,set])
      rw [relink_link shadowing] at still
      exact still.symm
  · intro free region plain
    rw [relink_bit shadowing,relink_link shadowing]
    by_cases here : region = addr
    · simp [here]
    · have absent : ¬ shadowBit (t.revision region) = true := by
        intro set
        have same := (marked region plain).mp set
        rcases free with none | other
        · exact plain_ne_noVmcs plain (same.symm.trans none)
        · exact here (same.symm.trans other)
      simp [here,absent,Ne.symm here]

end Marks

section Links
variable {n : Nat} {env : VmxEnv n} {cpuId : Fin n} {t : Control n}

def linkOf (pointer : U64) : U64 := if pointer = 0 then noVmcs else pointer

/-- The link of the own VMCS and the marks are those of the guest hypervisor's pointer. -/
structure Linked (env : VmxEnv n) (cpuId : Fin n) (t : Control n) : Prop where
  link : t.link cpuId = linkOf (t.pointer cpuId)
  marked : Marked env cpuId t

theorem linkOf_none {pointer : U64} (plain : Plain env pointer) : linkOf pointer = noVmcs ↔ pointer = 0 := by
  unfold linkOf
  split
  next zero => simp [zero]
  next used => exact iff_of_false (plain_ne_noVmcs plain) used

theorem linkOf_plain {pointer : U64} (plain : Plain env pointer) :
    linkOf pointer = noVmcs ∨ Plain env (linkOf pointer) := by
  unfold linkOf
  split
  · exact .inl rfl
  · exact .inr plain

variable (shadowing : env.supportVmcsShadowing = true)
include shadowing

theorem Linked.refresh (linked : Linked env cpuId t) (plain : Plain env (t.pointer cpuId)) (inst : VmxInst) :
    Linked env cpuId (t.refresh env cpuId inst) := by
  unfold Control.refresh
  split
  next used =>
    have link : t.link cpuId = t.pointer cpuId := by
      rw [linked.link,linkOf,if_neg used.2]
    refine ⟨?_,?_⟩
    · rw [relink_link shadowing,Control.relink_slots,linkOf,if_neg used.2]
    · rw [marked_relink_iff shadowing linked.marked (link ▸ .inr plain)]
      exact .inr link
  next => exact linked

theorem vmclear_linked (linked : Linked env cpuId t) (data : U64) : Linked env cpuId (t.vmclear env cpuId data) := by
  have cleared : Linked env cpuId (t.clear env cpuId data) := by
    refine ⟨?_,?_⟩
    · rw [Control.clear_link,Control.clear_slots]
      exact linked.link
    · intro addr plain
      rw [Control.clear_link,Control.clear_revision]
      exact linked.marked addr plain
  unfold Control.vmclear
  split
  · have off : Marked env cpuId ((t.clear env cpuId data).withSlots (t.toSlotState.setPointer cpuId 0)) := cleared.marked
    refine ⟨?_,off.unlink shadowing⟩
    rw [unlink_link shadowing,Control.unlink_slots]
    simp [Control.withSlots,SlotState.setPointer,linkOf]
  · exact cleared

theorem marked_relink_again (addr : U64) :
    Marked env cpuId ((t.relink env cpuId addr).relink env cpuId addr) ↔ Marked env cpuId (t.relink env cpuId addr) := by
  unfold Marked
  simp only [relink_bit shadowing,relink_link shadowing,Bool.or_eq_true,decide_eq_true_eq]
  refine forall_congr' (fun region => ?_)
  tauto

theorem vmptrld_linked (linked : Linked env cpuId t) (plain : Plain env (t.pointer cpuId)) (data : U64) :
    Linked env cpuId ((t.handle env cpuId (.vmptrld data)).refresh env cpuId (.vmptrld data)) ↔
      data ≠ 0 ∧ (t.pointer cpuId = 0 ∨ t.pointer cpuId = data) := by
  have marked : Marked env cpuId (t.withSlots (t.toSlotState.setPointer cpuId data)) := linked.marked
  have pointer : (t.handle env cpuId (.vmptrld data)).pointer cpuId = data := by
    rw [Control.handle_slots]
    simp [SlotState.handle,SlotState.setPointer]
  have link : (t.handle env cpuId (.vmptrld data)).link cpuId = data := relink_link shadowing data
  have free : t.link cpuId = noVmcs ∨ t.link cpuId = data ↔ t.pointer cpuId = 0 ∨ t.pointer cpuId = data := by
    rw [linked.link,linkOf_none plain,linkOf]
    by_cases zero : t.pointer cpuId = 0
    · simp only [zero,true_or]
    · simp only [zero,if_false]
  unfold Control.refresh
  rw [pointer]
  by_cases zero : data = 0
  · rw [if_neg (fun used => used.2 zero)]
    refine iff_of_false (fun after => ?_) (fun good => good.1 zero)
    have same := after.link
    rw [link,pointer,zero] at same
    exact absurd same (by decide)
  · rw [if_pos ⟨rfl,zero⟩]
    have linkedTo : ((t.handle env cpuId (.vmptrld data)).relink env cpuId data).link cpuId =
        linkOf (((t.handle env cpuId (.vmptrld data)).relink env cpuId data).pointer cpuId) := by
      rw [relink_link shadowing,Control.relink_slots,pointer,linkOf,if_neg zero]
    have marks : Marked env cpuId ((t.handle env cpuId (.vmptrld data)).relink env cpuId data) ↔
        t.pointer cpuId = 0 ∨ t.pointer cpuId = data := by
      rw [← free]
      have before : t.link cpuId = noVmcs ∨ Plain env (t.link cpuId) := linked.link ▸ linkOf_plain plain
      exact (marked_relink_again shadowing data).trans (marked_relink_iff shadowing marked before)
    constructor
    · intro after
      exact ⟨zero,marks.mp after.marked⟩
    · intro good
      exact ⟨linkedTo,marks.mpr good.2⟩

omit shadowing in
theorem vmxoff_linked (linked : Linked env cpuId t) (plain : Plain env (t.pointer cpuId)) :
    Linked env cpuId ((t.handle env cpuId .vmxoff).refresh env cpuId .vmxoff) ↔ t.pointer cpuId = 0 := by
  have pointer : (t.handle env cpuId .vmxoff).pointer cpuId = 0 := by
    rw [Control.handle_slots]
    exact Function.update_self _ _ _
  unfold Control.refresh
  rw [pointer,if_neg (fun used => used.2 rfl)]
  have link : (t.handle env cpuId .vmxoff).link cpuId = linkOf (t.pointer cpuId) := linked.link
  constructor
  · intro after
    have same := after.link
    rw [pointer,link] at same
    exact (linkOf_none plain).mp same
  · intro zero
    refine ⟨?_,linked.marked⟩
    rw [pointer,link,zero]

theorem enterNested_unlinked (linked : Linked env cpuId t) :
    Marked env cpuId (t.enterNested env cpuId) ∧ (t.enterNested env cpuId).link cpuId = noVmcs := by
  constructor
  · intro addr plain
    rw [Control.enterNested,Control.load_link,Control.load_revision]
    exact linked.marked.unlink shadowing addr plain
  · rw [Control.enterNested,Control.load_link,unlink_link shadowing]

/-- VMLAUNCH and VMRESUME take the link away, whether or not the VMCS can be loaded. -/
theorem enterNested_linked (linked : Linked env cpuId t) (plain : Plain env (t.pointer cpuId))
    (home : t.current cpuId = env.guestVmcsPhyAddr cpuId) :
    ((t.enterNested env cpuId).current cpuId = env.guestVmcsPhyAddr cpuId →
      Linked env cpuId (t.enterNested env cpuId)) ↔ t.pointer cpuId = 0 ∨ t.loads env cpuId (t.pointer cpuId) := by
  obtain ⟨marked,link⟩ := enterNested_unlinked shadowing linked
  rw [enterNested_current home]
  by_cases loads : t.loads env cpuId (t.pointer cpuId)
  · rw [if_pos loads]
    refine iff_of_true (fun here => absurd here.symm (foreign_ne_own plain.1)) (.inr loads)
  · rw [if_neg loads]
    simp only [true_imp_iff,loads,Bool.false_eq_true,or_false]
    constructor
    · intro after
      have same := after.link
      rw [link,Control.enterNested_slots] at same
      exact (linkOf_none plain).mp same.symm
    · intro zero
      refine ⟨?_,marked⟩
      rw [link,Control.enterNested_slots,zero]
      rfl

theorem leave_linked (marked : Marked env cpuId t) (link : t.link cpuId = noVmcs)
    (pointer : t.pointer cpuId = t.current cpuId) (away : t.current cpuId ≠ env.guestVmcsPhyAddr cpuId) :
    ((t.leave env cpuId).current cpuId = env.guestVmcsPhyAddr cpuId → Linked env cpuId (t.leave env cpuId)) ↔
      t.current cpuId ≠ 0 ∨ ¬ (hbFindNestedVmcsStruct t.array (t.current cpuId)).isSome := by
  unfold Control.leave
  split
  next found =>
    have loaded : Marked env cpuId (t.setCurrent cpuId (env.guestVmcsPhyAddr cpuId)) := marked
    have marks := (@marked_relink_iff _ _ _ _ (t.current cpuId) shadowing loaded (.inl link)).mpr (.inl link)
    have here : ((t.setCurrent cpuId (env.guestVmcsPhyAddr cpuId)).relink env cpuId (t.current cpuId)).current cpuId =
        env.guestVmcsPhyAddr cpuId := by simp [Control.setCurrent]
    have kept : ((t.setCurrent cpuId (env.guestVmcsPhyAddr cpuId)).relink env cpuId (t.current cpuId)).pointer cpuId =
        t.current cpuId := by
      rw [Control.relink_slots]
      exact pointer
    simp only [here,true_imp_iff,found,not_true_eq_false,or_false]
    constructor
    · intro after zero
      have same := after.link
      rw [relink_link shadowing,kept,zero] at same
      exact absurd same (by decide)
    · intro used
      refine ⟨?_,marks⟩
      rw [relink_link shadowing,kept,linkOf,if_neg used]
  next missing => exact iff_of_true (fun here => absurd here away) (.inr missing)

end Links

section Step
variable {n : Nat} {env : VmxEnv n} {cpuId : Fin n} {t : Control n}

/-- While a nested VMCS is entered there is no link, and the pointer is that VMCS. -/
structure LinkInv (env : VmxEnv n) (cpuId : Fin n) (t : Control n) : Prop where
  marked : Marked env cpuId t
  home : t.current cpuId = env.guestVmcsPhyAddr cpuId → t.link cpuId = linkOf (t.pointer cpuId)
  away : t.current cpuId ≠ env.guestVmcsPhyAddr cpuId → t.link cpuId = noVmcs ∧ t.pointer cpuId = t.current cpuId

/-- The link can follow the pointer: it is not moved to another VMCS or dropped while one is linked,
and it is not taken away without an entry. -/
def Control.FollowsAtHome (env : VmxEnv n) (cpuId : Fin n) (t : Control n) : VmxInst → Prop
  | .vmptrld data => data ≠ 0 ∧ (t.pointer cpuId = 0 ∨ t.pointer cpuId = data)
  | .vmxoff => t.pointer cpuId = 0
  | .vmlaunch => t.pointer cpuId = 0 ∨ t.loads env cpuId (t.pointer cpuId)
  | .vmresume => t.pointer cpuId = 0 ∨ t.loads env cpuId (t.pointer cpuId)
  | _ => True

def Control.Follows (env : VmxEnv n) (cpuId : Fin n) (t : Control n) (inst : VmxInst) : Prop :=
  if t.current cpuId = env.guestVmcsPhyAddr cpuId then t.FollowsAtHome env cpuId inst
  else t.current cpuId ≠ 0 ∨ ¬ (hbFindNestedVmcsStruct t.array (t.current cpuId)).isSome

theorem linked_setVmLaunch (launch : Bool) : Linked env cpuId (t.setVmLaunch cpuId launch) ↔ Linked env cpuId t :=
  ⟨fun linked => ⟨linked.link,linked.marked⟩,fun linked => ⟨linked.link,linked.marked⟩⟩

variable (shadowing : env.supportVmcsShadowing = true) (inv : LinkInv env cpuId t)
  (plain : Plain env (t.pointer cpuId))
include shadowing inv plain

/-- At home the callback leaves link and pointer together exactly if they can follow each other. -/
theorem home_linked (home : t.current cpuId = env.guestVmcsPhyAddr cpuId) {inst : VmxInst}
    (named : inst.Names (Plain env)) :
    ((t.returns env cpuId inst).current cpuId = env.guestVmcsPhyAddr cpuId →
      Linked env cpuId (t.returns env cpuId inst)) ↔ t.FollowsAtHome env cpuId inst := by
  have linked : Linked env cpuId (t.setVmLaunch cpuId false) := ⟨inv.home home,inv.marked⟩
  have start : t.returns env cpuId inst =
      ((t.setVmLaunch cpuId false).handle env cpuId inst).refresh env cpuId inst := if_pos home
  have after : Plain env (((t.setVmLaunch cpuId false).handle env cpuId inst).pointer cpuId) :=
    handle_pointer plain_zero plain named
  have stays : isBackToVm inst = false → (t.returns env cpuId inst).current cpuId = env.guestVmcsPhyAddr cpuId :=
    fun stays => (returns_stays home stays).1
  have idle : Linked env cpuId ((t.setVmLaunch cpuId false).handle env cpuId inst) →
      ((t.returns env cpuId inst).current cpuId = env.guestVmcsPhyAddr cpuId →
        Linked env cpuId (t.returns env cpuId inst)) := by
    intro handled _
    rw [start]
    exact handled.refresh shadowing after inst
  have claimed : ∀ slots : SlotState n, slots.pointer = t.pointer →
      Linked env cpuId ((t.setVmLaunch cpuId false).withSlots slots) := by
    intro slots same
    refine ⟨?_,linked.marked⟩
    have link := linked.link
    rw [show (t.setVmLaunch cpuId false).pointer = slots.pointer from same.symm] at link
    exact link
  have entered : isBackToVm inst = true →
      (((t.returns env cpuId inst).current cpuId = env.guestVmcsPhyAddr cpuId →
        Linked env cpuId (t.returns env cpuId inst)) ↔ t.pointer cpuId = 0 ∨ t.loads env cpuId (t.pointer cpuId)) := by
    intro back
    obtain ⟨launch,same⟩ := @Control.handle_back _ env cpuId (t.setVmLaunch cpuId false) inst back
    rw [returns_back home back,same,linked_setVmLaunch]
    exact enterNested_linked shadowing linked plain home
  cases inst with
  | vmptrld data =>
    rw [imp_iff_right (stays rfl),start]
    exact vmptrld_linked shadowing linked plain data
  | vmxoff =>
    rw [imp_iff_right (stays rfl),start]
    exact vmxoff_linked linked plain
  | vmlaunch => exact entered rfl
  | vmresume => exact entered rfl
  | vmclear data => exact iff_of_true (idle (vmclear_linked shadowing linked data)) trivial
  | vmptrst => exact iff_of_true (idle (claimed _ rfl)) trivial
  | vmxon => exact iff_of_true (idle (claimed _ rfl)) trivial
  | vmread => exact iff_of_true (idle (claimed _ (SlotState.claimSlot_pointer _ _ _))) trivial
  | vmwrite => exact iff_of_true (idle (claimed _ (SlotState.claimSlot_pointer _ _ _))) trivial
  | invalidate => exact iff_of_true (idle (claimed _ (SlotState.claimSlot_pointer _ _ _))) trivial

theorem returns_linked {inst : VmxInst} (named : inst.Names (Plain env)) :
    ((t.returns env cpuId inst).current cpuId = env.guestVmcsPhyAddr cpuId →
      Linked env cpuId (t.returns env cpuId inst)) ↔ t.Follows env cpuId inst := by
  unfold Control.Follows
  by_cases home : t.current cpuId = env.guestVmcsPhyAddr cpuId
  · rw [if_pos home]
    exact home_linked shadowing inv plain home named
  · rw [if_neg home]
    obtain ⟨link,pointer⟩ := inv.away home
    have left : t.returns env cpuId inst = (t.setVmLaunch cpuId false).leave env cpuId := if_neg home
    rw [left]
    exact leave_linked shadowing (show Marked env cpuId (t.setVmLaunch cpuId false) from inv.marked) link pointer home

omit plain in
theorem returns_away {inst : VmxInst}
    (away : (t.returns env cpuId inst).current cpuId ≠ env.guestVmcsPhyAddr cpuId) :
    Marked env cpuId (t.returns env cpuId inst) ∧ (t.returns env cpuId inst).link cpuId = noVmcs ∧
      (t.returns env cpuId inst).pointer cpuId = (t.returns env cpuId inst).current cpuId := by
  by_cases home : t.current cpuId = env.guestVmcsPhyAddr cpuId
  · cases back : isBackToVm inst with
    | false => exact absurd (returns_stays home back).1 away
    | true =>
      have linked : Linked env cpuId (t.setVmLaunch cpuId false) := ⟨inv.home home,inv.marked⟩
      obtain ⟨launch,same⟩ := @Control.handle_back _ env cpuId (t.setVmLaunch cpuId false) inst back
      rw [returns_back home back,same] at away ⊢
      have current := @enterNested_current _ env cpuId (t.setVmLaunch cpuId false) home
      have nested : ((t.setVmLaunch cpuId false).enterNested env cpuId).current cpuId ≠ env.guestVmcsPhyAddr cpuId := away
      obtain ⟨marked,link⟩ := enterNested_unlinked shadowing linked
      refine ⟨marked,link,?_⟩
      have pointer : ((t.setVmLaunch cpuId false).enterNested env cpuId).pointer cpuId =
          ((t.setVmLaunch cpuId false).enterNested env cpuId).current cpuId := by
        rw [current] at nested ⊢
        rw [Control.enterNested_slots]
        split
        next => rfl
        next fails => exact absurd (if_neg fails) nested
      exact pointer
  · obtain ⟨link,pointer⟩ := inv.away home
    have left : t.returns env cpuId inst = (t.setVmLaunch cpuId false).leave env cpuId := if_neg home
    rw [left] at away ⊢
    unfold Control.leave at away ⊢
    split
    next found =>
      rw [if_pos found] at away
      exact absurd (by simp [Control.setCurrent]) away
    next => exact ⟨inv.marked,link,pointer⟩

omit plain in
theorem LinkInv.step {inst : VmxInst}
    (linked : (t.returns env cpuId inst).current cpuId = env.guestVmcsPhyAddr cpuId →
      Linked env cpuId (t.returns env cpuId inst)) :
    LinkInv env cpuId ((t.returns env cpuId inst).enter cpuId) := by
  by_cases home : (t.returns env cpuId inst).current cpuId = env.guestVmcsPhyAddr cpuId
  · have after := linked home
    exact ⟨after.marked,fun _ => after.link,fun away => absurd home away⟩
  · obtain ⟨marked,link,pointer⟩ := returns_away shadowing inv home
    exact ⟨marked,fun here => absurd here home,fun _ => ⟨link,pointer⟩⟩

end Step

section Main
variable {n : Nat} {env : VmxEnv n} {cpuId : Fin n} {s : NestedState n}

/-- Whenever the callback returns to the own VMCS, the link and the marks are those of the pointer. -/
def ShadowFits (env : VmxEnv n) (s : NestedState n) : VmxEvent n → Prop
  | .exit taken =>
    (returned env taken s).current taken.cpuId = env.guestVmcsPhyAddr taken.cpuId →
      Linked env taken.cpuId ((returned env taken s).control env)
  | .shadowed _ _ _ => True

def Control.FollowsIn (env : VmxEnv n) (t : Control n) : VmxEvent n → Prop
  | .exit taken => t.Follows env taken.cpuId taken.inst
  | .shadowed _ _ _ => True

def ShadowReady (env : VmxEnv n) (s : NestedState n) (event : VmxEvent n) : Prop := (s.control env).FollowsIn env event

def VmxEvent.On (cpuId : Fin n) : VmxEvent n → Prop
  | .exit taken => taken.cpuId = cpuId
  | .shadowed other _ _ => other = cpuId

theorem shadow_fits_iff (shadowing : env.supportVmcsShadowing = true) (placed : Placed env (Sound env) s)
    (inv : LinkInv env cpuId (s.control env)) {event : VmxEvent n} (named : event.Names (Sound env))
    (on : event.On cpuId) : ShadowFits env s event ↔ ShadowReady env s event := by
  cases event with
  | exit taken =>
    obtain rfl : taken.cpuId = cpuId := on
    have seen := control_returned placed named
    have current : (returned env taken s).current = ((s.control env).returns env taken.cpuId taken.inst).current :=
      congrArg Control.current seen
    have sound := placed.pointer taken.cpuId
    dsimp only [ShadowFits,ShadowReady,Control.FollowsIn]
    rw [seen,current]
    exact returns_linked shadowing inv ⟨sound.1,sound.2 shadowing⟩
      (VmxInst.Names.mono (fun _ sound => ⟨sound.1,sound.2 shadowing⟩) named)
  | shadowed other field value => exact Iff.rfl

theorem link_inv_step (shadowing : env.supportVmcsShadowing = true) (placed : Placed env (Sound env) s)
    (inv : LinkInv env cpuId (s.control env)) {event : VmxEvent n} (named : event.Names (Sound env))
    (on : event.On cpuId) (fits : ShadowFits env s event) : LinkInv env cpuId ((vmxStep env s event).control env) := by
  rw [control_vmxStep placed named]
  cases event with
  | exit taken =>
    obtain rfl : taken.cpuId = cpuId := on
    have seen := control_returned placed named
    have current : (returned env taken s).current = ((s.control env).returns env taken.cpuId taken.inst).current :=
      congrArg Control.current seen
    dsimp only [ShadowFits] at fits
    rw [seen,current] at fits
    exact LinkInv.step shadowing inv fits
  | shadowed other field value => exact inv

/-- In a run on one CPU whose operands name no region of Hyper-box's own, link and marks are
right at every return to the own VMCS exactly if they can follow the pointer in every exit. -/
theorem shadow_follows_pointer (env : VmxEnv n) (shadowing : env.supportVmcsShadowing = true) {start : NestedState n}
    (launched : Launched env start) (cpuId : Fin n)
    (unmarked : ∀ addr, Plain env addr → shadowBit (start.regions addr).revision = false)
    (events : List (VmxEvent n)) (named : ∀ event ∈ events, event.Names (Sound env) ∧ event.On cpuId) :
    Along (vmxStep env) (ShadowFits env) start events ↔ Along (vmxStep env) (ShadowReady env) start events := by
  have initial : LinkInv env cpuId (start.control env) := by
    have none : (start.control env).link cpuId = noVmcs := launched.link cpuId
    refine ⟨?_,?_,fun away => absurd (launched.current cpuId) away⟩
    · intro addr plain
      have clear : shadowBit ((start.control env).revision addr) = false := unmarked addr plain
      rw [clear,none]
      simpa using (plain_ne_noVmcs plain).symm
    · intro _
      rw [none,show (start.control env).pointer cpuId = 0 from launched.pointer cpuId]
      rfl
  apply along_iff (fun s => Placed env (Sound env) s ∧ LinkInv env cpuId (s.control env)) _ _
    ⟨launched.placed sound_zero,initial⟩ named
  · rintro s event ⟨sound,on⟩ ⟨placed,inv⟩ fits
    have next := run_placed placed (List.forall_mem_singleton.mpr sound)
    exact ⟨next,link_inv_step shadowing placed inv sound on fits⟩
  · rintro s event ⟨sound,on⟩ ⟨placed,inv⟩
    exact shadow_fits_iff shadowing placed inv sound on

end Main

section Sample

theorem shadowLaunch_unmarked (addr : U64) (_plain : Plain shadowVmx addr) :
    shadowBit (shadowLaunch.regions addr).revision = false := by
  unfold shadowLaunch
  dsimp only
  split_ifs <;> rfl

theorem roundTrip_on : ∀ event ∈ roundTrip, event.On 0 := by
  intro event member
  simp only [roundTrip,List.mem_cons,List.not_mem_nil,or_false] at member
  rcases member with rfl | rfl | rfl | rfl <;> rfl

theorem roundTrip_follows : Along (vmxStep shadowVmx) (ShadowReady shadowVmx) shadowLaunch roundTrip := by
  apply (along_control (shadowLaunch_launched.placed sound_zero) roundTrip_sound).mpr
  refine ⟨?_,?_,?_,?_,trivial⟩
  · dsimp only [sampleExit,Control.FollowsIn,Control.Follows]
    rw [if_pos (by decide)]
    exact ⟨by decide,.inl rfl⟩
  · dsimp only [sampleExit,Control.FollowsIn,Control.Follows]
    rw [if_pos (by decide +kernel)]
    exact .inr (by decide +kernel)
  · dsimp only [sampleExit,Control.FollowsIn,Control.Follows]
    rw [if_neg (by decide +kernel)]
    exact .inl (by decide +kernel)
  · dsimp only [sampleExit,Control.FollowsIn,Control.Follows]
    rw [if_pos (by decide +kernel)]
    exact .inr (by decide +kernel)

theorem shadow_follows_pointer_sample : Along (vmxStep shadowVmx) (ShadowFits shadowVmx) shadowLaunch roundTrip :=
  (shadow_follows_pointer shadowVmx rfl shadowLaunch_launched 0 shadowLaunch_unmarked roundTrip
    (fun event member => ⟨roundTrip_sound event member,roundTrip_on event member⟩)).mpr roundTrip_follows

/-- VMXOFF drops the pointer and leaves the region linked; the VMPTRLD of another region leaves
the first one marked. -/
theorem link_left_behind :
    Launched shadowVmx shadowLaunch ∧
    ¬ Along (vmxStep shadowVmx) (ShadowFits shadowVmx) shadowLaunch
      [sampleExit (.vmptrld 0x5000),sampleExit .vmxoff] ∧
    ¬ Along (vmxStep shadowVmx) (ShadowFits shadowVmx) shadowLaunch
      [sampleExit (.vmptrld 0x5000),sampleExit (.vmptrld 0x6000)] := by
  refine ⟨shadowLaunch_launched,?_,?_⟩
  · rintro ⟨_,fits,_⟩
    have linked := fits (by decide +kernel)
    exact absurd linked.link (by decide +kernel)
  · rintro ⟨_,fits,_⟩
    have linked := fits (by decide +kernel)
    have mark := linked.marked 0x5000 ⟨sound_shadow.1,by decide⟩
    exact absurd mark (by decide +kernel)

end Sample

end HyperBox.Nested
