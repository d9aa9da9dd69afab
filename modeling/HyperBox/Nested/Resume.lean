import HyperBox.Library.Slots
import HyperBox.Nested.Control

/-! How the guest hypervisor is resumed after an exit of one of its guests. The host state that
it has written to a VMCS is kept in a table which all CPUs share and search by the address of
the VMCS. -/
namespace HyperBox.Nested
open HyperBox.Library HyperBox.PageTable HyperBox.Ept

section Search
variable {slots : Fin maxNestedVmcs → NestedVmcs} {ptr : U64} {slot : Fin maxNestedVmcs}

def slotKey (slots : Fin maxNestedVmcs → NestedVmcs) (i : Fin maxNestedVmcs) : U64 := (slots i).vmcsPtr

theorem findNested_some (found : hbFindNestedVmcsStruct slots ptr = some slot) :
    FirstAt (Fits (slotKey slots) 0 ptr) slot := by
  rw [hbFindNestedVmcsStruct,← List.range_eq_range',List.find?_map,Option.map_eq_some_iff] at found
  obtain ⟨i,search,rfl⟩ := found
  obtain ⟨here,member,earlier⟩ := List.find?_range_eq_some.mp search
  have bound := List.mem_range.mp member
  have index : ∀ j < maxNestedVmcs, (Fin.ofNat maxNestedVmcs j).val = j := fun j small => Nat.mod_eq_of_lt small
  constructor
  · simpa [Fits,slotKey] using here
  · intro j before
    have value : j.val < i := by
      have := Fin.lt_def.mp before
      rwa [index i bound] at this
    have missed := earlier j.val value
    have same : Fin.ofNat maxNestedVmcs j.val = j := Fin.ext (index j.val j.isLt)
    simpa [Fits,slotKey,same] using missed

theorem findNested_none (missing : hbFindNestedVmcsStruct slots ptr = none) (i : Fin maxNestedVmcs) :
    ¬ Fits (slotKey slots) 0 ptr i := by
  rw [hbFindNestedVmcsStruct,← List.range_eq_range',List.find?_map,Option.map_eq_none_iff] at missing
  have absent := List.find?_eq_none.mp missing i.val (List.mem_range.mpr i.isLt)
  have same : Fin.ofNat maxNestedVmcs i.val = i := Fin.ext (Nat.mod_eq_of_lt i.isLt)
  simpa [Fits,slotKey,same] using absent

end Search

section Last
variable {n : Nat} (env : VmxEnv n)

def hostFields : List U64 := [vmHostRip,vmHostRsp,vmHostCr3]

def instValue (ptr vmcs field : U64) : VmxInst → Option U64
  | .vmwrite regField destAddr => if ptr = vmcs ∧ regField = field then some destAddr else none
  | _ => none

/-- The value that an event writes to a field of a VMCS: it is a VMWRITE of the guest hypervisor
while that VMCS is its current one. -/
def vmwriteValue (s : NestedState n) (vmcs field : U64) : VmxEvent n → Option U64
  | .exit taken =>
    if s.current taken.cpuId = env.guestVmcsPhyAddr taken.cpuId then
      instValue (s.nestedVmcsPtr taken.cpuId) vmcs field taken.inst
    else none
  | .shadowed _ _ _ => none

def lastVmwrite : NestedState n → List (VmxEvent n) → U64 → U64 → Option U64
  | _,[],_,_ => none
  | s,event::rest,vmcs,field =>
    (lastVmwrite (vmxStep env s event) rest vmcs field).or (vmwriteValue env s vmcs field event)

theorem lastVmwrite_snoc (s : NestedState n) (events : List (VmxEvent n)) (event : VmxEvent n) (vmcs field : U64) :
    lastVmwrite env s (events ++ [event]) vmcs field =
      (vmwriteValue env (run (vmxStep env) s events) vmcs field event).or (lastVmwrite env s events vmcs field) := by
  induction events generalizing s with
  | nil => simp [lastVmwrite]
  | cons first rest ih => simp [lastVmwrite,ih,Option.or_assoc]

end Last

def slotValue (field : U64) (entry : NestedVmcs) : U64 :=
  if field = vmHostRip then entry.rip
  else if field = vmHostRsp then entry.rsp
  else entry.cr3

/-- The table has a slot for every VMCS to which host state was written, with the values written
last. -/
structure SlotInv {n : Nat} (addrs : Finset U64) (written : U64 → U64 → Option U64) (t : SlotState n) : Prop where
  pointer : ∀ cpuId, t.pointer cpuId = 0 ∨ t.pointer cpuId ∈ addrs
  packed : Packed (slotKey t.array) 0
  inside : ∀ i, slotKey t.array i ≠ 0 → slotKey t.array i ∈ addrs
  held : ∀ vmcs ≠ 0, ∀ field ∈ hostFields, ∀ value, written vmcs field = some value →
    ∃ i, slotKey t.array i = vmcs ∧ slotValue field (t.array i) = value

section Table
variable {n : Nat} {addrs : Finset U64} {written : U64 → U64 → Option U64} {t : SlotState n} {cpuId : Fin n}

theorem SlotInv.setPointer (inv : SlotInv addrs written t) {addr : U64} (good : addr = 0 ∨ addr ∈ addrs) :
    SlotInv addrs written (t.setPointer cpuId addr) := by
  refine ⟨?_,inv.packed,inv.inside,inv.held⟩
  intro other
  by_cases here : other = cpuId
  · subst here
    simpa [SlotState.setPointer] using good
  · simpa [SlotState.setPointer,here] using inv.pointer other

theorem useSlot_key (ptr : U64) (inst : VmxInst) (entry : NestedVmcs) :
    (SlotState.useSlot ptr inst entry).vmcsPtr = ptr := by
  cases inst <;> simp only [SlotState.useSlot]
  unfold saveHostField
  split_ifs <;> rfl

theorem slotKey_update (array : Fin maxNestedVmcs → NestedVmcs) (slot : Fin maxNestedVmcs) (entry : NestedVmcs) :
    slotKey (Function.update array slot entry) = Function.update (slotKey array) slot entry.vmcsPtr := by
  funext i
  by_cases here : i = slot
  · subst here
    simp [slotKey]
  · simp [slotKey,here]

theorem useSlot_value {field : U64} (host : field ∈ hostFields) (ptr : U64) (inst : VmxInst) (entry : NestedVmcs) :
    slotValue field (SlotState.useSlot ptr inst entry) =
      match inst with
      | .vmwrite regField destAddr => if regField = field then destAddr else slotValue field entry
      | _ => slotValue field entry := by
  cases inst with
  | vmwrite regField destAddr =>
    have names : vmHostRsp ≠ vmHostRip ∧ vmHostCr3 ≠ vmHostRip ∧ vmHostCr3 ≠ vmHostRsp := by decide
    obtain ⟨first,second,third⟩ := names
    simp only [hostFields,List.mem_cons,List.not_mem_nil,or_false] at host
    dsimp only [SlotState.useSlot,saveHostField]
    rcases host with rfl | rfl | rfl <;> unfold slotValue <;> split_ifs <;> simp_all
  | _ => rfl

theorem claimSlot_found {inst : VmxInst} {slot : Fin maxNestedVmcs}
    (found : hbFindNestedVmcsStruct t.array (t.pointer cpuId) = some slot) :
    t.claimSlot cpuId inst =
      { t with array := Function.update t.array slot (SlotState.useSlot (t.pointer cpuId) inst (t.array slot)) } := by
  simp only [SlotState.claimSlot,found]

theorem instValue_other {ptr vmcs : U64} (other : ptr ≠ vmcs) (field : U64) (inst : VmxInst) :
    instValue ptr vmcs field inst = none := by
  cases inst <;> simp [instValue,other]

theorem instValue_slot {field : U64} (host : field ∈ hostFields) (ptr : U64) (inst : VmxInst) (entry : NestedVmcs) :
    slotValue field (SlotState.useSlot ptr inst entry) = (instValue ptr ptr field inst).getD (slotValue field entry) := by
  rw [useSlot_value host]
  cases inst with
  | vmwrite regField destAddr =>
    dsimp only [instValue]
    by_cases same : regField = field <;> simp [same]
  | _ => rfl

/-- Only a search without a current VMCS can fail: for every address there is a slot. -/
theorem SlotInv.no_pointer (inv : SlotInv addrs written t) (size : addrs.card ≤ maxNestedVmcs)
    (missing : hbFindNestedVmcsStruct t.array (t.pointer cpuId) = none) : t.pointer cpuId = 0 := by
  rcases inv.pointer cpuId with zero | member
  · exact zero
  · obtain ⟨i,fits⟩ := inv.packed.room size inv.inside member
    exact absurd fits (findNested_none missing i)

section Found
variable {slot : Fin maxNestedVmcs} (first : FirstAt (Fits (slotKey t.array) 0 (t.pointer cpuId)) slot) (inst : VmxInst)
include first

theorem found_elsewhere {vmcs : U64} (real : vmcs ≠ 0) (other : t.pointer cpuId ≠ vmcs) {i : Fin maxNestedVmcs}
    (here : slotKey t.array i = vmcs) : i ≠ slot := by
  rintro rfl
  rcases first.1 with same | free
  · exact other (same.symm.trans here)
  · exact real (here.symm.trans free)

theorem SlotInv.packed_found (inv : SlotInv addrs written t) :
    Packed (Function.update (slotKey t.array) slot (t.pointer cpuId)) 0 := by
  by_cases zero : t.pointer cpuId = 0
  · have free : slotKey t.array slot = 0 := by simpa [Fits,zero] using first.1
    rw [zero.trans free.symm,Function.update_eq_self]
    exact inv.packed
  · exact inv.packed.claim zero first

theorem SlotInv.held_found (inv : SlotInv addrs written t) {vmcs field value : U64} (real : vmcs ≠ 0)
    (host : field ∈ hostFields)
    (set : (instValue (t.pointer cpuId) vmcs field inst).or (written vmcs field) = some value) :
    ∃ i, Function.update (slotKey t.array) slot (t.pointer cpuId) i = vmcs ∧
      slotValue field (Function.update t.array slot
        (SlotState.useSlot (t.pointer cpuId) inst (t.array slot)) i) = value := by
  by_cases current : t.pointer cpuId = vmcs
  · refine ⟨slot,by rw [Function.update_self,current],?_⟩
    rw [Function.update_self,instValue_slot host]
    rw [← current] at set
    cases fresh : instValue (t.pointer cpuId) (t.pointer cpuId) field inst with
    | some destAddr =>
      rw [fresh] at set
      exact Option.some.inj set
    | none =>
      rw [fresh,Option.none_or] at set
      obtain ⟨i,here,stored⟩ := inv.held _ (current ▸ real) field host value set
      rwa [← inv.packed.finds (current ▸ real) here first] at stored
  · rw [instValue_other current,Option.none_or] at set
    obtain ⟨i,here,stored⟩ := inv.held vmcs real field host value set
    have apart := found_elsewhere first real current here
    exact ⟨i,by rwa [Function.update_of_ne apart],by rwa [Function.update_of_ne apart]⟩

end Found

/-- The search for the current VMCS finds its slot, takes a free one for it, or has no VMCS to
search for; then only a free slot is written. -/
theorem SlotInv.claimSlot (inv : SlotInv addrs written t) (size : addrs.card ≤ maxNestedVmcs) (inst : VmxInst) :
    SlotInv addrs (fun vmcs field => (instValue (t.pointer cpuId) vmcs field inst).or (written vmcs field))
      (t.claimSlot cpuId inst) := by
  cases found : hbFindNestedVmcsStruct t.array (t.pointer cpuId) with
  | none =>
    have same : t.claimSlot cpuId inst = t := by simp only [SlotState.claimSlot,found]
    have zero := inv.no_pointer size found
    rw [same]
    refine ⟨inv.pointer,inv.packed,inv.inside,?_⟩
    intro vmcs real field host value set
    rw [instValue_other (fun here => real (here.symm.trans zero)),Option.none_or] at set
    exact inv.held vmcs real field host value set
  | some slot =>
    have first := findNested_some found
    rw [claimSlot_found found]
    have keys : slotKey (Function.update t.array slot (SlotState.useSlot (t.pointer cpuId) inst (t.array slot))) =
        Function.update (slotKey t.array) slot (t.pointer cpuId) := by
      rw [slotKey_update,useSlot_key]
    refine ⟨inv.pointer,?_,?_,?_⟩
    · dsimp only
      rw [keys]
      exact inv.packed_found first
    · intro i used
      dsimp only at used ⊢
      rw [keys] at used ⊢
      by_cases here : i = slot
      · rw [here,Function.update_self] at used ⊢
        exact (inv.pointer cpuId).resolve_left used
      · rw [Function.update_of_ne here] at used ⊢
        exact inv.inside i used
    · intro vmcs real field host value set
      dsimp only
      rw [keys]
      exact inv.held_found first inst real host set

theorem SlotInv.handle (inv : SlotInv addrs written t) (size : addrs.card ≤ maxNestedVmcs) {inst : VmxInst}
    (good : ∀ data, inst = .vmptrld data → data = 0 ∨ data ∈ addrs) :
    SlotInv addrs (fun vmcs field => (instValue (t.pointer cpuId) vmcs field inst).or (written vmcs field))
      (t.handle cpuId inst) := by
  cases inst with
  | vmclear data =>
    dsimp only [SlotState.handle]
    split
    · exact inv.setPointer (.inl rfl)
    · exact inv
  | vmptrld data => exact inv.setPointer (good data rfl)
  | vmxoff => exact inv.setPointer (.inl rfl)
  | vmread regField toRsp => exact inv.claimSlot size _
  | vmwrite regField destAddr => exact inv.claimSlot size _
  | invalidate => exact inv.claimSlot size _
  | vmptrst => exact inv
  | vmxon => exact inv
  | vmlaunch => exact inv
  | vmresume => exact inv

def VmxEvent.Loads {n : Nat} (addrs : Finset U64) : VmxEvent n → Prop
  | .exit taken => ∀ data, taken.inst = .vmptrld data → data = 0 ∨ data ∈ addrs
  | .shadowed _ _ _ => True

theorem SlotInv.step {env : VmxEnv n} {s : NestedState n} (inv : SlotInv addrs written s.slots)
    (size : addrs.card ≤ maxNestedVmcs) {event : VmxEvent n} (good : event.Loads addrs) :
    SlotInv addrs (fun vmcs field => (vmwriteValue env s vmcs field event).or (written vmcs field))
      (vmxStep env s event).slots := by
  rw [slots_vmxStep]
  cases event with
  | exit taken =>
    dsimp only [vmwriteValue]
    by_cases home : s.current taken.cpuId = env.guestVmcsPhyAddr taken.cpuId
    · simp only [home,if_true]
      exact inv.handle size good
    · simpa only [home,if_false,Option.none_or] using inv
  | shadowed cpuId field value => exact inv

theorem SlotInv.run {env : VmxEnv n} {start : NestedState n} (empty : ∀ i, (start.nestedVmcsArray i).vmcsPtr = 0)
    (none : ∀ cpuId, start.nestedVmcsPtr cpuId = 0) (size : addrs.card ≤ maxNestedVmcs)
    {events : List (VmxEvent n)} (good : ∀ event ∈ events, event.Loads addrs) :
    SlotInv addrs (lastVmwrite env start events) (run (vmxStep env) start events).slots := by
  induction events using List.reverseRecOn with
  | nil =>
    refine ⟨fun cpuId => .inl (none cpuId),.empty empty,fun i used => absurd (empty i) used,?_⟩
    intro vmcs _ field _ value set
    cases set
  | append_singleton events event ih =>
    have before := ih (fun event member => good event (List.mem_append_left _ member))
    have after := @SlotInv.step _ _ _ env _ before size event (good event (by simp))
    rw [run_append]
    have same : lastVmwrite env start (events ++ [event]) = fun vmcs field =>
        (vmwriteValue env (Library.run (vmxStep env) start events) vmcs field event).or
          (lastVmwrite env start events vmcs field) := by
      funext vmcs field
      exact lastVmwrite_snoc env start events event vmcs field
    rw [same]
    exact after

end Table

section Moves
variable {n : Nat} {env : VmxEnv n} {s s' s'' : NestedState n} {cpuId : Fin n} {addr : U64}

/-- A CPU stays in its VMCS or loads one at a valid address. -/
def Moves (env : VmxEnv n) (cpuId : Fin n) (s s' : NestedState n) : Prop :=
  s'.current = s.current ∨ ∃ addr, env.validAddress addr ∧ s'.current = Function.update s.current cpuId addr

theorem Moves.trans (first : Moves env cpuId s s') (second : Moves env cpuId s' s'') : Moves env cpuId s s'' := by
  rcases second with same | ⟨addr,valid,moved⟩
  · rwa [Moves,same]
  · refine .inr ⟨addr,valid,?_⟩
    rcases first with same | ⟨_,_,earlier⟩
    · rw [moved,same]
    · rw [moved,earlier,Function.update_idem]

theorem Moves.real (moves : Moves env cpuId s s') (real : ∀ other, s.current other ≠ noVmcs) (other : Fin n) :
    s'.current other ≠ noVmcs := by
  rcases moves with same | ⟨addr,valid,moved⟩
  · rw [same]
    exact real other
  · rw [moved]
    by_cases here : other = cpuId
    · subst here
      rw [Function.update_self]
      exact validAddress_real valid
    · rw [Function.update_of_ne here]
      exact real other

theorem hbLoadVmcs_moves (s : NestedState n) (addr : U64) : Moves env cpuId s (hbLoadVmcs env cpuId s addr).2 := by
  unfold hbLoadVmcs
  split
  next loads =>
    simp only [loadable,Bool.and_eq_true] at loads
    exact .inr ⟨addr,loads.1.1,rfl⟩
  next => exact .inl rfl

theorem hbWriteVmcs_moves (s : NestedState n) (field value : U64) :
    Moves env cpuId s (hbWriteVmcs env cpuId s field value) := .inl (hbWriteVmcs_current field value)

theorem advance_current (stale : U64) : (hbAdvanceVmGuestRip env cpuId stale s).current = s.current := by
  obtain ⟨rip,advanced⟩ := hbAdvanceVmGuestRip_write env cpuId stale s
  rw [advanced,hbWriteVmcs_current]

theorem handled_current (stale : U64) :
    (hbClearVmxInstFlags env cpuId stale (hbAdvanceVmGuestRip env cpuId stale s)).current = s.current := by
  rw [hbClearVmxInstFlags,hbWriteVmcs_current,advance_current]

theorem emulateVmread_moves (s : NestedState n) (slot : Fin maxNestedVmcs) (prevVmcs regField : U64) (toRsp : Bool) :
    Moves env cpuId s (emulateVmread env cpuId s slot prevVmcs regField toRsp) := by
  have loads : Moves env cpuId s (hbLoadVmcs env cpuId s (s.nestedVmcsPtr cpuId)).2 := hbLoadVmcs_moves _ _
  unfold emulateVmread
  split
  next after loaded =>
    rw [loaded] at loads
    dsimp only
    split
    · have written : Moves env cpuId after (hbWriteVmcs env cpuId after vmGuestRsp
          (nestedFieldValue env cpuId after (after.nestedVmcsArray slot) regField)) := .inl (hbWriteVmcs_current _ _)
      exact (loads.trans written).trans (hbLoadVmcs_moves _ _)
    · exact loads.trans (hbLoadVmcs_moves _ _)
  next failed => rwa [failed] at loads

theorem emulateVmwrite_moves (s : NestedState n) (slot : Fin maxNestedVmcs) (prevVmcs regField destAddr : U64) :
    Moves env cpuId s (emulateVmwrite env cpuId s slot prevVmcs regField destAddr) := by
  unfold emulateVmwrite
  dsimp only
  generalize stored : s.updateSlot slot (saveHostField regField destAddr) = s'
  have slotted : Moves env cpuId s s' := .inl (by rw [← stored]; rfl)
  have loads : Moves env cpuId s' (hbLoadVmcs env cpuId s' (s'.nestedVmcsPtr cpuId)).2 := hbLoadVmcs_moves _ _
  split
  next after loaded =>
    rw [loaded] at loads
    have written : Moves env cpuId after (guestVmwrite env cpuId after regField
        (hostFieldValue env cpuId regField destAddr)) := .inl (hbWriteVmcs_current _ _)
    exact ((slotted.trans loads).trans written).trans (hbLoadVmcs_moves _ _)
  next failed =>
    rw [failed] at loads
    exact slotted.trans loads

theorem type2_moves (s : NestedState n) (stale : U64) (inst : VmxInst) :
    Moves env cpuId s (hbVmExitCallbackVmxInstType2 env cpuId stale s inst) := by
  unfold hbVmExitCallbackVmxInstType2
  dsimp only
  generalize done : hbClearVmxInstFlags env cpuId stale (hbAdvanceVmGuestRip env cpuId stale s) = s'
  have same : Moves env cpuId s s' := .inl (by rw [← done,handled_current])
  split
  next => exact same
  next slot _ =>
    generalize stored : s'.updateSlot slot (fun entry => { entry with vmcsPtr := s'.nestedVmcsPtr cpuId }) = s''
    have slotted : Moves env cpuId s s'' := same.trans (.inl (by rw [← stored]; rfl))
    split
    · exact slotted.trans (emulateVmwrite_moves _ _ _ _ _)
    · exact slotted.trans (emulateVmread_moves _ _ _ _ _)
    · exact slotted

end Moves

section Walk
variable {n : Nat} {env : VmxEnv n} {G : U64 → Prop} {I : NestedState n → Prop} {s : NestedState n}
  {cpuId : Fin n} {addr : U64} (stale : U64) (outside : ∀ addr, G addr → Foreign env addr)

theorem setShadowing_current (home : s.current cpuId = env.guestVmcsPhyAddr cpuId) (foreign : Foreign env addr) :
    (hbVmSetVmcsShadowingToCurrent env cpuId s addr).current = s.current := by
  have differ : s.current cpuId ≠ addr := by
    rw [home]
    exact foreign_ne_own foreign
  unfold hbVmSetVmcsShadowingToCurrent
  split
  · rfl
  · rw [hbWriteVmcs_current]
    exact hbClearVmcs_current differ

include outside

theorem clearShadowing_current (home : AtHome env G I cpuId s) :
    (hbVmClearVmcsShadowingToCurrent env cpuId stale s).current = s.current := by
  unfold hbVmClearVmcsShadowingToCurrent
  rw [hbReadVmcs_link home.home,Option.getD_some]
  split
  · rfl
  · dsimp only
    split
    next => rfl
    next linked =>
      have good := (home.placed.link cpuId).resolve_left linked
      have differ : (hbWriteVmcs env cpuId s vmVmcsLinkPtr noVmcs).current cpuId ≠
          s.field (env.guestVmcsPhyAddr cpuId) vmVmcsLinkPtr := by
        rw [hbWriteVmcs_current,home.home]
        exact foreign_ne_own (outside _ good)
      have cleared := @hbClearVmcs_current _ env _ _ _ differ
      rw [hbWriteVmcs_current] at cleared
      exact cleared

variable (stable : Stable env G I) (home : AtHome env G I cpuId s)
include stable home

theorem type1_current {inst : VmxInst} (named : inst.Names G) (zero : G 0) :
    (hbVmExitCallbackVmxInstType1 env cpuId stale s inst).current = s.current := by
  have start := home.handled stale stable
  have same := @handled_current _ env s cpuId stale
  cases inst with
  | vmclear data =>
    have cleared := start.hbClearVmcs outside stable named
    have differ : (hbClearVmxInstFlags env cpuId stale (hbAdvanceVmGuestRip env cpuId stale s)).current cpuId ≠ data := by
      rw [start.home]
      exact foreign_ne_own (outside _ named)
    unfold hbVmExitCallbackVmxInstType1
    dsimp only
    split
    · rw [clearShadowing_current stale outside (cleared.setNestedVmcsPtr stable zero)]
      exact (hbClearVmcs_current differ).trans same
    · exact (hbClearVmcs_current differ).trans same
  | vmptrld data =>
    exact (setShadowing_current (start.setNestedVmcsPtr stable named).home (outside _ named)).trans same
  | _ => exact same

theorem enterNested_moves : Moves env cpuId s (enterNested env cpuId stale s).2 := by
  have advanced := home.hbAdvanceVmGuestRip stale stable
  have cleared := clearShadowing_current stale outside advanced
  rw [advance_current] at cleared
  have flagged : Moves env cpuId s (hbClearVmxInstFlags env cpuId stale
      (hbVmClearVmcsShadowingToCurrent env cpuId stale (hbAdvanceVmGuestRip env cpuId stale s))) := by
    left
    rw [hbClearVmxInstFlags,hbWriteVmcs_current,cleared]
  exact flagged.trans (hbLoadVmcs_moves _ _)

theorem dispatch_moves {inst : VmxInst} (named : inst.Names G) (zero : G 0) :
    Moves env cpuId s (dispatch env cpuId stale s inst) := by
  have type1 : Moves env cpuId s (hbVmExitCallbackVmxInstType1 env cpuId stale s inst) :=
    .inl (type1_current stale outside stable home named zero)
  have entered := enterNested_moves stale outside stable home
  cases inst with
  | vmlaunch =>
    dsimp only [dispatch]
    unfold handleVmlaunch
    split
    next after loaded =>
      rw [loaded] at entered
      have launch : Moves env cpuId after (after.setVmLaunch cpuId true) := .inl rfl
      exact (entered.trans launch).trans (hbWriteVmcs_moves _ _ _)
    next failed =>
      rw [failed] at entered
      exact entered.trans (hbWriteVmcs_moves _ _ _)
  | vmresume =>
    have written := entered.trans (hbWriteVmcs_moves _ vmHostRsp (env.hostRsp cpuId))
    dsimp only [dispatch,handleVmresume]
    split
    · exact written.trans (.inl rfl)
    · exact written
  | vmxoff => exact .inl (advance_current stale)
  | vmread regField toRsp => exact type2_moves _ _ _
  | vmwrite regField destAddr => exact type2_moves _ _ _
  | invalidate => exact type2_moves _ _ _
  | _ => exact type1

end Walk

section Fields
variable {n : Nat} (env : VmxEnv n) (cpuId : Fin n)

def writeFields (s : NestedState n) (values : List (U64 × U64)) : NestedState n :=
  values.foldl (fun s entry => hbWriteVmcs env cpuId s entry.1 entry.2) s

def naturalFields : List U64 := [vmGuestCr3,vmGuestFsBase,vmGuestGsBase,vmGuestRip,vmGuestRsp,vmGuestRflags]

def resumeValues (nestedVmcs : NestedVmcs) (fsBase gsBase : U64) : List (U64 × U64) :=
  [(vmGuestCr3,nestedVmcs.cr3),(vmGuestFsBase,fsBase),(vmGuestGsBase,gsBase),(vmGuestRip,nestedVmcs.rip),
    (vmGuestRsp,nestedVmcs.rsp),(vmGuestRflags,0x02)]

theorem resumeValues_fields (nestedVmcs : NestedVmcs) (fsBase gsBase : U64) :
    (resumeValues nestedVmcs fsBase gsBase).map Prod.fst = naturalFields := rfl

theorem natural_plain : ∀ field ∈ naturalFields, field ∈ plainFields := by
  simp [naturalFields,plainFields]

theorem natural_core : ∀ field ∈ naturalFields, field ∈ coreFields := by
  simp [naturalFields,coreFields]

theorem natural_shape : ∀ field ∈ naturalFields, fieldWidth field = .natural ∧ highAccess field = false := by
  simp only [naturalFields,List.forall_mem_cons,List.not_mem_nil,false_imp_iff,implies_true,and_true]
  decide

theorem natural_nodup : naturalFields.Nodup := by
  simp only [naturalFields,List.nodup_cons,List.mem_cons,List.not_mem_nil,or_false,not_or,List.nodup_nil]
  decide

variable {env cpuId} {s : NestedState n}

theorem writeFields_current (values : List (U64 × U64)) : (writeFields env cpuId s values).current = s.current := by
  induction values generalizing s with
  | nil => rfl
  | cons entry rest ih => rw [writeFields,List.foldl_cons,← writeFields,ih,hbWriteVmcs_current]

theorem hbWriteVmcs_field_other {addr field other value : U64} (differ : fieldKey field ≠ other) :
    (hbWriteVmcs env cpuId s field value).field addr other = s.field addr other := by
  unfold hbWriteVmcs
  split
  · by_cases here : addr = s.current cpuId
    · subst here
      simpa [NestedState.field] using write_other differ
    · simp [NestedState.field,here]
  · rfl

theorem advance_field {field : U64} (stale region : U64) (apart : field ≠ vmGuestRip) :
    (hbAdvanceVmGuestRip env cpuId stale s).field region field = s.field region field := by
  obtain ⟨rip,advanced⟩ := hbAdvanceVmGuestRip_write env cpuId stale s
  rw [advanced]
  apply hbWriteVmcs_field_other
  rw [plainFields_key _ (by simp [plainFields])]
  exact apart.symm

theorem hbWriteVmcs_natural {field : U64} (natural : field ∈ naturalFields) (value : U64)
    (real : s.current cpuId ≠ noVmcs) :
    (hbWriteVmcs env cpuId s field value).field (s.current cpuId) field = value := by
  obtain ⟨width,low⟩ := natural_shape field natural
  have key := plainFields_key field (natural_plain field natural)
  rw [hbWriteVmcs,if_pos ⟨real,env.core field (natural_core field natural)⟩]
  simp [NestedState.field,Region.write,key,fieldValue,low,width]

theorem writeFields_other {addr field : U64} {values : List (U64 × U64)}
    (natural : ∀ entry ∈ values, entry.1 ∈ naturalFields) (absent : field ∉ values.map Prod.fst) :
    (writeFields env cpuId s values).field addr field = s.field addr field := by
  induction values generalizing s with
  | nil => rfl
  | cons entry rest ih =>
    obtain ⟨first,later⟩ := List.forall_mem_cons.mp natural
    simp only [List.map_cons,List.mem_cons,not_or] at absent
    rw [writeFields,List.foldl_cons,← writeFields,ih later absent.2]
    apply hbWriteVmcs_field_other
    rw [plainFields_key _ (natural_plain _ first)]
    exact Ne.symm absent.1

theorem writeFields_value {field value : U64} {values : List (U64 × U64)} (real : s.current cpuId ≠ noVmcs)
    (natural : ∀ entry ∈ values, entry.1 ∈ naturalFields) (distinct : (values.map Prod.fst).Nodup)
    (member : (field,value) ∈ values) : (writeFields env cpuId s values).field (s.current cpuId) field = value := by
  induction values generalizing s with
  | nil => cases member
  | cons entry rest ih =>
    obtain ⟨first,later⟩ := List.forall_mem_cons.mp natural
    simp only [List.map_cons,List.nodup_cons] at distinct
    rw [writeFields,List.foldl_cons,← writeFields]
    rcases List.mem_cons.mp member with rfl | inside
    · rw [writeFields_other later distinct.1]
      exact hbWriteVmcs_natural first value real
    · have moved : (hbWriteVmcs env cpuId s entry.1 entry.2).current = s.current := hbWriteVmcs_current _ _
      rw [← moved] at real ⊢
      exact ih real later distinct.2 inside

end Fields

section Resume
variable {n : Nat} {env : VmxEnv n} {G : U64 → Prop} {I : NestedState n → Prop} {s : NestedState n} {cpuId : Fin n}
  {slot : Fin maxNestedVmcs}

theorem exitFromVm_found (placed : Placed env G s) (stale : U64)
    (found : hbFindNestedVmcsStruct s.nestedVmcsArray (s.current cpuId) = some slot) :
    exitFromVm env cpuId stale s = hbVmSetVmcsShadowingToCurrent env cpuId
      (writeFields env cpuId (s.setCurrent cpuId (env.guestVmcsPhyAddr cpuId))
        (resumeValues (s.nestedVmcsArray slot) ((hbReadVmcs env cpuId s vmHostFsBase).getD stale)
          ((hbReadVmcs env cpuId s vmHostGsBase).getD stale))) (s.current cpuId) := by
  unfold exitFromVm hbStoreVmcs
  dsimp only
  rw [found]
  dsimp only
  rw [placed.load_own]
  simp only [writeFields,resumeValues,List.foldl_cons,List.foldl_nil]

theorem updateRegion_field_other {addr region : U64} (apart : region ≠ addr) (update : Region → Region) (field : U64) :
    (s.updateRegion addr update).field region field = s.field region field := by
  simp [NestedState.field,apart]

theorem hbClearVmcs_field (addr region field : U64) :
    (hbClearVmcs env cpuId s addr).2.field region field = s.field region field := by
  have cleared : ∀ s : NestedState n, (s.updateRegion addr (fun region =>
      { region with launched := false })).field region field = s.field region field := by
    intro s
    by_cases here : region = addr
    · subst here
      simp [NestedState.field]
    · exact updateRegion_field_other here _ _
  unfold hbClearVmcs
  dsimp only
  split
  · dsimp only
    split
    · exact cleared (s.record (.vmclear addr))
    · exact cleared (s.record (.vmclear addr))
  · rfl

theorem shadowStore_field {addr region : U64} (apart : region ≠ pageStart (addr + 3)) (set : Bool) (field : U64) :
    (shadowStore env s addr set).field region field = s.field region field := by
  unfold shadowStore
  exact updateRegion_field_other apart _ _

theorem setShadowing_field {addr field : U64} (foreign : Foreign env addr) (differ : field ≠ vmVmcsLinkPtr) :
    (hbVmSetVmcsShadowingToCurrent env cpuId s addr).field (env.guestVmcsPhyAddr cpuId) field =
      s.field (env.guestVmcsPhyAddr cpuId) field := by
  have key : fieldKey vmVmcsLinkPtr ≠ field := by
    rw [show fieldKey vmVmcsLinkPtr = vmVmcsLinkPtr by decide]
    exact differ.symm
  have page : env.guestVmcsPhyAddr cpuId ≠ pageStart (addr + 3) := fun same => foreign ⟨cpuId,.inl same.symm⟩
  unfold hbVmSetVmcsShadowingToCurrent
  split
  · rfl
  · rw [hbWriteVmcs_field_other key,shadowStore_field page]
    exact hbClearVmcs_field _ _ _

theorem exitFromVm_current (outside : ∀ addr, G addr → Foreign env addr) (placed : Placed env G s) (stale : U64)
    (away : s.current cpuId ≠ env.guestVmcsPhyAddr cpuId)
    (found : hbFindNestedVmcsStruct s.nestedVmcsArray (s.current cpuId) = some slot) :
    (exitFromVm env cpuId stale s).current = Function.update s.current cpuId (env.guestVmcsPhyAddr cpuId) := by
  have foreign := outside _ ((placed.current cpuId).resolve_left away)
  rw [exitFromVm_found placed stale found,setShadowing_current (by simp [writeFields_current]) foreign,
    writeFields_current]
  rfl

theorem exitFromVm_value (outside : ∀ addr, G addr → Foreign env addr) (placed : Placed env G s) (stale : U64)
    (away : s.current cpuId ≠ env.guestVmcsPhyAddr cpuId)
    (found : hbFindNestedVmcsStruct s.nestedVmcsArray (s.current cpuId) = some slot) {field value : U64}
    (member : (field,value) ∈ resumeValues (s.nestedVmcsArray slot) ((hbReadVmcs env cpuId s vmHostFsBase).getD stale)
      ((hbReadVmcs env cpuId s vmHostGsBase).getD stale)) :
    (exitFromVm env cpuId stale s).field (env.guestVmcsPhyAddr cpuId) field = value := by
  have foreign := outside _ ((placed.current cpuId).resolve_left away)
  have natural : ∀ entry ∈ resumeValues (s.nestedVmcsArray slot) ((hbReadVmcs env cpuId s vmHostFsBase).getD stale)
      ((hbReadVmcs env cpuId s vmHostGsBase).getD stale), entry.1 ∈ naturalFields := by
    intro entry inside
    rw [← resumeValues_fields]
    exact List.mem_map_of_mem inside
  have differ := plainFields_link field (natural_plain field (natural (field,value) member))
  have home : (s.setCurrent cpuId (env.guestVmcsPhyAddr cpuId)).current cpuId = env.guestVmcsPhyAddr cpuId := by simp
  have written := @writeFields_value _ env _ _ _ _ _ (home_real home) natural
    (by rw [resumeValues_fields]; exact natural_nodup) member
  rw [home] at written
  rw [exitFromVm_found placed stale found,setShadowing_field foreign differ,written]

theorem exitFromVm_moves (outside : ∀ addr, G addr → Foreign env addr) (placed : Placed env G s) (stale : U64)
    (away : s.current cpuId ≠ env.guestVmcsPhyAddr cpuId) : Moves env cpuId s (exitFromVm env cpuId stale s) := by
  cases found : hbFindNestedVmcsStruct s.nestedVmcsArray (s.current cpuId) with
  | none =>
    left
    simp only [exitFromVm,hbStoreVmcs,found]
  | some slot => exact .inr ⟨_,env.guestValid cpuId,exitFromVm_current outside placed stale away found⟩

variable (outside : ∀ addr, G addr → Foreign env addr) (stable : Stable env G I) (zero : G 0)
include outside stable zero

theorem hbVmExitCallback_moves {exit : VmxExit n} (guarded : Guarded env G I s) (named : exit.inst.Names G) :
    Moves env exit.cpuId s (hbVmExitCallback env exit s) := by
  unfold hbVmExitCallback
  split
  next away => exact exitFromVm_moves outside guarded.placed exit.stale away
  next same =>
    have home : AtHome env G I exit.cpuId s := ⟨guarded,not_not.mp same⟩
    have started := home.plainField stable 0 (show vmCtrlVmEntryInstLength ∈ plainFields by simp [plainFields])
    have begun : Moves env exit.cpuId s (hbWriteVmcs env exit.cpuId s vmCtrlVmEntryInstLength 0) :=
      hbWriteVmcs_moves _ _ _
    have dispatched := begun.trans (dispatch_moves exit.stale outside stable started named zero)
    obtain ⟨_,back⟩ := dispatch_guarded exit.stale outside stable zero named started
    unfold skipAll
    dsimp only
    split
    next shadowing =>
      simp only [Bool.and_eq_true,Bool.not_eq_true'] at shadowing
      have after := back shadowing.1.2
      exact dispatched.trans (.inl (setShadowing_current after.home (outside _ (after.placed.pointer exit.cpuId))))
    next => exact dispatched

theorem vmxStep_real {event : VmxEvent n} (guarded : Guarded env G I s) (named : event.Names G)
    (real : ∀ cpuId, s.current cpuId ≠ noVmcs) (cpuId : Fin n) : (vmxStep env s event).current cpuId ≠ noVmcs := by
  cases event with
  | exit exit =>
    have moves := hbVmExitCallback_moves outside stable zero (vmExit_guarded stable guarded exit) named
    exact moves.real real cpuId
  | shadowed other field value =>
    dsimp only [vmxStep,shadowVmwrite]
    split <;> exact real cpuId

theorem run_real {events : List (VmxEvent n)} (guarded : Guarded env G I s)
    (named : ∀ event ∈ events, event.Names G) (real : ∀ cpuId, s.current cpuId ≠ noVmcs) (cpuId : Fin n) :
    (run (vmxStep env) s events).current cpuId ≠ noVmcs := by
  induction events generalizing s with
  | nil => exact real cpuId
  | cons event rest ih =>
    obtain ⟨here,later⟩ := List.forall_mem_cons.mp named
    exact ih (vmxStep_guarded outside stable guarded zero here) later
      (vmxStep_real outside stable zero guarded here real)

end Resume

section Main
variable {n : Nat} {env : VmxEnv n} {s : NestedState n} {exit : VmxExit n}

/-- The guest hypervisor goes on in its own VMCS with the registers that it has set for exits
from the nested VMCS. -/
structure Resumed (env : VmxEnv n) (cpuId : Fin n) (before after : NestedState n) (vmcs rip rsp cr3 : U64) : Prop where
  current : after.current cpuId = env.guestVmcsPhyAddr cpuId
  rip : after.field (env.guestVmcsPhyAddr cpuId) vmGuestRip = rip
  rsp : after.field (env.guestVmcsPhyAddr cpuId) vmGuestRsp = rsp
  cr3 : after.field (env.guestVmcsPhyAddr cpuId) vmGuestCr3 = cr3
  fsBase : after.field (env.guestVmcsPhyAddr cpuId) vmGuestFsBase = before.field vmcs vmHostFsBase
  gsBase : after.field (env.guestVmcsPhyAddr cpuId) vmGuestGsBase = before.field vmcs vmHostGsBase

theorem hbReadVmcs_base {field : U64} (base : field ∈ [vmHostFsBase,vmHostGsBase]) (supported : env.supported field)
    (real : s.current exit.cpuId ≠ noVmcs) :
    hbReadVmcs env exit.cpuId (vmExit exit s) field = some (s.field (s.current exit.cpuId) field) := by
  have shape : ∀ field ∈ [vmHostFsBase,vmHostGsBase], highAccess field = false ∧ savedOnExit field = false := by
    simp only [List.forall_mem_cons,List.not_mem_nil,false_imp_iff,implies_true,and_true]
    decide
  obtain ⟨low,unsaved⟩ := shape field base
  simp [hbReadVmcs,vmExit,real,supported,Region.read,low,NestedState.field,Region.save,unsaved]

theorem vmEntry_field (cpuId : Fin n) (region field : U64) :
    (vmEntry s cpuId).field region field = s.field region field := by
  by_cases here : region = s.current cpuId
  · subst here
    simp [vmEntry,NestedState.field]
  · exact updateRegion_field_other here _ _

theorem nested_exit_resumed {G : U64 → Prop} (outside : ∀ addr, G addr → Foreign env addr) (placed : Placed env G s)
    {slot : Fin maxNestedVmcs} (away : s.current exit.cpuId ≠ env.guestVmcsPhyAddr exit.cpuId)
    (real : s.current exit.cpuId ≠ noVmcs) (fs : env.supported vmHostFsBase) (gs : env.supported vmHostGsBase)
    (found : hbFindNestedVmcsStruct s.nestedVmcsArray (s.current exit.cpuId) = some slot) :
    Resumed env exit.cpuId s (vmxStep env s (.exit exit)) (s.current exit.cpuId) (s.nestedVmcsArray slot).rip
      (s.nestedVmcsArray slot).rsp (s.nestedVmcsArray slot).cr3 := by
  have saved : Placed env G (vmExit exit s) := (vmExit_guarded (placed_stable env G) ⟨placed,trivial⟩ exit).placed
  have callback : hbVmExitCallback env exit (vmExit exit s) = exitFromVm env exit.cpuId exit.stale (vmExit exit s) :=
    if_pos away
  have value : ∀ field value, (field,value) ∈ resumeValues (s.nestedVmcsArray slot)
      (s.field (s.current exit.cpuId) vmHostFsBase) (s.field (s.current exit.cpuId) vmHostGsBase) →
      (vmxStep env s (.exit exit)).field (env.guestVmcsPhyAddr exit.cpuId) field = value := by
    intro field value member
    have stored := @exitFromVm_value _ _ _ _ _ _ outside saved exit.stale away found field value
    rw [hbReadVmcs_base (by simp) fs real,hbReadVmcs_base (by simp) gs real] at stored
    rw [vmxStep,hbVmExitCallbackStub,vmEntry_field,callback]
    exact stored member
  refine ⟨?_,value _ _ ?_,value _ _ ?_,value _ _ ?_,value _ _ ?_,value _ _ ?_⟩
  · rw [vmxStep,hbVmExitCallbackStub,callback]
    have moved := exitFromVm_current outside saved exit.stale away found
    exact (congrFun moved exit.cpuId).trans (Function.update_self _ _ _)
  all_goals simp [resumeValues]

/-- A VMCS whose host state was written has a slot, and the search finds it with the values
written last. -/
theorem SlotInv.found {addrs : Finset U64} {written : U64 → U64 → Option U64} (inv : SlotInv addrs written s.slots)
    {vmcs rip rsp cr3 : U64} (nonzero : vmcs ≠ 0) (lastRip : written vmcs vmHostRip = some rip)
    (lastRsp : written vmcs vmHostRsp = some rsp) (lastCr3 : written vmcs vmHostCr3 = some cr3) :
    ∃ slot, hbFindNestedVmcsStruct s.nestedVmcsArray vmcs = some slot ∧ (s.nestedVmcsArray slot).rip = rip ∧
      (s.nestedVmcsArray slot).rsp = rsp ∧ (s.nestedVmcsArray slot).cr3 = cr3 := by
  cases search : hbFindNestedVmcsStruct s.nestedVmcsArray vmcs with
  | none =>
    obtain ⟨i,here,_⟩ := inv.held vmcs nonzero vmHostRip (by simp [hostFields]) rip lastRip
    exact absurd (.inl here) (findNested_none search i)
  | some slot =>
    have first := findNested_some search
    have value : ∀ field ∈ hostFields, ∀ value, written vmcs field = some value →
        slotValue field (s.nestedVmcsArray slot) = value := by
      intro field host value set
      obtain ⟨i,here,stored⟩ := inv.held vmcs nonzero field host value set
      rwa [← inv.packed.finds nonzero here first] at stored
    refine ⟨slot,rfl,value vmHostRip (by simp [hostFields]) rip lastRip,
      value vmHostRsp (by simp [hostFields]) rsp lastRsp,value vmHostCr3 (by simp [hostFields]) cr3 lastCr3⟩

/-- Whatever the CPUs do in between, an exit from a nested VM takes the guest hypervisor back to
the host state that it last wrote to that very VMCS. -/
theorem guest_hypervisor_resumed (env : VmxEnv n) {start : NestedState n} (launched : Launched env start)
    (empty : ∀ i, (start.nestedVmcsArray i).vmcsPtr = 0) (fs : env.supported vmHostFsBase)
    (gs : env.supported vmHostGsBase) {addrs : Finset U64} (size : addrs.card ≤ maxNestedVmcs)
    (events : List (VmxEvent n)) (named : ∀ event ∈ events, event.Names (Foreign env))
    (loads : ∀ event ∈ events, event.Loads addrs) (exit : VmxExit n) {vmcs rip rsp cr3 : U64} (nonzero : vmcs ≠ 0)
    (away : vmcs ≠ env.guestVmcsPhyAddr exit.cpuId)
    (nested : (run (vmxStep env) start events).current exit.cpuId = vmcs)
    (lastRip : lastVmwrite env start events vmcs vmHostRip = some rip)
    (lastRsp : lastVmwrite env start events vmcs vmHostRsp = some rsp)
    (lastCr3 : lastVmwrite env start events vmcs vmHostCr3 = some cr3) :
    Resumed env exit.cpuId (run (vmxStep env) start events)
      (vmxStep env (run (vmxStep env) start events) (.exit exit)) vmcs rip rsp cr3 := by
  have outside : ∀ addr, Foreign env addr → Foreign env addr := fun _ foreign => foreign
  have stable := placed_stable env (Foreign env)
  have initial : Guarded env (Foreign env) (fun _ => True) start := ⟨launched.placed foreign_zero,trivial⟩
  have reached := run_guarded outside stable initial foreign_zero named
  have homes : ∀ cpuId, start.current cpuId ≠ noVmcs := by
    intro cpuId
    rw [launched.current]
    exact guest_ne_noVmcs env cpuId
  have real := run_real outside stable foreign_zero initial named homes exit.cpuId
  have table := @SlotInv.run _ _ env _ empty launched.pointer size _ loads
  obtain ⟨slot,found,rfl,rfl,rfl⟩ := table.found nonzero lastRip lastRsp lastCr3
  subst nested
  exact nested_exit_resumed outside reached.placed away real fs gs found

end Main

section Sample

theorem baseVmx_launched : Launched baseVmx sampleLaunch :=
  ⟨by decide,by decide,by decide,by decide,by decide,by decide,by decide,rfl⟩

theorem foreign_base : Foreign baseVmx 0x5000 := foreign_sample

def nestedExit : VmxExit 1 := { launchExit with inst := .invalidate }

def hostExits : List (VmxEvent 1) :=
  [sampleExit (.vmwrite vmHostRip 0x9999),sampleExit (.vmptrld 0x5000),sampleExit (.vmwrite vmHostRip 0x1111),
    sampleExit (.vmwrite vmHostRsp 0x2222),sampleExit (.vmwrite vmHostCr3 0x4000),
    sampleExit (.vmwrite vmHostFsBase 0x7000),sampleExit .vmlaunch]

/-- The values written last, read off the small machine. -/
def Control.lastVmwrite {n : Nat} (env : VmxEnv n) : Control n → List (VmxEvent n) → U64 → U64 → Option U64
  | _,[],_,_ => none
  | t,event::rest,vmcs,field =>
    (Control.lastVmwrite env (t.step env event) rest vmcs field).or
      (match event with
      | .exit taken =>
        if t.current taken.cpuId = env.guestVmcsPhyAddr taken.cpuId then
          instValue (t.pointer taken.cpuId) vmcs field taken.inst
        else none
      | .shadowed _ _ _ => none)

theorem lastVmwrite_control {n : Nat} {env : VmxEnv n} {s : NestedState n} (placed : Placed env (Sound env) s)
    {events : List (VmxEvent n)} (named : ∀ event ∈ events, event.Names (Sound env)) (vmcs field : U64) :
    lastVmwrite env s events vmcs field = (s.control env).lastVmwrite env events vmcs field := by
  induction events generalizing s with
  | nil => rfl
  | cons event rest ih =>
    obtain ⟨here,later⟩ := List.forall_mem_cons.mp named
    have next := run_placed placed (List.forall_mem_singleton.mpr here)
    have result := ih next later
    rw [run_cons,run_nil,control_vmxStep placed here] at result
    cases event with
    | exit taken =>
      rw [lastVmwrite,result]
      rfl
    | shadowed cpuId field value =>
      rw [lastVmwrite,result]
      rfl

theorem sound_base : Sound baseVmx 0x5000 := ⟨foreign_base,fun _ => by decide⟩

theorem hostExits_sound : ∀ event ∈ hostExits, event.Names (Sound baseVmx) := by
  intro event member
  simp only [hostExits,List.mem_cons,List.not_mem_nil,or_false] at member
  rcases member with rfl | rfl | rfl | rfl | rfl | rfl | rfl
  · trivial
  · exact sound_base
  all_goals trivial

theorem hostExits_nested : (run (vmxStep baseVmx) sampleLaunch hostExits).current nestedExit.cpuId = 0x5000 := by
  rw [run_current (baseVmx_launched.placed sound_zero) hostExits_sound]
  decide +kernel

theorem hostExits_last (field : U64) :
    lastVmwrite baseVmx sampleLaunch hostExits 0x5000 field =
      (sampleLaunch.control baseVmx).lastVmwrite baseVmx hostExits 0x5000 field :=
  lastVmwrite_control (baseVmx_launched.placed sound_zero) hostExits_sound _ _

theorem guest_hypervisor_resumed_sample :
    Resumed baseVmx nestedExit.cpuId (run (vmxStep baseVmx) sampleLaunch hostExits)
      (vmxStep baseVmx (run (vmxStep baseVmx) sampleLaunch hostExits) (.exit nestedExit))
      0x5000 0x1111 0x2222 0x4000 := by
  refine @guest_hypervisor_resumed _ baseVmx _ baseVmx_launched (fun _ => rfl) (by decide) (by decide) {0x5000}
    (by decide) hostExits ?_ ?_ nestedExit _ _ _ _ (by decide) (by decide) hostExits_nested ?_ ?_ ?_
  · exact fun event member => (hostExits_sound event member).mono (fun _ sound => sound.1)
  · simp [hostExits,sampleExit,VmxEvent.Loads]
  · rw [hostExits_last]
    decide +kernel
  · rw [hostExits_last]
    decide +kernel
  · rw [hostExits_last]
    decide +kernel

end Sample

end HyperBox.Nested
