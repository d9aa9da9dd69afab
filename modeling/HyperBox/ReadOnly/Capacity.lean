import HyperBox.ReadOnly.Table

/-! The count of slots never falls, and `hb_add_ro_area` looks at it before it looks for a
freed slot. Once the array has been full, nothing can be registered any more. -/
namespace HyperBox.ReadOnly
open HyperBox.Library HyperBox.PageTable

/-- `hb_is_addr_in_ro_area` knows every address of the area. -/
def Visible (start stop : U64) (t : RoTable) : Prop :=
  ∀ addr, start ≤ addr → addr < stop → hbIsAddrInRoArea t addr = true

/-- The area becomes visible if it is added after `events`, provided there is room for it. -/
def AddVisible (events : List RoEvent) (start stop : U64) (roType : RoType) : Prop :=
  (run RoTable.step .empty events).live.card < maxRoArrayCount →
    Visible start stop (hbAddRoArea start stop (run RoTable.step .empty events) roType)

/-- An addition finds at least two areas fewer than fit into the array. -/
def Roomy (t : RoTable) : RoEvent → Prop
  | .add _ => t.live.card + 1 < maxRoArrayCount
  | .delete _ _ => True

section Count
variable {t : RoTable}

theorem length_step (t : RoTable) (event : RoEvent) :
    (t.step event).areas.length < maxRoArrayCount ↔ t.areas.length < maxRoArrayCount ∧ Roomy t event := by
  cases event with
  | add area =>
    by_cases room : t.areas.length < maxRoArrayCount
    · rw [RoTable.step,hbAddRoArea_room room,length_place,Roomy,RoTable.live]
      omega
    · have full : t.areas.length = maxRoArrayCount := Nat.le_antisymm t.inside (by omega)
      rw [RoTable.step,hbAddRoArea_full full]
      omega
  | delete start stop =>
    rw [RoTable.step,length_delete,Roomy,and_true]

/-- The count stays below the limit exactly if every addition so far left room for one more. -/
theorem run_room (events : List RoEvent) : (run RoTable.step .empty events).areas.length < maxRoArrayCount ↔
    Along RoTable.step Roomy .empty events := by
  induction events using List.reverseRecOn with
  | nil => exact iff_of_true (by decide) trivial
  | append_singleton events event ih =>
    rw [run_append,run_cons,run_nil,length_step,ih,along_append]
    simp [Along]

theorem add_visible (room : t.areas.length < maxRoArrayCount) (start stop : U64) (roType : RoType) :
    Visible start stop (hbAddRoArea start stop t roType) := by
  intro addr low high
  have inside : inArea addr ⟨start,stop,roType⟩ = true := by simp [inArea,low,high]
  have taken : isFree ⟨start,stop,roType⟩ = false := by
    by_contra freed
    rw [inArea_free (by simpa using freed)] at inside
    contradiction
  rw [hbIsAddrInRoArea_live,live_add room ⟨start,stop,roType⟩,used_taken taken]
  exact .inr ⟨⟨start,stop,roType⟩,by simp,inside⟩

end Count

/-- A new area is visible exactly if every addition before it left room for one more, or its
addresses were registered already. -/
theorem add_visible_iff (events : List RoEvent) (start stop : U64) (roType : RoType) :
    AddVisible events start stop roType ↔
      ((run RoTable.step .empty events).live.card < maxRoArrayCount →
        Along RoTable.step Roomy .empty events ∨ Visible start stop (run RoTable.step .empty events)) := by
  apply imp_congr_right
  intro _
  rw [← run_room]
  have bound := (run RoTable.step .empty events).inside
  by_cases room : (run RoTable.step .empty events).areas.length < maxRoArrayCount
  · exact iff_of_true (add_visible room start stop roType) (.inl room)
  · rw [hbAddRoArea_full (by omega)]
    simp [room]

section Filled

theorem run_replicate {area : RoArea} (taken : isFree area = false) {n : Nat} (fits : n ≤ maxRoArrayCount) :
    (run RoTable.step .empty (List.replicate n (.add area))).areas = List.replicate n area := by
  induction n with
  | zero => rfl
  | succ n ih =>
    have slots := ih (by omega)
    rw [List.replicate_succ',run_append,run_cons,run_nil,RoTable.step,
      hbAddRoArea_room (by rw [slots,List.length_replicate]; omega),slots]
    rcases place_cases isFree area (List.replicate n area) with ⟨_,placed⟩ | ⟨before,slot,after,split,freed,_⟩
    · rw [placed,List.replicate_succ']
    · have copy : slot = area := List.eq_of_mem_replicate (split ▸ List.mem_append_right before List.mem_cons_self)
      rw [copy,taken] at freed
      contradiction

def filledEvents : List RoEvent :=
  List.replicate maxRoArrayCount (.add ⟨0x1000,0x2000,.module⟩) ++ [.delete 0x1000 0x2000]

/-- The array has been full; of its 4096 areas one is removed and another one added. -/
theorem freed_slot_not_reused : ¬ AddVisible filledEvents 0x5000 0x6000 .module := by
  have taken : isFree ⟨0x1000,0x2000,.module⟩ = false := by decide
  have slots := run_replicate taken le_rfl
  have after : run RoTable.step .empty filledEvents = (hbDeleteRoArea 0x1000 0x2000
      (run RoTable.step .empty (List.replicate maxRoArrayCount (.add ⟨0x1000,0x2000,.module⟩)))).2 := by
    rw [filledEvents,run_append,run_cons,run_nil,RoTable.step]
  have count : (run RoTable.step .empty filledEvents).areas.length = maxRoArrayCount := by
    rw [after,length_delete,slots,List.length_replicate]
  have room : (run RoTable.step .empty filledEvents).live.card < maxRoArrayCount := by
    have before := used_le isFree (run RoTable.step .empty
      (List.replicate maxRoArrayCount (.add ⟨0x1000,0x2000,.module⟩))).areas
    rcases live_delete 0x1000 0x2000 (run RoTable.step .empty
      (List.replicate maxRoArrayCount (.add ⟨0x1000,0x2000,.module⟩))) with ⟨none,_⟩ | ⟨slot,member,_,_,split⟩
    · rw [slots] at none
      exact absurd (none _ (List.mem_replicate.mpr ⟨by decide,rfl⟩)) (by decide)
    · rw [slots] at member
      rw [← RoTable.live,split,List.eq_of_mem_replicate member,used_taken (by decide),slots,
        List.length_replicate,Multiset.card_add,Multiset.card_singleton] at before
      rw [after]
      omega
  intro visible
  have known := visible room 0x5000 (by decide) (by decide)
  rw [hbAddRoArea_full count,hbIsAddrInRoArea_live] at known
  rcases known with null | ⟨area,member,inside⟩
  · exact absurd null (by decide)
  · have added := live_added member
    rw [filledEvents,List.mem_append,List.mem_replicate,List.mem_singleton] at added
    rcases added with ⟨_,same⟩ | other
    · rw [RoEvent.add.inj same] at inside
      exact absurd inside (by decide)
    · exact absurd other (by simp)

end Filled

end HyperBox.ReadOnly
