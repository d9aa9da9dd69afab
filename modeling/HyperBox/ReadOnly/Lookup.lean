import HyperBox.ReadOnly.Table

/-! The lookups in the array of read-only areas against the multiset of the areas that are
registered. Callers register the kernel's areas before those of modules and remove only the
latter, which keeps every slot of module type, freed or not, behind the kernel's slots. -/
namespace HyperBox.ReadOnly
open HyperBox.Library HyperBox.PageTable

/-- The bounds of an area, which are not those of a freed slot. -/
def RoEvent.Proper : RoEvent → Prop
  | .add area => 0 < area.start ∧ area.start < area.stop
  | .delete start stop => ¬ (start = 0 ∧ stop = 0)

/-- No kernel area is added after a module area, and none is removed. -/
def Precedes : RoEvent → RoEvent → Prop
  | .add area,.add later => area.type = .module → later.type = .module
  | .add area,.delete start stop => area.type = .kernel → ¬ (area.start = start ∧ area.stop = stop)
  | .delete _ _,_ => True

def Ordered (events : List RoEvent) : Prop := events.Pairwise Precedes

/-- What the array stands for: a removal takes away one copy of a module's area. -/
def liveStep (areas : Multiset RoArea) : RoEvent → Multiset RoArea
  | .add area => area ::ₘ areas
  | .delete start stop => areas.erase ⟨start,stop,.module⟩

def liveAreas (events : List RoEvent) : Multiset RoArea := run liveStep 0 events

section Order

/-- What holds of the array after events in the callers' order. -/
structure Agrees (events : List RoEvent) (t : RoTable) : Prop where
  live : t.live = liveAreas events
  order : (t.areas.map RoArea.type).Pairwise (fun first later => first = .module → later = .module)
  freed : ∀ slot ∈ t.areas, isFree slot = true → slot.type = .module
  module : ∀ slot ∈ t.areas, slot.type = .module → ∃ area, .add area ∈ events ∧ area.type = .module
  kernel : ∀ slot ∈ t.areas, slot.type = .kernel → .add slot ∈ events

variable {events : List RoEvent} {t : RoTable}

theorem Agrees.empty : Agrees [] .empty :=
  ⟨rfl,.nil,by simp [RoTable.empty],by simp [RoTable.empty],by simp [RoTable.empty]⟩

theorem isFree_proper {area : RoArea} (proper : RoEvent.Proper (.add area)) : isFree area = false := by
  by_contra freed
  have bounds := isFree_iff.mp (by simpa using freed)
  have positive := proper.1
  rw [bounds.1] at positive
  exact absurd positive (by decide)

/-- The events behind a slot stay behind it. -/
theorem Agrees.origin {slot : RoArea} (agrees : Agrees events t) (event : RoEvent) (member : slot ∈ t.areas) :
    (slot.type = .module → ∃ area, .add area ∈ events ++ [event] ∧ area.type = .module) ∧
      (slot.type = .kernel → .add slot ∈ events ++ [event]) := by
  constructor
  · intro type
    obtain ⟨earlier,added,module⟩ := agrees.module slot member type
    exact ⟨earlier,List.mem_append_left _ added,module⟩
  · exact fun type => List.mem_append_left _ (agrees.kernel slot member type)

theorem add_slots {area slot : RoArea} (room : t.areas.length < maxRoArrayCount)
    (member : slot ∈ (t.step (.add area)).areas) : slot = area ∨ slot ∈ t.areas := by
  rw [RoTable.step,hbAddRoArea_room room] at member
  rcases place_cases isFree area t.areas with ⟨_,placed⟩ | ⟨before,_,after,split,_,placed⟩
  · rw [placed,List.mem_append,List.mem_singleton] at member
    exact member.symm
  · rw [placed,List.mem_append,List.mem_cons] at member
    rw [split,List.mem_append,List.mem_cons]
    tauto

/-- A kernel area meets no slot of module type, so it goes behind the last slot; a module's
area takes a slot of its own type. -/
theorem Agrees.add_order {area : RoArea} (agrees : Agrees events t)
    (ordered : ∀ event ∈ events, Precedes event (.add area)) (room : t.areas.length < maxRoArrayCount) :
    ((t.step (.add area)).areas.map RoArea.type).Pairwise (fun first later => first = .module → later = .module) := by
  have kept : ∀ slot ∈ t.areas, slot.type = .module → area.type = .module := by
    intro slot member type
    obtain ⟨earlier,added,module⟩ := agrees.module slot member type
    exact ordered _ added module
  rw [RoTable.step,hbAddRoArea_room room]
  rcases place_cases isFree area t.areas with ⟨_,placed⟩ | ⟨before,slot,after,split,free,placed⟩
  · rw [placed,List.map_append,List.pairwise_append]
    refine ⟨agrees.order,by simp,?_⟩
    intro first member later here
    obtain ⟨slot,inside,rfl⟩ := List.mem_map.mp member
    rw [List.map_singleton,List.mem_singleton] at here
    rw [here]
    exact kept slot inside
  · have inside : slot ∈ t.areas := by simp [split]
    have module := agrees.freed slot inside free
    have same : area.type = slot.type := (kept slot inside module).trans module.symm
    have order := agrees.order
    rw [split,List.map_append,List.map_cons] at order
    rw [placed,List.map_append,List.map_cons,same]
    exact order

theorem Agrees.add {area : RoArea} (agrees : Agrees events t) (proper : RoEvent.Proper (.add area))
    (ordered : ∀ event ∈ events, Precedes event (.add area)) (room : t.areas.length < maxRoArrayCount) :
    Agrees (events ++ [.add area]) (t.step (.add area)) := by
  refine ⟨?_,agrees.add_order ordered room,?_,?_,?_⟩
  · rw [RoTable.step,live_add room,used_taken (isFree_proper proper),agrees.live,liveAreas,liveAreas,run_append]
    rfl
  · intro slot member free
    rcases add_slots room member with rfl | old
    · rw [isFree_proper proper] at free
      contradiction
    · exact agrees.freed slot old free
  · intro slot member type
    rcases add_slots room member with rfl | old
    · exact ⟨slot,by simp,type⟩
    · exact (agrees.origin _ old).1 type
  · intro slot member type
    rcases add_slots room member with rfl | old
    · simp
    · exact (agrees.origin _ old).2 type

theorem Agrees.hit {start stop : U64} {slot : RoArea} (agrees : Agrees events t)
    (proper : RoEvent.Proper (.delete start stop)) (ordered : ∀ event ∈ events, Precedes event (.delete start stop))
    (member : slot ∈ t.areas) (found : sameBounds start stop slot = true) :
    slot = ⟨start,stop,.module⟩ ∧ isFree slot = false := by
  obtain ⟨first,last⟩ := sameBounds_iff.mp found
  constructor
  · obtain ⟨slotStart,slotStop,type⟩ := slot
    cases type with
    | kernel => exact absurd ⟨first,last⟩ (ordered _ (agrees.kernel _ member rfl) rfl)
    | module => rw [← first,← last]
  · by_contra free
    have bounds := isFree_iff.mp (by simpa using free)
    exact proper ⟨first ▸ bounds.1,last ▸ bounds.2⟩

theorem Agrees.delete_result {start stop : U64} (agrees : Agrees events t)
    (proper : RoEvent.Proper (.delete start stop)) (ordered : ∀ event ∈ events, Precedes event (.delete start stop)) :
    ((hbDeleteRoArea start stop t).1 = 0 ↔ ∃ area ∈ liveAreas events, area.start = start ∧ area.stop = stop) ∧
      (hbDeleteRoArea start stop t).2.live = (liveAreas events).erase ⟨start,stop,.module⟩ := by
  rw [← agrees.live]
  rcases live_delete start stop t with ⟨none,missed⟩ | ⟨slot,member,found,zero,split⟩
  · have absent : ∀ area ∈ t.live, ¬ (area.start = start ∧ area.stop = stop) := by
      intro area live bounds
      have miss := none area (mem_used.mp live).1
      rw [sameBounds_iff.mpr bounds] at miss
      contradiction
    rw [missed]
    constructor
    · constructor
      · intro zero
        exact absurd zero (by simp)
      · rintro ⟨area,live,bounds⟩
        exact absurd bounds (absent area live)
    · exact (Multiset.erase_of_notMem (fun live => absent _ live ⟨rfl,rfl⟩)).symm
  · obtain ⟨same,taken⟩ := agrees.hit proper ordered member found
    constructor
    · refine iff_of_true zero ⟨slot,?_,sameBounds_iff.mp found⟩
      exact mem_used.mpr ⟨member,taken⟩
    · rw [split,used_taken taken,same]
      simp

theorem Agrees.delete {start stop : U64} (agrees : Agrees events t) (proper : RoEvent.Proper (.delete start stop))
    (ordered : ∀ event ∈ events, Precedes event (.delete start stop)) :
    Agrees (events ++ [.delete start stop]) (t.step (.delete start stop)) := by
  have live : (t.step (.delete start stop)).live = liveAreas (events ++ [.delete start stop]) := by
    rw [RoTable.step,(agrees.delete_result proper ordered).2,liveAreas,liveAreas,run_append]
    rfl
  rcases hbDeleteRoArea_cases start stop t with ⟨_,same⟩ | ⟨before,slot,after,split,found,_,cleared⟩
  · refine ⟨live,?_,?_,?_,?_⟩ <;> rw [RoTable.step,same]
    · exact agrees.order
    · exact agrees.freed
    · exact fun slot member => (agrees.origin _ member).1
    · exact fun slot member => (agrees.origin _ member).2
  · have inside : slot ∈ t.areas := by simp [split]
    have module : slot.type = .module := by rw [(agrees.hit proper ordered inside found).1]
    have slots : ∀ other ∈ (t.step (.delete start stop)).areas, other = clearBounds slot ∨ other ∈ t.areas := by
      intro other member
      rw [RoTable.step,cleared,List.mem_append,List.mem_cons] at member
      rw [split,List.mem_append,List.mem_cons]
      tauto
    refine ⟨live,?_,?_,?_,?_⟩
    · have order := agrees.order
      rw [split,List.map_append,List.map_cons] at order
      rw [RoTable.step,cleared,List.map_append,List.map_cons]
      exact order
    · intro other member free
      rcases slots other member with rfl | old
      · exact module
      · exact agrees.freed other old free
    · intro other member type
      rcases slots other member with rfl | old
      · exact (agrees.origin _ inside).1 module
      · exact (agrees.origin _ old).1 type
    · intro other member type
      rcases slots other member with rfl | old
      · rw [clearBounds,module] at type
        contradiction
      · exact (agrees.origin _ old).2 type

theorem run_agrees (proper : ∀ event ∈ events, event.Proper) (ordered : Ordered events)
    (room : Along RoTable.step (fun t _ => t.areas.length < maxRoArrayCount) .empty events) :
    Agrees events (run RoTable.step .empty events) := by
  induction events using List.reverseRecOn with
  | nil => exact .empty
  | append_singleton events event ih =>
    rw [Ordered,List.pairwise_append] at ordered
    rw [along_append] at room
    have before := ih (fun event member => proper event (List.mem_append_left _ member)) ordered.1 room.1
    have here := proper event (by simp)
    have earlier : ∀ other ∈ events, Precedes other event := fun other member =>
      ordered.2.2 other member event (by simp)
    rw [run_append,run_cons,run_nil]
    cases event with
    | add area => exact before.add here earlier room.2.1
    | delete start stop => exact before.delete here earlier

/-- The scan stops at a slot of module type, behind which there are no others. -/
theorem scanKernelRoArea_iff {areas : List RoArea} {addr : U64}
    (order : (areas.map RoArea.type).Pairwise (fun first later => first = .module → later = .module)) :
    scanKernelRoArea addr areas = true ↔ ∃ area ∈ areas, area.type = .kernel ∧ inArea addr area = true := by
  induction areas with
  | nil => simp [scanKernelRoArea]
  | cons area rest ih =>
    rw [List.map_cons,List.pairwise_cons] at order
    have later := ih order.2
    cases type : area.type with
    | kernel => by_cases here : area.start ≤ addr ∧ addr < area.stop <;> simp_all [scanKernelRoArea,inArea]
    | module =>
      have modules : ∀ other ∈ rest, other.type = .module := fun other member =>
        order.1 _ (List.mem_map_of_mem member) type
      simp only [scanKernelRoArea,type,if_true]
      simp only [reduceCtorEq,and_false,if_false,Bool.false_eq_true,false_iff]
      rintro ⟨other,member,kernel,_⟩
      rcases List.mem_cons.mp member with rfl | member
      · rw [type] at kernel
        contradiction
      · rw [modules other member] at kernel
        contradiction

theorem Agrees.kernel_lookup {addr : U64} (agrees : Agrees events t) :
    hbIsAddrInKernelRoArea t.areas addr = true ↔
      addr = 0 ∨ ∃ area ∈ liveAreas events, area.type = .kernel ∧ inArea addr area = true := by
  have slots : (∃ area ∈ t.areas, area.type = .kernel ∧ inArea addr area = true) ↔
      ∃ area ∈ t.live, area.type = .kernel ∧ inArea addr area = true := by
    constructor
    · rintro ⟨area,member,kernel,inside⟩
      refine ⟨area,mem_used.mpr ⟨member,?_⟩,kernel,inside⟩
      by_contra free
      rw [agrees.freed area member (by simpa using free)] at kernel
      contradiction
    · rintro ⟨area,member,kernel,inside⟩
      exact ⟨area,(mem_used.mp member).1,kernel,inside⟩
  rw [← agrees.live,← slots,← scanKernelRoArea_iff agrees.order,hbIsAddrInKernelRoArea]
  split
  next null => simp [null]
  next nonnull => rw [or_iff_right nonnull]

end Order

/-- In the callers' order, and as long as the array does not fill up, both lookups see exactly
the areas that are registered, and a removal takes away one copy of what it finds. -/
theorem ro_area_lookups (events : List RoEvent) (proper : ∀ event ∈ events, event.Proper) (ordered : Ordered events)
    (room : Along RoTable.step (fun t _ => t.areas.length < maxRoArrayCount) .empty events) :
    (∀ addr, hbIsAddrInRoArea (run RoTable.step .empty events) addr = true ↔
      addr = 0 ∨ ∃ area ∈ liveAreas events, area.start ≤ addr ∧ addr < area.stop) ∧
    (∀ addr, hbIsAddrInKernelRoArea (run RoTable.step .empty events).areas addr = true ↔
      addr = 0 ∨ ∃ area ∈ liveAreas events, area.type = .kernel ∧ area.start ≤ addr ∧ addr < area.stop) ∧
    ∀ start stop, RoEvent.Proper (.delete start stop) → Ordered (events ++ [.delete start stop]) →
      ((hbDeleteRoArea start stop (run RoTable.step .empty events)).1 = 0 ↔
        ∃ area ∈ liveAreas events, area.start = start ∧ area.stop = stop) ∧
      ((hbDeleteRoArea start stop (run RoTable.step .empty events)).1 = 0 →
        ∃ area, area.start = start ∧ area.stop = stop ∧
          liveAreas events = area ::ₘ (hbDeleteRoArea start stop (run RoTable.step .empty events)).2.live) ∧
      ((hbDeleteRoArea start stop (run RoTable.step .empty events)).1 ≠ 0 →
        (hbDeleteRoArea start stop (run RoTable.step .empty events)).2 = run RoTable.step .empty events) := by
  have agrees := run_agrees proper ordered room
  refine ⟨?_,?_,?_⟩
  · intro addr
    rw [hbIsAddrInRoArea_live,agrees.live]
    simp [inArea]
  · intro addr
    rw [agrees.kernel_lookup]
    simp [inArea]
  · intro start stop proper ordered
    have earlier : ∀ event ∈ events, Precedes event (.delete start stop) := fun event member =>
      (List.pairwise_append.mp ordered).2.2 event member _ (by simp)
    refine ⟨(agrees.delete_result proper earlier).1,?_,?_⟩
    all_goals rcases live_delete start stop (run RoTable.step .empty events) with
      ⟨_,missed⟩ | ⟨slot,member,found,zero,split⟩
    · intro zero
      exact absurd zero (by simp [missed])
    · obtain ⟨_,taken⟩ := agrees.hit proper earlier member found
      intro _
      refine ⟨slot,(sameBounds_iff.mp found).1,(sameBounds_iff.mp found).2,?_⟩
      rw [← agrees.live,split,used_taken taken,Multiset.singleton_add]
    · intro _
      rw [missed]
    · exact fun nonzero => absurd zero nonzero

def sampleEvents : List RoEvent :=
  [.add ⟨0x1000,0x3000,.kernel⟩,.add ⟨0x8000,0x9000,.module⟩,.add ⟨0x8000,0x9000,.module⟩,.delete 0x8000 0x9000]

theorem ro_area_lookups_sample :
    (hbIsAddrInRoArea (run RoTable.step .empty sampleEvents) 0x8FFF = true ↔
      (0x8FFF : U64) = 0 ∨ ∃ area ∈ liveAreas sampleEvents, area.start ≤ 0x8FFF ∧ 0x8FFF < area.stop) ∧
    hbIsAddrInRoArea (run RoTable.step .empty sampleEvents) 0x8FFF = true := by
  refine ⟨(ro_area_lookups sampleEvents ?_ ?_ ?_).1 0x8FFF,by decide⟩
  · simp only [sampleEvents,List.forall_mem_cons,RoEvent.Proper]
    refine ⟨by decide,by decide,by decide,by decide,by simp⟩
  · simp [Ordered,sampleEvents,Precedes]
  · simp only [sampleEvents,Along]
    refine ⟨by decide,by decide,by decide,by decide,trivial⟩

end HyperBox.ReadOnly
