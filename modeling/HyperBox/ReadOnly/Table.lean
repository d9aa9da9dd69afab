import HyperBox.Library.Reuse
import HyperBox.Library.Run
import HyperBox.PageTable.Sync

/-! The array of read-only areas. A freed slot has both bounds zero and keeps its type, and
the kernel lookup stops at the first slot of module type; the order in which the callers
register areas keeps the kernel's slots in front. -/
namespace HyperBox.ReadOnly
open HyperBox.Library HyperBox.PageTable

deriving instance DecidableEq for RoArea

def maxRoArrayCount : Nat := 4096

/-- `g_ro_array` up to `g_ro_array_count`. -/
structure RoTable where
  areas : List RoArea
  inside : areas.length ≤ maxRoArrayCount

def isFree (area : RoArea) : Bool := area.start = 0 && area.stop = 0

def clearBounds (area : RoArea) : RoArea := { area with start := 0, stop := 0 }

section Code
variable (start stop : U64) (t : RoTable)

theorem place_inside {areas : List RoArea} (room : ¬ maxRoArrayCount ≤ areas.length) (area : RoArea) :
    (place isFree area areas).length ≤ maxRoArrayCount := by
  have few := used_le isFree areas
  rw [length_place]
  omega

theorem vacate_inside {hit : RoArea → Bool} {areas : List RoArea}
    (found : vacate hit clearBounds t.areas = some areas) : areas.length ≤ maxRoArrayCount := by
  rcases vacate_cases hit clearBounds t.areas with ⟨_,missed⟩ | ⟨before,slot,after,split,_,cleared⟩
  · rw [missed] at found
    contradiction
  · rw [cleared,Option.some.injEq] at found
    have bound := t.inside
    rw [split] at bound
    simpa [← found] using bound

/-- The capacity is tested before the search for a freed slot. -/
def hbAddRoArea (roType : RoType) : RoTable :=
  if full : maxRoArrayCount ≤ t.areas.length then t
  else ⟨place isFree ⟨start,stop,roType⟩ t.areas,place_inside full _⟩

def sameBounds (area : RoArea) : Bool := area.start = start && area.stop = stop

def hbDeleteRoArea : Int × RoTable :=
  match found : vacate (sameBounds start stop) clearBounds t.areas with
  | some areas => (0,⟨areas,vacate_inside t found⟩)
  | none => (-1,t)

def inArea (addr : U64) (area : RoArea) : Bool := area.start ≤ addr && addr < area.stop

def hbIsAddrInRoArea (addr : U64) : Bool := if addr = 0 then true else t.areas.any (inArea addr)

end Code

inductive RoEvent where
  | add (area : RoArea)
  | delete (start stop : U64)

namespace RoTable

def empty : RoTable := ⟨[],Nat.zero_le _⟩

def step (t : RoTable) : RoEvent → RoTable
  | .add area => hbAddRoArea area.start area.stop t area.type
  | .delete start stop => (hbDeleteRoArea start stop t).2

def live (t : RoTable) : Multiset RoArea := used isFree t.areas

end RoTable

section Steps
variable {t : RoTable} {area : RoArea} {start stop addr : U64}

theorem hbAddRoArea_room (room : t.areas.length < maxRoArrayCount) (area : RoArea) :
    (hbAddRoArea area.start area.stop t area.type).areas = place isFree area t.areas := by
  rw [hbAddRoArea,dif_neg (by omega)]

theorem hbAddRoArea_full (full : t.areas.length = maxRoArrayCount) (start stop : U64) (roType : RoType) :
    hbAddRoArea start stop t roType = t := by
  rw [hbAddRoArea,dif_pos (by omega)]

theorem hbDeleteRoArea_cases (start stop : U64) (t : RoTable) :
    (∀ area ∈ t.areas, sameBounds start stop area = false) ∧ hbDeleteRoArea start stop t = (-1,t) ∨
      ∃ before slot after, t.areas = before ++ slot::after ∧ sameBounds start stop slot = true ∧
        (hbDeleteRoArea start stop t).1 = 0 ∧
        (hbDeleteRoArea start stop t).2.areas = before ++ clearBounds slot::after := by
  rcases vacate_cases (sameBounds start stop) clearBounds t.areas with
    ⟨none,missed⟩ | ⟨before,slot,after,split,found,cleared⟩
  · refine .inl ⟨none,?_⟩
    unfold hbDeleteRoArea
    split
    next areas hit => rw [missed] at hit; contradiction
    next => rfl
  · refine .inr ⟨before,slot,after,split,found,?_⟩
    unfold hbDeleteRoArea
    split
    next areas hit =>
      rw [cleared,Option.some.injEq] at hit
      exact ⟨rfl,hit.symm⟩
    next miss => rw [cleared] at miss; contradiction

theorem sameBounds_iff : sameBounds start stop area = true ↔ area.start = start ∧ area.stop = stop := by
  simp [sameBounds]

theorem isFree_iff : isFree area = true ↔ area.start = 0 ∧ area.stop = 0 := by
  simp [isFree]

theorem isFree_clearBounds (area : RoArea) : isFree (clearBounds area) = true := by
  simp [isFree,clearBounds]

theorem inArea_free (isfree : isFree area = true) (addr : U64) : inArea addr area = false := by
  have bounds := isFree_iff.mp isfree
  simp [inArea,bounds.2]

@[simp] theorem length_delete (start stop : U64) (t : RoTable) :
    (hbDeleteRoArea start stop t).2.areas.length = t.areas.length := by
  rcases hbDeleteRoArea_cases start stop t with ⟨_,same⟩ | ⟨before,slot,after,split,_,_,cleared⟩
  · rw [same]
  · rw [cleared,split]
    simp

/-- A removal takes the slot that it finds out of the live areas, if the slot is in use. -/
theorem live_delete (start stop : U64) (t : RoTable) :
    (∀ area ∈ t.areas, sameBounds start stop area = false) ∧ hbDeleteRoArea start stop t = (-1,t) ∨
      ∃ slot ∈ t.areas, sameBounds start stop slot = true ∧ (hbDeleteRoArea start stop t).1 = 0 ∧
        t.live = used isFree [slot] + (hbDeleteRoArea start stop t).2.live := by
  rcases hbDeleteRoArea_cases start stop t with missed | ⟨before,slot,after,split,found,zero,cleared⟩
  · exact .inl missed
  · refine .inr ⟨slot,by simp [split],found,zero,?_⟩
    rw [RoTable.live,RoTable.live,split,cleared,used_middle,used_middle before (clearBounds slot),
      used_free (isFree_clearBounds slot),zero_add]

theorem live_add (room : t.areas.length < maxRoArrayCount) (area : RoArea) :
    (hbAddRoArea area.start area.stop t area.type).live = used isFree [area] + t.live := by
  rw [RoTable.live,hbAddRoArea_room room,used_place,RoTable.live]

theorem live_added {events : List RoEvent} {area : RoArea}
    (member : area ∈ (run RoTable.step .empty events).live) : .add area ∈ events := by
  induction events using List.reverseRecOn with
  | nil => exact absurd (mem_used.mp member).1 (by simp [RoTable.empty])
  | append_singleton events event ih =>
    rw [run_append,run_cons,run_nil] at member
    set t := run RoTable.step .empty events
    cases event with
    | add other =>
      rw [RoTable.step] at member
      by_cases room : t.areas.length < maxRoArrayCount
      · rw [live_add room,Multiset.mem_add,mem_used,List.mem_singleton] at member
        rcases member with ⟨rfl,_⟩ | old
        · simp
        · exact List.mem_append_left _ (ih old)
      · rw [hbAddRoArea_full (Nat.le_antisymm t.inside (by omega))] at member
        exact List.mem_append_left _ (ih member)
    | delete start stop =>
      rw [RoTable.step] at member
      rcases live_delete start stop t with ⟨_,same⟩ | ⟨slot,_,_,_,split⟩
      · rw [same] at member
        exact List.mem_append_left _ (ih member)
      · exact List.mem_append_left _ (ih (split ▸ Multiset.mem_add.mpr (.inr member)))

theorem hbIsAddrInRoArea_live :
    hbIsAddrInRoArea t addr = true ↔ addr = 0 ∨ ∃ area ∈ t.live, inArea addr area = true := by
  have slots : t.areas.any (inArea addr) = true ↔ ∃ area ∈ t.live, inArea addr area = true := by
    rw [List.any_eq_true]
    constructor
    · rintro ⟨area,member,inside⟩
      refine ⟨area,mem_used.mpr ⟨member,?_⟩,inside⟩
      by_contra freed
      rw [inArea_free (by simpa using freed)] at inside
      contradiction
    · rintro ⟨area,member,inside⟩
      exact ⟨area,(mem_used.mp member).1,inside⟩
  unfold hbIsAddrInRoArea
  by_cases null : addr = 0 <;> simp [null,slots]

end Steps

end HyperBox.ReadOnly
