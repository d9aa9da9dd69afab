import Mathlib.Algebra.Order.Group.Multiset

/-! Tables of slots in which a freed slot is used again before the table grows. The entries in
use form a multiset; the length of the table is the largest number of them that a new entry
has met, and itself. -/
namespace HyperBox.Library

section Reuse
variable {α : Type*} (free hit : α → Bool) (clear : α → α) (x : α) (slots : List α)

/-- The new entry goes into the first free slot, or behind the last one. -/
def place : List α :=
  if slots.findIdx free = slots.length then slots ++ [x] else slots.set (slots.findIdx free) x

/-- The first slot that is hit is cleared. -/
def vacate : Option (List α) :=
  if slots.findIdx hit = slots.length then none else some (slots.modify (slots.findIdx hit) clear)

def used : Multiset α := slots.filter (fun slot => !free slot)

variable {free hit clear x slots}

theorem findIdx_split (hit : α → Bool) (slots : List α) :
    (∀ slot ∈ slots, hit slot = false) ∧ slots.findIdx hit = slots.length ∨
      ∃ before slot after, slots = before ++ slot::after ∧ hit slot = true ∧
        (∀ other ∈ before, hit other = false) ∧ slots.findIdx hit = before.length := by
  induction slots with
  | nil => exact .inl ⟨by simp,rfl⟩
  | cons first rest ih =>
    cases here : hit first with
    | true => exact .inr ⟨[],first,rest,rfl,here,by simp,by simp [List.findIdx_cons,here]⟩
    | false =>
      rcases ih with ⟨none,last⟩ | ⟨before,slot,after,split,found,earlier,place⟩
      · exact .inl ⟨List.forall_mem_cons.mpr ⟨here,none⟩,by simp [List.findIdx_cons,here,last]⟩
      · refine .inr ⟨first::before,slot,after,by rw [split,List.cons_append],found,
          List.forall_mem_cons.mpr ⟨here,earlier⟩,?_⟩
        simp [List.findIdx_cons,here,place]

theorem place_cases (free : α → Bool) (x : α) (slots : List α) :
    (∀ slot ∈ slots, free slot = false) ∧ place free x slots = slots ++ [x] ∨
      ∃ before slot after, slots = before ++ slot::after ∧ free slot = true ∧
        place free x slots = before ++ x::after := by
  rcases findIdx_split free slots with ⟨none,last⟩ | ⟨before,slot,after,split,found,_,index⟩
  · exact .inl ⟨none,if_pos last⟩
  · have inside : slots.findIdx free ≠ slots.length := by
      rw [index,split,List.length_append,List.length_cons]
      omega
    refine .inr ⟨before,slot,after,split,found,?_⟩
    rw [place,if_neg inside,index,split,List.set_append_right _ _ le_rfl]
    simp

theorem vacate_cases (hit : α → Bool) (clear : α → α) (slots : List α) :
    (∀ slot ∈ slots, hit slot = false) ∧ vacate hit clear slots = none ∨
      ∃ before slot after, slots = before ++ slot::after ∧ hit slot = true ∧
        vacate hit clear slots = some (before ++ clear slot::after) := by
  rcases findIdx_split hit slots with ⟨none,last⟩ | ⟨before,slot,after,split,found,_,index⟩
  · exact .inl ⟨none,if_pos last⟩
  · have inside : slots.findIdx hit ≠ slots.length := by
      rw [index,split,List.length_append,List.length_cons]
      omega
    refine .inr ⟨before,slot,after,split,found,?_⟩
    have bound : before.length < (before ++ slot::after).length := by
      rw [List.length_append,List.length_cons]
      omega
    rw [vacate,if_neg inside,index,split,List.modify_eq_take_cons_drop bound]
    simp

theorem mem_used {y : α} : y ∈ used free slots ↔ y ∈ slots ∧ free y = false := by
  simp [used]

theorem used_middle (before : List α) (slot : α) (after : List α) :
    used free (before ++ slot::after) = used free [slot] + (used free before + used free after) := by
  simp only [used,List.filter_append,List.filter_cons,List.filter_nil,← Multiset.coe_add]
  cases free slot with
  | true => simp
  | false =>
    simp only [Bool.not_false,if_true,Multiset.coe_add,Multiset.coe_eq_coe]
    exact List.perm_middle

theorem used_free {slot : α} (isFree : free slot = true) : used free [slot] = 0 := by
  simp [used,isFree]

theorem used_taken {slot : α} (taken : free slot = false) : used free [slot] = {slot} := by
  simp [used,taken]

theorem used_place : used free (place free x slots) = used free [x] + used free slots := by
  rcases place_cases free x slots with ⟨_,placed⟩ | ⟨before,slot,after,rfl,isFree,placed⟩
  · rw [placed,used_middle]
    simp [used]
  · rw [placed,used_middle,used_middle,used_free isFree,zero_add]

theorem used_le (free : α → Bool) (slots : List α) : (used free slots).card ≤ slots.length := by
  rw [used,Multiset.coe_card]
  exact List.length_filter_le _ _

theorem used_full (none : ∀ slot ∈ slots, free slot = false) : (used free slots).card = slots.length := by
  have all : slots.filter (fun slot => !free slot) = slots := by
    rw [List.filter_eq_self]
    intro slot member
    rw [none slot member]
    rfl
  rw [used,all,Multiset.coe_card]

/-- The table grows only when every slot is in use. -/
theorem length_place (free : α → Bool) (x : α) (slots : List α) :
    (place free x slots).length = max slots.length ((used free slots).card + 1) := by
  rcases place_cases free x slots with ⟨none,placed⟩ | ⟨before,slot,after,rfl,isFree,placed⟩
  · rw [placed,used_full none,List.length_append,List.length_singleton]
    omega
  · have fewer := used_le free (before ++ after)
    rw [placed,used_middle,used_free isFree]
    simp only [used,zero_add,Multiset.coe_add,Multiset.coe_card,← List.filter_append,List.length_append,
      List.length_cons] at fewer ⊢
    omega

end Reuse

end HyperBox.Library
