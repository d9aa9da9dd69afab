import Mathlib.Data.Fintype.Card
import Mathlib.Data.Finset.Card

/-! Tables of slots that are searched from the front for a key or for the first free slot,
and never given back. The used slots are then a beginning of the table and hold each key
once, so that a search finds the slot of a key again. -/
namespace HyperBox.Library

section FirstFit
variable {m : Nat} {κ : Type*}

def FirstAt (p : Fin m → Prop) (i : Fin m) : Prop := p i ∧ ∀ j < i, ¬ p j

def Fits (key : Fin m → κ) (free k : κ) (i : Fin m) : Prop := key i = k ∨ key i = free

/-- The used slots come first and no two of them have the same key. -/
structure Packed (key : Fin m → κ) (free : κ) : Prop where
  before : ∀ i j, i ≤ j → key j ≠ free → key i ≠ free
  distinct : ∀ i j, key i ≠ free → key i = key j → i = j

variable {key : Fin m → κ} {free k : κ} {i j : Fin m}

theorem FirstAt.unique {p : Fin m → Prop} (first : FirstAt p i) (other : FirstAt p j) : i = j := by
  rcases lt_trichotomy i j with earlier | same | later
  · exact absurd first.1 (other.2 i earlier)
  · exact same
  · exact absurd other.1 (first.2 j later)

theorem FirstAt.claimed (first : FirstAt (Fits key free k) i) : FirstAt (Fits (Function.update key i k) free k) i := by
  refine ⟨.inl (Function.update_self _ _ _),?_⟩
  intro j earlier
  rw [Fits,Function.update_of_ne earlier.ne]
  exact first.2 j earlier

theorem Packed.empty (none : ∀ i, key i = free) : Packed key free :=
  ⟨fun _ j _ used => absurd (none j) used,fun i _ used => absurd (none i) used⟩

theorem Packed.finds (packed : Packed key free) (used : k ≠ free) (here : key j = k)
    (first : FirstAt (Fits key free k) i) : i = j := by
  rcases first.1 with same | empty
  · exact packed.distinct i j (same ▸ used) (same.trans here.symm)
  · by_contra differ
    rcases lt_or_gt_of_ne differ with earlier | later
    · exact packed.before i j earlier.le (here ▸ used) empty
    · exact first.2 j later (.inl here)

theorem Packed.claim (packed : Packed key free) (used : k ≠ free)
    (first : FirstAt (Fits key free k) i) : Packed (Function.update key i k) free := by
  rcases first.1 with same | empty
  · rwa [← same,Function.update_eq_self]
  · have fresh : ∀ j, key j ≠ k := by
      intro j here
      have found := packed.finds used here first
      subst found
      exact used (here.symm.trans empty)
    constructor
    · intro a b order taken
      by_cases atA : a = i
      · simpa [atA] using used
      · rw [Function.update_of_ne atA]
        by_cases atB : b = i
        · have earlier : a < i := lt_of_le_of_ne (atB ▸ order) atA
          exact fun none => first.2 a earlier (.inr none)
        · rw [Function.update_of_ne atB] at taken
          exact packed.before a b order taken
    · intro a b taken same
      by_cases atA : a = i <;> by_cases atB : b = i
      · exact atA.trans atB.symm
      · rw [atA,Function.update_self,Function.update_of_ne atB] at same
        exact absurd same.symm (fresh b)
      · rw [atB,Function.update_self,Function.update_of_ne atA] at same
        exact absurd same (fresh a)
      · rw [Function.update_of_ne atA] at taken
        rw [Function.update_of_ne atA,Function.update_of_ne atB] at same
        exact packed.distinct a b taken same

theorem Packed.room [DecidableEq κ] (packed : Packed key free) {keys : Finset κ} (size : keys.card ≤ m)
    (inside : ∀ i, key i ≠ free → key i ∈ keys) (member : k ∈ keys) : ∃ i, Fits key free k i := by
  by_contra none
  have full : ∀ i, key i ≠ free ∧ key i ≠ k := by
    intro i
    exact ⟨fun empty => none ⟨i,.inr empty⟩,fun same => none ⟨i,.inl same⟩⟩
  have injective : Function.Injective key := fun a b same => packed.distinct a b (full a).1 same
  have others : Finset.univ.image key ⊆ keys.erase k := by
    intro x seen
    obtain ⟨i,_,rfl⟩ := Finset.mem_image.mp seen
    exact Finset.mem_erase.mpr ⟨(full i).2,inside i (full i).1⟩
  have count := Finset.card_le_card others
  rw [Finset.card_image_of_injective _ injective,Finset.card_univ,Fintype.card_fin,
    Finset.card_erase_of_mem member] at count
  have some : 0 < keys.card := Finset.card_pos.mpr ⟨k,member⟩
  omega

/-- A search finds something exactly for the keys that have a slot, and for all while one is free. -/
theorem Packed.fits_iff [DecidableEq κ] (packed : Packed key free) {keys : Finset κ}
    (exact : ∀ k, k ∈ keys ↔ k ≠ free ∧ ∃ i, key i = k) : (∃ i, Fits key free k i) ↔ k ∈ keys ∨ keys.card < m := by
  have inside : ∀ i, key i ≠ free → key i ∈ keys := fun i used => (exact _).mpr ⟨used,i,rfl⟩
  constructor
  · rintro ⟨i,fits⟩
    by_cases used : key i = free
    · right
      have others : keys ⊆ (Finset.univ.erase i).image key := by
        intro x member
        obtain ⟨real,j,rfl⟩ := (exact x).mp member
        have differ : j ≠ i := fun same => real (same ▸ used)
        exact Finset.mem_image_of_mem key (Finset.mem_erase.mpr ⟨differ,Finset.mem_univ j⟩)
      have count := (Finset.card_le_card others).trans Finset.card_image_le
      rw [Finset.card_erase_of_mem (Finset.mem_univ i),Finset.card_univ,Fintype.card_fin] at count
      have some : 0 < m := i.pos
      omega
    · left
      rw [← fits.resolve_right used]
      exact inside i used
  · rintro (member | room)
    · obtain ⟨_,i,here⟩ := (exact k).mp member
      exact ⟨i,.inl here⟩
    · by_contra none
      have used : ∀ i, key i ≠ free := fun i empty => none ⟨i,.inr empty⟩
      have injective : Function.Injective key := fun i j same => packed.distinct i j (used i) same
      have all : Finset.univ.image key ⊆ keys := by
        intro x seen
        obtain ⟨i,_,rfl⟩ := Finset.mem_image.mp seen
        exact inside i (used i)
      have count := Finset.card_le_card all
      rw [Finset.card_image_of_injective _ injective,Finset.card_univ,Fintype.card_fin] at count
      omega

theorem Packed.claim_exact [DecidableEq κ] {keys : Finset κ} (exact : ∀ k, k ∈ keys ↔ k ≠ free ∧ ∃ i, key i = k)
    (used : k ≠ free) (first : FirstAt (Fits key free k) i) (x : κ) :
    x ∈ insert k keys ↔ x ≠ free ∧ ∃ j, Function.update key i k j = x := by
  rw [Finset.mem_insert,exact]
  constructor
  · rintro (rfl | ⟨real,j,rfl⟩)
    · exact ⟨used,i,Function.update_self _ _ _⟩
    · refine ⟨real,?_⟩
      by_cases here : j = i
      · have same := first.1.resolve_right (here ▸ real)
        exact ⟨i,by rw [Function.update_self,here,same]⟩
      · exact ⟨j,Function.update_of_ne here _ _⟩
  · rintro ⟨real,j,rfl⟩
    by_cases here : j = i
    · rw [here,Function.update_self]
      exact .inl rfl
    · rw [Function.update_of_ne here] at real ⊢
      exact .inr ⟨real,j,rfl⟩

end FirstFit

end HyperBox.Library
