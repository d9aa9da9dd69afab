import Mathlib.Data.Fintype.Card

/-! One-shot countdown barriers. A counter starts at the number of parties and every party
decrements it once; a party that finds it at zero knows that all of them have arrived. -/
namespace HyperBox.Library

section Countdown
variable {ι : Type*} [Fintype ι]

def remaining (arrived : ι → Bool) : Nat := (Finset.univ.filter fun party => arrived party = false).card

theorem remaining_none : remaining (fun _ : ι => false) = Fintype.card ι := by
  simp [remaining]

theorem remaining_eq_zero {arrived : ι → Bool} : remaining arrived = 0 ↔ ∀ party, arrived party = true := by
  rw [remaining,Finset.card_eq_zero,Finset.filter_eq_empty_iff]
  simp

theorem remaining_arrive [DecidableEq ι] {arrived : ι → Bool} {party : ι} (absent : arrived party = false) :
    remaining (Function.update arrived party true) + 1 = remaining arrived := by
  have member : party ∈ Finset.univ.filter fun other => arrived other = false := by simp [absent]
  have erased : (Finset.univ.filter fun other => Function.update arrived party true other = false) =
      (Finset.univ.filter fun other => arrived other = false).erase party := by
    ext other
    by_cases same : other = party
    · subst same
      simp
    · simp [same]
  rw [remaining,erased]
  exact Finset.card_erase_add_one member

end Countdown

end HyperBox.Library
