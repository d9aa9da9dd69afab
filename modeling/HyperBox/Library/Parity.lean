import Mathlib.Data.BitVec

/-! The exclusive or of a list of words. It has a bit set exactly when an odd number of the
words have it, so it is zero when every bit occurs an even number of times. -/
namespace HyperBox.Library

section Parity
variable {w : Nat}

def xorAll (words : List (BitVec w)) : BitVec w := words.foldr (· ^^^ ·) 0

def bitCount (words : List (BitVec w)) (bit : Nat) : Nat := words.countP (fun word => word.getLsbD bit)

theorem xorAll_bit (words : List (BitVec w)) (bit : Nat) :
    (xorAll words).getLsbD bit = true ↔ bitCount words bit % 2 = 1 := by
  induction words with
  | nil => simp [xorAll,bitCount]
  | cons word words ih =>
    have step : xorAll (word::words) = word ^^^ xorAll words := rfl
    rw [step,BitVec.getLsbD_xor,bitCount,List.countP_cons]
    change _ ↔ (bitCount words bit + _) % 2 = 1
    cases here : word.getLsbD bit with
    | false => simp [ih]
    | true =>
      simp only [Bool.true_xor,Bool.not_eq_true',← Bool.not_eq_true,ih,if_true]
      omega

theorem xorAll_eq_zero (words : List (BitVec w)) :
    xorAll words = 0 ↔ ∀ bit < w, bitCount words bit % 2 = 0 := by
  have bits : xorAll words = 0 ↔ ∀ bit < w, ¬ (xorAll words).getLsbD bit = true := by
    constructor
    · intro zero bit _
      simp [zero]
    · intro clear
      apply BitVec.eq_of_getLsbD_eq
      intro bit bound
      simpa using clear bit bound
  rw [bits]
  apply forall_congr'
  intro bit
  apply forall_congr'
  intro _
  rw [xorAll_bit]
  omega

end Parity

end HyperBox.Library
