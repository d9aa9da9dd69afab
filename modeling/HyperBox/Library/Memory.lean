import HyperBox.Library.Bytes
import Mathlib.Data.List.FinRange

/-! Words in a flat memory of bytes. A word is eight bytes, the lowest first; addresses wrap
around. Consecutive words are read as a list, which a store outside them leaves alone. -/
namespace HyperBox.Library

abbrev Word := BitVec 64
abbrev Memory := Word → BitVec 8

section Words
variable (mem : Memory) (addr : Word)

def loadWord : Word :=
  (List.finRange 8).foldl (fun word lane => setByte word lane (mem (addr + BitVec.ofNat 64 lane.val))) 0

def storeWord (value : Word) : Memory := fun place =>
  let lane := (place - addr).toNat
  if h : lane < 8 then wordByte value ⟨lane,h⟩ else mem place

/-- The first `n` words from an address on. -/
def loadWords (mem : Memory) (addr : Word) : Nat → List Word
  | 0 => []
  | n+1 => loadWord mem addr::loadWords mem (addr + 8) n

def storeWords (mem : Memory) (addr : Word) : List Word → Memory
  | [] => mem
  | value::values => storeWord (storeWords mem (addr + 8) values) addr value

variable {mem addr}

theorem wordByte_foldl (bytes : Fin 8 → BitVec 8) (lanes : List (Fin 8)) (word : Word) (lane : Fin 8) :
    wordByte (lanes.foldl (fun word lane => setByte word lane (bytes lane)) word) lane =
      if lane ∈ lanes then bytes lane else wordByte word lane := by
  induction lanes generalizing word with
  | nil => rfl
  | cons first rest ih =>
    rw [List.foldl_cons,ih]
    by_cases later : lane ∈ rest
    · simp [later]
    · by_cases here : lane = first
      · subst here
        simp [later,wordByte_setByte_self]
      · simp [later,here,wordByte_setByte_ne]

theorem wordByte_loadWord (lane : Fin 8) : wordByte (loadWord mem addr) lane = mem (addr + BitVec.ofNat 64 lane.val) := by
  rw [loadWord,wordByte_foldl,if_pos (List.mem_finRange lane)]

theorem loadWord_congr {mem' : Memory} {addr' : Word}
    (same : ∀ lane < 8, mem (addr + BitVec.ofNat 64 lane) = mem' (addr' + BitVec.ofNat 64 lane)) :
    loadWord mem addr = loadWord mem' addr' := by
  apply word_ext
  intro lane
  rw [wordByte_loadWord,wordByte_loadWord,same lane.val lane.isLt]

theorem loadWord_storeWord (value : Word) : loadWord (storeWord mem addr value) addr = value := by
  apply word_ext
  intro lane
  have here : (addr + BitVec.ofNat 64 lane.val - addr).toNat = lane.val := by
    have small := lane.isLt
    bv_omega
  rw [wordByte_loadWord,storeWord]
  simp only [here,lane.isLt,dif_pos]

theorem storeWord_elsewhere {place : Word} (value : Word) (apart : 8 ≤ (place - addr).toNat) :
    storeWord mem addr value place = mem place := by
  rw [storeWord,dif_neg (by omega)]

/-- The eight bytes from `other` on lie outside the `n` words from `addr` on. -/
def Outside (addr : Word) (n : Nat) (other : Word) : Prop :=
  8 * n ≤ (other - addr).toNat ∧ (other - addr).toNat + 8 ≤ 2^64

theorem loadWords_store {n : Nat} {other : Word} (value : Word) (apart : Outside addr n other) :
    loadWords (storeWord mem other value) addr n = loadWords mem addr n := by
  induction n generalizing addr with
  | zero => rfl
  | succ n ih =>
    obtain ⟨below,above⟩ := apart
    have head : loadWord (storeWord mem other value) addr = loadWord mem addr := by
      apply loadWord_congr
      intro lane small
      apply storeWord_elsewhere
      bv_omega
    have tail : Outside (addr + 8) n other := by
      unfold Outside
      bv_omega
    rw [loadWords,loadWords,head,ih tail]

theorem loadWord_store {other : Word} (value : Word) (apart : Outside addr 1 other) :
    loadWord (storeWord mem other value) addr = loadWord mem addr := (List.cons.inj (loadWords_store value apart)).1

theorem loadWords_storeWords {values : List Word} (room : 8 * values.length ≤ 2^64) :
    loadWords (storeWords mem addr values) addr values.length = values := by
  induction values generalizing addr with
  | nil => rfl
  | cons value values ih =>
    rw [List.length_cons] at room
    have below : Outside (addr + 8) values.length addr := by
      unfold Outside
      bv_omega
    rw [List.length_cons,loadWords,storeWords,loadWord_storeWord,loadWords_store _ below,ih (by omega)]

@[simp] theorem loadWords_length (n : Nat) : (loadWords mem addr n).length = n := by
  induction n generalizing addr with
  | zero => rfl
  | succ n ih => rw [loadWords,List.length_cons,ih]

theorem loadWords_append (m n : Nat) :
    loadWords mem addr (m + n) = loadWords mem addr m ++ loadWords mem (addr + BitVec.ofNat 64 (8 * m)) n := by
  induction m generalizing addr with
  | zero => simp [loadWords]
  | succ m ih =>
    have next : addr + 8 + BitVec.ofNat 64 (8 * m) = addr + BitVec.ofNat 64 (8 * (m + 1)) := by bv_omega
    rw [show m + 1 + n = m + n + 1 by omega,loadWords,loadWords,List.cons_append,ih,next]

theorem loadWords_split {m n : Nat} {first second : List Word} (size : first.length = m)
    (whole : loadWords mem addr (m + n) = first ++ second) :
    loadWords mem addr m = first ∧ loadWords mem (addr + BitVec.ofNat 64 (8 * m)) n = second := by
  rw [loadWords_append] at whole
  exact List.append_inj whole (by rw [loadWords_length,size])

theorem loadWords_le {mem' : Memory} {m n : Nat} (fewer : m ≤ n) (same : loadWords mem addr n = loadWords mem' addr n) :
    loadWords mem addr m = loadWords mem' addr m := by
  obtain ⟨k,rfl⟩ := Nat.exists_eq_add_of_le fewer
  rw [loadWords_append m k,loadWords_append m k] at same
  exact (List.append_inj same (by simp)).1

end Words

end HyperBox.Library
