import HyperBox.Library.Paged
import Mathlib.Data.BitVec

/-! Bytes of a paged memory of 64-bit words. A list of byte stores to different places
leaves a set of pages as it is exactly if it stores there what they hold. -/
namespace HyperBox.Library

section Words
variable (word : BitVec 64) (lane : Fin 8) (value : BitVec 8)

def wordByte : BitVec 8 := (word >>> (8 * lane.val)).setWidth 8

def setByte : BitVec 64 :=
  (word &&& ~~~((0xFF : BitVec 64) <<< (8 * lane.val))) ||| (value.setWidth 64 <<< (8 * lane.val))

theorem wordByte_bit {j : Nat} (low : j < 8) : (wordByte word lane).getLsbD j = word.getLsbD (8 * lane.val + j) := by
  simp [wordByte,low]

theorem byteMask_bit (j : Nat) : (0xFF : BitVec 64).getLsbD j = decide (j < 8) := by
  rw [show (0xFF : BitVec 64) = BitVec.ofNat 64 (2^8 - 1) by rfl,BitVec.getLsbD_ofNat,Nat.testBit_two_pow_sub_one]
  by_cases low : j < 8
  · simp [low,Nat.lt_trans low (show 8 < 64 by decide)]
  · simp [low]

theorem setByte_bit {i : Nat} (bound : i < 64) :
    (setByte word lane value).getLsbD i =
      if i / 8 = lane.val then value.getLsbD (i % 8) else word.getLsbD i := by
  simp only [setByte,BitVec.getLsbD_or,BitVec.getLsbD_and,BitVec.getLsbD_not,BitVec.getLsbD_shiftLeft,
    BitVec.getLsbD_setWidth,byteMask_bit,bound,decide_true,Bool.true_and]
  by_cases below : i < 8 * lane.val
  · have other : i / 8 ≠ lane.val := by omega
    simp [below,other]
  · by_cases inside : i - 8 * lane.val < 8
    · have same : i / 8 = lane.val := by omega
      have rest : i - 8 * lane.val = i % 8 := by omega
      have small : i % 8 < 64 := by omega
      have low : i % 8 < 8 := by omega
      simp [below,same,rest,small,low]
    · have other : i / 8 ≠ lane.val := by omega
      have clear : value.getLsbD (i - 8 * lane.val) = false := BitVec.getLsbD_of_ge _ _ (by omega)
      simp [below,inside,other,clear]

theorem wordByte_setByte_self : wordByte (setByte word lane value) lane = value := by
  apply BitVec.eq_of_getLsbD_eq
  intro j low
  have same : (8 * lane.val + j) / 8 = lane.val := by omega
  have rest : (8 * lane.val + j) % 8 = j := by omega
  rw [wordByte_bit _ _ low,setByte_bit _ _ _ (by omega),if_pos same,rest]

theorem wordByte_setByte_ne {other : Fin 8} (differ : other ≠ lane) :
    wordByte (setByte word lane value) other = wordByte word other := by
  apply BitVec.eq_of_getLsbD_eq
  intro j low
  have apart : (8 * other.val + j) / 8 ≠ lane.val := by
    intro same
    exact differ (Fin.ext (by omega))
  rw [wordByte_bit _ _ low,setByte_bit _ _ _ (by omega),if_neg apart,wordByte_bit _ _ low]

variable {word}

theorem word_ext {word' : BitVec 64} (same : ∀ lane, wordByte word lane = wordByte word' lane) : word = word' := by
  apply BitVec.eq_of_getLsbD_eq
  intro i bound
  have byte := congrArg (fun byte => byte.getLsbD (i % 8)) (same ⟨i / 8,by omega⟩)
  have place : 8 * (i / 8) + i % 8 = i := by omega
  simpa only [wordByte_bit _ _ (show i % 8 < 8 by omega),place] using byte

end Words

structure ByteLoc (w : Nat) where
  page : Nat
  slot : Fin w
  lane : Fin 8
deriving DecidableEq

section Stores
variable {w : Nat}

def readByte (mem : Paged w (BitVec 64)) (loc : ByteLoc w) : BitVec 8 := wordByte (mem loc.page loc.slot) loc.lane

def writeByte (mem : Paged w (BitVec 64)) (loc : ByteLoc w) (value : BitVec 8) : Paged w (BitVec 64) :=
  mem.write loc.page loc.slot (setByte (mem loc.page loc.slot) loc.lane value)

def storeBytes (mem : Paged w (BitVec 64)) (stores : List (ByteLoc w × BitVec 8)) : Paged w (BitVec 64) :=
  run (fun mem store => writeByte mem store.1 store.2) mem stores

variable {mem : Paged w (BitVec 64)} {loc : ByteLoc w} {stores : List (ByteLoc w × BitVec 8)}

theorem readByte_writeByte_self (value : BitVec 8) : readByte (writeByte mem loc value) loc = value := by
  rw [readByte,writeByte,Paged.write_self,wordByte_setByte_self]

theorem readByte_writeByte_ne {other : ByteLoc w} (value : BitVec 8) (differ : other ≠ loc) :
    readByte (writeByte mem loc value) other = readByte mem other := by
  unfold readByte writeByte
  by_cases here : other.page = loc.page ∧ other.slot = loc.slot
  · obtain ⟨page,slot⟩ := here
    have lane : other.lane ≠ loc.lane := by
      intro lane
      cases other
      cases loc
      simp_all
    rw [page,slot,Paged.write_self,wordByte_setByte_ne _ _ _ lane]
  · rw [Paged.write_ne _ _ here]

theorem storeBytes_elsewhere (apart : ∀ store ∈ stores, store.1 ≠ loc) :
    readByte (storeBytes mem stores) loc = readByte mem loc := by
  induction stores generalizing mem with
  | nil => rfl
  | cons store rest ih =>
    rw [storeBytes,run_cons,← storeBytes,ih (fun store member => apart store (by simp [member])),
      readByte_writeByte_ne _ (Ne.symm (apart store (by simp)))]

theorem storeBytes_stored (distinct : (stores.map Prod.fst).Nodup) {store : ByteLoc w × BitVec 8}
    (member : store ∈ stores) : readByte (storeBytes mem stores) store.1 = store.2 := by
  induction stores generalizing mem with
  | nil => simp at member
  | cons first rest ih =>
    rw [List.map_cons,List.nodup_cons] at distinct
    rw [storeBytes,run_cons,← storeBytes]
    rcases List.mem_cons.mp member with rfl | later
    · have apart : ∀ other ∈ rest, other.1 ≠ store.1 :=
        fun other inside same => distinct.1 (same ▸ List.mem_map_of_mem inside)
      rw [storeBytes_elsewhere apart,readByte_writeByte_self]
    · exact ih distinct.2 later

theorem page_ext {mem' : Paged w (BitVec 64)} {page : Nat}
    (same : ∀ slot lane, readByte mem ⟨page,slot,lane⟩ = readByte mem' ⟨page,slot,lane⟩) : mem page = mem' page := by
  funext slot
  exact word_ext (same slot)

theorem storeBytes_page {page : Nat} (apart : ∀ store ∈ stores, store.1.page ≠ page) :
    storeBytes mem stores page = mem page := by
  apply page_ext
  intro slot lane
  exact storeBytes_elsewhere (fun store member same => apart store member (by rw [same]))

theorem storeBytes_unchanged_iff (distinct : (stores.map Prod.fst).Nodup) (D : Nat → Prop) :
    (∀ page, D page → storeBytes mem stores page = mem page) ↔
      ∀ store ∈ stores, D store.1.page → readByte mem store.1 = store.2 := by
  constructor
  · intro unchanged store member denied
    rw [← storeBytes_stored distinct member,readByte,readByte,unchanged _ denied]
  · intro held page denied
    apply page_ext
    intro slot lane
    by_cases hit : ∃ store ∈ stores, store.1 = ⟨page,slot,lane⟩
    · obtain ⟨store,member,here⟩ := hit
      have stays := held store member (by rw [here]; exact denied)
      rw [← here,storeBytes_stored distinct member,stays]
    · exact storeBytes_elsewhere (fun store member here => hit ⟨store,member,here⟩)

theorem storeBytes_append_iff {more : List (ByteLoc w × BitVec 8)}
    (distinct : ((stores ++ more).map Prod.fst).Nodup) :
    storeBytes mem (stores ++ more) = storeBytes mem stores ↔ ∀ store ∈ more, readByte mem store.1 = store.2 := by
  rw [List.map_append,List.nodup_append] at distinct
  obtain ⟨_,later,apart⟩ := distinct
  have joined : storeBytes mem (stores ++ more) = storeBytes (storeBytes mem stores) more := by
    simp only [storeBytes,run_append]
  have kept : ∀ store ∈ more, readByte (storeBytes mem stores) store.1 = readByte mem store.1 := by
    intro store member
    apply storeBytes_elsewhere
    intro earlier inside
    exact apart _ (List.mem_map_of_mem inside) _ (List.mem_map_of_mem member)
  have unchanged : (∀ page, True → storeBytes (storeBytes mem stores) more page = storeBytes mem stores page) ↔
      ∀ store ∈ more, True → readByte (storeBytes mem stores) store.1 = store.2 :=
    storeBytes_unchanged_iff later (fun _ => True)
  rw [joined]
  constructor
  · intro same store member
    rw [← kept store member]
    exact unchanged.mp (fun page _ => congrFun same page) store member trivial
  · intro holds
    funext page
    refine unchanged.mpr (fun store member _ => ?_) page trivial
    rw [kept store member,holds store member]

end Stores

end HyperBox.Library
