import HyperBox.Ept.Permission

/-! The size of the RAM that the extended page table is built for. The end of the RAM is looked for
below a page number that is guessed from the number of RAM pages. -/
namespace HyperBox.Ept
open HyperBox.Library

/-- The ranges of page frames that are RAM, as first frame and number of frames. The allocator
has at most these frames. -/
structure RamLayout where
  ranges : List (Nat × Nat)
  nonempty : ∀ range ∈ ranges, 0 < range.2
  disjoint : ranges.Pairwise (fun r q => r.1 + r.2 ≤ q.1 ∨ q.1 + q.2 ≤ r.1)
  totalramPages : Nat
  total : totalramPages ≤ (ranges.map Prod.snd).sum

def clip (startPfn nrPages : Nat) (range : Nat × Nat) : Option (Nat × Nat) :=
  let first := max range.1 startPfn
  let last := min (range.1 + range.2) (startPfn + nrPages)
  if first < last then some (first,last - first) else none

def walkSystemRamRange (layout : RamLayout) (startPfn nrPages : Nat) : List (Nat × Nat) :=
  layout.ranges.filterMap (clip startPfn nrPages)

def rangeEnd (range : Nat × Nat) : Nat := (range.1 + range.2) * 4096

def hbCallbackWalkRam (ramEnd : Nat) (range : Nat × Nat) : Nat :=
  if ramEnd < rangeEnd range then rangeEnd range else ramEnd

/-- The symbol `walk_system_ram_range` may be missing. -/
def hbGetMaxRamSize (symbol : Bool) (layout : RamLayout) : Nat :=
  if symbol then (walkSystemRamRange layout 0 (layout.totalramPages * 2)).foldl hbCallbackWalkRam 0
  else layout.totalramPages * 2 * 4096

def gMaxRamSize (symbol : Bool) (layout : RamLayout) : Nat := maxRamSize (hbGetMaxRamSize symbol layout)

/-- All RAM lies below the size, and every page of it has an entry in the tables for that size. -/
structure RamCovered (layout : RamLayout) (size : Nat) : Prop where
  exceeds : ∀ range ∈ layout.ranges, rangeEnd range < size
  entry : ∀ range ∈ layout.ranges, ∀ page, range.1 ≤ page → page < range.1 + range.2 →
    page / 512 < (hbAllocEptPages size).ptePageCount

/-- An address that is less than a buffer behind another, after that is rounded up. -/
def Buffered (address ramEnd : Nat) : Prop := address < ceil ramEnd (2^30) * 2^30 + 2^30

/-- Every range ends below 5GB or in the buffer behind some RAM that is looked at: the parts of
ranges below twice the number of RAM pages, or that many pages themselves without the symbol. -/
def WindowReaches (symbol : Bool) (layout : RamLayout) : Prop :=
  ∀ range ∈ layout.ranges, rangeEnd range < 5 * 2^30 ∨
    if symbol then ∃ seen ∈ layout.ranges, seen.1 < layout.totalramPages * 2 ∧
      Buffered (rangeEnd range) (min (seen.1 + seen.2) (layout.totalramPages * 2) * 4096)
    else Buffered (rangeEnd range) (layout.totalramPages * 2 * 4096)

theorem lt_maxRamSize_iff (address ramEnd : Nat) :
    address < maxRamSize ramEnd ↔ address < 5 * 2^30 ∨ Buffered address ramEnd := by
  unfold maxRamSize Buffered ceil
  split <;> omega

section Window
variable {layout : RamLayout}

theorem callback_lt_maxRamSize_iff (address ramEnd : Nat) (range : Nat × Nat) :
    address < maxRamSize (hbCallbackWalkRam ramEnd range) ↔
      address < maxRamSize ramEnd ∨ address < maxRamSize (rangeEnd range) := by
  have monotone : ∀ low high, low ≤ high → maxRamSize low ≤ maxRamSize high := by
    intro low high le
    unfold maxRamSize ceil
    split <;> split <;> omega
  unfold hbCallbackWalkRam
  split
  next grows =>
    have le := monotone _ _ (Nat.le_of_lt grows)
    omega
  next stays =>
    have le := monotone _ _ (Nat.le_of_not_lt stays)
    omega

theorem walk_lt_maxRamSize_iff (address : Nat) (ranges : List (Nat × Nat)) (ramEnd : Nat) :
    address < maxRamSize (ranges.foldl hbCallbackWalkRam ramEnd) ↔
      address < maxRamSize ramEnd ∨ ∃ range ∈ ranges, address < maxRamSize (rangeEnd range) := by
  induction ranges generalizing ramEnd with
  | nil => simp
  | cons range rest ih =>
    rw [List.foldl_cons,ih,callback_lt_maxRamSize_iff]
    simp [or_assoc]

theorem clip_window {nrPages : Nat} {range part : Nat × Nat} (nonempty : 0 < range.2) :
    clip 0 nrPages range = some part ↔
      range.1 < nrPages ∧ part = (range.1,min (range.1 + range.2) nrPages - range.1) := by
  unfold clip
  dsimp only
  rw [Nat.max_zero,Nat.zero_add]
  split
  next inside =>
    simp only [Option.some.injEq]
    constructor
    · rintro rfl
      exact ⟨by omega,rfl⟩
    · rintro ⟨_,rfl⟩
      rfl
  next outside =>
    constructor
    · intro none
      cases none
    · rintro ⟨inside,_⟩
      omega

theorem rangeEnd_clipped {start nrPages size : Nat} (inside : start < nrPages) :
    rangeEnd (start,min (start + size) nrPages - start) = min (start + size) nrPages * 4096 := by
  unfold rangeEnd
  dsimp only
  omega

theorem lt_gMaxRamSize_iff (symbol : Bool) (address : Nat) :
    address < gMaxRamSize symbol layout ↔ address < 5 * 2^30 ∨
      if symbol then ∃ seen ∈ layout.ranges, seen.1 < layout.totalramPages * 2 ∧
        Buffered address (min (seen.1 + seen.2) (layout.totalramPages * 2) * 4096)
      else Buffered address (layout.totalramPages * 2 * 4096) := by
  cases symbol with
  | false => simpa [gMaxRamSize,hbGetMaxRamSize] using lt_maxRamSize_iff _ _
  | true =>
    simp only [gMaxRamSize,hbGetMaxRamSize,if_true,walkSystemRamRange,walk_lt_maxRamSize_iff,maxRamSize_zero,
      List.mem_filterMap]
    constructor
    · rintro (low | ⟨part,⟨seen,member,clipped⟩,below⟩)
      · exact .inl low
      · obtain ⟨inside,rfl⟩ := (clip_window (layout.nonempty seen member)).mp clipped
        rw [rangeEnd_clipped inside,lt_maxRamSize_iff] at below
        exact below.imp_right (fun near => ⟨seen,member,inside,near⟩)
    · rintro (low | ⟨seen,member,inside,near⟩)
      · exact .inl low
      · refine .inr ⟨_,⟨seen,member,(clip_window (layout.nonempty seen member)).mpr ⟨inside,rfl⟩⟩,?_⟩
        rw [rangeEnd_clipped inside,lt_maxRamSize_iff]
        exact .inr near

end Window

theorem covered_of_exceeds {layout : RamLayout} {ramEnd : Nat}
    (exceeds : ∀ range ∈ layout.ranges, rangeEnd range < maxRamSize ramEnd) :
    RamCovered layout (maxRamSize ramEnd) := by
  refine ⟨exceeds,?_⟩
  intro range member page _ inside
  have below := exceeds range member
  simp only [hbAllocEptPages,ceil]
  unfold rangeEnd at below
  omega

/-- RAM without holes is covered, and so is RAM in which the holes take no more than it has pages. -/
theorem compact_covered {layout : RamLayout}
    (compact : ∀ range ∈ layout.ranges, range.1 + range.2 ≤ layout.totalramPages * 2) :
    RamCovered layout (gMaxRamSize true layout) := by
  refine covered_of_exceeds (fun range member => (lt_gMaxRamSize_iff true _).mpr (.inr ?_))
  have inside := compact range member
  have pages := layout.nonempty range member
  refine ⟨range,member,by omega,?_⟩
  rw [Nat.min_eq_left inside]
  unfold Buffered ceil rangeEnd
  omega

/-- For every layout of the RAM, the size that the extended page table is built for covers all of
it exactly if no range ends too far behind the window. -/
theorem ram_covered_iff (symbol : Bool) (layout : RamLayout) :
    RamCovered layout (gMaxRamSize symbol layout) ↔ WindowReaches symbol layout := by
  constructor
  · intro covered range member
    exact (lt_gMaxRamSize_iff symbol _).mp (covered.exceeds range member)
  · intro reaches
    exact covered_of_exceeds (fun range member => (lt_gMaxRamSize_iff symbol _).mpr (reaches range member))

section Sample

def sparseRam : RamLayout where
  ranges := [(0,2^20),(100 * 2^18,1)]
  nonempty := by decide
  disjoint := by decide
  totalramPages := 2^20
  total := by decide

theorem sparse_not_covered : gMaxRamSize true sparseRam = 5 * 2^30 ∧
    (hbAllocEptPages (gMaxRamSize true sparseRam)).ptePageCount ≤ 100 * 2^18 / 512 ∧
    ¬ RamCovered sparseRam (gMaxRamSize true sparseRam) := by
  have size : gMaxRamSize true sparseRam = 5 * 2^30 := by decide
  refine ⟨size,by rw [size]; decide,fun covered => ?_⟩
  have exceeds := covered.exceeds (100 * 2^18,1) (by decide)
  rw [size] at exceeds
  exact absurd exceeds (by decide)

end Sample
end HyperBox.Ept
