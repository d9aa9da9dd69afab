import HyperBox.PageTable.Architecture
import HyperBox.PageTable.Duplicate

/-! The accesses of the processor through a page table: the frame that its walk ends in, with the
write and user flags that all entries of the walk have. What a walk finds depends only on the
entries that it reads, so tables in different pages with the same flags are as good. -/
namespace HyperBox.PageTable
open HyperBox.Library

/-- The end of a walk of the processor. -/
structure ArchLeaf where
  frame : Nat
  writable : Bool
  user : Bool
deriving DecidableEq

namespace ArchLeaf

def ofEntry (frame : Nat) (entry : U64) : ArchLeaf := ⟨frame,entry.getLsbD 1,entry.getLsbD 2⟩

def under (entry : U64) (leaf : ArchLeaf) : ArchLeaf :=
  ⟨leaf.frame,entry.getLsbD 1 && leaf.writable,entry.getLsbD 2 && leaf.user⟩

end ArchLeaf

/-- The reserved bits of a large leaf are clear; at the top level bit 7 is itself reserved. -/
def largeFormatted (level : Nat) (entry : U64) : Bool :=
  level < 3 && archAddress entry / 2 % (512^level / 2) = 0

/-- The walk of the processor with its checks: reserved bits make it fault. -/
def archWalk (mem : Mem) (addr : U64) : Nat → List (Fin 512) → Option ArchLeaf
  | _,[] => none
  | page,[i] =>
    let entry := mem page i
    if isPresent entry then some (.ofEntry (archAddress entry) entry) else none
  | page,i::j::rest =>
    let entry := mem page i
    if !isPresent entry then none
    else if isSizeFlagSet entry then
      if largeFormatted (rest.length + 1) entry then some (.ofEntry (archLargeFrame (rest.length + 1) addr entry) entry)
      else none
    else (archWalk mem addr (archAddress entry) (j::rest)).map (.under entry)

/-- The same from the entries of a walk, with `level` further table levels below the first. -/
def decodeAccess (addr : U64) : Nat → List U64 → Option ArchLeaf
  | _,[] => none
  | 0,entry::_ => if isPresent entry then some (.ofEntry (archAddress entry) entry) else none
  | level+1,entry::rest =>
    if !isPresent entry then none
    else if isSizeFlagSet entry then
      if largeFormatted (level+1) entry then some (.ofEntry (archLargeFrame (level+1) addr entry) entry) else none
    else (decodeAccess addr level rest).map (.under entry)

section Frame
variable {mem : Mem} {addr : U64}

theorem archWalk_frame (page : Nat) (path : List (Fin 512)) :
    (archWalk mem addr page path).map ArchLeaf.frame =
      if formatted mem page path then archFrame mem addr page path else none := by
  have under : ∀ entry (leaf : Option ArchLeaf),
      (leaf.map (ArchLeaf.under entry)).map ArchLeaf.frame = leaf.map ArchLeaf.frame := by
    intro entry leaf
    cases leaf <;> rfl
  fun_induction archWalk mem addr page path with
  | case1 => simp [formatted,archFrame]
  | case2 page i entry present => simp [formatted,archFrame,ArchLeaf.ofEntry,present,entry]
  | case3 page i entry absent => simp [formatted,archFrame,absent,entry]
  | case4 page i j rest entry absent => simp_all [formatted,archFrame,entry]
  | case5 page i j rest entry present large good =>
    simp_all [formatted,archFrame,largeFormatted,ArchLeaf.ofEntry,entry]
    omega
  | case6 page i j rest entry present large bad =>
    have top : rest.length < 2 → rest.length + 1 < 3 := by omega
    simp_all [formatted,archFrame,largeFormatted,entry]
  | case7 page i j rest entry present small ih =>
    rw [under,ih]
    simp_all [formatted,archFrame,entry]

end Frame

section Decode
variable {addr entry : U64} {level : Nat}

theorem decodeAccess_absent (rest : List U64) (absent : isPresent entry = false) :
    decodeAccess addr level (entry::rest) = none := by
  cases level <;> simp [decodeAccess,absent]

theorem decodeAccess_table (rest : List U64) (present : isPresent entry = true) (small : isSizeFlagSet entry = false) :
    decodeAccess addr (level+1) (entry::rest) = (decodeAccess addr level rest).map (.under entry) := by
  simp [decodeAccess,present,small]

theorem under_congr {entry' : U64} (flags : entry'.setWidth 12 = entry.setWidth 12) :
    ArchLeaf.under entry' = ArchLeaf.under entry := by
  funext leaf
  simp only [ArchLeaf.under]
  rw [flag_congr flags (by decide),flag_congr flags (by decide)]

/-- Above the last level only the flags of an entry that links a table are looked at. -/
theorem decodeAccess_congr {entry' : U64} {rest rest' : List U64} (flags : entry'.setWidth 12 = entry.setWidth 12)
    (small : isSizeFlagSet entry = false) (below : decodeAccess addr level rest' = decodeAccess addr level rest) :
    decodeAccess addr (level+1) (entry'::rest') = decodeAccess addr (level+1) (entry::rest) := by
  have present : isPresent entry' = isPresent entry := by
    rw [isPresent_iff,flag_congr flags (by decide),← isPresent_iff]
  have small' : isSizeFlagSet entry' = false := by
    rw [isSizeFlagSet_iff,flag_congr flags (by decide),← isSizeFlagSet_iff,small]
  simp [decodeAccess,present,small,small',below,under_congr flags]

theorem Mirrors.decodeAccess {xs ys : List U64} (h : Mirrors xs ys) (addr : U64) :
    ∀ level, ys.length ≤ level + 1 → decodeAccess addr level xs = decodeAccess addr level ys := by
  induction h with
  | last => exact fun _ _ => rfl
  | table flags small below ih =>
    intro level bound
    cases level with
    | zero => cases below <;> simp at bound
    | succ level => exact decodeAccess_congr flags small (ih level (by simpa using bound))

end Decode

section Trace
variable {mem : Mem} {addr : U64}

theorem archAddress_table {entry : U64} (within : tableOf entry < physicalPages) : archAddress entry = tableOf entry := by
  rw [tableOf_eq,physicalPages] at within
  rw [tableOf_eq,physicalPages]
  omega

/-- Where the tables lie in the physical address space, the processor reads the entries that the
code reads, up to the first that is absent. -/
theorem archWalk_trace (path : List (Fin 512)) : ∀ page : Nat,
    PathWithin tableLink mem page path (fun t => t < physicalPages) →
      archWalk mem addr page path = decodeAccess addr (path.length - 1) (trace tableLink mem page path) := by
  induction path with
  | nil => exact fun _ _ => rfl
  | cons i path ih =>
    intro page within
    cases path with
    | nil => rw [trace_ends (.inr rfl)]; rfl
    | cons j rest =>
      cases present : isPresent (mem page i) with
      | false =>
        rw [trace,decodeAccess_absent _ present]
        simp [archWalk,present]
      | true =>
        cases large : isSizeFlagSet (mem page i) with
        | true =>
          rw [trace_plain _ (tableLink_eq_none.mpr (.inr large))]
          simp [archWalk,decodeAccess,present,large]
        | false =>
          have linked := tableLink_present present large
          have below := ih _ (within.child linked)
          rw [trace_link _ linked]
          simp only [archWalk,present,large,Bool.not_true,Bool.false_eq_true,if_false,List.length_cons,
            Nat.add_sub_cancel] at below ⊢
          rw [archAddress_table (within.child linked).head,below,decodeAccess_table _ present large]

end Trace

section Root
variable (cr4 : U64)

/-- CR4.SMAP. -/
def smap : Bool := cr4.getLsbD 21

/-- A VM exit clears RFLAGS, with it the flag AC that would let root mode reach user pages. -/
def ArchLeaf.loads (leaf : ArchLeaf) : Bool := !(smap cr4 && leaf.user)

/-- Root mode runs with CR0.WP set, so a store needs the write flag at every level. -/
def ArchLeaf.stores (leaf : ArchLeaf) : Bool := leaf.writable && leaf.loads cr4

end Root
end HyperBox.PageTable
