import HyperBox.Library.Fill
import HyperBox.PageTable.Entry

/-! The extended page table: the table counts of `hb_alloc_ept_pages`, the loops of
`hb_setup_ept_pagetable_4KB` and the processor's walk of the result. RAM is mapped
with 4KB pages, the rest of the 48-bit address space with large pages. -/
namespace HyperBox.Ept
open HyperBox.Library HyperBox.PageTable

inductive EptType where
  | pml4
  | pdptePd
  | pdept
  | pte
deriving DecidableEq

def ceil (x y : Nat) : Nat := (x + y - 1) / y

def maxRamSize (ramEnd : Nat) : Nat :=
  (if ramEnd < 4 * 2^30 then 4 * 2^30 else ceil ramEnd (2^30) * 2^30) + 2^30

structure EptInfo where
  pml4EntCount : Nat
  pdptePdEntCount : Nat
  pdeptEntCount : Nat
  pteEntCount : Nat
  pml4PageCount : Nat
  pdptePdPageCount : Nat
  pdeptPageCount : Nat
  ptePageCount : Nat

def hbAllocEptPages (ramSize : Nat) : EptInfo where
  pml4EntCount := ceil ramSize (512 * 2^30)
  pdptePdEntCount := ceil ramSize (2^30)
  pdeptEntCount := ceil ramSize (2 * 2^20)
  pteEntCount := ceil ramSize (4 * 2^10)
  pml4PageCount := 1
  pdptePdPageCount := 512
  pdeptPageCount := ceil (ceil ramSize (2 * 2^20)) 512
  ptePageCount := ceil (ceil ramSize (4 * 2^10)) 512

def EptInfo.pageCount (info : EptInfo) : EptType → Nat
  | .pml4 => info.pml4PageCount
  | .pdptePd => info.pdptePdPageCount
  | .pdept => info.pdeptPageCount
  | .pte => info.ptePageCount

/-- The page frames of the allocated tables: `virt_to_phys` of the arrays' elements. -/
structure EptPages (info : EptInfo) where
  frame : EptType → Nat → Nat
  bound : ∀ type j, j < info.pageCount type → frame type j < 2^40
  distinct : ∀ type type' j j', j < info.pageCount type → j' < info.pageCount type' →
    frame type j = frame type' j' → type = type' ∧ j = j'

def eptRead : U64 := 0x1
def eptWrite : U64 := 0x2
def eptExecute : U64 := 0x4
def eptAllAccess : U64 := eptRead ||| eptWrite ||| eptExecute
def eptBitMemTypeWb : U64 := 0x6 <<< 3

section Setup
variable {info : EptInfo} (pages : EptPages info)

def hbGetPagetablePhyAddr (type : EptType) (index : Nat) : U64 := frame (pages.frame type index)

def pml4Entry (i : Nat) : U64 := hbGetPagetablePhyAddr pages .pdptePd i ||| eptAllAccess

def largeEntry (baseAddr : U64) : U64 :=
  baseAddr ||| eptAllAccess ||| maskPageSizeFlag ||| eptBitMemTypeWb

def loopCnt (entCount j : Nat) : Nat := min (entCount - j * 512) 512

def pdptePdEntry (j i : Nat) (baseAddr : U64) : U64 :=
  if j * 512 > info.pdptePdEntCount then largeEntry baseAddr
  else if i < loopCnt info.pdptePdEntCount j then
    hbGetPagetablePhyAddr pages .pdept (j * 512 + i) ||| eptAllAccess
  else largeEntry baseAddr

def pdeptEntry (j i : Nat) (baseAddr : U64) : U64 :=
  if i < loopCnt info.pdeptEntCount j then
    hbGetPagetablePhyAddr pages .pte (j * 512 + i) ||| eptAllAccess
  else largeEntry baseAddr

def pteEntry (j i : Nat) : U64 :=
  BitVec.ofNat 64 ((j * 512 + i) * 4096) ||| eptAllAccess ||| eptBitMemTypeWb

def hbCallbackSetWriteBackToRam (start size : Nat) (mem : Mem) : Mem :=
  loop size (fun k mem =>
    let table := pages.frame .pte ((start + k) / 512)
    let index := Fin.ofNat 512 (start + k)
    mem.write table index (mem table index ||| eptBitMemTypeWb)) mem

/-- The ranges are those that `walk_system_ram_range` reports; the symbol may be missing. -/
def hbSetupEptSystemRamRange (ranges : Option (List (Nat × Nat))) (mem : Mem) : Mem :=
  match ranges with
  | none => mem
  | some ranges => ranges.foldl (fun mem range => hbCallbackSetWriteBackToRam pages range.1 range.2 mem) mem

def setupPml4 (mem : Mem) : Mem :=
  (fillTables id 0 info.pml4PageCount (pages.frame .pml4)
    (fun _ i (_ : Unit) => pml4Entry pages i) (mem,())).1

def setupPdptePd (mem : Mem) : Mem :=
  (fillTables (fun baseAddr => baseAddr + val1GB) 0 info.pdptePdPageCount (pages.frame .pdptePd)
    (pdptePdEntry pages) (mem,0)).1

def setupPdept (mem : Mem) : Mem :=
  (fillTables (fun baseAddr => baseAddr + val2MB) 0 info.pdeptPageCount (pages.frame .pdept)
    (pdeptEntry pages) (mem,0)).1

def setupPte (mem : Mem) : Mem :=
  (fillTables id 0 info.ptePageCount (pages.frame .pte)
    (fun j i (_ : Unit) => pteEntry j i) (mem,())).1

def hbSetupEptPagetable4KB (ranges : Option (List (Nat × Nat))) (mem : Mem) : Mem :=
  let mem := setupPml4 pages mem
  let mem := setupPdptePd pages mem
  let mem := setupPdept pages mem
  let mem := setupPte pages mem
  hbSetupEptSystemRamRange pages ranges mem

end Setup

structure EptRights where
  read : Bool
  write : Bool
  execute : Bool
deriving DecidableEq

def EptRights.all : EptRights := ⟨true,true,true⟩

def EptRights.ofEntry (entry : U64) : EptRights :=
  ⟨entry.getLsbD 0,entry.getLsbD 1,entry.getLsbD 2⟩

def EptRights.and (x y : EptRights) : EptRights :=
  ⟨x.read && y.read,x.write && y.write,x.execute && y.execute⟩

structure EptLeaf where
  address : Nat
  rights : EptRights
  memType : Nat
deriving DecidableEq

section Walk

def eptIndex (level a : Nat) : Fin 512 := Fin.ofNat 512 (a / 2^(12 + 9 * level))

/-- The page that an entry at `level` maps: bits 51 to 12+9·level are the address. -/
def leafOf (level a : Nat) (entry : U64) (rights : EptRights) : EptLeaf where
  address := entry.toNat % 2^52 / 2^(12 + 9 * level) * 2^(12 + 9 * level) + a % 2^(12 + 9 * level)
  rights := rights
  memType := entry.toNat / 8 % 8

/-- The processor's walk: the tables it reads and the leaf it reaches. A 4KB entry
without rights is a leaf on which every access faults. -/
def eptWalk (mem : Mem) (a : Nat) : Nat → Nat → EptRights → List Nat × Option EptLeaf
  | 0,table,rights =>
    let entry := mem table (eptIndex 0 a)
    ([table],some (leafOf 0 a entry (rights.and (.ofEntry entry))))
  | level+1,table,rights =>
    let entry := mem table (eptIndex (level+1) a)
    if EptRights.ofEntry entry = ⟨false,false,false⟩ then ([table],none)
    else if level + 1 < 3 ∧ entry.getLsbD 7 then
      ([table],some (leafOf (level+1) a entry (rights.and (.ofEntry entry))))
    else
      let below := eptWalk mem a level (entry.toNat % 2^52 / 4096) (rights.and (.ofEntry entry))
      (table::below.1,below.2)

def eptTranslate {info : EptInfo} (pages : EptPages info) (mem : Mem) (a : Nat) :
    List Nat × Option EptLeaf := eptWalk mem a 3 (pages.frame .pml4 0) .all

end Walk

section Entries

theorem frame_or_toNat {n : Nat} {flags : U64} (bound : n < 2^52) (low : flags.toNat < 4096) :
    (frame n ||| flags).toNat = n * 4096 + flags.toNat := by
  have address : (frame n).toNat = 2^12 * n := by
    simp only [frame,BitVec.toNat_ofNat]
    omega
  rw [BitVec.toNat_or,address,← Nat.two_pow_add_eq_or_of_lt low,Nat.mul_comm]

theorem frame_or_bit {n i : Nat} (flags : U64) (low : i < 12) :
    (frame n ||| flags).getLsbD i = flags.getLsbD i := by
  have clear : (frame n).getLsbD i = false := by
    rw [frame,BitVec.getLsbD_ofNat,show n * 4096 = n * 2^12 by rfl,Nat.testBit_mul_two_pow]
    simp [low]
  rw [BitVec.getLsbD_or,clear,Bool.false_or]

theorem ofEntry_frame (n : Nat) (flags : U64) :
    EptRights.ofEntry (frame n ||| flags) = EptRights.ofEntry flags := by
  unfold EptRights.ofEntry
  rw [frame_or_bit _ (by decide),frame_or_bit _ (by decide),frame_or_bit _ (by decide)]

theorem frame_add (m n : Nat) : frame (m + n) = frame m + frame n := by
  simp only [frame,Nat.add_mul,BitVec.ofNat_add]

theorem iterate_frame (m k : Nat) : (fun base => base + frame m)^[k] 0 = frame (k * m) := by
  induction k with
  | zero => simp [frame]
  | succ k ih => rw [Function.iterate_succ_apply',ih,Nat.succ_mul,frame_add]

theorem largeEntry_frame (n : Nat) : largeEntry (frame n) = frame n ||| 0xB7 := by
  rw [largeEntry,BitVec.or_assoc,BitVec.or_assoc,
    show eptAllAccess ||| (maskPageSizeFlag ||| eptBitMemTypeWb) = 0xB7 by decide]

end Entries

/-- What the tables hold, when the 4KB page `k` has the given flags. -/
structure EptTables {info : EptInfo} (pages : EptPages info) (flags : Nat → U64) (mem : Mem) : Prop where
  pml4 : ∀ i : Fin 512, mem (pages.frame .pml4 0) i = frame (pages.frame .pdptePd i) ||| 0x7
  pdptePd : ∀ j < info.pdptePdPageCount, ∀ i : Fin 512, mem (pages.frame .pdptePd j) i =
    if j * 512 + i < info.pdptePdEntCount then frame (pages.frame .pdept (j * 512 + i)) ||| 0x7
    else frame ((j * 512 + i) * 2^18) ||| 0xB7
  pdept : ∀ j < info.pdeptPageCount, ∀ i : Fin 512, mem (pages.frame .pdept j) i =
    if j * 512 + i < info.pdeptEntCount then frame (pages.frame .pte (j * 512 + i)) ||| 0x7
    else frame ((j * 512 + i) * 2^9) ||| 0xB7
  pte : ∀ j < info.ptePageCount, ∀ i : Fin 512,
    mem (pages.frame .pte j) i = frame (j * 512 + i) ||| flags (j * 512 + i)

section Build
variable {info : EptInfo} {pages : EptPages info}

theorem allAccess_eq : eptAllAccess = 0x7 := by decide

theorem pteEntry_frame (j i : Nat) : pteEntry j i = frame (j * 512 + i) ||| 0x37 := by
  rw [pteEntry,BitVec.or_assoc,show eptAllAccess ||| eptBitMemTypeWb = 0x37 by decide,frame]

theorem pdptePdEntry_frame (j : Nat) (i : Fin 512) :
    pdptePdEntry pages j i (frame ((j * 512 + i) * 2^18)) =
      if j * 512 + i < info.pdptePdEntCount then frame (pages.frame .pdept (j * 512 + i)) ||| 0x7
      else frame ((j * 512 + i) * 2^18) ||| 0xB7 := by
  unfold pdptePdEntry loopCnt
  by_cases linked : j * 512 + i < info.pdptePdEntCount
  · rw [if_neg (by omega),if_pos (by omega),if_pos linked,allAccess_eq,hbGetPagetablePhyAddr]
  · rw [if_neg linked,largeEntry_frame]
    split
    · rfl
    · rw [if_neg (by omega)]

theorem pdeptEntry_frame (j : Nat) (i : Fin 512) :
    pdeptEntry pages j i (frame ((j * 512 + i) * 2^9)) =
      if j * 512 + i < info.pdeptEntCount then frame (pages.frame .pte (j * 512 + i)) ||| 0x7
      else frame ((j * 512 + i) * 2^9) ||| 0xB7 := by
  unfold pdeptEntry loopCnt
  by_cases linked : j * 512 + i < info.pdeptEntCount
  · rw [if_pos (by omega),if_pos linked,allAccess_eq,hbGetPagetablePhyAddr]
  · rw [if_neg (by omega),if_neg linked,largeEntry_frame]

theorem fillTables_other {β : Type} (next : β → β) (type other : EptType) (differ : other ≠ type)
    (entry : Nat → Nat → β → U64) (s : Mem × β) {j : Nat} (within : j < info.pageCount other) :
    (fillTables next 0 (info.pageCount type) (pages.frame type) entry s).1 (pages.frame other j) =
      s.1 (pages.frame other j) := by
  refine (fillTables_spec next 0 (fun a b ha hb same => (pages.distinct _ _ a b ha hb same).2)
    entry s).2 _ ?_
  intro k bound same
  exact differ (pages.distinct _ _ j k within bound same).1

theorem fillTables_own {β : Type} (next : β → β) (type : EptType) (entry : Nat → Nat → β → U64)
    (s : Mem × β) {j : Nat} (within : j < info.pageCount type) (i : Fin 512) :
    (fillTables next 0 (info.pageCount type) (pages.frame type) entry s).1 (pages.frame type j) i =
      entry j i (next^[j * 512 + i] s.2) :=
  (fillTables_spec next 0 (fun a b ha hb same => (pages.distinct _ _ a b ha hb same).2)
    entry s).1 j within i

section Phases
variable (type : EptType) {j : Nat} {mem : Mem}

theorem setupPdptePd_other (differ : type ≠ .pdptePd) (within : j < info.pageCount type) :
    setupPdptePd pages mem (pages.frame type j) = mem (pages.frame type j) :=
  fillTables_other _ .pdptePd type differ _ _ within

theorem setupPdept_other (differ : type ≠ .pdept) (within : j < info.pageCount type) :
    setupPdept pages mem (pages.frame type j) = mem (pages.frame type j) :=
  fillTables_other _ .pdept type differ _ _ within

theorem setupPte_other (differ : type ≠ .pte) (within : j < info.pageCount type) :
    setupPte pages mem (pages.frame type j) = mem (pages.frame type j) :=
  fillTables_other _ .pte type differ _ _ within

theorem setupPml4_own (within : j < info.pml4PageCount) (i : Fin 512) :
    setupPml4 pages mem (pages.frame .pml4 j) i = pml4Entry pages i :=
  fillTables_own id .pml4 (fun _ i (_ : Unit) => pml4Entry pages i) (mem,()) within i

theorem setupPdptePd_own (within : j < info.pdptePdPageCount) (i : Fin 512) :
    setupPdptePd pages mem (pages.frame .pdptePd j) i =
      pdptePdEntry pages j i (frame ((j * 512 + i) * 2^18)) := by
  rw [← iterate_frame,show frame (2^18) = val1GB by decide]
  exact fillTables_own _ .pdptePd (pdptePdEntry pages) (mem,0) within i

theorem setupPdept_own (within : j < info.pdeptPageCount) (i : Fin 512) :
    setupPdept pages mem (pages.frame .pdept j) i =
      pdeptEntry pages j i (frame ((j * 512 + i) * 2^9)) := by
  rw [← iterate_frame,show frame (2^9) = val2MB by decide]
  exact fillTables_own _ .pdept (pdeptEntry pages) (mem,0) within i

theorem setupPte_own (within : j < info.ptePageCount) (i : Fin 512) :
    setupPte pages mem (pages.frame .pte j) i = pteEntry j i :=
  fillTables_own id .pte (fun j i (_ : Unit) => pteEntry j i) (mem,()) within i

end Phases

theorem ramRange_noop {mem : Mem} (ranges : Option (List (Nat × Nat)))
    (wb : ∀ j < info.ptePageCount, ∀ i : Fin 512,
      mem (pages.frame .pte j) i ||| eptBitMemTypeWb = mem (pages.frame .pte j) i)
    (clipped : ∀ list ∈ ranges, ∀ range ∈ list, range.1 + range.2 ≤ info.ptePageCount * 512) :
    hbSetupEptSystemRamRange pages ranges mem = mem := by
  have one : ∀ start size, start + size ≤ info.ptePageCount * 512 →
      hbCallbackSetWriteBackToRam pages start size mem = mem := by
    intro start size bound
    refine loop_invariant (fun _ m => m = mem) rfl ?_
    rintro k inside m rfl
    dsimp only
    rw [wb _ (by omega),Paged.write_same]
  cases ranges with
  | none => rfl
  | some list =>
    have clip := clipped list rfl
    simp only [hbSetupEptSystemRamRange]
    clear clipped
    induction list with
    | nil => rfl
    | cons range rest ih =>
      rw [List.foldl_cons,one _ _ (clip range List.mem_cons_self)]
      exact ih (fun other member => clip other (List.mem_cons_of_mem _ member))

theorem build_tables (one : 0 < info.pml4PageCount) {ranges : Option (List (Nat × Nat))}
    (clipped : ∀ list ∈ ranges, ∀ range ∈ list, range.1 + range.2 ≤ info.ptePageCount * 512)
    (mem : Mem) : EptTables pages (fun _ => 0x37) (hbSetupEptPagetable4KB pages ranges mem) := by
  have tables : EptTables pages (fun _ => 0x37)
      (setupPte pages (setupPdept pages (setupPdptePd pages (setupPml4 pages mem)))) := by
    refine ⟨?_,?_,?_,?_⟩
    · intro i
      rw [setupPte_other .pml4 (by decide) one,setupPdept_other .pml4 (by decide) one,
        setupPdptePd_other .pml4 (by decide) one,setupPml4_own one,pml4Entry,allAccess_eq,
        hbGetPagetablePhyAddr]
    · intro j within i
      rw [setupPte_other .pdptePd (by decide) within,setupPdept_other .pdptePd (by decide) within,
        setupPdptePd_own within,pdptePdEntry_frame]
    · intro j within i
      rw [setupPte_other .pdept (by decide) within,setupPdept_own within,pdeptEntry_frame]
    · intro j within i
      rw [setupPte_own within,pteEntry_frame]
  have same : hbSetupEptPagetable4KB pages ranges mem =
      setupPte pages (setupPdept pages (setupPdptePd pages (setupPml4 pages mem))) := by
    refine ramRange_noop ranges ?_ clipped
    intro j within i
    rw [tables.pte j within i,BitVec.or_assoc,show (0x37 : U64) ||| eptBitMemTypeWb = 0x37 by decide]
  rw [same]
  exact tables

end Build

section Steps
variable {mem : Mem} {a level table t : Nat}

theorem eptIndex_val (level a : Nat) : (eptIndex level a).val = a / 2^(12 + 9 * level) % 512 := rfl

theorem slot_level2 (a : Nat) : a / 2^39 * 512 + (eptIndex 2 a).val = a / 2^30 := by
  rw [eptIndex_val]
  omega

theorem slot_level1 (a : Nat) : a / 2^30 * 512 + (eptIndex 1 a).val = a / 2^21 := by
  rw [eptIndex_val]
  omega

theorem slot_level0 (a : Nat) : a / 2^21 * 512 + (eptIndex 0 a).val = a / 2^12 := by
  rw [eptIndex_val]
  omega

theorem and_all (rights : EptRights) : EptRights.all.and rights = rights := by
  cases rights
  simp [EptRights.and,EptRights.all]

theorem eptWalk_link (entry : mem table (eptIndex (level+1) a) = frame t ||| 0x7) (bound : t < 2^40) :
    eptWalk mem a (level+1) table .all =
      (table :: (eptWalk mem a level t .all).1,(eptWalk mem a level t .all).2) := by
  have rights : EptRights.ofEntry (frame t ||| 0x7) = .all := (ofEntry_frame t 0x7).trans (by decide)
  have small : (frame t ||| 0x7).getLsbD 7 = false := (frame_or_bit 0x7 (by decide)).trans (by decide)
  have next : (frame t ||| 0x7).toNat % 2^52 / 4096 = t := by
    rw [frame_or_toNat (by omega) (by decide),show (0x7 : U64).toNat = 7 by decide]
    omega
  have some : EptRights.all ≠ ⟨false,false,false⟩ := by decide
  simp only [eptWalk,entry,rights,small,next,and_all,if_neg some,Bool.false_eq_true,and_false,if_false]

theorem eptWalk_large (entry : mem table (eptIndex (level+1) a) = frame t ||| 0xB7)
    (size : level + 1 < 3) :
    eptWalk mem a (level+1) table .all =
      ([table],some (leafOf (level+1) a (frame t ||| 0xB7) .all)) := by
  have rights : EptRights.ofEntry (frame t ||| 0xB7) = .all := (ofEntry_frame t 0xB7).trans (by decide)
  have large : (frame t ||| 0xB7).getLsbD 7 = true := (frame_or_bit 0xB7 (by decide)).trans (by decide)
  have some : EptRights.all ≠ ⟨false,false,false⟩ := by decide
  simp only [eptWalk,entry,rights,large,and_all,if_neg some,size,and_self,if_true]

theorem eptWalk_page {flags : U64} (entry : mem table (eptIndex 0 a) = frame t ||| flags) :
    eptWalk mem a 0 table .all =
      ([table],some (leafOf 0 a (frame t ||| flags) (.ofEntry flags))) := by
  simp only [eptWalk,entry,ofEntry_frame,and_all]

end Steps

structure EptInfo.Covers (info : EptInfo) : Prop where
  full : info.pdptePdPageCount = 512
  pdept : ∀ g < info.pdptePdEntCount, g < info.pdeptPageCount
  pte : ∀ m < info.pdeptEntCount, m < info.ptePageCount

theorem hbAllocEptPages_covers (ramSize : Nat) : (hbAllocEptPages ramSize).Covers := by
  refine ⟨rfl,?_,?_⟩
  · intro g bound
    simp only [hbAllocEptPages,ceil] at bound ⊢
    omega
  · intro m bound
    simp only [hbAllocEptPages,ceil] at bound ⊢
    omega

section Translate
variable {info : EptInfo} {pages : EptPages info} {flags : Nat → U64} {mem : Mem} {a : Nat}

def pageLeaf (a : Nat) (flags : U64) : EptLeaf where
  address := a
  rights := .ofEntry flags
  memType := flags.toNat / 8 % 8

theorem leafOf_gigabyte (below : a < 2^48) :
    leafOf (1+1) a (frame (a / 2^30 * 2^18) ||| 0xB7) .all = ⟨a,.all,6⟩ := by
  simp only [leafOf,EptLeaf.mk.injEq,true_and]
  rw [frame_or_toNat (by omega) (by decide),show (0xB7 : U64).toNat = 0xB7 by decide]
  omega

theorem leafOf_megabyte (below : a < 2^48) :
    leafOf (0+1) a (frame (a / 2^21 * 2^9) ||| 0xB7) .all = ⟨a,.all,6⟩ := by
  simp only [leafOf,EptLeaf.mk.injEq,true_and]
  rw [frame_or_toNat (by omega) (by decide),show (0xB7 : U64).toNat = 0xB7 by decide]
  omega

theorem leafOf_page {flags : U64} (below : a < 2^48) (low : flags.toNat < 4096) :
    leafOf 0 a (frame (a / 2^12) ||| flags) (.ofEntry flags) = pageLeaf a flags := by
  simp only [leafOf,pageLeaf,EptLeaf.mk.injEq,true_and]
  rw [frame_or_toNat (by omega) low]
  omega

/-- The tables translate every address to itself. RAM is translated by a 4KB page
with its own flags, everything else by a large page with all rights. -/
theorem EptTables.translate (tables : EptTables pages flags mem) (covers : info.Covers)
    (low : ∀ k, (flags k).toNat < 4096) (below : a < 2^48) :
    eptTranslate pages mem a =
      if info.pdptePdEntCount ≤ a / 2^30 then
        ([pages.frame .pml4 0,pages.frame .pdptePd (a / 2^39)],some ⟨a,.all,6⟩)
      else if info.pdeptEntCount ≤ a / 2^21 then
        ([pages.frame .pml4 0,pages.frame .pdptePd (a / 2^39),pages.frame .pdept (a / 2^30)],
          some ⟨a,.all,6⟩)
      else
        ([pages.frame .pml4 0,pages.frame .pdptePd (a / 2^39),pages.frame .pdept (a / 2^30),
          pages.frame .pte (a / 2^21)],some (pageLeaf a (flags (a / 2^12)))) := by
  have first : a / 2^39 < info.pdptePdPageCount := by rw [covers.full]; omega
  have top : mem (pages.frame .pml4 0) (eptIndex 3 a) = frame (pages.frame .pdptePd (a / 2^39)) ||| 0x7 := by
    rw [tables.pml4,eptIndex_val]
    congr 3
    omega
  rw [eptTranslate,eptWalk_link top (pages.bound _ _ first)]
  have entry2 := tables.pdptePd _ first (eptIndex 2 a)
  rw [slot_level2] at entry2
  by_cases beyond : info.pdptePdEntCount ≤ a / 2^30
  · rw [if_neg (by omega)] at entry2
    rw [if_pos beyond,eptWalk_large entry2 (by decide),leafOf_gigabyte below]
  · rw [if_pos (by omega)] at entry2
    have second := covers.pdept _ (Nat.lt_of_not_le beyond)
    rw [if_neg beyond,eptWalk_link entry2 (pages.bound _ _ second)]
    have entry1 := tables.pdept _ second (eptIndex 1 a)
    rw [slot_level1] at entry1
    by_cases outside : info.pdeptEntCount ≤ a / 2^21
    · rw [if_neg (by omega)] at entry1
      rw [if_pos outside,eptWalk_large entry1 (by decide),leafOf_megabyte below]
    · rw [if_pos (by omega)] at entry1
      have third := covers.pte _ (Nat.lt_of_not_le outside)
      have entry0 := tables.pte _ third (eptIndex 0 a)
      rw [slot_level0] at entry0
      rw [if_neg outside,eptWalk_link entry1 (pages.bound _ _ third),eptWalk_page entry0,
        leafOf_page below (low _)]

def Allocated (pages : EptPages info) (t : Nat) : Prop :=
  ∃ type j, j < info.pageCount type ∧ t = pages.frame type j

theorem EptTables.agree (tables : EptTables pages flags mem) (one : 0 < info.pml4PageCount) {mem' : Mem}
    (same : ∀ t, Allocated pages t → mem' t = mem t) : EptTables pages flags mem' where
  pml4 := by
    rw [same _ ⟨.pml4,0,one,rfl⟩]
    exact tables.pml4
  pdptePd j within := by
    rw [same _ ⟨.pdptePd,j,within,rfl⟩]
    exact tables.pdptePd j within
  pdept j within := by
    rw [same _ ⟨.pdept,j,within,rfl⟩]
    exact tables.pdept j within
  pte j within := by
    rw [same _ ⟨.pte,j,within,rfl⟩]
    exact tables.pte j within

theorem EptTables.reads (tables : EptTables pages flags mem) (covers : info.Covers)
    (one : 0 < info.pml4PageCount) (low : ∀ k, (flags k).toNat < 4096) (below : a < 2^48) :
    ∀ t ∈ (eptTranslate pages mem a).1, Allocated pages t := by
  have root : Allocated pages (pages.frame .pml4 0) := ⟨.pml4,0,one,rfl⟩
  have first : Allocated pages (pages.frame .pdptePd (a / 2^39)) :=
    ⟨.pdptePd,_,(by rw [EptInfo.pageCount,covers.full]; omega),rfl⟩
  rw [tables.translate covers low below]
  split
  · simp only [List.forall_mem_cons,List.not_mem_nil,false_imp_iff,implies_true,root,first,and_self]
  next inside =>
    have second : Allocated pages (pages.frame .pdept (a / 2^30)) :=
      ⟨.pdept,_,covers.pdept _ (Nat.lt_of_not_le inside),rfl⟩
    split
    · simp only [List.forall_mem_cons,List.not_mem_nil,false_imp_iff,implies_true,root,first,second,and_self]
    next deeper =>
      have third : Allocated pages (pages.frame .pte (a / 2^21)) :=
        ⟨.pte,_,covers.pte _ (Nat.lt_of_not_le deeper),rfl⟩
      simp only [List.forall_mem_cons,List.not_mem_nil,false_imp_iff,implies_true,root,first,second,third,and_self]

end Translate

section Ram
variable {ramSize : Nat}

/-- What `walk_system_ram_range` is documented to do: the ranges it reports lie inside
the window that it was asked for. -/
def Clipped (ramSize : Nat) (ranges : Option (List (Nat × Nat))) : Prop :=
  ∀ list ∈ ranges, ∀ range ∈ list, range.1 + range.2 ≤ ramSize / 4096

theorem setup_tables (pages : EptPages (hbAllocEptPages ramSize))
    {ranges : Option (List (Nat × Nat))} (clipped : Clipped ramSize ranges)
    (mem : Mem) : EptTables pages (fun _ => 0x37) (hbSetupEptPagetable4KB pages ranges mem) := by
  refine build_tables Nat.one_pos ?_ mem
  intro list chosen range member
  have bound := clipped list chosen range member
  simp only [hbAllocEptPages,ceil] at bound ⊢
  omega

/-- After the setup the processor maps every address of the 48-bit space to itself with
all rights and the write-back type, and its walks read allocated tables only. -/
theorem ept_setup_identity (pages : EptPages (hbAllocEptPages ramSize))
    {ranges : Option (List (Nat × Nat))} (clipped : Clipped ramSize ranges) (mem : Mem)
    {a : Nat} (below : a < 2^48) :
    (eptTranslate pages (hbSetupEptPagetable4KB pages ranges mem) a).2 = some ⟨a,.all,6⟩ ∧
      ∀ t ∈ (eptTranslate pages (hbSetupEptPagetable4KB pages ranges mem) a).1, Allocated pages t := by
  have covers := hbAllocEptPages_covers ramSize
  have tables := setup_tables pages clipped mem
  have low : (0x37 : U64).toNat < 4096 := by decide
  refine ⟨?_,tables.reads covers Nat.one_pos (fun _ => low) below⟩
  have page : pageLeaf a 0x37 = ⟨a,.all,6⟩ := by
    rw [pageLeaf,show EptRights.ofEntry 0x37 = .all by decide,show (0x37 : U64).toNat / 8 % 8 = 6 by decide]
  rw [tables.translate covers (fun _ => low) below,page]
  split
  · rfl
  · split <;> rfl

theorem maxRamSize_zero : maxRamSize 0 = 5 * 2^30 := by decide

def samplePages : EptPages (hbAllocEptPages (maxRamSize 0)) where
  frame := fun type j =>
    match type with
    | .pml4 => 1 + j
    | .pdptePd => 0x1000 + j
    | .pdept => 0x2000 + j
    | .pte => 0x10000 + j
  bound := fun type j within => by
    cases type <;> simp only [EptInfo.pageCount,hbAllocEptPages,ceil,maxRamSize_zero] at within ⊢ <;> omega
  distinct := fun type type' j j' within within' same => by
    cases type <;> cases type' <;>
      simp only [EptInfo.pageCount,hbAllocEptPages,ceil,maxRamSize_zero] at within within' <;>
      simp at same ⊢ <;> omega

theorem ept_setup_identity_sample :
    (eptTranslate samplePages (hbSetupEptPagetable4KB samplePages (some [(0x100,0x1000)]) (fun _ _ => 0))
        0x123456).2 = some ⟨0x123456,.all,6⟩ ∧
      ∀ t ∈ (eptTranslate samplePages
        (hbSetupEptPagetable4KB samplePages (some [(0x100,0x1000)]) (fun _ _ => 0)) 0x123456).1,
        Allocated samplePages t :=
  ept_setup_identity samplePages (by simp [Clipped,maxRamSize_zero]) (fun _ _ => 0) (by decide)

end Ram

end HyperBox.Ept
