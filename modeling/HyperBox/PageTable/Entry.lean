import HyperBox.Library.Paged
import Mathlib.Data.BitVec

/-! Page-table entries and the software walk `hb_get_phy_from_log`. Memory is
physical and made of pages of 512 entries; `phys_to_virt` of an address is the
page it lies in. The walk is related to the radix tables of the library. -/
namespace HyperBox.PageTable
open HyperBox.Library

abbrev U64 := BitVec 64
abbrev Mem := Paged 512 U64

instance slots_neZero : NeZero 512 := ⟨by decide⟩

def val4KB : U64 := 0x1000
def val2MB : U64 := 0x200000
def val1GB : U64 := 0x40000000
def val1TB : U64 := 0x10000000000

def maskPageflag : U64 := 0xFF00000000000FFF
def maskPageSizeFlag : U64 := 0x80
def maskPageflagWoSize : U64 := maskPageflag ^^^ maskPageSizeFlag
def maskPresentFlag : U64 := 0x1

def isPresent (x : U64) : Bool := x &&& maskPresentFlag ≠ 0
def isSizeFlagSet (x : U64) : Bool := x &&& maskPageSizeFlag ≠ 0
def getAddr (x : U64) : U64 := x &&& ~~~maskPageflag

def pageOf (x : U64) : Nat := x.toNat / 4096

def tableOf (entry : U64) : Nat := pageOf (getAddr entry)

def frame (n : Nat) : U64 := BitVec.ofNat 64 (n * 4096)

def pml4Index (addr : U64) : Fin 512 := Fin.ofNat 512 (addr.toNat / 2^39)
def pdptePdIndex (addr : U64) : Fin 512 := Fin.ofNat 512 (addr.toNat / 2^30)
def pdeptIndex (addr : U64) : Fin 512 := Fin.ofNat 512 (addr.toNat / 2^21)
def pteIndex (addr : U64) : Fin 512 := Fin.ofNat 512 (addr.toNat / 2^12)

def indexes (addr : U64) : List (Fin 512) :=
  [pml4Index addr,pdptePdIndex addr,pdeptIndex addr,pteIndex addr]

def scaled (index : Fin 512) (size : U64) : U64 := BitVec.ofNat 64 index.val * size

structure PageEntry where
  phyAddr0 : U64
  phyAddr1 : U64
  phyAddr2 : U64
  phyAddr3 : U64

def hbGetPhyFromLog (mem : Mem) (pml4PhyAddr addr : U64) : PageEntry :=
  let value0 := mem (pageOf pml4PhyAddr) (pml4Index addr)
  if !isPresent value0 then ⟨value0,0,0,0⟩
  else if isSizeFlagSet value0 then
    ⟨value0,0,0,(getAddr value0 + (scaled (pdptePdIndex addr) val1GB +
      scaled (pdeptIndex addr) val2MB + scaled (pteIndex addr) val4KB)) |||
      (value0 &&& maskPageflagWoSize)⟩
  else
    let value1 := mem (tableOf value0) (pdptePdIndex addr)
    if !isPresent value1 then ⟨value0,value1,0,0⟩
    else if isSizeFlagSet value1 then
      ⟨value0,value1,0,(getAddr value1 + (scaled (pdeptIndex addr) val2MB +
        scaled (pteIndex addr) val4KB)) ||| (value1 &&& maskPageflagWoSize)⟩
    else
      let value2 := mem (tableOf value1) (pdeptIndex addr)
      if !isPresent value2 then ⟨value0,value1,value2,0⟩
      else if isSizeFlagSet value2 then
        ⟨value0,value1,value2,(getAddr value2 + scaled (pteIndex addr) val4KB) |||
          (value2 &&& maskPageflagWoSize)⟩
      else ⟨value0,value1,value2,mem (tableOf value2) (pteIndex addr)⟩

def leafMapping (mem : Mem) (pml4PhyAddr addr : U64) : Option U64 :=
  let leaf := (hbGetPhyFromLog mem pml4PhyAddr addr).phyAddr3
  if isPresent leaf then some leaf else none

/-- The entries that the code treats as pointing to a further table. -/
def tableLink (entry : U64) : Option Nat :=
  if entry = 0 ∨ isSizeFlagSet entry then none else some (tableOf entry)

def largeOffset (level : Nat) (addr : U64) : U64 :=
  match level with
  | 0 => 0
  | 1 => scaled (pteIndex addr) val4KB
  | 2 => scaled (pdeptIndex addr) val2MB + scaled (pteIndex addr) val4KB
  | _ => scaled (pdptePdIndex addr) val1GB + scaled (pdeptIndex addr) val2MB +
      scaled (pteIndex addr) val4KB

/-- The value of `phy_addr[3]` that a sequence of entries read by a walk amounts to. -/
def walkLeaf (addr : U64) : Nat → List U64 → U64
  | _,[] => 0
  | 0,entry::_ => entry
  | level+1,entry::rest =>
    if !isPresent entry then 0
    else if isSizeFlagSet entry then
      (getAddr entry + largeOffset (level+1) addr) ||| (entry &&& maskPageflagWoSize)
    else walkLeaf addr level rest

/-- The leaf that a sequence of entries read by a walk amounts to, with `level`
further table levels below the first of them. -/
def decodeLeaf (addr : U64) : Nat → List U64 → Option U64
  | _,[] => none
  | 0,entry::_ => if isPresent entry then some entry else none
  | level+1,entry::rest =>
    if !isPresent entry then none
    else if isSizeFlagSet entry then
      some ((getAddr entry + largeOffset (level+1) addr) ||| (entry &&& maskPageflagWoSize))
    else decodeLeaf addr level rest

def leafFrom (mem : Mem) (addr : U64) (page : Nat) (path : List (Fin 512)) : Option U64 :=
  decodeLeaf addr (path.length - 1) (trace tableLink mem page path)

def linkEntry (page flags : U64) : U64 := getAddr page ||| (flags &&& maskPageflag)

section Flags

theorem flag_iff (x : U64) (k : Nat) (bound : k < 64) :
    decide (x &&& BitVec.twoPow 64 k ≠ 0) = x.getLsbD k := by
  rw [BitVec.and_twoPow]
  cases x.getLsbD k with
  | false => simp
  | true =>
    have nonzero : BitVec.twoPow 64 k ≠ 0#64 := fun zero => by
      have bit := congrArg (fun y => BitVec.getLsbD y k) zero
      simp [bound] at bit
    simpa using nonzero

theorem isPresent_iff (x : U64) : isPresent x = x.getLsbD 0 := flag_iff x 0 (by decide)

theorem isSizeFlagSet_iff (x : U64) : isSizeFlagSet x = x.getLsbD 7 := flag_iff x 7 (by decide)

theorem flag_low (x : U64) (k : Nat) (bound : k < 12) : x.getLsbD k = (x.setWidth 12).getLsbD k := by
  simp [bound]

theorem present_nonzero {x : U64} (present : isPresent x = true) : x ≠ 0#64 := by
  rintro rfl
  exact absurd present (by decide)

theorem tableLink_present {x : U64} (present : isPresent x = true) (small : isSizeFlagSet x = false) :
    tableLink x = some (tableOf x) := by
  simp [tableLink,present_nonzero present,small]

theorem scaled_low (index : Fin 512) (size : U64) (aligned : size.setWidth 12 = 0#12) :
    (scaled index size).setWidth 12 = 0#12 := by
  unfold scaled
  rw [BitVec.setWidth_mul _ _ (by decide),aligned,BitVec.mul_zero]

theorem largeOffset_low (level : Nat) (addr : U64) : (largeOffset level addr).setWidth 12 = 0#12 := by
  have small := scaled_low (pteIndex addr) val4KB (by decide)
  have middle := scaled_low (pdeptIndex addr) val2MB (by decide)
  have large := scaled_low (pdptePdIndex addr) val1GB (by decide)
  unfold largeOffset
  split
  · decide
  · exact small
  · rw [BitVec.setWidth_add _ _ (by decide),small,middle]
    decide
  · rw [BitVec.setWidth_add _ _ (by decide),BitVec.setWidth_add _ _ (by decide),small,middle,large]
    decide

theorem getAddr_low (x : U64) : (getAddr x).setWidth 12 = 0#12 := by
  unfold getAddr
  rw [BitVec.setWidth_and,show (~~~maskPageflag).setWidth 12 = 0#12 by decide,BitVec.and_zero]

theorem largeLeaf_present (level : Nat) (addr entry : U64) :
    isPresent ((getAddr entry + largeOffset level addr) ||| (entry &&& maskPageflagWoSize)) =
      isPresent entry := by
  rw [isPresent_iff,isPresent_iff,flag_low _ 0 (by decide),flag_low entry 0 (by decide),
    BitVec.setWidth_or,BitVec.setWidth_add _ _ (by decide),getAddr_low,largeOffset_low,
    BitVec.setWidth_and]
  simp [maskPageflagWoSize,maskPageflag,maskPageSizeFlag]

theorem getAddr_linkEntry (page flags : U64) : getAddr (linkEntry page flags) = getAddr page := by
  unfold getAddr linkEntry
  apply BitVec.eq_of_getLsbD_eq
  intro i bound
  simp only [getAddr,BitVec.getLsbD_and,BitVec.getLsbD_or,BitVec.getLsbD_not,bound,decide_true,
    Bool.true_and]
  cases maskPageflag.getLsbD i <;> simp

theorem linkEntry_low (page flags : U64) : (linkEntry page flags).setWidth 12 = flags.setWidth 12 := by
  unfold linkEntry
  rw [BitVec.setWidth_or,getAddr_low,BitVec.setWidth_and,
    show maskPageflag.setWidth 12 = BitVec.allOnes 12 by decide,BitVec.and_allOnes,BitVec.zero_or]

@[simp] theorem isPresent_linkEntry (page flags : U64) :
    isPresent (linkEntry page flags) = isPresent flags := by
  rw [isPresent_iff,isPresent_iff,flag_low _ 0 (by decide),linkEntry_low,← flag_low _ 0 (by decide)]

@[simp] theorem isSizeFlagSet_linkEntry (page flags : U64) :
    isSizeFlagSet (linkEntry page flags) = isSizeFlagSet flags := by
  rw [isSizeFlagSet_iff,isSizeFlagSet_iff,flag_low _ 7 (by decide),linkEntry_low,
    ← flag_low _ 7 (by decide)]

theorem pageOf_frame {n : Nat} (bound : n < 2^52) : pageOf (frame n) = n := by
  simp only [pageOf,frame,BitVec.toNat_ofNat]
  omega

theorem maskPageflag_bits : ∀ i : Fin 64,
    maskPageflag.getLsbD i.val = (decide (i.val < 12) || decide (56 ≤ i.val)) := by decide

theorem getAddr_frame {n : Nat} (bound : n < 2^44) : getAddr (frame n) = frame n := by
  unfold getAddr
  apply BitVec.eq_of_getLsbD_eq
  intro i small
  rw [BitVec.getLsbD_and,BitVec.getLsbD_not,maskPageflag_bits ⟨i,small⟩]
  simp only [frame,BitVec.getLsbD_ofNat,small,decide_true,Bool.true_and]
  by_cases low : i < 12
  · have zero : (n * 4096).testBit i = false := by
      rw [show n * 4096 = n * 2^12 by rfl,Nat.testBit_mul_two_pow]
      simp [low]
    simp [zero]
  · by_cases high : 56 ≤ i
    · have zero : (n * 4096).testBit i = false :=
        Nat.testBit_lt_two_pow (Nat.lt_of_lt_of_le (by omega) (Nat.pow_le_pow_right (by decide) high))
      simp [zero]
    · simp [low,high]
end Flags

section Walk
variable {mem : Mem} {page : Nat} {index : Fin 512}

theorem trace_plain (rest : List (Fin 512)) (plain : tableLink (mem page index) = none) :
    trace tableLink mem page (index::rest) = [mem page index] := by
  simp [trace,plain]

theorem trace_link {next : Nat} (rest : List (Fin 512)) (linked : tableLink (mem page index) = some next) :
    trace tableLink mem page (index::rest) = mem page index :: trace tableLink mem next rest := by
  simp [trace,linked]

theorem leafFrom_last (addr : U64) :
    leafFrom mem addr page [index] =
      if isPresent (mem page index) then some (mem page index) else none := by
  simp [leafFrom,trace,decodeLeaf]

variable {next : Fin 512} {rest : List (Fin 512)}

theorem leafFrom_absent (addr : U64) (path : List (Fin 512))
    (absent : isPresent (mem page index) = false) : leafFrom mem addr page (index::path) = none := by
  unfold leafFrom
  cases path <;> simp [trace,decodeLeaf,absent]

theorem leafFrom_table (addr : U64) (present : isPresent (mem page index) = true)
    (small : isSizeFlagSet (mem page index) = false) :
    leafFrom mem addr page (index::next::rest) =
      leafFrom mem addr (tableOf (mem page index)) (next::rest) := by
  unfold leafFrom
  rw [trace_link _ (tableLink_present present small)]
  simp [decodeLeaf,present,small]

end Walk

theorem decodeLeaf_walkLeaf (addr : U64) (level : Nat) (entries : List U64) :
    decodeLeaf addr level entries =
      if isPresent (walkLeaf addr level entries) then some (walkLeaf addr level entries) else none := by
  have absent : isPresent 0#64 = false := by decide
  fun_induction walkLeaf addr level entries with
  | case1 => simp [decodeLeaf,absent]
  | case2 => simp [decodeLeaf]
  | case3 level entry rest missing => simp_all [decodeLeaf]
  | case4 level entry rest present large => simp_all [decodeLeaf,largeLeaf_present]
  | case5 level entry rest present small ih => simp_all [decodeLeaf]

theorem phyAddr3_eq (mem : Mem) (pml4PhyAddr addr : U64) :
    (hbGetPhyFromLog mem pml4PhyAddr addr).phyAddr3 =
      walkLeaf addr 3 (trace tableLink mem (pageOf pml4PhyAddr) (indexes addr)) := by
  unfold hbGetPhyFromLog indexes
  dsimp only
  generalize pageOf pml4PhyAddr = root
  cases present0 : isPresent (mem root (pml4Index addr)) with
  | false => simp [trace,walkLeaf,present0]
  | true =>
    cases large0 : isSizeFlagSet (mem root (pml4Index addr)) with
    | true => simp [trace,walkLeaf,largeOffset,present0,large0]
    | false =>
      rw [trace_link _ (tableLink_present present0 large0)]
      simp only [walkLeaf,present0,large0,Bool.not_true,Bool.false_eq_true,if_false]
      generalize tableOf (mem root (pml4Index addr)) = table0
      cases present1 : isPresent (mem table0 (pdptePdIndex addr)) with
      | false => simp [trace,walkLeaf,present1]
      | true =>
        cases large1 : isSizeFlagSet (mem table0 (pdptePdIndex addr)) with
        | true => simp [trace,walkLeaf,largeOffset,present1,large1]
        | false =>
          rw [trace_link _ (tableLink_present present1 large1)]
          simp only [walkLeaf,present1,large1,Bool.not_true,Bool.false_eq_true,if_false]
          generalize tableOf (mem table0 (pdptePdIndex addr)) = table1
          cases present2 : isPresent (mem table1 (pdeptIndex addr)) with
          | false => simp [trace,walkLeaf,present2]
          | true =>
            cases large2 : isSizeFlagSet (mem table1 (pdeptIndex addr)) with
            | true => simp [trace,walkLeaf,largeOffset,present2,large2]
            | false =>
              rw [trace_link _ (tableLink_present present2 large2)]
              simp [trace,walkLeaf,present2,large2]

/-- The software walk ends in the leaf that its path leads to. -/
theorem leafMapping_eq (mem : Mem) (pml4PhyAddr addr : U64) :
    leafMapping mem pml4PhyAddr addr = leafFrom mem addr (pageOf pml4PhyAddr) (indexes addr) := by
  unfold leafMapping leafFrom
  dsimp only
  rw [phyAddr3_eq,decodeLeaf_walkLeaf]
  rfl

end HyperBox.PageTable
