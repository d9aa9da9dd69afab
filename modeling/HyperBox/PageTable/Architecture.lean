import HyperBox.PageTable.Entry

/-! The software walk `hb_get_phy_from_log` against the walk of the processor. The processor takes
bits 51:12 of an entry for an address and, in a large leaf, only the bits above the offset; the
code takes bits 55:12 in every entry and adds the offset to them. -/
namespace HyperBox.PageTable
open HyperBox.Library

def physicalPages : Nat := 2^40

/-- Bits 51:12 of an entry, as a page number. -/
def archAddress (entry : U64) : Nat := entry.toNat / 4096 % physicalPages

/-- The 4KB page of the address in the large page that the entry maps, `level` levels above the
4KB pages. -/
def archLargeFrame (level : Nat) (addr entry : U64) : Nat :=
  archAddress entry / 512^level * 512^level + addr.toNat / 4096 % 512^level

/-- The walk of the processor: the 4KB frame of the address, if every level is present. -/
def archFrame (mem : Mem) (addr : U64) : Nat → List (Fin 512) → Option Nat
  | _,[] => none
  | page,[i] => if isPresent (mem page i) then some (archAddress (mem page i)) else none
  | page,i::j::rest =>
    let entry := mem page i
    if !isPresent entry then none
    else if isSizeFlagSet entry then some (archLargeFrame (rest.length + 1) addr entry)
    else archFrame mem addr (archAddress entry) (j::rest)

/-- The entries that the processor reads for the path have the format of 4-level paging: bit 7
of an entry of the PML4 is clear, and so are the reserved bits of a large leaf, which follow
the PAT bit. -/
def formatted (mem : Mem) : Nat → List (Fin 512) → Bool
  | page,i::j::rest =>
    let entry := mem page i
    !isPresent entry ||
      if isSizeFlagSet entry then rest.length < 2 && archAddress entry / 2 % (512^(rest.length + 1) / 2) = 0
      else formatted mem (archAddress entry) (j::rest)
  | _,_ => true

def ignoredBits (entry : U64) : Nat := entry.toNat / 2^52 % 16

def patBit (entry : U64) : Nat := entry.toNat / 4096 % 2

/-- The entries of the path have none of the bits that the code takes for a part of the address. -/
def plainPath (mem : Mem) : Nat → List (Fin 512) → Bool
  | _,[] => true
  | page,[i] => !isPresent (mem page i) || ignoredBits (mem page i) = 0
  | page,i::j::rest =>
    let entry := mem page i
    !isPresent entry || ignoredBits entry = 0 &&
      if isSizeFlagSet entry then patBit entry = 0 else plainPath mem (archAddress entry) (j::rest)

/-- Beyond the physical address space `phys_to_virt` leads to whatever is there. -/
def Mem.extend (mem beyond : Mem) : Mem := fun page => if page < physicalPages then mem page else beyond page

def pathLeaf (mem : Mem) (addr : U64) (page : Nat) (path : List (Fin 512)) : U64 :=
  walkLeaf addr (path.length - 1) (trace tableLink mem page path)

/-- The leaf is present exactly when every level is, and then leads to the same frame. -/
def LeafAgrees (leaf : U64) (walked : Option Nat) : Prop :=
  (isPresent leaf = true ↔ walked.isSome = true) ∧ ∀ page, walked = some page → getAddr leaf = frame page

section Address

theorem getAddr_eq (x : U64) : getAddr x = frame (x.toNat % 2^56 / 4096) := by
  apply BitVec.eq_of_getLsbD_eq
  intro i small
  rw [getAddr,BitVec.getLsbD_and,BitVec.getLsbD_not,maskPageflag_bits ⟨i,small⟩,frame,BitVec.getLsbD_ofNat,
    show (4096 : Nat) = 2^12 by rfl,Nat.testBit_mul_two_pow,Nat.testBit_div_two_pow,Nat.testBit_mod_two_pow,
    BitVec.testBit_toNat]
  by_cases low : i < 12
  · simp [low]
  · have above : 12 ≤ i := by omega
    have back : i - 12 + 12 = i := by omega
    by_cases high : 56 ≤ i
    · simp [back,high]
    · simp [small,low,above,back,high]
      omega

theorem tableOf_eq (x : U64) : tableOf x = archAddress x + ignoredBits x * physicalPages := by
  have small := x.isLt
  rw [tableOf,getAddr_eq,pageOf_frame (by omega),archAddress,ignoredBits,physicalPages]
  omega

theorem archAddress_lt (x : U64) : archAddress x < physicalPages := Nat.mod_lt _ (by decide)

theorem frame_inj {m n : Nat} (first : m < 2^52) (second : n < 2^52) : frame m = frame n ↔ m = n := by
  constructor
  · intro same
    have pages := congrArg pageOf same
    rwa [pageOf_frame first,pageOf_frame second] at pages
  · rintro rfl
    rfl

theorem getAddr_toNat (x : U64) : (getAddr x).toNat = tableOf x * 4096 := by
  have small := x.isLt
  rw [tableOf,getAddr_eq,pageOf_frame (by omega),frame,BitVec.toNat_ofNat]
  omega

theorem getAddr_or_flags (x flags : U64) : getAddr (x ||| (flags &&& maskPageflagWoSize)) = getAddr x := by
  apply BitVec.eq_of_getLsbD_eq
  intro i small
  have inside : maskPageflagWoSize.getLsbD i = true → maskPageflag.getLsbD i = true := by
    have table : ∀ k : Fin 64, maskPageflagWoSize.getLsbD k.val = true → maskPageflag.getLsbD k.val = true := by
      decide
    exact table ⟨i,small⟩
  simp only [getAddr,BitVec.getLsbD_and,BitVec.getLsbD_or,BitVec.getLsbD_not,small,decide_true,Bool.true_and]
  cases flagged : maskPageflag.getLsbD i with
  | true => simp
  | false =>
    have outside : maskPageflagWoSize.getLsbD i = false := by
      by_contra set
      simp [inside (by simpa using set)] at flagged
    simp [outside]

theorem scaled_toNat {index : Fin 512} {size : U64} (small : size.toNat < 2^55) :
    (scaled index size).toNat = index.val * size.toNat := by
  have bound : index.val * size.toNat < 2^64 := by
    calc index.val * size.toNat ≤ 512 * size.toNat := Nat.mul_le_mul_right _ (Nat.le_of_lt index.isLt)
      _ < 2^64 := by omega
  have fits : index.val < 2^64 := Nat.lt_trans index.isLt (by decide)
  rw [scaled,BitVec.toNat_mul,BitVec.toNat_ofNat,Nat.mod_eq_of_lt fits,Nat.mod_eq_of_lt bound]

theorem largeOffset_toNat (addr : U64) :
    (largeOffset 1 addr).toNat = addr.toNat / 4096 % 512 * 4096 ∧
      (largeOffset 2 addr).toNat = addr.toNat / 4096 % 512^2 * 4096 := by
  have page : (scaled (pteIndex addr) val4KB).toNat = addr.toNat / 2^12 % 512 * 4096 :=
    scaled_toNat (by decide)
  have large : (scaled (pdeptIndex addr) val2MB).toNat = addr.toNat / 2^21 % 512 * 2097152 :=
    scaled_toNat (by decide)
  constructor
  · exact page
  · rw [largeOffset,BitVec.toNat_add,page,large]
    omega

theorem last_agrees_iff {entry : U64} (present : isPresent entry = true) :
    LeafAgrees entry (some (archAddress entry)) ↔ ignoredBits entry = 0 := by
  have within := archAddress_lt entry
  have ignored : ignoredBits entry < 16 := Nat.mod_lt _ (by decide)
  have same : getAddr entry = frame (tableOf entry) := by
    have small := entry.isLt
    rw [getAddr_eq,tableOf,getAddr_eq,pageOf_frame (by omega)]
  simp only [physicalPages] at within
  simp only [LeafAgrees,present,Option.isSome_some,Option.some.injEq,forall_eq',true_and,same,tableOf_eq,physicalPages]
  rw [frame_inj (by omega) (by omega)]
  omega

theorem large_agrees_iff {level : Nat} {addr entry : U64} (large : level = 1 ∨ level = 2)
    (present : isPresent entry = true) (aligned : archAddress entry / 2 % (512^level / 2) = 0) :
    LeafAgrees ((getAddr entry + largeOffset level addr) ||| (entry &&& maskPageflagWoSize))
      (some (archLargeFrame level addr entry)) ↔ ignoredBits entry = 0 ∧ patBit entry = 0 := by
  have within := archAddress_lt entry
  have ignored : ignoredBits entry < 16 := Nat.mod_lt _ (by decide)
  have pat : patBit entry = archAddress entry % 2 := by
    rw [patBit,archAddress,physicalPages]
    omega
  have sum : (getAddr entry + largeOffset level addr).toNat % 2^56 / 4096 =
      (tableOf entry + addr.toNat / 4096 % 512^level) % 2^44 := by
    have offset : (largeOffset level addr).toNat = addr.toNat / 4096 % 512^level * 4096 := by
      obtain rfl | rfl := large
      · exact (largeOffset_toNat addr).1
      · exact (largeOffset_toNat addr).2
    rw [BitVec.toNat_add,getAddr_toNat,offset]
    omega
  simp only [LeafAgrees,largeLeaf_present,present,Option.isSome_some,Option.some.injEq,forall_eq',true_and]
  rw [getAddr_or_flags,getAddr_eq,sum,tableOf_eq,pat,archLargeFrame]
  simp only [physicalPages] at within ⊢
  generalize archAddress entry = base at *
  generalize ignoredBits entry = high at *
  obtain rfl | rfl := large
  · simp only [pow_one] at aligned ⊢
    rw [frame_inj (by omega) (by omega)]
    omega
  · simp only [show 512^2 = 262144 by rfl] at aligned ⊢
    rw [frame_inj (by omega) (by omega)]
    omega

end Address

section Agreement
variable {mem beyond : Mem} {addr : U64} {page : Nat} {i j : Fin 512} {rest : List (Fin 512)}

theorem extend_within (within : page < physicalPages) : mem.extend beyond page = mem page := by
  simp [Mem.extend,within]

theorem extend_outside (outside : physicalPages ≤ page) : mem.extend beyond page = beyond page := by
  simp [Mem.extend,outside]

theorem pathLeaf_absent (absent : isPresent (mem page i) = false) : pathLeaf mem addr page (i::j::rest) = 0 := by
  simp [pathLeaf,trace,walkLeaf,absent]

theorem pathLeaf_large (present : isPresent (mem page i) = true) (large : isSizeFlagSet (mem page i) = true) :
    pathLeaf mem addr page (i::j::rest) =
      (getAddr (mem page i) + largeOffset (rest.length + 1) addr) ||| (mem page i &&& maskPageflagWoSize) := by
  simp [pathLeaf,trace,walkLeaf,present,large]

theorem pathLeaf_table (present : isPresent (mem page i) = true) (small : isSizeFlagSet (mem page i) = false) :
    pathLeaf mem addr page (i::j::rest) = pathLeaf mem addr (tableOf (mem page i)) (j::rest) := by
  unfold pathLeaf
  rw [trace_link _ (tableLink_present present small)]
  simp [walkLeaf,present,small]

theorem absent_agrees : LeafAgrees 0 none := by
  have absent : isPresent 0#64 = false := by decide
  simp [LeafAgrees,absent]

/-- What lies beyond the physical address space can be present or not, whatever the processor finds. -/
theorem outside_disagrees (mem : Mem) (addr : U64) (path : List (Fin 512)) (outside : physicalPages ≤ page)
    (walked : Option Nat) :
    ∃ beyond, ¬ LeafAgrees (pathLeaf (mem.extend beyond) addr page (i::path)) walked := by
  cases walked with
  | some found =>
    refine ⟨fun _ _ => 0,fun agrees => ?_⟩
    have absent : isPresent 0#64 = false := by decide
    have leaf : pathLeaf (mem.extend fun _ _ => 0) addr page (i::path) = 0 := by
      cases path with
      | nil => simp [pathLeaf,trace,walkLeaf,extend_outside outside]
      | cons j rest => exact pathLeaf_absent (by rw [extend_outside outside]; exact absent)
    have present := agrees.1.mpr rfl
    rw [leaf] at present
    exact absurd present (by simp [absent])
  | none =>
    refine ⟨fun _ _ => 0x81,fun agrees => ?_⟩
    have here : isPresent (mem.extend (fun _ _ => 0x81) page i) = true := by
      rw [extend_outside outside]
      decide
    have large : isSizeFlagSet (mem.extend (fun _ _ => 0x81) page i) = true := by
      rw [extend_outside outside]
      decide
    have present : isPresent (pathLeaf (mem.extend fun _ _ => 0x81) addr page (i::path)) = true := by
      cases path with
      | nil => simpa [pathLeaf,trace,walkLeaf] using here
      | cons j rest => rw [pathLeaf_large here large,largeLeaf_present,here]
    exact absurd (agrees.1.mp present) (by decide)

/-- The code walks as the processor does if and only if no entry on the path of the processor has
a bit that the code takes for a part of the address and the processor does not. -/
theorem path_agrees_iff (path : List (Fin 512)) (within : page < physicalPages)
    (format : formatted mem page path = true) :
    (∀ beyond, LeafAgrees (pathLeaf (mem.extend beyond) addr page path) (archFrame mem addr page path)) ↔
      plainPath mem page path = true := by
  induction path generalizing page with
  | nil => simpa [pathLeaf,trace,walkLeaf,archFrame,plainPath] using absent_agrees
  | cons i path ih =>
    have here : ∀ beyond, mem.extend beyond page i = mem page i := fun beyond => by rw [extend_within within]
    cases path with
    | nil =>
      have leaf : ∀ beyond, pathLeaf (mem.extend beyond) addr page [i] = mem page i := fun beyond => by
        simp [pathLeaf,trace,walkLeaf,here]
      simp only [leaf,archFrame,plainPath,forall_const]
      cases present : isPresent (mem page i) with
      | false => simp [LeafAgrees,present]
      | true => simpa using last_agrees_iff present
    | cons j rest =>
      simp only [formatted,archFrame,plainPath] at format ⊢
      cases present : isPresent (mem page i) with
      | false =>
        have leaf : ∀ beyond, pathLeaf (mem.extend beyond) addr page (i::j::rest) = 0 := fun beyond =>
          pathLeaf_absent (by rw [here,present])
        simpa [leaf] using absent_agrees
      | true =>
        cases large : isSizeFlagSet (mem page i) with
        | true =>
          have leaf : ∀ beyond, pathLeaf (mem.extend beyond) addr page (i::j::rest) =
              (getAddr (mem page i) + largeOffset (rest.length + 1) addr) |||
                (mem page i &&& maskPageflagWoSize) := fun beyond => by
            rw [pathLeaf_large (by rw [here,present]) (by rw [here,large]),here]
          simp only [present,large,Bool.not_true,Bool.false_or,if_true,Bool.and_eq_true,decide_eq_true_eq] at format
          simpa [leaf] using large_agrees_iff (by omega) present format.2
        | false =>
          simp only [present,large,Bool.not_true,Bool.false_or,Bool.false_eq_true,if_false] at format
          have leaf : ∀ beyond, pathLeaf (mem.extend beyond) addr page (i::j::rest) =
              pathLeaf (mem.extend beyond) addr (tableOf (mem page i)) (j::rest) := fun beyond => by
            rw [pathLeaf_table (by rw [here,present]) (by rw [here,large]),here]
          by_cases clean : ignoredBits (mem page i) = 0
          · have table : tableOf (mem page i) = archAddress (mem page i) := by rw [tableOf_eq,clean]; omega
            simpa [leaf,table,clean] using ih (archAddress_lt _) format
          · -- The code leaves the physical address space, where nothing keeps the two walks together.
            have outside : physicalPages ≤ tableOf (mem page i) := by
              rw [tableOf_eq,physicalPages]
              omega
            obtain ⟨beyond,differs⟩ := outside_disagrees mem addr rest outside
              (archFrame mem addr (archAddress (mem page i)) (j::rest))
            constructor
            · intro agrees
              have bad := agrees beyond
              rw [leaf beyond] at bad
              exact absurd (by simpa using bad) differs
            · intro plain
              simp [clean] at plain

/-- In well-formed tables `hb_get_phy_from_log` finds the frame that the processor finds, whatever
lies beyond the physical address space, if and only if no entry that the processor reads has one
of the bits 55:52 set and no large leaf has its PAT bit set. -/
theorem hbGetPhyFromLog_agrees_iff (mem : Mem) (pml4PhyAddr addr : U64)
    (within : pageOf pml4PhyAddr < physicalPages)
    (format : formatted mem (pageOf pml4PhyAddr) (indexes addr) = true) :
    (∀ beyond, LeafAgrees (hbGetPhyFromLog (mem.extend beyond) pml4PhyAddr addr).phyAddr3
      (archFrame mem addr (pageOf pml4PhyAddr) (indexes addr))) ↔
      plainPath mem (pageOf pml4PhyAddr) (indexes addr) = true := by
  rw [← path_agrees_iff (indexes addr) within format]
  simp only [phyAddr3_eq]
  rfl

end Agreement

section Sample

/-- A PML4 in page 1, a PDPT in page 2 and a page directory in page 3 whose first entry is a 2MB leaf. -/
def largeSample (leaf : U64) : Mem := fun page i =>
  if i = 0 then
    match page with
    | 1 => 0x2003
    | 2 => 0x3003
    | 3 => leaf
    | _ => 0
  else 0

/-- Without the PAT bit every page of the large leaf is found. -/
theorem hbGetPhyFromLog_largeSample :
    (∀ beyond, LeafAgrees (hbGetPhyFromLog ((largeSample 0x400083).extend beyond) 0x1000 0x5000).phyAddr3
      (archFrame (largeSample 0x400083) 0x5000 1 (indexes 0x5000))) ∧
      archFrame (largeSample 0x400083) 0x5000 1 (indexes 0x5000) = some 0x405 :=
  ⟨(hbGetPhyFromLog_agrees_iff (largeSample 0x400083) 0x1000 0x5000 (by decide) (by decide)).mpr (by decide),
    by decide⟩

/-- With the PAT bit every page of the large leaf is taken for the next one. -/
theorem hbGetPhyFromLog_pat :
    formatted (largeSample 0x401083) 1 (indexes 0) = true ∧
      archFrame (largeSample 0x401083) 0 1 (indexes 0) = some 0x400 ∧
      getAddr (hbGetPhyFromLog (largeSample 0x401083) 0x1000 0).phyAddr3 = frame 0x401 ∧
      ¬ LeafAgrees (hbGetPhyFromLog (largeSample 0x401083) 0x1000 0).phyAddr3
        (archFrame (largeSample 0x401083) 0 1 (indexes 0)) := by
  have walked : archFrame (largeSample 0x401083) 0 1 (indexes 0) = some 0x400 := by decide
  have leaf : getAddr (hbGetPhyFromLog (largeSample 0x401083) 0x1000 0).phyAddr3 = frame 0x401 := by decide
  refine ⟨by decide,walked,leaf,fun agrees => ?_⟩
  have same := agrees.2 _ walked
  rw [leaf] at same
  exact absurd same (by decide)

end Sample
end HyperBox.PageTable
