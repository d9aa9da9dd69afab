import HyperBox.Ept.Violation

/-! The loop of `hb_lock_range`, `hb_set_all_access_range` and `hb_hide_range` as the code runs
it, over wrapping 64-bit addresses. It comes to the closed form that the rest of the
development uses, and visits the pages that the range touches. -/
namespace HyperBox.Ept
open HyperBox.Library HyperBox.PageTable

section Addresses

theorem masked_toNat (x : U64) : (x &&& maskPageaddr).toNat = x.toNat / 4096 * 4096 := by
  have bound := x.isLt
  rw [address_frame,frame,BitVec.toNat_ofNat]
  omega

theorem aligned_toNat {x : U64} (aligned : x &&& maskPageaddr = x) : x.toNat / 4096 * 4096 = x.toNat := by
  rw [← masked_toNat,aligned]

theorem alignEndAddr_toNat {x : U64} (fits : x.toNat ≤ 2^64 - 4096) :
    (alignEndAddr x).toNat = (x.toNat + 4095) / 4096 * 4096 := by
  have last : (x + val4KB - 1).toNat = x.toNat + 4095 := by
    rw [BitVec.toNat_sub,BitVec.toNat_add,show val4KB.toNat = 4096 by rfl,show (1 : U64).toNat = 1 by rfl]
    omega
  rw [alignEndAddr,masked_toNat,last]

theorem rangeAddrs_pages {start : U64} {n : Nat} (aligned : start &&& maskPageaddr = start)
    (fits : start.toNat + n + 0x1000 ≤ 2^64) :
    rangeAddrs start (start + BitVec.ofNat 64 n) =
      (List.range (ceil n 0x1000)).map (fun k => start + BitVec.ofNat 64 (k * 0x1000)) := by
  have first := aligned_toNat aligned
  have sum : (start + BitVec.ofNat 64 n).toNat = start.toNat + n := by
    rw [BitVec.toNat_add,BitVec.toNat_ofNat]
    omega
  have stop := alignEndAddr_toNat (x := start + BitVec.ofNat 64 n) (by omega)
  have count : ((alignEndAddr (start + BitVec.ofNat 64 n)).toNat - start.toNat) / 4096 = ceil n 0x1000 := by
    rw [stop,sum,ceil]
    omega
  simp only [rangeAddrs,aligned,count]

theorem alignEndAddr_aligned (x : U64) : alignEndAddr (x &&& maskPageaddr) = x &&& maskPageaddr := by
  have bound := x.isLt
  have value := masked_toNat x
  apply BitVec.eq_of_toNat_eq
  rw [alignEndAddr_toNat (by omega),value]
  omega

/-- A range with a rounded end leaves out the page of the end. -/
theorem rangeAddrs_rounded (start stop : U64) :
    rangeAddrs start (stop &&& maskPageaddr) =
      (List.range (pageOf stop - pageOf start)).map
        (fun k => (start &&& maskPageaddr) + BitVec.ofNat 64 (k * 4096)) := by
  have first := masked_toNat start
  have last := masked_toNat stop
  simp only [rangeAddrs,alignEndAddr_aligned]
  congr 2
  rw [first,last,pageOf,pageOf]
  omega

end Addresses

structure RangeState where
  mem : Mem
  calls : List (Setter × U64)

section Loop
variable {ramEnd : Nat} (env : ExitEnv ramEnd) (setter : Setter) (allocType : AllocType)

def setRangePage (i : U64) (s : RangeState) : RangeState :=
  let phyAddr := phyAddrOf env allocType i
  ⟨Setter.apply env.pages s.mem (setter,phyAddr),s.calls ++ [(setter,phyAddr)]⟩

/-- `for ( ; i < align_end_addr ; i += VAL_4KB)`; the sum wraps. -/
def setRangeFrom (alignEnd : U64) : Nat → U64 → RangeState → Option RangeState
  | 0,_,_ => none
  | fuel+1,i,s =>
    if i < alignEnd then setRangeFrom alignEnd fuel (i + val4KB) (setRangePage env setter allocType i s)
    else some s

def setRangeLoop (startAddr endAddr : U64) (mem : Mem) (fuel : Nat) : Option RangeState :=
  setRangeFrom env setter allocType (alignEndAddr endAddr) fuel (startAddr &&& maskPageaddr) ⟨mem,[]⟩

def hbLockRangeLoop := setRangeLoop env .lock

def hbSetAllAccessRangeLoop := setRangeLoop env .allAccess

def hbHideRangeLoop := setRangeLoop env .hide

def rangeCalls (addrs : List U64) : List (Setter × U64) :=
  addrs.map (fun addr => (setter,phyAddrOf env allocType addr))

variable {env setter allocType}

/-- The loop stops at an aligned end, and its sum does not wrap before. The induction is on the
number of pages that are left. -/
theorem setRangeFrom_eq {alignEnd i : U64} {n : Nat} (aligned : i.toNat % 4096 = 0)
    (alignedEnd : alignEnd.toNat % 4096 = 0) (left : (alignEnd.toNat - i.toNat) / 4096 = n)
    {fuel : Nat} (enough : n < fuel) (s : RangeState) :
    let calls := rangeCalls env setter allocType ((List.range n).map (fun k => i + BitVec.ofNat 64 (k * 4096)))
    setRangeFrom env setter allocType alignEnd fuel i s =
      some ⟨run (Setter.apply env.pages) s.mem calls,s.calls ++ calls⟩ := by
  induction n generalizing i s fuel with
  | zero =>
    obtain ⟨fuel,rfl⟩ : ∃ k, fuel = k + 1 := ⟨fuel - 1,by omega⟩
    have done : ¬ i < alignEnd := by
      rw [BitVec.lt_def]
      omega
    simp [setRangeFrom,done,rangeCalls]
  | succ n ih =>
    obtain ⟨fuel,rfl⟩ : ∃ k, fuel = k + 1 := ⟨fuel - 1,by omega⟩
    have more : i < alignEnd := by
      rw [BitVec.lt_def]
      omega
    have next : (i + val4KB).toNat = i.toNat + 4096 := by
      have bound := alignEnd.isLt
      rw [BitVec.toNat_add,show val4KB.toNat = 4096 by rfl]
      omega
    have nextAligned : (i + val4KB).toNat % 4096 = 0 := by omega
    have nextLeft : (alignEnd.toNat - (i + val4KB).toNat) / 4096 = n := by omega
    have rest := ih nextAligned nextLeft (Nat.lt_of_succ_lt_succ enough) (setRangePage env setter allocType i s)
    have shift : ∀ k, i + val4KB + BitVec.ofNat 64 (k * 4096) = i + BitVec.ofNat 64 ((k + 1) * 4096) := by
      intro k
      rw [Nat.add_mul,Nat.add_comm,BitVec.ofNat_add,BitVec.add_assoc]
      rfl
    rw [setRangeFrom,if_pos more,rest]
    simp only [shift,rangeCalls,List.range_succ_eq_map,List.map_cons,List.map_map,Function.comp_def,
      Nat.succ_eq_add_one,setRangePage,run_cons,List.append_assoc,List.singleton_append]
    simp

theorem setRangeLoop_eq (startAddr endAddr : U64) (mem : Mem) {fuel : Nat}
    (enough : (rangeAddrs startAddr endAddr).length < fuel) :
    setRangeLoop env setter allocType startAddr endAddr mem fuel =
      some ⟨setRange env setter startAddr endAddr allocType mem,
        rangeCalls env setter allocType (rangeAddrs startAddr endAddr)⟩ := by
  have first := masked_toNat startAddr
  have last := masked_toNat (endAddr + val4KB - 1)
  have aligned : (startAddr &&& maskPageaddr).toNat % 4096 = 0 := by omega
  have alignedEnd : (alignEndAddr endAddr).toNat % 4096 = 0 := by
    rw [alignEndAddr]
    omega
  exact setRangeFrom_eq aligned alignedEnd rfl (by simpa [rangeAddrs] using enough) ⟨mem,[]⟩

/-- The pages of the calls get their setter, all others keep theirs. -/
theorem setterAfter_calls (events : List (Setter × U64)) (addrs : List U64) (page : Nat) :
    setterAfter (events ++ rangeCalls env setter allocType addrs) page =
      if ∃ addr ∈ addrs, pageOffset (phyAddrOf env allocType addr) = page then setter
      else setterAfter events page := by
  induction addrs generalizing events with
  | nil => simp [rangeCalls]
  | cons addr rest ih =>
    have later := ih (events ++ [(setter,phyAddrOf env allocType addr)])
    rw [List.append_assoc] at later
    rw [rangeCalls,List.map_cons,← List.singleton_append,← rangeCalls,later,setterAfter_append]
    by_cases here : pageOffset (phyAddrOf env allocType addr) = page
    · simp [here]
    · simp [here,Function.update_of_ne (Ne.symm here)]

end Loop

/-- The table follows the setter calls so far, all of them below the end of the RAM. -/
structure Follows {ramEnd : Nat} (env : ExitEnv ramEnd) (calls : List (Setter × U64)) (mem : Mem) : Prop where
  tables : EptTables env.pages (fun page => (setterAfter calls page).flags) mem
  below : ∀ call ∈ calls, call.2.toNat < maxRamSize ramEnd

def PageRights {ramEnd : Nat} (env : ExitEnv ramEnd) (mem : Mem) (page : Nat) (rights : EptRights) : Prop :=
  ∀ a < 2^48, a / 4096 = page → (eptTranslate env.pages mem a).2 = some ⟨a,rights,6⟩

section Follow
variable {ramEnd : Nat} {env : ExitEnv ramEnd} {calls more : List (Setter × U64)} {mem : Mem}

theorem Follows.append (follows : Follows env calls mem) (below : ∀ call ∈ more, call.2.toNat < maxRamSize ramEnd) :
    Follows env (calls ++ more) (run (Setter.apply env.pages) mem more) := by
  refine ⟨run_tables env.pages follows.tables more below,?_⟩
  intro call member
  exact (List.mem_append.mp member).elim (follows.below call) (below call)

theorem Follows.rights (follows : Follows env calls mem) {page : Nat} {setter : Setter}
    (last : setterAfter calls page = setter) : PageRights env mem page setter.rights := by
  intro a bound here
  rw [setter_translate env.pages follows.tables follows.below bound,rightsAfter_eq,here,last]

theorem run_elsewhere {t : Nat} {i : Fin 512} (mem : Mem)
    (apart : ∀ call ∈ more, ¬ (t = pteTable env.pages call.2 ∧ i = pteSlot call.2)) :
    run (Setter.apply env.pages) mem more t i = mem t i := by
  induction more generalizing mem with
  | nil => rfl
  | cons call rest ih =>
    obtain ⟨here,later⟩ := List.forall_mem_cons.mp apart
    rw [run_cons,ih _ later,Setter.apply_elsewhere env.pages mem call.1 call.2 here]

/-- Calls that leave every page with the setter it had leave the memory as it was. -/
theorem Follows.restored (follows : Follows env calls mem) (below : ∀ call ∈ more, call.2.toNat < maxRamSize ramEnd)
    (same : ∀ call ∈ more, setterAfter (calls ++ more) (pageOffset call.2) = setterAfter calls (pageOffset call.2)) :
    run (Setter.apply env.pages) mem more = mem := by
  have after := (follows.append below).tables
  funext t i
  by_cases touched : ∃ call ∈ more, t = pteTable env.pages call.2 ∧ i = pteSlot call.2
  · obtain ⟨call,member,rfl,rfl⟩ := touched
    have inside := page_inside (below call member)
    rw [after.entry inside,follows.tables.entry inside,same call member]
  · apply run_elsewhere
    intro call member here
    exact touched ⟨call,member,here⟩

end Follow

def Intersects (startAddr endAddr : U64) (page : Nat) : Prop :=
  ∃ addr, startAddr ≤ addr ∧ addr < endAddr ∧ pageOf addr = page

/-- The loop stops, and has called the setter once for each page that the range intersects and
for no other. -/
def SetsEachPage {ramEnd : Nat} (env : ExitEnv ramEnd) (setter : Setter) (startAddr endAddr : U64)
    (allocType : AllocType) (mem : Mem) (result : Nat → Option RangeState) : Prop :=
  ∃ pages : List Nat, pages.Nodup ∧ (∀ page, page ∈ pages ↔ Intersects startAddr endAddr page) ∧
    ∃ rounds, ∀ fuel, rounds < fuel → result fuel =
      some ⟨run (Setter.apply env.pages) mem (rangeCalls env setter allocType (pages.map frame)),
        rangeCalls env setter allocType (pages.map frame)⟩

section Pages
variable {startAddr endAddr : U64}

def touchedPages (startAddr endAddr : U64) : List Nat :=
  List.range' (pageOf startAddr) ((endAddr.toNat + 4095) / 4096 - pageOf startAddr)

theorem rangeAddrs_touched (fits : endAddr.toNat ≤ 2^64 - 4096) :
    rangeAddrs startAddr endAddr = (touchedPages startAddr endAddr).map frame := by
  have count : ((alignEndAddr endAddr).toNat - (startAddr &&& maskPageaddr).toNat) / 4096 =
      (endAddr.toNat + 4095) / 4096 - pageOf startAddr := by
    rw [alignEndAddr_toNat fits,masked_toNat,pageOf]
    omega
  rw [rangeAddrs,touchedPages,count,List.range'_eq_map_range,List.map_map]
  apply List.map_congr_left
  intro k _
  rw [address_frame,frame,Function.comp_apply,frame,Nat.add_mul,BitVec.ofNat_add]
  rfl

theorem mem_touchedPages (nonempty : startAddr < endAddr) (page : Nat) :
    page ∈ touchedPages startAddr endAddr ↔ Intersects startAddr endAddr page := by
  rw [BitVec.lt_def] at nonempty
  have bound := endAddr.isLt
  rw [touchedPages,List.mem_range'_1,pageOf]
  constructor
  · rintro ⟨low,high⟩
    -- The first page is met at the start of the range, a later one at its own first address.
    refine ⟨BitVec.ofNat 64 (max startAddr.toNat (page * 4096)),?_,?_,?_⟩
    · rw [BitVec.le_def,BitVec.toNat_ofNat]
      omega
    · rw [BitVec.lt_def,BitVec.toNat_ofNat]
      omega
    · rw [pageOf,BitVec.toNat_ofNat]
      omega
  · rintro ⟨addr,low,high,rfl⟩
    rw [BitVec.le_def] at low
    rw [BitVec.lt_def] at high
    rw [pageOf]
    omega

variable {ramEnd : Nat} (env : ExitEnv ramEnd) (allocType : AllocType) (mem : Mem)

theorem setRangeLoop_pages (setter : Setter) (nonempty : startAddr < endAddr) (fits : endAddr.toNat ≤ 2^64 - 4096) :
    SetsEachPage env setter startAddr endAddr allocType mem
      (setRangeLoop env setter allocType startAddr endAddr mem) := by
  refine ⟨touchedPages startAddr endAddr,List.nodup_range',mem_touchedPages nonempty,
    (rangeAddrs startAddr endAddr).length,?_⟩
  intro fuel enough
  rw [setRangeLoop_eq startAddr endAddr mem enough,← rangeAddrs_touched fits]
  rfl

/-- Rounding the start down and the end up covers the pages of the range exactly, for all three
functions. -/
theorem ranges_set_each_page (nonempty : startAddr < endAddr) (fits : endAddr.toNat ≤ 2^64 - 4096) :
    SetsEachPage env .lock startAddr endAddr allocType mem
        (hbLockRangeLoop env allocType startAddr endAddr mem) ∧
      SetsEachPage env .allAccess startAddr endAddr allocType mem
        (hbSetAllAccessRangeLoop env allocType startAddr endAddr mem) ∧
      SetsEachPage env .hide startAddr endAddr allocType mem
        (hbHideRangeLoop env allocType startAddr endAddr mem) :=
  ⟨setRangeLoop_pages env allocType mem .lock nonempty fits,
    setRangeLoop_pages env allocType mem .allAccess nonempty fits,
    setRangeLoop_pages env allocType mem .hide nonempty fits⟩

theorem ranges_set_each_page_sample :
    SetsEachPage exitSample .lock 0xC0000FFF 0xC0002001 .vmalloc (fun _ _ => 0)
        (hbLockRangeLoop exitSample .vmalloc 0xC0000FFF 0xC0002001 (fun _ _ => 0)) ∧
      SetsEachPage exitSample .allAccess 0xC0000FFF 0xC0002001 .vmalloc (fun _ _ => 0)
        (hbSetAllAccessRangeLoop exitSample .vmalloc 0xC0000FFF 0xC0002001 (fun _ _ => 0)) ∧
      SetsEachPage exitSample .hide 0xC0000FFF 0xC0002001 .vmalloc (fun _ _ => 0)
        (hbHideRangeLoop exitSample .vmalloc 0xC0000FFF 0xC0002001 (fun _ _ => 0)) :=
  ranges_set_each_page exitSample .vmalloc (fun _ _ => 0) (by decide) (by decide)

end Pages

end HyperBox.Ept
