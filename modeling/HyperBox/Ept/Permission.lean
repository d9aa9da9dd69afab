import HyperBox.Ept.Table
import Mathlib.Logic.Function.Basic

/-! The permission setters of the extended page table. They rewrite single 4KB
entries without any check of their argument; that they stay inside the allocated
tables follows from what the whole table holds after any sequence of them. -/
namespace HyperBox.Ept
open HyperBox.Library HyperBox.PageTable

def maskPageaddr : U64 := 0xFFFFFFFFFFFFF000

section Setters
variable {info : EptInfo} (pages : EptPages info) (phyAddr : U64)

def pageOffset : Nat := phyAddr.toNat / 4096

def pteTable : Nat := pages.frame .pte (pageOffset phyAddr / 512)

def pteSlot : Fin 512 := Fin.ofNat 512 (pageOffset phyAddr)

def hbSetEptPageAddr (addr : U64) (mem : Mem) : Mem :=
  mem.write (pteTable pages phyAddr) (pteSlot phyAddr)
    ((addr &&& maskPageaddr) ||| (mem (pteTable pages phyAddr) (pteSlot phyAddr) &&& ~~~maskPageaddr))

def hbSetEptPageFlags (flags : U64) (mem : Mem) : Mem :=
  mem.write (pteTable pages phyAddr) (pteSlot phyAddr)
    ((mem (pteTable pages phyAddr) (pteSlot phyAddr) &&& maskPageaddr) ||| flags)

def setEptPage (flags : U64) (mem : Mem) : Mem :=
  hbSetEptPageAddr pages phyAddr phyAddr (hbSetEptPageFlags pages phyAddr flags mem)

def hbSetEptHidePage (mem : Mem) : Mem := hbSetEptPageFlags pages phyAddr eptBitMemTypeWb mem

def hbSetEptReadOnlyPage (mem : Mem) : Mem :=
  setEptPage pages phyAddr (eptRead ||| eptBitMemTypeWb) mem

def hbSetEptLockPage (mem : Mem) : Mem :=
  setEptPage pages phyAddr (eptRead ||| eptExecute ||| eptBitMemTypeWb) mem

def hbSetEptAllAccessPage (mem : Mem) : Mem :=
  setEptPage pages phyAddr (eptAllAccess ||| eptBitMemTypeWb) mem

end Setters

inductive Setter where
  | hide
  | readOnly
  | lock
  | allAccess
deriving DecidableEq

namespace Setter

def apply {info : EptInfo} (pages : EptPages info) (mem : Mem) : Setter × U64 → Mem
  | (hide,phyAddr) => hbSetEptHidePage pages phyAddr mem
  | (readOnly,phyAddr) => hbSetEptReadOnlyPage pages phyAddr mem
  | (lock,phyAddr) => hbSetEptLockPage pages phyAddr mem
  | (allAccess,phyAddr) => hbSetEptAllAccessPage pages phyAddr mem

def rights : Setter → EptRights
  | hide => ⟨false,false,false⟩
  | readOnly => ⟨true,false,false⟩
  | lock => ⟨true,false,true⟩
  | allAccess => .all

def flags : Setter → U64
  | hide => 0x30
  | readOnly => 0x31
  | lock => 0x35
  | allAccess => 0x37

theorem flags_low (setter : Setter) : setter.flags.toNat < 4096 := by
  cases setter <;> decide

theorem pageLeaf_flags (setter : Setter) (a : Nat) : pageLeaf a setter.flags = ⟨a,setter.rights,6⟩ := by
  cases setter <;> rfl

end Setter

section Entries

theorem maskPageaddr_bits : ∀ i : Fin 64, maskPageaddr.getLsbD i.val = decide (12 ≤ i.val) := by decide

theorem low_bit {flags : U64} {i : Nat} (low : flags.toNat < 4096) (high : 12 ≤ i) :
    flags.getLsbD i = false := by
  have bound : (2:Nat)^12 ≤ 2^i := Nat.pow_le_pow_right (by decide) high
  exact Nat.testBit_lt_two_pow (Nat.lt_of_lt_of_le low bound)

theorem frame_bit (n i : Nat) :
    (frame n).getLsbD i = (decide (i < 64) && (decide (12 ≤ i) && n.testBit (i - 12))) := by
  rw [frame,BitVec.getLsbD_ofNat,show n * 4096 = n * 2^12 by rfl,Nat.testBit_mul_two_pow]

theorem frame_or_address {n : Nat} {flags : U64} (low : flags.toNat < 4096) :
    (frame n ||| flags) &&& maskPageaddr = frame n := by
  apply BitVec.eq_of_getLsbD_eq
  intro i bound
  rw [BitVec.getLsbD_and,maskPageaddr_bits ⟨i,bound⟩,BitVec.getLsbD_or]
  by_cases high : 12 ≤ i
  · simp [high,low_bit low high]
  · simp [high,frame_bit]

theorem frame_or_flags {n : Nat} {flags : U64} (low : flags.toNat < 4096) :
    (frame n ||| flags) &&& ~~~maskPageaddr = flags := by
  apply BitVec.eq_of_getLsbD_eq
  intro i bound
  rw [BitVec.getLsbD_and,BitVec.getLsbD_not,maskPageaddr_bits ⟨i,bound⟩]
  by_cases high : 12 ≤ i
  · simp [high,low_bit low high]
  · rw [frame_or_bit flags (by omega)]
    simp [high,bound]

theorem address_frame (addr : U64) : addr &&& maskPageaddr = frame (addr.toNat / 4096) := by
  apply BitVec.eq_of_getLsbD_eq
  intro i bound
  rw [BitVec.getLsbD_and,maskPageaddr_bits ⟨i,bound⟩,frame_bit,
    show addr.toNat / 4096 = addr.toNat / 2^12 by rfl,Nat.testBit_div_two_pow]
  by_cases high : 12 ≤ i
  · simp [high,bound,BitVec.testBit_toNat]
  · simp [high]

end Entries

section Tables
variable {info : EptInfo} {pages : EptPages info} {flags : Nat → U64} {mem : Mem} {phyAddr : U64}

theorem EptTables.write (tables : EptTables pages flags mem) (inside : pageOffset phyAddr / 512 < info.ptePageCount)
    (one : 0 < info.pml4PageCount) (flag : U64) {entry : U64} (written : entry = frame (pageOffset phyAddr) ||| flag) :
    EptTables pages (Function.update flags (pageOffset phyAddr) flag)
      (mem.write (pteTable pages phyAddr) (pteSlot phyAddr) entry) := by
  have other : ∀ type j, j < info.pageCount type → type ≠ .pte →
      mem.write (pteTable pages phyAddr) (pteSlot phyAddr) entry (pages.frame type j) =
        mem (pages.frame type j) := by
    intro type j within differ
    apply mem.write_page_ne
    exact fun same => differ (pages.distinct type .pte j _ within inside same).1
  refine ⟨?_,?_,?_,?_⟩
  · intro i
    rw [other .pml4 0 one (by decide)]
    exact tables.pml4 i
  · intro j within i
    rw [other .pdptePd j within (by decide)]
    exact tables.pdptePd j within i
  · intro j within i
    rw [other .pdept j within (by decide)]
    exact tables.pdept j within i
  · intro j within i
    by_cases here : j * 512 + i.val = pageOffset phyAddr
    · have table : pages.frame .pte j = pteTable pages phyAddr := by
        rw [pteTable]
        congr 1
        omega
      have slot : i = pteSlot phyAddr := Fin.ext (by
        rw [pteSlot,Fin.val_ofNat]
        omega)
      rw [table,slot,Paged.write_self,written,← slot,here,Function.update_self]
    · have apart : ¬ (pages.frame .pte j = pteTable pages phyAddr ∧ i = pteSlot phyAddr) := by
        rintro ⟨table,rfl⟩
        have index := (pages.distinct .pte .pte j _ within inside table).2
        rw [pteSlot,Fin.val_ofNat] at here
        omega
      rw [mem.write_ne _ apart,tables.pte j within i,Function.update_of_ne here]

theorem EptTables.entry (tables : EptTables pages flags mem)
    (inside : pageOffset phyAddr / 512 < info.ptePageCount) :
    mem (pteTable pages phyAddr) (pteSlot phyAddr) =
      frame (pageOffset phyAddr) ||| flags (pageOffset phyAddr) := by
  have index : pageOffset phyAddr / 512 * 512 + (pteSlot phyAddr).val = pageOffset phyAddr := by
    rw [pteSlot,Fin.val_ofNat]
    omega
  rw [pteTable,tables.pte _ inside,index]

variable (tables : EptTables pages flags mem) (low : ∀ k, (flags k).toNat < 4096)
  (one : 0 < info.pml4PageCount) (inside : pageOffset phyAddr / 512 < info.ptePageCount)
include tables low one inside

theorem setFlags_tables (flag : U64) :
    EptTables pages (Function.update flags (pageOffset phyAddr) flag)
      (hbSetEptPageFlags pages phyAddr flag mem) := by
  refine tables.write inside one flag ?_
  rw [tables.entry inside,frame_or_address (low _)]

theorem setEptPage_tables {flag : U64} (lowFlag : flag.toNat < 4096) :
    EptTables pages (Function.update flags (pageOffset phyAddr) flag)
      (setEptPage pages phyAddr flag mem) := by
  have first := setFlags_tables tables low one inside flag
  have second := first.write inside one flag rfl
  rw [Function.update_idem] at second
  rw [setEptPage,hbSetEptPageAddr,first.entry inside,Function.update_self,frame_or_flags lowFlag,
    address_frame]
  exact second

theorem apply_tables (setter : Setter) :
    EptTables pages (Function.update flags (pageOffset phyAddr) setter.flags)
      (Setter.apply pages mem (setter,phyAddr)) := by
  cases setter with
  | hide => exact setFlags_tables tables low one inside _
  | readOnly => exact setEptPage_tables tables low one inside (by decide)
  | lock => exact setEptPage_tables tables low one inside (by decide)
  | allAccess => exact setEptPage_tables tables low one inside (by decide)

end Tables

def lastSetter (events : List (Setter × U64)) (page : Nat) : Option Setter :=
  ((events.filter (fun event => pageOffset event.2 = page)).getLast?).map Prod.fst

def rightsAfter (events : List (Setter × U64)) (page : Nat) : EptRights :=
  match lastSetter events page with
  | none => .all
  | some setter => setter.rights

/-- An access to the address may violate the table: no leaf with all rights maps it. -/
def CanViolate {info : EptInfo} (pages : EptPages info) (mem : Mem) (a : Nat) : Prop :=
  ∀ leaf, (eptTranslate pages mem a).2 = some leaf → leaf.rights ≠ .all

section Run

def setterAfter (events : List (Setter × U64)) (page : Nat) : Setter :=
  (lastSetter events page).getD .allAccess

theorem rightsAfter_eq (events : List (Setter × U64)) (page : Nat) :
    rightsAfter events page = (setterAfter events page).rights := by
  unfold rightsAfter setterAfter
  cases lastSetter events page <;> rfl

theorem setterAfter_append (events : List (Setter × U64)) (setter : Setter) (phyAddr : U64) :
    setterAfter (events ++ [(setter,phyAddr)]) =
      Function.update (setterAfter events) (pageOffset phyAddr) setter := by
  funext page
  by_cases here : page = pageOffset phyAddr
  · subst page
    simp [setterAfter,lastSetter]
  · simp [setterAfter,lastSetter,here,Ne.symm here]

variable {ramEnd : Nat} (pages : EptPages (hbAllocEptPages (maxRamSize ramEnd)))
  {ranges : Option (List (Nat × Nat))} (mem : Mem)

def eptAfter (ranges : Option (List (Nat × Nat))) (events : List (Setter × U64)) : Mem :=
  run (Setter.apply pages) (hbSetupEptPagetable4KB pages ranges mem) events

theorem page_inside {phyAddr : U64} (below : phyAddr.toNat < maxRamSize ramEnd) :
    pageOffset phyAddr / 512 < (hbAllocEptPages (maxRamSize ramEnd)).ptePageCount := by
  simp only [hbAllocEptPages,ceil,pageOffset]
  omega

theorem run_tables {mem : Mem} {events : List (Setter × U64)}
    (tables : EptTables pages (fun page => (setterAfter events page).flags) mem) (more : List (Setter × U64))
    (below : ∀ event ∈ more, event.2.toNat < maxRamSize ramEnd) :
    EptTables pages (fun page => (setterAfter (events ++ more) page).flags) (run (Setter.apply pages) mem more) := by
  induction more using List.reverseRecOn with
  | nil => rwa [List.append_nil]
  | append_singleton more event ih =>
    obtain ⟨setter,phyAddr⟩ := event
    have before := ih (fun event member => below event (List.mem_append_left _ member))
    have inside := page_inside (below (setter,phyAddr) (by simp))
    have after := apply_tables before (fun _ => Setter.flags_low _) Nat.one_pos inside setter
    rw [run_append,← List.append_assoc,setterAfter_append]
    refine Eq.mp ?_ after
    congr 1
    funext page
    by_cases here : page = pageOffset phyAddr <;> simp [Function.update,here]

theorem eptAfter_tables (clipped : Clipped (maxRamSize ramEnd) ranges) (events : List (Setter × U64))
    (below : ∀ event ∈ events, event.2.toNat < maxRamSize ramEnd) :
    EptTables pages (fun page => (setterAfter events page).flags) (eptAfter pages mem ranges events) :=
  @run_tables _ pages _ [] (setup_tables pages clipped mem) events below

theorem rightsAfter_untouched {events : List (Setter × U64)} {page : Nat}
    (untouched : ∀ event ∈ events, pageOffset event.2 ≠ page) : rightsAfter events page = .all := by
  have none : events.filter (fun event => pageOffset event.2 = page) = [] := by
    simpa using untouched
  rw [rightsAfter,lastSetter,none]
  rfl

theorem rightsAfter_hidden {events : List (Setter × U64)} {page : Nat} (hides : ∀ event ∈ events, event.1 = .hide)
    (touched : ∃ event ∈ events, pageOffset event.2 = page) : rightsAfter events page = Setter.hide.rights := by
  obtain ⟨event,member,here⟩ := touched
  have inside : event ∈ events.filter (fun event => pageOffset event.2 = page) :=
    List.mem_filter.mpr ⟨member,decide_eq_true here⟩
  have last := List.getLast?_eq_some_getLast (List.ne_nil_of_mem inside)
  have hide := hides _ (List.mem_of_mem_filter (List.getLast_mem (List.ne_nil_of_mem inside)))
  rw [rightsAfter,lastSetter,last,Option.map_some,hide]

theorem maxRamSize_aligned (ramEnd : Nat) : maxRamSize ramEnd % 2^30 = 0 := by
  unfold maxRamSize
  split <;> omega

theorem touched_below {events : List (Setter × U64)}
    (below : ∀ event ∈ events, event.2.toNat < maxRamSize ramEnd) {a : Nat}
    (touched : ∃ event ∈ events, pageOffset event.2 = a / 4096) : a < maxRamSize ramEnd := by
  obtain ⟨event,member,page⟩ := touched
  have bound := below event member
  have aligned := maxRamSize_aligned ramEnd
  rw [pageOffset] at page
  omega

theorem setter_translate {mem : Mem} {events : List (Setter × U64)}
    (tables : EptTables pages (fun page => (setterAfter events page).flags) mem)
    (below : ∀ event ∈ events, event.2.toNat < maxRamSize ramEnd) {a : Nat} (bound : a < 2^48) :
    (eptTranslate pages mem a).2 = some ⟨a,rightsAfter events (a / 4096),6⟩ := by
  rw [tables.translate (hbAllocEptPages_covers _) (fun _ => Setter.flags_low _) bound]
  have beyond : maxRamSize ramEnd ≤ a → rightsAfter events (a / 4096) = .all := by
    intro high
    apply rightsAfter_untouched
    intro event member page
    exact absurd (touched_below below ⟨event,member,page⟩) (Nat.not_lt_of_le high)
  split
  next large =>
    rw [beyond (by simp only [hbAllocEptPages,ceil] at large; omega)]
  next =>
    split
    next large =>
      rw [beyond (by simp only [hbAllocEptPages,ceil] at large; omega)]
    next =>
      rw [Setter.pageLeaf_flags,rightsAfter_eq]
      rfl

theorem eptAfter_translate (clipped : Clipped (maxRamSize ramEnd) ranges) {events : List (Setter × U64)}
    (below : ∀ event ∈ events, event.2.toNat < maxRamSize ramEnd) {a : Nat} (bound : a < 2^48) :
    (eptTranslate pages (eptAfter pages mem ranges events) a).2 =
      some ⟨a,rightsAfter events (a / 4096),6⟩ :=
  setter_translate pages (eptAfter_tables pages mem clipped events below) below bound

/-- After any sequence of setter calls on addresses below the end of the RAM, every
address is still translated to itself, with the rights of the last setter applied to
its page. Whatever can violate the table lies below the end of the RAM, so that the
violation handler finds an entry for it. -/
theorem ept_permissions_run (clipped : Clipped (maxRamSize ramEnd) ranges) (events : List (Setter × U64))
    (below : ∀ event ∈ events, event.2.toNat < maxRamSize ramEnd) :
    (∀ a < 2^48, (eptTranslate pages (eptAfter pages mem ranges events) a).2 =
      some ⟨a,rightsAfter events (a / 4096),6⟩) ∧
    ∀ a < 2^48, CanViolate pages (eptAfter pages mem ranges events) a →
      a < maxRamSize ramEnd ∧
        pageOffset (BitVec.ofNat 64 a) / 512 < (hbAllocEptPages (maxRamSize ramEnd)).ptePageCount := by
  refine ⟨fun a bound => eptAfter_translate pages mem clipped below bound,?_⟩
  intro a bound violates
  have inside : a < maxRamSize ramEnd := by
    by_contra high
    refine violates _ (eptAfter_translate pages mem clipped below bound) ?_
    apply rightsAfter_untouched
    intro event member page
    exact high (touched_below below ⟨event,member,page⟩)
  exact ⟨inside,page_inside (by rw [BitVec.toNat_ofNat]; omega)⟩

theorem ept_permissions_run_sample :
    (eptTranslate samplePages (eptAfter samplePages (fun _ _ => 0) none
      [(.hide,0x1234),(.lock,0x1FFF)]) 0x1000).2 = some ⟨0x1000,⟨true,false,true⟩,6⟩ :=
  (ept_permissions_run samplePages (fun _ _ => 0) (by simp [Clipped]) [(.hide,0x1234),(.lock,0x1FFF)]
    (by decide)).1 0x1000 (by decide)

end Run

end HyperBox.Ept
