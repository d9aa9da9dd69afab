import HyperBox.PageTable.Entry

/-! `hb_dup_page_table_for_host`: the host page table is a copy of the kernel's
whose table pages are all Hyper-box's own. The three nested loops of the source
run the same block, so they are one recursion on the level. -/
namespace HyperBox.PageTable
open HyperBox.Library

/-- Where a page of the host page table comes from: the two pages of its PML4, the
pages that `__get_free_page` returned to the duplication, and the memory pool. -/
inductive PageSource where
  | pml4
  | pml4Next
  | kernel (k : Nat)
  | pool (k : Nat)

def PageSource.Within (allocCount maxCount : Nat) : PageSource → Prop
  | pml4 => True
  | pml4Next => True
  | kernel k => k < allocCount
  | pool k => k < maxCount

/-- Physical addresses of the pages that Hyper-box obtains for its host page table.
The allocator returns page frames, never one of them twice and never the reserved
frame zero. -/
structure HostPages where
  initPml4 : U64
  page : PageSource → U64
  allocCount : Nat
  maxCount : Nat
  adjacent : page .pml4Next = page .pml4 + val4KB
  aligned : ∀ x : PageSource, x.Within allocCount maxCount → getAddr (page x) = page x
  nonzero : ∀ x : PageSource, x.Within allocCount maxCount → page x ≠ 0
  distinct : ∀ x y : PageSource, x.Within allocCount maxCount → y.Within allocCount maxCount →
    pageOf (page x) = pageOf (page y) → x = y

namespace HostPages
variable (pages : HostPages)

def hostPml4 : U64 := pages.page .pml4

def root : Nat := pageOf pages.hostPml4

def Obtains (x : PageSource) : Prop := x.Within pages.allocCount pages.maxCount

def Owned (t : Nat) : Prop := ∃ x, pages.Obtains x ∧ t = pageOf (pages.page x)

end HostPages

/-- Physical memory with the two allocation indexes and the pages that were passed
to `hb_hide_range`. -/
structure HostTables where
  mem : Mem
  allocIndex : Nat
  popIndex : Nat
  hidden : List Nat

def HandedOut (s : HostTables) : PageSource → Prop
  | .pml4 => True
  | .pml4Next => True
  | .kernel k => k < s.allocIndex
  | .pool k => k < s.popIndex

def Used (pages : HostPages) (s : HostTables) (t : Nat) : Prop :=
  ∃ x, pages.Obtains x ∧ HandedOut s x ∧ t = pageOf (pages.page x)

/-- The host page table is a tree whose tables Hyper-box has obtained, and no table
is linked twice. -/
def HostInv (pages : HostPages) (s : HostTables) : Prop :=
  Separate tableLink s.mem pages.root 3 (Used pages s)

def dupLink (pages : HostPages) (vm : Nat) (i : Fin 512) (entry : U64) (s : HostTables) : HostTables :=
  let page := pages.page (.kernel s.allocIndex)
  { s with
    mem := (s.mem.setPage (pageOf page) (fun _ => 0)).write vm i (page ||| (entry &&& maskPageflag))
    allocIndex := s.allocIndex + 1
    hidden := pageOf page :: s.hidden }

def dupEntry (pages : HostPages) (descend : Nat → Nat → HostTables → HostTables) (org vm : Nat)
    (i : Fin 512) (s : HostTables) : HostTables :=
  let entry := s.mem org i
  if entry = 0 ∨ isSizeFlagSet entry then { s with mem := s.mem.write vm i entry }
  else
    let linked := dupLink pages vm i entry s
    descend (tableOf entry) (tableOf (linked.mem vm i)) linked

def dupTable (pages : HostPages) : Nat → Nat → Nat → HostTables → HostTables
  | 0,org,vm,s => { s with mem := s.mem.setPage vm (s.mem org) }
  | level+1,org,vm,s =>
    loop 512 (fun i => dupEntry pages (dupTable pages level) org vm (Fin.ofNat 512 i)) s

def zeroedPml4 (pages : HostPages) (s : HostTables) : HostTables :=
  { s with
    mem := (s.mem.setPage pages.root (fun _ => 0)).setPage
      (pageOf (pages.page .pml4Next)) (fun _ => 0)
    hidden := pageOf (pages.page .pml4Next) :: pages.root :: s.hidden }

def hbDupPageTableForHost (pages : HostPages) (reinit : Bool) (s : HostTables) : HostTables :=
  if reinit then s
  else dupTable pages 3 (pageOf pages.initPml4) pages.root (zeroedPml4 pages s)

theorem tableLink_eq_none {x : U64} : tableLink x = none ↔ x = 0 ∨ isSizeFlagSet x = true := by
  unfold tableLink
  split <;> simp_all

section Fresh
variable {pages : HostPages} {s : HostTables}

theorem Used.owned {t : Nat} (used : Used pages s t) : pages.Owned t := by
  obtain ⟨x,obtained,_,rfl⟩ := used
  exact ⟨x,obtained,rfl⟩

theorem not_used {x : PageSource} (obtained : pages.Obtains x) (fresh : ¬ HandedOut s x) :
    ¬ Used pages s (pageOf (pages.page x)) := by
  rintro ⟨y,valid,out,same⟩
  obtain rfl := pages.distinct x y obtained valid same
  exact fresh out

theorem tableOf_linkEntry {x : PageSource} (obtained : pages.Obtains x) (entry : U64) :
    tableOf (linkEntry (pages.page x) entry) = pageOf (pages.page x) := by
  rw [tableOf,getAddr_linkEntry,pages.aligned x obtained]

theorem tableLink_linkEntry {x : PageSource} (obtained : pages.Obtains x) {entry : U64}
    (small : isSizeFlagSet entry = false) :
    tableLink (linkEntry (pages.page x) entry) = some (pageOf (pages.page x)) := by
  have nonzero : linkEntry (pages.page x) entry ≠ 0#64 := fun zero => by
    have address := getAddr_linkEntry (pages.page x) entry
    rw [zero,pages.aligned x obtained] at address
    exact pages.nonzero x obtained address.symm
  simp [tableLink,nonzero,small,tableOf_linkEntry obtained]

end Fresh

structure SlotStep (pages : HostPages) (p : List (Fin 512)) (i : Fin 512) (s s' : HostTables) :
    Prop where
  inv : HostInv pages s'
  through : ChangedThrough tableLink s.mem s'.mem pages.root 3 (p ++ [i])
  outside : ∀ t, ¬ pages.Owned t → s'.mem t = s.mem t

section Slot
variable {pages : HostPages} {s : HostTables} {p : List (Fin 512)} {vm : Nat} (i : Fin 512)

theorem slotStep_plain (inv : HostInv pages s) (at_p : tableAt tableLink s.mem pages.root p = some vm)
    (short : p.length ≤ 3) (entry : U64) (plain : tableLink entry = none ∨ p.length = 3) :
    SlotStep pages p i s { s with mem := s.mem.write vm i entry } where
  inv := inv.write_plain at_p short i entry plain
  through := .of_write inv at_p short i entry
  outside := fun _ foreign => s.mem.write_page_ne i entry (fun same =>
    foreign (same ▸ (inv.inside p vm short at_p).owned))

theorem slotStep_link (inv : HostInv pages s) (at_p : tableAt tableLink s.mem pages.root p = some vm)
    (short : p.length < 3) {x : PageSource} (obtained : pages.Obtains x) (fresh : ¬ HandedOut s x)
    {entry : U64} (small : isSizeFlagSet entry = false) (content : Fin 512 → U64)
    (empty : (∀ j, tableLink (content j) = none) ∨ p.length + 1 = 3) {s' : HostTables}
    (written : s'.mem = (s.mem.setPage (pageOf (pages.page x)) content).write vm i
      (linkEntry (pages.page x) entry))
    (out : ∀ y, HandedOut s' y ↔ HandedOut s y ∨ y = x) :
    SlotStep pages p i s s' := by
  have unused := not_used obtained fresh
  have paged := inv.setPage unused content
  have at_p' : tableAt tableLink (s.mem.setPage (pageOf (pages.page x)) content) pages.root p =
      some vm := (inv.setPage_unused unused content (by omega)).2.trans at_p
  refine ⟨?_,?_,?_⟩
  · have linked := paged.write_link at_p' short i _ (tableLink_linkEntry obtained small) unused
      (by simpa using empty)
    unfold HostInv
    rw [written]
    apply linked.mono
    rintro t (⟨y,valid,handed,rfl⟩ | rfl)
    · exact ⟨y,valid,(out y).mpr (.inl handed),rfl⟩
    · exact ⟨x,obtained,(out x).mpr (.inr rfl),rfl⟩
  · rw [written]
    exact (ChangedThrough.of_setPage inv unused content _).trans
      (.of_write paged at_p' (by omega) i _)
  · intro t foreign
    rw [written,Paged.write_page_ne,Paged.setPage_ne]
    · exact fun same => foreign ⟨x,obtained,same⟩
    · exact fun same => foreign (same ▸ (inv.inside p vm (by omega) at_p).owned)

theorem SlotStep.descend {s' s'' : HostTables} (first : SlotStep pages p i s s')
    (inv : HostInv pages s'') (below : ChangedBelow tableLink s'.mem s''.mem pages.root 3 (p ++ [i]))
    (outside : ∀ t, ¬ pages.Owned t → s''.mem t = s'.mem t) : SlotStep pages p i s s'' where
  inv := inv
  through := first.through.trans below.through
  outside := fun t foreign => (outside t foreign).trans (first.outside t foreign)

end Slot

theorem leafFrom_congr {mem mem' : Mem} {page page' : Nat} {path path' : List (Fin 512)} (addr : U64)
    (size : path'.length = path.length)
    (same : trace tableLink mem' page' path' = trace tableLink mem page path) :
    leafFrom mem' addr page' path' = leafFrom mem addr page path := by
  rw [leafFrom,leafFrom,same,size]

theorem trace_ends {mem : Mem} {page : Nat} {i : Fin 512} {rest : List (Fin 512)}
    (stop : tableLink (mem page i) = none ∨ rest = []) :
    trace tableLink mem page (i::rest) = [mem page i] := by
  rcases stop with plain | rfl
  · exact trace_plain rest plain
  · cases found : tableLink (mem page i) <;> simp [trace,found]

/-- The entries that two walks read are the same up to the tables that they link. -/
inductive Mirrors : List U64 → List U64 → Prop
  | last (entry : U64) : Mirrors [entry] [entry]
  | table {entry entry' : U64} {rest rest' : List U64} (flags : entry'.setWidth 12 = entry.setWidth 12)
    (small : isSizeFlagSet entry = false) (below : Mirrors rest' rest) : Mirrors (entry'::rest') (entry::rest)

theorem flag_congr {entry entry' : U64} (flags : entry'.setWidth 12 = entry.setWidth 12) {k : Nat} (bound : k < 12) :
    entry'.getLsbD k = entry.getLsbD k := by
  rw [flag_low _ k bound,flags,← flag_low _ k bound]

theorem Mirrors.walkLeaf {xs ys : List U64} (h : Mirrors xs ys) (addr : U64) :
    ∀ n, ys.length ≤ n + 1 → walkLeaf addr n xs = walkLeaf addr n ys := by
  induction h with
  | last => exact fun _ _ => rfl
  | @table entry entry' rest rest' flags small below ih =>
    intro n bound
    have present : isPresent entry' = isPresent entry := by
      rw [isPresent_iff,isPresent_iff,flag_congr flags (by decide)]
    have small' : isSizeFlagSet entry' = false := by
      rw [isSizeFlagSet_iff,flag_congr flags (by decide),← isSizeFlagSet_iff,small]
    cases n with
    | zero =>
      cases below <;> simp at bound
    | succ n =>
      have rest := ih n (by simpa using bound)
      simp [PageTable.walkLeaf,present,small,small',rest]

theorem Mirrors.decodeLeaf {xs ys : List U64} (h : Mirrors xs ys) (addr : U64) (n : Nat)
    (bound : ys.length ≤ n + 1) : decodeLeaf addr n xs = decodeLeaf addr n ys := by
  rw [decodeLeaf_walkLeaf,decodeLeaf_walkLeaf,h.walkLeaf addr n bound]

theorem trace_length_le (mem : Mem) (page : Nat) (path : List (Fin 512)) :
    (trace tableLink mem page path).length ≤ path.length := by
  induction path generalizing page with
  | nil => simp [trace]
  | cons i rest ih =>
    cases found : tableLink (mem page i) with
    | none => simp [trace,found]
    | some next => simpa [trace,found] using ih next

theorem Mirrors.leafFrom {mem mem' : Mem} {page page' : Nat} {path : List (Fin 512)}
    (h : Mirrors (trace tableLink mem' page' path) (trace tableLink mem page path)) (addr : U64) :
    leafFrom mem' addr page' path = leafFrom mem addr page path :=
  h.decodeLeaf addr _ (by have := trace_length_le mem page path; omega)

section Copy
variable {pages : HostPages}

theorem dupEntry_mono (pages : HostPages) {descend : Nat → Nat → HostTables → HostTables}
    (grows : ∀ org vm s, s.allocIndex ≤ (descend org vm s).allocIndex ∧
      (descend org vm s).popIndex = s.popIndex) (org vm : Nat) (i : Fin 512) (s : HostTables) :
    s.allocIndex ≤ (dupEntry pages descend org vm i s).allocIndex ∧
      (dupEntry pages descend org vm i s).popIndex = s.popIndex := by
  unfold dupEntry
  dsimp only
  split
  · exact ⟨Nat.le_refl _,rfl⟩
  · obtain ⟨grown,popped⟩ := grows (tableOf (s.mem org i))
      (tableOf ((dupLink pages vm i (s.mem org i) s).mem vm i)) (dupLink pages vm i (s.mem org i) s)
    exact ⟨Nat.le_trans (Nat.le_succ _) grown,popped⟩

theorem dupTable_mono (pages : HostPages) (level : Nat) : ∀ (org vm : Nat) (s : HostTables),
    s.allocIndex ≤ (dupTable pages level org vm s).allocIndex ∧
      (dupTable pages level org vm s).popIndex = s.popIndex := by
  induction level with
  | zero => exact fun _ _ _ => ⟨Nat.le_refl _,rfl⟩
  | succ level ih =>
    intro org vm s
    refine loop_invariant (fun _ (s' : HostTables) => s.allocIndex ≤ s'.allocIndex ∧
      s'.popIndex = s.popIndex) ⟨Nat.le_refl _,rfl⟩ ?_
    intro i _ s' ⟨grown,popped⟩
    obtain ⟨grown',popped'⟩ := dupEntry_mono pages ih org vm (Fin.ofNat 512 i) s'
    exact ⟨grown.trans grown',popped'.trans popped⟩

def copyLimit : Nat → Nat
  | 0 => 0
  | level+1 => 512 * (1 + copyLimit level)

theorem dupTable_limit (pages : HostPages) (level : Nat) : ∀ (org vm : Nat) (s : HostTables),
    (dupTable pages level org vm s).allocIndex ≤ s.allocIndex + copyLimit level := by
  induction level with
  | zero => exact fun _ _ _ => Nat.le_refl _
  | succ level ih =>
    intro org vm s
    refine loop_invariant (fun n (s' : HostTables) =>
      s'.allocIndex ≤ s.allocIndex + n * (1 + copyLimit level)) (by simp) ?_
    intro i _ s' bound
    have one : (dupEntry pages (dupTable pages level) org vm (Fin.ofNat 512 i) s').allocIndex ≤
        s'.allocIndex + (1 + copyLimit level) := by
      unfold dupEntry
      dsimp only
      split
      · exact Nat.le_add_right _ _
      · refine (ih _ _ _).trans (Nat.le_of_eq ?_)
        simp only [dupLink]
        omega
    rw [Nat.succ_mul]
    omega

/-- `s'` results from copying the tree of `level` levels at `org` to the table `vm`. -/
structure Copied (pages : HostPages) (level org vm : Nat) (p : List (Fin 512)) (s s' : HostTables) :
    Prop where
  inv : HostInv pages s'
  below : ChangedBelow tableLink s.mem s'.mem pages.root 3 p
  outside : ∀ t, ¬ pages.Owned t → s'.mem t = s.mem t
  walk : TablesWithin tableLink s.mem org level (fun t => ¬ pages.Owned t) →
    ∀ path, path.length = level + 1 →
      Mirrors (trace tableLink s'.mem vm path) (trace tableLink s.mem org path)

def CopySpec (pages : HostPages) (level : Nat) : Prop :=
  ∀ (org vm : Nat) (p : List (Fin 512)) (s : HostTables), HostInv pages s →
    tableAt tableLink s.mem pages.root p = some vm → p.length + level = 3 →
    (dupTable pages level org vm s).allocIndex ≤ pages.allocCount →
    Copied pages level org vm p s (dupTable pages level org vm s)

theorem copySpec_zero : CopySpec pages 0 := by
  intro org vm p s inv at_p size _
  have below : ChangedBelow tableLink s.mem (s.mem.setPage vm (s.mem org)) pages.root 3 p :=
    .of_setPage_last inv at_p (by omega) _
  have used := inv.inside p vm (by omega) at_p
  refine ⟨below.separate inv (by omega),below,?_,?_⟩
  · exact fun t foreign => s.mem.setPage_ne _ (fun same => foreign (same ▸ used.owned))
  · intro _ path short
    obtain ⟨b,rfl⟩ := List.length_eq_one_iff.mp short
    rw [trace_ends (.inr rfl),trace_ends (.inr rfl)]
    simpa [dupTable] using Mirrors.last _

theorem dupEntry_copies {level : Nat} (spec : CopySpec pages level) {org vm : Nat}
    {p : List (Fin 512)} {s : HostTables} (inv : HostInv pages s)
    (at_p : tableAt tableLink s.mem pages.root p = some vm) (size : p.length + (level + 1) = 3)
    (i : Fin 512)
    (room : (dupEntry pages (dupTable pages level) org vm i s).allocIndex ≤ pages.allocCount) :
    SlotStep pages p i s (dupEntry pages (dupTable pages level) org vm i s) ∧
      (TablesWithin tableLink s.mem org (level+1) (fun t => ¬ pages.Owned t) →
        ∀ path, path.length = level + 1 →
          Mirrors (trace tableLink (dupEntry pages (dupTable pages level) org vm i s).mem vm (i::path))
            (trace tableLink s.mem org (i::path))) := by
  by_cases plain : s.mem org i = 0 ∨ isSizeFlagSet (s.mem org i) = true
  · have none := tableLink_eq_none.mpr plain
    have result : dupEntry pages (dupTable pages level) org vm i s =
        { s with mem := s.mem.write vm i (s.mem org i) } := if_pos plain
    rw [result]
    refine ⟨slotStep_plain i inv at_p (by omega) _ (.inl none),?_⟩
    intro _ path _
    have copied : s.mem.write vm i (s.mem org i) vm i = s.mem org i := s.mem.write_self vm i _
    dsimp only
    rw [trace_plain _ none,trace_plain _ (by rw [copied]; exact none),copied]
    exact .last _
  · have small : isSizeFlagSet (s.mem org i) = false := by
      simpa using fun large => plain (.inr large)
    have result : dupEntry pages (dupTable pages level) org vm i s =
        dupTable pages level (tableOf (s.mem org i))
          (tableOf ((dupLink pages vm i (s.mem org i) s).mem vm i))
          (dupLink pages vm i (s.mem org i) s) := if_neg plain
    rw [result] at room ⊢
    have obtained : pages.Obtains (.kernel s.allocIndex) :=
      Nat.lt_of_lt_of_le (Nat.lt_succ_self _) ((dupTable_mono pages level _ _ _).1.trans room)
    have link : (dupLink pages vm i (s.mem org i) s).mem =
        (s.mem.setPage (pageOf (pages.page (.kernel s.allocIndex))) (fun _ => 0)).write vm i
          (linkEntry (pages.page (.kernel s.allocIndex)) (s.mem org i)) := by
      rw [linkEntry,pages.aligned _ obtained]
      rfl
    have step : SlotStep pages p i s (dupLink pages vm i (s.mem org i) s) :=
      slotStep_link i inv at_p (by omega) obtained (Nat.lt_irrefl _) small (fun _ => 0)
        (.inl (fun _ => tableLink_eq_none.mpr (.inl rfl))) link (by
          rintro (_ | _ | k | k) <;> simp [HandedOut,dupLink]
          omega)
    have slot : (dupLink pages vm i (s.mem org i) s).mem vm i =
        linkEntry (pages.page (.kernel s.allocIndex)) (s.mem org i) := by rw [link,Paged.write_self]
    rw [slot] at room ⊢
    have at_p' := step.through.below.table (by omega) at_p
    have at_child : tableAt tableLink (dupLink pages vm i (s.mem org i) s).mem pages.root (p ++ [i]) =
        some (tableOf (linkEntry (pages.page (.kernel s.allocIndex)) (s.mem org i))) := by
      rw [tableAt_snoc at_p',slot,tableLink_linkEntry obtained small,tableOf_linkEntry obtained]
    have copied := spec (tableOf (s.mem org i)) _ (p ++ [i]) _ step.inv at_child
      (by simp; omega) room
    refine ⟨step.descend i copied.inv copied.below copied.outside,?_⟩
    intro foreign path long
    have linked : tableLink (s.mem org i) = some (tableOf (s.mem org i)) := by
      simp only [tableLink,if_neg plain]
    have child := foreign.child linked
    have slot' := (copied.below.slot (by omega) at_p').trans slot
    have below := copied.walk (child.congr step.outside) path long
    rw [(child.agree step.outside path (by omega)).1,tableOf_linkEntry obtained] at below
    rw [tableOf_linkEntry obtained] at slot' ⊢
    rw [trace_link _ linked,trace_link _ (by rw [slot',tableLink_linkEntry obtained small]),slot']
    exact .table (linkEntry_low _ _) small below

structure CopiedUpTo (pages : HostPages) (level org vm : Nat) (p : List (Fin 512)) (n : Nat)
    (s s' : HostTables) : Prop where
  inv : HostInv pages s'
  below : ChangedBelow tableLink s.mem s'.mem pages.root 3 p
  outside : ∀ t, ¬ pages.Owned t → s'.mem t = s.mem t
  walk : TablesWithin tableLink s.mem org (level+1) (fun t => ¬ pages.Owned t) →
    ∀ j : Fin 512, j.val < n → ∀ path, path.length = level + 1 →
      Mirrors (trace tableLink s'.mem vm (j::path)) (trace tableLink s.mem org (j::path))

theorem CopiedUpTo.next {level org vm : Nat} {p : List (Fin 512)} {n : Nat} {s s' : HostTables}
    (h : CopiedUpTo pages level org vm p n s s') (spec : CopySpec pages level)
    (at_p : tableAt tableLink s.mem pages.root p = some vm) (size : p.length + (level + 1) = 3)
    (bound : n < 512)
    (room : (dupEntry pages (dupTable pages level) org vm (Fin.ofNat 512 n) s').allocIndex ≤
      pages.allocCount) :
    CopiedUpTo pages level org vm p (n+1) s
      (dupEntry pages (dupTable pages level) org vm (Fin.ofNat 512 n) s') := by
  have at_p' := h.below.table (by omega) at_p
  obtain ⟨step,walk⟩ := dupEntry_copies spec h.inv at_p' size (Fin.ofNat 512 n) room
  refine ⟨step.inv,h.below.trans step.through.below,
    fun t foreign => (step.outside t foreign).trans (h.outside t foreign),?_⟩
  intro foreign j earlier path long
  by_cases last : j = Fin.ofNat 512 n
  · subst j
    rw [← (foreign.agree h.outside _ (by simp [long])).1]
    exact walk (foreign.congr h.outside) path long
  · have before : j.val < n := by
      have other : j.val ≠ n := fun same => last (Fin.ext (by simp [same,Nat.mod_eq_of_lt bound]))
      omega
    rw [step.through.sibling at_p' last path (by omega)]
    exact h.walk foreign j before path long

theorem copySpec_succ {level : Nat} (spec : CopySpec pages level) : CopySpec pages (level+1) := by
  intro org vm p s inv at_p size room
  have copied : CopiedUpTo pages level org vm p 512 s (dupTable pages (level+1) org vm s) := by
    refine loop_invariant (fun n (s' : HostTables) => s'.allocIndex ≤ pages.allocCount →
      CopiedUpTo pages level org vm p n s s') ?_ ?_ room
    · intro _
      exact ⟨inv,.refl _ _ _ _,fun _ _ => rfl,fun _ _ none => absurd none (Nat.not_lt_zero _)⟩
    · intro n bound s' before room'
      have grown := (dupEntry_mono pages (dupTable_mono pages level) org vm (Fin.ofNat 512 n) s').1
      exact (before (grown.trans room')).next spec at_p size bound room'
  refine ⟨copied.inv,copied.below,copied.outside,?_⟩
  intro foreign path long
  obtain ⟨j,rest,rfl⟩ := List.exists_cons_of_length_eq_add_one long
  exact copied.walk foreign j j.isLt rest (by simpa using long)

theorem copySpec (level : Nat) : CopySpec pages level := by
  induction level with
  | zero => exact copySpec_zero
  | succ level ih => exact copySpec_succ ih

end Copy

section Duplicate
variable {pages : HostPages} {s : HostTables}

theorem pml4_pages_ne : pages.root ≠ pageOf (pages.page .pml4Next) := fun same => by
  cases pages.distinct .pml4 .pml4Next trivial trivial same

theorem zeroedPml4_inv (s : HostTables) : HostInv pages (zeroedPml4 pages s) := by
  have none : ∀ j, tableLink ((zeroedPml4 pages s).mem pages.root j) = none := fun j => by
    simp only [zeroedPml4]
    rw [Paged.setPage_ne _ _ pml4_pages_ne,Paged.setPage_self]
    exact tableLink_eq_none.mpr (.inl rfl)
  have only : ∀ (q : List (Fin 512)) t,
      tableAt tableLink (zeroedPml4 pages s).mem pages.root q = some t → q = [] ∧ t = pages.root := by
    intro q t at_q
    cases q with
    | nil => exact ⟨rfl,(Option.some.inj at_q).symm⟩
    | cons j rest => simp [tableAt,none] at at_q
  constructor
  · intro p q t _ _ at_p at_q
    rw [(only p t at_p).1,(only q t at_q).1]
  · intro q t _ at_q
    exact ⟨.pml4,trivial,trivial,(only q t at_q).2⟩

theorem zeroedPml4_outside (s : HostTables) {t : Nat} (foreign : ¬ pages.Owned t) :
    (zeroedPml4 pages s).mem t = s.mem t := by
  simp only [zeroedPml4]
  rw [Paged.setPage_ne,Paged.setPage_ne]
  · exact fun own => foreign ⟨.pml4,trivial,own⟩
  · exact fun own => foreign ⟨.pml4Next,trivial,own⟩

/-- The duplicated table is a separate tree, and its walks read what those of the
kernel's table do. -/
theorem hbDupPageTableForHost_copies (s : HostTables)
    (room : (hbDupPageTableForHost pages false s).allocIndex ≤ pages.allocCount) :
    HostInv pages (hbDupPageTableForHost pages false s) ∧
      (∀ t, ¬ pages.Owned t → (hbDupPageTableForHost pages false s).mem t = s.mem t) ∧
      (TablesWithin tableLink s.mem (pageOf pages.initPml4) 3 (fun t => ¬ pages.Owned t) →
        ∀ path, path.length = 4 →
          Mirrors (trace tableLink (hbDupPageTableForHost pages false s).mem pages.root path)
            (trace tableLink s.mem (pageOf pages.initPml4) path)) := by
  simp only [hbDupPageTableForHost,Bool.false_eq_true,if_false] at room ⊢
  have copied := copySpec 3 (pageOf pages.initPml4) pages.root [] (zeroedPml4 pages s)
    (zeroedPml4_inv s) rfl rfl room
  have same : ∀ t, ¬ pages.Owned t → (zeroedPml4 pages s).mem t = s.mem t :=
    fun _ => zeroedPml4_outside s
  refine ⟨copied.inv,fun t foreign => (copied.outside t foreign).trans (same t foreign),?_⟩
  intro foreign path long
  rw [← (foreign.agree same path (by omega)).1]
  exact copied.walk (foreign.congr same) path long

theorem hbDupPageTableForHost_limit (pages : HostPages) (s : HostTables) :
    (hbDupPageTableForHost pages false s).allocIndex ≤ s.allocIndex + copyLimit 3 := by
  simp only [hbDupPageTableForHost,Bool.false_eq_true,if_false]
  exact dupTable_limit pages 3 _ _ _

theorem hbDupPageTableForHost_pops (pages : HostPages) (s : HostTables) :
    (hbDupPageTableForHost pages false s).popIndex = s.popIndex := by
  simp only [hbDupPageTableForHost,Bool.false_eq_true,if_false]
  exact (dupTable_mono pages 3 _ _ _).2

end Duplicate

end HyperBox.PageTable
