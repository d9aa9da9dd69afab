import HyperBox.PageTable.Mapping

/-! The host page table is Hyper-box's own. Every table that it links is a page which
Hyper-box has obtained and hidden, whatever page tables the guest lets it synchronise with,
even such as lie in Hyper-box's pages; and after the duplication it maps every address as
the kernel's table does without sharing a table with it. -/
namespace HyperBox.PageTable
open HyperBox.Library

/-- `hb_setup_memory_pool`: every page of the pool is hidden when it is obtained. -/
def hbSetupMemoryPool (pages : HostPages) (s : HostTables) : HostTables :=
  loop pages.maxCount (fun i s => { s with hidden := pageOf (pages.page (.pool i))::s.hidden })
    { s with popIndex := 0 }

section Sync
variable {env : SyncEnv} {s : HostTables}

/-- `vm` is the table at the end of `p`, or a page that has been handed out and is not in the
tree, as when the flags of its entry were read from the new page itself. -/
def Placed (env : SyncEnv) (s : HostTables) (p : List (Fin 512)) (vm : Nat) : Prop :=
  tableAt tableLink s.mem env.root p = some vm ∨
    Used env.toHostPages s vm ∧
      (∀ q : List (Fin 512), q.length ≤ 3 → tableAt tableLink s.mem env.root q ≠ some vm) ∧
      ((∀ j, tableLink (s.mem vm j) = none) ∨ p.length = 3)

theorem Placed.used {p : List (Fin 512)} {vm : Nat} (inv : HostInv env.toHostPages s)
    (placed : Placed env s p vm) (short : p.length ≤ 3) : Used env.toHostPages s vm := by
  rcases placed with at_p | ⟨used,_⟩
  · exact inv.inside p vm short at_p
  · exact used

theorem write_inv {p : List (Fin 512)} {vm : Nat} (inv : HostInv env.toHostPages s)
    (placed : Placed env s p vm) (short : p.length ≤ 3) (i : Fin 512) (entry : U64)
    (plain : tableLink entry = none ∨ p.length = 3) :
    HostInv env.toHostPages { s with mem := s.mem.write vm i entry } := by
  rcases placed with at_p | ⟨_,off,_⟩
  · exact inv.write_plain at_p short i entry plain
  · exact (inv.write_off off i entry).1

section Built
variable {p : List (Fin 512)} {vm n : Nat} {i : Fin 512} {leaf flags : U64}

/-- The new table is outside the tree when the entry written for it does not count as a link, or
is itself written outside the tree. -/
theorem builtTable_off (inv : HostInv env.toHostPages s) (placed : Placed env s p vm)
    (size : p.length + (n+1) = 3) (obtained : env.Obtains (.pool s.popIndex))
    (sep : Separate tableLink (builtTable env leaf n vm i flags s).mem env.root 3 (Used env.toHostPages s)) :
    HostInv env.toHostPages (builtTable env leaf n vm i flags s) ∧
      Placed env (builtTable env leaf n vm i flags s) (p ++ [i]) (pageOf (env.page (.pool s.popIndex))) := by
  have unused : ¬ Used env.toHostPages s (pageOf (env.page (.pool s.popIndex))) :=
    not_used obtained (Nat.lt_irrefl _)
  refine ⟨?_,.inr ⟨?_,?_,?_⟩⟩
  · apply sep.mono
    rintro t ⟨x,valid,out,rfl⟩
    exact ⟨x,valid,(builtTable_out x).mpr (.inl out),rfl⟩
  · exact ⟨_,obtained,(builtTable_out _).mpr (.inr rfl),rfl⟩
  · intro q bound at_q
    exact unused (sep.inside q _ bound at_q)
  · have apart : pageOf (env.page (.pool s.popIndex)) ≠ vm := fun same =>
      unused (same ▸ placed.used inv (by omega))
    have content : (builtTable env leaf n vm i flags s).mem (pageOf (env.page (.pool s.popIndex))) =
        expandEntry leaf (expandSize n) :=
      (Paged.write_page_ne _ _ _ apart).trans (Paged.setPage_self _ _ _)
    rw [content]
    simpa using built_plain leaf size

theorem builtTable_placed (inv : HostInv env.toHostPages s) (placed : Placed env s p vm)
    (size : p.length + (n+1) = 3) (obtained : env.Obtains (.pool s.popIndex)) :
    HostInv env.toHostPages (builtTable env leaf n vm i flags s) ∧
      Placed env (builtTable env leaf n vm i flags s) (p ++ [i]) (pageOf (env.page (.pool s.popIndex))) := by
  have fresh : ¬ HandedOut s (.pool s.popIndex) := Nat.lt_irrefl _
  have unused := not_used obtained fresh
  have paged := inv.setPage unused (expandEntry leaf (expandSize n))
  have kept : ∀ q : List (Fin 512), q.length ≤ 4 →
      tableAt tableLink (s.mem.setPage (pageOf (env.page (.pool s.popIndex))) (expandEntry leaf (expandSize n)))
        env.root q = tableAt tableLink s.mem env.root q :=
    fun q bound => (inv.setPage_unused unused _ bound).2
  rcases placed with at_p | ⟨used,away,plain⟩
  · cases small : isSizeFlagSet flags with
    | true =>
      have plain : tableLink (linkEntry (env.page (.pool s.popIndex)) flags) = none :=
        tableLink_eq_none.mpr (.inr (by simpa using small))
      apply builtTable_off inv (.inl at_p) size obtained
      exact paged.write_plain ((kept p (by omega)).trans at_p) (by omega) i _ (.inl plain)
    | false =>
      exact ⟨(slotStep_built inv at_p size obtained small).inv,.inl (tableAt_built inv at_p size obtained small)⟩
  · apply builtTable_off inv (.inr ⟨used,away,plain⟩) size obtained
    refine (paged.write_off ?_ i _).1
    intro q bound at_q
    exact away q bound ((kept q (by omega)).symm.trans at_q)

end Built

section Levels
variable {p : List (Fin 512)} {vm init n : Nat} {i : Fin 512} {leaf expandValue : U64} {s' : HostTables}

/-- What the locked part of a call leaves as it is. -/
structure SyncKeeps (env : SyncEnv) (s s' : HostTables) : Prop where
  inv : HostInv env.toHostPages s'
  allocs : s'.allocIndex = s.allocIndex
  hidden : s'.hidden = s.hidden
  outside : ∀ t, ¬ env.Owned t → s'.mem t = s.mem t

theorem SyncKeeps.trans {s'' : HostTables} (first : SyncKeeps env s s') (second : SyncKeeps env s' s'') :
    SyncKeeps env s s'' where
  inv := second.inv
  allocs := second.allocs.trans first.allocs
  hidden := second.hidden.trans first.hidden
  outside := fun t foreign => (second.outside t foreign).trans (first.outside t foreign)

/-- The tables when a call returns, or when it finds the pool empty. -/
def callTables : Except HostTables (HostTables × U64) → HostTables
  | .error s => s
  | .ok (s,_) => s

theorem write_keeps (inv : HostInv env.toHostPages s) (placed : Placed env s p vm) (short : p.length ≤ 3) (entry : U64)
    (plain : tableLink entry = none ∨ p.length = 3) : SyncKeeps env s { s with mem := s.mem.write vm i entry } where
  inv := write_inv inv placed short i entry plain
  allocs := rfl
  hidden := rfl
  outside := fun _ foreign => s.mem.write_page_ne i entry (fun same => foreign (same ▸ (placed.used inv short).owned))

theorem syncTable_placed {expandValue' : U64} (inv : HostInv env.toHostPages s)
    (placed : Placed env s p vm) (size : p.length + (n+1) = 3)
    (returned : syncTable env leaf (expandSize n) vm init i expandValue s = .ok (s',expandValue')) :
    SyncKeeps env s s' ∧ Placed env s' (p ++ [i]) (tableOf (s'.mem vm i)) := by
  cases found : tableLink (s.mem vm i) with
  | some next =>
    rw [syncTable_old leaf n expandValue (by simp [found])] at returned
    cases returned
    refine ⟨⟨inv,rfl,rfl,fun _ _ => rfl⟩,?_⟩
    rcases placed with at_p | ⟨_,_,plain | last⟩
    · left
      rw [tableAt_snoc at_p,found,tableLink_target found]
    · rw [plain i] at found
      cases found
    · omega
  | none =>
    by_cases room : s.popIndex < env.maxCount
    · have obtained : env.Obtains (.pool s.popIndex) := room
      obtain ⟨value,built⟩ := @syncTable_built env vm init s i leaf n expandValue found room
      rw [built] at returned
      cases returned
      obtain ⟨inv',placed'⟩ := builtTable_placed inv placed size obtained
      refine ⟨⟨inv',rfl,rfl,?_⟩,?_⟩
      · intro t foreign
        have table : t ≠ vm := fun same => foreign (same ▸ (placed.used inv (by omega)).owned)
        have page : t ≠ pageOf (env.page (.pool s.popIndex)) := fun same => foreign ⟨_,obtained,same⟩
        exact (Paged.write_page_ne _ _ _ table).trans (Paged.setPage_ne _ _ page)
      · rw [builtTable_slot,tableOf_linkEntry obtained]
        exact placed'
    · rw [syncTable_exhausted leaf n expandValue found (by omega)] at returned
      cases returned

theorem syncTable_error (failed : syncTable env leaf (expandSize n) vm init i expandValue s = .error s') : s' = s := by
  cases found : tableLink (s.mem vm i) with
  | some next =>
    rw [syncTable_old leaf n expandValue (by simp [found])] at failed
    cases failed
  | none =>
    by_cases room : s.popIndex < env.maxCount
    · obtain ⟨value,built⟩ := @syncTable_built env vm init s i leaf n expandValue found room
      rw [built] at failed
      cases failed
    · rw [syncTable_exhausted leaf n expandValue found (by omega)] at failed
      cases failed
      rfl

theorem syncLevels_keeps (rest : List (Fin 512)) :
    ∀ (i : Fin 512) (p : List (Fin 512)) (vm init : Nat) (expandValue : U64) (s : HostTables),
      HostInv env.toHostPages s → Placed env s p vm → p.length + rest.length = 3 →
      SyncKeeps env s (callTables (syncLevels env leaf (i::rest) vm init expandValue s)) := by
  induction rest with
  | nil =>
    intro i p vm init expandValue s inv placed size
    exact write_keeps inv placed (by omega) _ (.inr (by simpa using size))
  | cons j rest ih =>
    intro i p vm init expandValue s inv placed size
    rw [List.length_cons] at size
    by_cases plain : s.mem init i = 0 ∨ isSizeFlagSet (s.mem init i) = true
    · simp only [syncLevels,if_pos plain]
      exact write_keeps inv placed (by omega) _ (.inl (tableLink_eq_none.mpr plain))
    · simp only [syncLevels,if_neg plain]
      cases step : syncTable env leaf (expandSize rest.length) vm init i expandValue s with
      | error s' =>
        obtain rfl := syncTable_error step
        exact ⟨inv,rfl,rfl,fun _ _ => rfl⟩
      | ok result =>
        obtain ⟨between,value⟩ := result
        obtain ⟨first,placed'⟩ := syncTable_placed inv placed (by omega) step
        exact first.trans (ih j (p ++ [i]) _ _ _ _ first.inv placed' (by simp; omega))

end Levels

end Sync

theorem hbSyncPageTable_keeps {env : SyncEnv} {s : HostTables} (inv : HostInv env.toHostPages s) (addr cr3 : U64)
    (syncDirectMapping : Bool) :
    SyncKeeps env s (callTables (hbSyncPageTable env s addr cr3 syncDirectMapping)) := by
  unfold hbSyncPageTable
  split
  · exact ⟨inv,rfl,rfl,fun _ _ => rfl⟩
  · exact syncLevels_keeps _ _ [] _ _ _ _ inv (.inl rfl) rfl

section Hidden
variable {pages : HostPages} {s s' : HostTables}

def KernelHidden (pages : HostPages) (s : HostTables) : Prop :=
  ∀ k < s.allocIndex, pageOf (pages.page (.kernel k)) ∈ s.hidden

/-- The pages passed to `hb_hide_range`: all of the pool, and what the duplication has obtained
so far. -/
structure HiddenInv (pages : HostPages) (s : HostTables) : Prop where
  pml4 : pages.root ∈ s.hidden
  pml4Next : pageOf (pages.page .pml4Next) ∈ s.hidden
  kernel : KernelHidden pages s
  pool : ∀ k < pages.maxCount, pageOf (pages.page (.pool k)) ∈ s.hidden

theorem HiddenInv.used (h : HiddenInv pages s) {t : Nat} (used : Used pages s t) : t ∈ s.hidden := by
  obtain ⟨x,obtained,out,rfl⟩ := used
  cases x with
  | pml4 => exact h.pml4
  | pml4Next => exact h.pml4Next
  | kernel k => exact h.kernel k out
  | pool k => exact h.pool k obtained

theorem hbSetupMemoryPool_tables (pages : HostPages) (s : HostTables) :
    (hbSetupMemoryPool pages s).mem = s.mem ∧ (hbSetupMemoryPool pages s).allocIndex = s.allocIndex ∧
      (hbSetupMemoryPool pages s).popIndex = 0 :=
  loop_invariant (fun _ (s' : HostTables) => s'.mem = s.mem ∧ s'.allocIndex = s.allocIndex ∧ s'.popIndex = 0)
    ⟨rfl,rfl,rfl⟩ (fun _ _ _ same => same)

theorem hbSetupMemoryPool_hidden (pages : HostPages) (s : HostTables) (t : Nat) :
    t ∈ (hbSetupMemoryPool pages s).hidden ↔
      t ∈ s.hidden ∨ ∃ k < pages.maxCount, t = pageOf (pages.page (.pool k)) := by
  refine loop_invariant (fun n (s' : HostTables) => t ∈ s'.hidden ↔
    t ∈ s.hidden ∨ ∃ k < n, t = pageOf (pages.page (.pool k))) (by simp) ?_
  intro n _ s' before
  simp only [List.mem_cons,before]
  constructor
  · rintro (rfl | old | ⟨k,bound,rfl⟩)
    · exact .inr ⟨n,Nat.lt_succ_self n,rfl⟩
    · exact .inl old
    · exact .inr ⟨k,Nat.lt_succ_of_lt bound,rfl⟩
  · rintro (old | ⟨k,bound,rfl⟩)
    · exact .inr (.inl old)
    · rcases Nat.lt_succ_iff_lt_or_eq.mp bound with earlier | rfl
      · exact .inr (.inr ⟨k,earlier,rfl⟩)
      · exact .inl rfl

/-- The pages that `s'` has taken from the allocator since `s` are hidden, and nothing else has
been hidden since. -/
structure Grows (pages : HostPages) (s s' : HostTables) : Prop where
  allocs : s.allocIndex ≤ s'.allocIndex
  wider : s.hidden ⊆ s'.hidden
  kernel : KernelHidden pages s → KernelHidden pages s'
  only : ∀ t ∈ s'.hidden, t ∈ s.hidden ∨ ∃ k < s'.allocIndex, t = pageOf (pages.page (.kernel k))

namespace Grows

theorem of_same (allocs : s'.allocIndex = s.allocIndex) (same : s'.hidden = s.hidden) : Grows pages s s' := by
  refine ⟨Nat.le_of_eq allocs.symm,fun t old => same ▸ old,?_,fun t old => .inl (same ▸ old)⟩
  intro before k bound
  rw [same]
  exact before k (allocs ▸ bound)

theorem trans {s'' : HostTables} (first : Grows pages s s') (second : Grows pages s' s'') : Grows pages s s'' := by
  refine ⟨first.allocs.trans second.allocs,List.Subset.trans first.wider second.wider,
    fun before => second.kernel (first.kernel before),?_⟩
  intro t late
  rcases second.only t late with between | new
  · rcases first.only t between with old | ⟨k,bound,rfl⟩
    · exact .inl old
    · exact .inr ⟨k,Nat.lt_of_lt_of_le bound second.allocs,rfl⟩
  · exact .inr new

end Grows

theorem dupLink_grows (vm : Nat) (i : Fin 512) (entry : U64) (s : HostTables) :
    Grows pages s (dupLink pages vm i entry s) := by
  refine ⟨Nat.le_succ _,List.subset_cons_self _ _,?_,?_⟩
  · intro before k bound
    rcases Nat.lt_succ_iff_lt_or_eq.mp bound with earlier | rfl
    · exact List.mem_cons_of_mem _ (before k earlier)
    · exact List.mem_cons_self
  · intro t member
    rcases List.mem_cons.mp member with rfl | old
    · exact .inr ⟨s.allocIndex,Nat.lt_succ_self _,rfl⟩
    · exact .inl old

theorem dupTable_grows (pages : HostPages) (level : Nat) : ∀ (org vm : Nat) (s : HostTables),
    Grows pages s (dupTable pages level org vm s) := by
  induction level with
  | zero => exact fun _ _ _ => .of_same rfl rfl
  | succ level ih =>
    intro org vm s
    refine loop_invariant (fun _ => Grows pages s) (.of_same rfl rfl) ?_
    intro i _ s' grown
    refine grown.trans ?_
    unfold dupEntry
    dsimp only
    split
    · exact .of_same rfl rfl
    · exact (dupLink_grows vm _ _ s').trans (ih _ _ _)

theorem hbDupPageTableForHost_grows (pages : HostPages) (s : HostTables) :
    Grows pages (zeroedPml4 pages s) (hbDupPageTableForHost pages false s) := by
  simp only [hbDupPageTableForHost,Bool.false_eq_true,if_false]
  exact dupTable_grows pages 3 _ _ _

theorem hbDupPageTableForHost_hides (kernel : KernelHidden pages s)
    (pool : ∀ k < pages.maxCount, pageOf (pages.page (.pool k)) ∈ s.hidden) :
    HiddenInv pages (hbDupPageTableForHost pages false s) := by
  have grows := hbDupPageTableForHost_grows pages s
  have wider : s.hidden ⊆ (zeroedPml4 pages s).hidden :=
    List.Subset.trans (List.subset_cons_self _ _) (List.subset_cons_self _ _)
  refine ⟨grows.wider ?_,grows.wider ?_,grows.kernel ?_,fun k bound => grows.wider (wider (pool k bound))⟩
  · exact List.mem_cons_of_mem _ List.mem_cons_self
  · exact List.mem_cons_self
  · exact fun k bound => wider (kernel k bound)

/-- What is hidden after the pool and the duplication: their pages and no others. -/
theorem duplicated_hidden (pages : HostPages) (mem : Mem) (popIndex t : Nat) {s : HostTables}
    (result : s = hbDupPageTableForHost pages false (hbSetupMemoryPool pages ⟨mem,0,popIndex,[]⟩))
    (room : s.allocIndex ≤ pages.allocCount) :
    t ∈ s.hidden ↔ ∃ x, pages.Obtains x ∧ (∀ k, x = .kernel k → k < s.allocIndex) ∧ t = pageOf (pages.page x) := by
  have hides : HiddenInv pages s := by
    rw [result]
    refine hbDupPageTableForHost_hides ?_ (fun k bound => (hbSetupMemoryPool_hidden _ _ _).mpr (.inr ⟨k,bound,rfl⟩))
    intro k bound
    rw [(hbSetupMemoryPool_tables _ _).2.1] at bound
    exact absurd bound (Nat.not_lt_zero _)
  constructor
  · intro member
    have grows := hbDupPageTableForHost_grows pages (hbSetupMemoryPool pages ⟨mem,0,popIndex,[]⟩)
    rw [← result] at grows
    rcases grows.only t member with early | ⟨k,bound,rfl⟩
    · rcases List.mem_cons.mp early with rfl | early
      · exact ⟨.pml4Next,trivial,nofun,rfl⟩
      · rcases List.mem_cons.mp early with rfl | early
        · exact ⟨.pml4,trivial,nofun,rfl⟩
        · rcases (hbSetupMemoryPool_hidden _ _ _).mp early with none | ⟨k,bound,rfl⟩
          · cases none
          · exact ⟨.pool k,bound,nofun,rfl⟩
    · refine ⟨.kernel k,Nat.lt_of_lt_of_le bound room,?_,rfl⟩
      rintro j ⟨⟩
      exact bound
  · rintro ⟨x,obtained,taken,rfl⟩
    cases x with
    | pml4 => exact hides.pml4
    | pml4Next => exact hides.pml4Next
    | kernel k => exact hides.kernel k (taken k rfl)
    | pool k => exact hides.pool k obtained

end Hidden

/-- The states that follow the duplication: calls of `hb_sync_page_table` with any tables, between
which memory that Hyper-box has not taken changes freely. -/
inductive HostSynced (env : SyncEnv) : HostTables → Prop
  | duplicated (mem : Mem) (popIndex : Nat) (hidden : List Nat)
    (room : (hbDupPageTableForHost env.toHostPages false
      (hbSetupMemoryPool env.toHostPages ⟨mem,0,popIndex,hidden⟩)).allocIndex ≤ env.allocCount) :
    HostSynced env (hbDupPageTableForHost env.toHostPages false
      (hbSetupMemoryPool env.toHostPages ⟨mem,0,popIndex,hidden⟩))
  | synced {s s' : HostTables} {addr cr3 expandValue : U64} {syncDirectMapping : Bool}
    (reached : HostSynced env s)
    (returned : hbSyncPageTable env s addr cr3 syncDirectMapping = .ok (s',expandValue)) : HostSynced env s'
  | guest {s : HostTables} (mem : Mem) (reached : HostSynced env s)
    (same : ∀ t, Used env.toHostPages s t → mem t = s.mem t) : HostSynced env { s with mem := mem }

theorem HostSynced.inv {env : SyncEnv} {s : HostTables} (h : HostSynced env s) :
    HostInv env.toHostPages s ∧ HiddenInv env.toHostPages s := by
  induction h with
  | duplicated mem popIndex hidden room =>
    refine ⟨(hbDupPageTableForHost_copies _ room).1,hbDupPageTableForHost_hides ?_
      (fun k bound => (hbSetupMemoryPool_hidden _ _ _).mpr (.inr ⟨k,bound,rfl⟩))⟩
    intro k bound
    rw [(hbSetupMemoryPool_tables _ _).2.1] at bound
    exact absurd bound (Nat.not_lt_zero _)
  | @synced _ _ addr cr3 _ syncDirectMapping _ returned ih =>
    obtain ⟨inv,hides⟩ := ih
    have keeps := hbSyncPageTable_keeps inv addr cr3 syncDirectMapping
    simp only [returned,callTables] at keeps
    obtain ⟨inv',allocs,same,_⟩ := keeps
    refine ⟨inv',?_,?_,?_,?_⟩
    · exact same ▸ hides.pml4
    · exact same ▸ hides.pml4Next
    · intro k bound
      rw [same]
      exact hides.kernel k (allocs ▸ bound)
    · exact same ▸ hides.pool
  | guest mem _ same ih =>
    obtain ⟨inv,hides⟩ := ih
    exact ⟨inv.congr same,hides.pml4,hides.pml4Next,hides.kernel,hides.pool⟩

theorem Mirrors.length {xs ys : List U64} (h : Mirrors xs ys) : xs.length = ys.length := by
  induction h with
  | last => rfl
  | table _ _ _ ih => exact congrArg (· + 1) ih

theorem exists_sampled_synced : ∃ s, Sampled s ∧ HostSynced sampleEnv s := by
  obtain ⟨mem,allocs,pops⟩ := hbSetupMemoryPool_tables sampleEnv.toHostPages ⟨sampleMem,0,0,[]⟩
  have room := hbDupPageTableForHost_limit sampleEnv.toHostPages
    (hbSetupMemoryPool sampleEnv.toHostPages ⟨sampleMem,0,0,[]⟩)
  rw [allocs,Nat.zero_add] at room
  exact ⟨_,sampled_duplicate mem allocs pops,.duplicated sampleMem 0 [] room⟩

/-- A call for a page that the host does not have yet: three tables are built. -/
theorem sampled_builds {s : HostTables} (sampled : Sampled s) (reached : HostSynced sampleEnv s) :
    tableLink (s.mem sampleEnv.root 0) = none ∧ ∃ s' expandValue next,
      hbSyncPageTable sampleEnv s 0x1000 sampleCr3 true = .ok (s',expandValue) ∧
      tableLink (s'.mem sampleEnv.root 0) = some next := by
  have inv := reached.inv.1
  have entry : guestEntry s 0x1000 sampleCr3 = 0x50003 := sampled.guestEntry_eq (by decide)
  obtain ⟨walk,host⟩ := sampled.emptyHost (show sampleMem 1 (pml4Index 0x1000) = 0 by decide)
  have first : pml4Index 0x1000 = 0 := by decide
  have slot : s.mem sampleEnv.root (pml4Index 0x1000) = 0 := by simpa [indexes,trace] using congrArg List.head? walk
  rw [first] at slot
  have goes : syncSkipped sampleEnv s 0x1000 sampleCr3 true = false := by
    rw [syncSkipped,entry,host]
    decide
  have guest : trace tableLink s.mem (guestRoot sampleCr3) (indexes 0x1000) = [0x41003,0x42003,0x43003,0x50003] := by
    rw [guestRoot,show pageOf (getAddr sampleCr3) = 0x40 by decide,sampled.guest (Nat.le_refl _)]
    decide
  obtain ⟨⟨s',expandValue⟩,returned⟩ := (hbSyncPageTable_spec true inv (sampled.outside 0x1000)).1 sampled.enough
  have access := hbSyncPageTable_access inv (sampled.outside 0x1000) returned 0x1000
  have linked : tableLink (s'.mem sampleEnv.root 0) ≠ none := by
    intro none
    rw [callEntries,goes,walk,guest,entry,indexes,first,trace_plain _ none] at access
    have found : (decodeAccess 0x1000 3 [s'.mem sampleEnv.root 0]).isSome := by
      rw [access]
      decide
    simp [decodeAccess,largeFormatted] at found
  obtain ⟨next,linked⟩ := Option.ne_none_iff_exists'.mp linked
  exact ⟨tableLink_eq_none.mpr (.inl slot),s',expandValue,next,returned,linked⟩

section Copy
variable {pages : HostPages} {s : HostTables}

/-- The page is a table of the kernel's page table. -/
def OriginalTable (pages : HostPages) (mem : Mem) (t : Nat) : Prop :=
  ∃ p : List (Fin 512), p.length ≤ 3 ∧ tableAt tableLink mem (pageOf pages.initPml4) p = some t

theorem phyAddr3_congr {mem mem' : Mem} {pml4 addr : U64}
    (same : trace tableLink mem' (pageOf pml4) (indexes addr) = trace tableLink mem (pageOf pml4) (indexes addr)) :
    (hbGetPhyFromLog mem' pml4 addr).phyAddr3 = (hbGetPhyFromLog mem pml4 addr).phyAddr3 := by
  rw [phyAddr3_eq,phyAddr3_eq,same]

/-- After the duplication the host page table has the leaves of the kernel's, which is left as it
was, and no later change of the kernel's tables reaches it. -/
theorem duplicate_leaves
    (room : (hbDupPageTableForHost pages false s).allocIndex ≤ pages.allocCount)
    (fresh : ∀ t, OriginalTable pages s.mem t → ¬ pages.Owned t) (addr : U64) :
    (hbGetPhyFromLog (hbDupPageTableForHost pages false s).mem pages.hostPml4 addr).phyAddr3 =
        (hbGetPhyFromLog s.mem pages.initPml4 addr).phyAddr3 ∧
      (hbGetPhyFromLog (hbDupPageTableForHost pages false s).mem pages.initPml4 addr).phyAddr3 =
        (hbGetPhyFromLog s.mem pages.initPml4 addr).phyAddr3 ∧
      (∀ (p : List (Fin 512)) (t : Nat), p.length ≤ 3 →
        tableAt tableLink (hbDupPageTableForHost pages false s).mem pages.root p = some t →
        ¬ OriginalTable pages s.mem t) ∧
      ∀ mem : Mem,
        (∀ t, ¬ OriginalTable pages s.mem t → mem t = (hbDupPageTableForHost pages false s).mem t) →
        (hbGetPhyFromLog mem pages.hostPml4 addr).phyAddr3 =
          (hbGetPhyFromLog (hbDupPageTableForHost pages false s).mem pages.hostPml4 addr).phyAddr3 := by
  have foreign : TablesWithin tableLink s.mem (pageOf pages.initPml4) 3 (fun t => ¬ pages.Owned t) :=
    fun p t short at_p => fresh t ⟨p,short,at_p⟩
  obtain ⟨inv,outside,copies⟩ := hbDupPageTableForHost_copies s room
  generalize hbDupPageTableForHost pages false s = s' at inv outside copies ⊢
  have apart : TablesWithin tableLink s'.mem pages.root 3 (fun t => ¬ OriginalTable pages s.mem t) := by
    intro p t short at_p original
    exact fresh t original (inv.inside p t short at_p).owned
  refine ⟨?_,?_,apart,?_⟩
  · rw [phyAddr3_eq,phyAddr3_eq]
    exact (copies foreign (indexes addr) rfl).walkLeaf addr 3 (trace_length_le _ _ _)
  · exact phyAddr3_congr (foreign.agree outside _ (Nat.le_refl _)).1
  · intro mem same
    exact phyAddr3_congr (apart.agree same _ (Nat.le_refl _)).1

theorem duplicate_leaves_sample :
    (hbGetPhyFromLog (hbDupPageTableForHost sampleEnv.toHostPages false ⟨sampleMem,0,0,[]⟩).mem
      sampleEnv.hostPml4 0xffffffffc0000000).phyAddr3 = 0x60003 := by
  have room := hbDupPageTableForHost_limit sampleEnv.toHostPages ⟨sampleMem,0,0,[]⟩
  rw [Nat.zero_add] at room
  have leaves := (duplicate_leaves (s := ⟨sampleMem,0,0,[]⟩) room (fun t ⟨p,short,at_p⟩ =>
    sampleTables_within (by decide) p t short at_p) 0xffffffffc0000000).1
  rw [leaves]
  decide

end Copy

end HyperBox.PageTable
