import HyperBox.PageTable.Sync

/-! What a synchronisation does to the host's address space: `hbSyncPageTable_spec` gives the
host leaf of every address after a call, and `hbSyncPageTable_access` what the processor then
finds there, both from the two trees before it. -/
namespace HyperBox.PageTable
open HyperBox.Library

section Leaves
variable (env : SyncEnv) (s : HostTables) (addr orgTargetPhyPml4 : U64)

def hostLeaf (v : U64) : Option U64 := leafMapping s.mem env.hostPml4 v

def guestLeaf (v : U64) : Option U64 := leafMapping s.mem (getAddr orgTargetPhyPml4) v

def guestRoot : Nat := pageOf (getAddr orgTargetPhyPml4)

/-- The guest's walk of the operand address, when it finds a page, does not lead
through the pages of the host page table and of the pool, which are hidden from the
guest. -/
def GuestOutside : Prop :=
  isPresent (guestEntry s addr orgTargetPhyPml4) = true →
    PathWithin tableLink s.mem (guestRoot orgTargetPhyPml4) (indexes addr) (fun t => ¬ env.Owned t)

/-- What a call does to the leaf of `v`, by the state before it. -/
def callEffect (syncDirectMapping : Bool) (v : U64) : Effect :=
  if syncSkipped env s addr orgTargetPhyPml4 syncDirectMapping then .keep
  else
    syncEffect (trace tableLink s.mem env.root (indexes addr))
      (trace tableLink s.mem (guestRoot orgTargetPhyPml4) (indexes addr)) (indexes addr) (indexes v)

/-- The entries that a walk of `v` reads after the call, by the state before it. -/
def callEntries (syncDirectMapping : Bool) (v : U64) : List U64 :=
  if syncSkipped env s addr orgTargetPhyPml4 syncDirectMapping then trace tableLink s.mem env.root (indexes v)
  else
    syncedEntries (guestEntry s addr orgTargetPhyPml4) v (trace tableLink s.mem env.root (indexes addr))
      (trace tableLink s.mem (guestRoot orgTargetPhyPml4) (indexes addr)) (indexes addr) (indexes v)
      (trace tableLink s.mem env.root (indexes v))

end Leaves

section Walks
variable {mem : Mem}

theorem allPresent_of_leaf (addr : U64) (path : List (Fin 512)) :
    ∀ page, (leafFrom mem addr page path).isSome → AllPresent mem page path := by
  induction path with
  | nil => intro page _ entry member; cases member
  | cons i rest ih =>
    intro page found
    have present : isPresent (mem page i) = true := by
      by_contra absent
      rw [leafFrom_absent _ _ (by simpa using absent)] at found
      cases found
    by_cases stop : tableLink (mem page i) = none ∨ rest = []
    · intro entry member
      rw [trace_ends stop] at member
      obtain rfl := List.mem_singleton.mp member
      exact present
    · obtain ⟨linked,more⟩ := not_or.mp stop
      obtain ⟨j,rest,rfl⟩ := List.exists_cons_of_ne_nil more
      have small : isSizeFlagSet (mem page i) = false := by
        simpa using fun large => linked (tableLink_eq_none.mpr (.inr large))
      rw [leafFrom_table addr present small] at found
      intro entry member
      rw [trace_link _ (tableLink_present present small)] at member
      rcases List.mem_cons.mp member with rfl | below
      · exact present
      · exact ih _ found entry below

theorem leafMapping_some {root addr leaf : U64} (found : leafMapping mem root addr = some leaf) :
    (hbGetPhyFromLog mem root addr).phyAddr3 = leaf ∧ isPresent leaf = true := by
  unfold leafMapping at found
  dsimp only at found
  split at found
  next present => exact ⟨Option.some.inj found,Option.some.inj found ▸ present⟩
  next => cases found

theorem guestEntry_leaf {s : HostTables} {addr cr3 : U64} (present : isPresent (guestEntry s addr cr3) = true) :
    guestLeaf s cr3 addr = some (guestEntry s addr cr3) := if_pos present

theorem trace_take (as : List (Fin 512)) : ∀ (bs : List (Fin 512)) (page : Nat), bs.length = as.length →
    bs.take (trace tableLink mem page as).length = as.take (trace tableLink mem page as).length →
    trace tableLink mem page bs = trace tableLink mem page as := by
  induction as with
  | nil => intro bs page size _; rw [List.length_eq_zero_iff.mp size]
  | cons a as ih =>
    intro bs page size agree
    obtain ⟨b,bs,rfl⟩ := List.exists_cons_of_length_eq_add_one size
    cases found : tableLink (mem page a) with
    | none =>
      have same : b = a := by simpa [trace,found] using agree
      simp [trace,same,found]
    | some next =>
      rw [trace_link _ found,List.length_cons,List.take_succ_cons,List.take_succ_cons] at agree
      obtain ⟨same,below⟩ := List.cons.inj agree
      rw [same,trace_link _ found,trace_link _ found,ih bs next (by simpa using size) below]

theorem buildEffect_copy {gs : List U64} {as bs : List (Fin 512)} (copied : buildEffect gs as bs = .copy) :
    bs.take gs.length = as.take gs.length := by
  fun_induction buildEffect gs as bs <;> simp_all

theorem syncEffect_copy {hs gs : List U64} {as bs : List (Fin 512)}
    (copied : syncEffect hs gs as bs = .copy) : bs.take gs.length = as.take gs.length := by
  fun_induction syncEffect hs gs as bs with
  | case3 h as a bs b g gs same more => simp_all [buildEffect_copy copied]
  | _ => simp_all

theorem buildEffect_self {gs : List U64} {as : List (Fin 512)} (some : gs ≠ [])
    (bound : gs.length ≤ as.length) : buildEffect gs as as = .copy := by
  induction gs generalizing as with
  | nil => exact absurd rfl some
  | cons g gs ih =>
    cases as with
    | nil => simp at bound
    | cons a as =>
      by_cases last : gs = []
      · simp [buildEffect,last]
      · simp [buildEffect,last,ih last (by simpa using bound)]

theorem syncEffect_self {hs gs : List U64} {as : List (Fin 512)} (walked : hs ≠ [])
    (present : ∀ h ∈ hs, isPresent h = true) (some : gs ≠ []) (bound : gs.length ≤ as.length) :
    syncEffect hs gs as as = .copy := by
  induction gs generalizing hs as with
  | nil => exact absurd rfl some
  | cons g gs ih =>
    cases as with
    | nil => simp at bound
    | cons a as =>
      obtain ⟨h,hs,rfl⟩ := List.exists_cons_of_ne_nil walked
      have short : gs.length ≤ as.length := by simpa using bound
      have here := present h List.mem_cons_self
      by_cases last : gs = []
      · simp [syncEffect,last]
      · by_cases missing : hs = []
        · simp [syncEffect,last,missing,buildEffect_self last short]
        · have below := ih missing (fun x member => present x (List.mem_cons_of_mem h member)) last short
          simp [syncEffect,last,missing,here,below]

theorem copied_leaf {hs : List U64} {page : Nat} {addr v : U64}
    (copied : syncEffect hs (trace tableLink mem page (indexes addr)) (indexes addr) (indexes v) = .copy) :
    decodeLeaf v 3 (trace tableLink mem page (indexes addr)) = leafFrom mem v page (indexes v) := by
  rw [← trace_take (indexes addr) (indexes v) page rfl (syncEffect_copy copied)]
  rfl

end Walks

section Call
variable {env : SyncEnv} {s : HostTables} {addr cr3 : U64} {syncDirectMapping : Bool}

theorem skipped_absent (absent : isPresent (guestEntry s addr cr3) = false) :
    syncSkipped env s addr cr3 syncDirectMapping = true := by
  simp [syncSkipped,absent]

theorem indexes_last (v : U64) : (indexes v).getLast? = some (pteIndex v) := rfl

/-- The locked part of a call that is not skipped. -/
theorem syncLevels_call (inv : HostInv env.toHostPages s) (outside : GuestOutside env s addr cr3)
    (goes : syncSkipped env s addr cr3 syncDirectMapping = false) :
    (s.popIndex + 3 ≤ env.maxCount →
      ∃ result, hbSyncPageTable env s addr cr3 syncDirectMapping = .ok result) ∧
    ∀ s' expandValue, hbSyncPageTable env s addr cr3 syncDirectMapping = .ok (s',expandValue) →
      Synced env (guestEntry s addr cr3) (indexes addr) [] env.root (guestRoot cr3) s s' := by
  have present : isPresent (guestEntry s addr cr3) = true := by
    by_contra absent
    simp [skipped_absent (by simpa using absent)] at goes
  have found : (leafFrom s.mem addr (guestRoot cr3) (indexes addr)).isSome := by
    rw [guestRoot,← leafMapping_eq]
    exact Option.isSome_of_eq_some (guestEntry_leaf present)
  unfold hbSyncPageTable
  simp only [goes,Bool.false_eq_true,if_false]
  exact syncLevels_spec present [pdptePdIndex addr,pdeptIndex addr,pteIndex addr] (pml4Index addr) [] env.root
    (guestRoot cr3) 0 s inv rfl rfl (outside present) (allPresent_of_leaf addr (indexes addr) _ found)

theorem skipped_call (skipped : syncSkipped env s addr cr3 syncDirectMapping = true) :
    hbSyncPageTable env s addr cr3 syncDirectMapping = .ok (s,0) := if_pos skipped

/-- A call returns when three pages are left in the pool. When it returns, the host page
table is still a separate tree and the leaf of every address is the one that the effect
names. -/
theorem hbSyncPageTable_spec (syncDirectMapping : Bool) (inv : HostInv env.toHostPages s)
    (outside : GuestOutside env s addr cr3) :
    (s.popIndex + 3 ≤ env.maxCount →
      ∃ result, hbSyncPageTable env s addr cr3 syncDirectMapping = .ok result) ∧
    ∀ s' expandValue, hbSyncPageTable env s addr cr3 syncDirectMapping = .ok (s',expandValue) →
      HostInv env.toHostPages s' ∧
      ∀ v, hostLeaf env s' v = (callEffect env s addr cr3 syncDirectMapping v).leaf
        (guestEntry s addr cr3) v (hostLeaf env s v) (guestLeaf s cr3 v) := by
  unfold callEffect
  cases skipped : syncSkipped env s addr cr3 syncDirectMapping with
  | true =>
    rw [skipped_call skipped]
    refine ⟨fun _ => ⟨_,rfl⟩,?_⟩
    rintro s' expandValue ⟨⟩
    exact ⟨inv,fun v => rfl⟩
  | false =>
    obtain ⟨returns,sound⟩ := syncLevels_call inv outside skipped
    refine ⟨returns,fun s' expandValue run => ?_⟩
    have synced := sound s' expandValue run
    refine ⟨synced.inv,fun v => ?_⟩
    have leaf := synced.leaf v (indexes v) rfl (indexes_last v)
    rw [hostLeaf,leafMapping_eq,hostLeaf,leafMapping_eq,guestLeaf,leafMapping_eq]
    refine leaf.trans ?_
    generalize effect : syncEffect _ _ _ _ = e
    simp only [Bool.false_eq_true,if_false]
    cases e with
    | copy => exact copied_leaf effect
    | keep | drop | spread => rfl

theorem hbSyncPageTable_access (inv : HostInv env.toHostPages s) (outside : GuestOutside env s addr cr3)
    {s' : HostTables} {expandValue : U64}
    (returned : hbSyncPageTable env s addr cr3 syncDirectMapping = .ok (s',expandValue)) (v : U64) :
    decodeAccess v 3 (trace tableLink s'.mem env.root (indexes v)) =
      decodeAccess v 3 (callEntries env s addr cr3 syncDirectMapping v) := by
  unfold callEntries
  cases skipped : syncSkipped env s addr cr3 syncDirectMapping with
  | true =>
    rw [skipped_call skipped] at returned
    cases returned
    rfl
  | false =>
    have synced := (syncLevels_call inv outside skipped).2 s' expandValue returned
    exact synced.access v (indexes v) rfl (indexes_last v)

end Call

section Sample

def samplePage : PageSource → Nat
  | .pml4 => 2
  | .pml4Next => 3
  | .pool k => 0x10 + k
  | .kernel k => 0x1000 + k

theorem samplePage_bound {x : PageSource} (within : x.Within (copyLimit 3) 3) :
    0 < samplePage x ∧ samplePage x < 2^44 := by
  have limit : copyLimit 3 = 134480384 := by decide
  cases x with
  | pml4 | pml4Next => exact ⟨by decide,by decide⟩
  | pool k | kernel k =>
    simp only [samplePage,PageSource.Within] at within ⊢
    omega

def sampleEnv : SyncEnv where
  initPml4 := frame 1
  page := fun x => frame (samplePage x)
  allocCount := copyLimit 3
  maxCount := 3
  adjacent := by decide
  aligned := fun _ within => getAddr_frame (samplePage_bound within).2
  nonzero := fun x within zero => by
    obtain ⟨positive,bound⟩ := samplePage_bound within
    have page := pageOf_frame (Nat.lt_trans bound (by decide))
    rw [zero] at page
    have nothing : pageOf 0 = 0 := by decide
    omega
  distinct := fun x y hx hy same => by
    rw [pageOf_frame (Nat.lt_trans (samplePage_bound hx).2 (by decide)),
      pageOf_frame (Nat.lt_trans (samplePage_bound hy).2 (by decide))] at same
    cases x <;> cases y <;> simp_all [samplePage,PageSource.Within] <;> omega
  pageOffsetBase := 0xffff880000000000
  roArray := []

def sampleEntries : List (Nat × Nat × U64) :=
  [(1,511,0x4003),(4,511,0x5003),(5,0,0x6003),(6,0,0x60003),
    (0x40,0,0x41003),(0x41,0,0x42003),(0x42,0,0x43003),(0x43,1,0x50003),
    (0x40,511,0x44003),(0x44,511,0x45003),(0x45,0,0x46003),(0x46,0,0x51003)]

def sampleMem : Mem := fun page i =>
  match sampleEntries.find? (fun entry => entry.1 == page && entry.2.1 == i.val) with
  | some entry => entry.2.2
  | none => 0

def sampleOwn : U64 := 0xffffffffc0000000

def sampleCr3 : U64 := 0x40000

def sampleTables : List Nat :=
  [1,4,5,6,0x60,0x40,0x41,0x42,0x43,0x44,0x45,0x46,0x50,0x51]

theorem sampleTables_closed {page next : Nat} {i : Fin 512}
    (linked : tableLink (sampleMem page i) = some next) : next ∈ sampleTables := by
  have entries : ∀ entry ∈ sampleEntries, ∀ next ∈ tableLink entry.2.2, next ∈ sampleTables := by decide
  unfold sampleMem at linked
  split at linked
  next entry found => exact entries entry (List.mem_of_find?_eq_some found) next linked
  next =>
    have none : tableLink 0 = none := by decide
    rw [none] at linked
    cases linked

theorem sampleTables_foreign {t : Nat} (member : t ∈ sampleTables) : ¬ sampleEnv.Owned t := by
  rintro ⟨x,within,rfl⟩
  have page : pageOf (sampleEnv.page x) = samplePage x :=
    pageOf_frame (Nat.lt_trans (samplePage_bound within).2 (by decide))
  rw [page] at member
  cases x with
  | pml4 | pml4Next => exact absurd member (by decide)
  | pool k =>
    have small : k < 3 := within
    simp only [samplePage,sampleTables,List.mem_cons,List.not_mem_nil,or_false] at member
    omega
  | kernel k =>
    simp only [samplePage,sampleTables,List.mem_cons,List.not_mem_nil,or_false] at member
    omega

theorem sampleTables_within {page : Nat} (member : page ∈ sampleTables) :
    TablesWithin tableLink sampleMem page 3 (fun t => ¬ sampleEnv.Owned t) := by
  have closed : TablesWithin tableLink sampleMem page 3 (fun t => t ∈ sampleTables) :=
    .of_closed member (fun _ _ _ _ linked => sampleTables_closed linked)
  exact fun p t short at_p => sampleTables_foreign (closed p t short at_p)

structure Sampled (s : HostTables) : Prop where
  enough : s.popIndex + 3 ≤ sampleEnv.maxCount
  same : ∀ t, ¬ sampleEnv.Owned t → s.mem t = sampleMem t
  host : ∀ path, path.length = 4 →
    Mirrors (trace tableLink s.mem sampleEnv.root path) (trace tableLink sampleMem 1 path)

theorem sampled_duplicate {s : HostTables} (mem : s.mem = sampleMem) (allocs : s.allocIndex = 0)
    (pops : s.popIndex = 0) : Sampled (hbDupPageTableForHost sampleEnv.toHostPages false s) := by
  have room : (hbDupPageTableForHost sampleEnv.toHostPages false s).allocIndex ≤ sampleEnv.allocCount := by
    have limit := hbDupPageTableForHost_limit sampleEnv.toHostPages s
    rwa [allocs,Nat.zero_add] at limit
  have copies := hbDupPageTableForHost_copies s room
  rw [mem] at copies
  refine ⟨?_,copies.2.1,copies.2.2 (sampleTables_within (by decide))⟩
  rw [hbDupPageTableForHost_pops,pops]
  exact Nat.le_refl _

namespace Sampled
variable {s : HostTables} (h : Sampled s)
include h

theorem guest {path : List (Fin 512)} (short : path.length ≤ 4) :
    trace tableLink s.mem 0x40 path = trace tableLink sampleMem 0x40 path :=
  ((sampleTables_within (by decide)).agree h.same path short).1

theorem guestLeaf_eq (v : U64) :
    guestLeaf s sampleCr3 v = leafMapping sampleMem (getAddr sampleCr3) v := by
  rw [guestLeaf,leafMapping_eq,leafMapping_eq]
  exact leafFrom_congr v rfl (h.guest (Nat.le_refl _))

theorem hostLeaf_eq (v : U64) : hostLeaf sampleEnv s v = leafMapping sampleMem (frame 1) v := by
  rw [hostLeaf,leafMapping_eq,leafMapping_eq]
  exact (h.host (indexes v) rfl).leafFrom v

theorem outside (addr : U64) : GuestOutside sampleEnv s addr sampleCr3 := by
  intro _
  exact ((PathWithin.of_tables (sampleTables_within (by decide)) (Nat.le_refl _)).agree h.same).2

theorem guestEntry_eq {addr leaf : U64}
    (found : leafMapping sampleMem (getAddr sampleCr3) addr = some leaf) :
    guestEntry s addr sampleCr3 = leaf := (leafMapping_some ((h.guestLeaf_eq addr).trans found)).1

theorem emptyHost {addr : U64} (empty : sampleMem 1 (pml4Index addr) = 0) :
    trace tableLink s.mem sampleEnv.root (indexes addr) = [0] ∧ hostEntry sampleEnv s addr = 0 := by
  have walk := h.host (indexes addr) rfl
  have none : trace tableLink sampleMem 1 (indexes addr) = [0] := by
    rw [indexes,trace_plain _ (tableLink_eq_none.mpr (.inl empty)),empty]
  rw [none] at walk
  have host : trace tableLink s.mem sampleEnv.root (indexes addr) = [0] := by
    generalize trace tableLink s.mem sampleEnv.root (indexes addr) = hs at walk
    cases walk with
    | last => rfl
    | table _ _ below => cases below
  refine ⟨host,?_⟩
  have slot : s.mem sampleEnv.root (pml4Index addr) = 0 := by
    simpa [indexes,trace] using congrArg List.head? host
  have absent : isPresent 0#64 = false := by decide
  have root : pageOf sampleEnv.hostPml4 = sampleEnv.root := rfl
  simp [hostEntry,hbGetPhyFromLog,root,slot,absent]

end Sampled

end Sample

end HyperBox.PageTable
