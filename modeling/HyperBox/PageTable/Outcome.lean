import HyperBox.PageTable.Isolation

/-! What the handlers rely on when they use an operand right after `hb_sync_page_table`: that the
host reaches the page which the guest reaches, and that a call for which the pool has no page
left does no harm. -/
namespace HyperBox.PageTable
open HyperBox.Library

/-- The address is in none of the kernel's read-only areas. -/
def OutsideKernelRo (roArray : List RoArea) (addr : U64) : Prop :=
  ∀ area ∈ roArray, area.type = .kernel → ¬ (area.start ≤ addr ∧ addr < area.stop)

/-- Of the entries that both walks follow to a further table, none of the host's is absent. -/
def pathOpen : List U64 → List U64 → Bool
  | h::hs,_::gs => gs.isEmpty || hs.isEmpty || (isPresent h && pathOpen hs gs)
  | _,_ => true

section Delivery
variable (env : SyncEnv) (s : HostTables) (addr cr3 : U64)

/-- The call returns; where the guest has a leaf for the operand the host then has one for the same
frame, and where it has none nothing has changed. -/
def Delivers : Prop :=
  ∃ s' expandValue, hbSyncPageTable env s addr cr3 true = .ok (s',expandValue) ∧
    (∀ leaf, guestLeaf s cr3 addr = some leaf →
      ∃ leaf', hostLeaf env s' addr = some leaf' ∧ getAddr leaf' = getAddr leaf) ∧
    (guestLeaf s cr3 addr = none → s' = s)

/-- The address bits of the two leaves agree only if the host's is present, and if they do not
agree no absent entry of the host links a table on the way. -/
def hostReady : Bool :=
  !isPresent (guestEntry s addr cr3) ||
    if getAddr (guestEntry s addr cr3) = getAddr (hostEntry env s addr) then isPresent (hostEntry env s addr)
    else pathOpen (trace tableLink s.mem env.root (indexes addr))
      (trace tableLink s.mem (guestRoot cr3) (indexes addr))

end Delivery

section Reach
variable {env : SyncEnv} {s : HostTables} {addr cr3 : U64}

theorem outside_scan (roArray : List RoArea) (outside : OutsideKernelRo roArray addr) :
    scanKernelRoArea addr roArray = false := by
  induction roArray with
  | nil => rfl
  | cons area rest ih =>
    have here : ¬ (area.start ≤ addr ∧ addr < area.stop ∧ area.type = .kernel) := fun ⟨low,high,kernel⟩ =>
      outside area List.mem_cons_self kernel ⟨low,high⟩
    have below := ih (fun other member => outside other (List.mem_cons_of_mem area member))
    simp [scanKernelRoArea,here,below]

theorem syncSkipped_iff (nonnull : addr ≠ 0) (outside : OutsideKernelRo env.roArray addr) :
    syncSkipped env s addr cr3 true = true ↔
      isPresent (guestEntry s addr cr3) = false ∨ getAddr (guestEntry s addr cr3) = getAddr (hostEntry env s addr) := by
  have writable : hbIsAddrInKernelRoArea env.roArray addr = false := by
    simp only [hbIsAddrInKernelRoArea,if_neg nonnull,outside_scan _ outside]
  simp only [syncSkipped,writable,Bool.not_true,Bool.false_or,Bool.or_false,Bool.or_eq_true,Bool.and_eq_true,
    Bool.not_eq_true',beq_iff_eq]
  tauto

theorem trace_bound (mem : Mem) (path : List (Fin 512)) :
    ∀ page, (trace tableLink mem page path).length ≤ path.length := by
  induction path with
  | nil => exact fun _ => Nat.le_refl _
  | cons i rest ih =>
    intro page
    cases found : tableLink (mem page i) with
    | none => simp [trace_plain rest found]
    | some next =>
      rw [trace_link rest found,List.length_cons,List.length_cons]
      exact Nat.succ_le_succ (ih next)

theorem syncEffect_open {hs gs : List U64} {as : List (Fin 512)} (walked : hs ≠ []) (some : gs ≠ [])
    (bound : gs.length ≤ as.length) :
    syncEffect hs gs as as = if pathOpen hs gs then .copy else .keep := by
  induction gs generalizing hs as with
  | nil => exact absurd rfl some
  | cons g gs ih =>
    obtain ⟨h,hs,rfl⟩ := List.exists_cons_of_ne_nil walked
    cases as with
    | nil => simp at bound
    | cons a as =>
      have short : gs.length ≤ as.length := by simpa using bound
      by_cases last : gs = []
      · simp [syncEffect,pathOpen,last]
      · by_cases missing : hs = []
        · simp [syncEffect,pathOpen,missing,buildEffect_self last short]
        · have below := ih missing last short
          cases present : isPresent h <;> simp [syncEffect,pathOpen,last,missing,present,below]

/-- A walk that meets an absent entry finds nothing, though the call takes it for a table. -/
theorem leafFrom_blocked (mem : Mem) (path : List (Fin 512)) :
    ∀ (page : Nat) (gs : List U64), pathOpen (trace tableLink mem page path) gs = false →
      leafFrom mem addr page path = none := by
  induction path with
  | nil => intro page gs blocked; simp [trace,pathOpen] at blocked
  | cons i rest ih =>
    intro page gs blocked
    cases gs with
    | nil => simp [trace,pathOpen] at blocked
    | cons g gs =>
      cases present : isPresent (mem page i) with
      | false => exact leafFrom_absent addr rest present
      | true =>
        cases found : tableLink (mem page i) with
        | none => simp [trace_plain rest found,pathOpen] at blocked
        | some next =>
          rw [trace_link rest found] at blocked
          simp only [pathOpen,present,Bool.true_and,Bool.or_eq_false_iff] at blocked
          obtain ⟨⟨_,more⟩,below⟩ := blocked
          cases rest with
          | nil => simp [trace] at more
          | cons j rest =>
            have small : isSizeFlagSet (mem page i) = false := by
              by_contra large
              rw [tableLink_eq_none.mpr (.inr (by simpa using large))] at found
              cases found
            rw [leafFrom_table addr present small,← tableLink_target found]
            exact ih next gs below

theorem hostLeaf_entry : hostLeaf env s addr =
    if isPresent (hostEntry env s addr) then some (hostEntry env s addr) else none := rfl

theorem outsideKernelRo_none (addr : U64) : OutsideKernelRo [] addr := by simp [OutsideKernelRo]

theorem pageZero_walk {mem : Mem} (first : mem 0x40 0 = 0x41003) (second : mem 0x41 0 = 0x42003)
    (third : mem 0x42 0 = 0x43003) (last : mem 0x43 1 = 0x3) :
    trace tableLink mem 0x40 (indexes 0x1000) = [0x41003,0x42003,0x43003,0x3] ∧
      PathWithin tableLink mem 0x40 (indexes 0x1000) (fun t => t ∈ sampleTables) := by
  have path : indexes 0x1000 = [0,0,0,1] := by decide
  have link1 : tableLink (mem 0x40 0) = some 0x41 := by rw [first]; decide
  have link2 : tableLink (mem 0x41 0) = some 0x42 := by rw [second]; decide
  have link3 : tableLink (mem 0x42 0) = some 0x43 := by rw [third]; decide
  rw [path]
  constructor
  · rw [trace_link _ link1,trace_link _ link2,trace_link _ link3,trace_ends (.inr rfl),first,second,third,last]
  · refine .cons (by decide) fun t linked => ?_
    obtain rfl := Option.some.inj (link1.symm.trans linked)
    refine .cons (by decide) fun t linked => ?_
    obtain rfl := Option.some.inj (link2.symm.trans linked)
    refine .cons (by decide) fun t linked => ?_
    obtain rfl := Option.some.inj (link3.symm.trans linked)
    exact .cons (by decide) fun t _ => .nil

theorem exists_pageZero : ∃ s, HostSynced sampleEnv s ∧ s.popIndex + 3 ≤ sampleEnv.maxCount ∧
    GuestOutside sampleEnv s 0x1000 sampleCr3 ∧ guestEntry s 0x1000 sampleCr3 = 0x3 ∧
    hostEntry sampleEnv s 0x1000 = 0 := by
  obtain ⟨s,sampled,reached⟩ := exists_sampled_synced
  obtain ⟨mem,written⟩ : ∃ mem, mem = s.mem.write 0x43 1 0x3 := ⟨_,rfl⟩
  have kept : ∀ t, t ≠ 0x43 → mem t = s.mem t := fun t other => by
    rw [written]
    exact s.mem.write_page_ne 1 0x3 other
  have owned : ∀ t, sampleEnv.Owned t → mem t = s.mem t := fun t own =>
    kept t (fun same => sampleTables_foreign (by rw [same]; decide) own)
  have read : ∀ t, t ∈ sampleTables → t ≠ 0x43 → mem t = sampleMem t := fun t member other =>
    (kept t other).trans (sampled.same t (sampleTables_foreign member))
  have root : pageOf (getAddr sampleCr3) = 0x40 := by decide
  obtain ⟨walk,within⟩ := @pageZero_walk mem (by rw [read 0x40 (by decide) (by decide)]; decide)
    (by rw [read 0x41 (by decide) (by decide)]; decide) (by rw [read 0x42 (by decide) (by decide)]; decide)
    (by rw [written]; exact Paged.write_self _ _ _ _)
  refine ⟨{ s with mem := mem },.guest mem reached (fun t used => owned t used.owned),sampled.enough,?_,?_,?_⟩
  · intro _ r i rest split t at_r
    rw [guestRoot,root] at at_r
    exact sampleTables_foreign (within r i rest split t at_r)
  · rw [guestEntry,phyAddr3_eq,root]
    refine (congrArg (walkLeaf 0x1000 3) walk).trans ?_
    decide
  · have empty := (sampled.emptyHost (show sampleMem 1 (pml4Index 0x1000) = 0 by decide)).1
    have tables : TablesWithin tableLink s.mem sampleEnv.root 3 sampleEnv.Owned := fun p t short at_p =>
      (reached.inv.1.inside p t short at_p).owned
    have same := (tables.agree owned (indexes 0x1000) (Nat.le_refl 4)).1
    rw [hostEntry,phyAddr3_eq]
    refine (congrArg (walkLeaf 0x1000 3) (same.trans empty)).trans ?_
    decide

end Reach

section Exhaustion

/-- What a call asks of the pool and does with what it gets; no page is the NULL of `hb_get_memory`. -/
inductive PoolEvent where
  | getMemory (page : Option U64)
  | memset (page : Option U64)
  | link (page : Option U64)
deriving DecidableEq

/-- A computation with the events up to its end, or up to the store that it does not survive. -/
abbrev Logged (α : Type) := List PoolEvent × Except HostTables α

def Logged.andThen {α β : Type} (first : Logged α) (next : α → Logged β) : Logged β :=
  match first with
  | (log,.error s) => (log,.error s)
  | (log,.ok value) => (log ++ (next value).1,(next value).2)

def vmCheckAllocPageTableLogged (env : SyncEnv) (s : HostTables) (pagetable : Nat) (index : Fin 512) :
    Logged (U64 × HostTables) :=
  let entry := s.mem pagetable index
  if entry = 0 ∨ isSizeFlagSet entry then
    match hbGetMemory env s with
    -- The result is looked at, logged, and then used all the same.
    | (none,s) => ([.getMemory none,.memset none],.error s)
    | (some value,s) => ([.getMemory (some value),.memset (some value)],
        .ok (value,{ s with mem := s.mem.setPage (pageOf value) (fun _ => 0) }))
  else ([],.ok (entry,s))

def syncTableLogged (env : SyncEnv) (leaf entrySize : U64) (vm init : Nat) (i : Fin 512) (expandValue : U64)
    (s : HostTables) : Logged (HostTables × U64) :=
  if vmIsNewPageTableNeeded s vm i then
    (vmCheckAllocPageTableLogged env s vm i).andThen fun (value,s) =>
      let s := vmExpandPageTableEntry s value leaf entrySize
      let s := hbSyncPageTableFlag s vm init i value
      ([.link (some value)],.ok (s,if expandValue = 0 then entrySize else expandValue))
  else ([],.ok (s,expandValue))

def syncLevelsLogged (env : SyncEnv) (leaf : U64) :
    List (Fin 512) → Nat → Nat → U64 → HostTables → Logged (HostTables × U64)
  | [],_,_,expandValue,s => ([],.ok (s,expandValue))
  | [i],vm,init,expandValue,s => ([],.ok ({ s with mem := s.mem.write vm i (s.mem init i) },expandValue))
  | i::j::rest,vm,init,expandValue,s =>
    let entry := s.mem init i
    if entry = 0 ∨ isSizeFlagSet entry then
      ([],.ok ({ s with mem := s.mem.write vm i entry },expandValue))
    else
      (syncTableLogged env leaf (expandSize rest.length) vm init i expandValue s).andThen fun (s,expandValue) =>
        syncLevelsLogged env leaf (j::rest) (tableOf (s.mem vm i)) (tableOf entry) expandValue s

def hbSyncPageTableLogged (env : SyncEnv) (s : HostTables) (addr orgTargetPhyPml4 : U64)
    (syncDirectMapping : Bool) : Logged (HostTables × U64) :=
  if syncSkipped env s addr orgTargetPhyPml4 syncDirectMapping then ([],.ok (s,0))
  else
    syncLevelsLogged env (guestEntry s addr orgTargetPhyPml4) (indexes addr) env.root
      (pageOf (getAddr orgTargetPhyPml4)) 0 s

section Erase
variable (env : SyncEnv) (s : HostTables)

@[simp] theorem andThen_result {α β : Type} (first : Logged α) (next : α → Logged β) :
    (first.andThen next).2 = first.2.bind (fun value => (next value).2) := by
  obtain ⟨log,result⟩ := first
  cases result <;> rfl

theorem vmCheckAllocPageTable_logged (pagetable : Nat) (index : Fin 512) :
    (vmCheckAllocPageTableLogged env s pagetable index).2 = vmCheckAllocPageTable env s pagetable index := by
  simp only [vmCheckAllocPageTableLogged,vmCheckAllocPageTable]
  split
  · cases hbGetMemory env s with
    | mk page s => cases page <;> rfl
  · rfl

theorem syncTable_logged (leaf entrySize : U64) (vm init : Nat) (i : Fin 512) (expandValue : U64) :
    (syncTableLogged env leaf entrySize vm init i expandValue s).2 =
      syncTable env leaf entrySize vm init i expandValue s := by
  simp only [syncTableLogged,syncTable]
  split
  · rw [andThen_result,vmCheckAllocPageTable_logged]
    rfl
  · rfl

theorem syncLevels_logged (leaf : U64) (path : List (Fin 512)) (vm init : Nat) (expandValue : U64) :
    (syncLevelsLogged env leaf path vm init expandValue s).2 = syncLevels env leaf path vm init expandValue s := by
  fun_induction syncLevels env leaf path vm init expandValue s with
  | case1 => rfl
  | case2 => rfl
  | case3 i j rest vm init expandValue s entry plain =>
    simp only [syncLevelsLogged]
    rw [if_pos plain]
  | case4 i j rest vm init expandValue s entry plain ih =>
    simp only [syncLevelsLogged]
    rw [if_neg plain,andThen_result,syncTable_logged]
    exact congrArg _ (funext fun result => ih result.1 result.2)

theorem hbSyncPageTable_logged (addr cr3 : U64) (syncDirectMapping : Bool) :
    (hbSyncPageTableLogged env s addr cr3 syncDirectMapping).2 =
      hbSyncPageTable env s addr cr3 syncDirectMapping := by
  simp only [hbSyncPageTableLogged,hbSyncPageTable]
  split
  · rfl
  · exact syncLevels_logged env s _ _ _ _ _

end Erase

/-- The page that is not there is written to. -/
def NullStored (log : List PoolEvent) : Prop := .getMemory none ∈ log → .memset none ∈ log

theorem NullStored.andThen {α β : Type} {first : Logged α} {next : α → Logged β} (before : NullStored first.1)
    (after : ∀ value, NullStored (next value).1) : NullStored (first.andThen next).1 := by
  obtain ⟨log,result⟩ := first
  cases result with
  | error s => exact before
  | ok value =>
    intro exhausted
    rcases List.mem_append.mp exhausted with early | late
    · exact List.mem_append_left _ (before early)
    · exact List.mem_append_right _ (after value late)

section Stores
variable (env : SyncEnv) (s : HostTables)

theorem vmCheckAllocPageTable_stores (pagetable : Nat) (index : Fin 512) :
    NullStored (vmCheckAllocPageTableLogged env s pagetable index).1 := by
  simp only [vmCheckAllocPageTableLogged]
  split
  · cases hbGetMemory env s with
    | mk page s => cases page <;> simp [NullStored]
  · simp [NullStored]

theorem syncTable_stores (leaf entrySize : U64) (vm init : Nat) (i : Fin 512) (expandValue : U64) :
    NullStored (syncTableLogged env leaf entrySize vm init i expandValue s).1 := by
  simp only [syncTableLogged]
  split
  · apply (vmCheckAllocPageTable_stores env s vm i).andThen
    intro value
    simp [NullStored]
  · simp [NullStored]

theorem syncLevels_stores (leaf : U64) (path : List (Fin 512)) (vm init : Nat) (expandValue : U64) :
    NullStored (syncLevelsLogged env leaf path vm init expandValue s).1 := by
  fun_induction syncLevels env leaf path vm init expandValue s with
  | case1 => simp [syncLevelsLogged,NullStored]
  | case2 => simp [syncLevelsLogged,NullStored]
  | case3 i j rest vm init expandValue s entry plain =>
    simp only [syncLevelsLogged]
    rw [if_pos plain]
    simp [NullStored]
  | case4 i j rest vm init expandValue s entry plain ih =>
    simp only [syncLevelsLogged]
    rw [if_neg plain]
    exact (syncTable_stores env s leaf _ vm init i expandValue).andThen fun result => ih result.1 result.2

end Stores

/-- What a call without a page left should do: store through no NULL pointer, link no table from
one, and return with every translation as it was. -/
structure SurvivesExhaustion (env : SyncEnv) (s : HostTables) (addr cr3 : U64) (syncDirectMapping : Bool) : Prop where
  stores : .memset none ∉ (hbSyncPageTableLogged env s addr cr3 syncDirectMapping).1
  links : .link none ∉ (hbSyncPageTableLogged env s addr cr3 syncDirectMapping).1
  unchanged : ∃ s' expandValue, hbSyncPageTable env s addr cr3 syncDirectMapping = .ok (s',expandValue) ∧
    ∀ v, hostLeaf env s' v = hostLeaf env s v

/-- Whatever the tables are and at whatever level it happens: when `hb_get_memory` returns NULL, the
call writes to it. -/
theorem exhausted_call_stores_null (env : SyncEnv) (s : HostTables) (addr cr3 : U64) (syncDirectMapping : Bool)
    (exhausted : .getMemory none ∈ (hbSyncPageTableLogged env s addr cr3 syncDirectMapping).1) :
    ¬ SurvivesExhaustion env s addr cr3 syncDirectMapping := by
  intro survives
  refine survives.stores ?_
  unfold hbSyncPageTableLogged at exhausted ⊢
  split at exhausted
  · cases exhausted
  · next goes =>
    rw [if_neg goes]
    exact syncLevels_stores env s _ _ _ _ _ exhausted

def lastPage : HostTables := ⟨sampleMem,0,2,[]⟩

theorem exhausted_call_sample : .getMemory none ∈ (hbSyncPageTableLogged sampleEnv lastPage 0x1000 sampleCr3 true).1 ∧
    ¬ SurvivesExhaustion sampleEnv lastPage 0x1000 sampleCr3 true := by
  have exhausted : .getMemory none ∈ (hbSyncPageTableLogged sampleEnv lastPage 0x1000 sampleCr3 true).1 := by decide
  exact ⟨exhausted,exhausted_call_stores_null _ _ _ _ _ exhausted⟩

/-- The first level is linked before the second finds the pool empty, and the call does not return. -/
theorem exhausted_call_faults :
    (hbSyncPageTableLogged sampleEnv lastPage 0x1000 sampleCr3 true).1 =
      [.getMemory (some 0x12000),.memset (some 0x12000),.link (some 0x12000),.getMemory none,.memset none] ∧
      ¬ SurvivesExhaustion sampleEnv lastPage 0x1000 sampleCr3 true := by
  have log : (hbSyncPageTableLogged sampleEnv lastPage 0x1000 sampleCr3 true).1 =
      [.getMemory (some 0x12000),.memset (some 0x12000),.link (some 0x12000),.getMemory none,.memset none] := by decide
  refine ⟨log,fun survives => survives.stores ?_⟩
  rw [log]
  decide

end Exhaustion
end HyperBox.PageTable
