import HyperBox.PageTable.Access

/-! `hb_sync_page_table`: entries of the guest's page table are copied into the host's
on demand, and tables that the host lacks are built from the leaf of the operand
address. The source treats the three upper levels with one block each, which is one
recursion here. `syncEffect` says what a call does to the leaf of any address. -/
namespace HyperBox.PageTable
open HyperBox.Library

inductive RoType where
  | kernel
  | module
deriving DecidableEq

structure RoArea where
  start : U64
  stop : U64
  type : RoType

structure SyncEnv extends HostPages where
  pageOffsetBase : U64
  roArray : List RoArea

def scanKernelRoArea (addr : U64) : List RoArea → Bool
  | [] => false
  | area::rest =>
    if area.start ≤ addr ∧ addr < area.stop ∧ area.type = .kernel then true
    else if area.type = .module then false
    else scanKernelRoArea addr rest

def hbIsAddrInKernelRoArea (roArray : List RoArea) (addr : U64) : Bool :=
  if addr = 0 then true else scanKernelRoArea addr roArray

def hbGetMemory (env : SyncEnv) (s : HostTables) : Option U64 × HostTables :=
  if env.maxCount ≤ s.popIndex then (none,s)
  else (some (env.page (.pool s.popIndex)),{ s with popIndex := s.popIndex + 1 })

def expandEntry (startEntryAndFlags entrySize : U64) (i : Fin 512) : U64 :=
  if entrySize = val4KB then
    (startEntryAndFlags &&& ~~~maskPageSizeFlag) + scaled i entrySize
  else
    ((startEntryAndFlags &&& ~~~(entrySize - 1)) ||| maskPageSizeFlag) + scaled i entrySize

def vmExpandPageTableEntry (s : HostTables) (phyTableAddr startEntryAndFlags entrySize : U64) :
    HostTables :=
  { s with mem := s.mem.setPage (tableOf phyTableAddr) (expandEntry startEntryAndFlags entrySize) }

/-- An error is the `memset` through NULL when the pool is empty. -/
def vmCheckAllocPageTable (env : SyncEnv) (s : HostTables) (pagetable : Nat) (index : Fin 512) :
    Except HostTables (U64 × HostTables) :=
  let entry := s.mem pagetable index
  if entry = 0 ∨ isSizeFlagSet entry then
    match hbGetMemory env s with
    | (none,s) => .error s
    | (some value,s) => .ok (value,{ s with mem := s.mem.setPage (pageOf value) (fun _ => 0) })
  else .ok (entry,s)

def hbSyncPageTableFlag (s : HostTables) (vm init : Nat) (index : Fin 512) (addr : U64) : HostTables :=
  { s with mem := s.mem.write vm index (getAddr addr ||| (s.mem init index &&& maskPageflag)) }

def vmIsNewPageTableNeeded (s : HostTables) (vm : Nat) (index : Fin 512) : Bool :=
  s.mem vm index = 0 ∨ isSizeFlagSet (s.mem vm index)

def syncTable (env : SyncEnv) (leaf entrySize : U64) (vm init : Nat) (i : Fin 512) (expandValue : U64)
    (s : HostTables) : Except HostTables (HostTables × U64) :=
  if vmIsNewPageTableNeeded s vm i then do
    let (value,s) ← vmCheckAllocPageTable env s vm i
    let s := vmExpandPageTableEntry s value leaf entrySize
    let s := hbSyncPageTableFlag s vm init i value
    .ok (s,if expandValue = 0 then entrySize else expandValue)
  else .ok (s,expandValue)

def expandSize : Nat → U64
  | 0 => val4KB
  | 1 => val2MB
  | _ => val1GB

def syncLevels (env : SyncEnv) (leaf : U64) :
    List (Fin 512) → Nat → Nat → U64 → HostTables → Except HostTables (HostTables × U64)
  | [],_,_,expandValue,s => .ok (s,expandValue)
  | [i],vm,init,expandValue,s => .ok ({ s with mem := s.mem.write vm i (s.mem init i) },expandValue)
  | i::j::rest,vm,init,expandValue,s =>
    let entry := s.mem init i
    if entry = 0 ∨ isSizeFlagSet entry then
      .ok ({ s with mem := s.mem.write vm i entry },expandValue)
    else do
      let (s,expandValue) ← syncTable env leaf (expandSize rest.length) vm init i expandValue s
      syncLevels env leaf (j::rest) (tableOf (s.mem vm i)) (tableOf entry) expandValue s

section Call
variable (env : SyncEnv) (s : HostTables) (addr orgTargetPhyPml4 : U64)

def guestEntry : U64 := (hbGetPhyFromLog s.mem (getAddr orgTargetPhyPml4) addr).phyAddr3

def hostEntry : U64 := (hbGetPhyFromLog s.mem env.hostPml4 addr).phyAddr3

def inDirectMapping : Bool :=
  env.pageOffsetBase ≤ addr ∧ addr < env.pageOffsetBase + 64 * val1TB

/-- The conditions under which `hb_sync_page_table` returns before it takes the lock. -/
def syncSkipped (syncDirectMapping : Bool) : Bool :=
  let guest := guestEntry s addr orgTargetPhyPml4
  let host := hostEntry env s addr
  (inDirectMapping env addr && (!syncDirectMapping || !isPresent guest ||
    (isPresent host && getAddr guest == getAddr host))) ||
  hbIsAddrInKernelRoArea env.roArray addr ||
  !isPresent guest ||
  getAddr guest == getAddr host

def hbSyncPageTable (syncDirectMapping : Bool) : Except HostTables (HostTables × U64) :=
  if syncSkipped env s addr orgTargetPhyPml4 syncDirectMapping then .ok (s,0)
  else
    syncLevels env (guestEntry s addr orgTargetPhyPml4) (indexes addr) env.root
      (pageOf (getAddr orgTargetPhyPml4)) 0 s

end Call

/-- What a call does to the leaf of an address: it stays, becomes the guest's, is lost,
or is made up from the leaf of the operand address. -/
inductive Effect where
  | keep
  | copy
  | drop
  | spread
deriving DecidableEq

/-- The effect below a table that has just been built. `gs` are the entries that the
guest's walk of the operand address still reads, `as` the operand's indexes and `bs`
those of the address in question. -/
def buildEffect : List U64 → List (Fin 512) → List (Fin 512) → Effect
  | _::gs,a::as,b::bs =>
    if b ≠ a then (if as = [] then .spread else .drop)
    else if gs = [] then .copy
    else buildEffect gs as bs
  | _,_,_ => .drop

/-- The effect below a table that the host has, with the entries `hs` of the host's
walk of the operand address. -/
def syncEffect : List U64 → List U64 → List (Fin 512) → List (Fin 512) → Effect
  | h::hs,_::gs,a::as,b::bs =>
    if b ≠ a then .keep
    else if gs = [] then .copy
    else if hs = [] then buildEffect gs as bs
    else if isPresent h then syncEffect hs gs as bs
    else .keep
  | _,_,_,_ => .keep

def spreadLeaf (leaf addr : U64) : U64 :=
  (leaf &&& ~~~maskPageSizeFlag) + scaled (pteIndex addr) val4KB

def Effect.leaf (leaf addr : U64) (host guest : Option U64) : Effect → Option U64
  | keep => host
  | copy => guest
  | drop => none
  | spread => some (spreadLeaf leaf addr)

/-- The entries below a table that has just been built, as far as the processor looks at them. -/
def builtEntries (leaf addr : U64) : List U64 → List (Fin 512) → List (Fin 512) → List U64
  | g::gs,a::as,b::bs =>
    if b ≠ a then (if as = [] then [spreadLeaf leaf addr] else [])
    else if gs = [] then [g]
    else g::builtEntries leaf addr gs as bs
  | _,_,_ => []

/-- The entries that a walk of `addr` along `bs` reads after the call, up to the addresses of the
tables built by it: `hs` and `gs` are those of the operand in the host's and the guest's tables
before the call, `old` those of `addr` in the host's. -/
def syncedEntries (leaf addr : U64) : List U64 → List U64 → List (Fin 512) → List (Fin 512) → List U64 → List U64
  | h::hs,g::gs,a::as,b::bs,old =>
    if b ≠ a then old
    else if gs = [] then [g]
    else if hs = [] then g::builtEntries leaf addr gs as bs
    else h::syncedEntries leaf addr hs gs as bs old.tail
  | _,_,_,_,old => old

theorem buildEffect_ne_keep (gs : List U64) (as bs : List (Fin 512)) :
    buildEffect gs as bs ≠ .keep := by
  fun_induction buildEffect gs as bs <;> simp_all

theorem Effect.leaf_host {effect : Effect} (changes : effect ≠ .keep) {leaf addr : U64}
    (host host' guest : Option U64) :
    effect.leaf leaf addr host guest = effect.leaf leaf addr host' guest := by
  cases effect with
  | keep => exact absurd rfl changes
  | copy => rfl
  | drop => rfl
  | spread => rfl

section Expand

theorem expandEntry_large_low {size : U64} (large : size ≠ val4KB) (aligned : size.setWidth 12 = 0#12)
    (mask : (size - 1).setWidth 12 = BitVec.allOnes 12) (leaf : U64) (i : Fin 512) :
    (expandEntry leaf size i).setWidth 12 = 0x80#12 := by
  unfold expandEntry
  rw [if_neg large,BitVec.setWidth_add _ _ (by decide),scaled_low _ _ aligned,BitVec.setWidth_or,
    BitVec.setWidth_and,BitVec.setWidth_not (by decide),mask,BitVec.not_allOnes,BitVec.and_zero]
  decide

theorem expandEntry_large (n : Nat) (leaf : U64) (i : Fin 512) :
    isPresent (expandEntry leaf (expandSize (n+1)) i) = false ∧
      isSizeFlagSet (expandEntry leaf (expandSize (n+1)) i) = true := by
  have low : (expandEntry leaf (expandSize (n+1)) i).setWidth 12 = 0x80#12 := by
    cases n with
    | zero =>
      change (expandEntry leaf val2MB i).setWidth 12 = 0x80#12
      exact expandEntry_large_low (by decide) (by decide) (by decide) leaf i
    | succ n =>
      change (expandEntry leaf val1GB i).setWidth 12 = 0x80#12
      exact expandEntry_large_low (by decide) (by decide) (by decide) leaf i
  rw [isPresent_iff,isSizeFlagSet_iff,flag_low _ 0 (by decide),flag_low _ 7 (by decide),low]
  decide

theorem expandEntry_large_plain (n : Nat) (leaf : U64) (i : Fin 512) :
    tableLink (expandEntry leaf (expandSize (n+1)) i) = none :=
  tableLink_eq_none.mpr (.inr (expandEntry_large n leaf i).2)

theorem expandEntry_small (leaf : U64) (i : Fin 512) :
    expandEntry leaf (expandSize 0) i = (leaf &&& ~~~maskPageSizeFlag) + scaled i val4KB :=
  if_pos rfl

theorem isPresent_expandEntry_small (leaf : U64) (i : Fin 512) :
    isPresent (expandEntry leaf (expandSize 0) i) = isPresent leaf := by
  rw [expandEntry_small,isPresent_iff,isPresent_iff,flag_low _ 0 (by decide),flag_low leaf 0 (by decide),
    BitVec.setWidth_add _ _ (by decide),scaled_low _ _ (by decide),BitVec.setWidth_and]
  simp [maskPageSizeFlag]

end Expand

def AllPresent (mem : Mem) (page : Nat) (path : List (Fin 512)) : Prop :=
  ∀ entry ∈ trace tableLink mem page path, isPresent entry = true

/-- `s'` results from synchronising the tree at `vm` with the guest's at `init` along
the path. -/
structure Synced (env : SyncEnv) (leaf : U64) (path p : List (Fin 512)) (vm init : Nat)
    (s s' : HostTables) : Prop where
  inv : HostInv env.toHostPages s'
  below : ChangedBelow tableLink s.mem s'.mem env.root 3 p
  outside : ∀ t, ¬ env.Owned t → s'.mem t = s.mem t
  access : ∀ addr bs, bs.length = path.length → bs.getLast? = some (pteIndex addr) →
    decodeAccess addr (path.length - 1) (trace tableLink s'.mem vm bs) =
      decodeAccess addr (path.length - 1) (syncedEntries leaf addr (trace tableLink s.mem vm path)
        (trace tableLink s.mem init path) path bs (trace tableLink s.mem vm bs))
  leaf : ∀ addr bs, bs.length = path.length → bs.getLast? = some (pteIndex addr) →
    leafFrom s'.mem addr vm bs =
      (syncEffect (trace tableLink s.mem vm path) (trace tableLink s.mem init path) path bs).leaf leaf addr
        (leafFrom s.mem addr vm bs)
        (decodeLeaf addr (path.length - 1) (trace tableLink s.mem init path))

section Levels
variable {env : SyncEnv} {leaf : U64} {p : List (Fin 512)} {vm init : Nat} {s : HostTables}
  {i : Fin 512} {rest : List (Fin 512)}

theorem synced_copy (inv : HostInv env.toHostPages s)
    (at_p : tableAt tableLink s.mem env.root p = some vm) (size : p.length + rest.length = 3)
    (stop : tableLink (s.mem init i) = none ∨ rest = []) :
    Synced env leaf (i::rest) p vm init s { s with mem := s.mem.write vm i (s.mem init i) } := by
  have step := slotStep_plain i inv at_p (by omega) (s.mem init i)
    (stop.imp_right (fun last => by simp [last] at size; omega))
  obtain ⟨h,hs,host⟩ : ∃ h hs, trace tableLink s.mem vm (i::rest) = h::hs := ⟨_,_,rfl⟩
  have copied : ∀ bs : List (Fin 512), bs.length = rest.length →
      trace tableLink (s.mem.write vm i (s.mem init i)) vm (i::bs) = [s.mem init i] := by
    intro bs long
    have stop' : tableLink (s.mem.write vm i (s.mem init i) vm i) = none ∨ bs = [] := by
      rw [Paged.write_self]
      exact stop.imp_right (fun last => List.length_eq_zero_iff.mp (long.trans (by rw [last]; rfl)))
    rw [trace_ends stop',Paged.write_self]
  refine ⟨step.inv,step.through.below,step.outside,?_,?_⟩
  all_goals
    intro addr bs long _
    obtain ⟨b,bs,rfl⟩ := List.exists_cons_of_length_eq_add_one long
    rw [trace_ends stop,host]
    have short : bs.length = rest.length := by simpa using long
  · by_cases same : b = i
    · subst b
      simp [copied bs short,syncedEntries]
    · have walk := step.through.sibling at_p same bs (by omega)
      simp only [syncedEntries,ne_eq,same,not_false_eq_true,if_true]
      exact congrArg (decodeAccess addr _) walk
  · by_cases same : b = i
    · subst b
      simp only [leafFrom,copied bs short,syncEffect,Effect.leaf,long]
      simp
    · have walk := step.through.sibling at_p same bs (by omega)
      simp only [syncEffect,ne_eq,same,not_false_eq_true,if_true,Effect.leaf]
      exact leafFrom_congr addr rfl walk

variable {j : Fin 512} {s' : HostTables}

theorem tableLink_target {entry : U64} {next : Nat} (linked : tableLink entry = some next) :
    next = tableOf entry := by
  unfold tableLink at linked
  split at linked
  · cases linked
  · exact (Option.some.inj linked).symm

theorem decodeLeaf_table {entry : U64} (addr : U64) (n : Nat) (gs : List U64)
    (present : isPresent entry = true) (small : isSizeFlagSet entry = false) :
    decodeLeaf addr (n+1) (entry::gs) = decodeLeaf addr n gs := by
  simp [decodeLeaf,present,small]

theorem trace_cons_ne_nil (mem : Mem) (page : Nat) (i : Fin 512) (rest : List (Fin 512)) :
    trace tableLink mem page (i::rest) ≠ [] := by simp [trace]

theorem synced_descend (at_p : tableAt tableLink s.mem env.root p = some vm)
    (size : p.length + (rest.length + 1) = 3) {next : Nat}
    (linked : tableLink (s.mem vm i) = some next) (present : isPresent (s.mem init i) = true)
    (small : isSizeFlagSet (s.mem init i) = false)
    (child : Synced env leaf (j::rest) (p ++ [i]) next (tableOf (s.mem init i)) s s') :
    Synced env leaf (i::j::rest) p vm init s s' := by
  have slot := child.below.slot (by omega) at_p
  have plain : isSizeFlagSet (s.mem vm i) = false := by
    by_contra large
    rw [tableLink_eq_none.mpr (.inr (by simpa using large))] at linked
    cases linked
  refine ⟨child.inv,child.below.through.below,child.outside,?_,?_⟩
  all_goals
    intro addr bs long last
    obtain ⟨b,bs,rfl⟩ := List.exists_cons_of_length_eq_add_one long
    obtain ⟨c,bs,rfl⟩ := List.exists_cons_of_length_eq_add_one (Nat.succ.inj long)
    rw [trace_link _ linked,trace_link _ (tableLink_present present small)]
  · by_cases same : b = i
    · subst b
      have below := child.access addr (c::bs) (by simpa using long) (by simpa using last)
      rw [trace_link (c::bs) (show tableLink (s'.mem vm i) = some next by rw [slot,linked]),trace_link (c::bs) linked,slot]
      simp only [syncedEntries,ne_eq,not_true_eq_false,if_false,trace_cons_ne_nil,List.tail_cons]
      exact decodeAccess_congr rfl plain below
    · have walk := child.below.through.sibling at_p same (c::bs) (by simp at long ⊢; omega)
      simp only [syncedEntries,ne_eq,same,not_false_eq_true,if_true]
      exact congrArg (decodeAccess addr _) walk
  · by_cases same : b = i
    · subst b
      simp only [syncEffect,ne_eq,not_true_eq_false,if_false,trace_cons_ne_nil]
      cases live : isPresent (s.mem vm i) with
      | false =>
        simp only [Bool.false_eq_true,if_false,Effect.leaf]
        rw [leafFrom_absent _ _ live,leafFrom_absent _ _ (by rw [slot,live])]
      | true =>
        have below := child.leaf addr (c::bs) (by simpa using long) (by simpa using last)
        rw [leafFrom_table addr live plain,leafFrom_table addr (by rw [slot,live]) (by rw [slot,plain]),
          slot,← tableLink_target linked,below]
        simp [decodeLeaf_table,present,small]
    · have walk := child.below.through.sibling at_p same (c::bs) (by simp at long ⊢; omega)
      simp only [syncEffect,ne_eq,same,not_false_eq_true,if_true,Effect.leaf]
      exact leafFrom_congr addr rfl walk

def builtMem (env : SyncEnv) (leaf : U64) (n : Nat) (vm init : Nat) (i : Fin 512) (s : HostTables) : Mem :=
  (s.mem.setPage (pageOf (env.page (.pool s.popIndex))) (expandEntry leaf (expandSize n))).write vm i
    (linkEntry (env.page (.pool s.popIndex)) (s.mem init i))

/-- A missing table is built in the next page of the pool, and the slot is made to point to it
with the given flags. -/
def builtTable (env : SyncEnv) (leaf : U64) (n vm : Nat) (i : Fin 512) (flags : U64) (s : HostTables) :
    HostTables :=
  { s with
    mem := (s.mem.setPage (pageOf (env.page (.pool s.popIndex))) (expandEntry leaf (expandSize n))).write vm i
      (linkEntry (env.page (.pool s.popIndex)) flags)
    popIndex := s.popIndex + 1 }

section Built
variable {n : Nat} {flags : U64}

theorem builtTable_slot : (builtTable env leaf n vm i flags s).mem vm i =
    linkEntry (env.page (.pool s.popIndex)) flags := Paged.write_self _ _ _ _

theorem builtTable_out (x : PageSource) :
    HandedOut (builtTable env leaf n vm i flags s) x ↔ HandedOut s x ∨ x = .pool s.popIndex := by
  rcases x with _ | _ | k | k <;> simp [HandedOut,builtTable]
  omega

theorem built_plain (leaf : U64) (size : p.length + (n+1) = 3) :
    (∀ j, tableLink (expandEntry leaf (expandSize n) j) = none) ∨ p.length + 1 = 3 := by
  cases n with
  | zero => exact .inr (by simpa using size)
  | succ n => exact .inl (expandEntry_large_plain n leaf)

theorem slotStep_built (inv : HostInv env.toHostPages s) (at_p : tableAt tableLink s.mem env.root p = some vm)
    (size : p.length + (n+1) = 3) (obtained : env.Obtains (.pool s.popIndex)) (small : isSizeFlagSet flags = false) :
    SlotStep env.toHostPages p i s (builtTable env leaf n vm i flags s) :=
  slotStep_link i inv at_p (by omega) obtained (Nat.lt_irrefl _) small _ (built_plain leaf size) rfl builtTable_out

theorem tableAt_built (inv : HostInv env.toHostPages s) (at_p : tableAt tableLink s.mem env.root p = some vm)
    (size : p.length + (n+1) = 3) (obtained : env.Obtains (.pool s.popIndex)) (small : isSizeFlagSet flags = false) :
    tableAt tableLink (builtTable env leaf n vm i flags s).mem env.root (p ++ [i]) =
      some (pageOf (env.page (.pool s.popIndex))) := by
  have step := @slotStep_built env leaf p vm s i n flags inv at_p size obtained small
  rw [tableAt_snoc (step.through.below.table (by omega) at_p),builtTable_slot,tableLink_linkEntry obtained small]

end Built

/-- The flags are read after the table has been filled, from whatever page the guest's table
lies in. -/
theorem syncTable_built (leaf : U64) (n : Nat) (expandValue : U64)
    (missing : tableLink (s.mem vm i) = none) (room : s.popIndex < env.maxCount) :
    ∃ expandValue', syncTable env leaf (expandSize n) vm init i expandValue s =
      .ok (builtTable env leaf n vm i (s.mem.setPage (pageOf (env.page (.pool s.popIndex)))
        (expandEntry leaf (expandSize n)) init i) s,expandValue') := by
  have needed := tableLink_eq_none.mp missing
  have obtained : env.Obtains (.pool s.popIndex) := room
  refine ⟨if expandValue = 0 then expandSize n else expandValue,?_⟩
  have get : hbGetMemory env s =
      (some (env.page (.pool s.popIndex)),{ s with popIndex := s.popIndex + 1 }) := if_neg (by omega)
  have check : vmCheckAllocPageTable env s vm i = .ok (env.page (.pool s.popIndex),
      { s with
        mem := s.mem.setPage (pageOf (env.page (.pool s.popIndex))) (fun _ => 0)
        popIndex := s.popIndex + 1 }) := by
    simp only [vmCheckAllocPageTable,if_pos needed,get]
  simp only [syncTable,vmIsNewPageTableNeeded,decide_eq_true needed,if_true,check]
  simp only [bind,Except.bind,vmExpandPageTableEntry,hbSyncPageTableFlag,tableOf,
    env.aligned _ obtained,s.mem.setPage_setPage,linkEntry,builtTable]

theorem syncTable_new (leaf : U64) (n : Nat) (expandValue : U64)
    (missing : tableLink (s.mem vm i) = none) (room : s.popIndex < env.maxCount)
    (foreign : ¬ env.Owned init) :
    ∃ expandValue', syncTable env leaf (expandSize n) vm init i expandValue s =
      .ok ({ s with mem := builtMem env leaf n vm init i s, popIndex := s.popIndex + 1 },expandValue') := by
  have obtained : env.Obtains (.pool s.popIndex) := room
  have other : init ≠ pageOf (env.page (.pool s.popIndex)) := fun same => foreign ⟨_,obtained,same⟩
  obtain ⟨expandValue',built⟩ := @syncTable_built env _ init s i leaf n expandValue missing room
  rw [s.mem.setPage_ne _ other] at built
  exact ⟨expandValue',built⟩

theorem syncTable_exhausted (leaf : U64) (n : Nat) (expandValue : U64)
    (missing : tableLink (s.mem vm i) = none) (empty : env.maxCount ≤ s.popIndex) :
    syncTable env leaf (expandSize n) vm init i expandValue s = .error s := by
  have needed := tableLink_eq_none.mp missing
  simp only [syncTable,vmIsNewPageTableNeeded,decide_eq_true needed,if_true,vmCheckAllocPageTable,
    if_pos needed,hbGetMemory,if_pos empty]
  rfl

theorem syncTable_old (leaf : U64) (n : Nat) (expandValue : U64) (present : tableLink (s.mem vm i) ≠ none) :
    syncTable env leaf (expandSize n) vm init i expandValue s = .ok (s,expandValue) := by
  have needless : ¬ (s.mem vm i = 0 ∨ isSizeFlagSet (s.mem vm i) = true) :=
    fun needed => present (tableLink_eq_none.mpr needed)
  simp only [syncTable,vmIsNewPageTableNeeded,decide_eq_false needless]
  rfl

theorem built_leaf {mem : Mem} {fresh : Nat} {c : Fin 512} {bs : List (Fin 512)} (addr : U64)
    (present : isPresent leaf = true)
    (content : mem fresh = expandEntry leaf (expandSize rest.length)) (size : bs.length = rest.length)
    (last : (c::bs).getLast? = some (pteIndex addr)) (g : U64) (entries : List U64)
    (guest : Option U64) :
    (syncEffect [mem fresh j] (g::entries) (j::rest) (c::bs)).leaf leaf addr
        (leafFrom mem addr fresh (c::bs)) guest =
      (buildEffect (g::entries) (j::rest) (c::bs)).leaf leaf addr (leafFrom mem addr fresh (c::bs))
        guest := by
  by_cases same : c = j
  · simp [syncEffect,buildEffect,same]
  · simp only [syncEffect,buildEffect,ne_eq,same,not_false_eq_true,if_true]
    cases rest with
    | nil =>
      obtain rfl := List.length_eq_zero_iff.mp size
      have index : c = pteIndex addr := by simpa using last
      have live := (isPresent_expandEntry_small leaf c).trans present
      simp only [if_true,Effect.leaf]
      rw [leafFrom_last,content,List.length_nil,if_pos live,expandEntry_small,spreadLeaf,index]
    | cons k more =>
      simp only [reduceCtorEq,if_false,Effect.leaf]
      exact leafFrom_absent _ _ (by rw [content]; exact (expandEntry_large more.length leaf c).1)

theorem built_access {mem : Mem} {fresh : Nat} {c : Fin 512} {bs : List (Fin 512)} (addr : U64)
    (content : mem fresh = expandEntry leaf (expandSize rest.length)) (size : bs.length = rest.length)
    (last : (c::bs).getLast? = some (pteIndex addr)) (g : U64) (entries : List U64) :
    decodeAccess addr rest.length (syncedEntries leaf addr [mem fresh j] (g::entries) (j::rest) (c::bs)
        (trace tableLink mem fresh (c::bs))) =
      decodeAccess addr rest.length (builtEntries leaf addr (g::entries) (j::rest) (c::bs)) := by
  by_cases same : c = j
  · simp [syncedEntries,builtEntries,same]
  · simp only [syncedEntries,builtEntries,ne_eq,same,not_false_eq_true,if_true]
    cases rest with
    | nil =>
      obtain rfl := List.length_eq_zero_iff.mp size
      have index : c = pteIndex addr := by simpa using last
      rw [trace_ends (.inr rfl),content,List.length_nil,expandEntry_small,index]
      rfl
    | cons k more =>
      rw [trace,decodeAccess_absent _ (by rw [content]; exact (expandEntry_large more.length leaf c).1)]
      simp [decodeAccess]

theorem synced_build (inv : HostInv env.toHostPages s)
    (at_p : tableAt tableLink s.mem env.root p = some vm) (size : p.length + (rest.length + 1) = 3)
    (live : isPresent leaf = true) (missing : tableLink (s.mem vm i) = none)
    (room : s.popIndex < env.maxCount) (foreign : PathWithin tableLink s.mem init (i::j::rest)
      (fun t => ¬ env.Owned t))
    (present : isPresent (s.mem init i) = true) (small : isSizeFlagSet (s.mem init i) = false)
    {built : HostTables} (result : built =
      { s with mem := builtMem env leaf rest.length vm init i s, popIndex := s.popIndex + 1 })
    (step : SlotStep env.toHostPages p i s built)
    (child : Synced env leaf (j::rest) (p ++ [i]) (pageOf (env.page (.pool s.popIndex)))
      (tableOf (s.mem init i)) built s') :
    Synced env leaf (i::j::rest) p vm init s s' := by
  have whole := step.descend i child.inv child.below child.outside
  have obtained : env.Obtains (.pool s.popIndex) := room
  have slot : s'.mem vm i = linkEntry (env.page (.pool s.popIndex)) (s.mem init i) := by
    rw [child.below.slot (by omega) (step.through.below.table (by omega) at_p),result]
    exact Paged.write_self _ _ _ _
  have apart : pageOf (env.page (.pool s.popIndex)) ≠ vm := fun same =>
    not_used obtained (Nat.lt_irrefl _) (same ▸ inv.inside p vm (by omega) at_p)
  have content : built.mem (pageOf (env.page (.pool s.popIndex))) =
      expandEntry leaf (expandSize rest.length) := by
    rw [result]
    exact (Paged.write_page_ne _ _ _ apart).trans (Paged.setPage_self _ _ _)
  have ends : trace tableLink built.mem (pageOf (env.page (.pool s.popIndex))) (j::rest) =
      [built.mem (pageOf (env.page (.pool s.popIndex))) j] := by
    apply trace_ends
    cases rest with
    | nil => exact .inr rfl
    | cons k more => exact .inl (by rw [content]; exact expandEntry_large_plain more.length leaf j)
  have guest := (foreign.child (tableLink_present present small)).agree step.outside
  obtain ⟨g,gs,entries⟩ := List.exists_cons_of_ne_nil
    (trace_cons_ne_nil s.mem (tableOf (s.mem init i)) j rest)
  refine ⟨whole.inv,whole.through.below,whole.outside,?_,?_⟩
  all_goals
    intro addr bs long last
    obtain ⟨b,bs,rfl⟩ := List.exists_cons_of_length_eq_add_one long
    obtain ⟨c,bs,rfl⟩ := List.exists_cons_of_length_eq_add_one (Nat.succ.inj long)
    rw [trace_plain _ missing,trace_link _ (tableLink_present present small)]
  · by_cases same : b = i
    · subst b
      have below := child.access addr (c::bs) (by simpa using long) (by simpa using last)
      rw [ends,guest.1,entries] at below
      have linked : tableLink (s'.mem vm i) = some (pageOf (env.page (.pool s.popIndex))) := by
        rw [slot,tableLink_linkEntry obtained small]
      rw [trace_link (c::bs) linked,slot,entries]
      simp only [syncedEntries,ne_eq,not_true_eq_false,if_false,reduceCtorEq,if_true]
      refine decodeAccess_congr (linkEntry_low _ _) small (below.trans ?_)
      exact built_access addr content (by simpa using long) (by simpa using last) g gs
    · have walk := whole.through.sibling at_p same (c::bs) (by simp at long ⊢; omega)
      simp only [syncedEntries,ne_eq,same,not_false_eq_true,if_true]
      exact congrArg (decodeAccess addr _) walk
  · by_cases same : b = i
    · subst b
      have below := child.leaf addr (c::bs) (by simpa using long) (by simpa using last)
      rw [ends,guest.1] at below
      rw [leafFrom_table addr (by rw [slot]; simpa using present) (by rw [slot]; simpa using small),slot,
        tableOf_linkEntry obtained,below,entries,
        built_leaf addr live content (by simpa using long) (by simpa using last)]
      simp only [syncEffect,ne_eq,not_true_eq_false,if_false,reduceCtorEq,if_true,List.length_cons,
        Nat.add_sub_cancel]
      rw [decodeLeaf_table addr _ _ present small]
      exact Effect.leaf_host (buildEffect_ne_keep _ _ _) _ _ _
    · have walk := whole.through.sibling at_p same (c::bs) (by simp at long ⊢; omega)
      simp only [syncEffect,ne_eq,same,not_false_eq_true,if_true,Effect.leaf]
      exact leafFrom_congr addr rfl walk

/-- The locked part of the call returns while the pool lasts, and when it returns it has
the effect that `syncEffect` names. -/
theorem syncLevels_spec (live : isPresent leaf = true) (rest : List (Fin 512)) :
    ∀ (i : Fin 512) (p : List (Fin 512)) (vm init : Nat) (expandValue : U64) (s : HostTables),
      HostInv env.toHostPages s → tableAt tableLink s.mem env.root p = some vm →
      p.length + rest.length = 3 →
      PathWithin tableLink s.mem init (i::rest) (fun t => ¬ env.Owned t) →
      AllPresent s.mem init (i::rest) →
      (s.popIndex + rest.length ≤ env.maxCount →
        ∃ result, syncLevels env leaf (i::rest) vm init expandValue s = .ok result) ∧
      ∀ s' expandValue', syncLevels env leaf (i::rest) vm init expandValue s = .ok (s',expandValue') →
        Synced env leaf (i::rest) p vm init s s' := by
  induction rest with
  | nil =>
    intro i p vm init expandValue s inv at_p size _ _
    refine ⟨fun _ => ⟨_,rfl⟩,?_⟩
    rintro s' expandValue' ⟨⟩
    exact synced_copy inv at_p size (.inr rfl)
  | cons j rest ih =>
    intro i p vm init expandValue s inv at_p size foreign present
    rw [List.length_cons] at size
    have here : isPresent (s.mem init i) = true := present _ (by simp [trace])
    by_cases plain : s.mem init i = 0 ∨ isSizeFlagSet (s.mem init i) = true
    · simp only [syncLevels,if_pos plain]
      refine ⟨fun _ => ⟨_,rfl⟩,?_⟩
      rintro s' expandValue' ⟨⟩
      exact synced_copy inv at_p (by simpa using size) (.inl (tableLink_eq_none.mpr plain))
    · have small : isSizeFlagSet (s.mem init i) = false := by
        simpa using fun large => plain (.inr large)
      have linked := tableLink_present here small
      have deeper : AllPresent s.mem (tableOf (s.mem init i)) (j::rest) := fun entry member =>
        present entry (by rw [trace_link _ linked]; exact List.mem_cons_of_mem _ member)
      have within := foreign.child linked
      simp only [syncLevels,if_neg plain]
      cases found : tableLink (s.mem vm i) with
      | some next =>
        have target := tableLink_target found
        obtain ⟨returns,child⟩ := ih j (p ++ [i]) next (tableOf (s.mem init i)) expandValue s
          inv (by rw [tableAt_snoc at_p,found]) (by simp; omega) within deeper
        rw [syncTable_old leaf rest.length expandValue (by simp [found])]
        simp only [bind,Except.bind,← target]
        refine ⟨fun room => returns (by simp at room; omega),?_⟩
        intro s' expandValue' run
        exact synced_descend at_p (by omega) found here small (child s' expandValue' run)
      | none =>
        by_cases room : s.popIndex < env.maxCount
        · obtain ⟨value,made⟩ := syncTable_new leaf rest.length expandValue found room foreign.head
          generalize result :
            ({ s with mem := builtMem env leaf rest.length vm init i s, popIndex := s.popIndex + 1 } :
              HostTables) = built at made
          have obtained : env.Obtains (.pool s.popIndex) := room
          have same : built = builtTable env leaf rest.length vm i (s.mem init i) s := result.symm
          have step : SlotStep env.toHostPages p i s built := by
            rw [same]
            exact slotStep_built inv at_p size obtained small
          have slot : built.mem vm i = linkEntry (env.page (.pool s.popIndex)) (s.mem init i) := by
            rw [same]
            exact builtTable_slot
          have guest := within.agree step.outside
          have at_child : tableAt tableLink built.mem env.root (p ++ [i]) =
              some (pageOf (env.page (.pool s.popIndex))) := by
            rw [same]
            exact tableAt_built inv at_p size obtained small
          obtain ⟨returns,child⟩ := ih j (p ++ [i]) _ (tableOf (s.mem init i)) value built
            step.inv at_child (by simp; omega) guest.2
            (fun entry member => deeper entry (by rwa [guest.1] at member))
          rw [made]
          simp only [bind,Except.bind,slot,tableOf_linkEntry obtained]
          refine ⟨fun enough => returns (by rw [← result]; simp at enough ⊢; omega),?_⟩
          intro s' expandValue' run
          exact synced_build inv at_p (by omega) live found room foreign here small result.symm step
            (child s' expandValue' run)
        · rw [syncTable_exhausted leaf rest.length expandValue found (by omega)]
          refine ⟨fun enough => absurd enough (by simp; omega),?_⟩
          rintro s' expandValue' ⟨⟩

end Levels

end HyperBox.PageTable
