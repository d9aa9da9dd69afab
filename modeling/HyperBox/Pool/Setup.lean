import HyperBox.Ept.Range

/-! `hb_setup_memory_pool`: the pages of the pool are hidden as they are obtained, and an
allocation that fails at any of them takes everything back. -/
namespace HyperBox.Pool
open HyperBox.Library HyperBox.PageTable HyperBox.Ept

/-- Whether there is memory for the array, and the answer of the allocator for each of its
entries; 0 if it has no page. -/
structure PoolEnv (ramEnd : Nat) extends ExitEnv ramEnd where
  vzalloc : Bool
  getFreePage : Nat → U64

inductive PoolEvent where
  | vzalloc
  | getFreePage (page : U64)
  | freePage (page : U64)
  | vfree
deriving DecidableEq

/-- `g_memory_pool`, the memory that holds the extended page table, and what the allocators
have given and got back. -/
structure PoolState where
  maxCount : Nat
  popIndex : Nat
  pool : Nat → U64
  mem : Mem
  log : List PoolEvent

section Code
variable {ramEnd : Nat} (env : PoolEnv ramEnd)

/-- The loop over the entries from `i` on; it is left at the first page that is missing. -/
def fillPool : Nat → Nat → PoolState → Bool × PoolState
  | 0,_,s => (true,s)
  | left+1,i,s =>
    let page := env.getFreePage i
    if page = 0 then (false,{ s with pool := Function.update s.pool i page })
    else fillPool left (i+1) { s with
      pool := Function.update s.pool i page
      mem := hbHideRange env.toExitEnv page (page + val4KB) .kmalloc s.mem
      log := s.log ++ [.getFreePage page] }

def releasePage (i : Nat) (s : PoolState) : PoolState :=
  if s.pool i ≠ 0 then
    { s with
      mem := hbSetAllAccessRange env.toExitEnv (s.pool i) (s.pool i + val4KB) .kmalloc s.mem
      log := s.log ++ [.freePage (s.pool i)] }
  else s

/-- What follows the label `ERROR`, for an array that was obtained. -/
def releasePool (s : PoolState) : PoolState :=
  let s := loop s.maxCount (releasePage env) s
  { s with log := s.log ++ [.vfree] }

def hbSetupMemoryPool (gMaxRamSize : Nat) (s : PoolState) : Int × PoolState :=
  let maxCount := gMaxRamSize / (2 * 2^20) * 2
  if !env.vzalloc then (-1,{ s with maxCount := maxCount })
  else
    match fillPool env maxCount 0 { s with maxCount := maxCount, pool := fun _ => 0, log := s.log ++ [.vzalloc] } with
    | (true,s) => (0,{ s with popIndex := 0 })
    | (false,s) => (-1,releasePool env s)

end Code

/-- The pages are aligned and lie below the end of the RAM, no two entries get the same one,
and the guest may access each of them after the setter calls so far. -/
structure Allocator {ramEnd : Nat} (env : PoolEnv ramEnd) (maxCount : Nat) (calls : List (Setter × U64)) : Prop where
  aligned : ∀ i < maxCount, env.getFreePage i &&& maskPageaddr = env.getFreePage i
  fits : ∀ i < maxCount, (env.getFreePage i).toNat + 0x2000 ≤ 2^64
  below : ∀ i < maxCount, env.getFreePage i ≠ 0 → (env.virtToPhys (env.getFreePage i)).toNat < maxRamSize ramEnd
  distinct : ∀ i < maxCount, ∀ j < maxCount, env.getFreePage i ≠ 0 → env.getFreePage j ≠ 0 →
    pageOffset (env.virtToPhys (env.getFreePage i)) = pageOffset (env.virtToPhys (env.getFreePage j)) → i = j
  accessible : ∀ i < maxCount, env.getFreePage i ≠ 0 →
    rightsAfter calls (pageOffset (env.virtToPhys (env.getFreePage i))) = .all

section Steps
variable {ramEnd : Nat} {env : PoolEnv ramEnd} {maxCount k : Nat} {calls : List (Setter × U64)}

variable (env) in
def pages (k : Nat) : List U64 := (List.range k).map env.getFreePage

variable (env) in
def pageCalls (setter : Setter) (k : Nat) : List (Setter × U64) :=
  rangeCalls env.toExitEnv setter .kmalloc (pages env k)

theorem pages_succ (k : Nat) : pages env (k+1) = pages env k ++ [env.getFreePage k] := by
  rw [pages,List.range_succ,List.map_append]
  rfl

theorem pageCalls_succ (setter : Setter) (k : Nat) :
    pageCalls env setter (k+1) = pageCalls env setter k ++ [(setter,env.virtToPhys (env.getFreePage k))] := by
  rw [pageCalls,pages_succ,rangeCalls,List.map_append]
  rfl

theorem setterAfter_pages (setter : Setter) (before : List (Setter × U64)) {i : Nat} (inside : i < k) :
    setterAfter (before ++ pageCalls env setter k) (pageOffset (env.virtToPhys (env.getFreePage i))) = setter := by
  rw [pageCalls,setterAfter_calls,if_pos]
  exact ⟨env.getFreePage i,List.mem_map_of_mem (List.mem_range.mpr inside),rfl⟩

variable (allocator : Allocator env maxCount calls)
include allocator

theorem setRange_page (setter : Setter) {i : Nat} (inside : i < maxCount) (mem : Mem) :
    setRange env.toExitEnv setter (env.getFreePage i) (env.getFreePage i + val4KB) .kmalloc mem =
      Setter.apply env.pages mem (setter,env.virtToPhys (env.getFreePage i)) := by
  have addrs := rangeAddrs_pages (n := 0x1000) (allocator.aligned i inside) (allocator.fits i inside)
  rw [setRange,show val4KB = BitVec.ofNat 64 0x1000 by rfl,addrs,show ceil 0x1000 0x1000 = 1 by rfl]
  simp [phyAddrOf]

/-- Either all entries get a page, or the loop stops with `k` pages hidden and the rest of the
array zero. The induction is on the entries that are left. -/
theorem fillPool_spec (start : PoolState) {left i : Nat} (count : i + left = maxCount) (s : PoolState)
    (nonzero : ∀ j < i, env.getFreePage j ≠ 0)
    (filled : s = { start with
      pool := fun j => if j < i then env.getFreePage j else 0
      mem := run (Setter.apply env.pages) start.mem (pageCalls env .hide i)
      log := start.log ++ (pages env i).map .getFreePage }) :
    ∃ k ≤ maxCount, (∀ j < k, env.getFreePage j ≠ 0) ∧ (k < maxCount → env.getFreePage k = 0) ∧
      fillPool env left i s = (decide (k = maxCount),{ start with
        pool := fun j => if j < k then env.getFreePage j else 0
        mem := run (Setter.apply env.pages) start.mem (pageCalls env .hide k)
        log := start.log ++ (pages env k).map .getFreePage }) := by
  induction left generalizing i s with
  | zero =>
    refine ⟨i,by omega,nonzero,by omega,?_⟩
    rw [fillPool,filled,decide_eq_true (by omega)]
  | succ left ih =>
    by_cases missing : env.getFreePage i = 0
    · refine ⟨i,by omega,nonzero,fun _ => missing,?_⟩
      rw [fillPool,if_pos missing,filled,decide_eq_false (by omega)]
      congr 2
      funext j
      by_cases here : j = i
      · rw [here,Function.update_self,missing,if_neg (Nat.lt_irrefl i)]
      · rw [Function.update_of_ne here]
    · rw [fillPool,if_neg missing]
      apply ih (by omega)
      · intro j bound
        by_cases here : j = i
        · exact here ▸ missing
        · exact nonzero j (by omega)
      · rw [filled]
        congr 1
        · funext j
          by_cases here : j = i
          · rw [here,Function.update_self,if_pos (Nat.lt_succ_self i)]
          · rw [Function.update_of_ne here]
            simp only [show j < i + 1 ↔ j < i by omega]
        · rw [hbHideRange,setRange_page allocator _ (by omega),pageCalls_succ,run_append]
          rfl
        · rw [pages_succ,List.map_append,List.append_assoc]
          rfl

/-- The loop after an error passes over the zeros behind the pages that were obtained. -/
theorem releasePool_spec (bound : k ≤ maxCount) (nonzero : ∀ j < k, env.getFreePage j ≠ 0) {s : PoolState}
    (count : s.maxCount = maxCount) (filled : s.pool = fun j => if j < k then env.getFreePage j else 0) :
    releasePool env s = { s with
      mem := run (Setter.apply env.pages) s.mem (pageCalls env .allAccess k)
      log := s.log ++ (pages env k).map .freePage ++ [.vfree] } := by
  have result : loop s.maxCount (releasePage env) s = { s with
      mem := run (Setter.apply env.pages) s.mem (pageCalls env .allAccess (min s.maxCount k))
      log := s.log ++ (pages env (min s.maxCount k)).map .freePage } := by
    refine loop_invariant (fun i s' => s' = { s with
      mem := run (Setter.apply env.pages) s.mem (pageCalls env .allAccess (min i k))
      log := s.log ++ (pages env (min i k)).map PoolEvent.freePage }) ?_ ?_
    · simp [pageCalls,pages,rangeCalls]
    · rintro i inside _ rfl
      by_cases got : i < k
      · have entry : s.pool i = env.getFreePage i := by rw [filled]; exact if_pos got
        rw [releasePage,if_pos (by rw [entry]; exact nonzero i got),entry,Nat.min_eq_left got.le,
          Nat.min_eq_left (by omega : i + 1 ≤ k)]
        congr 1
        · rw [hbSetAllAccessRange,setRange_page allocator _ (by omega),pageCalls_succ,run_append]
          rfl
        · rw [pages_succ,List.map_append,List.append_assoc]
          rfl
      · have entry : s.pool i = 0 := by rw [filled]; exact if_neg got
        rw [releasePage,if_neg (by rw [entry]; simp),Nat.min_eq_right (by omega),Nat.min_eq_right (by omega)]
  rw [releasePool,result,count,Nat.min_eq_right bound]

theorem pageCalls_below (setter : Setter) (bound : k ≤ maxCount) (nonzero : ∀ j < k, env.getFreePage j ≠ 0) :
    ∀ call ∈ pageCalls env setter k, call.2.toNat < maxRamSize ramEnd := by
  intro call member
  obtain ⟨page,inside,rfl⟩ := List.mem_map.mp member
  obtain ⟨j,here,rfl⟩ := List.mem_map.mp inside
  rw [List.mem_range] at here
  exact allocator.below j (by omega) (nonzero j here)

theorem pages_nodup (bound : k ≤ maxCount) (nonzero : ∀ j < k, env.getFreePage j ≠ 0) : (pages env k).Nodup := by
  apply List.Nodup.map_on ?_ List.nodup_range
  intro i inside j inside' same
  rw [List.mem_range] at inside inside'
  exact allocator.distinct i (by omega) j (by omega) (nonzero i inside) (nonzero j inside') (by rw [same])

theorem released {mem : Mem} (follows : Follows env.toExitEnv calls mem) (bound : k ≤ maxCount)
    (nonzero : ∀ j < k, env.getFreePage j ≠ 0) :
    run (Setter.apply env.pages) mem (pageCalls env .hide k ++ pageCalls env .allAccess k) = mem := by
  have pageOf_call : ∀ call ∈ pageCalls env .hide k ++ pageCalls env .allAccess k,
      ∃ j < k, call.2 = env.virtToPhys (env.getFreePage j) := by
    intro call member
    rcases List.mem_append.mp member with hide | access
    all_goals
      obtain ⟨page,inside,rfl⟩ := List.mem_map.mp ‹_›
      obtain ⟨j,here,rfl⟩ := List.mem_map.mp inside
      exact ⟨j,List.mem_range.mp here,rfl⟩
  apply follows.restored
  · intro call member
    rcases List.mem_append.mp member with hide | access
    · exact pageCalls_below allocator .hide bound nonzero call hide
    · exact pageCalls_below allocator .allAccess bound nonzero call access
  · intro call member
    obtain ⟨j,here,same⟩ := pageOf_call call member
    have before := allocator.accessible j (by omega) (nonzero j here)
    rw [same,← List.append_assoc,setterAfter_pages .allAccess _ here]
    rw [rightsAfter_eq] at before
    cases setter : setterAfter calls (pageOffset (env.virtToPhys (env.getFreePage j))) with
    | allAccess => rfl
    | _ => rw [setter] at before; exact absurd before (by decide)

end Steps

/-- Every entry of the array is a page of its own that the guest cannot reach. -/
structure Ready {ramEnd : Nat} (env : PoolEnv ramEnd) (maxCount : Nat) (s : PoolState) : Prop where
  count : s.maxCount = maxCount
  first : s.popIndex = 0
  nonzero : ∀ i < maxCount, s.pool i ≠ 0
  distinct : ∀ i < maxCount, ∀ j < maxCount,
    pageOffset (env.virtToPhys (s.pool i)) = pageOffset (env.virtToPhys (s.pool j)) → i = j
  hidden : ∀ i < maxCount,
    PageRights env.toExitEnv s.mem (pageOffset (env.virtToPhys (s.pool i))) ⟨false,false,false⟩

/-- The memory is as before; the array, if there was one, and the pages have been given back,
each of them once. -/
structure TakenBack (before after : PoolState) : Prop where
  mem : after.mem = before.mem
  log : after.log = before.log ∨ ∃ pages : List U64, pages.Nodup ∧ after.log = before.log ++
    (.vzalloc :: (pages.map .getFreePage ++ pages.map .freePage ++ [.vfree]))

section Outcome
variable {ramEnd : Nat} {env : PoolEnv ramEnd} {calls : List (Setter × U64)} {s : PoolState}

theorem setup_outcome (gMaxRamSize : Nat) (allocator : Allocator env (gMaxRamSize / (2 * 2^20) * 2) calls)
    (follows : Follows env.toExitEnv calls s.mem) :
    ((hbSetupMemoryPool env gMaxRamSize s).1 = 0 ∧
      Ready env (gMaxRamSize / (2 * 2^20) * 2) (hbSetupMemoryPool env gMaxRamSize s).2) ∨
    ((hbSetupMemoryPool env gMaxRamSize s).1 = -1 ∧ TakenBack s (hbSetupMemoryPool env gMaxRamSize s).2) := by
  generalize size : gMaxRamSize / (2 * 2^20) * 2 = maxCount at allocator
  rw [hbSetupMemoryPool,size]
  cases env.vzalloc with
  | false => exact .inr ⟨rfl,rfl,.inl rfl⟩
  | true =>
    let zeroed : PoolState := { s with maxCount := maxCount, pool := fun _ => 0, log := s.log ++ [.vzalloc] }
    have first : ∀ j < 0, env.getFreePage j ≠ 0 := by simp
    obtain ⟨k,bound,nonzero,stopped,result⟩ := fillPool_spec allocator zeroed (Nat.zero_add maxCount) zeroed first
      (by simp [zeroed,pageCalls,pages,rangeCalls])
    simp only [Bool.not_true,Bool.false_eq_true,if_false,zeroed] at result ⊢
    rw [result]
    by_cases whole : k = maxCount
    · subst whole
      have hidden := follows.append (pageCalls_below allocator .hide le_rfl nonzero)
      rw [decide_eq_true rfl]
      refine .inl ⟨rfl,rfl,rfl,?_,?_,?_⟩
      · intro i inside
        simpa only [if_pos inside] using nonzero i inside
      · intro i inside j inside'
        simp only [if_pos inside,if_pos inside']
        exact allocator.distinct i inside j inside' (nonzero i inside) (nonzero j inside')
      · intro i inside
        simp only [if_pos inside]
        exact hidden.rights (setterAfter_pages .hide calls inside)
    · rw [decide_eq_false whole]
      dsimp only
      refine .inr ⟨rfl,?_,.inr ⟨pages env k,pages_nodup allocator bound nonzero,?_⟩⟩
      all_goals rw [releasePool_spec allocator bound nonzero rfl rfl]
      · have back := released allocator follows bound nonzero
        rwa [run_append] at back
      · simp

end Outcome

end HyperBox.Pool
