import HyperBox.Library.Locked
import HyperBox.Pool.Setup

/-! `hb_get_memory` as the body of a lock, called from any number of cores. -/
namespace HyperBox.Pool
open HyperBox.Library HyperBox.PageTable HyperBox.Ept

/-- The accesses to `g_memory_pool` between taking the lock and giving it back. -/
inductive Line where
  | check
  | load
  | readIndex (memory : U64)
  | writeIndex (memory : U64) (index : Nat)

/-- The shared data is `pop_index`; NULL is returned as `none`. -/
def hbGetMemory (s : PoolState) : Procedure Nat Line (Option U64) where
  entry := .check
  step := fun popIndex line =>
    match line with
    | .check => if s.maxCount ≤ popIndex then (popIndex,.inr none) else (popIndex,.inl .load)
    | .load => (popIndex,.inl (.readIndex (s.pool popIndex)))
    | .readIndex memory => (popIndex,.inl (.writeIndex memory popIndex))
    | .writeIndex memory index => (index + 1,.inr (some memory))

/-- The pages from the first on, each once and in order, and NULL when there are no more. -/
def HandsOut (s : PoolState) (results : List (Option U64)) : Prop :=
  ∃ k nulls, k ≤ s.maxCount ∧ (0 < nulls → k = s.maxCount) ∧
    results = (List.range k).map (fun i => some (s.pool i)) ++ List.replicate nulls none

section Calls
variable {s : PoolState}

def At (s : PoolState) (entered popIndex : Nat) : Line ⊕ Option U64 → Prop
  | .inl .check => popIndex = entered
  | .inl .load => popIndex = entered ∧ entered < s.maxCount
  | .inl (.readIndex memory) => popIndex = entered ∧ entered < s.maxCount ∧ memory = s.pool entered
  | .inl (.writeIndex memory index) => index = entered ∧ entered < s.maxCount ∧ memory = s.pool entered
  | .inr none => popIndex = entered ∧ s.maxCount ≤ entered
  | .inr (some memory) => popIndex = entered + 1 ∧ entered < s.maxCount ∧ memory = s.pool entered

theorem reaches_at {entered popIndex : Nat} {place : Line ⊕ Option U64}
    (reached : (hbGetMemory s).Reaches entered popIndex place) : At s entered popIndex place := by
  induction reached with
  | enter => rfl
  | @step popIndex line _ before =>
    cases line with
    | check =>
      have same : popIndex = entered := before
      simp only [hbGetMemory]
      split
      next empty => exact ⟨same,same ▸ empty⟩
      next more => exact ⟨same,by omega⟩
    | load => exact ⟨before.1,before.2,congrArg s.pool before.1⟩
    | readIndex memory => exact ⟨before.1,before.2⟩
    | writeIndex memory index => exact ⟨congrArg (· + 1) before.1,before.2⟩

theorem serial_handsOut {results : List (Option U64)} {after : Nat}
    (serial : (hbGetMemory s).Serial 0 results after) :
    ∃ nulls, after ≤ s.maxCount ∧ (0 < nulls → after = s.maxCount) ∧
      results = (List.range after).map (fun i => some (s.pool i)) ++ List.replicate nulls none := by
  induction serial with
  | none => exact ⟨0,Nat.zero_le _,fun some => absurd some (Nat.lt_irrefl 0),rfl⟩
  | @call results before after r _ reached ih =>
    obtain ⟨nulls,bound,empty,rfl⟩ := ih
    have place := reaches_at reached
    cases r with
    | none =>
      obtain ⟨rfl,full⟩ := place
      refine ⟨nulls + 1,bound,fun _ => Nat.le_antisymm bound full,?_⟩
      rw [List.append_assoc,List.replicate_succ']
    | some memory =>
      obtain ⟨rfl,more,rfl⟩ := place
      have none : nulls = 0 := by
        by_contra some
        have full := empty (Nat.pos_of_ne_zero some)
        omega
      subst none
      refine ⟨0,more,fun some => absurd some (Nat.lt_irrefl 0),?_⟩
      rw [List.range_succ,List.map_append]
      simp

theorem HandsOut.nodup {results : List (Option U64)} (handsOut : HandsOut s results)
    (distinct : ∀ i < s.maxCount, ∀ j < s.maxCount, s.pool i = s.pool j → i = j) :
    (results.filterMap id).Nodup := by
  obtain ⟨k,nulls,bound,_,rfl⟩ := handsOut
  have given : ((List.range k).map (fun i => some (s.pool i)) ++ List.replicate nulls none).filterMap id =
      (List.range k).map s.pool := by
    rw [List.filterMap_append,List.filterMap_map]
    simp
  rw [given]
  apply List.Nodup.map_on ?_ List.nodup_range
  intro i inside j inside' same
  rw [List.mem_range] at inside inside'
  exact distinct i (by omega) j (by omega) same

end Calls

section Claim
variable {ramEnd : Nat} {env : PoolEnv ramEnd} {calls : List (Setter × U64)} {s : PoolState}

def results {ι : Type*} [DecidableEq ι] (s : PoolState) (schedule : List ι) : List (Option U64) :=
  (run (hbGetMemory s).move (.start s.popIndex) schedule).log.map Prod.snd

/-- The set-up of the pool hides all of its pages or takes everything back, and the cores get
each page at most once. -/
theorem memory_pool (gMaxRamSize : Nat) (allocator : Allocator env (gMaxRamSize / (2 * 2^20) * 2) calls)
    (follows : Follows env.toExitEnv calls s.mem) :
    ((hbSetupMemoryPool env gMaxRamSize s).1 = 0 ∧
      Ready env (gMaxRamSize / (2 * 2^20) * 2) (hbSetupMemoryPool env gMaxRamSize s).2 ∧
      ∀ (ι : Type) [DecidableEq ι] (schedule : List ι),
        HandsOut (hbSetupMemoryPool env gMaxRamSize s).2 (results (hbSetupMemoryPool env gMaxRamSize s).2 schedule) ∧
        ((results (hbSetupMemoryPool env gMaxRamSize s).2 schedule).filterMap id).Nodup) ∨
    ((hbSetupMemoryPool env gMaxRamSize s).1 = -1 ∧ TakenBack s (hbSetupMemoryPool env gMaxRamSize s).2) := by
  rcases setup_outcome gMaxRamSize allocator follows with ⟨zero,ready⟩ | failed
  · refine .inl ⟨zero,ready,?_⟩
    intro ι _ schedule
    have handsOut : HandsOut (hbSetupMemoryPool env gMaxRamSize s).2
        (results (hbSetupMemoryPool env gMaxRamSize s).2 schedule) := by
      rw [results,ready.first]
      obtain ⟨after,serial⟩ := run_serial 0 schedule
      obtain ⟨nulls,bound,full,same⟩ := serial_handsOut serial
      exact ⟨after,nulls,bound,full,same⟩
    refine ⟨handsOut,handsOut.nodup ?_⟩
    rw [ready.count]
    intro i inside j inside' same
    exact ready.distinct i inside j inside' (by rw [same])
  · exact .inr failed

end Claim

section Sample

def samplePool : PoolEnv 0 where
  toExitEnv := exitSample
  vzalloc := true
  getFreePage := fun i => if i = 0 then 0x10000 else 0

theorem samplePool_first {i : Nat} (some : samplePool.getFreePage i ≠ 0) : i = 0 := by
  by_contra later
  exact some (if_neg later)

theorem samplePool_page (i : Nat) : samplePool.getFreePage i = 0x10000 ∨ samplePool.getFreePage i = 0 := by
  by_cases first : i = 0
  · exact .inl (if_pos first)
  · exact .inr (if_neg first)

theorem samplePool_allocator (maxCount : Nat) : Allocator samplePool maxCount [] where
  aligned := by
    intro i _
    rcases samplePool_page i with page | page <;> rw [page] <;> decide
  fits := by
    intro i _
    rcases samplePool_page i with page | page <;> rw [page] <;> decide
  below := by
    intro i _ some
    rw [samplePool_first some]
    decide
  distinct := by
    intro i _ j _ first second _
    rw [samplePool_first first,samplePool_first second]
  accessible := fun _ _ _ => rfl

def samplePoolState : PoolState := ⟨0,0,fun _ => 0,bootState.mem,[]⟩

theorem samplePool_follows : Follows exitSample [] samplePoolState.mem :=
  ⟨eptAfter_tables samplePages (fun _ _ => 0) (show Clipped _ none by simp [Clipped]) [] (by simp),by simp⟩

/-- The allocator has both pages. -/
def filledPool : PoolEnv 0 := { samplePool with getFreePage := fun i => if i = 0 then 0x10000 else 0x11000 }

theorem filledPool_page (i : Nat) : filledPool.getFreePage i = 0x10000 ∨ filledPool.getFreePage i = 0x11000 := by
  by_cases first : i = 0
  · exact .inl (if_pos first)
  · exact .inr (if_neg first)

theorem filledPool_allocator : Allocator filledPool 2 [] where
  aligned := by
    intro i _
    rcases filledPool_page i with page | page <;> rw [page] <;> decide
  fits := by
    intro i _
    rcases filledPool_page i with page | page <;> rw [page] <;> decide
  below := by
    intro i _ _
    rcases filledPool_page i with page | page <;> rw [page] <;> decide
  distinct := by
    intro i small j small' _ _
    obtain rfl | rfl : i = 0 ∨ i = 1 := by omega
    all_goals obtain rfl | rfl : j = 0 ∨ j = 1 := by omega
    all_goals decide
  accessible := fun _ _ _ => rfl

/-- Two cores ask for pages at the same time, the first one once more when there are none left. -/
def poolSchedule {ι : Type} (first second : ι) : List ι :=
  [first,second,first,second,first,first,second,first,first,second,first,second,second,first,second,second,second,
    first,first,first]

theorem memory_pool_sample :
    TakenBack samplePoolState (hbSetupMemoryPool samplePool 0x200000 samplePoolState).2 ∧
    Ready filledPool 2 (hbSetupMemoryPool filledPool 0x200000 samplePoolState).2 ∧
    results (hbSetupMemoryPool filledPool 0x200000 samplePoolState).2 (poolSchedule (0 : Fin 2) 1) =
      [some 0x10000,some 0x11000,none] ∧
    ((results (hbSetupMemoryPool filledPool 0x200000 samplePoolState).2 (poolSchedule (0 : Fin 2) 1)).filterMap id).Nodup := by
  constructor
  · rcases memory_pool 0x200000 (samplePool_allocator _) samplePool_follows with ⟨zero,_⟩ | ⟨_,back⟩
    · exact absurd zero (by decide)
    · exact back
  · rcases memory_pool 0x200000 filledPool_allocator samplePool_follows with ⟨_,ready,calls⟩ | ⟨failed,_⟩
    · exact ⟨ready,by decide +kernel,(calls (Fin 2) (poolSchedule 0 1)).2⟩
    · exact absurd failed (by decide)

end Sample

end HyperBox.Pool
