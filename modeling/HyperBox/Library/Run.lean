import Mathlib.Data.List.Basic

/-! Runs of a deterministic system over a list of events, and counted loops.
A run is judged by a relation between every state it passes and the event taken
there; the rules below carry an invariant along such a run. -/
namespace HyperBox.Library

section Runs
variable {σ ε : Type*} {step : σ → ε → σ} {R Q : σ → ε → Prop}

def run (step : σ → ε → σ) (start : σ) (events : List ε) : σ := events.foldl step start

/-- Every state of the run is related by `R` to the event it takes next. -/
def Along (step : σ → ε → σ) (R : σ → ε → Prop) : σ → List ε → Prop
  | _,[] => True
  | start,event::rest => R start event ∧ Along step R (step start event) rest

@[simp] theorem run_nil (start : σ) : run step start [] = start := rfl

@[simp] theorem run_cons (start : σ) (event : ε) (rest : List ε) :
    run step start (event::rest) = run step (step start event) rest := rfl

theorem run_append (start : σ) (first second : List ε) :
    run step start (first ++ second) = run step (run step start first) second := by
  simp [run]

theorem along_append (start : σ) (first second : List ε) :
    Along step R start (first ++ second) ↔
      Along step R start first ∧ Along step R (run step start first) second := by
  induction first generalizing start with
  | nil => simp [Along]
  | cons event rest ih => simp only [List.cons_append,Along,ih,run_cons,and_assoc]

theorem Along.reaches {start : σ} {events : List ε} (I : σ → Prop)
    (keeps : ∀ s e, I s → R s e → I (step s e)) (initial : I start)
    (along : Along step R start events) : I (run step start events) := by
  induction events generalizing start with
  | nil => exact initial
  | cons event rest ih => exact ih (keeps _ _ initial along.1) along.2

theorem Along.mono {start : σ} {events : List ε} (I : σ → Prop)
    (keeps : ∀ s e, I s → R s e → I (step s e)) (gives : ∀ s e, I s → R s e → Q s e)
    (initial : I start) (along : Along step R start events) : Along step Q start events := by
  induction events generalizing start with
  | nil => trivial
  | cons event rest ih =>
    exact ⟨gives _ _ initial along.1,ih (keeps _ _ initial along.1) along.2⟩

theorem run_invariant (I : σ → Prop) (keeps : ∀ s e, I s → I (step s e)) {start : σ} (initial : I start)
    (events : List ε) : I (run step start events) := by
  induction events generalizing start with
  | nil => exact initial
  | cons event rest ih => exact ih (keeps start event initial)

/-- What an invariant gives of one step holds along every run. -/
theorem along_of_invariant (I : σ → Prop) (keeps : ∀ s e, I s → I (step s e)) (gives : ∀ s e, I s → R s e)
    {start : σ} (initial : I start) (events : List ε) : Along step R start events := by
  induction events generalizing start with
  | nil => trivial
  | cons event rest ih => exact ⟨gives start event initial,ih (keeps start event initial)⟩

theorem along_iff {start : σ} {events : List ε} {P : ε → Prop} (I : σ → Prop)
    (keeps : ∀ s e, P e → I s → R s e → I (step s e)) (same : ∀ s e, P e → I s → (R s e ↔ Q s e))
    (initial : I start) (good : ∀ e ∈ events, P e) : Along step R start events ↔ Along step Q start events := by
  induction events generalizing start with
  | nil => exact Iff.rfl
  | cons event rest ih =>
    obtain ⟨here,later⟩ := List.forall_mem_cons.mp good
    rw [Along,Along,← same _ _ here initial]
    apply and_congr_right
    intro holds
    exact ih (keeps _ _ here initial holds) later

/-- A system in which, under an invariant, every step of some events lowers a measure or changes
nothing can be run by these events until none of them changes anything. -/
theorem reaches_rest {P : ε → Prop} (I : σ → Prop) (measure : σ → Nat) (keeps : ∀ s e, P e → I s → I (step s e))
    (lowers : ∀ s e, P e → I s → step s e = s ∨ measure (step s e) < measure s) {start : σ} (initial : I start) :
    ∃ events, (∀ e ∈ events, P e) ∧ I (run step start events) ∧
      ∀ e, P e → step (run step start events) e = run step start events := by
  induction size : measure start using Nat.strongRecOn generalizing start with
  | ind k ih =>
    by_cases rests : ∀ e, P e → step start e = start
    · exact ⟨[],by simp,initial,rests⟩
    · push Not at rests
      obtain ⟨event,good,moves⟩ := rests
      have lower := (lowers start event good initial).resolve_left moves
      obtain ⟨events,all,rest⟩ := ih _ (size ▸ lower) (keeps start event good initial) rfl
      exact ⟨event::events,List.forall_mem_cons.mpr ⟨good,all⟩,rest⟩

end Runs

section Loops
variable {σ : Type*}

/-- `for (i = 0 ; i < n ; i++) body` as state passing. -/
def loop (n : Nat) (body : Nat → σ → σ) (start : σ) : σ :=
  match n with
  | 0 => start
  | n+1 => body n (loop n body start)

theorem loop_invariant {n : Nat} {body : Nat → σ → σ} {start : σ} (I : Nat → σ → Prop)
    (initial : I 0 start) (keeps : ∀ i < n, ∀ s, I i s → I (i+1) (body i s)) :
    I n (loop n body start) := by
  induction n with
  | zero => exact initial
  | succ n ih =>
    have before := ih (fun i bound s holds => keeps i (by omega) s holds)
    exact keeps n (by omega) _ before

theorem loop_run {ε : Type*} {step : σ → ε → σ} {body : Nat → σ → σ} {n : Nat} {events : Nat → List ε}
    (runs : ∀ i < n, ∀ s, body i s = run step s (events i)) (start : σ) :
    loop n body start = run step start ((List.range n).flatMap events) := by
  induction n with
  | zero => rfl
  | succ n ih =>
    rw [List.range_succ,List.flatMap_append,run_append,List.flatMap_singleton,
      ← ih (fun i bound => runs i (by omega)),loop]
    exact runs n (by omega) _

end Loops

end HyperBox.Library
