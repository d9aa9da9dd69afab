import HyperBox.Library.Run
import Mathlib.Data.List.Induction
import Mathlib.Logic.Function.Basic

/-! Calls of one procedure whose body runs under a lock. Parties take its steps in any order;
the shared data and the results are those of whole calls, one after the other. -/
namespace HyperBox.Library

/-- The body of a procedure: each step changes the shared data and continues or returns. -/
structure Procedure (δ L ρ : Type*) where
  entry : L
  step : δ → L → δ × (L ⊕ ρ)

inductive Phase (L ρ : Type*) where
  | idle
  | inside (l : L)
  | leaving (r : ρ)

def Phase.after {L ρ : Type*} : L ⊕ ρ → Phase L ρ
  | .inl l => .inside l
  | .inr r => .leaving r

/-- The log tells which party returned what, in the order in which the lock was given back. -/
structure Locked (ι δ L ρ : Type*) where
  lock : Option ι
  data : δ
  phase : ι → Phase L ρ
  log : List (ι × ρ)

section Locks
variable {ι δ L ρ : Type*} (procedure : Procedure δ L ρ)

namespace Procedure

/-- Where a call that entered with the data `entered` can stand, if it runs alone. -/
inductive Reaches (entered : δ) : δ → L ⊕ ρ → Prop where
  | enter : Reaches entered entered (.inl procedure.entry)
  | step {d : δ} {l : L} : Reaches entered d (.inl l) → Reaches entered (procedure.step d l).1 (procedure.step d l).2

/-- Whole calls one after the other, with their results. -/
inductive Serial (start : δ) : List ρ → δ → Prop where
  | none : Serial start [] start
  | call {results : List ρ} {before after : δ} {r : ρ} : Serial start results before →
      procedure.Reaches before after (.inr r) → Serial start (results ++ [r]) after

variable [DecidableEq ι]

/-- One step of a party. A party that finds the lock taken keeps spinning. -/
def move (s : Locked ι δ L ρ) (party : ι) : Locked ι δ L ρ :=
  match s.phase party with
  | .idle =>
    match s.lock with
    | none => { s with lock := some party, phase := Function.update s.phase party (.inside procedure.entry) }
    | some _ => s
  | .inside l =>
    let next := procedure.step s.data l
    { s with data := next.1, phase := Function.update s.phase party (.after next.2) }
  | .leaving r =>
    { s with lock := none, phase := Function.update s.phase party .idle, log := s.log ++ [(party,r)] }

end Procedure

def Locked.start (data : δ) : Locked ι δ L ρ := ⟨none,data,fun _ => .idle,[]⟩

/-- Nobody is inside and the data are those after the calls that returned, or one party is. -/
def Exclusive (before : δ) (s : Locked ι δ L ρ) : Prop :=
  (s.lock = none ∧ s.data = before ∧ ∀ party, s.phase party = .idle) ∨
    ∃ holder place, s.lock = some holder ∧ s.phase holder = .after place ∧
      procedure.Reaches before s.data place ∧ ∀ party, party ≠ holder → s.phase party = .idle

def LockInv (start : δ) (s : Locked ι δ L ρ) : Prop :=
  ∃ before, procedure.Serial start (s.log.map Prod.snd) before ∧ Exclusive procedure before s

variable {procedure}

theorem LockInv.start (data : δ) : LockInv procedure data (Locked.start (ι := ι) data) :=
  ⟨data,.none,.inl ⟨rfl,rfl,fun _ => rfl⟩⟩

variable [DecidableEq ι]

theorem LockInv.move {start : δ} {s : Locked ι δ L ρ} (inv : LockInv procedure start s) (party : ι) :
    LockInv procedure start (procedure.move s party) := by
  obtain ⟨before,serial,⟨free,data,idle⟩ | ⟨holder,place,held,here,reached,others⟩⟩ := inv
  · refine ⟨before,?_,.inr ⟨party,.inl procedure.entry,?_,?_,?_,?_⟩⟩
    all_goals simp only [Procedure.move,idle party,free]
    · exact serial
    · exact Function.update_self _ _ _
    · rw [data]
      exact .enter
    · intro other apart
      rw [Function.update_of_ne apart,idle other]
  · by_cases same : party = holder
    · subst same
      cases place with
      | inl l =>
        refine ⟨before,?_,.inr ⟨party,(procedure.step s.data l).2,?_,?_,?_,?_⟩⟩
        all_goals simp only [Procedure.move,here,Phase.after]
        · exact serial
        · exact held
        · exact Function.update_self _ _ _
        · exact reached.step
        · intro other apart
          rw [Function.update_of_ne apart,others other apart]
      | inr r =>
        refine ⟨s.data,?_,.inl ⟨?_,?_,?_⟩⟩
        all_goals simp only [Procedure.move,here,Phase.after]
        · rw [List.map_append]
          exact serial.call reached
        · intro other
          by_cases apart : other = party
          · rw [apart,Function.update_self]
          · rw [Function.update_of_ne apart,others other apart]
    · refine ⟨before,?_,.inr ⟨holder,place,?_,?_,?_,?_⟩⟩
      all_goals simp only [Procedure.move,others party same,held]
      · exact serial
      · exact here
      · exact reached
      · exact others

/-- Every interleaving amounts to whole calls in the order in which they returned. -/
theorem run_serial (data : δ) (schedule : List ι) :
    ∃ after, procedure.Serial data ((run procedure.move (.start data) schedule).log.map Prod.snd) after := by
  have inv : LockInv procedure data (run procedure.move (.start data) schedule) := by
    induction schedule using List.reverseRecOn with
    | nil => exact .start data
    | append_singleton schedule party ih =>
      rw [run_append]
      exact ih.move party
  obtain ⟨after,serial,_⟩ := inv
  exact ⟨after,serial⟩

end Locks

end HyperBox.Library
