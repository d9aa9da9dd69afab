import HyperBox.Library.Paged
import Mathlib.Algebra.GroupWithZero.Nat
import Mathlib.Logic.Function.Iterate

/-! Nested loops that fill tables of a paged memory, slot after slot, while an
accumulator runs along. What a slot holds afterwards is told by its position in
the whole sequence of writes. -/
namespace HyperBox.Library

section Fill
variable {w : Nat} [NeZero w] {α β : Type*} (next : β → β)

def fill (blank : α) (page : Nat) (entry : Nat → β → α) (s : Paged w α × β) : Paged w α × β :=
  loop w (fun i t => (t.1.write page (Fin.ofNat w i) (entry i t.2),next t.2))
    (s.1.setPage page (fun _ => blank),s.2)

def fillTables (blank : α) (count : Nat) (page : Nat → Nat) (entry : Nat → Nat → β → α)
    (s : Paged w α × β) : Paged w α × β :=
  loop count (fun j t => fill next blank (page j) (entry j) t) s

variable (blank : α)

private theorem lt_of_ne_last {n : Nat} {i : Fin w} (bound : n < w) (earlier : i.val < n + 1)
    (other : i ≠ Fin.ofNat w n) : i.val < n := by
  have apart : i.val ≠ n := fun same => other (Fin.ext (by simp [same,Nat.mod_eq_of_lt bound]))
  omega

theorem fill_spec (page : Nat) (entry : Nat → β → α) (s : Paged w α × β) :
    (∀ i : Fin w, (fill next blank page entry s).1 page i = entry i (next^[i] s.2)) ∧
      (∀ t, t ≠ page → (fill next blank page entry s).1 t = s.1 t) ∧
      (fill next blank page entry s).2 = next^[w] s.2 := by
  suffices done : (∀ i : Fin w, i.val < w →
      (fill next blank page entry s).1 page i = entry i (next^[i] s.2)) ∧
      (∀ u, u ≠ page → (fill next blank page entry s).1 u = s.1 u) ∧
      (fill next blank page entry s).2 = next^[w] s.2 from
    ⟨fun i => done.1 i i.isLt,done.2.1,done.2.2⟩
  refine loop_invariant (fun n (t : Paged w α × β) =>
    (∀ i : Fin w, i.val < n → t.1 page i = entry i (next^[i] s.2)) ∧
      (∀ u, u ≠ page → t.1 u = s.1 u) ∧ t.2 = next^[n] s.2) ?_ ?_
  · exact ⟨fun i none => absurd none (Nat.not_lt_zero _),fun u other => s.1.setPage_ne _ other,rfl⟩
  · rintro n bound t ⟨written,same,acc⟩
    refine ⟨?_,fun u other => (t.1.write_page_ne _ _ other).trans (same u other),?_⟩
    · intro i earlier
      by_cases here : i = Fin.ofNat w n
      · have index : i.val = n := by simp [here,Nat.mod_eq_of_lt bound]
        rw [← here,index,← acc]
        exact t.1.write_self _ _ _
      · rw [← written i (lt_of_ne_last bound earlier here)]
        exact t.1.write_ne _ (fun both => here both.2)
    · rw [Function.iterate_succ_apply',← acc]

/-- After the loops, a slot holds the entry for the accumulator's value at its turn. -/
theorem fillTables_spec {count : Nat} {page : Nat → Nat}
    (distinct : ∀ j k, j < count → k < count → page j = page k → j = k)
    (entry : Nat → Nat → β → α) (s : Paged w α × β) :
    (∀ j < count, ∀ i : Fin w, (fillTables next blank count page entry s).1 (page j) i =
        entry j i (next^[j*w+i] s.2)) ∧
      (∀ t, (∀ j < count, t ≠ page j) → (fillTables next blank count page entry s).1 t = s.1 t) := by
  suffices done : (∀ j < count, ∀ i : Fin w, (fillTables next blank count page entry s).1 (page j) i =
      entry j i (next^[j*w+i] s.2)) ∧
      (∀ t, (∀ j < count, t ≠ page j) → (fillTables next blank count page entry s).1 t = s.1 t) ∧
      (fillTables next blank count page entry s).2 = next^[count*w] s.2 from ⟨done.1,done.2.1⟩
  refine loop_invariant (fun n (t : Paged w α × β) =>
    (∀ j < n, ∀ i : Fin w, t.1 (page j) i = entry j i (next^[j*w+i] s.2)) ∧
      (∀ u, (∀ j < n, u ≠ page j) → t.1 u = s.1 u) ∧ t.2 = next^[n*w] s.2) ?_ ?_
  · exact ⟨fun j none => absurd none (Nat.not_lt_zero _),fun _ _ => rfl,by simp⟩
  · rintro n bound t ⟨written,same,acc⟩
    obtain ⟨here,others,after⟩ := fill_spec next blank (page n) (entry n) t
    refine ⟨?_,?_,?_⟩
    · intro j earlier i
      by_cases last : j = n
      · subst j
        rw [here i,acc,← Function.iterate_add_apply,Nat.add_comm]
      · have apart : page j ≠ page n := fun equal => last (distinct j n (by omega) bound equal)
        rw [others _ apart]
        exact written j (by omega) i
    · intro u apart
      rw [others u (apart n (by omega))]
      exact same u (fun j earlier => apart j (by omega))
    · rw [after,acc,← Function.iterate_add_apply,Nat.succ_mul,Nat.add_comm]

end Fill

end HyperBox.Library
