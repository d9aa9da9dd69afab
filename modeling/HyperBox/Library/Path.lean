import Mathlib.Data.List.Infix
import Mathlib.Data.List.Basic

/-! Paths of names, each behind a separator, as they are built from the last name up. The
names can be told from the path, and of a path that must not exceed a length as many names
are kept at its end as fit. -/
namespace HyperBox.Library

section Path
variable {α : Type*} {sep : α}

/-- The path of the names, which are listed from the last one up to the first. -/
def joined (sep : α) (names : List (List α)) : List α := names.reverse.flatMap (fun name => sep::name)

theorem joined_append (first second : List (List α)) :
    joined sep (first ++ second) = joined sep second ++ joined sep first := by
  simp [joined]

theorem joined_snoc (names : List (List α)) (name : List α) :
    joined sep (names ++ [name]) = sep::name ++ joined sep names := by
  simp [joined]

def AtSeparator (sep : α) (rest : List α) : Prop := rest = [] ∨ ∃ tail, rest = sep::tail

theorem atSeparator_flatMap (names : List (List α)) : AtSeparator sep (names.flatMap (fun name => sep::name)) := by
  cases names with
  | nil => exact .inl rfl
  | cons name names => exact .inr ⟨_,rfl⟩

theorem AtSeparator.absent {rest tail : List α} {a : α} (at_ : AtSeparator sep rest) (same : rest = a::tail) :
    a = sep := by
  rcases at_ with rfl | ⟨other,rfl⟩
  · contradiction
  · exact (List.cons.inj same).1.symm

/-- Two names without separator that begin the same path are equal. -/
theorem cut_unique {x y rest rest' : List α} (freeX : sep ∉ x) (freeY : sep ∉ y) (cut : AtSeparator sep rest)
    (cut' : AtSeparator sep rest') (same : x ++ rest = y ++ rest') : x = y ∧ rest = rest' := by
  induction x generalizing y with
  | nil =>
    cases y with
    | nil => exact ⟨rfl,same⟩
    | cons b y =>
      have first := cut.absent (same : rest = b::(y ++ rest'))
      exact absurd (first ▸ List.mem_cons_self) freeY
  | cons a x ih =>
    cases y with
    | nil =>
      have first := cut'.absent (same.symm : rest' = a::(x ++ rest))
      exact absurd (first ▸ List.mem_cons_self) freeX
    | cons b y =>
      obtain ⟨rfl,tails⟩ := List.cons.inj same
      obtain ⟨rfl,rests⟩ := ih (fun member => freeX (List.mem_cons_of_mem a member))
        (fun member => freeY (List.mem_cons_of_mem a member)) tails
      exact ⟨rfl,rests⟩

theorem flatMap_unique {names names' : List (List α)} (free : ∀ name ∈ names, sep ∉ name)
    (free' : ∀ name ∈ names', sep ∉ name)
    (same : names.flatMap (fun name => sep::name) = names'.flatMap (fun name => sep::name)) : names = names' := by
  induction names generalizing names' with
  | nil =>
    cases names' with
    | nil => rfl
    | cons name names' => cases same
  | cons name names ih =>
    cases names' with
    | nil => cases same
    | cons name' names' =>
      obtain ⟨here,rest⟩ := List.forall_mem_cons.mp free
      obtain ⟨here',rest'⟩ := List.forall_mem_cons.mp free'
      rw [List.flatMap_cons,List.flatMap_cons,List.cons_append,List.cons_append,List.cons.injEq] at same
      obtain ⟨rfl,tails⟩ := cut_unique here here' (atSeparator_flatMap names) (atSeparator_flatMap names') same.2
      rw [ih rest rest' tails]

theorem joined_unique {names names' : List (List α)} (free : ∀ name ∈ names, sep ∉ name)
    (free' : ∀ name ∈ names', sep ∉ name) (same : joined sep names = joined sep names') : names = names' := by
  have reversed := flatMap_unique (fun name member => free name (List.mem_reverse.mp member))
    (fun name member => free' name (List.mem_reverse.mp member)) same
  exact List.reverse_inj.mp reversed

/-- `kept` are the last names of a path, as many as make up at most `limit` characters. -/
structure LongestFit (sep : α) (limit : Nat) (names kept : List (List α)) : Prop where
  whole : kept <+: names
  fits : (joined sep kept).length ≤ limit
  longest : ∀ more, more <+: names → (joined sep more).length ≤ limit → more.length ≤ kept.length

theorem LongestFit.all {limit : Nat} {names kept : List (List α)} (longest : LongestFit sep limit names kept)
    (fits : (joined sep names).length ≤ limit) : kept = names :=
  longest.whole.eq_of_length_le (longest.longest names (List.prefix_rfl) fits)

theorem LongestFit.stop {limit : Nat} {kept rest : List (List α)} {name : List α}
    (fits : (joined sep kept).length ≤ limit) (long : limit < (joined sep (kept ++ [name])).length) :
    LongestFit sep limit (kept ++ name::rest) kept := by
  refine ⟨List.prefix_append _ _,fits,?_⟩
  intro more whole short
  by_contra longer
  have next : kept ++ [name] <+: more := by
    apply List.prefix_of_prefix_length_le ?_ whole
    · rw [List.length_append,List.length_singleton]
      omega
    · have longer := List.prefix_append (kept ++ [name]) rest
      rwa [List.append_assoc,List.singleton_append] at longer
  obtain ⟨tail,rfl⟩ := next
  rw [joined_append,List.length_append] at short
  omega

end Path

end HyperBox.Library
