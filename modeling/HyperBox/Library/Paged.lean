import HyperBox.Library.Run

/-! Memories made of pages of numbered slots, and radix tables stored in them.
`link` tells which slot contents point to a further table. A table is named by
the path of slots that leads to it from the root; when no table is named by two
paths, writing one slot changes exactly what lies below that slot. -/
namespace HyperBox.Library

abbrev Paged (w : Nat) (α : Type*) := Nat → Fin w → α

namespace Paged
variable {w : Nat} {α : Type*} (mem : Paged w α)

def write (page : Nat) (slot : Fin w) (x : α) : Paged w α :=
  fun p i => if p = page ∧ i = slot then x else mem p i

def setPage (page : Nat) (content : Fin w → α) : Paged w α :=
  fun p => if p = page then content else mem p

@[simp] theorem write_self (page : Nat) (slot : Fin w) (x : α) :
    mem.write page slot x page slot = x := by simp [write]

theorem write_ne {page p : Nat} {slot i : Fin w} (x : α) (other : ¬ (p = page ∧ i = slot)) :
    mem.write page slot x p i = mem p i := by simp [write,other]

@[simp] theorem write_same (page : Nat) (slot : Fin w) : mem.write page slot (mem page slot) = mem := by
  funext p i
  by_cases here : p = page ∧ i = slot
  · obtain ⟨rfl,rfl⟩ := here
    exact mem.write_self p i _
  · exact mem.write_ne _ here

theorem write_page_ne {page p : Nat} (slot : Fin w) (x : α) (other : p ≠ page) :
    mem.write page slot x p = mem p := by
  funext i
  exact mem.write_ne x (fun same => other same.1)

@[simp] theorem setPage_self (page : Nat) (content : Fin w → α) :
    mem.setPage page content page = content := by simp [setPage]

theorem setPage_ne {page p : Nat} (content : Fin w → α) (other : p ≠ page) :
    mem.setPage page content p = mem p := by simp [setPage,other]

@[simp] theorem setPage_setPage (page : Nat) (first second : Fin w → α) :
    (mem.setPage page first).setPage page second = mem.setPage page second := by
  funext p
  by_cases same : p = page <;> simp [setPage,same]

end Paged

section Radix
variable {w : Nat} {α : Type*} (link : α → Option Nat)

def tableAt (mem : Paged w α) : Nat → List (Fin w) → Option Nat
  | page,[] => some page
  | page,i::rest => (link (mem page i)).bind (fun child => tableAt mem child rest)

/-- The slot contents that a walk reads, up to the first that is not a link. -/
def trace (mem : Paged w α) : Nat → List (Fin w) → List α
  | _,[] => []
  | page,i::rest =>
    mem page i :: (match link (mem page i) with
      | none => []
      | some child => trace mem child rest)

variable {link} {mem : Paged w α} {root depth : Nat} {U : Nat → Prop}

theorem tableAt_append (page : Nat) (p q : List (Fin w)) :
    tableAt link mem page (p ++ q) =
      (tableAt link mem page p).bind (fun t => tableAt link mem t q) := by
  induction p generalizing page with
  | nil => rfl
  | cons i rest ih =>
    simp only [List.cons_append,tableAt]
    cases link (mem page i) with
    | none => rfl
    | some child => simpa using ih child

theorem tableAt_snoc {page t : Nat} {p : List (Fin w)} (at_p : tableAt link mem page p = some t)
    (i : Fin w) : tableAt link mem page (p ++ [i]) = link (mem t i) := by
  rw [tableAt_append,at_p]
  cases found : link (mem t i) <;> simp [tableAt,found]

theorem trace_append {page t : Nat} {p : List (Fin w)} (at_p : tableAt link mem page p = some t)
    (q : List (Fin w)) :
    trace link mem page (p ++ q) = trace link mem page p ++ trace link mem t q := by
  induction p generalizing page with
  | nil =>
    obtain rfl := Option.some.inj at_p
    rfl
  | cons i rest ih =>
    simp only [List.cons_append,trace,tableAt] at at_p ⊢
    cases found : link (mem page i) with
    | none => simp [found] at at_p
    | some child =>
      rw [found] at at_p
      simp [ih at_p]

theorem length_lt_of_split {r s q : List (Fin w)} {i : Fin w} (split : r ++ i::s = q) : r.length < q.length := by
  rw [← split,List.length_append,List.length_cons]
  omega

theorem walks_agree {mem' : Paged w α} (page : Nat) (q : List (Fin w))
    (agree : ∀ r i s, r ++ i::s = q → ∀ t, tableAt link mem page r = some t → mem' t i = mem t i) :
    trace link mem' page q = trace link mem page q ∧
      tableAt link mem' page q = tableAt link mem page q := by
  induction q generalizing page with
  | nil => exact ⟨rfl,rfl⟩
  | cons i rest ih =>
    have here : mem' page i = mem page i := agree [] i rest rfl page rfl
    simp only [trace,tableAt,here]
    cases found : link (mem page i) with
    | none => exact ⟨rfl,rfl⟩
    | some child =>
      have below := ih child (fun r j s split t at_r =>
        agree (i::r) j s (by simp [split]) t (by simp [tableAt,found,at_r]))
      exact ⟨by simp [below.1],by simp [below.2]⟩

def TablesWithin (link : α → Option Nat) (mem : Paged w α) (page depth : Nat) (U : Nat → Prop) : Prop :=
  ∀ p t, p.length ≤ depth → tableAt link mem page p = some t → U t

namespace TablesWithin

theorem child {page : Nat} {i : Fin w} {next : Nat} (h : TablesWithin link mem page (depth+1) U)
    (linked : link (mem page i) = some next) : TablesWithin link mem next depth U :=
  fun p t bound at_p => h (i::p) t (by simpa using bound) (by simpa [tableAt,linked] using at_p)

theorem of_closed {page : Nat} (here : U page)
    (closed : ∀ t i next, U t → link (mem t i) = some next → U next) :
    TablesWithin link mem page depth U := by
  intro p t _ at_p
  induction p generalizing page with
  | nil => exact Option.some.inj at_p ▸ here
  | cons i rest ih =>
    cases found : link (mem page i) with
    | none => simp [tableAt,found] at at_p
    | some next =>
      exact ih (closed page i next here found) (by simp_all; omega) (by simpa [tableAt,found] using at_p)

theorem agree {mem' : Paged w α} {page : Nat} (h : TablesWithin link mem page depth U)
    (same : ∀ t, U t → mem' t = mem t) (q : List (Fin w)) (bound : q.length ≤ depth + 1) :
    trace link mem' page q = trace link mem page q ∧
      tableAt link mem' page q = tableAt link mem page q := by
  apply walks_agree
  intro r j s split t at_r
  have size : r.length ≤ depth := by
    have := length_lt_of_split split
    omega
  rw [same t (h r t size at_r)]

theorem congr {mem' : Paged w α} {page : Nat} (h : TablesWithin link mem page depth U)
    (same : ∀ t, U t → mem' t = mem t) : TablesWithin link mem' page depth U :=
  fun p t bound at_p => h p t bound ((h.agree same p (by omega)).2.symm.trans at_p)

end TablesWithin

def PathWithin (link : α → Option Nat) (mem : Paged w α) (page : Nat) (path : List (Fin w))
    (U : Nat → Prop) : Prop :=
  ∀ r i s, r ++ i::s = path → ∀ t, tableAt link mem page r = some t → U t

namespace PathWithin
variable {page : Nat} {i : Fin w} {path : List (Fin w)}

theorem of_tables (h : TablesWithin link mem page depth U) (bound : path.length ≤ depth + 1) :
    PathWithin link mem page path U := by
  intro r i s split t at_r
  refine h r t ?_ at_r
  have := length_lt_of_split split
  omega

theorem nil : PathWithin link mem page [] U := by
  intro r i s split
  simp at split

theorem cons (here : U page) (below : ∀ next, link (mem page i) = some next → PathWithin link mem next path U) :
    PathWithin link mem page (i::path) U := by
  intro r j s split t at_r
  cases r with
  | nil =>
    obtain rfl := Option.some.inj at_r
    exact here
  | cons k r =>
    obtain ⟨rfl,rest⟩ := List.cons.inj split
    simp only [tableAt] at at_r
    obtain ⟨next,linked,at_r⟩ := Option.bind_eq_some_iff.mp at_r
    exact below next linked r j s rest t at_r

theorem head (h : PathWithin link mem page (i::path) U) : U page := h [] i path rfl page rfl

theorem child {next : Nat} (h : PathWithin link mem page (i::path) U)
    (linked : link (mem page i) = some next) : PathWithin link mem next path U :=
  fun r j s split t at_r => h (i::r) j s (by simp [split]) t (by simpa [tableAt,linked] using at_r)

theorem agree {mem' : Paged w α} (h : PathWithin link mem page path U)
    (same : ∀ t, U t → mem' t = mem t) :
    trace link mem' page path = trace link mem page path ∧
      PathWithin link mem' page path U := by
  have read : ∀ r i s, r ++ i::s = path → ∀ t, tableAt link mem page r = some t →
      mem' t i = mem t i := fun r j s split t at_r => by rw [same t (h r j s split t at_r)]
  refine ⟨(walks_agree page path read).1,?_⟩
  intro r j s split t at_r
  refine h r j s split t ?_
  rw [← (walks_agree page r (fun r' j' s' split' => read r' j' (s' ++ j::s) ?_)).2]
  · exact at_r
  · rw [← split,← split']
    simp

end PathWithin

theorem snoc_not_initial (p : List (Fin w)) (a : Fin w) : ¬ (p ++ [a]) <+: p := by
  intro longer
  have size := longer.length_le
  rw [List.length_append,List.length_singleton] at size
  omega

/-- No table within `depth` links of the root is named by two paths, and all of
them satisfy `U`. -/
structure Separate (link : α → Option Nat) (mem : Paged w α) (root depth : Nat) (U : Nat → Prop) :
    Prop where
  distinct : ∀ p q t, p.length ≤ depth → q.length ≤ depth →
    tableAt link mem root p = some t → tableAt link mem root q = some t → p = q
  inside : TablesWithin link mem root depth U

namespace Separate

theorem write_elsewhere (h : Separate link mem root depth U) {p : List (Fin w)} {t : Nat}
    (at_p : tableAt link mem root p = some t) (short : p.length ≤ depth) (i : Fin w) (x : α)
    {q : List (Fin w)} (bound : q.length ≤ depth + 1) (apart : ¬ (p ++ [i]) <+: q) :
    trace link (mem.write t i x) root q = trace link mem root q ∧
      tableAt link (mem.write t i x) root q = tableAt link mem root q := by
  apply walks_agree
  intro r j s split t' at_r
  apply mem.write_ne
  rintro ⟨rfl,rfl⟩
  have size : r.length ≤ depth := by
    have := length_lt_of_split split
    omega
  obtain rfl := h.distinct p r _ short size at_p at_r
  exact apart ⟨s,by simpa using split⟩

theorem write_at (h : Separate link mem root depth U) {p : List (Fin w)} {t : Nat}
    (at_p : tableAt link mem root p = some t) (short : p.length ≤ depth) (i : Fin w) (x : α) :
    tableAt link (mem.write t i x) root p = some t ∧
      trace link (mem.write t i x) root p = trace link mem root p := by
  have same := h.write_elsewhere at_p short i x (by omega) (snoc_not_initial p i)
  exact ⟨same.2.trans at_p,same.1⟩

theorem write_through (h : Separate link mem root depth U) {p : List (Fin w)} {t : Nat}
    (at_p : tableAt link mem root p = some t) (short : p.length ≤ depth) (i : Fin w) (x : α)
    (rest : List (Fin w)) :
    trace link (mem.write t i x) root (p ++ i::rest) =
        trace link mem root p ++ x :: (match link x with
          | none => []
          | some child => trace link (mem.write t i x) child rest) ∧
      tableAt link (mem.write t i x) root (p ++ i::rest) =
        (link x).bind (fun child => tableAt link (mem.write t i x) child rest) := by
  obtain ⟨same,walked⟩ := h.write_at at_p short i x
  constructor
  · rw [trace_append same,walked]
    simp [trace]
  · rw [tableAt_append,same]
    simp [tableAt]

theorem setPage_unused (h : Separate link mem root depth U) {page : Nat} (unused : ¬ U page)
    (content : Fin w → α) {q : List (Fin w)} (bound : q.length ≤ depth + 1) :
    trace link (mem.setPage page content) root q = trace link mem root q ∧
      tableAt link (mem.setPage page content) root q = tableAt link mem root q :=
  h.inside.agree (fun t used => mem.setPage_ne content (fun same : t = page => unused (same ▸ used)))
    q bound

theorem write_plain (h : Separate link mem root depth U) {p : List (Fin w)} {t : Nat}
    (at_p : tableAt link mem root p = some t) (short : p.length ≤ depth) (i : Fin w) (x : α)
    (plain : link x = none ∨ p.length = depth) :
    Separate link (mem.write t i x) root depth U := by
  have same : ∀ (q : List (Fin w)) u, q.length ≤ depth →
      tableAt link (mem.write t i x) root q = some u → tableAt link mem root q = some u := by
    intro q u bound at_q
    by_cases below : (p ++ [i]) <+: q
    · obtain ⟨rest,rfl⟩ := below
      rcases plain with none | last
      · have through := (h.write_through at_p short i x rest).2
        simp only [List.append_assoc,List.singleton_append] at at_q
        rw [through,none] at at_q
        cases at_q
      · simp at bound
        omega
    · exact (h.write_elsewhere at_p short i x (by omega) below).2.symm.trans at_q
  constructor
  · intro q r u hq hr at_q at_r
    exact h.distinct q r u hq hr (same q u hq at_q) (same r u hr at_r)
  · intro q u hq at_q
    exact h.inside q u hq (same q u hq at_q)

theorem write_link (h : Separate link mem root depth U) {p : List (Fin w)} {t : Nat}
    (at_p : tableAt link mem root p = some t) (short : p.length < depth) (i : Fin w) (x : α)
    {child : Nat} (linked : link x = some child) (unused : ¬ U child)
    (empty : (∀ j, link (mem child j) = none) ∨ p.length + 1 = depth) :
    Separate link (mem.write t i x) root depth (fun u => U u ∨ u = child) := by
  have own : U t := h.inside p t (by omega) at_p
  have other : child ≠ t := fun same => unused (same ▸ own)
  have cases' : ∀ (q : List (Fin w)) u, q.length ≤ depth →
      tableAt link (mem.write t i x) root q = some u →
      (q = p ++ [i] ∧ u = child) ∨ tableAt link mem root q = some u := by
    intro q u bound at_q
    by_cases below : (p ++ [i]) <+: q
    · left
      obtain ⟨rest,rfl⟩ := below
      have through := (h.write_through at_p (by omega) i x rest).2
      simp only [List.append_assoc,List.singleton_append] at at_q bound ⊢
      rw [through,linked] at at_q
      cases rest with
      | nil => exact ⟨rfl,(Option.some.inj at_q).symm⟩
      | cons j more =>
        simp only [Option.bind_some,tableAt,mem.write_page_ne i x other] at at_q
        rcases empty with none | last
        · rw [none j] at at_q
          cases at_q
        · simp at bound
          omega
    · exact .inr ((h.write_elsewhere at_p (by omega) i x (by omega) below).2.symm.trans at_q)
  constructor
  · intro q r u hq hr at_q at_r
    rcases cases' q u hq at_q with ⟨rfl,rfl⟩ | old
    · rcases cases' r u hr at_r with ⟨rfl,_⟩ | old'
      · rfl
      · exact (unused (h.inside r u hr old')).elim
    · rcases cases' r u hr at_r with ⟨rfl,rfl⟩ | old'
      · exact (unused (h.inside q u hq old)).elim
      · exact h.distinct q r u hq hr old old'
  · intro q u hq at_q
    rcases cases' q u hq at_q with ⟨_,rfl⟩ | old
    · exact .inr rfl
    · exact .inl (h.inside q u hq old)

theorem mono {V : Nat → Prop} (h : Separate link mem root depth U) (wider : ∀ t, U t → V t) :
    Separate link mem root depth V :=
  ⟨h.distinct,fun p t short at_p => wider t (h.inside p t short at_p)⟩

theorem congr {mem' : Paged w α} (h : Separate link mem root depth U)
    (agree : ∀ t, U t → mem' t = mem t) : Separate link mem' root depth U := by
  have same : ∀ q : List (Fin w), q.length ≤ depth →
      tableAt link mem' root q = tableAt link mem root q :=
    fun q bound => (h.inside.agree agree q (by omega)).2
  constructor
  · intro p q t hp hq at_p at_q
    exact h.distinct p q t hp hq ((same p hp).symm.trans at_p) ((same q hq).symm.trans at_q)
  · exact h.inside.congr agree

/-- Writes to a page that is no table of the tree are not seen by its walks. -/
theorem write_off (h : Separate link mem root depth U) {t : Nat}
    (off : ∀ p, p.length ≤ depth → tableAt link mem root p ≠ some t) (i : Fin w) (x : α) :
    Separate link (mem.write t i x) root depth U ∧
      ∀ p : List (Fin w), p.length ≤ depth → tableAt link (mem.write t i x) root p = tableAt link mem root p := by
  have elsewhere : TablesWithin link mem root depth (fun u => u ≠ t) := by
    intro p u bound at_p same
    exact off p bound (same ▸ at_p)
  have same : ∀ p : List (Fin w), p.length ≤ depth →
      tableAt link (mem.write t i x) root p = tableAt link mem root p := by
    intro p bound
    exact (elsewhere.agree (fun u other => mem.write_page_ne i x other) p (by omega)).2
  refine ⟨⟨?_,?_⟩,same⟩
  · intro p q u hp hq at_p at_q
    exact h.distinct p q u hp hq ((same p hp).symm.trans at_p) ((same q hq).symm.trans at_q)
  · intro p u hp at_p
    exact h.inside p u hp ((same p hp).symm.trans at_p)

theorem setPage (h : Separate link mem root depth U) {page : Nat} (unused : ¬ U page)
    (content : Fin w → α) : Separate link (mem.setPage page content) root depth U :=
  h.congr (fun t used => mem.setPage_ne content (fun same : t = page => unused (same ▸ used)))

end Separate

/-- The walks that do not pass through the slot at the end of `r` are the same in
both memories. -/
def ChangedThrough (link : α → Option Nat) (mem mem' : Paged w α) (root depth : Nat)
    (r : List (Fin w)) : Prop :=
  ∀ q : List (Fin w), q.length ≤ depth + 1 → ¬ r <+: q →
    trace link mem' root q = trace link mem root q ∧
      tableAt link mem' root q = tableAt link mem root q

def ChangedBelow (link : α → Option Nat) (mem mem' : Paged w α) (root depth : Nat)
    (p : List (Fin w)) : Prop :=
  ∀ q : List (Fin w), q.length ≤ depth + 1 → (p <+: q → q = p) →
    trace link mem' root q = trace link mem root q ∧
      tableAt link mem' root q = tableAt link mem root q

section Changes
variable {mem' mem'' : Paged w α} {p r : List (Fin w)} {t : Nat} {a : Fin w}

namespace ChangedThrough

theorem trans (first : ChangedThrough link mem mem' root depth r)
    (second : ChangedThrough link mem' mem'' root depth r) :
    ChangedThrough link mem mem'' root depth r := by
  intro q bound apart
  obtain ⟨walk,table⟩ := first q bound apart
  obtain ⟨walk',table'⟩ := second q bound apart
  exact ⟨walk'.trans walk,table'.trans table⟩

theorem of_write (h : Separate link mem root depth U) (at_p : tableAt link mem root p = some t)
    (short : p.length ≤ depth) (i : Fin w) (x : α) :
    ChangedThrough link mem (mem.write t i x) root depth (p ++ [i]) :=
  fun _ bound apart => h.write_elsewhere at_p short i x bound apart

theorem of_setPage (h : Separate link mem root depth U) {page : Nat} (unused : ¬ U page)
    (content : Fin w → α) (r : List (Fin w)) :
    ChangedThrough link mem (mem.setPage page content) root depth r :=
  fun _ bound _ => h.setPage_unused unused content bound

theorem below (h : ChangedThrough link mem mem' root depth (p ++ [a])) :
    ChangedBelow link mem mem' root depth p := by
  intro q bound apart
  apply h q bound
  intro longer
  obtain rfl := apart ((List.prefix_append p [a]).trans longer)
  exact snoc_not_initial q a longer

theorem sibling (h : ChangedThrough link mem mem' root depth (p ++ [a]))
    (at_p : tableAt link mem root p = some t) {b : Fin w} (other : b ≠ a) (rest : List (Fin w))
    (bound : p.length + rest.length ≤ depth) :
    trace link mem' t (b::rest) = trace link mem t (b::rest) := by
  obtain ⟨walk,table⟩ := h p (by omega) (snoc_not_initial p a)
  have same := (h (p ++ b::rest) (by simp; omega) (fun longer => by
    rw [List.prefix_append_right_inj] at longer
    simp at longer
    exact (other longer.symm).elim)).1
  rw [trace_append at_p,trace_append (table.trans at_p),walk] at same
  exact List.append_cancel_left same

end ChangedThrough

namespace ChangedBelow

theorem refl (mem : Paged w α) (root depth : Nat) (p : List (Fin w)) :
    ChangedBelow link mem mem root depth p := fun _ _ _ => ⟨rfl,rfl⟩

theorem trans (first : ChangedBelow link mem mem' root depth p)
    (second : ChangedBelow link mem' mem'' root depth p) :
    ChangedBelow link mem mem'' root depth p := by
  intro q bound apart
  obtain ⟨walk,table⟩ := first q bound apart
  obtain ⟨walk',table'⟩ := second q bound apart
  exact ⟨walk'.trans walk,table'.trans table⟩

theorem through (h : ChangedBelow link mem mem' root depth r) :
    ChangedThrough link mem mem' root depth r :=
  fun q bound apart => h q bound (fun longer => (apart longer).elim)

theorem table (h : ChangedBelow link mem mem' root depth p) (bound : p.length ≤ depth + 1)
    (at_p : tableAt link mem root p = some t) : tableAt link mem' root p = some t :=
  (h p bound (fun _ => rfl)).2.trans at_p

theorem slot (h : ChangedBelow link mem mem' root depth (p ++ [a])) (bound : p.length ≤ depth)
    (at_p : tableAt link mem root p = some t) : mem' t a = mem t a := by
  obtain ⟨walk,table⟩ := h.through p (by omega) (snoc_not_initial p a)
  have same := (h (p ++ [a]) (by simpa using bound) (fun _ => rfl)).1
  rw [trace_append at_p,trace_append (table.trans at_p),walk] at same
  simpa [trace] using congrArg List.head? (List.append_cancel_left same)

theorem of_setPage_last (h : Separate link mem root depth U) (at_p : tableAt link mem root p = some t)
    (last : p.length = depth) (content : Fin w → α) :
    ChangedBelow link mem (mem.setPage t content) root depth p := by
  intro q bound apart
  apply walks_agree
  intro r j s split u at_r
  by_cases same : u = t
  · subst u
    have size : r.length ≤ depth := by
      have := length_lt_of_split split
      omega
    obtain rfl := h.distinct p r t (by omega) size at_p at_r
    have := apart ⟨j::s,split⟩
    rw [← split] at this
    simp at this
  · rw [mem.setPage_ne content same]

theorem separate (h : ChangedBelow link mem mem' root depth p) (sep : Separate link mem root depth U)
    (last : p.length = depth) : Separate link mem' root depth U := by
  have same : ∀ q : List (Fin w), q.length ≤ depth →
      tableAt link mem' root q = tableAt link mem root q := fun q bound =>
    (h q (by omega) (fun longer => (longer.eq_of_length_le (by omega)).symm)).2
  constructor
  · intro q r u hq hr at_q at_r
    exact sep.distinct q r u hq hr ((same q hq).symm.trans at_q) ((same r hr).symm.trans at_r)
  · intro q u hq at_q
    exact sep.inside q u hq ((same q hq).symm.trans at_q)

end ChangedBelow

end Changes

end Radix

end HyperBox.Library
