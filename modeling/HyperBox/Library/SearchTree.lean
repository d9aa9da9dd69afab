import Mathlib.Data.List.Perm.Basic
import Mathlib.Data.List.Nodup
import Mathlib.Data.List.Pairwise
import Mathlib.Order.Lattice

/-! Binary search trees keyed by a function, with the rebalancing step left open.
A client only relies on the in-order sequence: rebalancing keeps it, erasing
removes one element from it. -/
namespace HyperBox.Library

inductive SearchTree (α : Type*) where
  | leaf
  | node (left : SearchTree α) (value : α) (right : SearchTree α)

namespace SearchTree
variable {α κ : Type*} [LinearOrder κ]

def toList : SearchTree α → List α
  | leaf => []
  | node left value right => left.toList ++ value :: right.toList

def search (key : α → κ) (k : κ) : SearchTree α → Option α
  | leaf => none
  | node left value right =>
    if k < key value then left.search key k
    else if key value < k then right.search key k
    else some value

/-- Hang `x` below the last node on its search path; `none` when its key is taken. -/
def link (key : α → κ) (x : α) : SearchTree α → Option (SearchTree α)
  | leaf => some (node leaf x leaf)
  | node left value right =>
    if key x < key value then (left.link key x).map (fun l => node l value right)
    else if key value < key x then (right.link key x).map (fun r => node left value r)
    else none

def Ordered (key : α → κ) (t : SearchTree α) : Prop :=
  t.toList.Pairwise (fun a b => key a < key b)

theorem ordered_node (key : α → κ) (left right : SearchTree α) (value : α) :
    (node left value right).Ordered key ↔ left.Ordered key ∧ right.Ordered key ∧
      (∀ a ∈ left.toList, key a < key value) ∧ (∀ b ∈ right.toList, key value < key b) ∧
      ∀ a ∈ left.toList, ∀ b ∈ right.toList, key a < key b := by
  simp only [Ordered,toList,List.pairwise_append,List.pairwise_cons,List.mem_cons,
    forall_eq_or_imp]
  constructor
  · rintro ⟨hl,⟨hv,hr⟩,cross⟩
    exact ⟨hl,hr,fun a ha => (cross a ha).1,hv,fun a ha => (cross a ha).2⟩
  · rintro ⟨hl,hr,below,above,cross⟩
    exact ⟨hl,⟨above,hr⟩,fun a ha => ⟨below a ha,cross a ha⟩⟩

theorem search_mem (key : α → κ) (k : κ) (t : SearchTree α) (x : α) (found : t.search key k = some x) :
    x ∈ t.toList ∧ key x = k := by
  induction t with
  | leaf => simp [search] at found
  | node left value right ihl ihr =>
    simp only [search] at found
    split_ifs at found with below above
    · exact ⟨by simp [toList,(ihl found).1],(ihl found).2⟩
    · exact ⟨by simp [toList,(ihr found).1],(ihr found).2⟩
    · obtain rfl := Option.some.inj found
      exact ⟨by simp [toList],le_antisymm (not_lt.mp below) (not_lt.mp above)⟩

theorem search_eq_some (key : α → κ) (t : SearchTree α) (ordered : t.Ordered key) (x : α)
    (member : x ∈ t.toList) : t.search key (key x) = some x := by
  induction t with
  | leaf => simp [toList] at member
  | node left value right ihl ihr =>
    obtain ⟨hl,hr,below,above,_⟩ := (ordered_node _ _ _ _).mp ordered
    simp only [toList,List.mem_append,List.mem_cons] at member
    rcases member with inLeft | rfl | inRight
    · simp [search,below x inLeft,ihl hl inLeft]
    · simp [search]
    · simp [search,not_lt_of_gt (above x inRight),above x inRight,ihr hr inRight]

theorem search_iff (key : α → κ) (t : SearchTree α) (ordered : t.Ordered key) (k : κ) (x : α) :
    t.search key k = some x ↔ x ∈ t.toList ∧ key x = k := by
  constructor
  · exact search_mem key k t x
  · rintro ⟨member,rfl⟩
    exact search_eq_some key t ordered x member

theorem search_eq_none (key : α → κ) (t : SearchTree α) (ordered : t.Ordered key) (k : κ) :
    t.search key k = none ↔ ∀ x ∈ t.toList, key x ≠ k := by
  constructor
  · intro missing x member equal
    rw [← equal,search_eq_some key t ordered x member] at missing
    cases missing
  · intro absent
    cases found : t.search key k with
    | none => rfl
    | some x =>
      obtain ⟨member,equal⟩ := search_mem key k t x found
      exact (absent x member equal).elim

theorem link_perm (key : α → κ) (x : α) (t t' : SearchTree α) (linked : t.link key x = some t') :
    t'.toList.Perm (x :: t.toList) := by
  induction t generalizing t' with
  | leaf =>
    obtain rfl := Option.some.inj linked
    simp [toList]
  | node left value right ihl ihr =>
    simp only [link] at linked
    split_ifs at linked with below above
    · obtain ⟨l,hl,rfl⟩ := Option.map_eq_some_iff.mp linked
      exact (ihl l hl).append_right _
    · obtain ⟨r,hr,rfl⟩ := Option.map_eq_some_iff.mp linked
      have inner : (value :: r.toList).Perm (value :: x :: right.toList) := (ihr r hr).cons value
      have swapped := inner.trans (List.Perm.swap x value right.toList)
      exact (swapped.append_left left.toList).trans List.perm_middle

theorem link_ordered (key : α → κ) (x : α) (t t' : SearchTree α) (ordered : t.Ordered key)
    (linked : t.link key x = some t') : t'.Ordered key := by
  induction t generalizing t' with
  | leaf =>
    obtain rfl := Option.some.inj linked
    simp [Ordered,toList]
  | node left value right ihl ihr =>
    obtain ⟨hl,hr,below,above,cross⟩ := (ordered_node _ _ _ _).mp ordered
    simp only [link] at linked
    split_ifs at linked with small large
    · obtain ⟨l,grown,rfl⟩ := Option.map_eq_some_iff.mp linked
      have mem : ∀ a, a ∈ l.toList ↔ a = x ∨ a ∈ left.toList := fun a => by
        simpa using (link_perm key x left l grown).mem_iff (a := a)
      refine (ordered_node _ _ _ _).mpr ⟨ihl l hl grown,hr,?_,above,?_⟩
      · intro a inside
        rcases (mem a).mp inside with rfl | old
        · exact small
        · exact below a old
      · intro a inside b right
        rcases (mem a).mp inside with rfl | old
        · exact small.trans (above b right)
        · exact cross a old b right
    · obtain ⟨r,grown,rfl⟩ := Option.map_eq_some_iff.mp linked
      have mem : ∀ b, b ∈ r.toList ↔ b = x ∨ b ∈ right.toList := fun b => by
        simpa using (link_perm key x right r grown).mem_iff (a := b)
      refine (ordered_node _ _ _ _).mpr ⟨hl,ihr r hr grown,below,?_,?_⟩
      · intro b inside
        rcases (mem b).mp inside with rfl | old
        · exact large
        · exact above b old
      · intro a left b inside
        rcases (mem b).mp inside with rfl | old
        · exact (below a left).trans large
        · exact cross a left b old

theorem link_eq_none (key : α → κ) (x : α) (t : SearchTree α) :
    t.link key x = none ↔ (t.search key (key x)).isSome := by
  induction t with
  | leaf => simp [link,search]
  | node left value right ihl ihr =>
    simp only [link,search]
    split_ifs <;> simp [ihl,ihr]

theorem ordered_congr {key key' : α → κ} {t : SearchTree α} (same : ∀ x ∈ t.toList, key' x = key x) :
    t.Ordered key' ↔ t.Ordered key := by
  unfold Ordered
  constructor <;> intro pairs <;> refine pairs.imp_of_mem ?_
  · intro a b ha hb less
    rwa [same a ha,same b hb] at less
  · intro a b ha hb less
    rwa [same a ha,same b hb]

theorem ordered_nodup {key : α → κ} {t : SearchTree α} (ordered : t.Ordered key) : t.toList.Nodup :=
  ordered.imp (fun less same => (ne_of_lt less) (congrArg key same))

section Walk
variable [DecidableEq α]

def first (t : SearchTree α) : Option α := t.toList.head?

def next (t : SearchTree α) (x : α) : Option α := (t.toList.dropWhile (fun y => y ≠ x)).tail.head?

theorem next_eq {t : SearchTree α} {before after : List α} {x : α} (list : t.toList = before ++ x :: after)
    (nodup : t.toList.Nodup) : t.next x = after.head? := by
  have apart : ∀ y ∈ before, y ≠ x := by
    rw [list,List.nodup_append] at nodup
    exact fun y member => nodup.2.2 y member x List.mem_cons_self
  have skipped : (before ++ x :: after).dropWhile (fun y => y ≠ x) = x :: after := by
    rw [List.dropWhile_append_of_pos (by simpa using apart),List.dropWhile_cons_of_neg (by simp)]
  rw [next,list,skipped,List.tail_cons]

end Walk

end SearchTree

/-- Rebalancing after an insertion and erasing a linked element, known only by
their effect on the in-order sequence. -/
structure Balancing (α : Type*) [DecidableEq α] where
  insertColor : SearchTree α → SearchTree α
  insertColor_toList : ∀ t, (insertColor t).toList = t.toList
  erase : α → SearchTree α → SearchTree α
  erase_toList : ∀ x t, (erase x t).toList = t.toList.erase x

def SearchTree.ofList {α : Type*} : List α → SearchTree α
  | [] => .leaf
  | x::rest => .node .leaf x (ofList rest)

@[simp] theorem SearchTree.ofList_toList {α : Type*} (xs : List α) : (SearchTree.ofList xs).toList = xs := by
  induction xs with
  | nil => rfl
  | cons x rest ih => simp [SearchTree.ofList,SearchTree.toList,ih]

def Balancing.plain (α : Type*) [DecidableEq α] : Balancing α where
  insertColor t := t
  insertColor_toList _ := rfl
  erase x t := SearchTree.ofList (t.toList.erase x)
  erase_toList _ _ := SearchTree.ofList_toList _

end HyperBox.Library
