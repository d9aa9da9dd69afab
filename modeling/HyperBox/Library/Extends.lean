import Mathlib.Data.List.Basic

/-! Logs that only grow. `Extends Q` relates a log to a later one when everything between them
satisfies `Q`; the rules follow the way the log is written. -/
namespace HyperBox.Library

def Extends {α : Type*} (Q : α → Prop) (xs ys : List α) : Prop := ∃ more, ys = xs ++ more ∧ ∀ x ∈ more, Q x

namespace Extends
variable {α σ β : Type*} {P Q : α → Prop} {xs ys zs : List α} {x : α}

theorem refl (xs : List α) : Extends Q xs xs := ⟨[],by simp,nofun⟩

theorem trans (first : Extends Q xs ys) (second : Extends Q ys zs) : Extends Q xs zs := by
  obtain ⟨more,rfl,all⟩ := first
  obtain ⟨rest,rfl,others⟩ := second
  refine ⟨more ++ rest,List.append_assoc _ _ _,fun x member => ?_⟩
  rcases List.mem_append.mp member with early | late
  · exact all x early
  · exact others x late

theorem snoc (holds : Q x) : Extends Q xs (xs ++ [x]) :=
  ⟨[x],rfl,fun _ member => List.mem_singleton.mp member ▸ holds⟩

theorem mono (h : Extends P xs ys) (weaker : ∀ x, P x → Q x) : Extends Q xs ys := by
  obtain ⟨more,rfl,all⟩ := h
  exact ⟨more,rfl,fun x member => weaker x (all x member)⟩

theorem keeps (h : Extends Q xs ys) (member : x ∈ xs) : x ∈ ys := by
  obtain ⟨more,rfl,_⟩ := h
  exact List.mem_append_left more member

theorem split (h : Extends Q xs ys) (member : x ∈ ys) : x ∈ xs ∨ Q x := by
  obtain ⟨more,rfl,all⟩ := h
  exact (List.mem_append.mp member).imp_right (all x)

theorem foldl (log : σ → List α) (f : σ → β → σ) (items : List β)
    (round : ∀ s item, item ∈ items → Extends Q (log s) (log (f s item))) (s : σ) :
    Extends Q (log s) (log (items.foldl f s)) := by
  induction items generalizing s with
  | nil => exact refl _
  | cons item items ih =>
    have first := round s item List.mem_cons_self
    exact first.trans (ih (fun s other member => round s other (List.mem_cons_of_mem item member)) (f s item))

end Extends
end HyperBox.Library
