import Mathlib.Data.List.Infix
import Mathlib.Data.List.Flatten

/-! The terminated lines of a list, each with its terminator. What follows the last
terminator is no line yet. -/
namespace HyperBox.Library

section Lines
variable {α : Type*} {stop : α}

def Short (stop : α) (limit : Nat) (text : List α) : Prop :=
  ∀ part, part <:+: text → stop ∉ part → part.length < limit

theorem Short.suffix {limit : Nat} {before after : List α} (short : Short stop limit (before ++ after)) :
    Short stop limit after := by
  intro part inside
  exact short part (inside.trans (List.suffix_append before after).isInfix)

theorem Short.whole {limit : Nat} {text rest : List α} (short : Short stop limit (text ++ rest))
    (free : stop ∉ text) : text.length < limit :=
  short text (List.prefix_append text rest).isInfix free

theorem Short.leave_out {limit : Nat} {before part rest : List α} (lost : stop ∉ part)
    (short : Short stop limit (before ++ (part ++ rest))) : Short stop limit (before ++ rest) := by
  intro piece inside free
  obtain ⟨left,right,whole⟩ := inside
  rcases List.append_eq_append_iff.mp whole with ⟨more,first,second⟩ | ⟨more,first,second⟩
  · apply short piece _ free
    exact ⟨left,more ++ (part ++ rest),by simp [first]⟩
  · rcases List.append_eq_append_iff.mp first with ⟨tail,head,across⟩ | ⟨tail,head,across⟩
    · have longer : (tail ++ part ++ more).length < limit := by
        apply short
        · exact ⟨left,right,by simp [head,second]⟩
        · simp_all
      rw [across]
      simp only [List.length_append] at longer ⊢
      omega
    · apply short piece _ free
      exact ⟨before ++ part ++ tail,right,by simp [second,across]⟩

variable [DecidableEq α]

def lines (stop : α) : List α → List (List α)
  | [] => []
  | a::rest => if a = stop then [a]::lines stop rest else (lines stop rest).modifyHead (a::·)

theorem lines_append {text : List α} (free : stop ∉ text) (rest : List α) :
    lines stop (text ++ rest) = (lines stop rest).modifyHead (text ++ ·) := by
  induction text with
  | nil => cases same : lines stop rest <;> simp [same]
  | cons a text ih =>
    have apart : a ≠ stop := by
      intro same
      simp [same] at free
    have tail : stop ∉ text := fun member => free (List.mem_cons_of_mem _ member)
    rw [List.cons_append,lines,if_neg apart,ih tail]
    cases lines stop rest <;> simp

theorem lines_cut {text : List α} (free : stop ∉ text) (rest : List α) :
    lines stop (text ++ stop::rest) = (text ++ [stop])::lines stop rest := by
  rw [lines_append free,lines,if_pos rfl]
  rfl

theorem lines_eq_nil {text : List α} : lines stop text = [] ↔ stop ∉ text := by
  constructor
  · intro none member
    obtain ⟨first,rest,rfl,free⟩ := List.eq_append_cons_of_mem member
    rw [lines_cut free] at none
    cases none
  · intro free
    have whole := lines_append free []
    simpa [lines] using whole

theorem lines_end {text line : List α} (member : line ∈ lines stop text) :
    ∃ before, stop ∉ before ∧ line = before ++ [stop] := by
  induction text generalizing line with
  | nil => cases member
  | cons a rest ih =>
    rw [lines] at member
    split at member
    case isTrue same =>
      rcases List.mem_cons.mp member with rfl | later
      · exact ⟨[],by simp,by simp [same]⟩
      · exact ih later
    case isFalse apart =>
      cases known : lines stop rest with
      | nil => simp [known] at member
      | cons first more =>
        rw [known,List.modifyHead,List.mem_cons] at member
        rcases member with rfl | later
        · obtain ⟨before,free,rfl⟩ := @ih first (by simp [known])
          exact ⟨a::before,by simp [Ne.symm apart,free],rfl⟩
        · exact ih (by simp [known,later])

theorem lines_length_drop {before part rest : List α} (free : stop ∉ before) (lost : stop ∉ part)
    (member : stop ∈ rest) : (lines stop (before ++ (part ++ rest))).flatten.length =
      (lines stop (before ++ rest)).flatten.length + part.length := by
  have some : lines stop rest ≠ [] := fun none => lines_eq_nil.mp none member
  obtain ⟨first,more,same⟩ := List.exists_cons_of_ne_nil some
  rw [lines_append free,lines_append lost,lines_append free,same]
  simp only [List.modifyHead,List.flatten_cons,List.length_append]
  omega

end Lines

section Closed
variable {α : Type*} {stop : α}

/-- Nothing follows the last terminator. -/
def Closed (stop : α) (text : List α) : Prop := ∀ part, part <:+ text → stop ∉ part → part = []

theorem closed_nil : Closed stop [] := fun _ suffix _ => List.suffix_nil.mp suffix

theorem closed_concat (text : List α) : Closed stop (text ++ [stop]) := by
  intro part suffix free
  rcases List.suffix_concat_iff.mp suffix with rfl | ⟨before,rfl,_⟩
  · rfl
  · simp at free

theorem Closed.suffix {text rest : List α} (closed : Closed stop text) (suffix : rest <:+ text) : Closed stop rest :=
  fun part inside => closed part (inside.trans suffix)

theorem Closed.append {first second : List α} (closed : Closed stop first) (closed' : Closed stop second) :
    Closed stop (first ++ second) := by
  intro part ⟨left,whole⟩ free
  rcases List.append_eq_append_iff.mp whole with ⟨above,before,rest⟩ | ⟨above,_,rest⟩
  · rw [rest,List.mem_append,not_or] at free
    rw [rest,closed above ⟨left,before.symm⟩ free.1,closed' second List.suffix_rfl free.2]
    rfl
  · exact closed' part ⟨above,rest.symm⟩ free

theorem Short.append_closed {limit : Nat} {first second : List α} (short : Short stop limit first)
    (closed : Closed stop first) (bound : second.length < limit) : Short stop limit (first ++ second) := by
  intro part ⟨left,right,whole⟩ free
  rcases List.append_eq_append_iff.mp whole with ⟨more,before,_⟩ | ⟨more,before,behind⟩
  · exact short part ⟨left,more,before.symm⟩ free
  · have reach := congrArg List.length behind
    rcases List.append_eq_append_iff.mp before with ⟨above,start,rest⟩ | ⟨above,_,rest⟩
    · rw [rest,List.mem_append,not_or] at free
      have none := closed above ⟨left,start.symm⟩ free.1
      simp only [rest,none,List.length_append,List.nil_append] at reach ⊢
      omega
    · simp only [rest,List.length_append] at reach
      omega

variable [DecidableEq α]

theorem Closed.lines_append {first : List α} (closed : Closed stop first) (second : List α) :
    lines stop (first ++ second) = lines stop first ++ lines stop second := by
  induction first with
  | nil => rfl
  | cons a rest ih =>
    have later := ih (closed.suffix (List.suffix_cons a rest))
    rw [List.cons_append,lines,lines,later]
    by_cases same : a = stop
    · simp [same]
    · rw [if_neg same,if_neg same]
      have some : lines stop rest ≠ [] := by
        intro none
        have free : stop ∉ a::rest := by
          rw [List.mem_cons,not_or]
          exact ⟨Ne.symm same,lines_eq_nil.mp none⟩
        exact List.cons_ne_nil _ _ (closed _ List.suffix_rfl free)
      obtain ⟨line,more,split⟩ := List.exists_cons_of_ne_nil some
      rw [split]
      rfl

end Closed

end HyperBox.Library
