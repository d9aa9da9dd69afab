import HyperBox.Library.Run
import Mathlib.Algebra.BigOperators.Group.Finset.Basic
import Mathlib.Algebra.Order.BigOperators.Group.Finset
import Mathlib.Data.Fintype.Basic
import Mathlib.Data.List.Induction
import Mathlib.Data.List.Nodup
import Mathlib.Logic.Function.Basic

/-! Locks that are taken in an order. Parties run lists of actions on locks; a party that waits
for a lock spins. There is a stock that they take from, and a party that finds it empty falls into
a loop. If every party only waits for locks above those it holds, some party can always go on, and
all of them can come to their end with no lock held exactly if nobody finds the stock empty. -/
namespace HyperBox.Library

/-- `attempt` takes a lock if it is free and leaves out some of the actions otherwise. `take` takes
one of the stock, or goes the other way if there is none; `again` is a loop without an end. -/
inductive LockAction (κ : Type*) where
  | work
  | acquire (k : κ)
  | attempt (k : κ) (skip : Nat)
  | release (k : κ)
  | take (otherwise : List (LockAction κ))
  | again (body : List (LockAction κ))

structure LockState (ι κ : Type*) where
  owner : κ → Option ι
  rest : ι → List (LockAction κ)
  stock : Nat

section Locks
variable {ι κ : Type*} [DecidableEq ι] [DecidableEq κ]

namespace LockState

def goOn (s : LockState ι κ) (party : ι) (rest : List (LockAction κ)) : LockState ι κ :=
  { s with rest := Function.update s.rest party rest }

def give (s : LockState ι κ) (k : κ) (owner : Option ι) : LockState ι κ :=
  { s with owner := Function.update s.owner k owner }

def move (s : LockState ι κ) (party : ι) : LockState ι κ :=
  match s.rest party with
  | [] => s
  | .work::rest => s.goOn party rest
  | .acquire k::rest =>
    match s.owner k with
    | none => (s.give k (some party)).goOn party rest
    | some _ => s
  | .attempt k skip::rest =>
    match s.owner k with
    | none => (s.give k (some party)).goOn party rest
    | some _ => s.goOn party (rest.drop skip)
  | .release k::rest => (s.give k none).goOn party rest
  | .take otherwise::rest =>
    match s.stock with
    | 0 => s.goOn party otherwise
    | stock+1 => { s with stock := stock }.goOn party rest
  | .again body::rest => s.goOn party (body ++ .again body::rest)

def start (stock : Nat) (programs : ι → List (LockAction κ)) : LockState ι κ := ⟨fun _ => none,programs,stock⟩

def FindsEmpty (s : LockState ι κ) (party : ι) : Prop :=
  s.stock = 0 ∧ ∃ otherwise rest, s.rest party = .take otherwise::rest

end LockState

/-- What a step of a party can be, with what it needs. -/
inductive Moves (s : LockState ι κ) (party : ι) : LockState ι κ → Prop where
  | ends : s.rest party = [] → Moves s party s
  | works {rest : List (LockAction κ)} : s.rest party = .work::rest → Moves s party (s.goOn party rest)
  | acquires {k : κ} {rest : List (LockAction κ)} : s.rest party = .acquire k::rest → s.owner k = none →
      Moves s party ((s.give k (some party)).goOn party rest)
  | waits {k : κ} {rest : List (LockAction κ)} {owner : ι} : s.rest party = .acquire k::rest → s.owner k = some owner →
      Moves s party s
  | attempts {k : κ} {skip : Nat} {rest : List (LockAction κ)} : s.rest party = .attempt k skip::rest →
      s.owner k = none → Moves s party ((s.give k (some party)).goOn party rest)
  | skips {k : κ} {skip : Nat} {rest : List (LockAction κ)} : s.rest party = .attempt k skip::rest →
      Moves s party (s.goOn party (rest.drop skip))
  | releases {k : κ} {rest : List (LockAction κ)} : s.rest party = .release k::rest →
      Moves s party ((s.give k none).goOn party rest)
  | takes {otherwise rest : List (LockAction κ)} {left : Nat} : s.rest party = .take otherwise::rest →
      s.stock = left+1 → Moves s party ({ s with stock := left }.goOn party rest)
  | lacks {otherwise rest : List (LockAction κ)} : s.rest party = .take otherwise::rest → s.stock = 0 →
      Moves s party (s.goOn party otherwise)
  | loops {body rest : List (LockAction κ)} : s.rest party = .again body::rest →
      Moves s party (s.goOn party (body ++ .again body::rest))

theorem move_moves (s : LockState ι κ) (party : ι) : Moves s party (s.move party) := by
  unfold LockState.move
  split
  next ended => exact .ends ended
  next actions => exact .works actions
  next actions =>
    split
    next free => exact .acquires actions free
    next taken => exact .waits actions taken
  next actions =>
    split
    next free => exact .attempts actions free
    next => exact .skips actions
  next actions => exact .releases actions
  next actions =>
    split
    next empty => exact .lacks actions empty
    next left => exact .takes actions left
  next actions => exact .loops actions

/-- Plain steps of a party that keep a lock. -/
def LockAction.Keeps (k : κ) : LockAction κ → Prop
  | .work => True
  | .acquire _ => True
  | .release k' => k' ≠ k
  | _ => False

/-- Actions that end in a loop and keep a lock all the time. -/
inductive Endless (k : κ) : List (LockAction κ) → Prop where
  | before {action : LockAction κ} {rest : List (LockAction κ)} : action.Keeps k → Endless k rest →
      Endless k (action::rest)
  | again {body rest : List (LockAction κ)} : (∀ action ∈ body, action.Keeps k) → Endless k (.again body::rest)

/-- Plain steps of a party that lead from what it holds to other locks. -/
inductive Straight (rank : κ → Nat) : List κ → List (LockAction κ) → List κ → Prop where
  | done {held : List κ} : Straight rank held [] held
  | work {held after : List κ} {rest : List (LockAction κ)} : Straight rank held rest after →
      Straight rank held (.work::rest) after
  | acquire {held after : List κ} {k : κ} {rest : List (LockAction κ)} : (∀ h ∈ held, rank h < rank k) →
      Straight rank (k::held) rest after → Straight rank held (.acquire k::rest) after
  | release {held after : List κ} {k : κ} {rest : List (LockAction κ)} : k ∈ held →
      Straight rank (held.erase k) rest after → Straight rank held (.release k::rest) after

/-- Actions of a party that holds some locks: it only waits for locks of a higher rank, gives back
only what it holds, and everything in the end. From the stock it takes under a lock that guards it;
the way without end keeps this lock. -/
inductive Ordered (rank : κ → Nat) (guard : κ) : List κ → List (LockAction κ) → Prop where
  | done {held : List κ} : held = [] → Ordered rank guard held []
  | work {held : List κ} {rest : List (LockAction κ)} : Ordered rank guard held rest → Ordered rank guard held (.work::rest)
  | acquire {held : List κ} {k : κ} {rest : List (LockAction κ)} : (∀ h ∈ held, rank h < rank k) →
      Ordered rank guard (k::held) rest → Ordered rank guard held (.acquire k::rest)
  | attempt {held : List κ} {k : κ} {skip : Nat} {rest : List (LockAction κ)} : k ∉ held → skip ≤ rest.length →
      Ordered rank guard (k::held) rest → Ordered rank guard held (rest.drop skip) → Ordered rank guard held (.attempt k skip::rest)
  | release {held : List κ} {k : κ} {rest : List (LockAction κ)} : k ∈ held →
      Ordered rank guard (held.erase k) rest → Ordered rank guard held (.release k::rest)
  | take {held : List κ} {otherwise rest : List (LockAction κ)} : guard ∈ held → Endless guard otherwise →
      Ordered rank guard held otherwise → Ordered rank guard held rest → Ordered rank guard held (.take otherwise::rest)
  | again {held : List κ} {body rest : List (LockAction κ)} : Straight rank held body held →
      Ordered rank guard held (.again body::rest)

variable {rank : κ → Nat} {guard : κ}

/-- Actions that can stand before any others and leave what is held as it is; they do not loop. -/
structure Neutral (rank : κ → Nat) (guard : κ) (held : List κ) (actions : List (LockAction κ)) : Prop where
  before : ∀ rest, Ordered rank guard held rest → Ordered rank guard held (actions ++ rest)
  straight : ∀ body, .again body ∉ actions

section Neutral
variable {held : List κ} {k : κ} {body first second : List (LockAction κ)}

theorem Neutral.nil : Neutral rank guard held [] := ⟨fun _ ordered => ordered,by simp⟩

theorem Neutral.work : Neutral rank guard held [.work] := ⟨fun _ ordered => ordered.work,by simp⟩

theorem Neutral.append (neutral : Neutral rank guard held first) (neutral' : Neutral rank guard held second) :
    Neutral rank guard held (first ++ second) := by
  refine ⟨fun rest ordered => ?_,fun body => by simp [neutral.straight body,neutral'.straight body]⟩
  rw [List.append_assoc]
  exact neutral.before _ (neutral'.before _ ordered)

theorem Neutral.flatMap {α : Type*} {items : List α} {f : α → List (LockAction κ)}
    (neutral : ∀ item ∈ items, Neutral rank guard held (f item)) : Neutral rank guard held (items.flatMap f) := by
  induction items with
  | nil => exact .nil
  | cons item items ih =>
    rw [List.flatMap_cons]
    exact (neutral item (by simp)).append (ih fun other member => neutral other (by simp [member]))

theorem Neutral.critical (above : ∀ h ∈ held, rank h < rank k) (neutral : Neutral rank guard (k::held) body) :
    Neutral rank guard held (.acquire k::(body ++ [.release k])) := by
  refine ⟨fun rest ordered => ?_,fun other => by simp [neutral.straight other]⟩
  rw [List.cons_append,List.append_assoc]
  refine .acquire above (neutral.before _ (.release (List.mem_cons_self ..) ?_))
  rwa [List.erase_cons_head]

theorem Neutral.attempt (free : k ∉ held) (neutral : Neutral rank guard (k::held) body) :
    Neutral rank guard held (.attempt k (body.length + 1)::(body ++ [.release k])) := by
  refine ⟨fun rest ordered => ?_,fun other => by simp [neutral.straight other]⟩
  rw [List.cons_append]
  refine .attempt free (by simp) ?_ ?_
  · rw [List.append_assoc]
    refine neutral.before _ (.release (List.mem_cons_self ..) ?_)
    rwa [List.erase_cons_head]
  · have whole : (body ++ [LockAction.release k] ++ rest).drop (body.length + 1) = rest := List.drop_left' (by simp)
    rwa [whole]

theorem Straight.ordered {after : List κ} (straight : Straight rank held body after) {rest : List (LockAction κ)}
    (ordered : Ordered rank guard after rest) : Ordered rank guard held (body ++ rest) := by
  induction straight with
  | done => exact ordered
  | work _ ih => exact .work (ih ordered)
  | acquire above _ ih => exact .acquire above (ih ordered)
  | release mine _ ih => exact .release mine (ih ordered)

/-- A critical section around the stock; a party that finds it empty goes the other way. -/
theorem Neutral.taking (above : ∀ h ∈ held, rank h < rank k) (guarded : guard ∈ held) (other : guard ≠ k)
    {otherwise : List (LockAction κ)} (endless : Endless guard otherwise) (ordered : Ordered rank guard held otherwise) :
    Neutral rank guard held [.acquire k,.take (.release k::otherwise),.release k] := by
  have back : ∀ {actions : List (LockAction κ)}, Ordered rank guard held actions →
      Ordered rank guard (k::held) (.release k::actions) := by
    intro actions later
    refine .release (List.mem_cons_self ..) ?_
    rwa [List.erase_cons_head]
  refine ⟨fun rest later => ?_,by simp⟩
  exact .acquire above (.take (List.mem_cons_of_mem _ guarded) (.before other.symm endless) (back ordered) (back later))

theorem Neutral.ordered (neutral : Neutral rank guard [] body) : Ordered rank guard [] body := by
  have whole := neutral.before [] (.done rfl)
  rwa [List.append_nil] at whole

end Neutral

/-- Who holds what, and that every party keeps to the order from here on. -/
structure Held (rank : κ → Nat) (guard : κ) (s : LockState ι κ) (held : ι → List κ) : Prop where
  ordered : ∀ party, Ordered rank guard (held party) (s.rest party)
  owned : ∀ k party, s.owner k = some party ↔ k ∈ held party
  nodup : ∀ party, (held party).Nodup

omit [DecidableEq ι] in
theorem Held.start {programs : ι → List (LockAction κ)} {stock : Nat}
    (ordered : ∀ party, Ordered rank guard [] (programs party)) :
    Held rank guard (.start stock programs) fun _ => [] :=
  ⟨ordered,fun _ _ => by simp [LockState.start],fun _ => List.nodup_nil⟩

variable {s : LockState ι κ} {held : ι → List κ} {party : ι}

/-- A party goes on without a lock changing hands. -/
theorem Held.goOn (inv : Held rank guard s held) {rest : List (LockAction κ)} (ordered : Ordered rank guard (held party) rest) :
    Held rank guard (s.goOn party rest) held := by
  refine ⟨?_,inv.owned,inv.nodup⟩
  intro other
  by_cases same : other = party
  · subst same
    simpa [LockState.goOn] using ordered
  · simpa [LockState.goOn,same] using inv.ordered other

theorem Held.take (inv : Held rank guard s held) {k : κ} {rest : List (LockAction κ)} (free : s.owner k = none)
    (ordered : Ordered rank guard (k::held party) rest) :
    Held rank guard ((s.give k (some party)).goOn party rest) (Function.update held party (k::held party)) := by
  have nobody : ∀ other, k ∉ held other := by
    intro other member
    rw [← inv.owned,free] at member
    cases member
  refine ⟨?_,?_,?_⟩
  · intro other
    by_cases same : other = party
    · subst same
      simpa [LockState.goOn,LockState.give] using ordered
    · simpa [LockState.goOn,LockState.give,same] using inv.ordered other
  · intro lock other
    by_cases here : lock = k
    · subst here
      by_cases same : other = party
      · simp [LockState.goOn,LockState.give,same]
      · simp [LockState.goOn,LockState.give,same,Ne.symm same,nobody other]
    · by_cases same : other = party
      · subst same
        simp [LockState.goOn,LockState.give,here,inv.owned]
      · simp [LockState.goOn,LockState.give,here,same,inv.owned]
  · intro other
    by_cases same : other = party
    · subst same
      simpa using ⟨nobody other,inv.nodup other⟩
    · simpa [same] using inv.nodup other

theorem Held.drop (inv : Held rank guard s held) {k : κ} {rest : List (LockAction κ)} (mine : k ∈ held party)
    (ordered : Ordered rank guard ((held party).erase k) rest) :
    Held rank guard ((s.give k none).goOn party rest) (Function.update held party ((held party).erase k)) := by
  have owner : s.owner k = some party := (inv.owned k party).mpr mine
  refine ⟨?_,?_,?_⟩
  · intro other
    by_cases same : other = party
    · subst same
      simpa [LockState.goOn,LockState.give] using ordered
    · simpa [LockState.goOn,LockState.give,same] using inv.ordered other
  · intro lock other
    by_cases here : lock = k
    · subst here
      by_cases same : other = party
      · subst same
        simp [LockState.goOn,LockState.give,(inv.nodup other).not_mem_erase]
      · have apart : lock ∉ held other := by
          intro member
          rw [← inv.owned,owner] at member
          exact same (Option.some.inj member).symm
        simp [LockState.goOn,LockState.give,same,apart]
    · by_cases same : other = party
      · subst same
        simp [LockState.goOn,LockState.give,here,inv.owned,List.mem_erase_of_ne here]
      · simp [LockState.goOn,LockState.give,here,same,inv.owned]
  · intro other
    by_cases same : other = party
    · subst same
      simpa using (inv.nodup other).erase k
    · simpa [same] using inv.nodup other

omit [DecidableEq ι] in
theorem Held.restock (inv : Held rank guard s held) (stock : Nat) : Held rank guard { s with stock := stock } held :=
  ⟨inv.ordered,inv.owned,inv.nodup⟩

theorem Held.move (inv : Held rank guard s held) (party : ι) : ∃ held', Held rank guard (s.move party) held' := by
  have ordered := inv.ordered party
  have moves := move_moves s party
  generalize s.move party = s' at moves ⊢
  cases moves with
  | ends _ => exact ⟨held,inv⟩
  | waits _ _ => exact ⟨held,inv⟩
  | works actions =>
    rw [actions] at ordered
    cases ordered with
    | work later => exact ⟨held,inv.goOn later⟩
  | acquires actions free =>
    rw [actions] at ordered
    cases ordered with
    | acquire _ later => exact ⟨_,inv.take free later⟩
  | attempts actions free =>
    rw [actions] at ordered
    cases ordered with
    | attempt _ _ later _ => exact ⟨_,inv.take free later⟩
  | skips actions =>
    rw [actions] at ordered
    cases ordered with
    | attempt _ _ _ without => exact ⟨held,inv.goOn without⟩
  | releases actions =>
    rw [actions] at ordered
    cases ordered with
    | release mine later => exact ⟨_,inv.drop mine later⟩
  | takes actions _ =>
    rw [actions] at ordered
    cases ordered with
    | take _ _ _ later => exact ⟨held,(inv.restock _).goOn later⟩
  | lacks actions _ =>
    rw [actions] at ordered
    cases ordered with
    | take _ _ without _ => exact ⟨held,inv.goOn without⟩
  | loops actions =>
    rw [actions] at ordered
    cases ordered with
    | again straight => exact ⟨held,inv.goOn (straight.ordered (.again straight))⟩

theorem held_run {programs : ι → List (LockAction κ)} {stock : Nat}
    (ordered : ∀ party, Ordered rank guard [] (programs party)) (schedule : List ι) :
    ∃ held, Held rank guard (run LockState.move (.start stock programs) schedule) held := by
  induction schedule using List.reverseRecOn with
  | nil => exact ⟨_,.start ordered⟩
  | append_singleton schedule party ih =>
    obtain ⟨held,inv⟩ := ih
    rw [run_append]
    exact inv.move party

section Stock

/-- How many of the stock some actions take on their way to the end. -/
def demand : List (LockAction κ) → Nat
  | [] => 0
  | .take _::rest => demand rest + 1
  | _::rest => demand rest

omit [DecidableEq κ] in
theorem demand_cons (action : LockAction κ) (rest : List (LockAction κ)) :
    demand (action::rest) = demand [action] + demand rest := by
  cases action <;> simp [demand,Nat.add_comm]

omit [DecidableEq κ] in
theorem demand_drop (skip : Nat) (actions : List (LockAction κ)) : demand (actions.drop skip) ≤ demand actions := by
  induction actions generalizing skip with
  | nil => simp
  | cons action rest ih =>
    cases skip with
    | zero => simp
    | succ skip =>
      rw [List.drop_succ_cons,demand_cons]
      exact (ih skip).trans (Nat.le_add_left _ _)

/-- Nobody is in a loop, and nobody will ever find the stock empty. -/
structure Supplied (s : LockState ι κ) : Prop where
  straight : ∀ party body, .again body ∉ s.rest party
  found : ∀ more party, ¬ (run LockState.move s more).FindsEmpty party

/-- A step of a party that finds what it needs leaves out the head of its actions and perhaps more,
or the party stays where it is. -/
theorem move_shortens (straight : ∀ body, .again body ∉ s.rest party) (found : ¬ s.FindsEmpty party) :
    s.move party = s ∧ (s.rest party = [] ∨ ∃ k rest owner, s.rest party = .acquire k::rest ∧ s.owner k = some owner) ∨
    ∃ action rest skip, s.rest party = action::rest ∧
      (s.move party).rest = Function.update s.rest party (rest.drop skip) ∧
      s.stock = (s.move party).stock + demand [action] := by
  have moves := move_moves s party
  generalize s.move party = s' at moves ⊢
  cases moves with
  | ends ended => exact .inl ⟨rfl,.inl ended⟩
  | waits actions taken => exact .inl ⟨rfl,.inr ⟨_,_,_,actions,taken⟩⟩
  | works actions => exact .inr ⟨_,_,0,actions,rfl,rfl⟩
  | acquires actions _ => exact .inr ⟨_,_,0,actions,rfl,rfl⟩
  | attempts actions _ => exact .inr ⟨_,_,0,actions,rfl,rfl⟩
  | skips actions => exact .inr ⟨_,_,_,actions,rfl,rfl⟩
  | releases actions => exact .inr ⟨_,_,0,actions,rfl,rfl⟩
  | takes actions left => exact .inr ⟨_,_,0,actions,rfl,left⟩
  | lacks actions empty => exact absurd ⟨empty,_,_,actions⟩ found
  | loops actions => exact absurd (actions ▸ List.mem_cons_self) (straight _)

theorem Supplied.move (supplied : Supplied s) (party : ι) : Supplied (s.move party) := by
  refine ⟨fun other body inside => ?_,fun more other => supplied.found (party::more) other⟩
  rcases move_shortens (supplied.straight party) (supplied.found [] party) with ⟨same,_⟩ | ⟨action,rest,skip,actions,shorter,_⟩
  · rw [same] at inside
    exact supplied.straight other body inside
  · rw [shorter,Function.update_apply] at inside
    split at inside
    next here =>
      refine supplied.straight party body ?_
      rw [actions]
      exact List.mem_cons_of_mem _ (List.mem_of_mem_drop inside)
    next => exact supplied.straight other body inside

/-- What is left of the actions of a party gets shorter with each of its steps. -/
theorem Supplied.lowers [Fintype ι] (supplied : Supplied s) (party : ι) : s.move party = s ∨
    ∑ other, ((s.move party).rest other).length < ∑ other, (s.rest other).length := by
  rcases move_shortens (supplied.straight party) (supplied.found [] party) with ⟨same,_⟩ | ⟨action,rest,skip,actions,shorter,_⟩
  · exact .inl same
  · have less : (rest.drop skip).length < (s.rest party).length := by
      rw [actions,List.length_drop,List.length_cons]
      omega
    rw [shorter]
    refine .inr (Finset.sum_lt_sum ?_ ⟨party,Finset.mem_univ _,by simpa using less⟩)
    intro other _
    by_cases here : other = party
    · subst here
      simpa using less.le
    · simp [here]

/-- A party that a step leaves where it is has come to its end or waits. -/
theorem Supplied.rests_or_waits (supplied : Supplied s) (still : s.move party = s) : s.rest party = [] ∨
    ∃ k rest owner, s.rest party = .acquire k::rest ∧ s.owner k = some owner := by
  rcases move_shortens (supplied.straight party) (supplied.found [] party) with ⟨_,stands⟩ | ⟨action,rest,skip,actions,shorter,_⟩
  · exact stands
  · have same := congrFun shorter party
    rw [still,Function.update_self,actions] at same
    have lengths := congrArg List.length same
    rw [List.length_cons,List.length_drop] at lengths
    omega

theorem nobody_waits {top : Nat} (bounded : ∀ k, rank k ≤ top) (inv : Held rank guard s held) (supplied : Supplied s)
    (still : ∀ party, s.move party = s) {k : κ} {owner : ι} {rest : List (LockAction κ)}
    (waits : s.rest party = .acquire k::rest) (owned : s.owner k = some owner) : False := by
  -- The owner waits too, for a lock of a higher rank, and there is a highest one.
  induction below : top - rank k using Nat.strongRecOn generalizing k party owner rest with
  | ind n ih =>
    have mine : k ∈ held owner := (inv.owned k owner).mp owned
    have ordered := inv.ordered owner
    rcases supplied.rests_or_waits (still owner) with done | ⟨k',rest',owner',waits',owned'⟩
    · rw [done] at ordered
      cases ordered with
      | done nothing =>
        rw [nothing] at mine
        cases mine
    · rw [waits'] at ordered
      cases ordered with
      | acquire above later =>
        have higher : rank k < rank k' := above k mine
        have limit := bounded k'
        exact ih _ (by omega) waits' owned' rfl

/-- As long as some party has not come to its end, some party can take a step. -/
theorem never_stuck {top : Nat} (bounded : ∀ k, rank k ≤ top) (inv : Held rank guard s held) (supplied : Supplied s)
    (unfinished : s.rest party ≠ []) : ∃ other, s.move other ≠ s := by
  by_contra stuck
  push Not at stuck
  rcases supplied.rests_or_waits (stuck party) with done | ⟨k,rest,owner,waits,owned⟩
  · exact unfinished done
  · exact nobody_waits bounded inv supplied stuck waits owned

/-- All parties can come to their end, and then no lock is held. -/
def Finishes (s : LockState ι κ) : Prop :=
  ∃ more, ∀ party, (run LockState.move s more).rest party = [] ∧ ∀ k, (run LockState.move s more).owner k = none

theorem Supplied.finishes [Fintype ι] {top : Nat} (bounded : ∀ k, rank k ≤ top) (inv : Held rank guard s held)
    (supplied : Supplied s) : Finishes s := by
  obtain ⟨more,_,⟨⟨held',inv'⟩,supplied'⟩,still⟩ := @reaches_rest _ _ LockState.move (fun _ : ι => True)
    (fun s => (∃ held, Held rank guard s held) ∧ Supplied s) (fun s => ∑ other, (s.rest other).length)
    (fun s party _ holds => ⟨holds.1.elim fun _ inv => inv.move party,holds.2.move party⟩)
    (fun s party _ holds => holds.2.lowers party) s ⟨⟨held,inv⟩,supplied⟩
  have done : ∀ party, (run LockState.move s more).rest party = [] := by
    intro party
    by_contra unfinished
    obtain ⟨other,moves⟩ := never_stuck bounded inv' supplied' unfinished
    exact moves (still other trivial)
  refine ⟨more,fun party => ⟨done party,fun k => ?_⟩⟩
  cases owned : (run LockState.move s more).owner k with
  | none => rfl
  | some owner =>
    have mine : k ∈ held' owner := (inv'.owned k owner).mp owned
    have ended := inv'.ordered owner
    rw [done owner] at ended
    cases ended with
    | done nothing =>
      rw [nothing] at mine
      cases mine

/-- A party keeps the lock of the stock for ever: it has found the stock empty, or is about to. -/
structure Trapped (guard : κ) (s : LockState ι κ) (party : ι) : Prop where
  owner : s.owner guard = some party
  endless : Endless guard (s.rest party) ∨
    s.stock = 0 ∧ ∃ otherwise rest, s.rest party = .take otherwise::rest ∧ Endless guard otherwise

omit [DecidableEq ι] in
theorem Held.trapped (inv : Held rank guard s held) (found : s.FindsEmpty party) : Trapped guard s party := by
  obtain ⟨stock,otherwise,rest,actions⟩ := found
  have ordered := inv.ordered party
  rw [actions] at ordered
  cases ordered with
  | take guarded endless without later =>
    exact ⟨(inv.owned guard party).mpr guarded,.inr ⟨stock,otherwise,rest,actions,endless⟩⟩

omit [DecidableEq ι] [DecidableEq κ] in
theorem Trapped.unfinished (trapped : Trapped guard s party) : s.rest party ≠ [] := by
  intro ended
  rcases trapped.endless with endless | ⟨_,otherwise,rest,actions,_⟩
  · rw [ended] at endless
    cases endless
  · rw [ended] at actions
    cases actions

/-- The other parties do not touch the lock. -/
theorem Trapped.beside (inv : Held rank guard s held) (trapped : Trapped guard s party) {other : ι} (apart : other ≠ party) :
    Trapped guard (s.move other) party := by
  obtain ⟨owner,endless⟩ := trapped
  have untaken : guard ∉ held other := by
    intro mine
    rw [← inv.owned,owner] at mine
    exact apart (Option.some.inj mine).symm
  have goes : ∀ (owners : κ → Option ι) (later : List (LockAction κ)) (stock : Nat), owners guard = some party →
      (s.stock = 0 → stock = 0) → Trapped guard ⟨owners,Function.update s.rest other later,stock⟩ party := by
    intro owners later stock owned empty
    refine ⟨owned,?_⟩
    simp only [Function.update_of_ne apart.symm]
    exact endless.imp_right fun found => ⟨empty found.1,found.2⟩
  have gives : ∀ {k : κ} (taker : Option ι), k ≠ guard → Function.update s.owner k taker guard = some party := by
    intro k taker differ
    rwa [Function.update_of_ne differ.symm]
  have unowned : ∀ {k : κ}, s.owner k = none → k ≠ guard := by
    rintro k free rfl
    rw [owner] at free
    cases free
  have moves := move_moves s other
  generalize s.move other = s' at moves ⊢
  cases moves with
  | ends _ => exact ⟨owner,endless⟩
  | waits _ _ => exact ⟨owner,endless⟩
  | works _ => exact goes _ _ _ owner id
  | acquires _ free => exact goes _ _ _ (gives _ (unowned free)) id
  | attempts _ free => exact goes _ _ _ (gives _ (unowned free)) id
  | skips _ => exact goes _ _ _ owner id
  | releases actions =>
    have ordered := inv.ordered other
    rw [actions] at ordered
    cases ordered with
    | release mine _ => exact goes _ _ _ (gives _ fun same => untaken (same ▸ mine)) id
  | takes _ left => exact goes _ _ _ owner fun empty => by simp [left] at empty
  | lacks _ empty => exact goes _ _ _ owner id
  | loops _ => exact goes _ _ _ owner id

omit [DecidableEq κ] in
theorem Endless.next {action : LockAction κ} {rest : List (LockAction κ)} (endless : Endless guard (action::rest))
    (single : ∀ body, action ≠ .again body) : action.Keeps guard ∧ Endless guard rest := by
  cases endless with
  | before keeps later => exact ⟨keeps,later⟩
  | again _ => exact absurd rfl (single _)

omit [DecidableEq κ] in
theorem Endless.append {body rest : List (LockAction κ)} (keeps : ∀ action ∈ body, action.Keeps guard)
    (endless : Endless guard rest) : Endless guard (body ++ rest) := by
  induction body with
  | nil => exact endless
  | cons action body ih =>
    obtain ⟨here,later⟩ := List.forall_mem_cons.mp keeps
    exact .before here (ih later)

/-- Its own steps keep a trapped party in its loop. -/
theorem Trapped.itself (trapped : Trapped guard s party) : Trapped guard (s.move party) party := by
  obtain ⟨owner,endless⟩ := trapped
  have goes : ∀ (owners : κ → Option ι) (later : List (LockAction κ)) (stock : Nat), owners guard = some party →
      Endless guard later → Trapped guard ⟨owners,Function.update s.rest party later,stock⟩ party := by
    intro owners later stock owned endless
    exact ⟨owned,.inl (by simpa using endless)⟩
  have gives : ∀ {k : κ} (taker : Option ι), k ≠ guard → Function.update s.owner k taker guard = some party := by
    intro k taker differ
    rwa [Function.update_of_ne differ.symm]
  rcases endless with endless | ⟨empty,otherwise,rest,found,endless⟩
  · have moves := move_moves s party
    generalize s.move party = s' at moves ⊢
    cases moves with
    | ends _ => exact ⟨owner,.inl endless⟩
    | waits _ _ => exact ⟨owner,.inl endless⟩
    | works actions =>
      rw [actions] at endless
      exact goes _ _ _ owner (endless.next (by simp)).2
    | acquires actions free =>
      rw [actions] at endless
      refine goes _ _ _ (gives _ ?_) (endless.next (by simp)).2
      rintro rfl
      rw [owner] at free
      cases free
    | releases actions =>
      rw [actions] at endless
      obtain ⟨keeps,later⟩ := endless.next (by simp)
      exact goes _ _ _ (gives _ keeps) later
    | loops actions =>
      rw [actions] at endless
      cases endless with
      | before keeps _ => exact keeps.elim
      | again keeps => exact goes _ _ _ owner (.append keeps (.again keeps))
    -- What is left keeps no lock, and so it is not met on the way to the loop.
    | attempts actions _ | skips actions | takes actions _ | lacks actions _ =>
      rw [actions] at endless
      exact (endless.next (by simp)).1.elim
  · have moved : s.move party = s.goOn party otherwise := by simp [LockState.move,found,empty]
    rw [moved]
    exact goes _ _ _ owner endless

/-- Once the stock has been found empty its lock is never given back. -/
theorem Trapped.run (inv : Held rank guard s held) (trapped : Trapped guard s party) (more : List ι) :
    Trapped guard (run LockState.move s more) party := by
  induction more generalizing s held with
  | nil => exact trapped
  | cons other more ih =>
    obtain ⟨held',inv'⟩ := inv.move other
    refine ih inv' ?_
    by_cases same : other = party
    · exact same ▸ trapped.itself
    · exact trapped.beside inv same

variable {programs : ι → List (LockAction κ)} {stock : Nat}

/-- All parties can come to their end from wherever a schedule has led to exactly if no schedule
leads a party to an empty stock. -/
theorem all_finish_iff [Fintype ι] {top : Nat} (bounded : ∀ k, rank k ≤ top)
    (ordered : ∀ party, Ordered rank guard [] (programs party)) (straight : ∀ party body, .again body ∉ programs party) :
    (∀ schedule, Finishes (run LockState.move (.start stock programs) schedule)) ↔
      ∀ schedule party, ¬ (run LockState.move (.start stock programs) schedule).FindsEmpty party := by
  have reached (schedule : List ι) : ∃ held, Held rank guard (run LockState.move (.start stock programs) schedule) held :=
    held_run ordered schedule
  constructor
  · intro finishes schedule party found
    obtain ⟨held,inv⟩ := reached schedule
    obtain ⟨more,ended⟩ := finishes schedule
    exact ((inv.trapped found).run inv more).unfinished (ended party).1
  · intro found schedule
    obtain ⟨held,inv⟩ := reached schedule
    have supplied : Supplied (LockState.start stock programs) := ⟨straight,found⟩
    exact (run_invariant Supplied (fun _ party supplied => supplied.move party) supplied schedule).finishes bounded inv

/-- A stock that meets the demand of all parties is never found empty. -/
theorem enough_stock [Fintype ι] (straight : ∀ party body, .again body ∉ programs party)
    (enough : ∑ party, demand (programs party) ≤ stock) (schedule : List ι) (party : ι) :
    ¬ (run LockState.move (.start stock programs) schedule).FindsEmpty party := by
  have found : ∀ s : LockState ι κ, ∑ party, demand (s.rest party) ≤ s.stock → ∀ party, ¬ s.FindsEmpty party := by
    rintro s enough party ⟨empty,otherwise,rest,actions⟩
    have part : demand (s.rest party) ≤ ∑ other, demand (s.rest other) :=
      Finset.single_le_sum (f := fun other => demand (s.rest other)) (fun _ _ => Nat.zero_le _) (Finset.mem_univ party)
    rw [actions,demand] at part
    omega
  have keeps : ∀ (s : LockState ι κ) (party : ι),
      ((∀ party body, .again body ∉ s.rest party) ∧ ∑ party, demand (s.rest party) ≤ s.stock) →
      (∀ other body, .again body ∉ (s.move party).rest other) ∧
        ∑ other, demand ((s.move party).rest other) ≤ (s.move party).stock := by
    rintro s party ⟨straight,enough⟩
    rcases move_shortens (straight party) (found s enough party) with ⟨same,_⟩ | ⟨action,rest,skip,actions,shorter,left⟩
    · rw [same]
      exact ⟨straight,enough⟩
    · have total : ∑ other, demand ((s.move party).rest other) + demand (s.rest party) =
          ∑ other, demand (s.rest other) + demand (rest.drop skip) := by
        rw [shorter,← Finset.add_sum_erase _ _ (Finset.mem_univ party),
          ← Finset.add_sum_erase _ (fun other => demand (s.rest other)) (Finset.mem_univ party)]
        have others : ∑ other ∈ Finset.univ.erase party, demand (Function.update s.rest party (rest.drop skip) other) =
            ∑ other ∈ Finset.univ.erase party, demand (s.rest other) :=
          Finset.sum_congr rfl fun other member => by rw [Function.update_of_ne (Finset.ne_of_mem_erase member)]
        rw [others,Function.update_self]
        omega
      have fewer := demand_drop skip rest
      rw [actions,demand_cons] at total
      refine ⟨fun other body inside => ?_,by omega⟩
      rw [shorter,Function.update_apply] at inside
      split at inside
      next here =>
        refine straight party body ?_
        rw [actions]
        exact List.mem_cons_of_mem _ (List.mem_of_mem_drop inside)
      next => exact straight other body inside
  exact found _ (run_invariant _ keeps ⟨straight,enough⟩ schedule).2 party

end Stock
end Locks
end HyperBox.Library
