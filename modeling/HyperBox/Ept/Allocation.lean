import HyperBox.Ept.Table
import HyperBox.Library.Run
import Mathlib.Algebra.Order.Group.Multiset

/-! `hb_alloc_ept_pages` may stop at any element of four arrays, `hb_free_ept_pages` walks all
of them by their counts. What `g_ept_info` holds on to is the multiset of the arrays and
pages that can be reached from it. -/
namespace HyperBox.Ept.Allocation
open HyperBox.Library HyperBox.PageTable

inductive Item where
  | array (type : EptType)
  | page (addr : U64)
deriving DecidableEq

/-- Whether `vzalloc` has memory for an array, and the answers of `__get_free_page` in the
order of its calls. -/
structure AllocEnv where
  vzalloc : EptType → Bool
  getFreePage : Nat → U64

/-- `g_ept_info`, where NULL is `none`, and what the allocators have given and got back. -/
structure AllocState where
  info : EptInfo
  array : EptType → Option (Nat → U64)
  calls : Nat
  obtained : Multiset Item
  released : Multiset Item

/-- The rounds of a loop whose bound is passed as an `int`. -/
def rounds (count : Nat) : Nat := (BitVec.ofNat 32 count).toInt.toNat

section Code
variable (env : AllocEnv)

def setEntry (type : EptType) (i : Nat) (page : U64) (s : AllocState) : AllocState :=
  { s with
    array := Function.update s.array type ((s.array type).map (fun entries => Function.update entries i page))
    calls := s.calls + 1 }

def allocFrom (type : EptType) : Nat → Nat → AllocState → Int × AllocState
  | 0,_,s => (0,s)
  | left+1,i,s =>
    let page := env.getFreePage s.calls
    let s := setEntry type i page s
    if page = 0 then (-1,s)
    else allocFrom type left (i+1) { s with obtained := s.obtained + {.page page} }

def hbAllocEptPagesInternal (type : EptType) (s : AllocState) : Int × AllocState :=
  allocFrom env type (rounds (s.info.pageCount type)) 0 s

def hbFreeEptPagesInternal (entries : Nat → U64) (count : Nat) (s : AllocState) : AllocState :=
  loop (rounds count)
    (fun i s => if entries i ≠ 0 then { s with released := s.released + {.page (entries i)} } else s) s

def allocArray (type : EptType) (s : AllocState) : AllocState :=
  if env.vzalloc type then
    { s with
      array := Function.update s.array type (some (fun _ => 0))
      obtained := s.obtained + {.array type} }
  else { s with array := Function.update s.array type none }

/-- The arrays are filled one after the other, up to the first page that is missing. -/
def allocTables : List EptType → AllocState → Int × AllocState
  | [],s => (0,s)
  | type::types,s =>
    let result := hbAllocEptPagesInternal env type s
    if result.1 ≠ 0 then (-1,result.2) else allocTables types result.2

def eptTypes : List EptType := [.pml4,.pdptePd,.pdept,.pte]

def hbAllocEptPages (gMaxRamSize : Nat) (s : AllocState) : Int × AllocState :=
  let s := eptTypes.foldl (fun s type => allocArray env type s) { s with info := Ept.hbAllocEptPages gMaxRamSize }
  if eptTypes.any (fun type => (s.array type).isNone) then (-1,s) else allocTables env eptTypes s

def freeTables (type : EptType) (s : AllocState) : AllocState :=
  match s.array type with
  | none => s
  | some entries =>
    let s := hbFreeEptPagesInternal entries (s.info.pageCount type) s
    { s with
      array := Function.update s.array type none
      released := s.released + {.array type} }

def hbFreeEptPages (s : AllocState) : AllocState := eptTypes.foldl (fun s type => freeTables type s) s

end Code

section Held
variable {info : EptInfo} {type : EptType}

def pagesOf : Nat → (Nat → U64) → Multiset Item
  | 0,_ => 0
  | count+1,entries => pagesOf count entries + if entries count ≠ 0 then {.page (entries count)} else 0

def heldBy (info : EptInfo) (type : EptType) : Option (Nat → U64) → Multiset Item
  | none => 0
  | some entries => pagesOf (rounds (info.pageCount type)) entries + {.array type}

/-- Everything that can be reached from `g_ept_info`. -/
def held (info : EptInfo) (array : EptType → Option (Nat → U64)) : Multiset Item :=
  heldBy info .pml4 (array .pml4) + heldBy info .pdptePd (array .pdptePd) + heldBy info .pdept (array .pdept) +
    heldBy info .pte (array .pte)

theorem held_none (info : EptInfo) : held info (fun _ => none) = 0 := rfl

theorem pagesOf_zero (count : Nat) : pagesOf count (fun _ => 0) = 0 := by
  induction count with
  | zero => rfl
  | succ count ih => rw [pagesOf,ih,if_neg (by simp),add_zero]

theorem pagesOf_congr {count : Nat} {entries entries' : Nat → U64} (same : ∀ j < count, entries j = entries' j) :
    pagesOf count entries = pagesOf count entries' := by
  induction count with
  | zero => rfl
  | succ count ih => rw [pagesOf,pagesOf,ih (fun j bound => same j (by omega)),same count (Nat.lt_succ_self count)]

theorem pagesOf_update {count i : Nat} {entries : Nat → U64} {page : U64} (inside : i < count)
    (empty : entries i = 0) (some : page ≠ 0) :
    pagesOf count (Function.update entries i page) = pagesOf count entries + {Item.page page} := by
  induction count with
  | zero => omega
  | succ count ih =>
    rw [pagesOf,pagesOf]
    by_cases last : i = count
    · subst last
      have before : pagesOf i (Function.update entries i page) = pagesOf i entries :=
        pagesOf_congr (fun j bound => Function.update_of_ne (by omega) _ _)
      rw [before,Function.update_self,if_pos some,empty,if_neg (by simp),add_zero]
    · rw [ih (by omega),Function.update_of_ne (Ne.symm last),add_assoc,add_assoc,add_comm {Item.page page}]

theorem held_update {array : EptType → Option (Nat → U64)} {entries : Option (Nat → U64)} {more : Multiset Item}
    (grows : heldBy info type entries = heldBy info type (array type) + more) :
    held info (Function.update array type entries) = held info array + more := by
  cases type <;> simp [held,grows,add_assoc,add_left_comm,add_comm]

end Held

section Free
variable {s : AllocState}

theorem hbFreeEptPagesInternal_eq (entries : Nat → U64) (count : Nat) (s : AllocState) :
    hbFreeEptPagesInternal entries count s = { s with released := s.released + pagesOf (rounds count) entries } := by
  rw [hbFreeEptPagesInternal]
  generalize rounds count = n
  induction n with
  | zero => rw [loop,pagesOf,add_zero]
  | succ n ih =>
    rw [loop,ih,pagesOf]
    split
    · rw [add_assoc]
    · rw [add_zero]

theorem freeTables_eq (type : EptType) (s : AllocState) : freeTables type s = { s with
    array := Function.update s.array type none
    released := s.released + heldBy s.info type (s.array type) } := by
  unfold freeTables
  split
  next nothing =>
    rw [nothing,heldBy,add_zero,← nothing,Function.update_eq_self]
  next entries found =>
    rw [hbFreeEptPagesInternal_eq,found,heldBy]
    simp only [add_assoc]

theorem hbFreeEptPages_eq (s : AllocState) : hbFreeEptPages s = { s with
    array := fun _ => none
    released := s.released + held s.info s.array } := by
  have cleared : ∀ array : EptType → Option (Nat → U64), Function.update (Function.update (Function.update
      (Function.update array .pml4 none) .pdptePd none) .pdept none) .pte none = fun _ => none := by
    intro array
    funext type
    cases type <;> rfl
  simp only [hbFreeEptPages,eptTypes,List.foldl_cons,List.foldl_nil,freeTables_eq,cleared]
  simp [held,add_assoc]

/-- Any number of releases after the first one changes nothing. -/
theorem hbFreeEptPages_again (s : AllocState) : hbFreeEptPages (hbFreeEptPages s) = hbFreeEptPages s := by
  rw [hbFreeEptPages_eq (hbFreeEptPages s),hbFreeEptPages_eq s,held_none,add_zero]

theorem hbFreeEptPages_iterate (s : AllocState) (n : Nat) : hbFreeEptPages^[n+1] s = hbFreeEptPages s := by
  induction n with
  | zero => rfl
  | succ n ih => rw [Function.iterate_succ_apply',ih,hbFreeEptPages_again]

end Free

section Alloc
variable {env : AllocEnv} {base : Multiset Item} {s : AllocState}

/-- What was obtained since `base` can be reached, and nothing has been released. -/
structure Accounted (base released : Multiset Item) (s : AllocState) : Prop where
  obtained : s.obtained = base + held s.info s.array
  released : s.released = released

variable {released : Multiset Item} {type : EptType} {entries : Nat → U64}

theorem Accounted.setEntry {i : Nat} {page : U64} (accounted : Accounted base released s)
    (here : s.array type = some entries) (inside : i < rounds (s.info.pageCount type)) (empty : entries i = 0)
    (some : page ≠ 0) :
    Accounted base released
      { setEntry type i page s with obtained := (setEntry type i page s).obtained + {.page page} } := by
  have grows : heldBy s.info type ((s.array type).map (fun entries => Function.update entries i page)) =
      heldBy s.info type (s.array type) + {.page page} := by
    rw [here,Option.map_some,heldBy,heldBy,pagesOf_update inside empty some,add_assoc,add_assoc,
      add_comm {Item.page page}]
  refine ⟨?_,accounted.released⟩
  rw [Allocation.setEntry,held_update grows,← add_assoc,← accounted.obtained]

theorem setEntry_missing {i : Nat} (here : s.array type = some entries) (empty : entries i = 0) :
    (setEntry type i 0 s).array = s.array := by
  have same : Function.update entries i 0 = entries := by rw [← empty,Function.update_eq_self]
  rw [setEntry,here,Option.map_some,same,← here,Function.update_eq_self]

/-- Every page that the loop gets is in the array when the loop ends. The induction is on the
rounds that are left. -/
theorem allocFrom_accounted (env : AllocEnv) {left i : Nat} (accounted : Accounted base released s)
    (here : s.array type = some entries) (empty : ∀ j, i ≤ j → entries j = 0)
    (count : i + left = rounds (s.info.pageCount type)) :
    Accounted base released (allocFrom env type left i s).2 ∧
      ∀ other, other ≠ type → (allocFrom env type left i s).2.array other = s.array other := by
  induction left generalizing i entries s with
  | zero => exact ⟨accounted,fun _ _ => rfl⟩
  | succ left ih =>
    rw [allocFrom]
    have entry := empty i le_rfl
    split
    next missing =>
      have same := setEntry_missing (i := i) here entry
      rw [missing]
      refine ⟨⟨?_,accounted.released⟩,fun other _ => congrFun same other⟩
      rw [same]
      exact accounted.obtained
    next some =>
      have here' : (setEntry type i (env.getFreePage s.calls) s).array type =
          .some (Function.update entries i (env.getFreePage s.calls)) := by
        rw [setEntry,here,Option.map_some]
        exact Function.update_self _ _ _
      have empty' : ∀ j, i + 1 ≤ j → Function.update entries i (env.getFreePage s.calls) j = 0 := by
        intro j later
        rw [Function.update_of_ne (by omega)]
        exact empty j (by omega)
      have rest := ih (accounted.setEntry here (by omega) entry some) here' empty' (by rw [← Nat.add_right_comm]; exact count)
      refine ⟨rest.1,?_⟩
      intro other apart
      rw [rest.2 other apart]
      exact Function.update_of_ne apart _ _

theorem allocTables_accounted {types : List EptType} (distinct : types.Nodup) (accounted : Accounted base released s)
    (zeroed : ∀ type ∈ types, s.array type = some (fun _ => 0)) :
    Accounted base released (allocTables env types s).2 := by
  induction types generalizing s with
  | nil => exact accounted
  | cons type types ih =>
    obtain ⟨fresh,rest⟩ := List.nodup_cons.mp distinct
    have first := allocFrom_accounted env accounted (zeroed type List.mem_cons_self) (fun _ _ => rfl)
      (Nat.zero_add _)
    rw [allocTables]
    split
    next => exact first.1
    next =>
      apply ih rest first.1
      intro other member
      have apart : other ≠ type := fun same => fresh (same ▸ member)
      exact (first.2 other apart).trans (zeroed other (List.mem_cons_of_mem type member))

theorem allocArray_array (env : AllocEnv) (type : EptType) (s : AllocState) :
    (allocArray env type s).array = Function.update s.array type (if env.vzalloc type then some (fun _ => 0) else none) := by
  rw [allocArray]
  split <;> rfl

theorem allocArray_accounted (type : EptType) (accounted : Accounted base released s) (none : s.array type = none) :
    Accounted base released (allocArray env type s) := by
  rw [allocArray]
  split
  next =>
    have grows : heldBy s.info type (some (fun _ => 0)) = heldBy s.info type (s.array type) + {.array type} := by
      rw [none,heldBy,heldBy,pagesOf_zero]
    refine ⟨?_,accounted.released⟩
    rw [held_update grows,← add_assoc,← accounted.obtained]
  next =>
    rw [← none,Function.update_eq_self]
    exact accounted

theorem allocArrays_accounted (env : AllocEnv) {types : List EptType} (distinct : types.Nodup)
    (accounted : Accounted base released s)
    (none : ∀ type ∈ types, s.array type = none) :
    Accounted base released (types.foldl (fun s type => allocArray env type s) s) ∧
      (∀ type ∈ types, (types.foldl (fun s type => allocArray env type s) s).array type =
        if env.vzalloc type then some (fun _ => 0) else .none) ∧
      ∀ other, other ∉ types → (types.foldl (fun s type => allocArray env type s) s).array other = s.array other := by
  induction types generalizing s with
  | nil => exact ⟨accounted,fun _ member => absurd member (List.not_mem_nil),fun _ _ => rfl⟩
  | cons type types ih =>
    obtain ⟨fresh,rest⟩ := List.nodup_cons.mp distinct
    have array := allocArray_array env type s
    have later : ∀ other ∈ types, (allocArray env type s).array other = .none := by
      intro other member
      have apart : other ≠ type := fun same => fresh (same ▸ member)
      rw [array,Function.update_of_ne apart]
      exact none other (List.mem_cons_of_mem type member)
    obtain ⟨after,zeroed,others⟩ := ih rest (allocArray_accounted type accounted (none type List.mem_cons_self)) later
    refine ⟨after,?_,?_⟩
    · intro other member
      rcases List.mem_cons.mp member with rfl | member
      · rw [List.foldl_cons,others other fresh,array,Function.update_self]
      · exact zeroed other member
    · intro other absent
      rw [List.mem_cons,not_or] at absent
      rw [List.foldl_cons,others other absent.2,array,Function.update_of_ne absent.1]

/-- Wherever the allocation stops, all that it obtained can be reached. -/
theorem hbAllocEptPages_accounted (env : AllocEnv) (gMaxRamSize : Nat) (none : ∀ type, s.array type = none) :
    Accounted s.obtained s.released (hbAllocEptPages env gMaxRamSize s).2 := by
  have nothing : s.array = fun _ => .none := funext none
  have start : Accounted s.obtained s.released { s with info := Ept.hbAllocEptPages gMaxRamSize } := by
    refine ⟨?_,rfl⟩
    rw [nothing,held_none,add_zero]
  have distinct : eptTypes.Nodup := by decide
  obtain ⟨arrays,zeroed,_⟩ := allocArrays_accounted env distinct start (fun type _ => none type)
  rw [hbAllocEptPages]
  split
  next => exact arrays
  next complete =>
    apply allocTables_accounted distinct arrays
    intro type member
    have here := zeroed type member
    have some := complete
    rw [List.any_eq_true] at some
    by_cases got : env.vzalloc type = true
    · rw [here,if_pos got]
    · exact absurd ⟨type,member,by rw [here,if_neg got]; rfl⟩ some

end Alloc

/-- The releases give back exactly what the allocation obtained, each item once, and leave
nothing for a further one. -/
theorem ept_pages_released (env : AllocEnv) (gMaxRamSize : Nat) (s : AllocState) (none : ∀ type, s.array type = none)
    (n : Nat) (some : 0 < n) :
    ∃ got, (hbAllocEptPages env gMaxRamSize s).2.obtained = s.obtained + got ∧
      (hbAllocEptPages env gMaxRamSize s).2.released = s.released ∧
      (hbFreeEptPages^[n] (hbAllocEptPages env gMaxRamSize s).2).obtained = s.obtained + got ∧
      (hbFreeEptPages^[n] (hbAllocEptPages env gMaxRamSize s).2).released = s.released + got ∧
      hbFreeEptPages (hbFreeEptPages^[n] (hbAllocEptPages env gMaxRamSize s).2) =
        hbFreeEptPages^[n] (hbAllocEptPages env gMaxRamSize s).2 := by
  obtain ⟨n,rfl⟩ : ∃ k, n = k + 1 := ⟨n - 1,by omega⟩
  have accounted := hbAllocEptPages_accounted env gMaxRamSize none
  rw [hbFreeEptPages_iterate,hbFreeEptPages_again]
  generalize (hbAllocEptPages env gMaxRamSize s).2 = allocated at accounted ⊢
  refine ⟨held allocated.info allocated.array,accounted.obtained,accounted.released,?_,?_,rfl⟩
  · rw [hbFreeEptPages_eq]
    exact accounted.obtained
  · rw [hbFreeEptPages_eq,accounted.released]

def sampleEnv : AllocEnv := ⟨fun _ => true,fun call => if call = 2 then 0 else BitVec.ofNat 64 ((call + 1) * 4096)⟩

def sampleState : AllocState := ⟨Ept.hbAllocEptPages 0,fun _ => none,0,0,0⟩

theorem ept_pages_released_sample :
    hbFreeEptPages (hbFreeEptPages^[1] (hbAllocEptPages sampleEnv (5 * 2^30) sampleState).2) =
      hbFreeEptPages^[1] (hbAllocEptPages sampleEnv (5 * 2^30) sampleState).2 := by
  obtain ⟨_,_,_,_,_,again⟩ := ept_pages_released sampleEnv (5 * 2^30) sampleState (fun _ => rfl) 1 Nat.one_pos
  exact again

end HyperBox.Ept.Allocation
