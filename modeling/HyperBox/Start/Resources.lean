import HyperBox.Library.Extends
import HyperBox.Start.Protect

/-! What `hyper_box_init` obtains, uses and gives back, step by step, for any pattern of failed
allocations. Each allocation is a resource with a pointer variable that holds it or NULL; the log
tells what has been asked for, used and released, and whether the notifier is registered. -/
namespace HyperBox.Start.Resources
open HyperBox.Library
open HyperBox.Ept (EptType)

inductive Resource where
  | notifierBlock
  | cpu (region : CpuRegion) (i : Nat)
  | eptArray (type : EptType)
  | eptTable (type : EptType) (j : Nat)
  | hostIdt
  | taskPool
  | poolArray
  | poolPage (i : Nat)
  | logInfo
  | logBuffer
deriving DecidableEq

inductive Event where
  | request (r : Resource) (obtained : Bool)
  | use (r : Resource)
  | release (r : Resource)
  | registerPmNotifier
  | unregisterPmNotifier
deriving DecidableEq

inductive Outcome where
  | returned (value : Int)
  | faulted
deriving DecidableEq

/-- The checks before the first allocation, the allocator's answers and the result of `hb_start`.
The page counts follow from the size of the RAM, and may be any here. -/
structure Env where
  vmxSupport : Bool
  controlLocked : Bool
  vmxonEnabledOutsideSmx : Bool
  functionPointers : Bool
  cpuCount : Nat
  pageCount : EptType → Nat
  maxCount : Nat
  obtains : Resource → Bool
  started : Bool

structure State where
  log : List Event
  pointer : Resource → Bool

section Memory
variable (env : Env)

def request (r : Resource) (s : State) : State :=
  ⟨s.log ++ [.request r (env.obtains r)],Function.update s.pointer r (env.obtains r)⟩

def use (r : Resource) (s : State) : State := { s with log := s.log ++ [.use r] }

/-- `vfree` and `free_page` do nothing with NULL; for `__free_pages` see `freeRegion`. -/
def release (r : Resource) (s : State) : State :=
  if s.pointer r then { s with log := s.log ++ [.release r] } else s

def requestEach (rs : List Resource) (s : State) : State := rs.foldl (fun s r => request env r s) s

/-- A loop that stops at the first NULL. -/
def requestUntil : List Resource → State → Bool × State
  | [],s => (true,s)
  | r::rs,s => if (request env r s).pointer r then requestUntil rs (request env r s) else (false,request env r s)

def useEach (rs : List Resource) (s : State) : State := rs.foldl (fun s r => use r s) s

def releaseEach (rs : List Resource) (s : State) : State := rs.foldl (fun s r => release r s) s

end Memory

def cpuResources (i : Nat) : List Resource :=
  [.cpu .vmxOnVmcs i,.cpu .guestVmcs i,.cpu .vmExitStack i,.cpu .ioBitmapA i,.cpu .ioBitmapB i,.cpu .msrBitmap i,
    .cpu .vmreadBitmap i,.cpu .vmwriteBitmap i,.cpu .virtApicPage i]

def eptTypes : List EptType := [.pml4,.pdptePd,.pdept,.pte]

section Init
variable (env : Env)

def allCpuResources : List Resource := (List.range env.cpuCount).flatMap cpuResources

def eptTables (type : EptType) : List Resource :=
  (List.range (env.pageCount type)).map (.eptTable type)

def poolPages : List Resource := (List.range env.maxCount).map .poolPage

def eptResources : List Resource := eptTypes.map .eptArray ++ eptTypes.flatMap (eptTables env)

/-- All nine regions of a processor are asked for before the first of them is looked at. -/
def allocCpus : List Nat → State → Bool × State
  | [],s => (true,s)
  | i::rest,s =>
    let s := requestEach env (cpuResources i) s
    if (cpuResources i).all s.pointer then allocCpus rest s else (false,s)

def isStack : Resource → Bool
  | .cpu .vmExitStack _ => true
  | _ => false

/-- The stack goes to `vfree`, everything else to `__free_pages`, which takes NULL for a page
descriptor, writes to it and faults. Other addresses are taken for what they are meant to be. -/
def freeRegion (r : Resource) (s : State) : Bool × State :=
  if isStack r || s.pointer r then (true,release r s) else (false,s)

def freeRegions : List Resource → State → Bool × State
  | [],s => (true,s)
  | r::rs,s =>
    match freeRegion r s with
    | (true,s) => freeRegions rs s
    | (false,s) => (false,s)

/-- The function returns no value; `false` says that it does not return. -/
def hbAllocVmcsMemory (s : State) : Bool × State :=
  match allocCpus env (List.range env.cpuCount) s with
  | (true,s) => (true,s)
  | (false,s) => freeRegions (allCpuResources env) s

def hbAllocEptPagesInternal (type : EptType) (s : State) : Bool × State := requestUntil env (eptTables env type) s

def allocTables : List EptType → State → Bool × State
  | [],s => (true,s)
  | type::types,s =>
    match hbAllocEptPagesInternal env type s with
    | (false,s) => (false,s)
    | (true,s) => allocTables types s

def hbAllocEptPages (s : State) : Bool × State :=
  let s := requestEach env (eptTypes.map .eptArray) s
  if (eptTypes.map Resource.eptArray).all s.pointer then allocTables env eptTypes s else (false,s)

def freeTables (type : EptType) (s : State) : State :=
  if s.pointer (.eptArray type) then
    let s := release (.eptArray type) (releaseEach (eptTables env type) s)
    { s with pointer := Function.update s.pointer (.eptArray type) false }
  else s

def hbFreeEptPages (s : State) : State := eptTypes.foldl (fun s type => freeTables env type s) s

def hbSetupEptPagetable4KB (s : State) : State := useEach (eptResources env) s

/-- The page is filled without a look at the pointer. -/
def hbSetupHostIdtAndProtect (s : State) : Bool × State :=
  let s := request env .hostIdt s
  if s.pointer .hostIdt then (true,use .hostIdt s) else (false,s)

def hbProtectEptPages (s : State) : State := useEach (eptResources env) s

def hbProtectVmcs (s : State) : State := useEach (allCpuResources env) s

def hbPrepareMonitor (s : State) : Bool × State :=
  let s := request env .taskPool s
  if s.pointer .taskPool then (true,use .taskPool s) else (false,s)

def hbSetupMemoryPool (s : State) : Bool × State :=
  let s := request env .poolArray s
  if s.pointer .poolArray then
    match requestUntil env (poolPages env) s with
    | (true,s) => (true,useEach (.poolArray::poolPages env) s)
    | (false,s) => (false,release .poolArray (releaseEach (poolPages env) s))
  else (false,s)

def hbPrepareLogBuffer (s : State) : Bool × State :=
  let s := request env .logInfo s
  if s.pointer .logInfo then
    let s := request env .logBuffer (use .logInfo s)
    (s.pointer .logBuffer,s)
  else (false,s)

/-- The threads of `hb_start` load what was allocated for their processors. -/
def hbStart (s : State) : Bool × State := (env.started,useEach (allCpuResources env) s)

def afterVmcs (s : State) : Outcome × State :=
  match hbAllocEptPages env s with
  | (false,s) => (.returned (-1),hbFreeEptPages env s)
  | (true,s) =>
    match hbSetupHostIdtAndProtect env (hbSetupEptPagetable4KB env s) with
    | (false,s) => (.faulted,s)
    | (true,s) =>
      match hbPrepareMonitor env (hbProtectVmcs env (hbProtectEptPages env s)) with
      | (false,s) => (.returned (-1),s)
      | (true,s) =>
        match hbSetupMemoryPool env s with
        | (false,s) => (.returned (-1),s)
        | (true,s) =>
          match hbPrepareLogBuffer env s with
          | (false,s) => (.returned (-1),s)
          | (true,s) =>
            match hbStart env s with
            | (true,s) => (.returned 0,s)
            | (false,s) => (.returned (-1),hbFreeEptPages env s)

/-- The pointers are static variables and hold NULL at first. -/
def loaded : State := ⟨[],fun _ => false⟩

def hyperBoxInit : Outcome × State :=
  if !env.vmxSupport then (.returned (-1),loaded)
  else if env.controlLocked && !env.vmxonEnabledOutsideSmx then (.returned (-1),loaded)
  else if !env.functionPointers then (.returned (-1),hbFreeEptPages env loaded)
  else
    let s := request env .notifierBlock loaded
    if s.pointer .notifierBlock then
      let s := use .notifierBlock s
      let s := { s with log := s.log ++ [.registerPmNotifier] }
      match hbAllocVmcsMemory env s with
      | (true,s) => afterVmcs env s
      | (false,s) => (.faulted,s)
    else (.faulted,s)

/-- Success means that every request was granted, nothing is used after its release, and failure
leaves nothing behind. -/
structure Atomic (result : Outcome × State) : Prop where
  complete : result.1 = .returned 0 → ∀ r, .request r false ∉ result.2.log
  noUseAfterRelease : ∀ before after r, result.2.log = before ++ .use r::after → .release r ∉ before
  undone : result.1 = .returned (-1) →
    (.registerPmNotifier ∈ result.2.log → .unregisterPmNotifier ∈ result.2.log) ∧
      ∀ r, .request r true ∈ result.2.log → result.2.log.count (.release r) = 1

def laterResources : List Resource :=
  eptResources env ++ [.hostIdt,.taskPool,.poolArray] ++ poolPages env ++ [.logInfo,.logBuffer]

/-- The checks let the initialization go on to its first allocation. -/
def admitted : Bool :=
  env.vmxSupport && !(env.controlLocked && !env.vmxonEnabledOutsideSmx) && env.functionPointers

/-- No NULL comes to `__free_pages`: if a processor's memory is refused, it is the stack of the last
one alone. -/
def vmcsFreed : Bool :=
  (allCpuResources env).all fun r => env.obtains r || r = .cpu .vmExitStack (env.cpuCount - 1)

/-- Nothing has been taken, an unchecked NULL ends the initialization before it returns, or every
allocation and the start succeed. -/
def undisturbed : Bool :=
  !admitted env || !env.obtains .notifierBlock || !vmcsFreed env ||
    ((eptResources env).all env.obtains && !env.obtains .hostIdt) ||
    ((allCpuResources env).all env.obtains && ((laterResources env).all env.obtains && env.started))

end Init

section Grow
variable {env : Env} {Q : Event → Prop} {s : State} {r : Resource} {rs : List Resource}

@[simp] theorem request_pointer (env : Env) (r : Resource) (s : State) : (request env r s).pointer r = env.obtains r := by
  simp [request]

theorem request_pointer_ne (env : Env) {r other : Resource} (differ : other ≠ r) (s : State) :
    (request env r s).pointer other = s.pointer other := Function.update_of_ne differ _ _

theorem request_extends (holds : Q (.request r (env.obtains r))) : Extends Q s.log (request env r s).log := .snoc holds

theorem use_extends (holds : Q (.use r)) : Extends Q s.log (use r s).log := .snoc holds

theorem release_extends (holds : Q (.release r)) : Extends Q s.log (release r s).log := by
  unfold release
  split
  · exact .snoc holds
  · exact .refl _

theorem requestEach_extends (holds : ∀ r ∈ rs, Q (.request r (env.obtains r))) :
    Extends Q s.log (requestEach env rs s).log :=
  Extends.foldl State.log _ rs (fun _ r member => request_extends (holds r member)) s

theorem useEach_extends (holds : ∀ r ∈ rs, Q (.use r)) : Extends Q s.log (useEach rs s).log :=
  Extends.foldl State.log _ rs (fun _ r member => use_extends (holds r member)) s

theorem releaseEach_extends (holds : ∀ r ∈ rs, Q (.release r)) : Extends Q s.log (releaseEach rs s).log :=
  Extends.foldl State.log _ rs (fun _ r member => release_extends (holds r member)) s

theorem freeRegions_extends (holds : ∀ r ∈ rs, Q (.release r)) : Extends Q s.log (freeRegions rs s).2.log := by
  induction rs generalizing s with
  | nil => exact .refl _
  | cons r rs ih =>
    obtain ⟨here,later⟩ := List.forall_mem_cons.mp holds
    simp only [freeRegions,freeRegion]
    split
    next freed =>
      split at freed
      · cases freed
        exact (release_extends here).trans (ih later)
      · cases freed
    next faulted =>
      split at faulted
      · cases faulted
      · cases faulted
        exact .refl _

theorem requestUntil_extends (holds : ∀ r ∈ rs, Q (.request r (env.obtains r))) :
    Extends Q s.log (requestUntil env rs s).2.log := by
  induction rs generalizing s with
  | nil => exact .refl _
  | cons r rs ih =>
    have first : Extends Q s.log (request env r s).log := request_extends (holds r List.mem_cons_self)
    unfold requestUntil
    split
    · exact first.trans (ih (fun r' member => holds r' (List.mem_cons_of_mem r member)))
    · exact first

end Grow

section Answers
variable (env : Env) (s : State)

theorem requestUntil_ok (rs : List Resource) : (requestUntil env rs s).1 = rs.all env.obtains := by
  induction rs generalizing s with
  | nil => rfl
  | cons r rs ih =>
    unfold requestUntil
    rw [request_pointer,List.all_cons]
    cases env.obtains r with
    | true => exact ih _
    | false => rfl

theorem requestEach_pointer (rs : List Resource) {r : Resource} (member : r ∈ rs) :
    (requestEach env rs s).pointer r = env.obtains r := by
  induction rs using List.reverseRecOn with
  | nil => cases member
  | append_singleton rs last ih =>
    simp only [requestEach,List.foldl_append,List.foldl_cons,List.foldl_nil]
    by_cases same : r = last
    · subst same
      exact request_pointer env r _
    · have early : r ∈ rs := by simpa [same] using member
      rw [request_pointer_ne env same]
      exact ih early

theorem requestEach_all (rs : List Resource) : rs.all (requestEach env rs s).pointer = rs.all env.obtains := by
  rw [Bool.eq_iff_iff,List.all_eq_true,List.all_eq_true]
  exact forall₂_congr fun r member => by rw [requestEach_pointer env s rs member]

theorem allocCpus_ok (cpus : List Nat) : (allocCpus env cpus s).1 = (cpus.flatMap cpuResources).all env.obtains := by
  induction cpus generalizing s with
  | nil => rfl
  | cons i rest ih =>
    simp only [allocCpus,requestEach_all,List.flatMap_cons,List.all_append]
    cases (cpuResources i).all env.obtains with
    | true => exact ih _
    | false => rfl

theorem release_pointer (r : Resource) : (release r s).pointer = s.pointer := by
  unfold release
  split <;> rfl

theorem freeRegions_ok (rs : List Resource) : (freeRegions rs s).1 = rs.all (fun r => isStack r || s.pointer r) := by
  induction rs generalizing s with
  | nil => rfl
  | cons r rs ih =>
    simp only [freeRegions,freeRegion,List.all_cons]
    cases isStack r || s.pointer r with
    | true =>
      simp only [if_true,ih,release_pointer,Bool.true_and]
    | false => rfl

theorem requestEach_pointer_ne (rs : List Resource) {r : Resource} (other : r ∉ rs) :
    (requestEach env rs s).pointer r = s.pointer r := by
  induction rs using List.reverseRecOn with
  | nil => rfl
  | append_singleton rs last ih =>
    simp only [List.mem_append,List.mem_singleton,not_or] at other
    simp only [requestEach,List.foldl_append,List.foldl_cons,List.foldl_nil] at ih ⊢
    rw [request_pointer_ne env other.2]
    exact ih other.1

theorem allocCpus_pointer_ne (cpus : List Nat) {r : Resource} (other : r ∉ cpus.flatMap cpuResources) :
    (allocCpus env cpus s).2.pointer r = s.pointer r := by
  induction cpus generalizing s with
  | nil => rfl
  | cons i rest ih =>
    simp only [List.flatMap_cons,List.mem_append,not_or] at other
    have here := requestEach_pointer_ne env s (cpuResources i) other.1
    simp only [allocCpus]
    split
    · rw [ih _ other.2,here]
    · exact here

theorem cpu_index {i : Nat} {r : Resource} (member : r ∈ cpuResources i) : ∃ region, r = .cpu region i := by
  simp only [cpuResources,List.mem_cons,List.not_mem_nil,or_false] at member
  rcases member with rfl | rfl | rfl | rfl | rfl | rfl | rfl | rfl | rfl <;> exact ⟨_,rfl⟩

theorem cpu_apart {i : Nat} {cpus : List Nat} (fresh : i ∉ cpus) {r : Resource} (member : r ∈ cpuResources i) :
    r ∉ cpus.flatMap cpuResources := by
  intro inside
  obtain ⟨j,listed,there⟩ := List.mem_flatMap.mp inside
  obtain ⟨region,rfl⟩ := cpu_index member
  obtain ⟨_,same⟩ := cpu_index there
  cases same
  exact fresh listed

theorem later_cpu_null {i j : Nat} {rest : List Nat} (fresh : i ∉ j::rest)
    (clear : ∀ r ∈ (j::rest).flatMap cpuResources, s.pointer r = false) :
    ((j::rest).flatMap cpuResources).all (fun r => isStack r || (requestEach env (cpuResources i) s).pointer r) = false := by
  have member : Resource.cpu .guestVmcs j ∈ (j::rest).flatMap cpuResources := by simp [cpuResources]
  refine List.all_eq_false.mpr ⟨.cpu .guestVmcs j,member,?_⟩
  have apart : Resource.cpu .guestVmcs j ∉ cpuResources i := fun inside => cpu_apart fresh inside member
  rw [requestEach_pointer_ne env s _ apart,clear _ member]
  simp [isStack]

theorem refused_other_cpu {i last : Nat} (refused : (cpuResources i).all env.obtains = false) (other : i ≠ last) :
    (cpuResources i).all (fun r => env.obtains r || r = .cpu .vmExitStack last) = false := by
  obtain ⟨r,member,none⟩ := List.all_eq_false.mp refused
  refine List.all_eq_false.mpr ⟨r,member,?_⟩
  obtain ⟨region,rfl⟩ := cpu_index member
  simp [none,other]

/-- After a refusal no NULL is left for `__free_pages` only if the stack of the last processor alone
was refused. -/
theorem allocCpus_freed {cpus : List Nat} {last : Nat} (distinct : cpus.Nodup) (ends : cpus.getLast? = some last)
    (clear : ∀ r ∈ cpus.flatMap cpuResources, s.pointer r = false)
    (failed : (cpus.flatMap cpuResources).all env.obtains = false) :
    (cpus.flatMap cpuResources).all (fun r => isStack r || (allocCpus env cpus s).2.pointer r) =
      (cpus.flatMap cpuResources).all (fun r => env.obtains r || r = .cpu .vmExitStack last) := by
  induction cpus generalizing s with
  | nil => simp at ends
  | cons i rest ih =>
    obtain ⟨fresh,distinct⟩ := List.nodup_cons.mp distinct
    have stack : ∀ r ∈ cpuResources i, isStack r = decide (r = .cpu .vmExitStack i) := by
      intro r member
      obtain ⟨region,rfl⟩ := cpu_index member
      cases region <;> simp [isStack]
    simp only [List.flatMap_cons,List.all_append]
    simp only [allocCpus,requestEach_all]
    cases here : (cpuResources i).all env.obtains with
    | true =>
      have granted := List.all_eq_true.mp here
      have more : rest ≠ [] := by
        rintro rfl
        rw [List.flatMap_cons,List.flatMap_nil,List.append_nil,here] at failed
        cases failed
      rw [List.getLast?_cons_of_ne_nil more] at ends
      rw [List.flatMap_cons,List.all_append,here,Bool.true_and] at failed
      simp only [if_true]
      have still : ∀ r ∈ rest.flatMap cpuResources, (requestEach env (cpuResources i) s).pointer r = false := by
        intro r member
        have apart : r ∉ cpuResources i := fun inside => cpu_apart fresh inside member
        rw [requestEach_pointer_ne env s _ apart]
        exact clear r (List.mem_append_right _ member)
      rw [ih (requestEach env (cpuResources i) s) distinct ends still failed]
      congr 1
      rw [Bool.eq_iff_iff,List.all_eq_true,List.all_eq_true]
      refine iff_of_true (fun r member => ?_) (fun r member => ?_)
      · rw [allocCpus_pointer_ne env _ rest (cpu_apart fresh member),requestEach_pointer env s _ member,
          granted r member,Bool.or_true]
      · rw [granted r member,Bool.true_or]
    | false =>
      simp only [Bool.false_eq_true,if_false]
      have asked : ∀ r ∈ cpuResources i, (requestEach env (cpuResources i) s).pointer r = env.obtains r :=
        fun r member => requestEach_pointer env s _ member
      cases rest with
      | nil =>
        have same : i = last := by simpa using ends
        subst same
        simp only [List.flatMap_nil,List.all_nil,Bool.and_true]
        rw [Bool.eq_iff_iff,List.all_eq_true,List.all_eq_true]
        exact forall₂_congr fun r member => by rw [asked r member,stack r member,Bool.or_comm]
      | cons j rest =>
        -- The next processor has not been asked for, and the last one is not this one.
        have left := later_cpu_null env s fresh fun r member => clear r (List.mem_append_right _ member)
        have inside : last ∈ j::rest := by
          rw [List.getLast?_cons_of_ne_nil (by simp)] at ends
          exact List.mem_of_getLast? ends
        have right := refused_other_cpu env here fun same : i = last => fresh (same ▸ inside)
        rw [left,right,Bool.and_false,Bool.false_and]

theorem hbAllocVmcsMemory_ok (clear : ∀ r ∈ allCpuResources env, s.pointer r = false) :
    (hbAllocVmcsMemory env s).1 = vmcsFreed env := by
  have ok := allocCpus_ok env s (List.range env.cpuCount)
  cases all : (allCpuResources env).all env.obtains with
  | true =>
    have whole : vmcsFreed env = true := by
      rw [vmcsFreed,List.all_eq_true]
      intro r member
      rw [List.all_eq_true.mp all r member,Bool.true_or]
    rw [← allCpuResources,all] at ok
    rw [whole,hbAllocVmcsMemory]
    generalize allocCpus env (List.range env.cpuCount) s = result at ok ⊢
    obtain ⟨_ | _,after⟩ := result
    · cases ok
    · rfl
  | false =>
    obtain ⟨n,count⟩ : ∃ n, env.cpuCount = n + 1 := by
      refine Nat.exists_eq_add_one.mpr (Nat.pos_of_ne_zero fun none => ?_)
      simp [allCpuResources,none] at all
    have ends : (List.range env.cpuCount).getLast? = some (env.cpuCount - 1) := by
      rw [count,List.getLast?_range]
      simp
    have freed := allocCpus_freed env s List.nodup_range ends clear all
    rw [← allCpuResources,all] at ok
    rw [vmcsFreed,allCpuResources,← freed,hbAllocVmcsMemory]
    generalize allocCpus env (List.range env.cpuCount) s = result at ok ⊢
    obtain ⟨_ | _,after⟩ := result
    · exact freeRegions_ok after _
    · cases ok

theorem allocTables_ok (types : List EptType) :
    (allocTables env types s).1 = (types.flatMap (eptTables env)).all env.obtains := by
  induction types generalizing s with
  | nil => rfl
  | cons type types ih =>
    have here := requestUntil_ok env s (eptTables env type)
    simp only [allocTables,hbAllocEptPagesInternal,List.flatMap_cons,List.all_append,← here]
    rcases requestUntil env (eptTables env type) s with ⟨_ | _,s⟩
    · rfl
    · exact ih s

theorem hbAllocEptPages_ok : (hbAllocEptPages env s).1 = (eptResources env).all env.obtains := by
  simp only [hbAllocEptPages,requestEach_all,eptResources,List.all_append]
  cases (eptTypes.map Resource.eptArray).all env.obtains with
  | true => rw [if_pos rfl,allocTables_ok,Bool.true_and]
  | false => rw [if_neg Bool.false_ne_true,Bool.false_and]

theorem hbSetupHostIdtAndProtect_ok : (hbSetupHostIdtAndProtect env s).1 = env.obtains .hostIdt := by
  simp only [hbSetupHostIdtAndProtect,request_pointer]
  cases env.obtains .hostIdt <;> rfl

theorem hbPrepareMonitor_ok : (hbPrepareMonitor env s).1 = env.obtains .taskPool := by
  simp only [hbPrepareMonitor,request_pointer]
  cases env.obtains .taskPool <;> rfl

theorem hbSetupMemoryPool_ok :
    (hbSetupMemoryPool env s).1 = (env.obtains .poolArray && (poolPages env).all env.obtains) := by
  simp only [hbSetupMemoryPool,request_pointer]
  cases env.obtains .poolArray with
  | false => rfl
  | true =>
    have pages := requestUntil_ok env (request env .poolArray s) (poolPages env)
    rw [← pages]
    rcases requestUntil env (poolPages env) (request env .poolArray s) with ⟨_ | _,s⟩ <;> rfl

theorem hbPrepareLogBuffer_ok :
    (hbPrepareLogBuffer env s).1 = (env.obtains .logInfo && env.obtains .logBuffer) := by
  simp only [hbPrepareLogBuffer,request_pointer]
  cases env.obtains .logInfo with
  | false => rfl
  | true => exact request_pointer env .logBuffer (use .logInfo (request env .logInfo s))

end Answers

section Steps
variable {env : Env} {Q : Event → Prop} {s : State}

theorem allocCpus_extends {cpus : List Nat}
    (asks : ∀ r ∈ cpus.flatMap cpuResources, Q (.request r (env.obtains r))) :
    Extends Q s.log (allocCpus env cpus s).2.log := by
  induction cpus generalizing s with
  | nil => exact .refl _
  | cons i rest ih =>
    have here : Extends Q s.log (requestEach env (cpuResources i) s).log :=
      requestEach_extends (fun r member => asks r (List.mem_append_left _ member))
    simp only [allocCpus]
    split
    · exact here.trans (ih (fun r member => asks r (List.mem_append_right _ member)))
    · exact here

theorem hbAllocVmcsMemory_extends (asks : ∀ r ∈ allCpuResources env, Q (.request r (env.obtains r)))
    (frees : (allCpuResources env).all env.obtains = false → ∀ r ∈ allCpuResources env, Q (.release r)) :
    Extends Q s.log (hbAllocVmcsMemory env s).2.log := by
  have asked : Extends Q s.log (allocCpus env (List.range env.cpuCount) s).2.log := allocCpus_extends asks
  have ok := allocCpus_ok env s (List.range env.cpuCount)
  unfold hbAllocVmcsMemory
  generalize allocCpus env (List.range env.cpuCount) s = result at asked ok ⊢
  obtain ⟨_ | _,after⟩ := result
  · exact asked.trans (freeRegions_extends (frees ok.symm))
  · exact asked

theorem allocTables_extends {types : List EptType}
    (asks : ∀ r ∈ types.flatMap (eptTables env), Q (.request r (env.obtains r))) :
    Extends Q s.log (allocTables env types s).2.log := by
  induction types generalizing s with
  | nil => exact .refl _
  | cons type types ih =>
    have here : Extends Q s.log (requestUntil env (eptTables env type) s).2.log :=
      requestUntil_extends (fun r member => asks r (List.mem_append_left _ member))
    simp only [allocTables,hbAllocEptPagesInternal]
    generalize requestUntil env (eptTables env type) s = result at here ⊢
    obtain ⟨_ | _,after⟩ := result
    · exact here
    · exact here.trans (ih (fun r member => asks r (List.mem_append_right _ member)))

theorem hbAllocEptPages_extends (asks : ∀ r ∈ eptResources env, Q (.request r (env.obtains r))) :
    Extends Q s.log (hbAllocEptPages env s).2.log := by
  have arrays : Extends Q s.log (requestEach env (eptTypes.map .eptArray) s).log :=
    requestEach_extends (fun r member => asks r (List.mem_append_left _ member))
  unfold hbAllocEptPages
  dsimp only
  split
  · exact arrays.trans (allocTables_extends (fun r member => asks r (List.mem_append_right _ member)))
  · exact arrays

theorem hbFreeEptPages_extends (frees : ∀ r, Q (.release r)) : Extends Q s.log (hbFreeEptPages env s).log := by
  refine Extends.foldl State.log _ eptTypes (fun s type _ => ?_) s
  unfold freeTables
  split
  · have tables : Extends Q s.log (releaseEach (eptTables env type) s).log := releaseEach_extends (fun r _ => frees r)
    exact tables.trans (release_extends (frees _))
  · exact .refl _

theorem hbSetupHostIdtAndProtect_extends (asks : Q (.request .hostIdt (env.obtains .hostIdt)))
    (uses : Q (.use .hostIdt)) : Extends Q s.log (hbSetupHostIdtAndProtect env s).2.log := by
  have asked : Extends Q s.log (request env .hostIdt s).log := request_extends asks
  unfold hbSetupHostIdtAndProtect
  dsimp only
  split
  · exact asked.trans (use_extends uses)
  · exact asked

theorem hbPrepareMonitor_extends (asks : Q (.request .taskPool (env.obtains .taskPool))) (uses : Q (.use .taskPool)) :
    Extends Q s.log (hbPrepareMonitor env s).2.log := by
  have asked : Extends Q s.log (request env .taskPool s).log := request_extends asks
  unfold hbPrepareMonitor
  dsimp only
  split
  · exact asked.trans (use_extends uses)
  · exact asked

theorem hbSetupMemoryPool_extends (array : Q (.request .poolArray (env.obtains .poolArray)))
    (pages : ∀ r ∈ poolPages env, Q (.request r (env.obtains r))) (uses : ∀ r, Q (.use r))
    (frees : (poolPages env).all env.obtains = false → ∀ r, Q (.release r)) :
    Extends Q s.log (hbSetupMemoryPool env s).2.log := by
  have asked : Extends Q s.log (request env .poolArray s).log := request_extends array
  have more : Extends Q s.log (requestUntil env (poolPages env) (request env .poolArray s)).2.log :=
    asked.trans (requestUntil_extends pages)
  have ok := requestUntil_ok env (request env .poolArray s) (poolPages env)
  unfold hbSetupMemoryPool
  dsimp only
  split
  · generalize requestUntil env (poolPages env) (request env .poolArray s) = result at more ok ⊢
    obtain ⟨_ | _,after⟩ := result
    · have freed : Extends Q after.log (releaseEach (poolPages env) after).log :=
        releaseEach_extends (fun r _ => frees ok.symm r)
      exact more.trans (freed.trans (release_extends (frees ok.symm _)))
    · exact more.trans (useEach_extends (fun r _ => uses r))
  · exact asked

theorem hbPrepareLogBuffer_extends (info : Q (.request .logInfo (env.obtains .logInfo)))
    (buffer : Q (.request .logBuffer (env.obtains .logBuffer))) (uses : Q (.use .logInfo)) :
    Extends Q s.log (hbPrepareLogBuffer env s).2.log := by
  have asked : Extends Q s.log (request env .logInfo s).log := request_extends info
  unfold hbPrepareLogBuffer
  dsimp only
  split
  · exact asked.trans ((use_extends uses).trans (request_extends buffer))
  · exact asked

def laterOutcome (env : Env) : Outcome :=
  if (eptResources env).all env.obtains then
    if env.obtains .hostIdt then
      if (laterResources env).all env.obtains && env.started then .returned 0 else .returned (-1)
    else .faulted
  else .returned (-1)

theorem laterResources_all (env : Env) : (laterResources env).all env.obtains =
    ((eptResources env).all env.obtains && (env.obtains .hostIdt && (env.obtains .taskPool &&
      ((env.obtains .poolArray && (poolPages env).all env.obtains) &&
        (env.obtains .logInfo && env.obtains .logBuffer))))) := by
  simp [laterResources,List.all_append,Bool.and_assoc]

/-- The steps add only requests, uses and, unless they succeed, releases. -/
theorem afterVmcs_spec (asks : ∀ r ∈ laterResources env, Q (.request r (env.obtains r))) (uses : ∀ r, Q (.use r))
    (frees : ((laterResources env).all env.obtains && env.started) = false → ∀ r, Q (.release r)) :
    (afterVmcs env s).1 = laterOutcome env ∧ Extends Q s.log (afterVmcs env s).2.log := by
  have split := laterResources_all env
  unfold afterVmcs laterOutcome
  have ept := hbAllocEptPages_ok env s
  have log : Extends Q s.log (hbAllocEptPages env s).2.log :=
    hbAllocEptPages_extends (fun r member => asks r (by simp [laterResources,member]))
  generalize hbAllocEptPages env s = result at ept log ⊢
  obtain ⟨_ | _,s1⟩ := result
  · simp only [← ept,Bool.false_eq_true,if_false,true_and]
    exact log.trans (hbFreeEptPages_extends (frees (by simp [split,← ept])))
  simp only [← ept,if_true]
  have idt := hbSetupHostIdtAndProtect_ok env (hbSetupEptPagetable4KB env s1)
  replace log : Extends Q s.log (hbSetupHostIdtAndProtect env (hbSetupEptPagetable4KB env s1)).2.log :=
    log.trans ((useEach_extends (fun r _ => uses r)).trans
      (hbSetupHostIdtAndProtect_extends (asks _ (by simp [laterResources])) (uses _)))
  generalize hbSetupHostIdtAndProtect env (hbSetupEptPagetable4KB env s1) = result at idt log ⊢
  obtain ⟨_ | _,s2⟩ := result
  · simp only [← idt,Bool.false_eq_true,if_false,true_and]
    exact log
  simp only [← idt,if_true]
  have monitor := hbPrepareMonitor_ok env (hbProtectVmcs env (hbProtectEptPages env s2))
  replace log : Extends Q s.log (hbPrepareMonitor env (hbProtectVmcs env (hbProtectEptPages env s2))).2.log :=
    log.trans ((useEach_extends (fun r _ => uses r)).trans ((useEach_extends (fun r _ => uses r)).trans
      (hbPrepareMonitor_extends (asks _ (by simp [laterResources])) (uses _))))
  generalize hbPrepareMonitor env (hbProtectVmcs env (hbProtectEptPages env s2)) = result at monitor log ⊢
  obtain ⟨_ | _,s3⟩ := result
  · exact ⟨by simp [split,← monitor],log⟩
  have pool := hbSetupMemoryPool_ok env s3
  replace log : Extends Q s.log (hbSetupMemoryPool env s3).2.log :=
    log.trans (hbSetupMemoryPool_extends (asks _ (by simp [laterResources]))
      (fun r member => asks r (by simp [laterResources,member])) uses
      (fun failed => frees (by simp [split,failed])))
  dsimp only
  generalize hbSetupMemoryPool env s3 = result at pool log ⊢
  obtain ⟨_ | _,s4⟩ := result
  · exact ⟨by simp [split,← pool],log⟩
  have buffer := hbPrepareLogBuffer_ok env s4
  replace log : Extends Q s.log (hbPrepareLogBuffer env s4).2.log :=
    log.trans (hbPrepareLogBuffer_extends (asks _ (by simp [laterResources])) (asks _ (by simp [laterResources]))
      (uses _))
  dsimp only
  generalize hbPrepareLogBuffer env s4 = result at buffer log ⊢
  obtain ⟨_ | _,s5⟩ := result
  · exact ⟨by simp [split,← buffer],log⟩
  replace log : Extends Q s.log (useEach (allCpuResources env) s5).log :=
    log.trans (useEach_extends (fun r _ => uses r))
  have all : (laterResources env).all env.obtains = true := by
    simp only [split,← ept,← idt,← monitor,← pool,← buffer,Bool.and_self]
  simp only [hbStart,all,Bool.true_and]
  cases started : env.started with
  | true => exact ⟨rfl,log⟩
  | false => exact ⟨rfl,log.trans (hbFreeEptPages_extends (frees (by rw [started,Bool.and_false])))⟩

end Steps

section Whole
variable (env : Env)

def notified : State :=
  let s := use .notifierBlock (request env .notifierBlock loaded)
  { s with log := s.log ++ [.registerPmNotifier] }

theorem hbFreeEptPages_loaded : hbFreeEptPages env loaded = loaded := by
  simp [hbFreeEptPages,eptTypes,freeTables,loaded]

theorem hyperBoxInit_refused (refused : admitted env = false) : hyperBoxInit env = (.returned (-1),loaded) := by
  unfold hyperBoxInit
  rw [hbFreeEptPages_loaded]
  cases vmx : env.vmxSupport with
  | false => rfl
  | true =>
    cases bios : env.controlLocked && !env.vmxonEnabledOutsideSmx with
    | true => rfl
    | false =>
      have symbols : env.functionPointers = false := by simpa [admitted,vmx,bios] using refused
      rw [symbols]
      rfl

theorem hyperBoxInit_admitted (goes : admitted env = true) : hyperBoxInit env =
    if env.obtains .notifierBlock then
      if (hbAllocVmcsMemory env (notified env)).1 then afterVmcs env (hbAllocVmcsMemory env (notified env)).2
      else (.faulted,(hbAllocVmcsMemory env (notified env)).2)
    else (.faulted,request env .notifierBlock loaded) := by
  simp only [admitted,Bool.and_eq_true,Bool.not_eq_true'] at goes
  obtain ⟨⟨vmx,bios⟩,symbols⟩ := goes
  simp only [hyperBoxInit,vmx,bios,symbols,Bool.not_true,Bool.false_eq_true,if_false,request_pointer]
  split
  · rw [← notified]
    generalize hbAllocVmcsMemory env (notified env) = result
    obtain ⟨_ | _,after⟩ := result <;> rfl
  · rfl

def Plain (event : Event) : Prop := event ≠ .registerPmNotifier ∧ event ≠ .unregisterPmNotifier

/-- A granted request or a use. -/
def Granted (event : Event) : Prop := (∀ r, event ≠ .request r false) ∧ ∀ r, event ≠ .release r

/-- A processor's memory may be released and is not used. -/
def SparesCpus (event : Event) : Prop :=
  (∀ r, event = .use r → ∀ region i, r ≠ .cpu region i) ∧ ∀ r, event = .release r → ∃ region i, r = .cpu region i

section Kinds
variable (r : Resource)

theorem plain_request (obtained : Bool) : Plain (.request r obtained) := by simp [Plain]

theorem plain_use : Plain (.use r) := by simp [Plain]

theorem plain_release : Plain (.release r) := by simp [Plain]

theorem granted_request : Granted (.request r true) := by simp [Granted]

theorem granted_use : Granted (.use r) := by simp [Granted]

theorem granted_register : Granted .registerPmNotifier := by simp [Granted]

theorem spares_request (obtained : Bool) : SparesCpus (.request r obtained) := by simp [SparesCpus]

theorem spares_use {r : Resource} (other : ∀ region i, r ≠ .cpu region i) : SparesCpus (.use r) := by
  simpa [SparesCpus] using other

theorem spares_release (region : CpuRegion) (i : Nat) : SparesCpus (.release (.cpu region i)) := by
  simp [SparesCpus]

end Kinds

variable {env} {s : State}

theorem mem_cpuResources {r : Resource} (member : r ∈ allCpuResources env) : ∃ region i, r = .cpu region i := by
  simp only [allCpuResources,cpuResources,List.mem_flatMap,List.mem_cons,List.not_mem_nil,or_false] at member
  obtain ⟨i,_,here⟩ := member
  rcases here with rfl | rfl | rfl | rfl | rfl | rfl | rfl | rfl | rfl <;> exact ⟨_,_,rfl⟩

theorem mem_eptResources {r : Resource} (member : r ∈ eptResources env) (region : CpuRegion) (i : Nat) :
    r ≠ .cpu region i := by
  intro same
  simp [eptResources,eptTables,same] at member

theorem sparesCpus_notified {event : Event} (member : event ∈ (notified env).log) : SparesCpus event := by
  simp only [notified,use,request,loaded,List.nil_append,List.mem_append,List.mem_singleton] at member
  rcases member with (rfl | rfl) | rfl <;> simp [SparesCpus]

theorem ordered_of_sparesCpus {log : List Event} (spares : ∀ event ∈ log, SparesCpus event) (before after : List Event)
    (r : Resource) (log_eq : log = before ++ .use r::after) : .release r ∉ before := by
  intro released
  obtain ⟨region,i,cpu⟩ := (spares (.release r) (by simp [log_eq,released])).2 r rfl
  exact (spares (.use r) (by simp [log_eq])).1 r rfl region i cpu

theorem plain_run : Extends Plain (hbAllocVmcsMemory env s).2.log (afterVmcs env (hbAllocVmcsMemory env s).2).2.log :=
  (afterVmcs_spec (fun r _ => plain_request r _) plain_use (fun _ => plain_release)).2

theorem plain_vmcs : Extends Plain s.log (hbAllocVmcsMemory env s).2.log :=
  hbAllocVmcsMemory_extends (fun r _ => plain_request r _) (fun _ r _ => plain_release r)

theorem notifier_registered : .registerPmNotifier ∈ (afterVmcs env (hbAllocVmcsMemory env (notified env)).2).2.log ∧
    .unregisterPmNotifier ∉ (afterVmcs env (hbAllocVmcsMemory env (notified env)).2).2.log := by
  have vmcs : Extends Plain (notified env).log (hbAllocVmcsMemory env (notified env)).2.log := plain_vmcs
  have grows := vmcs.trans plain_run
  refine ⟨grows.keeps (by simp [notified]),fun removed => ?_⟩
  rcases grows.split removed with early | plain
  · simp [notified,use,request,loaded] at early
  · exact plain.2 rfl

theorem requestEach_log (rs : List Resource) :
    (requestEach env rs s).log = s.log ++ rs.map (fun r => .request r (env.obtains r)) := by
  induction rs using List.reverseRecOn with
  | nil => simp [requestEach]
  | append_singleton rs r ih =>
    simp only [requestEach,List.foldl_append,List.foldl_cons,List.foldl_nil,List.map_append] at ih ⊢
    rw [request,ih]
    simp

theorem allocCpus_refused {cpus : List Nat} (failed : (cpus.flatMap cpuResources).all env.obtains = false) :
    ∃ r, .request r false ∈ (allocCpus env cpus s).2.log := by
  induction cpus generalizing s with
  | nil => simp at failed
  | cons i rest ih =>
    simp only [allocCpus,requestEach_all]
    cases here : (cpuResources i).all env.obtains with
    | true =>
      rw [List.flatMap_cons,List.all_append,here,Bool.true_and] at failed
      simpa using ih failed
    | false =>
      obtain ⟨r,member,none⟩ := List.all_eq_false.mp here
      refine ⟨r,?_⟩
      have absent : env.obtains r = false := by simpa using none
      simp only [Bool.false_eq_true,if_false,requestEach_log,List.mem_append,List.mem_map]
      exact .inr ⟨r,member,by rw [absent]⟩

theorem vmcs_refused (failed : (allCpuResources env).all env.obtains = false) :
    ∃ r, .request r false ∈ (hbAllocVmcsMemory env s).2.log := by
  obtain ⟨r,asked⟩ := @allocCpus_refused env s _ failed
  have ok := allocCpus_ok env s (List.range env.cpuCount)
  refine ⟨r,?_⟩
  unfold hbAllocVmcsMemory
  generalize allocCpus env (List.range env.cpuCount) s = result at asked ok ⊢
  obtain ⟨_ | _,after⟩ := result
  · have freed : Extends (fun _ => True) after.log (freeRegions (allCpuResources env) after).2.log :=
      freeRegions_extends (fun _ _ => trivial)
    exact freed.keeps asked
  · exact asked

theorem afterVmcs_faulted (ept : (eptResources env).all env.obtains = true) (idt : env.obtains .hostIdt = false) :
    Extends SparesCpus s.log (afterVmcs env s).2.log := by
  have ok := hbAllocEptPages_ok env s
  have log : Extends SparesCpus s.log (hbAllocEptPages env s).2.log :=
    hbAllocEptPages_extends (fun r _ => spares_request r _)
  unfold afterVmcs
  generalize hbAllocEptPages env s = result at ok log ⊢
  obtain ⟨_ | _,s1⟩ := result
  · rw [ept] at ok
    cases ok
  have pages : Extends SparesCpus s1.log (hbSetupEptPagetable4KB env s1).log :=
    useEach_extends (fun r member => spares_use (mem_eptResources member))
  have page : Extends SparesCpus (hbSetupEptPagetable4KB env s1).log
      (hbSetupHostIdtAndProtect env (hbSetupEptPagetable4KB env s1)).2.log :=
    hbSetupHostIdtAndProtect_extends (spares_request _ _) (spares_use (by simp))
  have none := hbSetupHostIdtAndProtect_ok env (hbSetupEptPagetable4KB env s1)
  dsimp only
  generalize hbSetupHostIdtAndProtect env (hbSetupEptPagetable4KB env s1) = result at page none ⊢
  obtain ⟨_ | _,s2⟩ := result
  · exact log.trans (pages.trans page)
  · rw [idt] at none
    cases none

theorem vmcs_returns : (hbAllocVmcsMemory env (notified env)).1 = vmcsFreed env := by
  apply hbAllocVmcsMemory_ok
  intro r member
  obtain ⟨region,i,rfl⟩ := mem_cpuResources member
  simp [notified,use,request,loaded]

section Cases
variable (env) (goes : admitted env = true) (block : env.obtains .notifierBlock = true)

include goes block in
/-- The calls of `__free_pages` come before anything is used. -/
theorem atomic_of_null (null : vmcsFreed env = false) : Atomic (hyperBoxInit env) := by
  have stops : hyperBoxInit env = (.faulted,(hbAllocVmcsMemory env (notified env)).2) := by
    rw [hyperBoxInit_admitted env goes,if_pos block,vmcs_returns,null]
    rfl
  rw [stops]
  refine ⟨by simp,ordered_of_sparesCpus fun event member => ?_,by simp⟩
  have vmcs : Extends SparesCpus (notified env).log (hbAllocVmcsMemory env (notified env)).2.log :=
    hbAllocVmcsMemory_extends (fun r _ => spares_request r _) (fun _ r member => by
      obtain ⟨region,i,rfl⟩ := mem_cpuResources member
      exact spares_release region i)
  exact (vmcs.split member).elim sparesCpus_notified id

variable (freed : vmcsFreed env = true)
include goes block freed

theorem hyperBoxInit_goes : hyperBoxInit env = afterVmcs env (hbAllocVmcsMemory env (notified env)).2 := by
  rw [hyperBoxInit_admitted env goes,if_pos block,vmcs_returns,freed,if_pos rfl]

theorem hyperBoxInit_outcome : (hyperBoxInit env).1 = laterOutcome env := by
  rw [hyperBoxInit_goes env goes block freed]
  exact (afterVmcs_spec (fun r _ => plain_request r _) plain_use (fun _ => plain_release)).1

/-- Every failure after the registration leaves the notifier registered. -/
theorem not_atomic_of_failure (failed : laterOutcome env = .returned (-1)) : ¬ Atomic (hyperBoxInit env) := by
  intro atomic
  have outcome := (hyperBoxInit_outcome env goes block freed).trans failed
  have undone := (atomic.undone outcome).1
  rw [hyperBoxInit_goes env goes block freed] at undone
  exact notifier_registered.2 (undone notifier_registered.1)

theorem atomic_of_fault (ept : (eptResources env).all env.obtains = true) (idt : env.obtains .hostIdt = false) :
    Atomic (hyperBoxInit env) := by
  have outcome : (hyperBoxInit env).1 = .faulted := by
    rw [hyperBoxInit_outcome env goes block freed,laterOutcome,ept,idt]
    rfl
  refine ⟨fun success => ?_,fun before after r log => ?_,fun failure => ?_⟩
  · rw [outcome] at success
    cases success
  · rw [hyperBoxInit_goes env goes block freed] at log
    have vmcs : Extends SparesCpus (notified env).log (hbAllocVmcsMemory env (notified env)).2.log :=
      hbAllocVmcsMemory_extends (fun r _ => spares_request r _) (fun _ r member => by
        obtain ⟨region,i,rfl⟩ := mem_cpuResources member
        exact spares_release region i)
    have whole := vmcs.trans (afterVmcs_faulted ept idt)
    exact ordered_of_sparesCpus (fun event member => (whole.split member).elim sparesCpus_notified id) before after r log
  · rw [outcome] at failure
    cases failure

theorem not_atomic_of_vmcs (done : laterOutcome env = .returned 0)
    (failed : (allCpuResources env).all env.obtains = false) : ¬ Atomic (hyperBoxInit env) := by
  intro atomic
  obtain ⟨r,asked⟩ := @vmcs_refused env (notified env) failed
  refine atomic.complete ((hyperBoxInit_outcome env goes block freed).trans done) r ?_
  rw [hyperBoxInit_goes env goes block freed]
  exact plain_run.keeps asked

theorem atomic_of_success (vmcs : (allCpuResources env).all env.obtains = true)
    (later : (laterResources env).all env.obtains = true) (started : env.started = true) :
    Atomic (hyperBoxInit env) := by
  have granted : ∀ event ∈ (hyperBoxInit env).2.log, Granted event := by
    have asked : ∀ rs : List Resource, rs.all env.obtains = true →
        ∀ r ∈ rs, Granted (.request r (env.obtains r)) := by
      intro rs all r member
      rw [List.all_eq_true.mp all r member]
      exact granted_request r
    have first : Extends Granted (notified env).log (hbAllocVmcsMemory env (notified env)).2.log :=
      hbAllocVmcsMemory_extends (asked _ vmcs) (fun failed => by rw [vmcs] at failed; cases failed)
    have second : Extends Granted (hbAllocVmcsMemory env (notified env)).2.log
        (afterVmcs env (hbAllocVmcsMemory env (notified env)).2).2.log :=
      (afterVmcs_spec (asked _ later) granted_use
        (fun failed => by rw [later,started] at failed; cases failed)).2
    rw [hyperBoxInit_goes env goes block freed]
    intro event member
    rcases (first.trans second).split member with early | late
    · simp only [notified,use,request,loaded,block,List.nil_append,List.mem_append,List.mem_singleton] at early
      rcases early with (rfl | rfl) | rfl
      · exact granted_request _
      · exact granted_use _
      · exact granted_register
    · exact late
  have outcome : (hyperBoxInit env).1 = .returned 0 := by
    have split := laterResources_all env
    rw [later,eq_comm,Bool.and_eq_true,Bool.and_eq_true] at split
    rw [hyperBoxInit_outcome env goes block freed,laterOutcome,split.1,split.2.1,later,started]
    rfl
  refine ⟨fun _ r refused => (granted _ refused).1 r rfl,fun before after r log released => ?_,fun failure => ?_⟩
  · exact (granted (.release r) (by simp [log,released])).2 r rfl
  · rw [outcome] at failure
    cases failure

end Cases

end Whole

section Sample

def taskPoolFails : Env :=
  ⟨true,true,true,true,1,(Ept.hbAllocEptPages (Ept.maxRamSize 0)).pageCount,poolMaxCount 0,fun r => r != .taskPool,true⟩

theorem eptResources_taskPoolFails : (eptResources taskPoolFails).all taskPoolFails.obtains = true := by
  rw [List.all_eq_true]
  intro r member
  have other : r ≠ .taskPool := by
    intro same
    simp [eptResources,eptTables,same] at member
  simpa [taskPoolFails] using other

end Sample
end HyperBox.Start.Resources
