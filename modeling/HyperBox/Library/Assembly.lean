import HyperBox.Library.Memory
import Mathlib.Logic.Function.Iterate

/-! Assembly code on a 64-bit processor: the general registers, two flags, a byte memory with
the stack, and whatever else there is as a parameter. Code runs instruction by instruction; the
instructions that the language does not know, and the procedures called, are parameters too. -/
namespace HyperBox.Library

inductive Reg where
  | rax | rbx | rcx | rdx | rbp | rsp | rsi | rdi
  | r8 | r9 | r10 | r11 | r12 | r13 | r14 | r15
deriving DecidableEq

structure Machine (σ : Type*) where
  regs : Reg → Word
  cf : Bool
  zf : Bool
  mem : Memory
  rest : σ

/-- `op` stands for an instruction and `call` for a procedure given from outside. -/
inductive Instr (L ι : Type*) where
  | label (l : L)
  | push (r : Reg)
  | pop (r : Reg)
  | mov (dst src : Reg)
  | movLow (dst src : Reg)
  | movImm (dst : Reg) (value : Word)
  | xor (dst src : Reg)
  | or (dst src : Reg)
  | shl (dst : Reg) (count : Nat)
  | shr (dst : Reg) (count : Nat)
  | add (dst : Reg) (value : Word)
  | addDistance (dst : Reg) (first second : L)
  | cmp (r : Reg) (value : Word)
  | bts (dst : Reg) (bit : Nat)
  | btc (dst : Reg) (bit : Nat)
  | jmp (l : L)
  | jc (l : L)
  | jz (l : L)
  | jne (l : L)
  | callLabel (l : L)
  | call (o : ι)
  | op (o : ι)
  | ret
deriving DecidableEq

/-- An instruction from outside goes on to the next one, or the processor leaves the code. -/
inductive Outcome (σ : Type*) where
  | next (m : Machine σ)
  | leaves (m : Machine σ)

structure Surroundings (ι σ : Type*) where
  place : Nat → Word
  exec : ι → Machine σ → Outcome σ

inductive Config (L ι σ : Type*) where
  | running (code : List (Instr L ι)) (m : Machine σ)
  | returned (addr : Word) (m : Machine σ)
  | gone (o : ι) (m : Machine σ)
  | lost (m : Machine σ)

namespace Machine
variable {σ : Type*} (m : Machine σ)

def set (r : Reg) (value : Word) : Machine σ := { m with regs := Function.update m.regs r value }

def push (value : Word) : Machine σ :=
  let sp := m.regs .rsp - 8
  { m.set .rsp sp with mem := storeWord m.mem sp value }

/-- POP RSP would keep the popped value; the pointer is raised first. -/
def pop (r : Reg) : Machine σ := (m.set .rsp (m.regs .rsp + 8)).set r (loadWord m.mem (m.regs .rsp))

def flags (cf zf : Bool) : Machine σ := { m with cf := cf, zf := zf }

def pushWords (values : List Word) : Machine σ := values.foldl push m

def pushAll (rs : List Reg) : Machine σ := rs.foldl (fun m r => m.push (m.regs r)) m

def popAll (rs : List Reg) : Machine σ := rs.foldl pop m

@[simp] theorem set_mem (r : Reg) (value : Word) : (m.set r value).mem = m.mem := rfl

@[simp] theorem set_rest (r : Reg) (value : Word) : (m.set r value).rest = m.rest := rfl

@[simp] theorem set_cf (r : Reg) (value : Word) : (m.set r value).cf = m.cf := rfl

@[simp] theorem set_zf (r : Reg) (value : Word) : (m.set r value).zf = m.zf := rfl

@[simp] theorem set_self (r : Reg) (value : Word) : (m.set r value).regs r = value := Function.update_self _ _ _

@[simp] theorem set_of_ne {r q : Reg} (apart : q ≠ r) (value : Word) : (m.set r value).regs q = m.regs q :=
  Function.update_of_ne apart _ _

@[simp] theorem flags_regs (cf zf : Bool) : (m.flags cf zf).regs = m.regs := rfl

@[simp] theorem flags_mem (cf zf : Bool) : (m.flags cf zf).mem = m.mem := rfl

@[simp] theorem flags_rest (cf zf : Bool) : (m.flags cf zf).rest = m.rest := rfl

@[simp] theorem push_rsp (value : Word) : (m.push value).regs .rsp = m.regs .rsp - 8 := by simp [push]

@[simp] theorem push_of_ne {q : Reg} (apart : q ≠ .rsp) (value : Word) : (m.push value).regs q = m.regs q := by
  simp [push,apart]

@[simp] theorem push_mem (value : Word) : (m.push value).mem = storeWord m.mem (m.regs .rsp - 8) value := rfl

@[simp] theorem push_rest (value : Word) : (m.push value).rest = m.rest := rfl

@[simp] theorem pop_self (r : Reg) : (m.pop r).regs r = loadWord m.mem (m.regs .rsp) := by simp [pop]

theorem pop_rsp {r : Reg} (apart : r ≠ .rsp) : (m.pop r).regs .rsp = m.regs .rsp + 8 := by
  simp [pop,apart.symm]

theorem pop_of_ne {r q : Reg} (other : q ≠ r) (apart : q ≠ .rsp) : (m.pop r).regs q = m.regs q := by
  simp [pop,other,apart]

@[simp] theorem pop_mem (r : Reg) : (m.pop r).mem = m.mem := rfl

@[simp] theorem pop_rest (r : Reg) : (m.pop r).rest = m.rest := rfl

@[simp] theorem pop_cf (r : Reg) : (m.pop r).cf = m.cf := rfl

@[simp] theorem pop_zf (r : Reg) : (m.pop r).zf = m.zf := rfl

end Machine

section Stack
variable {σ : Type*} {m : Machine σ} {rs : List Reg} {values : List Word}

@[simp] theorem pushWords_rest : (m.pushWords values).rest = m.rest := by
  induction values generalizing m with
  | nil => rfl
  | cons value values ih => exact ih

theorem pushWords_of_ne {q : Reg} (apart : q ≠ .rsp) : (m.pushWords values).regs q = m.regs q := by
  induction values generalizing m with
  | nil => rfl
  | cons value values ih => exact ih.trans (m.push_of_ne apart _)

theorem pushWords_rsp : (m.pushWords values).regs .rsp = m.regs .rsp - BitVec.ofNat 64 (8 * values.length) := by
  induction values generalizing m with
  | nil => simp [Machine.pushWords]
  | cons value values ih =>
    have next : (m.pushWords (value::values)).regs .rsp = ((m.push value).pushWords values).regs .rsp := rfl
    rw [next,ih,Machine.push_rsp,List.length_cons]
    bv_omega

theorem push_above (m : Machine σ) (value : Word) {n : Nat} (room : 8 * (n + 1) ≤ 2^64) :
    loadWords (m.push value).mem (m.regs .rsp) n = loadWords m.mem (m.regs .rsp) n := by
  apply loadWords_store
  unfold Outside
  bv_omega

theorem push_words (m : Machine σ) (value : Word) {n : Nat} (room : 8 * (n + 1) ≤ 2^64) :
    loadWords (m.push value).mem ((m.push value).regs .rsp) (n + 1) = value::loadWords m.mem (m.regs .rsp) n := by
  rw [Machine.push_rsp,loadWords,BitVec.sub_add_cancel,push_above m value room,Machine.push_mem,loadWord_storeWord]

variable (values) in
/-- What was pushed lies below the words that were on the stack, the last one first. -/
theorem pushWords_words (n : Nat) (room : 8 * (values.length + n) ≤ 2^64) :
    loadWords (m.pushWords values).mem ((m.pushWords values).regs .rsp) (values.length + n) =
      values.reverse ++ loadWords m.mem (m.regs .rsp) n := by
  induction values generalizing m n with
  | nil => simp [Machine.pushWords]
  | cons value values ih =>
    rw [List.length_cons] at room
    have step := ih (m := m.push value) (n + 1) (by omega)
    rw [push_words m _ (by omega)] at step
    have shape : (value::values).length + n = values.length + (n + 1) := by
      rw [List.length_cons]
      omega
    rw [shape,List.reverse_cons,List.append_assoc,List.singleton_append]
    exact step

/-- Nothing at or above the stack pointer changes. -/
theorem pushWords_mem {addr : Word} (apart : (addr - m.regs .rsp).toNat + 8 * values.length < 2^64) :
    (m.pushWords values).mem addr = m.mem addr := by
  induction values generalizing m with
  | nil => rfl
  | cons value values ih =>
    rw [List.length_cons] at apart
    have lower : (addr - (m.push value).regs .rsp).toNat + 8 * values.length < 2^64 := by
      rw [Machine.push_rsp]
      bv_omega
    refine (ih lower).trans ?_
    rw [Machine.push_mem]
    apply storeWord_elsewhere
    bv_omega

theorem pushAll_eq (stackless : .rsp ∉ rs) : m.pushAll rs = m.pushWords (rs.map m.regs) := by
  induction rs generalizing m with
  | nil => rfl
  | cons r rs ih =>
    have same : rs.map (m.push (m.regs r)).regs = rs.map m.regs := by
      apply List.map_congr_left
      intro q member
      exact m.push_of_ne (fun stack => stackless (stack ▸ List.mem_cons_of_mem _ member)) _
    have next := ih (m := m.push (m.regs r)) (fun member => stackless (List.mem_cons_of_mem _ member))
    rw [same] at next
    exact next

@[simp] theorem popAll_mem : (m.popAll rs).mem = m.mem := by
  induction rs generalizing m with
  | nil => rfl
  | cons r rs ih => exact ih

@[simp] theorem popAll_rest : (m.popAll rs).rest = m.rest := by
  induction rs generalizing m with
  | nil => rfl
  | cons r rs ih => exact ih

theorem popAll_rsp (stackless : .rsp ∉ rs) :
    (m.popAll rs).regs .rsp = m.regs .rsp + BitVec.ofNat 64 (8 * rs.length) := by
  induction rs generalizing m with
  | nil => simp [Machine.popAll]
  | cons r rs ih =>
    obtain ⟨here,later⟩ := List.ne_and_not_mem_of_not_mem_cons stackless
    have next : (m.popAll (r::rs)).regs .rsp = ((m.pop r).popAll rs).regs .rsp := rfl
    rw [next,ih later,m.pop_rsp here.symm,List.length_cons]
    bv_omega

theorem popAll_of_notMem {q : Reg} (kept : q ∉ rs) (apart : q ≠ .rsp) : (m.popAll rs).regs q = m.regs q := by
  induction rs generalizing m with
  | nil => rfl
  | cons r rs ih =>
    obtain ⟨here,later⟩ := List.ne_and_not_mem_of_not_mem_cons kept
    exact (ih later).trans (m.pop_of_ne here apart)

/-- The registers popped, in order, are the words on the stack. -/
theorem popAll_words (distinct : rs.Nodup) (stackless : .rsp ∉ rs) :
    rs.map (m.popAll rs).regs = loadWords m.mem (m.regs .rsp) rs.length := by
  induction rs generalizing m with
  | nil => rfl
  | cons r rs ih =>
    obtain ⟨here,later⟩ := List.ne_and_not_mem_of_not_mem_cons stackless
    obtain ⟨once,rest⟩ := List.nodup_cons.mp distinct
    have first : (m.popAll (r::rs)).regs r = loadWord m.mem (m.regs .rsp) :=
      (popAll_of_notMem once here.symm).trans (m.pop_self r)
    have tail : rs.map (m.popAll (r::rs)).regs = loadWords m.mem (m.regs .rsp + 8) rs.length := by
      rw [← m.pop_rsp here.symm,← m.pop_mem r]
      exact ih rest later
    rw [List.map_cons,first,tail,List.length_cons,loadWords]

/-- Registers saved on the stack come back from there, whatever happened to them in between. -/
theorem saved_restored {mid : Machine σ} (distinct : rs.Nodup) (stackless : .rsp ∉ rs)
    (room : 8 * (rs.length + 1) ≤ 2^64) (rsp : mid.regs .rsp = (m.pushAll rs).regs .rsp)
    (mem : mid.mem = (m.pushAll rs).mem) :
    (∀ r ∈ rs, (mid.popAll rs.reverse).regs r = m.regs r) ∧ (mid.popAll rs.reverse).regs .rsp = m.regs .rsp ∧
      loadWord mid.mem (m.regs .rsp) = loadWord m.mem (m.regs .rsp) := by
  have apart : .rsp ∉ rs.reverse := by simpa using stackless
  have lower : mid.regs .rsp = m.regs .rsp - BitVec.ofNat 64 (8 * rs.length) := by
    rw [rsp,pushAll_eq stackless,pushWords_rsp,List.length_map]
  have words := pushWords_words (m := m) (rs.map m.regs) 1 (by rw [List.length_map]; exact room)
  rw [← pushAll_eq stackless,List.length_map,← mem,← rsp,← List.map_reverse] at words
  obtain ⟨below,above⟩ := loadWords_split (by simp) words
  rw [lower,BitVec.sub_add_cancel] at above
  have popped := popAll_words (m := mid) (List.nodup_reverse.mpr distinct) apart
  rw [List.length_reverse,below] at popped
  refine ⟨?_,?_,(List.cons.inj above).1⟩
  · intro r member
    exact List.map_inj_left.mp popped r (List.mem_reverse.mpr member)
  · rw [popAll_rsp apart,List.length_reverse,lower,BitVec.sub_add_cancel]

end Stack

/-- A procedure has returned: RAX holds its result, and all else that the caller relies on is as
it was, with the return address taken from the stack. The memory is that at the entry, up to
some bytes below the stack pointer. -/
structure ReturnsTo {σ : Type*} (room : Nat) (m m' : Machine σ) (result : Word) : Prop where
  rax : m'.regs .rax = result
  rsp : m'.regs .rsp = m.regs .rsp + 8
  kept : ∀ r, r ≠ .rax → r ≠ .rsp → m'.regs r = m.regs r
  stack : ∀ addr, (addr - m.regs .rsp).toNat + room < 2^64 → m'.mem addr = m.mem addr

section Execution
variable {L ι σ : Type*} [DecidableEq L] [DecidableEq ι] (code : List (Instr L ι)) (env : Surroundings ι σ)

/-- The code from a label on. -/
def target (l : L) : List (Instr L ι) := code.dropWhile fun i => decide (i ≠ .label l)

def placeOf (rest : List (Instr L ι)) : Word := env.place (code.length - rest.length)

def goIf (taken : Bool) (l : L) (rest : List (Instr L ι)) (m : Machine σ) : Config L ι σ :=
  .running (if taken then target code l else rest) m

def step : Config L ι σ → Config L ι σ
  | .running [] m => .lost m
  | .running (i::rest) m =>
    match i with
    | .label _ => .running rest m
    | .push r => .running rest (m.push (m.regs r))
    | .pop r => .running rest (m.pop r)
    | .mov dst src => .running rest (m.set dst (m.regs src))
    | .movLow dst src => .running rest (m.set dst (((m.regs src).setWidth 32).setWidth 64))
    | .movImm dst value => .running rest (m.set dst value)
    | .xor dst src =>
      let value := m.regs dst ^^^ m.regs src
      .running rest ((m.set dst value).flags false (value == 0))
    | .or dst src =>
      let value := m.regs dst ||| m.regs src
      .running rest ((m.set dst value).flags false (value == 0))
    | .shl dst count =>
      let value := m.regs dst <<< count
      .running rest ((m.set dst value).flags ((m.regs dst).getLsbD (64 - count)) (value == 0))
    | .shr dst count =>
      let value := m.regs dst >>> count
      .running rest ((m.set dst value).flags ((m.regs dst).getLsbD (count - 1)) (value == 0))
    | .add dst value =>
      let sum := m.regs dst + value
      .running rest ((m.set dst sum).flags (decide (sum < m.regs dst)) (sum == 0))
    | .addDistance dst first second =>
      let sum := m.regs dst + (placeOf code env (target code first) - placeOf code env (target code second))
      .running rest ((m.set dst sum).flags (decide (sum < m.regs dst)) (sum == 0))
    | .cmp r value => .running rest (m.flags (decide (m.regs r < value)) (m.regs r == value))
    | .bts dst bit =>
      .running rest ((m.set dst (m.regs dst ||| 1 <<< bit)).flags ((m.regs dst).getLsbD bit) m.zf)
    | .btc dst bit =>
      .running rest ((m.set dst (m.regs dst ^^^ 1 <<< bit)).flags ((m.regs dst).getLsbD bit) m.zf)
    | .jmp l => .running (target code l) m
    | .jc l => goIf code m.cf l rest m
    | .jz l => goIf code m.zf l rest m
    | .jne l => goIf code (!m.zf) l rest m
    | .callLabel l => .running (target code l) (m.push (placeOf code env rest))
    | .call o =>
      match env.exec o (m.push (placeOf code env rest)) with
      | .next m' => .running rest m'
      | .leaves m' => .gone o m'
    | .op o =>
      match env.exec o m with
      | .next m' => .running rest m'
      | .leaves m' => .gone o m'
    | .ret => .returned (loadWord m.mem (m.regs .rsp)) (m.set .rsp (m.regs .rsp + 8))
  | done => done

def Reaches (start finish : Config L ι σ) : Prop := ∃ n, (step code env)^[n] start = finish

variable {code env} {start middle finish : Config L ι σ}

theorem Reaches.refl (start : Config L ι σ) : Reaches code env start start := ⟨0,rfl⟩

theorem Reaches.head (later : Reaches code env (step code env start) finish) : Reaches code env start finish := by
  obtain ⟨n,reached⟩ := later
  exact ⟨n + 1,reached⟩

theorem Reaches.next (steps : step code env start = middle) (later : Reaches code env middle finish) :
    Reaches code env start finish := .head (steps ▸ later)

theorem Reaches.trans (first : Reaches code env start middle) (second : Reaches code env middle finish) :
    Reaches code env start finish := by
  obtain ⟨n,toMiddle⟩ := first
  obtain ⟨k,toFinish⟩ := second
  refine ⟨k + n,?_⟩
  rw [Function.iterate_add_apply,toMiddle,toFinish]

theorem reaches_pushes (rs : List Reg) (rest : List (Instr L ι)) (m : Machine σ) :
    Reaches code env (.running (rs.map .push ++ rest) m) (.running rest (m.pushAll rs)) := by
  induction rs generalizing m with
  | nil => exact .refl _
  | cons r rs ih => exact .head (ih (m.push (m.regs r)))

theorem reaches_pops (rs : List Reg) (rest : List (Instr L ι)) (m : Machine σ) :
    Reaches code env (.running (rs.map .pop ++ rest) m) (.running rest (m.popAll rs)) := by
  induction rs generalizing m with
  | nil => exact .refl _
  | cons r rs ih => exact .head (ih (m.pop r))

/-- What every step keeps holds wherever a run gets to. -/
theorem Reaches.keeps {P : Config L ι σ → Prop} (keeps : ∀ c, P c → P (step code env c)) (initial : P start)
    (reached : Reaches code env start finish) : P finish := by
  obtain ⟨n,rfl⟩ := reached
  induction n with
  | zero => exact initial
  | succ n ih =>
    rw [Function.iterate_succ_apply']
    exact keeps _ ih

/-- A run that comes to rest passes everything that is reached from where it started. -/
theorem Reaches.passes (rests : step code env finish = finish) (first : Reaches code env start middle)
    (second : Reaches code env start finish) : Reaches code env middle finish := by
  obtain ⟨n,toMiddle⟩ := first
  obtain ⟨k,toFinish⟩ := second
  refine ⟨k,?_⟩
  rw [← toMiddle,← Function.iterate_add_apply,Nat.add_comm,Function.iterate_add_apply,toFinish,
    Function.iterate_fixed rests]

theorem Reaches.rested (rests : step code env start = start) (reached : Reaches code env start finish) : finish = start := by
  obtain ⟨n,rfl⟩ := reached
  exact Function.iterate_fixed rests n

end Execution

section Calls
variable {κ L ι σ : Type*} [DecidableEq L] [DecidableEq ι] (code : κ → List (Instr L ι)) (env : Surroundings ι σ)

/-- A procedure is called with two arguments. -/
structure Call (κ : Type*) where
  procedure : κ
  first : Word
  second : Word
  back : Word

/-- How a caller in C gets there. -/
def Machine.callWith (m : Machine σ) (call : Call κ) : Machine σ :=
  ((m.set .rdi call.first).set .rsi call.second).push call.back

/-- What the procedures are meant to do: the result, and what becomes of the rest. -/
abbrev Specification (κ σ : Type*) := κ → Word → Word → σ → Word → Word × σ

/-- Every procedure returns with the result and the rest as specified. RAX may matter to those
that have no result. -/
def Implements (spec : Specification κ σ) (room : Nat) : Prop :=
  ∀ k (m : Machine σ), ∃ m', Reaches (code k) env (.running (code k) m) (.returned (loadWord m.mem (m.regs .rsp)) m') ∧
    ReturnsTo room m m' (spec k (m.regs .rdi) (m.regs .rsi) m.rest (m.regs .rax)).1 ∧
    m'.rest = (spec k (m.regs .rdi) (m.regs .rsi) m.rest (m.regs .rax)).2

/-- Calls one after the other, with what is in RAX after each. -/
inductive CallRun : Machine σ → List (Call κ) → List Word → Machine σ → Prop where
  | done (m : Machine σ) : CallRun m [] [] m
  | call {m m' last : Machine σ} {call : Call κ} {calls : List (Call κ)} {results : List Word} :
      Reaches (code call.procedure) env (.running (code call.procedure) (m.callWith call)) (.returned call.back m') →
      CallRun m' calls results last → CallRun m (call::calls) (m'.regs .rax::results) last

def specRun (spec : Specification κ σ) (rest : σ) (rax : Word) : List (Call κ) → List Word × σ
  | [] => ([],rest)
  | call::calls =>
    let (result,rest') := spec call.procedure call.first call.second rest rax
    let (results,last) := specRun spec rest' result calls
    (result::results,last)

/-- What a caller keeps across calls. -/
structure Undisturbed (room : Nat) (m m' : Machine σ) : Prop where
  rsp : m'.regs .rsp = m.regs .rsp
  kept : ∀ r, r ≠ .rax → r ≠ .rdi → r ≠ .rsi → m'.regs r = m.regs r
  stack : ∀ addr, (addr - m.regs .rsp).toNat + (room + 8) < 2^64 → m'.mem addr = m.mem addr

variable {code env} {spec : Specification κ σ} {room : Nat} {m : Machine σ}

theorem callWith_regs (call : Call κ) : (m.callWith call).regs .rdi = call.first ∧
    (m.callWith call).regs .rsi = call.second ∧ (m.callWith call).regs .rax = m.regs .rax ∧
    (m.callWith call).regs .rsp = m.regs .rsp - 8 := by
  refine ⟨?_,?_,?_,?_⟩ <;> simp [Machine.callWith]

theorem Implements.call (implements : Implements code env spec room) (m : Machine σ) (call : Call κ) :
    ∃ m', Reaches (code call.procedure) env (.running (code call.procedure) (m.callWith call)) (.returned call.back m') ∧
      m'.regs .rax = (spec call.procedure call.first call.second m.rest (m.regs .rax)).1 ∧
      m'.rest = (spec call.procedure call.first call.second m.rest (m.regs .rax)).2 ∧ Undisturbed room m m' := by
  obtain ⟨m',reached,returns,rest⟩ := implements call.procedure (m.callWith call)
  obtain ⟨rdi,rsi,rax,rsp⟩ := callWith_regs (m := m) call
  have back : loadWord (m.callWith call).mem ((m.callWith call).regs .rsp) = call.back := by
    rw [rsp]
    exact loadWord_storeWord _
  have kept : (m.callWith call).rest = m.rest := rfl
  rw [back] at reached
  rw [rdi,rsi,rax,kept] at returns rest
  refine ⟨m',reached,returns.rax,rest,?_,?_,?_⟩
  · rw [returns.rsp,rsp,BitVec.sub_add_cancel]
  · intro r notRax notRdi notRsi
    by_cases stack : r = .rsp
    · rw [stack,returns.rsp,rsp,BitVec.sub_add_cancel]
    · rw [returns.kept r notRax stack]
      simp [Machine.callWith,stack,notRdi,notRsi]
  · intro addr above
    rw [returns.stack addr (by rw [rsp]; bv_omega)]
    apply storeWord_elsewhere
    simp only [Machine.set_of_ne _ (show Reg.rsp ≠ .rsi by decide),Machine.set_of_ne _ (show Reg.rsp ≠ .rdi by decide)]
    bv_omega

theorem Undisturbed.trans {m' m'' : Machine σ} (first : Undisturbed room m m') (second : Undisturbed room m' m'') :
    Undisturbed room m m'' where
  rsp := second.rsp.trans first.rsp
  kept r rax rdi rsi := (second.kept r rax rdi rsi).trans (first.kept r rax rdi rsi)
  stack addr above := (second.stack addr (by rwa [first.rsp])).trans (first.stack addr above)

theorem callRun_exists (implements : Implements code env spec room) (m : Machine σ) (calls : List (Call κ)) :
    ∃ results last, CallRun code env m calls results last := by
  induction calls generalizing m with
  | nil => exact ⟨[],m,.done m⟩
  | cons call calls ih =>
    obtain ⟨m',reached,_⟩ := implements.call m call
    obtain ⟨results,last,later⟩ := ih m'
    exact ⟨_,last,.call reached later⟩

/-- Any sequence of calls gives the results specified and disturbs nothing else. -/
theorem callRun_spec (implements : Implements code env spec room) {calls : List (Call κ)} {results : List Word}
    {last : Machine σ} (calling : CallRun code env m calls results last) :
    results = (specRun spec m.rest (m.regs .rax) calls).1 ∧ last.rest = (specRun spec m.rest (m.regs .rax) calls).2 ∧
      Undisturbed room m last := by
  induction calling with
  | done m => exact ⟨rfl,rfl,rfl,fun _ _ _ _ => rfl,fun _ _ => rfl⟩
  | @call m m' last call calls results reached later ih =>
    obtain ⟨done,reached',rax,rest,same⟩ := implements.call m call
    obtain rfl : m' = done := by
      have here := (reached'.passes rfl reached).rested rfl
      rw [Config.returned.injEq] at here
      exact here.2
    obtain ⟨results',last',others⟩ := ih
    rw [rest,rax] at results' last'
    exact ⟨by rw [results',rax]; rfl,last',same.trans others⟩

end Calls

section Addresses
variable {L ι σ : Type*} (code : List (Instr L ι)) (env : Surroundings ι σ)

/-- Two places of the code are one address exactly if there are only labels between them. -/
def Located : Prop := ∀ i j, i ≤ j → j ≤ code.length →
  (env.place i = env.place j ↔ ∀ k, i ≤ k → k < j → ∃ l, code[k]? = some (.label l))

/-- The addresses of instructions that lie one after the other. -/
def laidOut (base : Word) (size : Instr L ι → Nat) (code : List (Instr L ι)) (k : Nat) : Word :=
  base + BitVec.ofNat 64 ((code.take k).map size).sum

variable {code env}

theorem located_laidOut {base : Word} {size : Instr L ι → Nat} (labels : ∀ i, size i = 0 ↔ ∃ l, i = .label l)
    (small : (code.map size).sum < 2^64) (places : env.place = laidOut base size code) : Located code env := by
  intro i j ordered inside
  have split : code.take j = code.take i ++ (code.drop i).take (j - i) := by
    rw [← List.take_add,Nat.add_sub_cancel' ordered]
  have whole : ((code.take j).map size).sum ≤ (code.map size).sum := by
    conv => rhs; rw [← List.take_append_drop j code]
    rw [List.map_append,List.sum_append]
    exact Nat.le_add_right _ _
  have between : ((code.take j).map size).sum = ((code.take i).map size).sum +
      (((code.drop i).take (j - i)).map size).sum := by
    rw [split,List.map_append,List.sum_append]
  have same : env.place i = env.place j ↔ (((code.drop i).take (j - i)).map size).sum = 0 := by
    rw [places,laidOut,laidOut,BitVec.add_right_inj,← BitVec.toNat_inj,BitVec.toNat_ofNat,BitVec.toNat_ofNat,
      Nat.mod_eq_of_lt (by omega),Nat.mod_eq_of_lt (by omega)]
    omega
  rw [same,List.sum_eq_zero_iff_forall_eq_nat]
  constructor
  · intro zero k above below
    have here : ((code.drop i).take (j - i)).length = j - i := by
      rw [List.length_take,List.length_drop]
      omega
    have member : code[k] ∈ (code.drop i).take (j - i) := by
      rw [List.mem_iff_getElem]
      exact ⟨k - i,by omega,by simp [Nat.add_sub_cancel' above]⟩
    obtain ⟨l,label⟩ := (labels code[k]).mp (zero _ (List.mem_map_of_mem member))
    exact ⟨l,by rw [List.getElem?_eq_getElem (by omega),label]⟩
  · intro all value member
    obtain ⟨x,listed,rfl⟩ := List.mem_map.mp member
    obtain ⟨t,bound,rfl⟩ := List.mem_iff_getElem.mp listed
    rw [List.length_take,List.length_drop] at bound
    obtain ⟨l,label⟩ := all (i + t) (by omega) (by omega)
    rw [labels]
    refine ⟨l,?_⟩
    rw [List.getElem?_eq_getElem (by omega),Option.some.injEq] at label
    simpa using label

variable (code env)

/-- What runs at an address. -/
def continueAt (addr : Word) (m : Machine σ) : Config L ι σ :=
  match (List.range (code.length + 1)).find? fun k => env.place k == addr with
  | some k => .running (code.drop k) m
  | none => .lost m

variable {code env}

theorem continueAt_place (located : Located code env) {k : Nat} (inside : k + 1 < code.length)
    (before : ∀ l, code[k]? ≠ some (.label l)) (m : Machine σ) :
    continueAt code env (env.place (k + 1)) m = .running (code.drop (k + 1)) m := by
  have found : (List.range (code.length + 1)).find? (fun i => env.place i == env.place (k + 1)) = some (k + 1) := by
    rw [List.find?_range_eq_some]
    refine ⟨by simp,by simp; omega,?_⟩
    intro i below
    rw [Bool.not_eq_true',beq_eq_false_iff_ne]
    intro same
    obtain ⟨l,here⟩ := (located i (k + 1) (by omega) (by omega)).mp same k (by omega) (by omega)
    exact before l here
  rw [continueAt,found]

end Addresses

end HyperBox.Library
