import HyperBox.Exit.Address
import HyperBox.Nested.Control

/-! VMPTRST and the pointer that it is to store. What a guest hypervisor has done on a CPU
defines a current-VMCS pointer; Hyper-box keeps it, with 0 for none, but the handler that
VMPTRST shares with VMXON, VMCLEAR and VMPTRLD has no case that stores it. -/
namespace HyperBox.Nested
open HyperBox.Library HyperBox.PageTable

inductive Type1Reason where
  | vmclear
  | vmxon
  | vmptrld
  | vmptrst

def Type1Reason.inst (data : U64) : Type1Reason → VmxInst
  | vmclear => .vmclear data
  | vmxon => .vmxon
  | vmptrld => .vmptrld data
  | vmptrst => .vmptrst

/-- An exit of such an instruction, with the memory and the tables that the handler finds. -/
structure Type1Exit (n : Nat) where
  cpuId : Fin n
  stale : U64
  data : Exit.ExitData
  guestContext : Exit.GuestRegister
  tables : HostTables

structure Type1Handled (n : Nat) where
  nested : NestedState n
  tables : HostTables
  stores : List Exit.HostStore

namespace Type1Exit
variable {n : Nat} (sync : Exit.RootEnv) (env : VmxEnv n) (exit : Type1Exit n) (s : NestedState n)

def destAddr : U64 := Exit.hbCalcDestMemAddr exit.guestContext exit.data.instInfo + exit.data.exitQual

/-- The pool of tables may be empty and the operand may have no page: then the handler does not
come back. It loads the operand of every instruction and stores to none. -/
def hbVmExitCallbackVmxInstType1 (reason : Type1Reason) : Option (Type1Handled n) := do
  let (tables,_) ← (hbSyncPageTable sync.toSyncEnv exit.tables exit.destAddr exit.data.guestCr3 true).toOption
  let data ← Exit.hostLoad tables.mem sync.control exit.destAddr 8
  let nested := Nested.hbVmExitCallbackVmxInstType1 env exit.cpuId exit.stale s (reason.inst data)
  return ⟨nested,tables,[]⟩

end Type1Exit

section History
variable {n : Nat} (env : VmxEnv n) (cpuId : Fin n)

/-- The current-VMCS pointer after an instruction, as the processor defines it. -/
def pointerAfter (pointer : Option U64) : VmxInst → Option U64
  | .vmptrld data => some data
  | .vmclear data => if pointer = some data then none else pointer
  | .vmxoff => none
  | .vmptrst => pointer
  | .vmxon => pointer
  | .vmread _ _ => pointer
  | .vmwrite _ _ => pointer
  | .invalidate => pointer
  | .vmlaunch => pointer
  | .vmresume => pointer

def definedPointer (history : List VmxInst) : Option U64 := run pointerAfter none history

/-- The instructions that are emulated for the guest hypervisor of a CPU in a run. -/
def emulated : NestedState n → List (VmxEvent n) → List VmxInst
  | _,[] => []
  | s,.exit taken::rest =>
    let later := emulated (vmxStep env s (.exit taken)) rest
    if taken.cpuId = cpuId ∧ s.current cpuId = env.guestVmcsPhyAddr cpuId then taken.inst::later else later
  | s,.shadowed other field value::rest => emulated (vmxStep env s (.shadowed other field value)) rest

def StoresPointer (sync : Exit.RootEnv) (exit : Type1Exit n) (s : NestedState n) (history : List VmxInst) : Prop :=
  ∃ handled, exit.hbVmExitCallbackVmxInstType1 sync env s .vmptrst = some handled ∧
    ⟨exit.destAddr,Exit.littleEndian 8 ((definedPointer history).getD noVmcs)⟩ ∈ handled.stores

end History

section Pointer

def Unloads (data : U64) (inst : VmxInst) : Prop :=
  inst = .vmclear data ∨ inst = .vmxoff ∨ ∃ other, inst = .vmptrld other

theorem pointerAfter_some {inst : VmxInst} {pointer : Option U64} {data : U64} :
    pointerAfter pointer inst = some data ↔ inst = .vmptrld data ∨ pointer = some data ∧ ¬ Unloads data inst := by
  cases inst with
  | vmclear other =>
    by_cases same : pointer = some other
    · simp [pointerAfter,Unloads,same]
    · simp only [pointerAfter,same,if_false,Unloads]
      constructor
      · rintro rfl
        simpa [eq_comm] using same
      · rintro (load | ⟨held,_⟩)
        · cases load
        · exact held
  | vmptrld other => simp [pointerAfter,Unloads]
  | vmxoff => simp [pointerAfter,Unloads]
  | vmptrst | vmxon | vmread | vmwrite | invalidate | vmlaunch | vmresume => simp [pointerAfter,Unloads]

/-- The pointer is the operand of the last VMPTRLD, if no VMCLEAR of the same address and no
VMXOFF follows it. -/
theorem definedPointer_iff (history : List VmxInst) (data : U64) :
    definedPointer history = some data ↔
      ∃ before after, history = before ++ .vmptrld data::after ∧ ∀ inst ∈ after, ¬ Unloads data inst := by
  induction history using List.reverseRecOn with
  | nil => simp [definedPointer]
  | append_singleton earlier inst ih =>
    rw [definedPointer,run_append,← definedPointer,run_cons,run_nil,pointerAfter_some,ih]
    constructor
    · rintro (rfl | ⟨⟨before,after,rfl,kept⟩,keeps⟩)
      · exact ⟨earlier,[],rfl,by simp⟩
      · refine ⟨before,after ++ [inst],by simp,?_⟩
        intro later member
        rcases List.mem_append.mp member with inside | last
        · exact kept later inside
        · exact List.mem_singleton.mp last ▸ keeps
    · rintro ⟨before,after,split,kept⟩
      induction after using List.reverseRecOn with
      | nil =>
        obtain ⟨_,last⟩ := List.append_inj' split rfl
        exact .inl (List.singleton_inj.mp last)
      | append_singleton after last _ =>
        rw [← List.cons_append,← List.append_assoc] at split
        obtain ⟨rfl,same⟩ := List.append_inj' split rfl
        obtain rfl := List.singleton_inj.mp same
        refine .inr ⟨⟨before,after,rfl,?_⟩,kept inst (by simp)⟩
        intro later inside
        exact kept later (by simp [inside])

variable {n : Nat} {env : VmxEnv n} {cpuId : Fin n}

theorem setPointer_self (t : SlotState n) (addr : U64) : (t.setPointer cpuId addr).pointer cpuId = addr := by
  simp [SlotState.setPointer]

theorem handle_pointerAfter (t : SlotState n) {pointer : Option U64} (same : t.pointer cpuId = pointer.getD 0)
    (inst : VmxInst) : (t.handle cpuId inst).pointer cpuId = (pointerAfter pointer inst).getD 0 := by
  cases inst with
  | vmclear data =>
    simp only [SlotState.handle,pointerAfter,same]
    cases pointer with
    | none =>
      obtain rfl | other := eq_or_ne data 0
      · simp [setPointer_self]
      · rw [Option.getD_none,if_neg (Ne.symm other)]
        exact same
    | some held =>
      by_cases cleared : held = data
      · simp [cleared,setPointer_self]
      · simp [cleared,same]
  | vmptrld data => exact setPointer_self t data
  | vmxoff => exact setPointer_self t 0
  | vmread | vmwrite | invalidate => exact (congrFun (t.claimSlot_pointer cpuId _) cpuId).trans same
  | vmptrst | vmxon | vmlaunch | vmresume => exact same

theorem handle_elsewhere (t : SlotState n) {other : Fin n} (differ : cpuId ≠ other) (inst : VmxInst) :
    (t.handle other inst).pointer cpuId = t.pointer cpuId := by
  cases inst with
  | vmclear data =>
    simp only [SlotState.handle]
    split
    · exact Function.update_of_ne differ _ _
    · rfl
  | vmptrld | vmxoff => exact Function.update_of_ne differ _ _
  | vmread | vmwrite | invalidate => exact congrFun (t.claimSlot_pointer other _) cpuId
  | vmptrst | vmxon | vmlaunch | vmresume => rfl

theorem run_pointer (s : NestedState n) {pointer : Option U64} (same : s.nestedVmcsPtr cpuId = pointer.getD 0)
    (events : List (VmxEvent n)) : (run (vmxStep env) s events).nestedVmcsPtr cpuId =
      (run pointerAfter pointer (emulated env cpuId s events)).getD 0 := by
  induction events generalizing s pointer with
  | nil => exact same
  | cons event rest ih =>
    have slots := congrArg (fun t => t.pointer cpuId) (slots_vmxStep env s event)
    cases event with
    | shadowed other field value => exact ih _ (slots.trans same)
    | exit taken =>
      rw [run_cons,emulated]
      by_cases here : taken.cpuId = cpuId
      · subst here
        by_cases home : s.current taken.cpuId = env.guestVmcsPhyAddr taken.cpuId
        · simp only [home,if_true] at slots
          simp only [home,and_self,if_true,run_cons]
          exact ih _ (slots.trans (handle_pointerAfter s.slots same taken.inst))
        · simp only [home,if_false] at slots
          simp only [home,and_false,if_false]
          exact ih _ (slots.trans same)
      · simp only [here,false_and,if_false]
        refine ih _ (slots.trans ?_)
        dsimp only
        split
        · exact (handle_elsewhere s.slots (Ne.symm here) taken.inst).trans same
        · exact same

/-- Hyper-box keeps the pointer that the history defines, with 0 for none. -/
theorem pointer_tracked {start : NestedState n} (fresh : start.nestedVmcsPtr cpuId = 0) (events : List (VmxEvent n)) :
    (run (vmxStep env) start events).nestedVmcsPtr cpuId =
      (definedPointer (emulated env cpuId start events)).getD 0 :=
  run_pointer start fresh events

end Pointer

section Main
variable {n : Nat}

theorem type1_stores (sync : Exit.RootEnv) (env : VmxEnv n) (exit : Type1Exit n) (s : NestedState n) (reason : Type1Reason)
    {handled : Type1Handled n} (comes : exit.hbVmExitCallbackVmxInstType1 sync env s reason = some handled) :
    handled.stores = [] := by
  simp only [Type1Exit.hbVmExitCallbackVmxInstType1,Option.bind_eq_bind,Option.bind_eq_some_iff,Option.pure_def,
    Option.some.injEq] at comes
  obtain ⟨_,_,_,_,rfl⟩ := comes
  rfl

/-- No VMPTRST, after any run, stores the pointer that the instructions of the run define. -/
theorem pointer_never_stored (sync : Exit.RootEnv) (env : VmxEnv n) (start : NestedState n) (events : List (VmxEvent n))
    (exit : Type1Exit n) : ¬ StoresPointer env sync exit (run (vmxStep env) start events)
      (emulated env exit.cpuId start events) := by
  rintro ⟨handled,comes,stored⟩
  rw [type1_stores sync env exit _ .vmptrst comes] at stored
  exact List.not_mem_nil stored

end Main

section Sample

def operandTables : HostTables := ⟨Paged.setPage sampleMem Exit.sampleRoot.root (sampleMem 0x40),0,0,[]⟩

def vmptrstExit : Type1Exit 1 :=
  ⟨launchExit.cpuId,0,{ Exit.operandData 3 with guestCr3 := sampleCr3 },Exit.sampleRegisters,operandTables⟩

theorem pointer_not_stored :
    definedPointer (emulated sampleVmx 0 sampleLaunch [sampleExit (.vmptrld 0x5000)]) = some 0x5000 ∧
    (vmptrstExit.hbVmExitCallbackVmxInstType1 Exit.sampleRoot sampleVmx
      (run (vmxStep sampleVmx) sampleLaunch [sampleExit (.vmptrld 0x5000)]) .vmptrst).isSome ∧
    ¬ StoresPointer sampleVmx Exit.sampleRoot vmptrstExit
      (run (vmxStep sampleVmx) sampleLaunch [sampleExit (.vmptrld 0x5000)])
      (emulated sampleVmx 0 sampleLaunch [sampleExit (.vmptrld 0x5000)]) := by
  refine ⟨by decide +kernel,by decide +kernel,?_⟩
  rintro ⟨handled,comes,stored⟩
  rw [type1_stores Exit.sampleRoot sampleVmx vmptrstExit _ .vmptrst comes] at stored
  exact List.not_mem_nil stored

end Sample
end HyperBox.Nested
