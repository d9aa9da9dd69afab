import HyperBox.Exit.Operand

/-! The handlers that store for the guest: SGDT and SIDT, SLDT and STR, and VMREAD to memory.
The processor checks their stores against the host page table but not against the extended
page table, which binds the guest only. -/
namespace HyperBox.Exit
open HyperBox.Library HyperBox.PageTable

structure ExitData where
  instInfo : U64
  instLength : U64
  exitQual : U64
  guestCr3 : U64
  systemShutdowning : Bool

structure GuestState where
  registers : GuestRegister
  rip : U64
  rflags : U64
  gdtrBase : U64
  gdtrLimit : U64
  idtrBase : U64
  idtrLimit : U64
  ldtrSelector : U64
  trSelector : U64
  descMonitor : Bool
  udInserted : Bool

/-- The state before the stores of a handler, and these stores in order. -/
structure Handled where
  tables : HostTables
  guest : GuestState
  stores : List HostStore

section Handlers
variable (env : RootEnv) (data : ExitData) (guest : GuestState) (s : HostTables)

def hbAdvanceVmGuestRip : GuestState := { guest with rip := guest.rip + data.instLength }

def destAddrOf : U64 :=
  (if vmInstInfoMemReg data.instInfo then hbGetRegValueFromIndex guest.registers (vmInstInfoReg1 data.instInfo)
    else hbCalcDestMemAddr guest.registers data.instInfo) + data.exitQual

/-- The two members of `struct desc_ptr`, in the order in which the handlers assign them. -/
def descStores (destAddr address size : U64) : List HostStore :=
  [⟨destAddr + 2,littleEndian 8 address⟩,⟨destAddr,littleEndian 2 size⟩]

def descLoad (destAddr : U64) : Option (U64 × U64) := do
  let address ← hostLoad s.mem env.control (destAddr + 2) 8
  let size ← hostLoad s.mem env.control destAddr 2
  return (address,size)

def hbVmExitCallbackGdtrIdtr : Handled :=
  if data.systemShutdowning then ⟨s,{ guest with descMonitor := false },[]⟩
  else
    let guest := hbAdvanceVmGuestRip data guest
    let destAddr := destAddrOf data guest
    match hbSyncPageTable env.toSyncEnv s destAddr data.guestCr3 true with
    | .error s => ⟨s,guest,[]⟩
    | .ok (s,_) =>
      match vmInstInfoInstIdentity data.instInfo with
      | 0 => ⟨s,guest,descStores destAddr guest.gdtrBase guest.gdtrLimit⟩
      | 1 => ⟨s,guest,descStores destAddr guest.idtrBase guest.idtrLimit⟩
      | 2 =>
        match descLoad env s destAddr with
        | some (address,size) => ⟨s,{ guest with gdtrBase := address, gdtrLimit := size },[]⟩
        | none => ⟨s,guest,[]⟩
      | _ =>
        match descLoad env s destAddr with
        | some (address,size) => ⟨s,{ guest with idtrBase := address, idtrLimit := size },[]⟩
        | none => ⟨s,guest,[]⟩

def deliver (memory : Bool) (destAddr value : U64) : Handled :=
  if memory then ⟨s,guest,hbSetValueToMemory data.instInfo destAddr value⟩
  else
    let registers := hbSetRegValueFromIndex guest.registers (vmInstInfoReg1 data.instInfo) value
    ⟨s,{ guest with registers := registers },[]⟩

def lldt (value : U64) : GuestState :=
  if value = 0 then { guest with ldtrSelector := value } else { guest with udInserted := true }

def ltr (value : U64) : GuestState := { guest with trSelector := value &&& 0xFFFF }

def ldtrTrInst (memory : Bool) (destAddr : U64) : Handled :=
  let value := if memory then hbGetValueFromMemory s.mem env.control data.instInfo destAddr else some destAddr
  match vmInstInfoInstIdentity data.instInfo with
  | 0 => deliver data guest s memory destAddr guest.ldtrSelector
  | 1 => deliver data guest s memory destAddr guest.trSelector
  | 2 => ⟨s,(value.map (lldt guest)).getD guest,[]⟩
  | _ => ⟨s,(value.map (ltr guest)).getD guest,[]⟩

def hbVmExitCallbackLdtrTr : Handled :=
  let destAddr := destAddrOf data guest
  let handled :=
    if vmInstInfoMemReg data.instInfo then ldtrTrInst env data guest s false destAddr
    else match hbSyncPageTable env.toSyncEnv s destAddr data.guestCr3 true with
      | .error s => ⟨s,guest,[]⟩
      | .ok (s,_) => ldtrTrInst env data guest s true destAddr
  { handled with guest := hbAdvanceVmGuestRip data handled.guest }

def rflagsResult : U64 := 0x41

/-- VMREAD in `hb_vm_exit_callback_vmx_inst_type2`. The argument says what the nested VMCS or
its slot holds in a field, if there is a slot and the VMCS can be loaded. -/
def hbVmExitCallbackVmread (nestedVmread : U64 → Option U64) : Handled :=
  let destAddr := destAddrOf data guest
  let regField := hbGetRegValueFromIndex guest.registers (vmInstInfoReg2 data.instInfo)
  let guest := hbAdvanceVmGuestRip data guest
  let guest := { guest with rflags := guest.rflags &&& ~~~rflagsResult }
  match nestedVmread regField with
  | none => ⟨s,guest,[]⟩
  | some value =>
    -- RSP is a field of the current VMCS, which is the nested one here.
    if vmInstInfoMemReg data.instInfo && vmInstInfoReg1 data.instInfo = 4 then ⟨s,guest,[]⟩
    else deliver data guest s (!vmInstInfoMemReg data.instInfo) destAddr value

end Handlers

inductive StoreExit where
  | gdtrIdtr
  | ldtrTr
  | vmread (nestedVmread : U64 → Option U64)

def StoreExit.handle (env : RootEnv) (data : ExitData) (guest : GuestState) (s : HostTables) : StoreExit → Handled
  | gdtrIdtr => hbVmExitCallbackGdtrIdtr env data guest s
  | ldtrTr => hbVmExitCallbackLdtrTr env data guest s
  | vmread nestedVmread => hbVmExitCallbackVmread data guest s nestedVmread

section Offsets

theorem offsets_nodup (addr : U64) {places : List Nat} (distinct : places.Nodup) (bound : ∀ k ∈ places, k < 4096) :
    (places.map (fun k => (addr.toNat + k) % 4096)).Nodup := by
  refine distinct.map_on (fun k hk m hm same => ?_)
  have low := bound k hk
  have low' := bound m hm
  omega

theorem setValue_nodup (instInfo addr value : U64) : (storeOffsets (hbSetValueToMemory instInfo addr value)).Nodup := by
  have single : ∀ count ≤ 8, (storeOffsets [⟨addr,littleEndian count value⟩]).Nodup := by
    intro count small
    have length : (littleEndian count value).length = count := by simp [littleEndian]
    simp only [storeOffsets,List.flatMap_cons,List.flatMap_nil,List.append_nil,length]
    exact offsets_nodup addr List.nodup_range (fun k member => by have := List.mem_range.mp member; omega)
  unfold hbSetValueToMemory
  split
  · exact single 2 (by decide)
  · exact single 4 (by decide)
  · exact single 8 (by decide)
  · exact List.nodup_nil

end Offsets
end HyperBox.Exit
