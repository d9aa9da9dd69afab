import HyperBox.Exit.Address
import HyperBox.Nested.Operand
import HyperBox.Nested.Result

/-! VMREAD and VMWRITE with their operands. The handler computes one value for the operand, of
whatever form: the address of a memory operand or the contents of a register. VMWRITE writes this
value; VMREAD delivers to it while the nested VMCS is the current one, RSP included. -/
namespace HyperBox.Nested
open HyperBox.Library HyperBox.PageTable HyperBox.Ept

inductive Type2Reason where
  | vmread
  | vmwrite

/-- An exit on VMREAD or VMWRITE, with the guest's memory as the eight bytes at each linear
address. The processor reports no displacement for a register operand. -/
structure OperandExit (n : Nat) where
  cpuId : Fin n
  saved : U64 → U64
  stale : U64
  guestContext : Exit.GuestRegister
  instInfo : U64
  exitQual : U64
  memory : U64 → U64
  registerQual : Exit.vmInstInfoMemReg instInfo → exitQual = 0

structure OperandHandled (n : Nat) where
  nested : NestedState n
  guestContext : Exit.GuestRegister
  stores : List Exit.HostStore

namespace OperandExit
variable {n : Nat} (exit : OperandExit n)

def isRegister : Bool := Exit.vmInstInfoMemReg exit.instInfo
def reg1 : Nat := Exit.vmInstInfoReg1 exit.instInfo
def reg2 : Nat := Exit.vmInstInfoReg2 exit.instInfo
def toRsp : Bool := exit.isRegister && exit.reg1 = regNumRsp

section Handler
variable (env : VmxEnv n) (s : NestedState n)

def guestAt : Exit.GuestRegister :=
  { exit.guestContext with rsp := (hbReadVmcs env exit.cpuId s vmGuestRsp).getD 0 }

def destAddr : U64 :=
  (if exit.isRegister then hbGetRegValueFromIndex env exit.cpuId exit.guestContext s exit.reg1
    else Exit.hbCalcDestMemAddr (exit.guestAt env s) exit.instInfo) + exit.exitQual

def regField : U64 := hbGetRegValueFromIndex env exit.cpuId exit.guestContext s exit.reg2

/-- The destination is written before the previous VMCS is loaded again. -/
def deliver (prevVmcs destAddr tempValue : U64) : OperandHandled n :=
  if exit.isRegister then
    let stored := hbSetRegValueFromIndex env exit.cpuId exit.guestContext s exit.reg1 tempValue
    ⟨(hbLoadVmcs env exit.cpuId stored.2 prevVmcs).2,stored.1,[]⟩
  else
    ⟨(hbLoadVmcs env exit.cpuId s prevVmcs).2,exit.guestContext,
      Exit.hbSetValueToMemory exit.instInfo destAddr tempValue⟩

def emulateVmread (slot : Fin maxNestedVmcs) (prevVmcs regField destAddr : U64) : OperandHandled n :=
  match hbLoadVmcs env exit.cpuId s (s.nestedVmcsPtr exit.cpuId) with
  | (false,s) => ⟨s,exit.guestContext,[]⟩
  | (true,s) =>
    exit.deliver env s prevVmcs destAddr (nestedFieldValue env exit.cpuId s (s.nestedVmcsArray slot) regField)

def hbVmExitCallbackVmxInstType2 (reason : Type2Reason) : OperandHandled n :=
  let destAddr := exit.destAddr env s
  let regField := exit.regField env s
  let s := hbAdvanceVmGuestRip env exit.cpuId exit.stale s
  let s := hbClearVmxInstFlags env exit.cpuId exit.stale s
  let prevVmcs := hbStoreVmcs exit.cpuId s
  match hbFindNestedVmcsStruct s.nestedVmcsArray (s.nestedVmcsPtr exit.cpuId) with
  | none => ⟨s,exit.guestContext,[]⟩
  | some slot =>
    let s := s.updateSlot slot (fun entry => { entry with vmcsPtr := s.nestedVmcsPtr exit.cpuId })
    match reason with
    | .vmwrite => ⟨emulateVmwrite env exit.cpuId s slot prevVmcs regField destAddr,exit.guestContext,[]⟩
    | .vmread => exit.emulateVmread env s slot prevVmcs regField destAddr

end Handler

section Guest

def guest : Exit.GuestRegister := { exit.guestContext with rsp := exit.saved vmGuestRsp }

def operandSum : U64 :=
  (if exit.isRegister then Exit.hbGetRegValueFromIndex exit.guest exit.reg1
    else Exit.hbCalcDestMemAddr exit.guest exit.instInfo) + exit.exitQual

def field : U64 := Exit.hbGetRegValueFromIndex exit.guest exit.reg2

def inst : Type2Reason → VmxInst
  | .vmread => .vmread exit.field exit.toRsp
  | .vmwrite => .vmwrite exit.field exit.operandSum

def taken (reason : Type2Reason) : VmxExit n := ⟨exit.cpuId,exit.saved,exit.stale,exit.inst reason⟩

def started (env : VmxEnv n) (s : NestedState n) (reason : Type2Reason) : NestedState n :=
  hbWriteVmcs env exit.cpuId (vmExit (exit.taken reason) s) vmCtrlVmEntryInstLength 0

def handled (env : VmxEnv n) (s : NestedState n) (reason : Type2Reason) : OperandHandled n :=
  exit.hbVmExitCallbackVmxInstType2 env (exit.started env s reason) reason

def linear : U64 :=
  Exit.linearAddress exit.guest (exit.saved vmGuestFsBase) (exit.saved vmGuestGsBase) exit.instInfo exit.exitQual

def value : U64 :=
  if exit.isRegister then Exit.hbGetRegValueFromIndex exit.guest exit.reg1 else exit.memory exit.linear

/-- The handler's eight bytes are those of the operand: no segment base, addresses of 64 bits. -/
def IsWide : Prop :=
  Exit.vmInstInfoAddrSize exit.instInfo = 2 ∧
    Exit.segmentBase (exit.saved vmGuestFsBase) (exit.saved vmGuestGsBase) exit.instInfo = 0

/-- VMREAD has brought a value to its destination. -/
def Delivered (env : VmxEnv n) (handled : OperandHandled n) (value : U64) : Prop :=
  if exit.isRegister then
    hbGetRegValueFromIndex env exit.cpuId handled.guestContext handled.nested exit.reg1 = value
  else handled.stores = [⟨exit.linear,Exit.littleEndian 8 value⟩]

end Guest

section Decode
variable {env : VmxEnv n} {s : NestedState n} {exit}

theorem guestAt_register (index : Nat) : Exit.hbGetRegValueFromIndex (exit.guestAt env s) index =
    hbGetRegValueFromIndex env exit.cpuId exit.guestContext s index := by
  unfold hbGetRegValueFromIndex
  split
  next rsp =>
    subst rsp
    rfl
  next other =>
    unfold Exit.hbGetRegValueFromIndex
    split <;> first | rfl | exact absurd rfl other

variable (home : s.current exit.cpuId = env.guestVmcsPhyAddr exit.cpuId)
  (rsp : s.field (env.guestVmcsPhyAddr exit.cpuId) vmGuestRsp = exit.saved vmGuestRsp)
include home rsp

theorem guestAt_eq : exit.guestAt env s = exit.guest := by
  have real := home_real home
  rw [guestAt,hbReadVmcs_core real (by simp [coreFields]) (by decide),home,rsp]
  rfl

theorem destAddr_eq : exit.destAddr env s = exit.operandSum := by
  rw [destAddr,operandSum,← guestAt_register,guestAt_eq home rsp]

theorem regField_eq : exit.regField env s = exit.field := by
  rw [regField,field,← guestAt_register,guestAt_eq home rsp]

end Decode

section Refine
variable {env : VmxEnv n} {s : NestedState n} {exit}

theorem emulateVmread_nested (slot : Fin maxNestedVmcs) (prevVmcs regField destAddr : U64) :
    (exit.emulateVmread env s slot prevVmcs regField destAddr).nested =
      Nested.emulateVmread env exit.cpuId s slot prevVmcs regField exit.toRsp := by
  unfold emulateVmread Nested.emulateVmread
  rcases hbLoadVmcs_cases env exit.cpuId s (s.nestedVmcsPtr exit.cpuId) with loaded | failed
  · rw [loaded]
    dsimp only [deliver]
    cases register : exit.isRegister with
    | false => simp [toRsp,register]
    | true =>
      by_cases rsp : exit.reg1 = regNumRsp
      · simp [hbSetRegValueFromIndex,toRsp,register,rsp]
      · simp [hbSetRegValueFromIndex,toRsp,register,rsp]
  · rw [failed]

theorem type2_nested (reason : Type2Reason) (home : s.current exit.cpuId = env.guestVmcsPhyAddr exit.cpuId)
    (rsp : s.field (env.guestVmcsPhyAddr exit.cpuId) vmGuestRsp = exit.saved vmGuestRsp) :
    (exit.hbVmExitCallbackVmxInstType2 env s reason).nested =
      Nested.hbVmExitCallbackVmxInstType2 env exit.cpuId exit.stale s (exit.inst reason) := by
  unfold hbVmExitCallbackVmxInstType2 Nested.hbVmExitCallbackVmxInstType2
  rw [destAddr_eq home rsp,regField_eq home rsp]
  dsimp only
  generalize hbClearVmxInstFlags env exit.cpuId exit.stale (hbAdvanceVmGuestRip env exit.cpuId exit.stale s) = s'
  cases hbFindNestedVmcsStruct s'.nestedVmcsArray (s'.nestedVmcsPtr exit.cpuId) with
  | none => rfl
  | some slot =>
    cases reason with
    | vmread => exact emulateVmread_nested _ _ _ _
    | vmwrite => rfl

theorem started_home (reason : Type2Reason) (home : s.current exit.cpuId = env.guestVmcsPhyAddr exit.cpuId) :
    (exit.started env s reason).current exit.cpuId = env.guestVmcsPhyAddr exit.cpuId := by
  rw [started,hbWriteVmcs_current]
  exact home

theorem started_saved (reason : Type2Reason) (home : s.current exit.cpuId = env.guestVmcsPhyAddr exit.cpuId) :
    (exit.started env s reason).field (env.guestVmcsPhyAddr exit.cpuId) vmGuestRsp = exit.saved vmGuestRsp := by
  have other : fieldKey vmCtrlVmEntryInstLength ≠ vmGuestRsp := by decide
  have saved : savedOnExit vmGuestRsp = true := by decide
  rw [started,hbWriteVmcs_field_other other,← home]
  simp [vmExit,taken,NestedState.field,Region.save,saved]

/-- The handler with its operands does to the VMCSs what the emulation does with the decoded
instruction. -/
theorem handled_nested (reason : Type2Reason) (home : s.current exit.cpuId = env.guestVmcsPhyAddr exit.cpuId) :
    (exit.handled env s reason).nested = Nested.hbVmExitCallbackVmxInstType2 env exit.cpuId exit.stale
      (exit.started env s reason) (exit.inst reason) :=
  type2_nested reason (started_home reason home) (started_saved reason home)

end Refine

end OperandExit
end HyperBox.Nested
