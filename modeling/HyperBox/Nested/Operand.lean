import HyperBox.Exit.Operand
import HyperBox.Nested.Exit

/-! The general registers of the guest as the handlers see them. The stub saves all of them
but RSP, which is a field of the VMCS that is current when a handler asks for it. -/
namespace HyperBox.Nested
open HyperBox.PageTable

def regNumRsp : Nat := 4

section Registers
variable {n : Nat} (env : VmxEnv n) (cpuId : Fin n) (guestContext : Exit.GuestRegister) (s : NestedState n)

def hbGetRegValueFromIndex (index : Nat) : U64 :=
  if index = regNumRsp then (hbReadVmcs env cpuId s vmGuestRsp).getD 0
  else Exit.hbGetRegValueFromIndex guestContext index

def hbSetRegValueFromIndex (index : Nat) (regValue : U64) : Exit.GuestRegister × NestedState n :=
  if index = regNumRsp then (guestContext,hbWriteVmcs env cpuId s vmGuestRsp regValue)
  else (Exit.hbSetRegValueFromIndex guestContext index regValue,s)

variable {env cpuId guestContext s}

theorem hbReadVmcs_core {field : U64} (real : s.current cpuId ≠ noVmcs) (core : field ∈ coreFields)
    (low : highAccess field = false) : hbReadVmcs env cpuId s field = some (s.field (s.current cpuId) field) := by
  have supported := (env.core field core).1
  simp [hbReadVmcs,real,supported,Region.read,low,NestedState.field]

theorem hbGetReg_rsp (real : s.current cpuId ≠ noVmcs) :
    hbGetRegValueFromIndex env cpuId guestContext s regNumRsp = s.field (s.current cpuId) vmGuestRsp := by
  rw [hbGetRegValueFromIndex,if_pos rfl,hbReadVmcs_core real (by simp [coreFields]) (by decide),Option.getD_some]

end Registers
end HyperBox.Nested
