import HyperBox.Exit.Store

/-! The address of a memory operand. The processor computes it from the registers, the scale and
the displacement, cuts it off at the address size and adds the base of the segment; the handlers
stop after the sum. -/
namespace HyperBox.Exit
open HyperBox.Library HyperBox.PageTable

section Architecture
variable (guest : GuestRegister) (fsBase gsBase instInfo displacement : U64)

def segReg : Nat := ((instInfo >>> 15) &&& 0x07).toNat

/-- In 64-bit mode only FS and GS have a base. -/
def segmentBase : U64 :=
  match segReg instInfo with
  | 4 => fsBase
  | 5 => gsBase
  | _ => 0

def addressBits : Nat :=
  match vmInstInfoAddrSize instInfo with
  | 0 => 16
  | 1 => 32
  | _ => 64

def cutOff (addr : U64) : U64 := (addr.setWidth (addressBits instInfo)).setWidth 64

def effectiveAddress : U64 :=
  (if vmInstInfoBaseRegInvalid instInfo then 0 else hbGetRegValueFromIndex guest (vmInstInfoBaseReg instInfo)) +
    (if vmInstInfoIdxRegInvalid instInfo then 0
      else hbGetRegValueFromIndex guest (vmInstInfoIdxReg instInfo) * BitVec.ofNat 64 (2^vmInstInfoScale instInfo)) +
    displacement

def linearAddress : U64 :=
  cutOff instInfo (effectiveAddress guest instInfo displacement) + segmentBase fsBase gsBase instInfo

end Architecture

/-- The handlers that compute the address of an operand. Those of VMXON, VMCLEAR, VMPTRLD and
VMPTRST have no register form and do not ask for one. -/
inductive OperandHandler where
  | gdtrIdtr
  | ldtrTr
  | vmxInstType1
  | vmxInstType2

def OperandHandler.destAddr (data : ExitData) (guest : GuestState) : OperandHandler → U64
  | gdtrIdtr => destAddrOf data (hbAdvanceVmGuestRip data guest)
  | ldtrTr => destAddrOf data guest
  | vmxInstType1 => hbCalcDestMemAddr guest.registers data.instInfo + data.exitQual
  | vmxInstType2 => destAddrOf data guest

section Sum
variable (guest : GuestRegister) (instInfo displacement : U64)

theorem shift_mul (value : U64) (scale : Nat) : value <<< scale = value * BitVec.ofNat 64 (2^scale) := by
  apply BitVec.eq_of_toNat_eq
  rw [BitVec.toNat_shiftLeft,BitVec.toNat_mul,BitVec.toNat_ofNat,Nat.shiftLeft_eq,Nat.mul_mod_mod]

theorem hbCalcDestMemAddr_sum :
    hbCalcDestMemAddr guest instInfo + displacement = effectiveAddress guest instInfo displacement := by
  unfold hbCalcDestMemAddr effectiveAddress
  rw [shift_mul]
  cases vmInstInfoBaseRegInvalid instInfo with
  | true => simp
  | false =>
    simp only [Bool.false_eq_true,if_false]
    rw [BitVec.add_comm (hbGetRegValueFromIndex guest (vmInstInfoBaseReg instInfo))]

theorem destAddr_sum {data : ExitData} {guest : GuestState} (memory : vmInstInfoMemReg data.instInfo = false)
    (handler : OperandHandler) :
    handler.destAddr data guest = effectiveAddress guest.registers data.instInfo data.exitQual := by
  rw [← hbCalcDestMemAddr_sum]
  cases handler <;> simp [OperandHandler.destAddr,destAddrOf,hbAdvanceVmGuestRip,memory]

end Sum

section Difference
variable (fsBase gsBase instInfo addr : U64)

/-- A sum is right as it stands if the segment base makes up for what the address size cuts off. -/
theorem sum_linear_iff :
    addr = cutOff instInfo addr + segmentBase fsBase gsBase instInfo ↔
      segmentBase fsBase gsBase instInfo = addr - cutOff instInfo addr := by
  constructor
  · intro same
    rw [eq_comm,BitVec.sub_eq_iff_eq_add,BitVec.add_comm]
    exact same
  · intro base
    rw [base,BitVec.add_comm,BitVec.sub_add_cancel]

theorem cutOff_wide (wide : addressBits instInfo = 64) : cutOff instInfo addr = addr := by
  simp [cutOff,wide]

end Difference

/-- For a memory operand, the handlers use the processor's address exactly if the base of the
segment equals the part of the sum that the address size cuts off: with 64-bit addressing,
if there is no base. -/
theorem handler_address_iff (handler : OperandHandler) (data : ExitData) (guest : GuestState) (fsBase gsBase : U64)
    (memory : vmInstInfoMemReg data.instInfo = false) :
    handler.destAddr data guest = linearAddress guest.registers fsBase gsBase data.instInfo data.exitQual ↔
      segmentBase fsBase gsBase data.instInfo =
        effectiveAddress guest.registers data.instInfo data.exitQual -
          cutOff data.instInfo (effectiveAddress guest.registers data.instInfo data.exitQual) := by
  rw [destAddr_sum memory,linearAddress]
  exact sum_linear_iff fsBase gsBase data.instInfo _

section Sample

def sampleRegisters : GuestRegister := ⟨0x1000,0,0,0,0,0,0,0,0,0,0,0,0,0,0,0⟩

def sampleGuest : GuestState := ⟨sampleRegisters,0x100,0x2,0,0,0,0,0,0,false,false⟩

def operandData (segment : U64) : ExitData := ⟨(0x2 <<< 7) ||| (segment <<< 15) ||| (0x1 <<< 22),3,16,0x3000,false⟩

theorem handler_address_sample :
    OperandHandler.vmxInstType1.destAddr (operandData 3) sampleGuest =
      linearAddress sampleRegisters 0x7000 0 (operandData 3).instInfo (operandData 3).exitQual :=
  (handler_address_iff .vmxInstType1 (operandData 3) sampleGuest 0x7000 0 (by decide)).mpr (by decide)

/-- With an FS override the handlers use an address outside the segment. -/
theorem handler_address_fs :
    OperandHandler.vmxInstType1.destAddr (operandData 4) sampleGuest = 0x1010 ∧
    linearAddress sampleRegisters 0x7000 0 (operandData 4).instInfo (operandData 4).exitQual = 0x8010 := by
  decide

end Sample
end HyperBox.Exit
