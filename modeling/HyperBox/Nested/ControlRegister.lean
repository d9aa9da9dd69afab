import HyperBox.Ept.Violation
import HyperBox.Nested.Operand
import HyperBox.Nested.OwnVmcs

/-! The control registers of the guest. The guest/host masks make the processor exit on a MOV
that would change a bit of theirs; the handler then carries out the MOV, except for the bits
that Hyper-box pins. The other handlers write fields that have nothing to do with them. -/
namespace HyperBox.Nested.ControlRegister
open HyperBox.Library HyperBox.PageTable HyperBox.Ept

def vmGuestCr0 : U64 := 0x6800
def vmGuestCr4 : U64 := 0x6804
def vmCtrlCr0GuestHostMask : U64 := 0x6000
def vmCtrlCr4GuestHostMask : U64 := 0x6002
def vmCtrlCr0ReadShadow : U64 := 0x6004
def vmCtrlCr4ReadShadow : U64 := 0x6006
def vmCtrlVmEntryIntInfoField : U64 := 0x4016
def vmCtrlVmEntryExceptErrCode : U64 := 0x4018

def cr4BitMce : U64 := 0x01 <<< 6
def cr4BitVmxe : U64 := 0x01 <<< 13
def cr4BitSmep : U64 := 0x01 <<< 20

def crFields : List U64 :=
  [vmGuestCr0,vmGuestCr4,vmCtrlCr0GuestHostMask,vmCtrlCr4GuestHostMask,vmCtrlCr0ReadShadow,vmCtrlCr4ReadShadow]

/-- Every processor with VMX has the fields for control registers, their masks and shadows. -/
structure CrEnv (n : Nat) extends VmxEnv n where
  crFields : ∀ field ∈ ControlRegister.crFields, supported field ∧ writable field

/-- The masks and shadows as `hb_setup_vm_control_register` chooses them. -/
def crControls : List (U64 × U64) :=
  [(vmCtrlCr0GuestHostMask,cr0BitWp),(vmCtrlCr4GuestHostMask,cr4BitVmxe ||| cr4BitSmep ||| cr4BitMce),
    (vmCtrlCr0ReadShadow,cr0BitWp),(vmCtrlCr4ReadShadow,cr4BitVmxe ||| cr4BitSmep)]

def hbSetupVmcsControls {n : Nat} (env : VmxEnv n) (cpuId : Fin n) (s : NestedState n) : NestedState n :=
  run (fun s control => hbWriteVmcs env cpuId s control.1 control.2) s crControls

section Processor

/-- A MOV of the guest that changes a bit of the mask against the shadow exits and leaves the
register to the handler; any other one keeps the bits of the mask. -/
def movToCr (mask shadow cr value : U64) : U64 :=
  if (value ^^^ shadow) &&& mask = 0 then (cr &&& mask) ||| (value &&& ~~~mask) else cr

/-- The fields that the handlers of the remaining exits write. -/
def otherFields : List U64 :=
  [vmGuestRip,vmGuestRsp,vmGuestRflags,vmCtrlSecProcBasedExeCtrl,vmCtrlVmEntryIntInfoField,
    vmCtrlVmEntryExceptErrCode,0x6816,0x4810,0x6818,0x4812,0x80C,0x80E,0x482E]

inductive ExitReason where
  | vmx (inst : VmxInst)
  | ctrlRegAccess (exitQual cr2 cr8 : U64)
  | eptViolation (atSleepNotify shutdowning workaround : Bool)
  | other (writes : List ({ field // field ∈ otherFields } × U64))

/-- An exit on a CPU, with the writes to CR0 and CR4 since the last entry, exiting or not. A CLTS
or LMSW is the MOV that changes the same bits. -/
structure GuestExit (n : Nat) where
  cpuId : Fin n
  cr0Writes : List U64
  cr4Writes : List U64
  saved : U64 → U64
  stale : U64
  registers : Exit.GuestRegister
  reason : ExitReason

def GuestExit.savedFields {n : Nat} (exit : GuestExit n) (region : Region) (field : U64) : U64 :=
  if field = vmGuestCr0 then
    run (movToCr (region.fields vmCtrlCr0GuestHostMask) (region.fields vmCtrlCr0ReadShadow))
      (region.fields vmGuestCr0) exit.cr0Writes
  else if field = vmGuestCr4 then
    run (movToCr (region.fields vmCtrlCr4GuestHostMask) (region.fields vmCtrlCr4ReadShadow))
      (region.fields vmGuestCr4) exit.cr4Writes
  else exit.saved field

end Processor

def ctrlRegNumber (exitQual : U64) : Nat := (exitQual &&& 0xF).toNat
def accType (exitQual : U64) : Nat := ((exitQual >>> 4) &&& 0x3).toNat
def gpRegNumber (exitQual : U64) : Nat := ((exitQual >>> 8) &&& 0xF).toNat

def moveToCr : Nat := 0
def moveFromCr : Nat := 1

section Handlers
variable {n : Nat} (env : VmxEnv n) (cpuId : Fin n) (stale : U64)

def readCr (cr2 cr8 : U64) (s : NestedState n) : Nat → U64
  | 0 => (hbReadVmcs env cpuId s vmGuestCr0).getD 0
  | 2 => cr2
  | 3 => (hbReadVmcs env cpuId s vmGuestCr3).getD 0
  | 4 => (hbReadVmcs env cpuId s vmGuestCr4).getD 0
  | 8 => cr8
  | _ => 0

/-- CR2 and CR8 are not fields of the VMCS, and the handler drops a MOV to them. -/
def writeCr (regValue : U64) (s : NestedState n) : Nat → NestedState n
  | 0 => hbWriteVmcs env cpuId s vmGuestCr0 (regValue ||| cr0BitWp)
  | 3 => hbWriteVmcs env cpuId s vmGuestCr3 regValue
  | 4 => hbWriteVmcs env cpuId s vmGuestCr4 ((regValue ||| (cr4BitVmxe ||| cr4BitSmep)) &&& ~~~cr4BitMce)
  | _ => s

def hbVmExitCallbackAccessCr (guestContext : Exit.GuestRegister) (exitQual cr2 cr8 : U64) (s : NestedState n) :
    Exit.GuestRegister × NestedState n :=
  let handled :=
    if accType exitQual = moveFromCr then
      hbSetRegValueFromIndex env cpuId guestContext s (gpRegNumber exitQual)
        (readCr env cpuId cr2 cr8 s (ctrlRegNumber exitQual))
    else if accType exitQual = moveToCr then
      let regValue := hbGetRegValueFromIndex env cpuId guestContext s (gpRegNumber exitQual)
      (guestContext,writeCr env cpuId regValue s (ctrlRegNumber exitQual))
    else (guestContext,s)
  (handled.1,hbAdvanceVmGuestRip env cpuId stale handled.2)

def hbInsertUdExceptionToVm (s : NestedState n) : NestedState n :=
  let s := hbWriteVmcs env cpuId s vmCtrlVmEntryIntInfoField vmEntryIntInfoUd
  hbWriteVmcs env cpuId s vmCtrlVmEntryExceptErrCode 0

/-- What `hb_vm_exit_callback_ept_violation` does to the VMCS; the pages it unlocks or locks
in its other branches are those of `HyperBox.Ept`. -/
def hbVmExitCallbackEptViolation (atSleepNotify shutdowning workaround : Bool) (s : NestedState n) :
    NestedState n :=
  if atSleepNotify || shutdowning || workaround then s
  else
    let s := hbInsertUdExceptionToVm env cpuId s
    let cr0 := (hbReadVmcs env cpuId s vmGuestCr0).getD stale
    if cr0 &&& cr0BitPg ≠ 0 ∧ cr0 &&& cr0BitWp = 0 then hbWriteVmcs env cpuId s vmGuestCr0 (cr0 ||| cr0BitWp)
    else s

def handle (guestContext : Exit.GuestRegister) (s : NestedState n) : ExitReason → NestedState n
  | .vmx inst => dispatch env cpuId stale s inst
  | .ctrlRegAccess exitQual cr2 cr8 =>
    (hbVmExitCallbackAccessCr env cpuId stale guestContext exitQual cr2 cr8 s).2
  | .eptViolation atSleepNotify shutdowning workaround =>
    hbVmExitCallbackEptViolation env cpuId stale atSleepNotify shutdowning workaround s
  | .other writes => run (fun s write => hbWriteVmcs env cpuId s write.1.val write.2) s writes

def isBackToVm : ExitReason → Bool
  | .vmx inst => Nested.isBackToVm inst
  | _ => false

end Handlers

section Callback
variable {n : Nat} (env : VmxEnv n) (exit : GuestExit n) (s : NestedState n)

def hbVmExitCallback : NestedState n :=
  if hbStoreVmcs exit.cpuId s ≠ env.guestVmcsPhyAddr exit.cpuId then exitFromVm env exit.cpuId exit.stale s
  else
    let s := hbWriteVmcs env exit.cpuId s vmCtrlVmEntryInstLength 0
    let s := handle env exit.cpuId exit.stale exit.registers s exit.reason
    if env.supportVmcsShadowing && !isBackToVm exit.reason && s.nestedVmcsPtr exit.cpuId ≠ 0 then
      hbVmSetVmcsShadowingToCurrent env exit.cpuId s (s.nestedVmcsPtr exit.cpuId)
    else s

def vmExit : NestedState n :=
  (s.updateRegion (s.current exit.cpuId) (fun region => region.save (exit.savedFields region))).setVmLaunch
    exit.cpuId false

def hbVmExitCallbackStub : NestedState n := vmEntry (hbVmExitCallback env exit (vmExit exit s)) exit.cpuId

end Callback

inductive CrEvent (n : Nat) where
  | exit (exit : GuestExit n)
  | shadowed (cpuId : Fin n) (field value : U64)

def crStep {n : Nat} (env : VmxEnv n) (s : NestedState n) : CrEvent n → NestedState n
  | .exit exit => hbVmExitCallbackStub env exit s
  | .shadowed cpuId field value => shadowVmwrite env s cpuId field value

def ExitReason.Names (G : U64 → Prop) : ExitReason → Prop
  | .vmx inst => inst.Names G
  | _ => True

def CrEvent.Names {n : Nat} (G : U64 → Prop) : CrEvent n → Prop
  | .exit taken => taken.reason.Names G
  | .shadowed _ _ _ => True

/-- On VMX instructions the callback is that of `HyperBox.Nested`. -/
theorem hbVmExitCallback_vmx {n : Nat} (env : VmxEnv n) {exit : GuestExit n} {inst : VmxInst}
    (reason : exit.reason = .vmx inst) (s : NestedState n) :
    hbVmExitCallback env exit s =
      Nested.hbVmExitCallback env ⟨exit.cpuId,exit.saved,exit.stale,inst⟩ s := by
  unfold hbVmExitCallback Nested.hbVmExitCallback skipAll
  rw [reason]
  rfl

end HyperBox.Nested.ControlRegister
