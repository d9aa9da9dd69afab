import HyperBox.Nested.Vmcs

/-! The emulation of VMX instructions in `hb_vm_exit_callback`, for exits of the guest
hypervisor and of the guests that it runs itself. The operands are those the handlers
have decoded: any 64-bit values. -/
namespace HyperBox.Nested
open HyperBox.PageTable HyperBox.Ept

inductive VmxInst where
  | vmclear (data : U64)
  | vmptrld (data : U64)
  | vmptrst
  | vmxon
  | vmread (regField : U64) (toRsp : Bool)
  | vmwrite (regField destAddr : U64)
  | invalidate
  | vmlaunch
  | vmresume
  | vmxoff
deriving DecidableEq

/-- An exit on a CPU: the values the processor saves in the current VMCS, and what the
handlers find in a local variable that a failed VMREAD leaves as it is. -/
structure VmxExit (n : Nat) where
  cpuId : Fin n
  saved : U64 → U64
  stale : U64
  inst : VmxInst

section Slots

def hbFindNestedVmcsStruct (slots : Fin maxNestedVmcs → NestedVmcs) (vmcsPtr : U64) :
    Option (Fin maxNestedVmcs) :=
  ((List.range' 0 maxNestedVmcs).map (Fin.ofNat maxNestedVmcs)).find?
    (fun i => (slots i).vmcsPtr = vmcsPtr || (slots i).vmcsPtr = 0)

end Slots

section Handlers
variable {n : Nat} (env : VmxEnv n) (cpuId : Fin n) (stale : U64) (s : NestedState n)

def hbAdvanceVmGuestRip : NestedState n :=
  match hbReadVmcs env cpuId s vmDataVmExitInstLength,hbReadVmcs env cpuId s vmGuestRip with
  | some instDelta,some rip => hbWriteVmcs env cpuId s vmGuestRip (rip + instDelta)
  | _,_ => hbWriteVmcs env cpuId s vmGuestRip stale

def rflagsBitCf : U64 := 0x01

def rflagsBitZf : U64 := 0x40

def hbClearVmxInstFlags : NestedState n :=
  let temp := (hbReadVmcs env cpuId s vmGuestRflags).getD stale
  hbWriteVmcs env cpuId s vmGuestRflags (temp &&& ~~~(rflagsBitCf ||| rflagsBitZf))

def hbVmSetVmcsShadowingToCurrent (shadowVmcsPhyAddr : U64) : NestedState n :=
  if !env.supportVmcsShadowing then s
  else
    let s := (hbClearVmcs env cpuId s shadowVmcsPhyAddr).2
    let s := shadowStore env (s.record (.setShadow shadowVmcsPhyAddr)) shadowVmcsPhyAddr true
    hbWriteVmcs env cpuId s vmVmcsLinkPtr shadowVmcsPhyAddr

def hbVmClearVmcsShadowingToCurrent : NestedState n :=
  if !env.supportVmcsShadowing then s
  else
    let shadowVmcsPhyAddr := (hbReadVmcs env cpuId s vmVmcsLinkPtr).getD stale
    if shadowVmcsPhyAddr = noVmcs then s
    else
      let s := hbWriteVmcs env cpuId s vmVmcsLinkPtr noVmcs
      let s := (hbClearVmcs env cpuId s shadowVmcsPhyAddr).2
      shadowStore env (s.record (.clearShadow shadowVmcsPhyAddr)) shadowVmcsPhyAddr false

def hbVmExitCallbackVmxInstType1 (inst : VmxInst) : NestedState n :=
  let s := hbAdvanceVmGuestRip env cpuId stale s
  let s := hbClearVmxInstFlags env cpuId stale s
  match inst with
  | .vmclear data =>
    let s := (hbClearVmcs env cpuId s data).2
    if s.nestedVmcsPtr cpuId = data then
      hbVmClearVmcsShadowingToCurrent env cpuId stale (s.setNestedVmcsPtr cpuId 0)
    else s
  | .vmptrld data => hbVmSetVmcsShadowingToCurrent env cpuId (s.setNestedVmcsPtr cpuId data) data
  | _ => s

def saveHostField (regField destAddr : U64) (slot : NestedVmcs) : NestedVmcs :=
  if regField = vmHostRip then { slot with rip := destAddr }
  else if regField = vmHostRsp then { slot with rsp := destAddr }
  else if regField = vmHostCr3 then { slot with cr3 := destAddr }
  else slot

def hostFieldValue (regField destAddr : U64) : U64 :=
  if regField = vmHostRip then env.vmExitCallbackStub
  else if regField = vmHostRsp then env.hostRsp cpuId
  else if regField = vmHostCr3 then env.vmHostPhyPml4
  else destAddr

def guestVmwrite (field value : U64) : NestedState n :=
  hbWriteVmcs env cpuId (s.record (.guestVmwrite (s.current cpuId) field value)) field value

def emulateVmwrite (slot : Fin maxNestedVmcs) (prevVmcs regField destAddr : U64) : NestedState n :=
  let s := s.updateSlot slot (saveHostField regField destAddr)
  match hbLoadVmcs env cpuId s (s.nestedVmcsPtr cpuId) with
  | (true,s) =>
    let s := guestVmwrite env cpuId s regField (hostFieldValue env cpuId regField destAddr)
    (hbLoadVmcs env cpuId s prevVmcs).2
  | (false,s) => s

def nestedFieldValue (slot : NestedVmcs) (regField : U64) : U64 :=
  if regField = vmHostRip then slot.rip
  else if regField = vmHostRsp then slot.rsp
  else if regField = vmHostCr3 then slot.cr3
  else (hbReadVmcs env cpuId s regField).getD 0

/-- The value goes to the operand of the instruction, which is not part of this state, except
for RSP: a field of the VMCS, which the handler writes while the nested VMCS is current. -/
def emulateVmread (slot : Fin maxNestedVmcs) (prevVmcs regField : U64) (toRsp : Bool) : NestedState n :=
  match hbLoadVmcs env cpuId s (s.nestedVmcsPtr cpuId) with
  | (true,s) =>
    let tempValue := nestedFieldValue env cpuId s (s.nestedVmcsArray slot) regField
    let s := if toRsp then hbWriteVmcs env cpuId s vmGuestRsp tempValue else s
    (hbLoadVmcs env cpuId s prevVmcs).2
  | (false,s) => s

def hbVmExitCallbackVmxInstType2 (inst : VmxInst) : NestedState n :=
  let s := hbAdvanceVmGuestRip env cpuId stale s
  let s := hbClearVmxInstFlags env cpuId stale s
  let prevVmcs := hbStoreVmcs cpuId s
  match hbFindNestedVmcsStruct s.nestedVmcsArray (s.nestedVmcsPtr cpuId) with
  | none => s
  | some slot =>
    let s := s.updateSlot slot (fun entry => { entry with vmcsPtr := s.nestedVmcsPtr cpuId })
    match inst with
    | .vmwrite regField destAddr => emulateVmwrite env cpuId s slot prevVmcs regField destAddr
    | .vmread regField toRsp => emulateVmread env cpuId s slot prevVmcs regField toRsp
    | _ => s

/-- The common part of VMLAUNCH and VMRESUME; the flag says whether the load succeeded. -/
def enterNested : Bool × NestedState n :=
  let s := hbAdvanceVmGuestRip env cpuId stale s
  let s := hbVmClearVmcsShadowingToCurrent env cpuId stale s
  let s := hbClearVmxInstFlags env cpuId stale s
  hbLoadVmcs env cpuId s (s.nestedVmcsPtr cpuId)

def handleVmlaunch : NestedState n :=
  match enterNested env cpuId stale s with
  | (true,s) => hbWriteVmcs env cpuId (s.setVmLaunch cpuId true) vmHostRsp (env.hostRsp cpuId)
  | (false,s) => hbWriteVmcs env cpuId s vmHostRsp (env.hostRsp cpuId)

def handleVmresume : NestedState n :=
  let s := (enterNested env cpuId stale s).2
  let s := hbWriteVmcs env cpuId s vmHostRsp (env.hostRsp cpuId)
  if env.supportVmcsShadowing then s.setVmLaunch cpuId true else s

def handleVmxoff : NestedState n := hbAdvanceVmGuestRip env cpuId stale (s.setNestedVmcsPtr cpuId 0)

def dispatch (inst : VmxInst) : NestedState n :=
  match inst with
  | .vmlaunch => handleVmlaunch env cpuId stale s
  | .vmresume => handleVmresume env cpuId stale s
  | .vmxoff => handleVmxoff env cpuId stale s
  | .vmclear _ => hbVmExitCallbackVmxInstType1 env cpuId stale s inst
  | .vmptrld _ => hbVmExitCallbackVmxInstType1 env cpuId stale s inst
  | .vmptrst => hbVmExitCallbackVmxInstType1 env cpuId stale s inst
  | .vmxon => hbVmExitCallbackVmxInstType1 env cpuId stale s inst
  | .vmread _ _ => hbVmExitCallbackVmxInstType2 env cpuId stale s inst
  | .vmwrite _ _ => hbVmExitCallbackVmxInstType2 env cpuId stale s inst
  | .invalidate => hbVmExitCallbackVmxInstType2 env cpuId stale s inst

def isBackToVm : VmxInst → Bool
  | .vmlaunch => true
  | .vmresume => true
  | _ => false

def skipAll (inst : VmxInst) : NestedState n :=
  if env.supportVmcsShadowing && !isBackToVm inst && s.nestedVmcsPtr cpuId ≠ 0 then
    hbVmSetVmcsShadowingToCurrent env cpuId s (s.nestedVmcsPtr cpuId)
  else s

/-- An exit of a guest of the guest hypervisor: Hyper-box goes on with the latter. -/
def exitFromVm : NestedState n :=
  let prevVmcs := hbStoreVmcs cpuId s
  match hbFindNestedVmcsStruct s.nestedVmcsArray prevVmcs with
  | none => s
  | some slot =>
    let nestedVmcs := s.nestedVmcsArray slot
    let fsBase := (hbReadVmcs env cpuId s vmHostFsBase).getD stale
    let gsBase := (hbReadVmcs env cpuId s vmHostGsBase).getD stale
    let s := (hbLoadVmcs env cpuId s (env.guestVmcsPhyAddr cpuId)).2
    let s := hbWriteVmcs env cpuId s vmGuestCr3 nestedVmcs.cr3
    let s := hbWriteVmcs env cpuId s vmGuestFsBase fsBase
    let s := hbWriteVmcs env cpuId s vmGuestGsBase gsBase
    let s := hbWriteVmcs env cpuId s vmGuestRip nestedVmcs.rip
    let s := hbWriteVmcs env cpuId s vmGuestRsp nestedVmcs.rsp
    let s := hbWriteVmcs env cpuId s vmGuestRflags 0x02
    hbVmSetVmcsShadowingToCurrent env cpuId s prevVmcs

end Handlers

section Callback
variable {n : Nat} (env : VmxEnv n) (exit : VmxExit n) (s : NestedState n)

def hbVmExitCallback : NestedState n :=
  if hbStoreVmcs exit.cpuId s ≠ env.guestVmcsPhyAddr exit.cpuId then exitFromVm env exit.cpuId exit.stale s
  else
    let s := hbWriteVmcs env exit.cpuId s vmCtrlVmEntryInstLength 0
    skipAll env exit.cpuId (dispatch env exit.cpuId exit.stale s exit.inst) exit.inst

def vmExit : NestedState n :=
  (s.updateRegion (s.current exit.cpuId) (fun region => region.save exit.saved)).setVmLaunch exit.cpuId false

/-- `hb_vm_exit_callback_stub` enters with VMLAUNCH or VMRESUME; a launch leaves the VMCS launched. -/
def vmEntry (cpuId : Fin n) : NestedState n :=
  s.updateRegion (s.current cpuId)
    (fun region => { region with launched := region.launched || s.vmLaunch cpuId })

def hbVmExitCallbackStub : NestedState n :=
  vmEntry (hbVmExitCallback env exit (vmExit exit s)) exit.cpuId

/-- The fields whose VMWRITE exits although VMCS shadowing is on. -/
def vmwriteBitmap (field : U64) : Bool := [vmHostRip,vmHostRsp,vmHostCr3].contains field

def shadowVmwrite (cpuId : Fin n) (field value : U64) : NestedState n :=
  let link := s.field (env.guestVmcsPhyAddr cpuId) vmVmcsLinkPtr
  if env.supportVmcsShadowing ∧ s.current cpuId = env.guestVmcsPhyAddr cpuId ∧ link ≠ noVmcs ∧
      vmwriteBitmap field = false ∧ env.supported field ∧ env.writable field then
    s.updateRegion link (fun region => region.write field value)
  else s

end Callback

inductive VmxEvent (n : Nat) where
  | exit (exit : VmxExit n)
  | shadowed (cpuId : Fin n) (field value : U64)

def vmxStep {n : Nat} (env : VmxEnv n) (s : NestedState n) : VmxEvent n → NestedState n
  | .exit exit => hbVmExitCallbackStub env exit s
  | .shadowed cpuId field value => shadowVmwrite env s cpuId field value

end HyperBox.Nested
