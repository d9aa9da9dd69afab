import HyperBox.Ept.Permission

/-! VMCS regions and the instructions on them, as the processor documents them: a region
is named by its physical address and read and written through the current pointer of a
CPU. On top of them stands what Hyper-box keeps about the VMCSs of a guest hypervisor. -/
namespace HyperBox.Nested
open HyperBox.PageTable HyperBox.Ept

def vmGuestCr3 : U64 := 0x6802
def vmGuestFsBase : U64 := 0x680E
def vmGuestGsBase : U64 := 0x6810
def vmGuestRsp : U64 := 0x681C
def vmGuestRip : U64 := 0x681E
def vmGuestRflags : U64 := 0x6820
def vmVmcsLinkPtr : U64 := 0x2800
def vmCtrlEptPtr : U64 := 0x201A
def vmCtrlSecProcBasedExeCtrl : U64 := 0x401E
def vmCtrlVmEntryInstLength : U64 := 0x401A
def vmDataVmExitInstLength : U64 := 0x440C
def vmHostCr3 : U64 := 0x6C02
def vmHostFsBase : U64 := 0x6C06
def vmHostGsBase : U64 := 0x6C08
def vmHostRsp : U64 := 0x6C14
def vmHostRip : U64 := 0x6C16

section Fields

inductive FieldWidth where
  | word
  | quad
  | double
  | natural
deriving DecidableEq

inductive FieldType where
  | control
  | exitInformation
  | guestState
  | hostState
deriving DecidableEq

def fieldWidth (field : U64) : FieldWidth :=
  match field.getLsbD 14,field.getLsbD 13 with
  | false,false => .word
  | false,true => .quad
  | true,false => .double
  | true,true => .natural

def fieldType (field : U64) : FieldType :=
  match field.getLsbD 11,field.getLsbD 10 with
  | false,false => .control
  | false,true => .exitInformation
  | true,false => .guestState
  | true,true => .hostState

def highAccess (field : U64) : Bool := field.getLsbD 0

def fieldKey (field : U64) : U64 := field &&& ~~~1

def fieldValue (field value old : U64) : U64 :=
  if highAccess field then (old &&& 0xFFFFFFFF) ||| (value <<< 32)
  else match fieldWidth field with
    | .word => value &&& 0xFFFF
    | .double => value &&& 0xFFFFFFFF
    | .quad => value
    | .natural => value

/-- The fields that a VM exit saves; the link pointer belongs to the guest state but is not saved. -/
def savedOnExit (field : U64) : Bool :=
  fieldType field = .exitInformation || (fieldType field = .guestState && field ≠ vmVmcsLinkPtr)

end Fields

structure Region where
  revision : BitVec 32
  launched : Bool
  fields : U64 → U64

namespace Region

def read (region : Region) (field : U64) : U64 :=
  if highAccess field then region.fields (fieldKey field) >>> 32 else region.fields field

def write (region : Region) (field value : U64) : Region :=
  { region with
    fields := Function.update region.fields (fieldKey field)
      (fieldValue field value (region.fields (fieldKey field))) }

def save (region : Region) (saved : U64 → U64) : Region :=
  { region with fields := fun field => if savedOnExit field then saved field else region.fields field }

end Region

def vmBitRevisionShadowVmcs : BitVec 32 := 0x80000000

def noVmcs : U64 := 0xFFFFFFFFFFFFFFFF

def pageStart (addr : U64) : U64 := addr &&& maskPageaddr

def coreFields : List U64 :=
  [vmGuestCr3,vmGuestFsBase,vmGuestGsBase,vmGuestRsp,vmGuestRip,vmGuestRflags,vmVmcsLinkPtr,
    vmCtrlVmEntryInstLength,vmHostCr3,vmHostRsp,vmHostRip]

/-- What VMX instructions depend on. How a processor lays out the fields in a region is its
own business, so `scribble` says what a store that does not hit the revision does to them. -/
structure Processor where
  revisionId : BitVec 32
  physicalWidth : Nat
  supported : U64 → Bool
  writable : U64 → Bool
  scribble : U64 → Bool → Region → Region
  revisionPlain : revisionId &&& vmBitRevisionShadowVmcs = 0
  highQuad : ∀ field, supported field → highAccess field → fieldWidth field = .quad
  core : ∀ field ∈ coreFields, supported field ∧ writable field

def Processor.validAddress (processor : Processor) (addr : U64) : Bool :=
  pageStart addr = addr && addr.toNat < 2^processor.physicalWidth

/-- What Hyper-box has set up before the guest runs: for each CPU a VMXON region and a VMCS,
all in pages of their own. -/
structure VmxEnv (n : Nat) extends Processor where
  guestVmcsPhyAddr : Fin n → U64
  vmxOnVmcsPhyAddr : Fin n → U64
  vmExitStackAddr : Fin n → U64
  stackSize : U64
  vmExitCallbackStub : U64
  vmHostPhyPml4 : U64
  supportVmcsShadowing : Bool
  guestValid : ∀ cpuId, toProcessor.validAddress (guestVmcsPhyAddr cpuId)
  guestDistinct : Function.Injective guestVmcsPhyAddr
  vmxOnAligned : ∀ cpuId, pageStart (vmxOnVmcsPhyAddr cpuId) = vmxOnVmcsPhyAddr cpuId
  guestVmxOn : ∀ cpuId cpuId', guestVmcsPhyAddr cpuId ≠ vmxOnVmcsPhyAddr cpuId'
  guestNonzero : ∀ cpuId, guestVmcsPhyAddr cpuId ≠ 0
  vmxOnNonzero : ∀ cpuId, vmxOnVmcsPhyAddr cpuId ≠ 0

def VmxEnv.hostRsp {n : Nat} (env : VmxEnv n) (cpu : Fin n) : U64 :=
  env.vmExitStackAddr cpu + env.stackSize - val4KB

def maxNestedVmcs : Nat := 1024

instance : NeZero maxNestedVmcs := ⟨by decide⟩

structure NestedVmcs where
  vmcsPtr : U64
  rip : U64
  rsp : U64
  cr3 : U64

inductive VmcsOp where
  | vmclear (addr : U64)
  | setShadow (addr : U64)
  | clearShadow (addr : U64)
  | guestVmwrite (addr field value : U64)
deriving DecidableEq

def VmcsOp.target : VmcsOp → U64
  | vmclear addr => addr
  | setShadow addr => addr
  | clearShadow addr => addr
  | guestVmwrite addr _ _ => addr

structure NestedState (n : Nat) where
  regions : U64 → Region
  current : Fin n → U64
  nestedVmcsPtr : Fin n → U64
  nestedVmcsArray : Fin maxNestedVmcs → NestedVmcs
  vmLaunch : Fin n → Bool
  ops : List VmcsOp

namespace NestedState
variable {n : Nat} (s : NestedState n)

def field (addr field : U64) : U64 := (s.regions addr).fields field

@[simps] def updateRegion (addr : U64) (update : Region → Region) : NestedState n :=
  { s with regions := Function.update s.regions addr (update (s.regions addr)) }

@[simps] def setCurrent (cpu : Fin n) (addr : U64) : NestedState n :=
  { s with current := Function.update s.current cpu addr }

@[simps] def setNestedVmcsPtr (cpu : Fin n) (addr : U64) : NestedState n :=
  { s with nestedVmcsPtr := Function.update s.nestedVmcsPtr cpu addr }

@[simps] def setVmLaunch (cpu : Fin n) (launch : Bool) : NestedState n :=
  { s with vmLaunch := Function.update s.vmLaunch cpu launch }

@[simps] def updateSlot (slot : Fin maxNestedVmcs) (update : NestedVmcs → NestedVmcs) : NestedState n :=
  { s with nestedVmcsArray := Function.update s.nestedVmcsArray slot (update (s.nestedVmcsArray slot)) }

@[simps] def record (op : VmcsOp) : NestedState n := { s with ops := op::s.ops }

end NestedState

section Instructions
variable {n : Nat} (env : VmxEnv n) (cpu : Fin n) (s : NestedState n)

def goodRevision (revision : BitVec 32) : Bool :=
  revision = env.revisionId ||
    (env.supportVmcsShadowing && revision = env.revisionId ||| vmBitRevisionShadowVmcs)

def loadable (addr : U64) : Bool :=
  env.validAddress addr && addr ≠ env.vmxOnVmcsPhyAddr cpu && goodRevision env (s.regions addr).revision

def hbLoadVmcs (addr : U64) : Bool × NestedState n :=
  if loadable env cpu s addr then (true,s.setCurrent cpu addr) else (false,s)

def clearable (addr : U64) : Bool := env.validAddress addr && addr ≠ env.vmxOnVmcsPhyAddr cpu

def hbClearVmcs (addr : U64) : Bool × NestedState n :=
  let s := s.record (.vmclear addr)
  if clearable env cpu addr then
    let s := s.updateRegion addr (fun region => { region with launched := false })
    (true,if s.current cpu = addr then s.setCurrent cpu noVmcs else s)
  else (false,s)

def hbStoreVmcs : U64 := s.current cpu

def hbReadVmcs (field : U64) : Option U64 :=
  if s.current cpu ≠ noVmcs ∧ env.supported field then some ((s.regions (s.current cpu)).read field) else none

def hbWriteVmcs (field value : U64) : NestedState n :=
  if s.current cpu ≠ noVmcs ∧ env.supported field ∧ env.writable field then
    s.updateRegion (s.current cpu) (fun region => region.write field value)
  else s

/-- The store to `revision[0]` at a physical address: it changes bit 31 of one dword, which
is the shadow indicator if the address is that of a region. -/
def shadowStore (addr : U64) (set : Bool) : NestedState n :=
  let page := pageStart (addr + 3)
  s.updateRegion page (fun region =>
    if addr = page then
      { region with
        revision := if set then region.revision ||| vmBitRevisionShadowVmcs
          else region.revision &&& ~~~vmBitRevisionShadowVmcs }
    else env.scribble addr set region)

end Instructions
end HyperBox.Nested
