import Mathlib.Data.BitVec
import Mathlib.Logic.Function.Basic

/-! The probe module: it puts every processor into VMX operation when it is loaded and takes it out
again when it is unloaded or when one of them fails. Every instruction that touches the state of
a processor is logged with the state before it. -/
namespace HyperBox.Probe

abbrev U64 := BitVec 64

/-- The control registers of a processor, and whether it is in VMX operation. -/
structure Cpu where
  cr0 : U64
  cr4 : U64
  vmx : Bool

inductive Op where
  | setCr0 (value : U64)
  | setCr4 (value : U64)
  | vmxon (success : Bool)
  | vmxoff
  | vmclear (success : Bool)
  | vmptrld (success : Bool)
  | vmwrite (field value : U64) (success : Bool)
  | vmread (field : U64) (result : Option U64)

def Op.effect : Op → Cpu → Cpu
  | setCr0 value,c => { c with cr0 := value }
  | setCr4 value,c => { c with cr4 := value }
  | vmxon true,c => { c with vmx := true }
  | vmxoff,c => { c with vmx := false }
  | _,c => c

structure Entry where
  cpu : Nat
  op : Op
  before : Cpu

/-- A region is a page whose pointer is not NULL. -/
structure PercpuVmx where
  vmxonRegion : Bool
  vmcsRegion : Bool
  vmxOn : Bool
  savedCr0 : U64
  savedCr4 : U64

inductive Block where
  | table
  | vmxon (cpu : Nat)
  | vmcs (cpu : Nat)
deriving DecidableEq

/-- `table` tells whether `g_vmx` is allocated, and `percpu` is what it holds. -/
structure State where
  cpu : Nat → Cpu
  table : Bool
  percpu : Nat → PercpuVmx
  probeFailed : Bool
  allocated : Block → Bool
  log : List Entry

/-- The online processors and what the checks, the allocator and the processors answer. The n-th
VMWRITE of a processor succeeds or not, and its n-th VMREAD gives a value or fails. -/
structure Env where
  online : List Nat
  distinct : online.Nodup
  vmxSupported : Bool
  biosVmxAllowed : Bool
  kvmLoaded : Bool
  obtains : Block → Bool
  cr0Fixed0 : Nat → U64
  cr0Fixed1 : Nat → U64
  cr4Fixed0 : Nat → U64
  cr4Fixed1 : Nat → U64
  vmxon : Nat → Bool
  vmclear : Nat → Bool
  vmptrld : Nat → Bool
  vmwrite : Nat → Nat → Bool
  vmread : Nat → Nat → Option U64
  captured : Nat → U64 → U64

def vmVmcsLinkPtr : U64 := 0x2800
def vmGuestCr3 : U64 := 0x6802
def hbGuestRipRspPlaceholder : U64 := 0xffffffffffffffff

/-- Where the value for a field of the guest state comes from. -/
inductive Source where
  | cr0
  | cr4
  | captured
  | constant (value : U64)

/-- The VMWRITEs of `hb_probe_vmwrite_guest_state` in their order. -/
def guestStateWrites : List (U64 × Source) :=
  [(0x6800,.cr0),(vmGuestCr3,.captured),(0x6804,.cr4),(0x681A,.captured),
    (0x681C,.constant hbGuestRipRspPlaceholder),(0x681E,.constant hbGuestRipRspPlaceholder),(0x6820,.captured),
    (0x802,.captured),(0x804,.captured),(0x806,.captured),(0x800,.captured),(0x808,.captured),(0x80A,.captured),
    (0x80C,.captured),(0x80E,.captured),
    (0x6808,.captured),(0x680A,.captured),(0x680C,.captured),(0x6806,.captured),(0x680E,.captured),(0x6810,.captured),
    (0x6812,.captured),(0x6814,.captured),
    (0x4802,.constant 0xFFFFFFFF),(0x4804,.constant 0xFFFFFFFF),(0x4806,.constant 0xFFFFFFFF),
    (0x4800,.constant 0xFFFFFFFF),(0x4808,.constant 0xFFFFFFFF),(0x480A,.constant 0xFFFFFFFF),
    (0x480C,.captured),(0x480E,.captured),
    (0x4816,.captured),(0x4818,.captured),(0x481A,.captured),(0x4814,.captured),(0x481C,.captured),(0x481E,.captured),
    (0x4820,.captured),(0x4822,.captured),
    (0x6816,.captured),(0x6818,.captured),(0x4810,.captured),(0x4812,.captured),
    (0x2802,.constant 0),(0x482A,.captured),(0x6824,.captured),(0x6826,.captured),(0x2804,.captured),(0x2806,.captured),
    (vmVmcsLinkPtr,.constant 0xffffffffffffffff),(0x4824,.constant 0),(0x4826,.constant 0),(0x4828,.constant 0),
    (0x6822,.constant 0)]

section Instructions
variable (env : Env) (cpu : Nat) (s : State)

def exec (op : Op) : State :=
  { s with
    cpu := Function.update s.cpu cpu (op.effect (s.cpu cpu))
    log := s.log ++ [⟨cpu,op,s.cpu cpu⟩] }

def setPercpu (pc : PercpuVmx) : State := { s with percpu := Function.update s.percpu cpu pc }

def hbAdjustVmxCr0Cr4 : State :=
  let s := exec cpu s (.setCr0 (((s.cpu cpu).cr0 ||| env.cr0Fixed0 cpu) &&& env.cr0Fixed1 cpu))
  exec cpu s (.setCr4 (((s.cpu cpu).cr4 ||| env.cr4Fixed0 cpu) &&& env.cr4Fixed1 cpu))

/-- `bts` sets the bit. -/
def hbEnableVmx : State := exec cpu s (.setCr4 ((s.cpu cpu).cr4 ||| 0x2000))

/-- `btc` inverts the bit. -/
def hbDisableVmx : State := exec cpu s (.setCr4 ((s.cpu cpu).cr4 ^^^ 0x2000))

def Source.value (field : U64) : Source → U64
  | cr0 => (s.cpu cpu).cr0
  | cr4 => (s.cpu cpu).cr4
  | captured => env.captured cpu field
  | constant value => value

def hbProbeVmwriteGuestState : List (U64 × Source) → Nat → State → Bool × State
  | [],_,s => (true,s)
  | (field,source)::rest,n,s =>
    let success := env.vmwrite cpu n
    let s := exec cpu s (.vmwrite field (source.value env cpu s field) success)
    if success then hbProbeVmwriteGuestState rest (n+1) s else (false,s)

def hbVmxProbeVmwrite : Bool × State :=
  let linkNone := 0xffffffffffffffff
  let s := exec cpu s (.vmwrite vmVmcsLinkPtr linkNone (env.vmwrite cpu 0))
  if !env.vmwrite cpu 0 then (false,s)
  else
    let s := exec cpu s (.vmread vmVmcsLinkPtr (env.vmread cpu 0))
    if env.vmread cpu 0 ≠ some linkNone then (false,s)
    else
      match hbProbeVmwriteGuestState env cpu guestStateWrites 1 s with
      | (false,s) => (false,s)
      | (true,s) =>
        let s := exec cpu s (.vmread vmGuestCr3 (env.vmread cpu 1))
        (decide (env.vmread cpu 1 = some (env.captured cpu vmGuestCr3)),s)

end Instructions

section Callbacks
variable (env : Env) (cpu : Nat) (s : State)

def outRestoreCr (savedCr0 savedCr4 : U64) (s : State) : State :=
  let s := hbDisableVmx cpu s
  let s := exec cpu s (.setCr4 savedCr4)
  exec cpu s (.setCr0 savedCr0)

def outVmxoff (savedCr0 savedCr4 : U64) (s : State) : State :=
  let s := exec cpu s .vmxoff
  outRestoreCr cpu savedCr0 savedCr4 (setPercpu cpu s { s.percpu cpu with vmxOn := false })

def probeVmcs (s : State) : Bool × State :=
  let s := exec cpu s (.vmclear (env.vmclear cpu))
  if !env.vmclear cpu then (false,s)
  else
    let s := exec cpu s (.vmptrld (env.vmptrld cpu))
    if !env.vmptrld cpu then (false,s) else hbVmxProbeVmwrite env cpu s

def hbVmxonOnCpu : State :=
  if s.probeFailed then s
  else
    let pc := s.percpu cpu
    if !pc.vmxonRegion || !pc.vmcsRegion then { s with probeFailed := true }
    else
      let savedCr0 := (s.cpu cpu).cr0
      let savedCr4 := (s.cpu cpu).cr4
      let s := setPercpu cpu s { pc with savedCr0, savedCr4 }
      let s := hbEnableVmx cpu (hbAdjustVmxCr0Cr4 env cpu s)
      let s := exec cpu s (.vmxon (env.vmxon cpu))
      if !env.vmxon cpu then outRestoreCr cpu savedCr0 savedCr4 { s with probeFailed := true }
      else
        let s := setPercpu cpu s { s.percpu cpu with vmxOn := true }
        match probeVmcs env cpu s with
        | (false,s) => outVmxoff cpu savedCr0 savedCr4 { s with probeFailed := true }
        | (true,s) => s

def hbVmxoffOnCpu : State :=
  let pc := s.percpu cpu
  if !pc.vmxOn then s
  else
    let s := exec cpu s .vmxoff
    let s := outRestoreCr cpu pc.savedCr0 pc.savedCr4 s
    setPercpu cpu s { s.percpu cpu with vmxOn := false }

end Callbacks

section Module
variable (env : Env)

def enodev : Int := -19
def ebusy : Int := -16
def enomem : Int := -12
def eio : Int := -5

def freeCpu (s : State) (cpu : Nat) : State :=
  { s with
    percpu := Function.update s.percpu cpu { s.percpu cpu with vmxonRegion := false, vmcsRegion := false }
    allocated := fun block =>
      if (block = .vmxon cpu ∧ (s.percpu cpu).vmxonRegion) ∨ (block = .vmcs cpu ∧ (s.percpu cpu).vmcsRegion) then false
      else s.allocated block }

def hbVmxFreeRegions (s : State) : State :=
  if !s.table then s
  else
    let s := env.online.foldl freeCpu s
    { s with table := false, allocated := Function.update s.allocated .table false }

def allocCpu (s : State) (cpu : Nat) : State :=
  { s with
    percpu := Function.update s.percpu cpu
      { s.percpu cpu with vmxonRegion := env.obtains (.vmxon cpu), vmcsRegion := env.obtains (.vmcs cpu) }
    allocated := fun block =>
      if block = .vmxon cpu ∨ block = .vmcs cpu then env.obtains block else s.allocated block }

def allocCpus : List Nat → State → Bool × State
  | [],s => (true,s)
  | cpu::rest,s =>
    if !env.obtains (.vmxon cpu) || !env.obtains (.vmcs cpu) then (false,allocCpu env s cpu)
    else allocCpus rest (allocCpu env s cpu)

def hbVmxAllocRegions (s : State) : Int × State :=
  if !env.obtains .table then (enomem,s)
  else
    let s := { s with
      table := true
      percpu := fun _ => ⟨false,false,false,0,0⟩
      allocated := Function.update s.allocated .table true }
    match allocCpus env env.online s with
    | (true,s) => (0,s)
    | (false,s) => (enomem,hbVmxFreeRegions env s)

def startupCpus : List Nat → State → Int × State
  | [],s => (0,s)
  | cpu::rest,s =>
    let s := hbVmxonOnCpu env cpu s
    if s.probeFailed then (eio,s) else startupCpus rest s

def hbVmxStartupAllCpus (s : State) : Int × State := startupCpus env env.online { s with probeFailed := false }

def hbVmxTeardownAllCpus (s : State) : State :=
  if !s.table then s else env.online.foldl (fun s cpu => hbVmxoffOnCpu cpu s) s

def hypervisorInit (s : State) : Int × State :=
  if !env.vmxSupported then (enodev,s)
  else if !env.biosVmxAllowed then (enodev,s)
  else if env.kvmLoaded then (ebusy,s)
  else
    let (ret,s) := hbVmxAllocRegions env s
    if ret ≠ 0 then (ret,s)
    else
      let (ret,s) := hbVmxStartupAllCpus env s
      if ret ≠ 0 then (ret,hbVmxFreeRegions env (hbVmxTeardownAllCpus env s)) else (0,s)

def hypervisorExit (s : State) : State := hbVmxFreeRegions env (hbVmxTeardownAllCpus env s)

/-- Before the module is loaded no processor is in VMX operation. -/
def unloaded (cr0 cr4 : Nat → U64) : State :=
  ⟨fun c => ⟨cr0 c,cr4 c,false⟩,false,fun _ => ⟨false,false,false,0,0⟩,false,fun _ => false,[]⟩

end Module

end HyperBox.Probe
