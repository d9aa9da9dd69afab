import HyperBox.Launch.Controls
import HyperBox.Monitor.Breakpoint
import HyperBox.Probe.Descriptor

/-! A core becomes the guest where it stands: `hb_vm_thread` reads the registers of the core, writes
them to the guest state of the VMCS, and the VM entry loads them from there. The segment registers
have hidden parts, which no instruction reads; they are taken from the descriptors. -/
namespace HyperBox.Launch
open HyperBox.Library HyperBox.PageTable HyperBox.Exit
open HyperBox.Probe (SegmentEnv LdttssDesc u16At u32At accessAt descBase descLimit descAccess maskGdtAccess)

inductive SegReg where
  | es
  | cs
  | ss
  | ds
  | fs
  | gs
  | ldtr
  | tr
deriving DecidableEq

/-- The place of a segment register in each group of VMCS fields. -/
def SegReg.index : SegReg → Nat
  | es => 0
  | cs => 1
  | ss => 2
  | ds => 3
  | fs => 4
  | gs => 5
  | ldtr => 6
  | tr => 7

/-- A segment register with its hidden part; bit 16 of `access` is set when it is unusable. -/
structure Segment where
  selector : BitVec 16
  base : U64
  limit : U32
  access : U32

structure TableRegister where
  base : U64
  limit : BitVec 16

structure Processor where
  cr0 : U64
  cr3 : U64
  cr4 : U64
  dr7 : U64
  rflags : U64
  debugCtrl : U64
  segment : SegReg → Segment
  gdtr : TableRegister
  idtr : TableRegister
  sysEnterCs : U32
  sysEnterEsp : U64
  sysEnterEip : U64
  pat : U64
  efer : U64

/-- What `hb_setup_vm_host_register` takes from elsewhere. -/
structure HostEnv where
  hostPhyPml4 : U64
  vmExitStack : U64
  stackSize : U64
  vmExitCallbackStub : U64
  hostIdtr : U64
  kernelCs : BitVec 16
  kernelDs : BitVec 16

structure VmHostRegister where
  cr0 : U64
  cr3 : U64
  cr4 : U64
  rsp : U64
  rip : U64
  selector : SegReg → U64
  fsBaseAddr : U64
  gsBaseAddr : U64
  trBaseAddr : U64
  gdtrBaseAddr : U64
  idtrBaseAddr : U64
  ia32SysEnterCs : U64
  ia32SysEnterEsp : U64
  ia32SysEnterEip : U64
  ia32PerfGlobalCtrl : U64
  ia32Pat : U64
  ia32Efer : U64

structure GuestRegisters where
  cr0 : U64
  cr3 : U64
  cr4 : U64
  dr7 : U64
  rsp : U64
  rip : U64
  rflags : U64
  selector : SegReg → U64
  baseAddr : SegReg → U64
  limit : SegReg → U64
  access : SegReg → U64
  gdtrBaseAddr : U64
  idtrBaseAddr : U64
  gdtrLimit : U64
  idtrLimit : U64
  ia32DebugCtrl : U64
  ia32SysEnterCs : U64
  ia32SysEnterEsp : U64
  ia32SysEnterEip : U64
  vmcsLinkPtr : U64
  ia32PerfGlobalCtrl : U64
  ia32Pat : U64
  ia32Efer : U64

section Setup
variable (env : HostEnv) (ram : U64 → BitVec 8) (p : Processor)

def Processor.selector (r : SegReg) : U64 := (p.segment r).selector.setWidth 64

/-- The descriptor table and the two selectors, as `hb_setup_vm_guest_register` uses them for LDTR and TR. -/
def Processor.descriptors : SegmentEnv := ⟨p.gdtr.base,ram,p.selector .ldtr,p.selector .tr⟩

def hbSetupVmHostRegister : VmHostRegister where
  cr0 := p.cr0
  cr3 := env.hostPhyPml4
  cr4 := p.cr4
  rsp := env.vmExitStack + env.stackSize - 0x1000
  rip := env.vmExitCallbackStub
  selector
    | .cs => env.kernelCs.setWidth 64
    | .tr => p.selector .tr
    | _ => env.kernelDs.setWidth 64
  fsBaseAddr := (p.segment .fs).base
  gsBaseAddr := (p.segment .gs).base
  trBaseAddr := descBase (p.descriptors ram) (p.selector .tr)
  gdtrBaseAddr := p.gdtr.base
  idtrBaseAddr := env.hostIdtr
  ia32SysEnterCs := p.sysEnterCs.setWidth 64
  ia32SysEnterEsp := p.sysEnterEsp
  ia32SysEnterEip := p.sysEnterEip
  ia32PerfGlobalCtrl := 0
  ia32Pat := p.pat
  ia32Efer := p.efer

def hbGetDescBase (offset : U64) : U64 :=
  if offset = 0 then 0
  else
    let gdt := (p.descriptors ram).entry offset
    (u16At ram (gdt + 2)).setWidth 64 ||| (ram (gdt + 4)).setWidth 64 <<< 16 ||| (ram (gdt + 7)).setWidth 64 <<< 24

def hbGetDescAccess (offset : U64) : U64 :=
  if offset = 0 then 0x10000 else descAccess (p.descriptors ram) offset

def hbSetupVmGuestRegister (host : VmHostRegister) : GuestRegisters :=
  let ldtrTr := Probe.hbSetupVmGuestRegister (p.descriptors ram)
  { cr0 := host.cr0
    cr3 := p.cr3
    cr4 := host.cr4
    dr7 := Monitor.watchedDr7
    rsp := 0xFFFFFFFFFFFFFFFF
    rip := 0xFFFFFFFFFFFFFFFF
    rflags := p.rflags
    selector := p.selector
    baseAddr
      | .fs => (p.segment .fs).base
      | .gs => (p.segment .gs).base
      | .ldtr => ldtrTr.ldtrBaseAddr
      | .tr => ldtrTr.trBaseAddr
      | r => hbGetDescBase ram p (p.selector r)
    limit
      | .ldtr => ldtrTr.ldtrLimit
      | .tr => ldtrTr.trLimit
      | _ => 0xFFFFFFFF
    access
      | .ldtr => ldtrTr.ldtrAccess
      | .tr => ldtrTr.trAccess
      | r => hbGetDescAccess ram p (p.selector r)
    gdtrBaseAddr := host.gdtrBaseAddr
    idtrBaseAddr := p.idtr.base
    gdtrLimit := p.gdtr.limit.setWidth 64
    idtrLimit := p.idtr.limit.setWidth 64
    ia32DebugCtrl := 0
    ia32SysEnterCs := host.ia32SysEnterCs
    ia32SysEnterEsp := host.ia32SysEnterEsp
    ia32SysEnterEip := host.ia32SysEnterEip
    vmcsLinkPtr := 0xFFFFFFFFFFFFFFFF
    ia32PerfGlobalCtrl := host.ia32PerfGlobalCtrl
    ia32Pat := host.ia32Pat
    ia32Efer := host.ia32Efer }

end Setup

section Vmcs

/-- The segment registers in the order in which `hb_setup_vmcs` writes them. -/
def hostSegments : List SegReg := [.cs,.ss,.ds,.es,.fs,.gs,.tr]
def guestSegments : List SegReg := [.cs,.ss,.ds,.es,.fs,.gs,.ldtr,.tr]

def hostSelectorField (r : SegReg) : Nat := 0xC00 + 2 * r.index - if r = .tr then 2 else 0
def selectorField (r : SegReg) : Nat := 0x800 + 2 * r.index
def limitField (r : SegReg) : Nat := 0x4800 + 2 * r.index
def accessField (r : SegReg) : Nat := 0x4814 + 2 * r.index
def baseField (r : SegReg) : Nat := 0x6806 + 2 * r.index

def hostWrites (host : VmHostRegister) : List (Nat × U64) :=
  [(0x6C00,host.cr0),(0x6C02,host.cr3),(0x6C04,host.cr4),(0x6C14,host.rsp),(0x6C16,host.rip)] ++
  hostSegments.map (fun r => (hostSelectorField r,host.selector r)) ++
  [(0x6C06,host.fsBaseAddr),(0x6C08,host.gsBaseAddr),(0x6C0A,host.trBaseAddr),(0x6C0C,host.gdtrBaseAddr),
    (0x6C0E,host.idtrBaseAddr),(0x4C00,host.ia32SysEnterCs),(0x6C10,host.ia32SysEnterEsp),(0x6C12,host.ia32SysEnterEip),
    (0x2C04,host.ia32PerfGlobalCtrl),(0x2C00,host.ia32Pat),(0x2C02,host.ia32Efer)]

def guestWrites (guest : GuestRegisters) (preTimer : U64) : List (Nat × U64) :=
  [(0x6800,guest.cr0),(0x6802,guest.cr3),(0x6804,guest.cr4),(0x681A,guest.dr7),(0x681C,guest.rsp),(0x681E,guest.rip),
    (0x6820,guest.rflags)] ++
  guestSegments.map (fun r => (selectorField r,guest.selector r)) ++
  guestSegments.map (fun r => (baseField r,guest.baseAddr r)) ++
  guestSegments.map (fun r => (limitField r,guest.limit r)) ++
  guestSegments.map (fun r => (accessField r,guest.access r)) ++
  [(0x6816,guest.gdtrBaseAddr),(0x6818,guest.idtrBaseAddr),(0x4810,guest.gdtrLimit),(0x4812,guest.idtrLimit),
    (0x2802,guest.ia32DebugCtrl),(0x482A,guest.ia32SysEnterCs),(0x6824,guest.ia32SysEnterEsp),
    (0x6826,guest.ia32SysEnterEip),(0x2808,guest.ia32PerfGlobalCtrl),(0x2804,guest.ia32Pat),(0x2806,guest.ia32Efer),
    (0x2800,guest.vmcsLinkPtr),(0x4824,0),(0x4826,0),(0x4828,0),(0x6822,0),(0x482E,preTimer)]

def controlWrites (control : VmControlRegister) (supportVpid : Bool) : List (Nat × U64) :=
  (if supportVpid then [(0x0000,0xFFFF)] else []) ++
  [(0x4000,control.pinBasedCtrl.setWidth 64),(0x4002,control.priProcBasedCtrl.setWidth 64),
    (0x401E,control.secProcBasedCtrl.setWidth 64),(0x4004,control.exceptBitmap),(0x2000,control.ioBitmapAddrA),
    (0x2002,control.ioBitmapAddrB),(0x201A,control.eptPtr),(0x2004,control.msrBitmapAddr),
    (0x2026,control.vmreadBitmapAddr),(0x2028,control.vmwriteBitmapAddr),
    (0x4012,control.vmEntryCtrlField.setWidth 64),(0x400C,control.vmExitCtrlField.setWidth 64),
    (0x2012,control.virtApicPageAddr),(0x6000,control.cr0GuestHostMask),(0x6002,control.cr4GuestHostMask),
    (0x6004,control.cr0ReadShadow),(0x6006,control.cr4ReadShadow),(0x6008,0),(0x600A,0),(0x600C,0),(0x600E,0),
    (0x4006,0),(0x4008,0),(0x400A,0),(0x400E,0),(0x4010,0),(0x2008,0),(0x4016,0),(0x4018,0),(0x401A,0),(0x4014,0),
    (0x200A,0),(0x401C,0),(0x200C,0),(0x2010,0)]

/-- All writes of `hb_setup_vmcs`, in its order. -/
def setupWrites (host : VmHostRegister) (guest : GuestRegisters) (control : VmControlRegister) (supportVpid : Bool)
    (preTimer : U64) : List (Nat × U64) :=
  hostWrites host ++ guestWrites guest preTimer ++ controlWrites control supportVpid

def vmPreTimerValue (tscKhz : U32) : U64 := tscKhz.setWidth 64 * 1024 * 100000 / 1000000

def hbCalcVmPreTimerValue (rdmsr : U32 → U64) (tscKhz : U32) : U64 :=
  vmPreTimerValue tscKhz >>> (rdmsr msrIa32VmxMisc &&& 0x1F)

def vmwrite (vmcs : Nat → U64) (entry : Nat × U64) : Nat → U64 := Function.update vmcs entry.1 entry.2

def hbSetupVmcs (host : VmHostRegister) (guest : GuestRegisters) (control : VmControlRegister) (supportVpid : Bool)
    (preTimer : U64) (vmcs : Nat → U64) : Nat → U64 :=
  run vmwrite vmcs (setupWrites host guest control supportVpid preTimer)

theorem run_vmwrite_absent {entries : List (Nat × U64)} {field : Nat} (absent : field ∉ entries.map Prod.fst)
    (vmcs : Nat → U64) : run vmwrite vmcs entries field = vmcs field := by
  induction entries generalizing vmcs with
  | nil => rfl
  | cons entry rest ih =>
    rw [List.map_cons,List.mem_cons,not_or] at absent
    rw [run_cons,ih absent.2,vmwrite,Function.update_of_ne absent.1]

theorem run_vmwrite_field {entries : List (Nat × U64)} (distinct : (entries.map Prod.fst).Nodup) {field : Nat} {value : U64}
    (member : (field,value) ∈ entries) (vmcs : Nat → U64) : run vmwrite vmcs entries field = value := by
  induction entries generalizing vmcs with
  | nil => cases member
  | cons entry rest ih =>
    rw [List.map_cons,List.nodup_cons] at distinct
    rcases List.mem_cons.mp member with rfl | later
    · rw [run_cons,run_vmwrite_absent distinct.1,vmwrite,Function.update_self]
    · exact ih distinct.2 later _

variable (host : VmHostRegister) (guest : GuestRegisters) (control : VmControlRegister) (supportVpid : Bool) (preTimer : U64)

/-- No field is written twice. -/
theorem setupWrites_distinct : ((setupWrites host guest control supportVpid preTimer).map Prod.fst).Nodup := by
  simp only [setupWrites,hostWrites,guestWrites,controlWrites,List.map_append,List.map_cons,List.map_nil,hostSegments,
    guestSegments]
  cases supportVpid <;> decide +kernel

theorem setup_field {field : Nat} {value : U64} (vmcs : Nat → U64)
    (member : (field,value) ∈ setupWrites host guest control supportVpid preTimer) :
    hbSetupVmcs host guest control supportVpid preTimer vmcs field = value :=
  run_vmwrite_field (setupWrites_distinct host guest control supportVpid preTimer) member vmcs

theorem guest_field {field : Nat} {value : U64} (vmcs : Nat → U64) (member : (field,value) ∈ guestWrites guest preTimer) :
    hbSetupVmcs host guest control supportVpid preTimer vmcs field = value :=
  setup_field host guest control supportVpid preTimer vmcs (by simp [setupWrites,member])

theorem guestSegments_all (r : SegReg) : r ∈ guestSegments := by
  cases r <;> decide

theorem segment_fields (vmcs : Nat → U64) (r : SegReg) :
    let fields := hbSetupVmcs host guest control supportVpid preTimer vmcs
    fields (selectorField r) = guest.selector r ∧ fields (baseField r) = guest.baseAddr r ∧
      fields (limitField r) = guest.limit r ∧ fields (accessField r) = guest.access r := by
  have each (field : SegReg → Nat) (value : SegReg → U64) :
      (field r,value r) ∈ guestSegments.map (fun r => (field r,value r)) := List.mem_map_of_mem (guestSegments_all r)
  refine ⟨?_,?_,?_,?_⟩ <;> apply guest_field
  · simp only [guestWrites,List.mem_append,each selectorField guest.selector,true_or,or_true]
  · simp only [guestWrites,List.mem_append,each baseField guest.baseAddr,true_or,or_true]
  · simp only [guestWrites,List.mem_append,each limitField guest.limit,true_or,or_true]
  · simp only [guestWrites,List.mem_append,each accessField guest.access,true_or,or_true]

end Vmcs

section Entry

def Segment.unusable (segment : Segment) : Bool := segment.access.getLsbD 16

def enteredSegment (vmcs : Nat → U64) (r : SegReg) : Segment where
  selector := (vmcs (selectorField r)).setWidth 16
  base := vmcs (baseField r)
  limit := (vmcs (limitField r)).setWidth 32
  access := (vmcs (accessField r)).setWidth 32

/-- The bits of CR0 that a VM entry leaves as they are. -/
def cr0Kept : U64 := 0x7FFAFFD0

/-- The registers after a VM entry of the processor `p`; RSP and RIP are those of `hb_vm_launch`. -/
def entered (vmcs : Nat → U64) (p : Processor) : Processor where
  cr0 := (vmcs 0x6800 &&& ~~~cr0Kept) ||| (p.cr0 &&& cr0Kept)
  cr3 := vmcs 0x6802
  cr4 := vmcs 0x6804
  dr7 := if (vmcs 0x4012).getLsbD 2 then (vmcs 0x681A &&& 0xFFFF2FFF) ||| 0x400 else p.dr7
  rflags := vmcs 0x6820
  debugCtrl := if (vmcs 0x4012).getLsbD 2 then vmcs 0x2802 else p.debugCtrl
  segment := enteredSegment vmcs
  gdtr := ⟨vmcs 0x6816,(vmcs 0x4810).setWidth 16⟩
  idtr := ⟨vmcs 0x6818,(vmcs 0x4812).setWidth 16⟩
  sysEnterCs := (vmcs 0x482A).setWidth 32
  sysEnterEsp := vmcs 0x6824
  sysEnterEip := vmcs 0x6826
  pat := if (vmcs 0x4012).getLsbD 14 then vmcs 0x2804 else p.pat
  efer :=
    if (vmcs 0x4012).getLsbD 15 then vmcs 0x2806
    else if (vmcs 0x4012).getLsbD 9 then p.efer ||| 0x500 else p.efer &&& ~~~0x500

end Entry

section Descriptors
variable (ram : U64 → BitVec 8) (p : Processor) (r : SegReg)

def SegReg.System : SegReg → Prop
  | ldtr | tr => True
  | _ => False

instance : DecidablePred SegReg.System
  | .ldtr | .tr => isTrue trivial
  | .es | .cs | .ss | .ds | .fs | .gs => isFalse not_false

def Processor.Null : Prop := p.selector r &&& 0xFFFC = 0

instance : Decidable (p.Null r) := inferInstanceAs (Decidable (_ = _))

/-- The address of the descriptor, as the processor finds it in the GDT. -/
def Processor.descAddr : U64 := p.gdtr.base + (p.selector r &&& 0xFFF8)

def rawLimit : U32 := (u16At ram (p.descAddr r)).setWidth 32 ||| ((ram (p.descAddr r + 6)).setWidth 4).setWidth 32 <<< 16

/-- A limit in pages is expanded to one in bytes. -/
def loadedLimit : U32 :=
  if (accessAt ram (p.descAddr r)).getLsbD 15 then rawLimit ram p r <<< 12 ||| 0xFFF else rawLimit ram p r

def loadedBase : U64 :=
  let gdt := p.descAddr r
  let base := (u16At ram (gdt + 2)).setWidth 64 ||| (ram (gdt + 4)).setWidth 64 <<< 16 ||| (ram (gdt + 7)).setWidth 64 <<< 24
  if r.System then base ||| (u32At ram (gdt + 8)).setWidth 64 <<< 32 else base

/-- The hidden part of a segment register is what the processor took from the GDT when its selector
was loaded; FS and GS have bases of their own. -/
structure Cached : Prop where
  global : (p.selector r).getLsbD 2 = false
  null : p.Null r → (p.segment r).unusable = true
  access : ¬ p.Null r → (p.segment r).access = accessAt ram (p.descAddr r)
  limit : ¬ p.Null r → (p.segment r).limit = loadedLimit ram p r
  base : ¬ p.Null r → r ≠ .fs → r ≠ .gs → (p.segment r).base = loadedBase ram p r

/-- No instruction tells the one segment register from the other. -/
structure Same (before after : Segment) : Prop where
  selector : after.selector = before.selector
  unusable : after.unusable = before.unusable
  base : r = .fs ∨ r = .gs ∨ before.unusable = false → after.base = before.base
  limit : before.unusable = false → after.limit = before.limit
  access : before.unusable = false → after.access = before.access

/-- What `hb_setup_vm_guest_register` takes for granted of a segment register. -/
structure Fits : Prop where
  null : p.Null r → p.selector r = 0 ∧ r ≠ .tr
  data : ¬ p.Null r → ¬ r.System → (p.segment r).limit = 0xFFFFFFFF
  system : ¬ p.Null r → r.System → (p.segment r).access.getLsbD 15 = false

/-- The processor goes on as it was, but for the breakpoints. -/
structure InPlace (before after : Processor) : Prop where
  cr0 : after.cr0 = before.cr0
  cr3 : after.cr3 = before.cr3
  cr4 : after.cr4 = before.cr4
  dr7 : after.dr7 = Monitor.watchedDr7
  rflags : after.rflags = before.rflags
  debugCtrl : after.debugCtrl = 0
  segment : ∀ r, Same r (before.segment r) (after.segment r)
  gdtr : after.gdtr = before.gdtr
  idtr : after.idtr = before.idtr
  sysEnterCs : after.sysEnterCs = before.sysEnterCs
  sysEnterEsp : after.sysEnterEsp = before.sysEnterEsp
  sysEnterEip : after.sysEnterEip = before.sysEnterEip
  pat : after.pat = before.pat
  efer : after.efer = before.efer

variable {ram : U64 → BitVec 8} {p : Processor} {r : SegReg}

variable (ram) in
theorem entry_eq (global : (p.selector r).getLsbD 2 = false) : (p.descriptors ram).entry (p.selector r) = p.descAddr r := by
  have mask : p.selector r &&& ~~~maskGdtAccess = p.selector r &&& 0xFFF8 := by
    have wide (k : Nat) (high : 16 ≤ k) : (p.selector r).getLsbD k = false := by
      rw [Processor.selector,BitVec.getLsbD_setWidth,BitVec.getLsbD_of_ge _ k high,Bool.and_false]
    apply BitVec.eq_of_getLsbD_eq
    intro k bound
    rw [BitVec.getLsbD_and,BitVec.getLsbD_and]
    by_cases high : 16 ≤ k
    · rw [wide k high,Bool.false_and,Bool.false_and]
    · by_cases table : k = 2
      · rw [table,global,Bool.false_and,Bool.false_and]
      · have bits : ∀ k < 16, k ≠ 2 → (~~~maskGdtAccess).getLsbD k = (0xFFF8 : U64).getLsbD k := by decide
        rw [bits k (by omega) table]
  rw [SegmentEnv.entry,mask]
  rfl

theorem accessAt_usable (ent : U64) : (accessAt ram ent).getLsbD 16 = false := by
  rw [accessAt,BitVec.getLsbD_and,show (0xF0FF : U32).getLsbD 16 = false by decide,Bool.and_false]

theorem Cached.unusable_iff (cached : Cached ram p r) : (p.segment r).unusable = true ↔ p.Null r := by
  constructor
  · intro unusable
    by_contra used
    rw [Segment.unusable,cached.access used,accessAt_usable] at unusable
    exact absurd unusable Bool.false_ne_true
  · exact cached.null

theorem Cached.usable_iff (cached : Cached ram p r) : (p.segment r).unusable = false ↔ ¬ p.Null r := by
  rw [← cached.unusable_iff,Bool.not_eq_true]

theorem zero_null (zero : p.selector r = 0) : p.Null r := by
  rw [Processor.Null,zero]
  rfl

theorem narrowed {n : Nat} (small : n ≤ 64) (word : BitVec n) : (word.setWidth 64).setWidth n = word := by
  rw [BitVec.setWidth_setWidth_of_le word small,BitVec.setWidth_eq]

theorem narrowed_shift (word : BitVec 4) : (word.setWidth 64 <<< 16).setWidth 32 = word.setWidth 32 <<< 16 := by
  apply BitVec.eq_of_toNat_eq
  simp only [BitVec.toNat_setWidth,BitVec.toNat_shiftLeft,Nat.shiftLeft_eq]
  have half := word.isLt
  omega

/-- A limit of 20 bits is never equal to its expansion. -/
theorem expanded_ne : rawLimit ram p r ≠ rawLimit ram p r <<< 12 ||| (0xFFF : U32) := by
  intro same
  rw [rawLimit] at same
  have low := congrArg (BitVec.getLsbD · 8) same
  have high := congrArg (BitVec.getLsbD · 20) same
  simp at low high
  grind

end Descriptors

section Guest
variable {ram : U64 → BitVec 8} {p : Processor} {r : SegReg} (host : VmHostRegister)

theorem guest_access_null (null : p.selector r = 0) :
    (hbSetupVmGuestRegister ram p host).access r = if r = .tr then 0 else 0x10000 := by
  cases r <;> exact if_pos null

theorem guest_access (used : p.selector r ≠ 0) :
    (hbSetupVmGuestRegister ram p host).access r = descAccess (p.descriptors ram) (p.selector r) := by
  cases r <;> exact if_neg used

theorem guest_limit (used : p.selector r ≠ 0) : (hbSetupVmGuestRegister ram p host).limit r =
    if r.System then descLimit (p.descriptors ram) (p.selector r) else 0xFFFFFFFF := by
  cases r <;> first | exact if_neg used | rfl

theorem guest_base_own (own : r = .fs ∨ r = .gs) : (hbSetupVmGuestRegister ram p host).baseAddr r = (p.segment r).base := by
  rcases own with rfl | rfl <;> rfl

theorem guest_base (global : (p.selector r).getLsbD 2 = false) (used : p.selector r ≠ 0) (fs : r ≠ .fs) (gs : r ≠ .gs) :
    (hbSetupVmGuestRegister ram p host).baseAddr r = loadedBase ram p r := by
  have place := entry_eq ram global
  rw [loadedBase,← place]
  cases r <;> first | exact absurd rfl fs | exact absurd rfl gs | exact if_neg used

theorem descLimit_low (global : (p.selector r).getLsbD 2 = false) :
    (descLimit (p.descriptors ram) (p.selector r)).setWidth 32 = rawLimit ram p r := by
  rw [descLimit,entry_eq ram global,rawLimit]
  dsimp only [LdttssDesc.read]
  rw [BitVec.setWidth_or,narrowed_shift,BitVec.setWidth_setWidth_of_le _ (by decide)]
  rfl

end Guest

section InPlace
variable {env : HostEnv} {ram : U64 → BitVec 8} {p : Processor} {r : SegReg} {fields : Nat → U64}

/-- The fields of a segment register are those of `hb_setup_vm_guest_register`. -/
structure Written (guest : GuestRegisters) (fields : Nat → U64) (r : SegReg) : Prop where
  selector : fields (selectorField r) = guest.selector r
  base : fields (baseField r) = guest.baseAddr r
  limit : fields (limitField r) = guest.limit r
  access : fields (accessField r) = guest.access r

variable {host : VmHostRegister}
variable (written : Written (hbSetupVmGuestRegister ram p host) fields r)
include written

theorem entered_selector : (enteredSegment fields r).selector = (p.segment r).selector := by
  rw [enteredSegment,written.selector]
  exact narrowed (by decide) _

theorem entered_unusable_iff : (enteredSegment fields r).unusable = true ↔ p.selector r = 0 ∧ r ≠ .tr := by
  rw [Segment.unusable,enteredSegment,written.access]
  by_cases null : p.selector r = 0
  · rw [guest_access_null host null]
    by_cases task : r = .tr <;> simp [null,task]
  · rw [guest_access host null,BitVec.getLsbD_setWidth,descAccess,BitVec.getLsbD_setWidth,accessAt_usable]
    simp only [Bool.and_false,Bool.false_eq_true,null,false_and]

theorem entered_limit (global : (p.selector r).getLsbD 2 = false) (used : p.selector r ≠ 0) :
    (enteredSegment fields r).limit = if r.System then rawLimit ram p r else 0xFFFFFFFF := by
  rw [enteredSegment,written.limit,guest_limit host used]
  dsimp only
  split
  · exact descLimit_low global
  · rfl

theorem entered_access (global : (p.selector r).getLsbD 2 = false) (used : p.selector r ≠ 0) :
    (enteredSegment fields r).access = accessAt ram (p.descAddr r) := by
  rw [enteredSegment,written.access,guest_access host used,← entry_eq ram global]
  exact narrowed (by decide) _

variable (cached : Cached ram p r)
include cached

theorem Same.fits (same : Same r (p.segment r) (enteredSegment fields r)) : Fits p r := by
  have limit (used : ¬ p.Null r) : (if r.System then rawLimit ram p r else 0xFFFFFFFF) = loadedLimit ram p r := by
    rw [← entered_limit written cached.global (mt zero_null used),same.limit (cached.usable_iff.mpr used),cached.limit used]
  refine ⟨?_,?_,?_⟩
  · intro null
    rw [← entered_unusable_iff written,same.unusable]
    exact cached.null null
  · intro used data
    rw [cached.limit used,← limit used,if_neg data]
  · intro used system
    have raw := limit used
    rw [if_pos system,loadedLimit] at raw
    rw [cached.access used]
    by_contra pages
    rw [if_pos (by simpa using pages)] at raw
    exact expanded_ne raw

theorem Fits.same (fits : Fits p r) : Same r (p.segment r) (enteredSegment fields r) := by
  refine ⟨entered_selector written,?_,?_,?_,?_⟩
  · rw [Bool.eq_iff_iff,entered_unusable_iff written,cached.unusable_iff]
    exact ⟨fun null => zero_null null.1,fits.null⟩
  · intro shown
    rw [enteredSegment,written.base]
    by_cases own : r = .fs ∨ r = .gs
    · exact guest_base_own host own
    · rw [← or_assoc,or_iff_right own,cached.usable_iff] at shown
      rw [not_or] at own
      rw [cached.base shown own.1 own.2]
      exact guest_base host cached.global (mt zero_null shown) own.1 own.2
  · intro usable
    have used := cached.usable_iff.mp usable
    rw [entered_limit written cached.global (mt zero_null used)]
    split
    · rename_i system
      rw [cached.limit used,loadedLimit,← cached.access used,fits.system used system,if_neg Bool.false_ne_true]
    · rename_i data
      exact (fits.data used data).symm
  · intro usable
    have used := cached.usable_iff.mp usable
    rw [entered_access written cached.global (mt zero_null used),cached.access used]

end InPlace

section Launch
variable (env : HostEnv) (ram : U64 → BitVec 8) (p : Processor) (rdmsr : U32 → U64) (supportXsave supportVpid : Bool)
  (pages : ControlPages) (tscKhz : U32) (vmcs : Nat → U64)

def hbVmThreadGuest : GuestRegisters := hbSetupVmGuestRegister ram p (hbSetupVmHostRegister env ram p)

/-- The part of `hb_vm_thread` that fills the VMCS of the core. -/
def hbVmThreadSetup : Nat → U64 :=
  hbSetupVmcs (hbSetupVmHostRegister env ram p) (hbVmThreadGuest env ram p)
    (hbSetupVmControlRegister rdmsr supportXsave pages) supportVpid (hbCalcVmPreTimerValue rdmsr tscKhz) vmcs

/-- What the VM entry finds in the VMCS. -/
structure Filled (fields : Nat → U64) : Prop where
  word : ∀ entry ∈ guestWrites (hbVmThreadGuest env ram p) (hbCalcVmPreTimerValue rdmsr tscKhz), fields entry.1 = entry.2
  segment : ∀ r, Written (hbVmThreadGuest env ram p) fields r
  debug : (fields 0x4012).getLsbD 2 = true
  longMode : (fields 0x4012).getLsbD 9 = true

theorem setup_filled :
    Filled env ram p rdmsr tscKhz (hbVmThreadSetup env ram p rdmsr supportXsave supportVpid pages tscKhz vmcs) := by
  have control : hbVmThreadSetup env ram p rdmsr supportXsave supportVpid pages tscKhz vmcs 0x4012 =
      (hbSetupVmControlRegister rdmsr supportXsave pages).vmEntryCtrlField.setWidth 64 :=
    setup_field _ _ _ _ _ vmcs (by simp [setupWrites,controlWrites])
  refine ⟨?_,?_,?_,?_⟩
  · intro entry member
    exact guest_field _ _ _ _ _ vmcs member
  · intro r
    obtain ⟨selector,base,limit,access⟩ := segment_fields _ _ _ _ _ vmcs r
    exact ⟨selector,base,limit,access⟩
  · rw [control,hbSetupVmControlRegister]
    simp [vmEntryCtrlIa32eModeGuest,vmEntryLoadDebugCtrl]
  · rw [control,hbSetupVmControlRegister]
    simp [vmEntryCtrlIa32eModeGuest,vmEntryLoadDebugCtrl]

theorem kept_self (word mask : U64) : (word &&& ~~~mask) ||| (word &&& mask) = word := by
  rw [← BitVec.and_or_distrib_left,BitVec.or_comm,BitVec.or_not_self,BitVec.and_allOnes]

variable {env ram p rdmsr tscKhz}

theorem filled_inPlace {fields : Nat → U64} (filled : Filled env ram p rdmsr tscKhz fields)
    (long : p.efer ||| 0x500 = p.efer) (segment : ∀ r, Same r (p.segment r) (enteredSegment fields r)) :
    InPlace p (entered fields p) := by
  have word := filled.word
  simp only [guestWrites,List.forall_mem_append,List.forall_mem_cons,hbVmThreadGuest,hbSetupVmGuestRegister,
    hbSetupVmHostRegister] at word
  obtain ⟨⟨⟨⟨⟨⟨cr0,cr3,cr4,dr7,_,_,rflags,_⟩,_⟩,_⟩,_⟩,_⟩,gdtrBase,idtrBase,gdtrLimit,idtrLimit,debugCtrl,
    sysEnterCs,sysEnterEsp,sysEnterEip,_,pat,efer,_⟩ := word
  have masked : (Monitor.watchedDr7 &&& 0xFFFF2FFF) ||| 0x400 = Monitor.watchedDr7 := by decide
  constructor
  case segment => exact segment
  case cr0 => rw [entered,cr0,kept_self]
  case cr3 => exact cr3
  case cr4 => exact cr4
  case dr7 => rw [entered,if_pos filled.debug,dr7,masked]
  case rflags => exact rflags
  case debugCtrl => exact (if_pos filled.debug).trans debugCtrl
  case gdtr => rw [entered,gdtrBase,gdtrLimit,narrowed (by decide)]
  case idtr => rw [entered,idtrBase,idtrLimit,narrowed (by decide)]
  case sysEnterCs => rw [entered,sysEnterCs,narrowed (by decide)]
  case sysEnterEsp => exact sysEnterEsp
  case sysEnterEip => exact sysEnterEip
  case pat => rw [entered,pat,ite_self]
  case efer => rw [entered,efer,if_pos filled.longMode,long,ite_self]

/-- The core goes on as the guest where it stood, if and only if its data segments are flat, its task
register is loaded and the limits of LDTR and TR count bytes. -/
theorem guest_in_place_iff (env : HostEnv) (ram : U64 → BitVec 8) (p : Processor) (rdmsr : U32 → U64)
    (supportXsave supportVpid : Bool) (pages : ControlPages) (tscKhz : U32) (vmcs : Nat → U64)
    (cached : ∀ r, Cached ram p r) (long : p.efer ||| 0x500 = p.efer) :
    InPlace p (entered (hbVmThreadSetup env ram p rdmsr supportXsave supportVpid pages tscKhz vmcs) p) ↔ ∀ r, Fits p r := by
  have filled := setup_filled env ram p rdmsr supportXsave supportVpid pages tscKhz vmcs
  constructor
  · intro inPlace r
    exact Same.fits (filled.segment r) (cached r) (inPlace.segment r)
  · intro fits
    exact filled_inPlace filled long (fun r => Fits.same (filled.segment r) (cached r) (fits r))

/-- A GDT as Linux has it: the code segment at 0x10, the data segment at 0x18, the TSS at 0x40. -/
def kernelGdt : List (BitVec 8) :=
  List.replicate 16 0 ++ [0xFF,0xFF,0,0,0,0x9B,0xAF,0,0xFF,0xFF,0,0,0,0x93,0xCF,0] ++ List.replicate 32 0 ++
    [0x6F,0x20,0,0x30,0,0x8B,0,0,0,0xFE,0xFF,0xFF,0,0,0,0]

def kernelRam (addr : U64) : BitVec 8 := kernelGdt.getD addr.toNat 0

def kernelThread : Processor where
  cr0 := 0x80050033
  cr3 := 0x100000
  cr4 := 0x26E0
  dr7 := 0x400
  rflags := 0x2
  debugCtrl := 0
  segment
    | .cs => ⟨0x10,0,0xFFFFFFFF,0xA09B⟩
    | .ss => ⟨0x18,0,0xFFFFFFFF,0xC093⟩
    | .gs => ⟨0,0xFFFF888000000000,0,0x10000⟩
    | .tr => ⟨0x40,0xFFFFFE0000003000,0x206F,0x8B⟩
    | _ => ⟨0,0,0,0x10000⟩
  gdtr := ⟨0,0x7F⟩
  idtr := ⟨0xFFFFFE0000000000,0xFFF⟩
  sysEnterCs := 0x10
  sysEnterEsp := 0
  sysEnterEip := 0
  pat := 0
  efer := 0xD01

theorem guest_in_place_sample : InPlace kernelThread (entered
    (hbVmThreadSetup ⟨0x200000,0x300000,0x4000,0x400000,0x500000,0x10,0x18⟩ kernelRam kernelThread sampleMsr true true
      ⟨0,0,0,0,0,0,0⟩ 2000000 (fun _ => 0)) kernelThread) ↔ ∀ r, Fits kernelThread r :=
  guest_in_place_iff ⟨0x200000,0x300000,0x4000,0x400000,0x500000,0x10,0x18⟩ kernelRam kernelThread sampleMsr true true
    ⟨0,0,0,0,0,0,0⟩ 2000000 (fun _ => 0)
    (by intro r; cases r <;> exact ⟨by decide,by decide,by decide,by decide,by decide⟩) (by decide)

end Launch
end HyperBox.Launch
