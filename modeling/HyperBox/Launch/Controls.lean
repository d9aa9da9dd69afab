import HyperBox.Exit.Halves
import HyperBox.Nested.Exit
import HyperBox.Nested.ControlRegister

/-! The controls of the VMCS. The processor tells for each word of controls which bits must be set
and which may be; `hb_setup_vm_control_register` adds its own to the first. The bitmaps name the
fields whose VMREAD and VMWRITE exit in spite of VMCS shadowing. -/
namespace HyperBox.Launch
open HyperBox.Library HyperBox.PageTable HyperBox.Exit

def msrIa32VmxMisc : U32 := 0x485
def msrIa32VmxProcbasedCtls2 : U32 := 0x48B
def msrIa32VmxTruePinbasedCtls : U32 := 0x48D
def msrIa32VmxTrueProcbasedCtls : U32 := 0x48E
def msrIa32VmxTrueExitCtrls : U32 := 0x48F
def msrIa32VmxTrueEntryCtrls : U32 := 0x490

def vmEntryLoadDebugCtrl : U32 := 0x01 <<< 2
def vmEntryCtrlIa32eModeGuest : U32 := 0x01 <<< 9
def vmExitSaveDebugCtrl : U32 := 0x01 <<< 2
def vmExitCtrlHostAddrSize : U32 := 0x01 <<< 9
def vmExitCtrlSaveIa32Efer : U32 := 0x01 <<< 20

def priProcCtrlUseMoveDr : U32 := 0x01 <<< 23
def priProcCtrlUseIoBitmap : U32 := 0x01 <<< 25
def priProcCtrlUseMsrBitmap : U32 := 0x01 <<< 28
def priProcCtrlUseSecCtrl : U32 := 0x01 <<< 31

def secProcCtrlUseEpt : U32 := 0x01 <<< 1
def secProcCtrlEnableRdtscp : U32 := 0x01 <<< 3
def secProcCtrlEnableVpid : U32 := 0x01 <<< 5
def secProcCtrlUnrestGuest : U32 := 0x01 <<< 7
def secProcCtrlEnableInvpcid : U32 := 0x01 <<< 12
def secProcCtrlVmcsShadowing : U32 := 0x01 <<< 14
def secProcCtrlEnableXsave : U32 := 0x01 <<< 20

def vmBitEptPageWalkLengthBitmap : U64 := 0x03 <<< 3
def vmBitEptMemTypeWb : U64 := 0x06 <<< 0

structure ControlPages where
  ioBitmapAddrA : U64
  ioBitmapAddrB : U64
  msrBitmapAddr : U64
  vmreadBitmapAddr : U64
  vmwriteBitmapAddr : U64
  virtApicPageAddr : U64
  eptPml4 : U64

structure VmControlRegister where
  pinBasedCtrl : U32
  priProcBasedCtrl : U32
  secProcBasedCtrl : U32
  exceptBitmap : U64
  ioBitmapAddrA : U64
  ioBitmapAddrB : U64
  eptPtr : U64
  msrBitmapAddr : U64
  vmEntryCtrlField : U32
  vmExitCtrlField : U32
  virtApicPageAddr : U64
  cr0GuestHostMask : U64
  cr0ReadShadow : U64
  cr4GuestHostMask : U64
  cr4ReadShadow : U64
  vmreadBitmapAddr : U64
  vmwriteBitmapAddr : U64

section Setup
variable (rdmsr : U32 → U64) (supportXsave : Bool) (pages : ControlPages)

def offered (flag : U32) : Bool := upper (rdmsr msrIa32VmxProcbasedCtls2) &&& flag ≠ 0

/-- `sec_flags`: two that Hyper-box cannot do without, and the others as far as they are offered. -/
def secFlags : U32 :=
  secProcCtrlUnrestGuest ||| secProcCtrlUseEpt |||
    (if offered rdmsr secProcCtrlEnableInvpcid then secProcCtrlEnableInvpcid else 0) |||
    (if supportXsave && offered rdmsr secProcCtrlEnableXsave then secProcCtrlEnableXsave else 0) |||
    (if offered rdmsr secProcCtrlEnableRdtscp then secProcCtrlEnableRdtscp else 0) |||
    (if offered rdmsr secProcCtrlVmcsShadowing then secProcCtrlVmcsShadowing else 0) |||
    (if offered rdmsr secProcCtrlEnableVpid then secProcCtrlEnableVpid else 0)

def hbSetupVmControlRegister : VmControlRegister where
  pinBasedCtrl := low (rdmsr msrIa32VmxTruePinbasedCtls)
  priProcBasedCtrl := low (rdmsr msrIa32VmxTrueProcbasedCtls) |||
    (priProcCtrlUseIoBitmap ||| priProcCtrlUseMsrBitmap ||| priProcCtrlUseSecCtrl ||| priProcCtrlUseMoveDr)
  secProcBasedCtrl := low (rdmsr msrIa32VmxProcbasedCtls2) ||| secFlags rdmsr supportXsave
  exceptBitmap := 0x01 <<< 1
  ioBitmapAddrA := pages.ioBitmapAddrA
  ioBitmapAddrB := pages.ioBitmapAddrB
  eptPtr := pages.eptPml4 ||| vmBitEptPageWalkLengthBitmap ||| vmBitEptMemTypeWb
  msrBitmapAddr := pages.msrBitmapAddr
  vmEntryCtrlField := low (rdmsr msrIa32VmxTrueEntryCtrls) ||| (vmEntryCtrlIa32eModeGuest ||| vmEntryLoadDebugCtrl)
  vmExitCtrlField := low (rdmsr msrIa32VmxTrueExitCtrls) |||
    (vmExitCtrlHostAddrSize ||| vmExitSaveDebugCtrl ||| vmExitCtrlSaveIa32Efer)
  virtApicPageAddr := pages.virtApicPageAddr
  cr0GuestHostMask := Ept.cr0BitWp
  cr0ReadShadow := Ept.cr0BitWp
  cr4GuestHostMask := Nested.ControlRegister.cr4BitVmxe ||| Nested.ControlRegister.cr4BitSmep |||
    Nested.ControlRegister.cr4BitMce
  cr4ReadShadow := Nested.ControlRegister.cr4BitVmxe ||| Nested.ControlRegister.cr4BitSmep
  vmreadBitmapAddr := pages.vmreadBitmapAddr
  vmwriteBitmapAddr := pages.vmwriteBitmapAddr

end Setup

section Capabilities

/-- The check of a word of controls at a VM entry: all bits that must be set, and no bit that may not. -/
def Admits (capability : U64) (control : U32) : Prop :=
  low capability &&& ~~~control = 0 ∧ control &&& ~~~upper capability = 0

/-- A bit that must be set may be set. -/
def WellFormed (capability : U64) : Prop := low capability &&& ~~~upper capability = 0

instance (capability : U64) : Decidable (WellFormed capability) := inferInstanceAs (Decidable (_ = _))

structure Capable (rdmsr : U32 → U64) : Prop where
  pin : WellFormed (rdmsr msrIa32VmxTruePinbasedCtls)
  pri : WellFormed (rdmsr msrIa32VmxTrueProcbasedCtls)
  sec : WellFormed (rdmsr msrIa32VmxProcbasedCtls2)
  entry : WellFormed (rdmsr msrIa32VmxTrueEntryCtrls)
  exit : WellFormed (rdmsr msrIa32VmxTrueExitCtrls)

structure Admitted (rdmsr : U32 → U64) (control : VmControlRegister) : Prop where
  pin : Admits (rdmsr msrIa32VmxTruePinbasedCtls) control.pinBasedCtrl
  pri : Admits (rdmsr msrIa32VmxTrueProcbasedCtls) control.priProcBasedCtrl
  sec : Admits (rdmsr msrIa32VmxProcbasedCtls2) control.secProcBasedCtrl
  entry : Admits (rdmsr msrIa32VmxTrueEntryCtrls) control.vmEntryCtrlField
  exit : Admits (rdmsr msrIa32VmxTrueExitCtrls) control.vmExitCtrlField

/-- What the processor must have for the controls to pass; nothing else is asked of it. -/
structure Required (rdmsr : U32 → U64) : Prop where
  pri : (priProcCtrlUseIoBitmap ||| priProcCtrlUseMsrBitmap ||| priProcCtrlUseSecCtrl ||| priProcCtrlUseMoveDr) &&&
    ~~~upper (rdmsr msrIa32VmxTrueProcbasedCtls) = 0
  sec : (secProcCtrlUnrestGuest ||| secProcCtrlUseEpt) &&& ~~~upper (rdmsr msrIa32VmxProcbasedCtls2) = 0
  entry : (vmEntryCtrlIa32eModeGuest ||| vmEntryLoadDebugCtrl) &&& ~~~upper (rdmsr msrIa32VmxTrueEntryCtrls) = 0
  exit : (vmExitCtrlHostAddrSize ||| vmExitSaveDebugCtrl ||| vmExitCtrlSaveIa32Efer) &&&
    ~~~upper (rdmsr msrIa32VmxTrueExitCtrls) = 0

variable {capability : U64} {rdmsr : U32 → U64}

theorem or_within (a b c : U32) : (a ||| b) &&& ~~~c = 0 ↔ a &&& ~~~c = 0 ∧ b &&& ~~~c = 0 := by
  rw [BitVec.and_comm,BitVec.and_or_distrib_left,BitVec.and_comm _ a,BitVec.and_comm _ b]
  exact BitVec.or_eq_zero_iff

theorem kept_within (a b : U32) : a &&& ~~~(a ||| b) = 0 := by
  ext k
  simp
  grind

theorem admits_request (formed : WellFormed capability) (request : U32) :
    Admits capability (low capability ||| request) ↔ request &&& ~~~upper capability = 0 := by
  rw [Admits,or_within]
  constructor
  · intro admits
    exact admits.2.2
  · intro within
    exact ⟨kept_within _ _,formed,within⟩

variable (rdmsr) in
/-- A single flag that is asked for only where it is offered. -/
theorem offered_within (i : Nat) (asked : Bool) :
    (if asked && offered rdmsr (BitVec.twoPow 32 i) then BitVec.twoPow 32 i else 0) &&&
      ~~~upper (rdmsr msrIa32VmxProcbasedCtls2) = 0 := by
  cases has : asked && offered rdmsr (BitVec.twoPow 32 i) with
  | false => exact BitVec.zero_and
  | true =>
    obtain ⟨_,has⟩ := Bool.and_eq_true_iff.mp has
    rw [offered,decide_eq_true_eq,BitVec.and_twoPow] at has
    cases bit : (upper (rdmsr msrIa32VmxProcbasedCtls2)).getLsbD i with
    | false => simp [bit] at has
    | true =>
      rw [if_pos rfl,BitVec.twoPow_and,if_neg (by simp [bit])]
      rfl

theorem secFlags_within (supportXsave : Bool) : secFlags rdmsr supportXsave &&& ~~~upper (rdmsr msrIa32VmxProcbasedCtls2) = 0 ↔
    (secProcCtrlUnrestGuest ||| secProcCtrlUseEpt) &&& ~~~upper (rdmsr msrIa32VmxProcbasedCtls2) = 0 := by
  have invpcid := offered_within rdmsr 12 true
  have xsave := offered_within rdmsr 20 supportXsave
  have rdtscp := offered_within rdmsr 3 true
  have shadowing := offered_within rdmsr 14 true
  have vpid := offered_within rdmsr 5 true
  simp only [Bool.true_and] at invpcid rdtscp shadowing vpid
  rw [secFlags,or_within,or_within,or_within,or_within,or_within]
  constructor
  · intro within
    exact within.1.1.1.1.1
  · intro within
    exact ⟨⟨⟨⟨⟨within,invpcid⟩,xsave⟩,rdtscp⟩,shadowing⟩,vpid⟩

/-- The VM entry takes the controls if and only if the processor has the features that Hyper-box
always asks for. -/
theorem controls_admitted_iff (rdmsr : U32 → U64) (supportXsave : Bool) (pages : ControlPages) (capable : Capable rdmsr) :
    Admitted rdmsr (hbSetupVmControlRegister rdmsr supportXsave pages) ↔ Required rdmsr := by
  have pin : Admits (rdmsr msrIa32VmxTruePinbasedCtls) (low (rdmsr msrIa32VmxTruePinbasedCtls)) := by
    have plain := (admits_request capable.pin 0#32).mpr BitVec.zero_and
    rwa [BitVec.or_zero] at plain
  have pri := admits_request capable.pri
    (priProcCtrlUseIoBitmap ||| priProcCtrlUseMsrBitmap ||| priProcCtrlUseSecCtrl ||| priProcCtrlUseMoveDr)
  have sec := (admits_request capable.sec (secFlags rdmsr supportXsave)).trans (secFlags_within supportXsave)
  have entry := admits_request capable.entry (vmEntryCtrlIa32eModeGuest ||| vmEntryLoadDebugCtrl)
  have exit := admits_request capable.exit (vmExitCtrlHostAddrSize ||| vmExitSaveDebugCtrl ||| vmExitCtrlSaveIa32Efer)
  constructor
  · intro admitted
    exact ⟨pri.mp admitted.pri,sec.mp admitted.sec,entry.mp admitted.entry,exit.mp admitted.exit⟩
  · intro required
    exact ⟨pin,pri.mpr required.pri,sec.mpr required.sec,entry.mpr required.entry,exit.mpr required.exit⟩

/-- The capabilities of a processor that Hyper-box runs on. Each word has bits that must be 1 but for
the secondary controls. -/
def sampleMsr (msr : U32) : U64 :=
  if msr = msrIa32VmxTruePinbasedCtls then 0x0000007F00000016
  else if msr = msrIa32VmxTrueProcbasedCtls then 0xFFF9FFFE04006172
  else if msr = msrIa32VmxProcbasedCtls2 then 0x005FBCFF00000000
  else if msr = msrIa32VmxTrueEntryCtrls then 0x0003FFFF000011FB
  else if msr = msrIa32VmxTrueExitCtrls then 0x01FFFFFF00036DFB
  else 0

theorem controls_admitted_sample : Admitted sampleMsr (hbSetupVmControlRegister sampleMsr true ⟨0,0,0,0,0,0,0⟩) :=
  (controls_admitted_iff sampleMsr true ⟨0,0,0,0,0,0,0⟩ ⟨by decide,by decide,by decide,by decide,by decide⟩).mpr
    ⟨by decide,by decide,by decide,by decide⟩

end Capabilities

section Bitmaps

/-- The bytes of the two bitmaps. -/
structure VmcsBitmaps where
  vmread : Nat → BitVec 8
  vmwrite : Nat → BitVec 8

def setBit (page : Nat → BitVec 8) (fieldNumber : Nat) : Nat → BitVec 8 :=
  Function.update page (fieldNumber / 8) (page (fieldNumber / 8) ||| (0x01 : BitVec 8) <<< (fieldNumber % 8))

def hbVmSetVmreadVmwriteBitmap (bitmaps : VmcsBitmaps) (fieldNumber : Nat) : VmcsBitmaps :=
  ⟨setBit bitmaps.vmread fieldNumber,setBit bitmaps.vmwrite fieldNumber⟩

/-- The fields with the bitmaps set, in the order of `hb_setup_vm_control_register`. -/
def trappedFields : List Nat := [Nested.vmHostRip.toNat,Nested.vmHostRsp.toNat,Nested.vmHostCr3.toNat]

def setupBitmaps : VmcsBitmaps := run hbVmSetVmreadVmwriteBitmap ⟨fun _ => 0,fun _ => 0⟩ trappedFields

/-- How the processor reads a bitmap: a field beyond its end always exits. -/
def exits (page : Nat → BitVec 8) (field : U64) : Bool :=
  decide (2^15 ≤ field.toNat) || (page (field.toNat / 8)).getLsbD (field.toNat % 8)

theorem setBit_bit (page : Nat → BitVec 8) (fieldNumber k : Nat) :
    (setBit page fieldNumber (k / 8)).getLsbD (k % 8) =
      ((page (k / 8)).getLsbD (k % 8) || decide (k = fieldNumber)) := by
  have one : ((0x01 : BitVec 8) <<< (fieldNumber % 8)).getLsbD (k % 8) = decide (k % 8 = fieldNumber % 8) := by
    rw [show (0x01 : BitVec 8) = BitVec.twoPow 8 0 from rfl,BitVec.shiftLeft_eq_mul_twoPow,BitVec.twoPow_mul_twoPow_eq,
      BitVec.getLsbD_twoPow]
    grind
  by_cases byte : k / 8 = fieldNumber / 8
  · rw [setBit,byte,Function.update_self,BitVec.getLsbD_or,one]
    grind
  · rw [setBit,Function.update_of_ne byte]
    grind

theorem run_setBit (fields : List Nat) (page : Nat → BitVec 8) (k : Nat) :
    (run setBit page fields (k / 8)).getLsbD (k % 8) = ((page (k / 8)).getLsbD (k % 8) || fields.contains k) := by
  induction fields generalizing page with
  | nil => simp
  | cons field rest ih =>
    rw [run_cons,ih,setBit_bit,List.contains_cons,Bool.or_assoc]
    rfl

theorem run_bitmaps (bitmaps : VmcsBitmaps) (fields : List Nat) : run hbVmSetVmreadVmwriteBitmap bitmaps fields =
    ⟨run setBit bitmaps.vmread fields,run setBit bitmaps.vmwrite fields⟩ := by
  induction fields generalizing bitmaps with
  | nil => rfl
  | cons field rest ih => exact ih _

/-- Of the fields that the bitmaps reach, the processor exits for those of `vmwriteBitmap`, on
VMREAD and on VMWRITE. -/
theorem bitmaps_trap (field : U64) :
    exits setupBitmaps.vmread field = (decide (2^15 ≤ field.toNat) || Nested.vmwriteBitmap field) ∧
      exits setupBitmaps.vmwrite field = (decide (2^15 ≤ field.toNat) || Nested.vmwriteBitmap field) := by
  have trapped : trappedFields.contains field.toNat = Nested.vmwriteBitmap field := by
    simp only [trappedFields,Nested.vmwriteBitmap,List.contains_cons,List.contains_nil,beq_eq_decide,BitVec.toNat_inj]
  rw [exits,exits,setupBitmaps,run_bitmaps,run_setBit,trapped]
  simp

end Bitmaps
end HyperBox.Launch
