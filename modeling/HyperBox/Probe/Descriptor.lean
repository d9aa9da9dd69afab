import HyperBox.Probe.Vmx

/-! The fields of LDTR and TR in the guest state, as the probe reads them from the descriptor table
and as the hypervisor does. Both take the sixteen bytes of a descriptor apart, with different
structures. -/
namespace HyperBox.Probe

section Bytes
variable (ram : U64 → BitVec 8) (addr : U64)

def u16At : BitVec 16 := (ram addr).setWidth 16 ||| ((ram (addr + 1)).setWidth 16 <<< 8)

def u32At : BitVec 32 := (u16At ram addr).setWidth 32 ||| ((u16At ram (addr + 2)).setWidth 32 <<< 16)

end Bytes

/-- `struct ldttss_desc` of Linux: the upper part of the limit is a field of four bits. -/
structure LdttssDesc where
  limit0 : BitVec 16
  base0 : BitVec 16
  base1 : BitVec 8
  limit1 : BitVec 4
  base2 : BitVec 8
  base3 : BitVec 32

/-- `struct hb_ldttss_desc64` of the probe: a byte each for `limit1` and `limit2`. -/
structure HbLdttssDesc64 where
  limit0 : BitVec 16
  base0 : BitVec 16
  base1 : BitVec 8
  limit1 : BitVec 8
  limit2 : BitVec 8
  base2 : BitVec 8
  base3 : BitVec 32

section Layout
variable (ram : U64 → BitVec 8) (ent : U64)

def LdttssDesc.read : LdttssDesc where
  limit0 := u16At ram ent
  base0 := u16At ram (ent + 2)
  base1 := ram (ent + 4)
  limit1 := (ram (ent + 6)).setWidth 4
  base2 := ram (ent + 7)
  base3 := u32At ram (ent + 8)

def HbLdttssDesc64.read : HbLdttssDesc64 where
  limit0 := u16At ram ent
  base0 := u16At ram (ent + 2)
  base1 := ram (ent + 4)
  limit1 := ram (ent + 5)
  limit2 := ram (ent + 6)
  base2 := ram (ent + 7)
  base3 := u32At ram (ent + 8)

/-- The type and the flags of a descriptor, which both read as a word behind its fields. -/
def accessAt : BitVec 32 := (u32At ram (ent + 4) >>> 8) &&& 0xF0FF

end Layout

def maskGdtAccess : U64 := 0x03

/-- The processor: its descriptor table, the memory it is in, and the two selectors. -/
structure SegmentEnv where
  gdtrAddress : U64
  ram : U64 → BitVec 8
  ldtr : U64
  tr : U64

def SegmentEnv.entry (env : SegmentEnv) (selector : U64) : U64 := env.gdtrAddress + (selector &&& ~~~maskGdtAccess)

structure ProbeSegment where
  base : U64
  limit : BitVec 32
  access : BitVec 32

structure ProbeGuestState where
  ldtr : ProbeSegment
  tr : ProbeSegment

section Probe
variable (env : SegmentEnv)

def hbProbeLdtrTrFields (selector : U64) : ProbeSegment :=
  if selector = 0 then ⟨0,0,0x10000⟩
  else
    let ent := HbLdttssDesc64.read env.ram (env.entry selector)
    { base := ent.base0.setWidth 64 ||| (ent.base1.setWidth 64 <<< 16) ||| (ent.base2.setWidth 64 <<< 24) |||
        (ent.base3.setWidth 64 <<< 32)
      limit := ent.limit0.setWidth 32 ||| (ent.limit1.setWidth 32 <<< 16)
      access := accessAt env.ram (env.entry selector) }

def hbProbeCaptureGuestState : ProbeGuestState where
  ldtr := hbProbeLdtrTrFields env env.ldtr
  tr := if env.tr = 0 then ⟨0,0,0⟩ else hbProbeLdtrTrFields env env.tr

end Probe

structure VmGuestRegister where
  ldtrBaseAddr : U64
  trBaseAddr : U64
  ldtrLimit : U64
  trLimit : U64
  ldtrAccess : U64
  trAccess : U64

section Setup
variable (env : SegmentEnv)

def descBase (selector : U64) : U64 :=
  let desc := LdttssDesc.read env.ram (env.entry selector)
  desc.base0.setWidth 64 ||| (desc.base1.setWidth 64 <<< 16) ||| (desc.base2.setWidth 64 <<< 24) |||
    (desc.base3.setWidth 64 <<< 32)

def descLimit (selector : U64) : U64 :=
  let desc := LdttssDesc.read env.ram (env.entry selector)
  desc.limit0.setWidth 64 ||| (desc.limit1.setWidth 64 <<< 16)

def descAccess (selector : U64) : U64 := (accessAt env.ram (env.entry selector)).setWidth 64

def hbSetupVmGuestRegister : VmGuestRegister where
  ldtrBaseAddr := if env.ldtr = 0 then 0 else descBase env env.ldtr
  trBaseAddr := if env.tr = 0 then 0 else descBase env env.tr
  ldtrLimit := if env.ldtr = 0 then 0 else descLimit env env.ldtr
  trLimit := if env.tr = 0 then 0 else descLimit env env.tr
  ldtrAccess := if env.ldtr = 0 then 0x10000 else descAccess env env.ldtr
  trAccess := if env.tr = 0 then 0 else descAccess env env.tr

end Setup

/-- The two give the same values for the fields of the VMCS. -/
structure SegmentsAgree (probe : ProbeGuestState) (setup : VmGuestRegister) : Prop where
  ldtrBase : probe.ldtr.base = setup.ldtrBaseAddr
  ldtrLimit : probe.ldtr.limit.setWidth 64 = setup.ldtrLimit
  ldtrAccess : probe.ldtr.access.setWidth 64 = setup.ldtrAccess
  trBase : probe.tr.base = setup.trBaseAddr
  trLimit : probe.tr.limit.setWidth 64 = setup.trLimit
  trAccess : probe.tr.access.setWidth 64 = setup.trAccess

/-- Byte 5, which the probe takes for the upper part of the limit, equals the low half of byte 6,
which is that part. -/
def SegmentEnv.LimitByte (env : SegmentEnv) (selector : U64) : Prop :=
  selector ≠ 0 → env.ram (env.entry selector + 5) = env.ram (env.entry selector + 6) &&& 0x0F

section Agreement

theorem low_half (byte6 : BitVec 8) : (byte6.setWidth 4).setWidth 64 = (byte6 &&& 0x0F).setWidth 64 := by
  apply BitVec.eq_of_toNat_eq
  have mask : (0x0F : BitVec 8).toNat = 2^4 - 1 := rfl
  simp only [BitVec.toNat_setWidth,BitVec.toNat_and,mask,Nat.and_two_pow_sub_one_eq_mod]

theorem limit_widened (limit0 : BitVec 16) (limit1 : BitVec 8) :
    (limit0.setWidth 32 ||| (limit1.setWidth 32 <<< 16)).setWidth 64 =
      limit0.setWidth 64 ||| (limit1.setWidth 64 <<< 16) := by
  have shifted : (limit1.setWidth 32 <<< 16).setWidth 64 = limit1.setWidth 64 <<< 16 := by
    apply BitVec.eq_of_toNat_eq
    simp only [BitVec.toNat_setWidth,BitVec.toNat_shiftLeft,Nat.shiftLeft_eq]
    have byte := limit1.isLt
    omega
  have low : (limit0.setWidth 32).setWidth 64 = limit0.setWidth 64 := by
    apply BitVec.eq_of_toNat_eq
    simp only [BitVec.toNat_setWidth]
    omega
  rw [BitVec.setWidth_or,shifted,low]

theorem limit_upper (limit0 : BitVec 16) (limit1 : BitVec 8) :
    ((limit0.setWidth 64 ||| (limit1.setWidth 64 <<< 16)) >>> 16).setWidth 8 = limit1 := by
  ext i bound
  have above : ¬ 16 + i < 16 := by omega
  have inside : 16 + i < 64 := by omega
  simp [above,inside,BitVec.getLsbD_eq_getElem bound]

theorem limit_eq_iff (limit0 : BitVec 16) (byte5 byte6 : BitVec 8) :
    (limit0.setWidth 32 ||| (byte5.setWidth 32 <<< 16)).setWidth 64 =
        limit0.setWidth 64 ||| ((byte6.setWidth 4).setWidth 64 <<< 16) ↔ byte5 = byte6 &&& 0x0F := by
  rw [limit_widened,low_half]
  constructor
  · intro same
    rw [← limit_upper limit0 byte5,same,limit_upper]
  · intro same
    rw [same]

section Fields
variable {env : SegmentEnv} {selector : U64}

theorem probe_base (used : selector ≠ 0) : (hbProbeLdtrTrFields env selector).base = descBase env selector := by
  rw [hbProbeLdtrTrFields,if_neg used]
  rfl

theorem probe_access (used : selector ≠ 0) :
    (hbProbeLdtrTrFields env selector).access.setWidth 64 = descAccess env selector := by
  rw [hbProbeLdtrTrFields,if_neg used]
  rfl

theorem probe_limit_iff (used : selector ≠ 0) :
    (hbProbeLdtrTrFields env selector).limit.setWidth 64 = descLimit env selector ↔ env.LimitByte selector := by
  rw [hbProbeLdtrTrFields,if_neg used,SegmentEnv.LimitByte]
  exact (limit_eq_iff _ _ _).trans ⟨fun same _ => same,fun byte => byte used⟩

/-- A descriptor that is present has the top bit of byte 5 set, so its limits never agree. -/
theorem present_not_limitByte (used : selector ≠ 0) (present : (env.ram (env.entry selector + 5)).getLsbD 7 = true) :
    ¬ env.LimitByte selector := by
  intro byte
  rw [byte used] at present
  simp at present

end Fields

theorem ldtr_limit_iff (env : SegmentEnv) :
    (hbProbeCaptureGuestState env).ldtr.limit.setWidth 64 = (hbSetupVmGuestRegister env).ldtrLimit ↔
      env.LimitByte env.ldtr := by
  unfold hbProbeCaptureGuestState hbSetupVmGuestRegister
  dsimp only
  by_cases null : env.ldtr = 0
  · rw [if_pos null,hbProbeLdtrTrFields,if_pos null]
    exact iff_of_true rfl (fun used => absurd null used)
  · rw [if_neg null]
    exact probe_limit_iff null

theorem tr_limit_iff (env : SegmentEnv) :
    (hbProbeCaptureGuestState env).tr.limit.setWidth 64 = (hbSetupVmGuestRegister env).trLimit ↔
      env.LimitByte env.tr := by
  unfold hbProbeCaptureGuestState hbSetupVmGuestRegister
  dsimp only
  by_cases null : env.tr = 0
  · rw [if_pos null,if_pos null]
    exact iff_of_true rfl (fun used => absurd null used)
  · rw [if_neg null,if_neg null]
    exact probe_limit_iff null

theorem base_access_agree (env : SegmentEnv) :
    (hbProbeCaptureGuestState env).ldtr.base = (hbSetupVmGuestRegister env).ldtrBaseAddr ∧
    (hbProbeCaptureGuestState env).ldtr.access.setWidth 64 = (hbSetupVmGuestRegister env).ldtrAccess ∧
    (hbProbeCaptureGuestState env).tr.base = (hbSetupVmGuestRegister env).trBaseAddr ∧
    (hbProbeCaptureGuestState env).tr.access.setWidth 64 = (hbSetupVmGuestRegister env).trAccess := by
  unfold hbProbeCaptureGuestState hbSetupVmGuestRegister
  dsimp only
  refine ⟨?_,?_,?_,?_⟩
  · split
    next null => rw [hbProbeLdtrTrFields,if_pos null]
    next used => exact probe_base used
  · split
    next null => rw [hbProbeLdtrTrFields,if_pos null]; rfl
    next used => exact probe_access used
  · split
    next null => rfl
    next used => exact probe_base used
  · split
    next null => rfl
    next used => exact probe_access used

/-- For every descriptor table and both selectors, the two agree exactly if byte 5 of each
descriptor that is used happens to be the upper part of its limit. -/
theorem segments_agree_iff (env : SegmentEnv) :
    SegmentsAgree (hbProbeCaptureGuestState env) (hbSetupVmGuestRegister env) ↔
      env.LimitByte env.ldtr ∧ env.LimitByte env.tr := by
  obtain ⟨ldtrBase,ldtrAccess,trBase,trAccess⟩ := base_access_agree env
  constructor
  · intro agree
    exact ⟨(ldtr_limit_iff env).mp agree.ldtrLimit,(tr_limit_iff env).mp agree.trLimit⟩
  · rintro ⟨ldtr,tr⟩
    exact ⟨ldtrBase,(ldtr_limit_iff env).mpr ldtr,ldtrAccess,trBase,(tr_limit_iff env).mpr tr,trAccess⟩

end Agreement

section Sample

def tssTable : SegmentEnv where
  gdtrAddress := 0x1000
  ram addr :=
    if addr = 0x1040 then 0x6F
    else if addr = 0x1041 then 0x20
    else if addr = 0x1045 then 0x8B
    else 0
  ldtr := 0
  tr := 0x40

/-- The access byte becomes a part of the limit. -/
theorem tss_limit_differs :
    (hbSetupVmGuestRegister tssTable).trLimit = 0x206F ∧ (hbProbeCaptureGuestState tssTable).tr.limit = 0x8B206F ∧
    ¬ SegmentsAgree (hbProbeCaptureGuestState tssTable) (hbSetupVmGuestRegister tssTable) := by
  refine ⟨by decide,by decide,fun agree => ?_⟩
  have byte := (tr_limit_iff tssTable).mp agree.trLimit
  exact present_not_limitByte (by decide) (by decide) byte

end Sample
end HyperBox.Probe
