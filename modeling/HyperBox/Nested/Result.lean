import HyperBox.Nested.LaunchState
import HyperBox.Nested.Resume

/-! What a guest hypervisor learns from the arithmetic flags. The processor reports a failed VMX
instruction in CF or ZF; the handlers clear both before they start, and drop what the helpers
return, so that the flags say the same whatever comes of the work. -/
namespace HyperBox.Nested
open HyperBox.Library HyperBox.PageTable HyperBox.Ept

section Work
variable {n : Nat} (env : VmxEnv n) (cpuId : Fin n) (stale : U64) (s : NestedState n)

def reads (field : U64) : Bool := (hbReadVmcs env cpuId s field).isSome

def writes (field : U64) : Bool := s.current cpuId ≠ noVmcs ∧ env.supported field ∧ env.writable field

def setShadowingWorks (shadowVmcsPhyAddr : U64) : Bool :=
  if !env.supportVmcsShadowing then true
  else
    let cleared := hbClearVmcs env cpuId s shadowVmcsPhyAddr
    let s := shadowStore env (cleared.2.record (.setShadow shadowVmcsPhyAddr)) shadowVmcsPhyAddr true
    cleared.1 && writes env cpuId s vmVmcsLinkPtr

def clearShadowingWorks : Bool :=
  if !env.supportVmcsShadowing then true
  else
    match hbReadVmcs env cpuId s vmVmcsLinkPtr with
    | none => false
    | some shadowVmcsPhyAddr =>
      shadowVmcsPhyAddr = noVmcs || (writes env cpuId s vmVmcsLinkPtr &&
        (hbClearVmcs env cpuId (hbWriteVmcs env cpuId s vmVmcsLinkPtr noVmcs) shadowVmcsPhyAddr).1)

def type1Works (inst : VmxInst) : Bool :=
  let s := hbAdvanceVmGuestRip env cpuId stale s
  let s := hbClearVmxInstFlags env cpuId stale s
  match inst with
  | .vmclear data =>
    let cleared := hbClearVmcs env cpuId s data
    cleared.1 && (cleared.2.nestedVmcsPtr cpuId ≠ data ||
      clearShadowingWorks env cpuId (cleared.2.setNestedVmcsPtr cpuId 0))
  | .vmptrld data => setShadowingWorks env cpuId (s.setNestedVmcsPtr cpuId data) data
  | _ => true

def vmwriteWorks (slot : Fin maxNestedVmcs) (prevVmcs regField destAddr : U64) : Bool :=
  let s := s.updateSlot slot (saveHostField regField destAddr)
  match hbLoadVmcs env cpuId s (s.nestedVmcsPtr cpuId) with
  | (true,s) =>
    let written := guestVmwrite env cpuId s regField (hostFieldValue env cpuId regField destAddr)
    writes env cpuId s regField && (hbLoadVmcs env cpuId written prevVmcs).1
  | (false,_) => false

/-- The three fields of the host state are read from the slot. -/
def vmreadWorks (slot : Fin maxNestedVmcs) (prevVmcs regField : U64) (toRsp : Bool) : Bool :=
  match hbLoadVmcs env cpuId s (s.nestedVmcsPtr cpuId) with
  | (true,s) =>
    let tempValue := nestedFieldValue env cpuId s (s.nestedVmcsArray slot) regField
    let stored := if toRsp then hbWriteVmcs env cpuId s vmGuestRsp tempValue else s
    (hostFields.contains regField || reads env cpuId s regField) && (!toRsp || writes env cpuId s vmGuestRsp) &&
      (hbLoadVmcs env cpuId stored prevVmcs).1
  | (false,_) => false

def type2Works (inst : VmxInst) : Bool :=
  let s := hbAdvanceVmGuestRip env cpuId stale s
  let s := hbClearVmxInstFlags env cpuId stale s
  let prevVmcs := hbStoreVmcs cpuId s
  match hbFindNestedVmcsStruct s.nestedVmcsArray (s.nestedVmcsPtr cpuId) with
  | none => false
  | some slot =>
    let s := s.updateSlot slot (fun entry => { entry with vmcsPtr := s.nestedVmcsPtr cpuId })
    s.nestedVmcsPtr cpuId ≠ 0 && match inst with
      | .vmwrite regField destAddr => vmwriteWorks env cpuId s slot prevVmcs regField destAddr
      | .vmread regField toRsp => vmreadWorks env cpuId s slot prevVmcs regField toRsp
      | _ => true

def enterWorks : Bool :=
  let advanced := hbAdvanceVmGuestRip env cpuId stale s
  let entered := enterNested env cpuId stale s
  clearShadowingWorks env cpuId advanced && s.nestedVmcsPtr cpuId ≠ 0 && entered.1 &&
    writes env cpuId entered.2 vmHostRsp

/-- Whether what a handler does for an instruction succeeds: the helpers that it calls, the search
for a slot and the check that there is a nested VMCS at all. -/
def works (inst : VmxInst) : Bool :=
  match inst with
  | .vmclear _ => type1Works env cpuId stale s inst
  | .vmptrld _ => type1Works env cpuId stale s inst
  | .vmread _ _ => type2Works env cpuId stale s inst
  | .vmwrite _ _ => type2Works env cpuId stale s inst
  | .vmlaunch => enterWorks env cpuId stale s
  | .vmresume => enterWorks env cpuId stale s
  | _ => true

def hasResult : VmxInst → Bool
  | .vmclear _ => true
  | .vmptrld _ => true
  | .vmread _ _ => true
  | .vmwrite _ _ => true
  | .vmlaunch => true
  | .vmresume => true
  | _ => false

def resultFlags : U64 :=
  s.field (env.guestVmcsPhyAddr cpuId) vmGuestRflags &&& (rflagsBitCf ||| rflagsBitZf)

/-- The guest hypervisor goes on behind an instruction that failed, with a flag to say so, and
with both flags clear if the instruction did not fail. -/
def Reports (exit : VmxExit n) : Prop :=
  let before := hbWriteVmcs env exit.cpuId (vmExit exit s) vmCtrlVmEntryInstLength 0
  let after := vmxStep env s (.exit exit)
  if works env exit.cpuId exit.stale before exit.inst then resultFlags env exit.cpuId after = 0
  else after.field (env.guestVmcsPhyAddr exit.cpuId) vmGuestRip =
      exit.saved vmGuestRip + exit.saved vmDataVmExitInstLength ∧ resultFlags env exit.cpuId after ≠ 0

end Work

namespace Control
variable {n : Nat} (env : VmxEnv n) (cpuId : Fin n) (t : Control n)

/-- The region that is the shadow VMCS now can be cleared. -/
def Unlinkable : Prop := env.supportVmcsShadowing → t.link cpuId ≠ noVmcs → clearable env cpuId (t.link cpuId)

def Accessible : Prop :=
  t.pointer cpuId ≠ 0 ∧ hbFindNestedVmcsStruct t.array (t.pointer cpuId) ≠ none ∧ t.loads env cpuId (t.pointer cpuId)

def Enterable : Prop :=
  t.Unlinkable env cpuId ∧ t.pointer cpuId ≠ 0 ∧ t.loads env cpuId (t.pointer cpuId)

/-- The states and operands that an instruction succeeds with. -/
def Workable (inst : VmxInst) : Prop :=
  match inst with
  | .vmclear data => clearable env cpuId data ∧ (t.pointer cpuId = data → t.Unlinkable env cpuId)
  | .vmptrld data => env.supportVmcsShadowing → clearable env cpuId data
  | .vmread regField _ => t.Accessible env cpuId ∧ (regField ∈ hostFields ∨ env.supported regField)
  | .vmwrite regField _ => t.Accessible env cpuId ∧ env.supported regField ∧ env.writable regField
  | .vmlaunch => t.Enterable env cpuId
  | .vmresume => t.Enterable env cpuId
  | _ => True

end Control

section Own
variable {n : Nat} {env : VmxEnv n} {G : U64 → Prop} {s : NestedState n} {cpuId : Fin n} {addr : U64}

theorem hbWriteVmcs_elsewhere {region field value : U64} (apart : region ≠ s.current cpuId) (other : U64) :
    (hbWriteVmcs env cpuId s field value).field region other = s.field region other := by
  unfold hbWriteVmcs
  split
  · exact updateRegion_field_other apart _ _
  · rfl

theorem hbLoadVmcs_field (region field : U64) :
    (hbLoadVmcs env cpuId s addr).2.field region field = s.field region field := by
  rcases hbLoadVmcs_cases env cpuId s addr with loaded | failed
  · rw [loaded]
    rfl
  · rw [failed]

theorem emulateVmwrite_own (foreign : Foreign env (s.nestedVmcsPtr cpuId)) (slot : Fin maxNestedVmcs)
    (prevVmcs regField destAddr field : U64) :
    (emulateVmwrite env cpuId s slot prevVmcs regField destAddr).field (env.guestVmcsPhyAddr cpuId) field =
      s.field (env.guestVmcsPhyAddr cpuId) field := by
  unfold emulateVmwrite
  rcases hbLoadVmcs_cases env cpuId (s.updateSlot slot (saveHostField regField destAddr)) (s.nestedVmcsPtr cpuId)
    with loaded | failed
  · simp only [NestedState.updateSlot_nestedVmcsPtr,loaded]
    rw [hbLoadVmcs_field,guestVmwrite,hbWriteVmcs_elsewhere (by simpa using foreign_ne_own foreign)]
    rfl
  · simp only [NestedState.updateSlot_nestedVmcsPtr,failed]
    rfl

theorem emulateVmread_own (foreign : Foreign env (s.nestedVmcsPtr cpuId)) (slot : Fin maxNestedVmcs)
    (prevVmcs regField : U64) (toRsp : Bool) (field : U64) :
    (emulateVmread env cpuId s slot prevVmcs regField toRsp).field (env.guestVmcsPhyAddr cpuId) field =
      s.field (env.guestVmcsPhyAddr cpuId) field := by
  unfold emulateVmread
  rcases hbLoadVmcs_cases env cpuId s (s.nestedVmcsPtr cpuId) with loaded | failed
  · simp only [loaded]
    rw [hbLoadVmcs_field]
    split
    · rw [hbWriteVmcs_elsewhere (by simpa using foreign_ne_own foreign)]
      rfl
    · rfl
  · rw [failed]

theorem clearShadowing_field (placed : Placed env (Foreign env) s) (home : s.current cpuId = env.guestVmcsPhyAddr cpuId)
    (stale : U64) {field : U64} (differ : field ≠ vmVmcsLinkPtr) :
    (hbVmClearVmcsShadowingToCurrent env cpuId stale s).field (env.guestVmcsPhyAddr cpuId) field =
      s.field (env.guestVmcsPhyAddr cpuId) field := by
  have key : fieldKey vmVmcsLinkPtr ≠ field := by
    rw [show fieldKey vmVmcsLinkPtr = vmVmcsLinkPtr by decide]
    exact differ.symm
  unfold hbVmClearVmcsShadowingToCurrent
  rw [hbReadVmcs_link home,Option.getD_some]
  split
  next => rfl
  next =>
    dsimp only
    split
    next => rfl
    next linked =>
      have foreign := (placed.link cpuId).resolve_left linked
      have page : env.guestVmcsPhyAddr cpuId ≠ pageStart (s.field (env.guestVmcsPhyAddr cpuId) vmVmcsLinkPtr + 3) :=
        fun same => foreign ⟨cpuId,.inl same.symm⟩
      rw [shadowStore_field page]
      exact (hbClearVmcs_field _ _ _).trans (hbWriteVmcs_field_other key)

end Own

section Flags
variable {n : Nat} {env : VmxEnv n} {s : NestedState n} {cpuId : Fin n} (stale : U64)

theorem hbClearVmxInstFlags_result (home : s.current cpuId = env.guestVmcsPhyAddr cpuId) :
    resultFlags env cpuId (hbClearVmxInstFlags env cpuId stale s) = 0 := by
  have real := home_real home
  have none : ~~~(rflagsBitCf ||| rflagsBitZf) &&& (rflagsBitCf ||| rflagsBitZf) = 0 := by decide
  rw [resultFlags,← home,hbClearVmxInstFlags,hbWriteVmcs_natural (by simp [naturalFields]) _ real,
    BitVec.and_assoc,none]
  exact BitVec.and_zero

theorem resultFlags_congr {s' : NestedState n}
    (same : s'.field (env.guestVmcsPhyAddr cpuId) vmGuestRflags = s.field (env.guestVmcsPhyAddr cpuId) vmGuestRflags) :
    resultFlags env cpuId s' = resultFlags env cpuId s := by
  rw [resultFlags,same,resultFlags]

variable (home : AtHome env (Foreign env) (fun _ => True) cpuId s)
include home

theorem type1_result {inst : VmxInst} (named : inst.Names (Foreign env)) :
    resultFlags env cpuId (hbVmExitCallbackVmxInstType1 env cpuId stale s inst) = 0 := by
  have stable := placed_stable env (Foreign env)
  have clear := hbClearVmxInstFlags_result stale (home.hbAdvanceVmGuestRip stale stable).home
  have start := home.handled stale stable
  unfold hbVmExitCallbackVmxInstType1
  dsimp only
  generalize hbClearVmxInstFlags env cpuId stale (hbAdvanceVmGuestRip env cpuId stale s) = s' at clear start
  refine Eq.trans (resultFlags_congr ?_) clear
  cases inst with
  | vmclear data =>
    have cleared := start.hbClearVmcs (fun _ foreign => foreign) stable named
    have off := cleared.setNestedVmcsPtr stable foreign_zero
    dsimp only
    split
    · rw [clearShadowing_field off.placed off.home stale (by decide)]
      exact hbClearVmcs_field _ _ _
    · exact hbClearVmcs_field _ _ _
  | vmptrld data => exact setShadowing_field named (by decide)
  | _ => rfl

theorem type2_field (inst : VmxInst) (field : U64) :
    (hbVmExitCallbackVmxInstType2 env cpuId stale s inst).field (env.guestVmcsPhyAddr cpuId) field =
      (hbClearVmxInstFlags env cpuId stale (hbAdvanceVmGuestRip env cpuId stale s)).field
        (env.guestVmcsPhyAddr cpuId) field := by
  have stable := placed_stable env (Foreign env)
  have start := home.handled stale stable
  unfold hbVmExitCallbackVmxInstType2
  dsimp only
  generalize hbClearVmxInstFlags env cpuId stale (hbAdvanceVmGuestRip env cpuId stale s) = s' at start
  split
  next => rfl
  next slot _ =>
    have slotted := start.updateSlot stable slot (fun entry => { entry with vmcsPtr := s'.nestedVmcsPtr cpuId })
    have foreign := slotted.placed.pointer cpuId
    split
    · exact emulateVmwrite_own foreign _ _ _ _ _
    · exact emulateVmread_own foreign _ _ _ _ _
    · rfl

theorem type2_result (inst : VmxInst) :
    resultFlags env cpuId (hbVmExitCallbackVmxInstType2 env cpuId stale s inst) = 0 := by
  have advanced := home.hbAdvanceVmGuestRip stale (placed_stable env (Foreign env))
  exact (resultFlags_congr (type2_field stale home inst _)).trans (hbClearVmxInstFlags_result stale advanced.home)

theorem enterNested_result : resultFlags env cpuId (enterNested env cpuId stale s).2 = 0 := by
  have stable := placed_stable env (Foreign env)
  have advanced := home.hbAdvanceVmGuestRip stale stable
  have unlinked := advanced.hbVmClearVmcsShadowingToCurrent stale (fun _ foreign => foreign) stable
  have clear := hbClearVmxInstFlags_result stale unlinked.home
  exact (resultFlags_congr (hbLoadVmcs_field _ _)).trans clear

theorem dispatch_result {inst : VmxInst} (named : inst.Names (Foreign env)) (result : hasResult inst = true) :
    resultFlags env cpuId (dispatch env cpuId stale s inst) = 0 := by
  have entered := enterNested_result stale home
  have other : fieldKey vmHostRsp ≠ vmGuestRflags := by decide
  cases inst with
  | vmclear | vmptrld => exact type1_result stale home named
  | vmread | vmwrite => exact type2_result stale home _
  | vmlaunch =>
    refine Eq.trans (resultFlags_congr ?_) entered
    dsimp only [dispatch,handleVmlaunch]
    split
    next done => rw [hbWriteVmcs_field_other other,done]; rfl
    next done => rw [hbWriteVmcs_field_other other,done]
  | vmresume =>
    refine Eq.trans (resultFlags_congr ?_) entered
    dsimp only [dispatch,handleVmresume]
    split
    · exact hbWriteVmcs_field_other other
    · exact hbWriteVmcs_field_other other
  | _ => cases result

theorem skipAll_result {inst : VmxInst} (named : inst.Names (Foreign env)) (result : hasResult inst = true) :
    resultFlags env cpuId (skipAll env cpuId (dispatch env cpuId stale s inst) inst) = 0 := by
  have stable := placed_stable env (Foreign env)
  obtain ⟨guarded,_⟩ := dispatch_guarded stale (fun _ foreign => foreign) stable foreign_zero named home
  refine Eq.trans (resultFlags_congr ?_) (dispatch_result stale home named result)
  unfold skipAll
  split
  · exact setShadowing_field (guarded.placed.pointer cpuId) (by decide)
  · rfl

end Flags

section Works
variable {n : Nat} {env : VmxEnv n} {s : NestedState n} {cpuId : Fin n} {addr : U64}

theorem hbClearVmcs_fst : (hbClearVmcs env cpuId s addr).1 = clearable env cpuId addr := by
  unfold hbClearVmcs
  cases clearable env cpuId addr <;> rfl

theorem hbLoadVmcs_fst : (hbLoadVmcs env cpuId s addr).1 = (s.control env).loads env cpuId addr := by
  have same : loadable env cpuId s addr = (s.control env).loads env cpuId addr := rfl
  rw [← same,hbLoadVmcs]
  cases loadable env cpuId s addr <;> rfl

theorem load_real (loaded : (hbLoadVmcs env cpuId s addr).1 = true) :
    (hbLoadVmcs env cpuId s addr).2.current cpuId ≠ noVmcs := by
  rw [hbLoadVmcs_fst] at loaded
  have same : loadable env cpuId s addr = true := loaded
  rw [hbLoadVmcs,if_pos same]
  simpa using (loads_clearable loaded).2

theorem writes_core {field : U64} (core : field ∈ coreFields) (real : s.current cpuId ≠ noVmcs) :
    writes env cpuId s field = true := by
  obtain ⟨supported,writable⟩ := env.core field core
  simp [writes,real,supported,writable]

theorem writes_link (home : s.current cpuId = env.guestVmcsPhyAddr cpuId) :
    writes env cpuId s vmVmcsLinkPtr = true :=
  writes_core (by simp [coreFields]) (home_real home)

theorem setShadowingWorks_iff (home : s.current cpuId = env.guestVmcsPhyAddr cpuId) (foreign : Foreign env addr) :
    setShadowingWorks env cpuId s addr = true ↔ (env.supportVmcsShadowing → clearable env cpuId addr) := by
  have differ : s.current cpuId ≠ addr := by
    rw [home]
    exact foreign_ne_own foreign
  unfold setShadowingWorks
  dsimp only
  rw [hbClearVmcs_fst,writes_link]
  · cases env.supportVmcsShadowing <;> simp
  · exact (congrFun (hbClearVmcs_current differ) cpuId).trans home

theorem clearShadowingWorks_iff (home : s.current cpuId = env.guestVmcsPhyAddr cpuId) :
    clearShadowingWorks env cpuId s = true ↔ (s.control env).Unlinkable env cpuId := by
  have link : (s.control env).link cpuId = s.field (env.guestVmcsPhyAddr cpuId) vmVmcsLinkPtr := rfl
  unfold clearShadowingWorks Control.Unlinkable
  rw [hbReadVmcs_link home,writes_link home,link]
  dsimp only
  rw [hbClearVmcs_fst]
  cases env.supportVmcsShadowing
  · simp
  · simp [or_iff_not_imp_left]

theorem clearShadowing_loads (home : s.current cpuId = env.guestVmcsPhyAddr cpuId)
    (placed : Placed env (Foreign env) s) (stale : U64) (unlinkable : (s.control env).Unlinkable env cpuId) :
    ((hbVmClearVmcsShadowingToCurrent env cpuId stale s).control env).loads env cpuId addr =
      (s.control env).loads env cpuId addr := by
  have aligned : env.supportVmcsShadowing = true → (s.control env).link cpuId ≠ noVmcs →
      pageStart ((s.control env).link cpuId) = (s.control env).link cpuId := by
    intro shadowing linked
    have valid := unlinkable shadowing linked
    simp only [clearable,Processor.validAddress,Bool.and_eq_true,decide_eq_true_eq] at valid
    exact valid.1.1
  rw [control_clearShadowing stale home (fun linked => (placed.link cpuId).resolve_left linked) aligned]
  exact unlink_loads

end Works

section Dispatch
variable {n : Nat} {env : VmxEnv n} {s : NestedState n} {cpuId : Fin n} (stale : U64)
  (home : AtHome env (Foreign env) (fun _ => True) cpuId s)
include home

theorem type1Works_iff {inst : VmxInst} (named : inst.Names (Foreign env)) :
    type1Works env cpuId stale s inst = true ↔
      match inst with
      | .vmclear data => (s.control env).Workable env cpuId (.vmclear data)
      | .vmptrld data => (s.control env).Workable env cpuId (.vmptrld data)
      | _ => True := by
  have stable := placed_stable env (Foreign env)
  have start := home.handled stale stable
  have handled := @control_handled _ env s cpuId stale
  unfold type1Works
  dsimp only
  generalize hbClearVmxInstFlags env cpuId stale (hbAdvanceVmGuestRip env cpuId stale s) = s' at start handled
  rw [← handled]
  cases inst with
  | vmclear data =>
    have differ : s'.current cpuId ≠ data := by
      rw [start.home]
      exact foreign_ne_own named
    have cleared := (start.hbClearVmcs (fun _ foreign => foreign) stable named).setNestedVmcsPtr stable foreign_zero
    have pointer : (hbClearVmcs env cpuId s' data).2.nestedVmcsPtr cpuId = (s'.control env).pointer cpuId :=
      congrFun (congrArg SlotState.pointer (slots_hbClearVmcs env cpuId s' data)) cpuId
    have unlinked : (((hbClearVmcs env cpuId s' data).2.setNestedVmcsPtr cpuId 0).control env).Unlinkable env cpuId ↔
        (s'.control env).Unlinkable env cpuId := by
      rw [control_setNestedVmcsPtr,control_clear differ]
      simp only [Control.Unlinkable,Control.withSlots,Control.clear_link]
    dsimp only [Control.Workable]
    rw [Bool.and_eq_true,Bool.or_eq_true,hbClearVmcs_fst,pointer,decide_eq_true_eq,
      clearShadowingWorks_iff cleared.home,unlinked,← not_imp_not]
    tauto
  | vmptrld data => exact setShadowingWorks_iff (start.setNestedVmcsPtr stable named).home named
  | _ => exact iff_of_true rfl trivial

omit home in
theorem visit_works {nested : NestedState n} (placed : Placed env (Foreign env) nested) :
    (hbLoadVmcs env cpuId nested (env.guestVmcsPhyAddr cpuId)).1 = true := by
  rw [placed.load_own]

theorem vmwriteWorks_iff (slot : Fin maxNestedVmcs) (regField destAddr : U64) :
    vmwriteWorks env cpuId s slot (env.guestVmcsPhyAddr cpuId) regField destAddr = true ↔
      (s.control env).loads env cpuId (s.nestedVmcsPtr cpuId) ∧ env.supported regField ∧ env.writable regField := by
  have stable := placed_stable env (Foreign env)
  have slotted := home.updateSlot stable slot (saveHostField regField destAddr)
  have same : loadable env cpuId (s.updateSlot slot (saveHostField regField destAddr)) (s.nestedVmcsPtr cpuId) =
    (s.control env).loads env cpuId (s.nestedVmcsPtr cpuId) := rfl
  unfold vmwriteWorks
  dsimp only
  rw [NestedState.updateSlot_nestedVmcsPtr,hbLoadVmcs,same]
  cases loads : (s.control env).loads env cpuId (s.nestedVmcsPtr cpuId) with
  | false => simp
  | true =>
    have current : ((s.updateSlot slot (saveHostField regField destAddr)).setCurrent cpuId
        (s.nestedVmcsPtr cpuId)).current cpuId = s.nestedVmcsPtr cpuId := by simp
    have foreign := home.placed.pointer cpuId
    have entered : Guarded env (Foreign env) (fun _ => True)
        ((s.updateSlot slot (saveHostField regField destAddr)).setCurrent cpuId (s.nestedVmcsPtr cpuId)) :=
      slotted.visit stable
    have written := entered.guestWrite stable (fun _ foreign => foreign) (by rwa [current]) regField destAddr
    simp only [if_true]
    rw [visit_works written.placed,Bool.and_true,writes,current]
    simp [(loads_clearable loads).2]

theorem vmreadWorks_iff (slot : Fin maxNestedVmcs) (regField : U64) (toRsp : Bool) :
    vmreadWorks env cpuId s slot (env.guestVmcsPhyAddr cpuId) regField toRsp = true ↔
      (s.control env).loads env cpuId (s.nestedVmcsPtr cpuId) ∧ (regField ∈ hostFields ∨ env.supported regField) := by
  have stable := placed_stable env (Foreign env)
  have same : loadable env cpuId s (s.nestedVmcsPtr cpuId) =
    (s.control env).loads env cpuId (s.nestedVmcsPtr cpuId) := rfl
  unfold vmreadWorks
  rw [hbLoadVmcs,same]
  cases loads : (s.control env).loads env cpuId (s.nestedVmcsPtr cpuId) with
  | false => simp
  | true =>
    have current : (s.setCurrent cpuId (s.nestedVmcsPtr cpuId)).current cpuId = s.nestedVmcsPtr cpuId := by simp
    have real : (s.setCurrent cpuId (s.nestedVmcsPtr cpuId)).current cpuId ≠ noVmcs := by
      rw [current]
      exact (loads_clearable loads).2
    have foreign := home.placed.pointer cpuId
    have entered := home.visit stable
    have stored : ∀ value, Placed env (Foreign env) (if toRsp = true then
        hbWriteVmcs env cpuId (s.setCurrent cpuId (s.nestedVmcsPtr cpuId)) vmGuestRsp value
        else s.setCurrent cpuId (s.nestedVmcsPtr cpuId)) := by
      intro value
      split
      · exact (entered.guestRsp stable (fun _ foreign => foreign) (by rwa [current]) value).placed
      · exact entered.placed
    have rsp : writes env cpuId (s.setCurrent cpuId (s.nestedVmcsPtr cpuId)) vmGuestRsp = true :=
      writes_core (by simp [coreFields]) real
    simp only [if_true]
    rw [visit_works (stored _),rsp,Bool.or_true,Bool.and_true,Bool.and_true,Bool.or_eq_true,List.contains_eq_mem,
      decide_eq_true_eq,reads,hbReadVmcs]
    simp [(loads_clearable loads).2]

theorem type2Works_iff (inst : VmxInst) :
    type2Works env cpuId stale s inst = true ↔ (s.control env).pointer cpuId ≠ 0 ∧
      hbFindNestedVmcsStruct (s.control env).array ((s.control env).pointer cpuId) ≠ none ∧
      match inst with
      | .vmread regField _ => (s.control env).loads env cpuId ((s.control env).pointer cpuId) ∧
          (regField ∈ hostFields ∨ env.supported regField)
      | .vmwrite regField _ => (s.control env).loads env cpuId ((s.control env).pointer cpuId) ∧
          env.supported regField ∧ env.writable regField
      | _ => True := by
  have stable := placed_stable env (Foreign env)
  have start := home.handled stale stable
  have handled := @control_handled _ env s cpuId stale
  unfold type2Works
  dsimp only
  generalize hbClearVmxInstFlags env cpuId stale (hbAdvanceVmGuestRip env cpuId stale s) = s' at start handled
  rw [← handled]
  have pointer : (s'.control env).pointer cpuId = s'.nestedVmcsPtr cpuId := rfl
  have table : (s'.control env).array = s'.nestedVmcsArray := rfl
  rw [pointer,table]
  cases hbFindNestedVmcsStruct s'.nestedVmcsArray (s'.nestedVmcsPtr cpuId) with
  | none => simp
  | some slot =>
    have slotted := start.updateSlot stable slot (fun entry => { entry with vmcsPtr := s'.nestedVmcsPtr cpuId })
    have nested : (s'.updateSlot slot (fun entry => { entry with vmcsPtr := s'.nestedVmcsPtr cpuId })).nestedVmcsPtr cpuId =
      s'.nestedVmcsPtr cpuId := rfl
    dsimp only
    rw [hbStoreVmcs,start.home,nested,Bool.and_eq_true,decide_eq_true_eq]
    apply and_congr_right
    intro _
    simp only [ne_eq,reduceCtorEq,not_false_eq_true,true_and]
    cases inst with
    | vmread regField toRsp => exact vmreadWorks_iff slotted slot regField toRsp
    | vmwrite regField destAddr => exact vmwriteWorks_iff slotted slot regField destAddr
    | _ => exact iff_of_true rfl trivial

theorem enterWorks_iff : enterWorks env cpuId stale s = true ↔ (s.control env).Enterable env cpuId := by
  have stable := placed_stable env (Foreign env)
  have advanced := home.hbAdvanceVmGuestRip stale stable
  have same : (hbAdvanceVmGuestRip env cpuId stale s).control env = s.control env := control_advance stale
  have pointer : (s.control env).pointer cpuId = s.nestedVmcsPtr cpuId := rfl
  unfold enterWorks Control.Enterable
  rw [Bool.and_eq_true,Bool.and_eq_true,Bool.and_eq_true,clearShadowingWorks_iff advanced.home,same,and_assoc,and_assoc,
    decide_eq_true_eq,pointer]
  apply and_congr_right
  intro unlinkable
  apply and_congr_right
  intro _
  have slots : (hbClearVmxInstFlags env cpuId stale (hbVmClearVmcsShadowingToCurrent env cpuId stale
      (hbAdvanceVmGuestRip env cpuId stale s))).slots = s.slots := by simp
  have target := congrFun (congrArg SlotState.pointer slots) cpuId
  have kept := @clearShadowing_loads _ _ _ _ (s.nestedVmcsPtr cpuId) advanced.home advanced.placed stale (by rwa [same])
  have loads : (enterNested env cpuId stale s).1 = (s.control env).loads env cpuId (s.nestedVmcsPtr cpuId) := by
    rw [enterNested,hbLoadVmcs_fst,control_flags,← same,← kept]
    exact congrArg _ target
  rw [loads]
  constructor
  · exact And.left
  · intro loaded
    exact ⟨loaded,writes_core (by simp [coreFields]) (load_real (loads.trans loaded))⟩

theorem works_iff {inst : VmxInst} (named : inst.Names (Foreign env)) :
    works env cpuId stale s inst = true ↔ (s.control env).Workable env cpuId inst := by
  have type1 := type1Works_iff stale home named
  have type2 := type2Works_iff stale home inst
  have entered := enterWorks_iff stale home
  cases inst with
  | vmclear | vmptrld => exact type1
  | vmread | vmwrite => exact type2.trans (and_assoc.trans (and_congr_right (fun _ => and_assoc))).symm
  | vmlaunch | vmresume => exact entered
  | _ => exact iff_of_true rfl trivial

end Dispatch

section Main
variable {n : Nat}

/-- In every state that a guest hypervisor reaches, an instruction of its own is reported as it
went exactly if it went well, since a failure is never reported. -/
theorem vmx_result_iff (env : VmxEnv n) {start : NestedState n} (launched : Launched env start)
    (events : List (VmxEvent n)) (named : ∀ event ∈ events, event.Names (Foreign env)) (exit : VmxExit n)
    (operand : exit.inst.Names (Foreign env)) (result : hasResult exit.inst = true)
    (home : (run (vmxStep env) start events).current exit.cpuId = env.guestVmcsPhyAddr exit.cpuId) :
    Reports env (run (vmxStep env) start events) exit ↔
      ((run (vmxStep env) start events).control env).Workable env exit.cpuId exit.inst := by
  have outside : ∀ addr, Foreign env addr → Foreign env addr := fun _ foreign => foreign
  have stable := placed_stable env (Foreign env)
  have reached := run_guarded outside stable ⟨launched.placed foreign_zero,trivial⟩ foreign_zero named
  generalize run (vmxStep env) start events = s at home reached
  have saved : AtHome env (Foreign env) (fun _ => True) exit.cpuId (vmExit exit s) :=
    ⟨vmExit_guarded stable reached exit,home⟩
  have before := saved.plainField stable 0 (show vmCtrlVmEntryInstLength ∈ plainFields by simp [plainFields])
  have same : ((hbWriteVmcs env exit.cpuId (vmExit exit s) vmCtrlVmEntryInstLength 0).control env).Workable env
      exit.cpuId exit.inst ↔ (s.control env).Workable env exit.cpuId exit.inst := by
    rw [control_plainField (by simp [plainFields]),control_vmExit]
    exact Iff.rfl
  have callback : hbVmExitCallback env exit (vmExit exit s) = skipAll env exit.cpuId
      (dispatch env exit.cpuId exit.stale (hbWriteVmcs env exit.cpuId (vmExit exit s) vmCtrlVmEntryInstLength 0)
        exit.inst) exit.inst := if_neg (not_not.mpr home)
  have quiet : resultFlags env exit.cpuId (vmxStep env s (.exit exit)) = 0 := by
    rw [← skipAll_result exit.stale before operand result]
    apply resultFlags_congr
    rw [vmxStep,hbVmExitCallbackStub,vmEntry_field,callback]
  rw [← same,← works_iff exit.stale before operand,Reports,quiet]
  split
  next went => exact iff_of_true rfl went
  next failed => exact iff_of_false (fun reported => reported.2 rfl) failed

end Main

section Sample

def vmwriteExit : VmxExit 1 := ⟨launchExit.cpuId,fun _ => 0x246,0,.vmwrite vmGuestRip 0⟩

theorem failure_not_reported :
    works sampleVmx vmwriteExit.cpuId vmwriteExit.stale (hbWriteVmcs sampleVmx vmwriteExit.cpuId
      (vmExit vmwriteExit sampleLaunch) vmCtrlVmEntryInstLength 0) vmwriteExit.inst = false ∧
    ¬ Reports sampleVmx sampleLaunch vmwriteExit := by
  have failed : works sampleVmx vmwriteExit.cpuId vmwriteExit.stale (hbWriteVmcs sampleVmx vmwriteExit.cpuId
      (vmExit vmwriteExit sampleLaunch) vmCtrlVmEntryInstLength 0) vmwriteExit.inst = false := by decide +kernel
  have quiet : resultFlags sampleVmx vmwriteExit.cpuId (vmxStep sampleVmx sampleLaunch (.exit vmwriteExit)) = 0 := by
    decide +kernel
  refine ⟨failed,?_⟩
  rw [Reports,failed,if_neg Bool.false_ne_true]
  exact fun reported => reported.2 quiet

def vmptrldExit : VmxExit 1 := ⟨launchExit.cpuId,fun _ => 0x246,0,.vmptrld 0x5000⟩

theorem vmx_result_sample : Reports sampleVmx sampleLaunch vmptrldExit :=
  (vmx_result_iff sampleVmx sampleLaunch_launched [] (by simp) vmptrldExit foreign_sample rfl rfl).mpr
    (fun shadowing => absurd shadowing Bool.false_ne_true)

end Sample
end HyperBox.Nested
