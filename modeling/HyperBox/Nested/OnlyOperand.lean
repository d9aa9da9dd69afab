import HyperBox.Nested.ReadBack

/-! What VMREAD leaves alone: the VMCSs, the pointers, the host state that is kept for nested
VMCSs, and the registers and the memory beside its destination. -/
namespace HyperBox.Nested
open HyperBox.Library HyperBox.PageTable HyperBox.Ept

section Frame
variable {n : Nat} (env : VmxEnv n) (s : NestedState n) (exit : OperandExit n)

def storeWidth (instInfo : U64) : Nat :=
  match Exit.vmInstInfoAddrSize instInfo with
  | 0 => 2
  | 1 => 4
  | 2 => 8
  | _ => 0

/-- The fields of the CPU's own VMCS that VMREAD may change: RIP, RFLAGS and an RSP that is its
destination. -/
def Progress (region field : U64) : Prop :=
  region = env.guestVmcsPhyAddr exit.cpuId ∧
    (field = vmGuestRip ∨ field = vmGuestRflags ∨ (exit.toRsp ∧ field = vmGuestRsp))

structure OnlyOperand (handled : OperandHandled n) : Prop where
  current : handled.nested.current exit.cpuId = s.current exit.cpuId
  pointer : handled.nested.nestedVmcsPtr = s.nestedVmcsPtr
  launched : ∀ region, (handled.nested.regions region).launched = (s.regions region).launched
  revision : ∀ region, (handled.nested.regions region).revision = (s.regions region).revision
  fields : ∀ region field, ¬ Progress env exit region field → handled.nested.field region field = s.field region field
  flags : handled.nested.field (env.guestVmcsPhyAddr exit.cpuId) vmGuestRflags &&& ~~~(rflagsBitCf ||| rflagsBitZf) =
    s.field (env.guestVmcsPhyAddr exit.cpuId) vmGuestRflags &&& ~~~(rflagsBitCf ||| rflagsBitZf)
  hostState : ∀ slot, ∀ field ∈ hostFields,
    slotValue field (handled.nested.nestedVmcsArray slot) = slotValue field (s.nestedVmcsArray slot)
  registers : ∀ index, ¬ (exit.isRegister = true ∧ index = exit.reg1) →
    Exit.hbGetRegValueFromIndex handled.guestContext index = Exit.hbGetRegValueFromIndex exit.guestContext index
  memory : ∀ store ∈ handled.stores, ∀ k < store.bytes.length,
    exit.isRegister = false ∧ ∃ j < 8, store.addr + BitVec.ofNat 64 k = exit.linear + BitVec.ofNat 64 j

/-- Nothing is delivered, or the destination is no RSP, or the GUEST_RSP of the nested VMCS holds the
value anyway; in memory the handler's bytes have to lie in the operand. -/
def Harmless : Prop :=
  ∀ slot, hbFindNestedVmcsStruct s.nestedVmcsArray (s.nestedVmcsPtr exit.cpuId) = some slot →
    loadable env exit.cpuId s (s.nestedVmcsPtr exit.cpuId) →
    if exit.isRegister then
      exit.reg1 = regNumRsp → s.field (s.nestedVmcsPtr exit.cpuId) vmGuestRsp = readValue env s exit slot
    else storeWidth exit.instInfo = 0 ∨ (exit.operandSum - exit.linear).toNat + storeWidth exit.instInfo ≤ 8

end Frame

section Stores
variable {addr linear : U64}

theorem hbSetValueToMemory_bytes (instInfo addr value : U64) :
    (∀ store ∈ Exit.hbSetValueToMemory instInfo addr value,
      store.addr = addr ∧ store.bytes.length = storeWidth instInfo) ∧
    (storeWidth instInfo ≠ 0 → Exit.hbSetValueToMemory instInfo addr value ≠ []) := by
  unfold Exit.hbSetValueToMemory storeWidth
  generalize Exit.vmInstInfoAddrSize instInfo = size
  rcases size with _ | _ | _ | size <;> simp [Exit.littleEndian_length]

theorem storeWidth_le (instInfo : U64) : storeWidth instInfo ≤ 8 := by
  unfold storeWidth
  split <;> decide

theorem bytes_inside_iff {width : Nat} (small : width ≤ 8) :
    (∀ k < width, ∃ j < 8, addr + BitVec.ofNat 64 k = linear + BitVec.ofNat 64 j) ↔
      width = 0 ∨ (addr - linear).toNat + width ≤ 8 := by
  have bound := (addr - linear).isLt
  have place : ∀ k < 8, ∀ j < 8, addr + BitVec.ofNat 64 k = linear + BitVec.ofNat 64 j ↔
      ((addr - linear).toNat + k) % 2^64 = j := by
    intro k hk j hj
    have moved : addr + BitVec.ofNat 64 k = linear + BitVec.ofNat 64 j ↔
        (addr - linear) + BitVec.ofNat 64 k = BitVec.ofNat 64 j := by
      constructor
      · intro same
        rw [sub_add_eq_add_sub,same,add_sub_cancel_left]
      · intro same
        rw [← same,← add_assoc,add_sub_cancel]
    rw [moved,← BitVec.toNat_inj,BitVec.toNat_add,BitVec.toNat_ofNat,BitVec.toNat_ofNat,
      Nat.mod_eq_of_lt (show k < 2^64 by omega),Nat.mod_eq_of_lt (show j < 2^64 by omega)]
  constructor
  · intro inside
    rcases Nat.eq_zero_or_pos width with none | some
    · exact .inl none
    · right
      obtain ⟨first,low,same⟩ := inside 0 some
      rw [place 0 (by omega) first low,Nat.add_zero,Nat.mod_eq_of_lt bound] at same
      obtain ⟨last,high,same'⟩ := inside (width - 1) (by omega)
      rw [place (width - 1) (by omega) last high] at same'
      rw [Nat.mod_eq_of_lt (by omega)] at same'
      omega
  · rintro (none | fits) k below
    · omega
    · refine ⟨(addr - linear).toNat + k,by omega,?_⟩
      rw [place k (by omega) _ (by omega)]
      exact Nat.mod_eq_of_lt (by omega)

end Stores

section Regions
variable {n : Nat} {env : VmxEnv n} {s : NestedState n} {cpuId : Fin n}

/-- VMREAD writes a region only if RSP is its destination. -/
theorem emulateVmread_regions (home : AtHome env (Foreign env) (fun _ => True) cpuId s) (slot : Fin maxNestedVmcs)
    (regField : U64) (toRsp : Bool) :
    (emulateVmread env cpuId s slot (env.guestVmcsPhyAddr cpuId) regField toRsp).regions =
      if loadable env cpuId s (s.nestedVmcsPtr cpuId) ∧ toRsp then
        (s.updateRegion (s.nestedVmcsPtr cpuId) (fun region => region.write vmGuestRsp
          (nestedFieldValue env cpuId (s.setCurrent cpuId (s.nestedVmcsPtr cpuId)) (s.nestedVmcsArray slot)
            regField))).regions
      else s.regions := by
  have stable := placed_stable env (Foreign env)
  have foreign := home.placed.pointer cpuId
  have current : (s.setCurrent cpuId (s.nestedVmcsPtr cpuId)).current cpuId = s.nestedVmcsPtr cpuId := by simp
  have entered := home.visit stable
  unfold emulateVmread
  rw [hbLoadVmcs]
  by_cases loads : loadable env cpuId s (s.nestedVmcsPtr cpuId)
  · rw [if_pos loads]
    dsimp only
    cases toRsp with
    | false =>
      simp only [Bool.false_eq_true,if_false,and_false]
      rw [entered.placed.load_own]
      rfl
    | true =>
      have written := entered.guestRsp stable (fun _ foreign => foreign) (by rwa [current])
        (nestedFieldValue env cpuId (s.setCurrent cpuId (s.nestedVmcsPtr cpuId)) (s.nestedVmcsArray slot) regField)
      simp only [if_true,and_true,loads]
      rw [NestedState.setCurrent_nestedVmcsArray,written.placed.load_own,hbWriteVmcs,current,
        if_pos ⟨loadable_real loads,env.core vmGuestRsp (by simp [coreFields])⟩]
      rfl
  · rw [if_neg loads,if_neg (fun both => loads both.1)]

end Regions

section Ready
variable {n : Nat} {env : VmxEnv n} {s : NestedState n} {cpuId : Fin n}

theorem hbWriteVmcs_launched (field value region : U64) :
    ((hbWriteVmcs env cpuId s field value).regions region).launched = (s.regions region).launched := by
  unfold hbWriteVmcs
  split
  · by_cases here : region = s.current cpuId
    · subst here
      simp [Region.write]
    · simp [here]
  · rfl

theorem handled_launched (stale region : U64) :
    ((hbClearVmxInstFlags env cpuId stale (hbAdvanceVmGuestRip env cpuId stale s)).regions region).launched =
      (s.regions region).launched := by
  obtain ⟨rip,advanced⟩ := hbAdvanceVmGuestRip_write env cpuId stale s
  rw [hbClearVmxInstFlags,hbWriteVmcs_launched,advanced,hbWriteVmcs_launched]

theorem handled_field (stale : U64) {region field : U64} (differ : region ≠ s.current cpuId ∨
      (vmGuestRip ≠ field ∧ vmGuestRflags ≠ field)) :
    (hbClearVmxInstFlags env cpuId stale (hbAdvanceVmGuestRip env cpuId stale s)).field region field =
      s.field region field := by
  rcases differ with apart | ⟨rip,rflags⟩
  · exact (handled_undisturbed apart stale).fields field
  · have flagsKey : fieldKey vmGuestRflags ≠ field := by rwa [plainFields_key _ (by simp [plainFields])]
    rw [hbClearVmxInstFlags,hbWriteVmcs_field_other flagsKey,advance_field _ _ rip.symm]

theorem handled_flags (home : s.current cpuId = env.guestVmcsPhyAddr cpuId) (stale : U64) :
    (hbClearVmxInstFlags env cpuId stale (hbAdvanceVmGuestRip env cpuId stale s)).field
        (env.guestVmcsPhyAddr cpuId) vmGuestRflags =
      s.field (env.guestVmcsPhyAddr cpuId) vmGuestRflags &&& ~~~(rflagsBitCf ||| rflagsBitZf) := by
  have here : (hbAdvanceVmGuestRip env cpuId stale s).current cpuId = env.guestVmcsPhyAddr cpuId := by
    rw [advance_current,home]
  have flags : (hbAdvanceVmGuestRip env cpuId stale s).field (env.guestVmcsPhyAddr cpuId) vmGuestRflags =
      s.field (env.guestVmcsPhyAddr cpuId) vmGuestRflags := advance_field _ _ (by decide)
  generalize hbAdvanceVmGuestRip env cpuId stale s = s' at here flags
  have real := home_real here
  rw [← flags,← here,hbClearVmxInstFlags,hbWriteVmcs_natural (by simp [naturalFields]) _ real,
    hbReadVmcs_core real (by simp [coreFields]) (by decide),Option.getD_some]

end Ready

section Handled
variable {n : Nat} {env : VmxEnv n} {s : NestedState n} {exit : OperandExit n} {slot : Fin maxNestedVmcs}
  (guarded : Guarded env (Foreign env) (fun _ => True) s) (home : s.current exit.cpuId = env.guestVmcsPhyAddr exit.cpuId)
include guarded home

theorem handled_regions : (exit.handled env s .vmread).nested.regions =
    match hbFindNestedVmcsStruct s.nestedVmcsArray (s.nestedVmcsPtr exit.cpuId) with
    | none => (exit.ready env s .vmread).regions
    | some slot =>
      if loadable env exit.cpuId s (s.nestedVmcsPtr exit.cpuId) ∧ exit.toRsp then
        ((exit.ready env s .vmread).updateRegion (s.nestedVmcsPtr exit.cpuId)
          (fun region => region.write vmGuestRsp (readValue env s exit slot))).regions
      else (exit.ready env s .vmread).regions := by
  have stable := placed_stable env (Foreign env)
  have started : AtHome env (Foreign env) (fun _ => True) exit.cpuId (exit.started env s .vmread) :=
    started_atHome guarded home
  have start : AtHome env (Foreign env) (fun _ => True) exit.cpuId (exit.ready env s .vmread) :=
    started.handled exit.stale stable
  have ready := ready_kept guarded home .vmread
  have unmoved : Unmoved s (exit.ready env s .vmread) := ready_unmoved .vmread
  rw [OperandExit.handled_nested .vmread home]
  unfold hbVmExitCallbackVmxInstType2
  dsimp only
  rw [← OperandExit.ready]
  generalize exit.ready env s .vmread = s' at start ready unmoved
  rw [ready.array,ready.pointer]
  cases hbFindNestedVmcsStruct s.nestedVmcsArray (s.nestedVmcsPtr exit.cpuId) with
  | none => rfl
  | some slot =>
    have slotted := start.updateSlot stable slot (fun entry => { entry with vmcsPtr := s.nestedVmcsPtr exit.cpuId })
    have value := @readValue_kept _ _ _ _ _ slot ready (s.nestedVmcsPtr exit.cpuId)
    have regions := emulateVmread_regions slotted slot exit.field exit.toRsp
    have same : loadable env exit.cpuId (s'.updateSlot slot (fun entry =>
        { entry with vmcsPtr := s.nestedVmcsPtr exit.cpuId })) (s.nestedVmcsPtr exit.cpuId) =
        loadable env exit.cpuId s (s.nestedVmcsPtr exit.cpuId) := unmoved.loadable exit.cpuId _
    dsimp only [OperandExit.inst]
    rw [hbStoreVmcs,start.home,regions,NestedState.updateSlot_nestedVmcsPtr,ready.pointer,same,← value,
      NestedState.updateSlot_nestedVmcsArray,Function.update_self]
    rfl

theorem ready_field {region field : U64} (differ : ¬ Progress env exit region field) :
    (exit.ready env s .vmread).field region field = (exit.started env s .vmread).field region field := by
  have started : AtHome env (Foreign env) (fun _ => True) exit.cpuId (exit.started env s .vmread) :=
    started_atHome guarded home
  apply handled_field
  rw [started.home]
  by_cases own : region = env.guestVmcsPhyAddr exit.cpuId
  · right
    refine ⟨?_,?_⟩
    · rintro rfl
      exact differ ⟨own,.inl rfl⟩
    · rintro rfl
      exact differ ⟨own,.inr (.inl rfl)⟩
  · exact .inl own

omit guarded home in
theorem write_rsp (region : Region) (value : U64) :
    (region.write vmGuestRsp value).fields = Function.update region.fields vmGuestRsp value := by
  have key : fieldKey vmGuestRsp = vmGuestRsp := by decide
  have low : highAccess vmGuestRsp = false := by decide
  have width : fieldWidth vmGuestRsp = .natural := by decide
  simp [Region.write,key,fieldValue,low,width]

omit home in
theorem pointer_not_progress (field : U64) : ¬ Progress env exit (s.nestedVmcsPtr exit.cpuId) field :=
  fun progress => foreign_ne_own (guarded.placed.pointer exit.cpuId) progress.1.symm

theorem harmless_of_only (only : OnlyOperand env (exit.started env s .vmread) exit (exit.handled env s .vmread)) :
    Harmless env s exit := by
  intro slot found loads
  cases register : exit.isRegister with
  | true =>
    rw [if_pos rfl]
    intro rsp
    have toRsp : exit.toRsp = true := by simp [OperandExit.toRsp,register,rsp]
    have regions := handled_regions guarded home
    rw [found] at regions
    dsimp only at regions
    rw [if_pos ⟨loads,toRsp⟩] at regions
    have kept := only.fields _ vmGuestRsp (pointer_not_progress guarded vmGuestRsp)
    have before : Undisturbed env exit.cpuId (s.nestedVmcsPtr exit.cpuId) s (exit.started env s .vmread) :=
      started_undisturbed guarded home
    rw [before.fields,NestedState.field,regions,NestedState.updateRegion_regions,Function.update_self,write_rsp,
      Function.update_self] at kept
    exact kept.symm
  | false =>
    rw [if_neg Bool.false_ne_true]
    have results := handled_vmread guarded home found
    rw [if_pos loads,register,if_neg Bool.false_ne_true] at results
    have inside := only.memory
    rw [(Prod.mk.inj results).2] at inside
    obtain ⟨bytes,some⟩ := hbSetValueToMemory_bytes exit.instInfo exit.operandSum (readValue env s exit slot)
    by_cases none : storeWidth exit.instInfo = 0
    · exact .inl none
    · obtain ⟨store,member⟩ := List.exists_mem_of_ne_nil _ (some none)
      obtain ⟨place,length⟩ := bytes store member
      refine (bytes_inside_iff (storeWidth_le _)).mp (fun k below => ?_)
      obtain ⟨_,inside⟩ := inside store member k (by rwa [length])
      rwa [place] at inside

theorem regions_of_harmless (harmless : Harmless env s exit) : (exit.handled env s .vmread).nested.regions =
    (exit.ready env s .vmread).regions := by
  have ready := ready_kept guarded home .vmread
  rw [handled_regions guarded home]
  cases found : hbFindNestedVmcsStruct s.nestedVmcsArray (s.nestedVmcsPtr exit.cpuId) with
  | none => rfl
  | some slot =>
    dsimp only
    split
    next written =>
      have kept := harmless slot found written.1
      have register : exit.isRegister = true ∧ exit.reg1 = regNumRsp := by
        simpa [OperandExit.toRsp] using written.2
      rw [if_pos register.1] at kept
      have held := kept register.2
      rw [← ready.fields] at held
      generalize exit.ready env s .vmread = s' at held
      have same : (s'.regions (s.nestedVmcsPtr exit.cpuId)).write vmGuestRsp (readValue env s exit slot) =
          s'.regions (s.nestedVmcsPtr exit.cpuId) := by
        have fields := write_rsp (s'.regions (s.nestedVmcsPtr exit.cpuId)) (readValue env s exit slot)
        rw [← held,NestedState.field,Function.update_eq_self] at fields
        rw [← held,NestedState.field]
        exact congrArg (fun fields => { s'.regions (s.nestedVmcsPtr exit.cpuId) with fields := fields }) fields
      refine (congrArg (Function.update s'.regions (s.nestedVmcsPtr exit.cpuId)) same).trans ?_
      exact Function.update_eq_self _ _
    next => rfl

omit guarded in
theorem handled_slots : (exit.handled env s .vmread).nested.slots =
    (exit.started env s .vmread).slots.claimSlot exit.cpuId (.vmread exit.field exit.toRsp) := by
  rw [OperandExit.handled_nested .vmread home]
  exact slots_type2 _ _ _ _ _

omit guarded home in
theorem claimSlot_hostState (t : SlotState n) (cpuId : Fin n) (regField : U64) (toRsp : Bool)
    (i : Fin maxNestedVmcs) {field : U64} (host : field ∈ hostFields) :
    slotValue field ((t.claimSlot cpuId (.vmread regField toRsp)).array i) = slotValue field (t.array i) := by
  cases found : hbFindNestedVmcsStruct t.array (t.pointer cpuId) with
  | none => simp only [SlotState.claimSlot,found]
  | some slot =>
    rw [claimSlot_found found]
    by_cases here : i = slot
    · subst here
      simp only [Function.update_self,useSlot_value host]
    · simp only [Function.update_of_ne here]

theorem handled_registers (index : Nat) (differ : ¬ (exit.isRegister = true ∧ index = exit.reg1)) :
    Exit.hbGetRegValueFromIndex (exit.handled env s .vmread).guestContext index =
      Exit.hbGetRegValueFromIndex exit.guestContext index := by
  cases found : hbFindNestedVmcsStruct s.nestedVmcsArray (s.nestedVmcsPtr exit.cpuId) with
  | none => rw [(handled_missing guarded home found .vmread).1]
  | some slot =>
    have results := congrArg Prod.fst (handled_vmread guarded home found)
    dsimp only at results
    rw [results]
    split
    · split
      next register =>
        dsimp only
        split
        · rfl
        · exact Exit.hbSetReg_other _ (reg1_lt exit) _ (fun same => differ ⟨register,same⟩)
      next => rfl
    · rfl

theorem memory_of_harmless (harmless : Harmless env s exit) : ∀ store ∈ (exit.handled env s .vmread).stores,
    ∀ k < store.bytes.length,
      exit.isRegister = false ∧ ∃ j < 8, store.addr + BitVec.ofNat 64 k = exit.linear + BitVec.ofNat 64 j := by
  intro store member k below
  cases found : hbFindNestedVmcsStruct s.nestedVmcsArray (s.nestedVmcsPtr exit.cpuId) with
  | none =>
    rw [(handled_missing guarded home found .vmread).2] at member
    cases member
  | some slot =>
    have results := congrArg Prod.snd (handled_vmread guarded home found)
    dsimp only at results
    rw [results] at member
    split at member
    next loads =>
      split at member
      next => cases member
      next memory =>
        have register : exit.isRegister = false := Bool.not_eq_true _ ▸ memory
        have inside := harmless slot found loads
        rw [if_neg memory] at inside
        obtain ⟨place,length⟩ := (hbSetValueToMemory_bytes _ _ _).1 store member
        rw [length] at below
        rw [place]
        exact ⟨register,(bytes_inside_iff (storeWidth_le _)).mpr inside k below⟩
    next => cases member

/-- VMREAD leaves everything but its destination alone exactly if its way to the destination is
harmless. -/
theorem only_operand_iff :
    OnlyOperand env (exit.started env s .vmread) exit (exit.handled env s .vmread) ↔ Harmless env s exit := by
  refine ⟨harmless_of_only guarded home,fun harmless => ?_⟩
  have started : AtHome env (Foreign env) (fun _ => True) exit.cpuId (exit.started env s .vmread) :=
    started_atHome guarded home
  have after := started.hbVmExitCallbackVmxInstType2 exit.stale (fun _ foreign => foreign)
    (placed_stable env (Foreign env)) (exit.inst .vmread)
  have regions := regions_of_harmless guarded home harmless
  have slots : (exit.handled env s .vmread).nested.slots =
      (exit.started env s .vmread).slots.claimSlot exit.cpuId (.vmread exit.field exit.toRsp) := handled_slots home
  have fields : ∀ region field, (exit.handled env s .vmread).nested.field region field =
      (exit.ready env s .vmread).field region field := by
    intro region field
    rw [NestedState.field,regions,NestedState.field]
  constructor
  · rw [OperandExit.handled_nested .vmread home,after.home,started.home]
  · have pointer := congrArg SlotState.pointer slots
    rwa [SlotState.claimSlot_pointer] at pointer
  · intro region
    rw [regions]
    exact handled_launched _ _
  · intro region
    rw [regions]
    exact (handled_unmoved env _ _ _).revision region
  · intro region field differ
    rw [fields]
    exact ready_field guarded home differ
  · rw [fields,OperandExit.ready,handled_flags started.home,BitVec.and_assoc,BitVec.and_self]
  · intro slot field host
    have array := congrFun (congrArg SlotState.array slots) slot
    have value := claimSlot_hostState (exit.started env s .vmread).slots exit.cpuId exit.field exit.toRsp slot host
    rw [← array] at value
    exact value
  · exact handled_registers guarded home
  · exact memory_of_harmless guarded home harmless

end Handled

section Main
variable {n : Nat}

/-- In every state that a guest hypervisor reaches: which forms of the two operands bring a value that
is written to a field back from it, and which destinations of VMREAD are the only thing it changes. -/
theorem vmx_operand_iff (env : VmxEnv n) {start : NestedState n} (launched : Launched env start)
    (events : List (VmxEvent n)) (named : ∀ event ∈ events, event.Names (Foreign env)) :
    (∀ write read : OperandExit n,
      (run (vmxStep env) start events).current write.cpuId = env.guestVmcsPhyAddr write.cpuId →
      loadable env write.cpuId (run (vmxStep env) start events)
        ((run (vmxStep env) start events).nestedVmcsPtr write.cpuId) →
      read.cpuId = write.cpuId → read.field = write.field →
      env.supported write.field → env.writable write.field →
      (read.Delivered env (read.handled env (vmxStep env (run (vmxStep env) start events)
        (.exit (write.taken .vmwrite))) .vmread) write.value ↔ ReadsBack (run (vmxStep env) start events) write read)) ∧
    (∀ read : OperandExit n,
      (run (vmxStep env) start events).current read.cpuId = env.guestVmcsPhyAddr read.cpuId →
      (OnlyOperand env (read.started env (run (vmxStep env) start events) .vmread) read
        (read.handled env (run (vmxStep env) start events) .vmread) ↔
          Harmless env (run (vmxStep env) start events) read)) := by
  have reached := run_guarded (fun _ foreign => foreign) (placed_stable env (Foreign env))
    ⟨launched.placed foreign_zero,trivial⟩ foreign_zero named
  exact ⟨fun _ _ home loads cpu field supported writable =>
    reads_back_iff reached home loads cpu field supported writable,fun _ home => only_operand_iff reached home⟩

end Main

section Sample

def operandRegisters : Exit.GuestRegister := ⟨0x1000,0x6802,0x7777,0,0,0,0,0,0,0,0,0,0,0,0,0⟩

def registerOperand (reg : U64) : OperandExit 1 where
  cpuId := launchExit.cpuId
  saved := fun _ => 0
  stale := 0
  guestContext := operandRegisters
  instInfo := 0x400 ||| (reg <<< 3) ||| (0x1 <<< 28)
  exitQual := 0
  memory := fun _ => 0
  registerQual _ := rfl

def memoryOperand : OperandExit 1 where
  cpuId := launchExit.cpuId
  saved := fun _ => 0
  stale := 0
  guestContext := operandRegisters
  instInfo := (0x2 <<< 7) ||| (0x3 <<< 15) ||| (0x1 <<< 22) ||| (0x1 <<< 28)
  exitQual := 16
  memory := fun _ => 0x8888
  registerQual register := absurd register (by decide)

def pointerLoaded : NestedState 1 := run (vmxStep sampleVmx) sampleLaunch [sampleExit (.vmptrld 0x5000)]

theorem vmx_operand_sample :
    (registerOperand 3).Delivered sampleVmx ((registerOperand 3).handled sampleVmx
      (vmxStep sampleVmx (run (vmxStep sampleVmx) sampleLaunch [sampleExit (.vmptrld 0x5000)])
        (.exit ((registerOperand 2).taken .vmwrite))) .vmread) 0x7777 ∧
    OnlyOperand sampleVmx
      ((registerOperand 3).started sampleVmx (run (vmxStep sampleVmx) sampleLaunch [sampleExit (.vmptrld 0x5000)]) .vmread)
      (registerOperand 3)
      ((registerOperand 3).handled sampleVmx (run (vmxStep sampleVmx) sampleLaunch [sampleExit (.vmptrld 0x5000)])
        .vmread) := by
  obtain ⟨back,only⟩ := vmx_operand_iff sampleVmx sampleLaunch_launched [sampleExit (.vmptrld 0x5000)]
    (List.forall_mem_singleton.mpr foreign_sample)
  refine ⟨?_,?_⟩
  · refine (back (registerOperand 2) (registerOperand 3) ?_ ?_ rfl ?_ ?_ ?_).mpr ?_
    case refine_6 =>
      rw [ReadsBack,if_neg (by decide),if_pos (by decide +kernel)]
      exact ⟨by decide,fun memory => absurd memory (by decide)⟩
    all_goals decide +kernel
  · refine (only (registerOperand 3) (by decide +kernel)).mpr (fun slot _ _ => ?_)
    rw [if_pos (show (registerOperand 3).isRegister = true by decide)]
    exact fun rsp => absurd rsp (by decide)

/-- A memory operand of VMWRITE gives its address, and VMREAD to RSP sets the RSP of the nested VM. -/
theorem operand_address_written :
    memoryOperand.value = 0x8888 ∧
    (registerOperand 3).Delivered sampleVmx ((registerOperand 3).handled sampleVmx
      (vmxStep sampleVmx pointerLoaded (.exit (memoryOperand.taken .vmwrite))) .vmread) 0x1010 ∧
    ¬ (registerOperand 3).Delivered sampleVmx ((registerOperand 3).handled sampleVmx
      (vmxStep sampleVmx pointerLoaded (.exit (memoryOperand.taken .vmwrite))) .vmread) memoryOperand.value ∧
    ¬ OnlyOperand sampleVmx
      ((registerOperand 4).started sampleVmx (vmxStep sampleVmx pointerLoaded (.exit (memoryOperand.taken .vmwrite))) .vmread)
      (registerOperand 4)
      ((registerOperand 4).handled sampleVmx (vmxStep sampleVmx pointerLoaded (.exit (memoryOperand.taken .vmwrite)))
        .vmread) := by
  have register : (registerOperand 3).isRegister = true := by decide
  have address : (registerOperand 3).Delivered sampleVmx ((registerOperand 3).handled sampleVmx
      (vmxStep sampleVmx pointerLoaded (.exit (memoryOperand.taken .vmwrite))) .vmread) 0x1010 := by
    rw [OperandExit.Delivered,if_pos register]
    decide +kernel
  refine ⟨rfl,address,?_,?_⟩
  · intro delivered
    rw [OperandExit.Delivered,if_pos register] at address delivered
    exact absurd (address.symm.trans delivered) (by decide)
  · intro only
    have named : ∀ event ∈ [sampleExit (.vmptrld 0x5000),.exit (memoryOperand.taken .vmwrite)],
        event.Names (Foreign sampleVmx) :=
      List.forall_mem_cons.mpr ⟨foreign_sample,List.forall_mem_singleton.mpr trivial⟩
    have reached := run_guarded (fun _ foreign => foreign) (placed_stable sampleVmx (Foreign sampleVmx))
      ⟨sampleLaunch_launched.placed foreign_zero,trivial⟩ foreign_zero named
    have harmless := harmless_of_only reached (by decide +kernel) only 0 (by decide +kernel) (by decide +kernel)
    rw [if_pos (show (registerOperand 4).isRegister = true by decide)] at harmless
    exact absurd (harmless (by decide)) (by decide +kernel)

end Sample
end HyperBox.Nested
