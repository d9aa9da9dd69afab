import HyperBox.Exit.Store

/-! The width of the operand of SLDT, STR, LLDT and LTR. A selector has sixteen bits; the handler
takes the width of its memory accesses from the address size and compares whole registers. -/
namespace HyperBox.Exit
open HyperBox.Library HyperBox.PageTable

/-- What the processor reports: no displacement for a register, and one of three address sizes.
It does not report the operand size; `word` is set when it is sixteen bits. -/
structure SelectorData extends ExitData where
  word : Bool
  registerQual : vmInstInfoMemReg instInfo = true → exitQual = 0
  addrSize : vmInstInfoMemReg instInfo = false → vmInstInfoAddrSize instInfo ≤ 2

section Loads
variable {mem : Mem} {host : HostControl} {addr : U64}

theorem hostLoad_add_two (count : Nat) : hostLoad mem host addr (count + 2) = (do
    let selector ← hostLoad mem host addr 2
    let rest ← hostLoad mem host (addr + 2) count
    return (rest <<< 16) ||| selector) := by
  have next : addr + 1 + 1 = addr + 2 := by rw [BitVec.add_assoc]; rfl
  have joined : ∀ rest b1 b0 : U64, (((rest <<< 8) ||| b1) <<< 8) ||| b0 =
      (rest <<< 16) ||| ((((0 <<< 8) ||| b1) <<< 8) ||| b0) := by
    intro rest b1 b0
    simp [BitVec.shiftLeft_or_distrib,← BitVec.shiftLeft_add,BitVec.or_assoc]
  simp only [hostLoad,next]
  cases hostPage mem host addr with
  | none => rfl
  | some page =>
    cases hostPage mem host (addr + 1) with
    | none => rfl
    | some page' =>
      cases hostLoad mem host (addr + 2) count with
      | none => simp
      | some rest => exact congrArg some (joined _ _ _)

theorem hostLoad_lt {count : Nat} (small : count ≤ 8) {value : U64}
    (loaded : hostLoad mem host addr count = some value) : value.toNat < 2^(8 * count) := by
  induction count generalizing addr value with
  | zero =>
    obtain rfl := Option.some.inj loaded
    decide
  | succ count ih =>
    simp only [hostLoad,Option.bind_eq_bind,Option.bind_eq_some_iff,Option.pure_def,Option.some.injEq] at loaded
    obtain ⟨page,_,later,above,rfl⟩ := loaded
    have bound := ih (by omega) above
    have power : 2^(8 * (count+1)) = 2^(8 * count) * 2^8 := by rw [Nat.mul_add,Nat.pow_add]
    rw [BitVec.toNat_or]
    apply Nat.or_lt_two_pow
    · rw [BitVec.toNat_shiftLeft,Nat.shiftLeft_eq]
      have grown : later.toNat * 2^8 < 2^(8 * (count+1)) := by omega
      exact Nat.lt_of_le_of_lt (Nat.mod_le _ _) grown
    · rw [BitVec.toNat_setWidth]
      have byte := (readByte mem (byteLoc addr page)).isLt
      have wide : 2^8 ≤ 2^(8 * (count+1)) := Nat.pow_le_pow_right (by decide) (by omega)
      omega

end Loads

section Stores

theorem littleEndian_add_two (count : Nat) (value : U64) :
    littleEndian (2 + count) value = littleEndian 2 value ++ littleEndian count (value >>> 16) := by
  have later : ∀ k : Nat, value >>> (8 * (2 + k)) = value >>> 16 >>> (8 * k) := by
    intro k
    rw [← BitVec.shiftRight_add,Nat.mul_add]
  rw [littleEndian,List.range_add,List.map_append,List.map_map]
  congr 1
  apply List.map_congr_left
  intro k _
  simp only [Function.comp_apply,later]

theorem storePlaces_append (host : HostControl) (mem : Mem) (addr : U64) (first second : List (BitVec 8)) :
    storePlaces host mem addr (first ++ second) = (do
      let places ← storePlaces host mem addr first
      let more ← storePlaces host mem (addr + BitVec.ofNat 64 first.length) second
      return places ++ more) := by
  induction first generalizing addr with
  | nil => simp [storePlaces]
  | cons byte rest ih =>
    have next : addr + 1 + BitVec.ofNat 64 rest.length = addr + BitVec.ofNat 64 (rest.length + 1) := by
      rw [BitVec.add_assoc,Nat.add_comm,BitVec.ofNat_add]
      rfl
    simp only [List.cons_append,storePlaces,ih,next,List.length_cons]
    cases storeLoc mem host addr with
    | none => rfl
    | some loc =>
      cases storePlaces host mem (addr + 1) rest with
      | none => rfl
      | some places =>
        cases storePlaces host mem (addr + BitVec.ofNat 64 (rest.length + 1)) second with
        | none => rfl
        | some more => rfl

end Stores

section Outcome
variable (env : RootEnv) (data : ExitData) (word : Bool) (guest : GuestState) (s : HostTables)

def operandTables : Option HostTables :=
  if vmInstInfoMemReg data.instInfo then some s
  else match hbSyncPageTable env.toSyncEnv s (destAddrOf data guest) data.guestCr3 true with
    | .error _ => none
    | .ok (s,_) => some s

def stored (mem : Mem) (store : HostStore) : Option Mem :=
  (storePlaces env.control mem store.addr store.bytes).map (storeBytes mem)

/-- The guest and the memory after the handler, if its accesses can be carried out. -/
def ldtrTrOutcome : Option (GuestState × Mem) := do
  let tables ← operandTables env data guest s
  let handled := hbVmExitCallbackLdtrTr env data guest s
  if vmInstInfoMemReg data.instInfo then return (handled.guest,handled.tables.mem)
  else if vmInstInfoInstIdentity data.instInfo < 2 then do
    let mem ← handled.stores.foldlM (stored env) handled.tables.mem
    return (handled.guest,mem)
  else do
    let _ ← hbGetValueFromMemory tables.mem env.control data.instInfo (destAddrOf data guest)
    return (handled.guest,handled.tables.mem)

def operandRegister : U64 := hbGetRegValueFromIndex guest.registers (vmInstInfoReg1 data.instInfo)

section Selector
variable (tables : HostTables)

/-- The selector as the processor takes it: sixteen bits of the register, or two bytes. -/
def operandSelector : Option U64 :=
  if vmInstInfoMemReg data.instInfo then some (operandRegister data guest &&& 0xFFFF)
  else hostLoad tables.mem env.control (destAddrOf data guest) 2

/-- What the processor leaves in a destination register: with a 16-bit operand its upper bits, with
a larger one zeros above the selector. -/
def selectorRegister (value : U64) : U64 :=
  if word then (operandRegister data guest &&& ~~~0xFFFF) ||| (value &&& 0xFFFF) else value &&& 0xFFFF

def selectorStored (value : U64) : Option (GuestState × Mem) :=
  if vmInstInfoMemReg data.instInfo then
    let registers := hbSetRegValueFromIndex guest.registers (vmInstInfoReg1 data.instInfo)
      (selectorRegister data word guest value)
    some (hbAdvanceVmGuestRip data { guest with registers := registers },tables.mem)
  else do
    let mem ← stored env tables.mem ⟨destAddrOf data guest,littleEndian 2 value⟩
    return (hbAdvanceVmGuestRip data guest,mem)

def selectorLoaded (load : U64 → GuestState) : Option (GuestState × Mem) := do
  let selector ← operandSelector env data guest tables
  return (hbAdvanceVmGuestRip data (load selector),tables.mem)

end Selector

def selectorOutcome : Option (GuestState × Mem) := do
  let tables ← operandTables env data guest s
  match vmInstInfoInstIdentity data.instInfo with
  | 0 => selectorStored env data word guest tables guest.ldtrSelector
  | 1 => selectorStored env data word guest tables guest.trSelector
  | 2 => selectorLoaded env data guest tables (lldt guest)
  | _ => selectorLoaded env data guest tables (ltr guest)

/-- What the handler accesses beyond the two bytes of the operand. -/
def restBytes (instInfo : U64) : Nat :=
  match vmInstInfoAddrSize instInfo with
  | 0 => 0
  | 1 => 2
  | _ => 6

/-- If the two bytes can be stored, so can the rest, which holds already what goes there. -/
def RestHolds (mem : Mem) (value : U64) : Prop :=
  ∀ places, storePlaces env.control mem (destAddrOf data guest) (littleEndian 2 value) = some places →
    ∃ more, storePlaces env.control mem (destAddrOf data guest + 2)
        (littleEndian (restBytes data.instInfo) (value >>> 16)) = some more ∧
      ∀ place ∈ more, readByte mem place.1 = place.2

/-- If the two bytes can be loaded, so can the rest, and it suits the selector. -/
def RestLoads (mem : Mem) (suits : U64 → U64 → Prop) : Prop :=
  ∀ selector, hostLoad mem env.control (destAddrOf data guest) 2 = some selector →
    ∃ rest, hostLoad mem env.control (destAddrOf data guest + 2) (restBytes data.instInfo) = some rest ∧
      suits selector rest

/-- A destination register of sixteen bits must have nothing above them, and the source of LLDT must
not be null in its low sixteen bits alone. In memory only the bytes behind the operand matter: there
are none with addresses of sixteen bits. -/
def OperandFits : Prop :=
  if vmInstInfoMemReg data.instInfo then
    (vmInstInfoInstIdentity data.instInfo < 2 → word = true → operandRegister data guest &&& ~~~0xFFFF = 0) ∧
      (vmInstInfoInstIdentity data.instInfo = 2 → operandRegister data guest &&& 0xFFFF = 0 →
        operandRegister data guest = 0)
  else ∀ tables, operandTables env data guest s = some tables →
    match vmInstInfoInstIdentity data.instInfo with
    | 0 => RestHolds env data guest tables.mem guest.ldtrSelector
    | 1 => RestHolds env data guest tables.mem guest.trSelector
    | 2 => RestLoads env data guest tables.mem (fun selector rest => selector = 0 → rest = 0)
    | _ => RestLoads env data guest tables.mem (fun _ _ => True)

end Outcome

section Wide
variable {env : RootEnv} {data : SelectorData} {guest : GuestState} {s : HostTables} {mem : Mem} {addr : U64}

theorem storePlaces_distinct {host : HostControl} {bytes : List (BitVec 8)} {places : List (ByteLoc 512 × BitVec 8)}
    (small : bytes.length ≤ 8) (stored : storePlaces host mem addr bytes = some places) :
    (places.map Prod.fst).Nodup := by
  apply List.Nodup.of_map locOffset
  rw [List.map_map]
  have offsets := storePlaces_offsets stored
  simp only [Function.comp_def] at offsets ⊢
  rw [offsets]
  exact offsets_nodup addr List.nodup_range (fun k member => by have := List.mem_range.mp member; omega)

theorem restBytes_le (instInfo : U64) : restBytes instInfo ≤ 6 := by
  unfold restBytes
  split <;> decide

theorem stored_wide_iff (value : U64) :
    stored env mem ⟨destAddrOf data.toExitData guest,littleEndian (2 + restBytes data.instInfo) value⟩ =
        stored env mem ⟨destAddrOf data.toExitData guest,littleEndian 2 value⟩ ↔
      RestHolds env data.toExitData guest mem value := by
  have small := restBytes_le data.instInfo
  have whole := storePlaces_append env.control mem (destAddrOf data.toExitData guest) (littleEndian 2 value)
    (littleEndian (restBytes data.instInfo) (value >>> 16))
  have next : BitVec.ofNat 64 2 = (2 : U64) := rfl
  rw [← littleEndian_add_two,littleEndian_length,next] at whole
  unfold stored RestHolds
  dsimp only
  generalize storePlaces env.control mem (destAddrOf data.toExitData guest + 2)
    (littleEndian (restBytes data.instInfo) (value >>> 16)) = second at whole ⊢
  generalize storePlaces env.control mem (destAddrOf data.toExitData guest) (littleEndian 2 value) = first at whole ⊢
  cases first with
  | none => simp [whole]
  | some places =>
    cases second with
    | none => simp [whole]
    | some more =>
      have length : (littleEndian (2 + restBytes data.instInfo) value).length ≤ 8 := by
        rw [littleEndian_length]
        omega
      have carried : storePlaces env.control mem (destAddrOf data.toExitData guest)
          (littleEndian (2 + restBytes data.instInfo) value) = some (places ++ more) := whole
      rw [carried]
      simpa using storeBytes_append_iff (storePlaces_distinct length carried)

theorem loaded_wide_iff {α : Type} (host : HostControl) (count : Nat) (use : U64 → α) :
    (hostLoad mem host addr (count + 2)).map use = (hostLoad mem host addr 2).map use ↔
      ∀ selector, hostLoad mem host addr 2 = some selector →
        ∃ rest, hostLoad mem host (addr + 2) count = some rest ∧ use ((rest <<< 16) ||| selector) = use selector := by
  rw [hostLoad_add_two]
  cases hostLoad mem host addr 2 with
  | none => simp
  | some selector =>
    generalize hostLoad mem host (addr + 2) count = rest
    cases rest with
    | none => simp
    | some rest => simp

theorem setValue_wide (memory : vmInstInfoMemReg data.instInfo = false) (destAddr value : U64) :
    hbSetValueToMemory data.instInfo destAddr value = [⟨destAddr,littleEndian (2 + restBytes data.instInfo) value⟩] := by
  have size : vmInstInfoAddrSize data.instInfo = 0 ∨ vmInstInfoAddrSize data.instInfo = 1 ∨
      vmInstInfoAddrSize data.instInfo = 2 := by
    have bound := data.addrSize memory
    omega
  unfold hbSetValueToMemory restBytes
  rcases size with size | size | size <;> simp only [size]

theorem getValue_wide (memory : vmInstInfoMemReg data.instInfo = false) (host : HostControl) (destAddr : U64) :
    hbGetValueFromMemory mem host data.instInfo destAddr =
      hostLoad mem host destAddr (restBytes data.instInfo + 2) := by
  have size : vmInstInfoAddrSize data.instInfo = 0 ∨ vmInstInfoAddrSize data.instInfo = 1 ∨
      vmInstInfoAddrSize data.instInfo = 2 := by
    have bound := data.addrSize memory
    omega
  unfold hbGetValueFromMemory restBytes
  rcases size with size | size | size <;> simp only [size]

theorem lldt_eq_iff (fresh : guest.udInserted = false) (value value' : U64) :
    lldt guest value = lldt guest value' ↔ (value = 0 ↔ value' = 0) := by
  have differ : ∀ null : U64, { guest with ldtrSelector := null } ≠ { guest with udInserted := true } := by
    intro null same
    have inserted := congrArg GuestState.udInserted same
    simp [fresh] at inserted
  unfold lldt
  split
  next null =>
    split
    next null' => exact iff_of_true (by rw [null,null']) (iff_of_true null null')
    next other => exact iff_of_false (differ value) (fun nulls => other (nulls.mp null))
  next other =>
    split
    next null' => exact iff_of_false (differ value').symm (fun nulls => other (nulls.mpr null'))
    next other' => exact iff_of_true rfl (iff_of_false other other')

theorem joined_null_iff {count : Nat} (small : count ≤ 6) {selector rest : U64}
    (loaded : hostLoad mem env.control (addr + 2) count = some rest) :
    ((rest <<< 16) ||| selector = 0 ↔ selector = 0) ↔ (selector = 0 → rest = 0) := by
  have bound := hostLoad_lt (by omega) loaded
  have power : 2^(8 * count) ≤ 2^48 := Nat.pow_le_pow_right (by decide) (by omega)
  have shifted : rest <<< 16 = 0 ↔ rest = 0 := by
    rw [← BitVec.toNat_inj,← BitVec.toNat_inj,BitVec.toNat_shiftLeft,Nat.shiftLeft_eq]
    have fits : rest.toNat * 2^16 % 2^64 = rest.toNat * 2^16 := Nat.mod_eq_of_lt (by omega)
    rw [fits]
    simp
  have joined : (rest <<< 16) ||| selector = 0 ↔ rest <<< 16 = 0 ∧ selector = 0 := BitVec.or_eq_zero_iff
  rw [joined,shifted]
  constructor
  · intro nulls null
    exact (nulls.mpr null).1
  · intro suits
    exact ⟨fun both => both.2,fun null => ⟨suits null,null⟩⟩

theorem ltr_joined (selector rest : U64) : ltr guest ((rest <<< 16) ||| selector) = ltr guest selector := by
  have low : ((rest <<< 16) ||| selector) &&& 0xFFFF = selector &&& 0xFFFF := by
    have gone : (rest <<< 16) &&& 0xFFFF = 0 := by
      apply BitVec.eq_of_toNat_eq
      rw [BitVec.toNat_and,BitVec.toNat_shiftLeft,Nat.shiftLeft_eq]
      have mask : (0xFFFF : U64).toNat = 2^16 - 1 := rfl
      have zero : (0 : U64).toNat = 0 := rfl
      rw [mask,zero,Nat.and_two_pow_sub_one_eq_mod]
      omega
    rw [BitVec.and_or_distrib_right,gone]
    exact BitVec.zero_or
  rw [ltr,low,ltr]

end Wide

section Handler
variable {env : RootEnv} {data : SelectorData} {guest : GuestState} {s : HostTables}

theorem advance_inj {first second : GuestState} :
    hbAdvanceVmGuestRip data.toExitData first = hbAdvanceVmGuestRip data.toExitData second ↔ first = second := by
  cases first
  cases second
  simp [hbAdvanceVmGuestRip]

/-- The selector fields of the VMCS have sixteen bits. -/
def GuestState.SelectorFields (guest : GuestState) : Prop :=
  guest.ldtrSelector &&& 0xFFFF = guest.ldtrSelector ∧ guest.trSelector &&& 0xFFFF = guest.trSelector

theorem vmInstInfoReg1_lt (instInfo : U64) : vmInstInfoReg1 instInfo < 16 := by
  rw [vmInstInfoReg1,BitVec.toNat_and]
  exact Nat.and_lt_two_pow _ (show (0x0F : U64).toNat < 2^4 by decide)

theorem setReg_eq_iff (registers : GuestRegister) {index : Nat} (bound : index < 16) (first second : U64) :
    hbSetRegValueFromIndex registers index first = hbSetRegValueFromIndex registers index second ↔ first = second := by
  constructor
  · intro same
    have read := congrArg (fun registers => hbGetRegValueFromIndex registers index) same
    simpa only [hbSetReg_same registers bound] using read
  · rintro rfl
    rfl

theorem selectorRegister_eq_iff {value : U64} (field : value &&& 0xFFFF = value) :
    value = selectorRegister data.toExitData data.word guest value ↔
      (data.word = true → operandRegister data.toExitData guest &&& ~~~0xFFFF = 0) := by
  unfold selectorRegister
  rw [field]
  cases data.word with
  | false => simp
  | true =>
    simp only [if_true,true_imp_iff]
    generalize operandRegister data.toExitData guest = register
    constructor
    · intro same
      have high := congrArg (fun word => word &&& ~~~0xFFFF) same
      have clear : value &&& ~~~0xFFFF = 0 := by
        have disjoint : (0xFFFF : U64) &&& ~~~0xFFFF = 0#64 := by decide
        rw [← field,BitVec.and_assoc,disjoint]
        exact BitVec.and_zero
      simp only [BitVec.and_or_distrib_right,BitVec.and_assoc,BitVec.and_self,clear] at high
      exact (high.trans BitVec.or_zero).symm
    · intro clear
      rw [clear]
      exact BitVec.zero_or.symm

theorem register_stored_iff {value : U64} (field : value &&& 0xFFFF = value) :
    hbAdvanceVmGuestRip data.toExitData { guest with
          registers := hbSetRegValueFromIndex guest.registers (vmInstInfoReg1 data.instInfo) value } =
        hbAdvanceVmGuestRip data.toExitData { guest with
          registers := hbSetRegValueFromIndex guest.registers (vmInstInfoReg1 data.instInfo)
            (selectorRegister data.toExitData data.word guest value) } ↔
      (data.word = true → operandRegister data.toExitData guest &&& ~~~0xFFFF = 0) := by
  rw [advance_inj,← selectorRegister_eq_iff field]
  have states : ∀ first second : GuestRegister,
      { guest with registers := first } = { guest with registers := second } ↔ first = second := by
    intro first second
    exact ⟨congrArg GuestState.registers,fun same => by rw [same]⟩
  rw [states,setReg_eq_iff _ (vmInstInfoReg1_lt _)]

theorem register_outcome_iff (fresh : guest.udInserted = false) (fields : guest.SelectorFields)
    (register : vmInstInfoMemReg data.instInfo = true) :
    ldtrTrOutcome env data.toExitData guest s = selectorOutcome env data.toExitData data.word guest s ↔
      OperandFits env data.toExitData data.word guest s := by
  have destAddr : destAddrOf data.toExitData guest = operandRegister data.toExitData guest := by
    rw [destAddrOf,if_pos register,data.registerQual register]
    exact BitVec.add_zero _
  unfold ldtrTrOutcome selectorOutcome OperandFits operandTables hbVmExitCallbackLdtrTr ldtrTrInst
  simp only [register,if_true,destAddr,Option.bind_eq_bind,Option.bind_some,Option.pure_def,Bool.false_eq_true,if_false,
    Option.map_some,Option.getD_some]
  split
  next sldt => simpa [sldt,deliver,selectorStored,register] using register_stored_iff fields.1
  next str => simpa [str,deliver,selectorStored,register] using register_stored_iff fields.2
  next lldt =>
    simp [lldt,selectorLoaded,operandSelector,register,advance_inj,lldt_eq_iff fresh]
    generalize operandRegister data.toExitData guest = value
    exact ⟨fun same null => same.mpr null,fun fits => ⟨fun null => by simp [null],fits⟩⟩
  next notSldt notStr notLldt =>
    have load : ¬ vmInstInfoInstIdentity data.instInfo < 2 := by
      have first : vmInstInfoInstIdentity data.instInfo ≠ 0 := notSldt
      have second : vmInstInfoInstIdentity data.instInfo ≠ 1 := notStr
      omega
    simp only [selectorLoaded,operandSelector,register,if_true,Option.bind_eq_bind,Option.bind_some,Option.pure_def,
      Option.some.injEq,Prod.mk.injEq,and_true,advance_inj]
    exact iff_of_true (by simp [ltr,BitVec.and_assoc])
      ⟨fun stores => (load stores).elim,fun lldt => (notLldt lldt).elim⟩

theorem stored_outcome_iff (guest : GuestState) (first second : Option Mem) :
    (first.bind fun mem => some (guest,mem)) = (second.bind fun mem => some (guest,mem)) ↔ first = second := by
  cases first <;> cases second <;> simp

theorem loaded_outcome_iff (mem : Mem) (load : U64 → GuestState) (first second : Option U64) :
    (first.bind fun _ => some (hbAdvanceVmGuestRip data.toExitData ((first.map load).getD guest),mem)) =
        (second.bind fun value => some (hbAdvanceVmGuestRip data.toExitData (load value),mem)) ↔
      first.map load = second.map load := by
  cases first <;> cases second <;> simp [advance_inj]

theorem memory_outcome_iff (fresh : guest.udInserted = false) (memory : vmInstInfoMemReg data.instInfo = false) :
    ldtrTrOutcome env data.toExitData guest s = selectorOutcome env data.toExitData data.word guest s ↔
      OperandFits env data.toExitData data.word guest s := by
  unfold ldtrTrOutcome selectorOutcome OperandFits operandTables hbVmExitCallbackLdtrTr
  simp only [memory,Bool.false_eq_true,if_false]
  cases hbSyncPageTable env.toSyncEnv s (destAddrOf data.toExitData guest) data.guestCr3 true with
  | error s' => simp
  | ok result =>
    obtain ⟨tables,expandValue⟩ := result
    simp only [Option.bind_eq_bind,Option.bind_some,Option.some.injEq,forall_eq',ldtrTrInst,if_true,deliver,
      selectorStored,selectorLoaded,operandSelector,memory,Bool.false_eq_true,if_false,Option.pure_def,
      setValue_wide memory,getValue_wide memory]
    have small : restBytes data.instInfo ≤ 6 := restBytes_le data.instInfo
    generalize vmInstInfoInstIdentity data.instInfo = identity
    rcases identity with _ | _ | _ | identity
    · simp only [Nat.reduceLT,if_true,List.foldlM_cons,List.foldlM_nil,Option.bind_eq_bind,Option.pure_def,Option.bind_fun_some]
      exact (stored_outcome_iff _ _ _).trans (stored_wide_iff _)
    · simp only [Nat.zero_add,Nat.reduceLT,if_true,List.foldlM_cons,List.foldlM_nil,Option.bind_eq_bind,Option.pure_def,
        Option.bind_fun_some]
      exact (stored_outcome_iff _ _ _).trans (stored_wide_iff _)
    · simp only [Nat.zero_add,Nat.reduceAdd,Nat.reduceLT,if_false,RestLoads]
      rw [loaded_outcome_iff,loaded_wide_iff]
      refine forall_congr' (fun selector => imp_congr_right (fun _ => exists_congr (fun rest => ?_)))
      refine and_congr_right (fun loaded => ?_)
      rw [lldt_eq_iff fresh,joined_null_iff small loaded]
    · have load : ¬ identity + 1 + 1 + 1 < 2 := by omega
      simp only [load,if_false,RestLoads]
      rw [loaded_outcome_iff,loaded_wide_iff]
      simp only [ltr_joined]

end Handler

section Sample

def lldtRax : SelectorData where
  instInfo := 0x20000400
  instLength := 3
  exitQual := 0
  guestCr3 := 0x3000
  systemShutdowning := false
  word := false
  registerQual _ := rfl
  addrSize memory := absurd memory (by decide)

def selectorGuest (rax : U64) : GuestState :=
  ⟨⟨rax,0,0,0,0,0,0,0,0,0,0,0,0,0,0,0⟩,0x400000,0x2,0,0,0,0,0x28,0x40,true,false⟩

end Sample
end HyperBox.Exit
