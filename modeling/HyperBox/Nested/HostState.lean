import HyperBox.Nested.OwnVmcs

/-! The host state of a nested VMCS. Hyper-box replaces HOST_RIP and HOST_CR3 when the guest
hypervisor writes them, and sets only HOST_RSP when it enters the VMCS. So the processor
comes back to Hyper-box if both have been written before. -/
namespace HyperBox.Nested
open HyperBox.Library HyperBox.PageTable HyperBox.Ept

def Plain {n : Nat} (env : VmxEnv n) (addr : U64) : Prop := Foreign env addr ∧ pageStart addr = addr

theorem plain_zero {n : Nat} {env : VmxEnv n} : Plain env 0 := ⟨foreign_zero,by decide⟩

theorem plain_ne_noVmcs {n : Nat} {env : VmxEnv n} {addr : U64} (plain : Plain env addr) : addr ≠ noVmcs := by
  rintro rfl
  exact absurd plain.2 (by decide)

def HostField {n : Nat} (env : VmxEnv n) (field value : U64) : Prop :=
  (field = vmHostRip ∧ value = env.vmExitCallbackStub) ∨ (field = vmHostCr3 ∧ value = env.vmHostPhyPml4)

section Fields
variable {n : Nat} {env : VmxEnv n} {host value : U64} (hostField : HostField env host value)

theorem fieldKey_bit {field : U64} {i : Nat} (high : 0 < i) (bound : i < 64) :
    (fieldKey field).getLsbD i = field.getLsbD i := by
  have one : (1 : U64).getLsbD i = false := Nat.testBit_lt_two_pow (Nat.one_lt_two_pow (by omega))
  rw [fieldKey,BitVec.getLsbD_and,BitVec.getLsbD_not,one]
  simp [bound]

theorem fieldKey_low {field : U64} (low : highAccess field = false) : fieldKey field = field := by
  apply BitVec.eq_of_getLsbD_eq
  intro i bound
  by_cases zero : i = 0
  · subst zero
    rw [fieldKey,BitVec.getLsbD_and,show field.getLsbD 0 = false from low,Bool.false_and]
  · exact fieldKey_bit (by omega) bound

include hostField

theorem HostField.natural : fieldWidth host = .natural ∧ highAccess host = false := by
  rcases hostField with ⟨rfl,_⟩ | ⟨rfl,_⟩ <;> decide

theorem HostField.only {field : U64} (supported : env.supported field) (key : fieldKey field = host) :
    field = host := by
  have natural := hostField.natural.1
  cases high : highAccess field with
  | false => rwa [fieldKey_low high] at key
  | true =>
    have quad := env.highQuad field supported high
    have same : fieldWidth (fieldKey field) = fieldWidth field := by
      unfold fieldWidth
      rw [fieldKey_bit (by decide) (by decide),fieldKey_bit (by decide) (by decide)]
    rw [key,natural,quad] at same
    exact absurd same (by decide)

theorem HostField.write (region : Region) : (region.write host value).fields host = value := by
  obtain ⟨natural,low⟩ := hostField.natural
  simp [Region.write,fieldKey_low low,fieldValue,low,natural]

theorem HostField.replaced (cpuId : Fin n) (destAddr : U64) : hostFieldValue env cpuId host destAddr = value := by
  rcases hostField with ⟨rfl,rfl⟩ | ⟨rfl,rfl⟩
  · simp [hostFieldValue]
  · simp [hostFieldValue,show vmHostCr3 ≠ vmHostRip by decide,show vmHostCr3 ≠ vmHostRsp by decide]

theorem HostField.trapped : vmwriteBitmap host = true := by
  rcases hostField with ⟨rfl,_⟩ | ⟨rfl,_⟩ <;> decide

theorem HostField.unsaved : savedOnExit host = false := by
  rcases hostField with ⟨rfl,_⟩ | ⟨rfl,_⟩ <;> decide

theorem HostField.not_own {cpuId : Fin n} {field written : U64} (write : OwnWrite env cpuId field written) :
    field ≠ host := by
  have plain : ∀ field ∈ plainFields, field ≠ vmHostRip ∧ field ≠ vmHostCr3 := by
    simp only [plainFields,List.forall_mem_cons,List.not_mem_nil,false_imp_iff,implies_true,and_true]
    decide
  rcases hostField with ⟨rfl,_⟩ | ⟨rfl,_⟩ <;> rcases write with member | rfl | ⟨rfl,_⟩
  · exact (plain field member).1
  · decide
  · decide
  · exact (plain field member).2
  · decide
  · decide

end Fields
section Kept
variable {n : Nat} {env : VmxEnv n} {host value : U64} {s : NestedState n} {region addr : U64}

theorem kept_updateRegion (held : s.field region host = value) {update : Region → Region}
    (keeps : (update (s.regions addr)).fields host = (s.regions addr).fields host ∨
      (update (s.regions addr)).fields host = value) :
    (s.updateRegion addr update).field region host = value := by
  by_cases here : region = addr
  · subst here
    rcases keeps with same | set
    · simpa [NestedState.field,same] using held
    · simpa [NestedState.field] using set
  · simpa [NestedState.field,here] using held

theorem kept_hbWriteVmcs (held : s.field region host = value) {cpuId : Fin n} {field written : U64}
    (keeps : env.supported field → fieldKey field = host →
      ∀ region : Region, (region.write field written).fields host = value) :
    (hbWriteVmcs env cpuId s field written).field region host = value := by
  unfold hbWriteVmcs
  split
  next allowed =>
    apply kept_updateRegion held
    by_cases key : fieldKey field = host
    · exact .inr (keeps allowed.2.1 key _)
    · exact .inl (write_other key)
  next => exact held

theorem shadowStore_aligned (aligned : pageStart addr = addr) (set : Bool) :
    shadowStore env s addr set = s.updateRegion addr (fun region =>
      { region with
        revision := if set then region.revision ||| vmBitRevisionShadowVmcs
          else region.revision &&& ~~~vmBitRevisionShadowVmcs }) := by
  simp only [shadowStore,pageStart_dword aligned,if_true]

theorem kept_shadowStore (held : s.field region host = value) (aligned : pageStart addr = addr) (set : Bool) :
    (shadowStore env s addr set).field region host = value := by
  rw [shadowStore_aligned aligned]
  exact kept_updateRegion held (.inl rfl)

theorem host_stable (hostField : HostField env host value) (region : U64) :
    Stable env (Plain env) (fun s => s.field region host = value) where
  setCurrent _ _ _ held := held
  setNestedVmcsPtr _ _ _ held := held
  setVmLaunch _ _ _ held := held
  updateSlot _ _ _ held := held
  launched _ _ _ held := kept_updateRegion held (.inl rfl)
  clear _ _ _ held := held
  setShadow s _ plain held := kept_shadowStore (s := s.record _) held plain.2 true
  clearShadow s _ plain held := kept_shadowStore (s := s.record _) held plain.2 false
  ownWrite _ _ _ _ _ write held := kept_hbWriteVmcs held (fun _ key =>
    absurd (write.key.symm.trans key) (hostField.not_own write))
  guestWrite s cpuId field destAddr _ held := kept_hbWriteVmcs (s := s.record _) held (fun supported key region => by
    obtain rfl := hostField.only supported key
    rw [hostField.replaced,hostField.write])
  rspWrite _ cpuId value _ held := kept_hbWriteVmcs held (fun _ key => by
    have write : OwnWrite env cpuId vmGuestRsp value := .inl (by simp [plainFields])
    exact absurd (write.key.symm.trans key) (hostField.not_own write))
  save _ _ _ _ held := kept_updateRegion held (.inl (by simp [Region.save,hostField.unsaved]))
  shadowed _ _ field _ _ untrapped supported held := kept_updateRegion held (.inl (write_other (fun key => by
    obtain rfl := hostField.only supported key
    rw [hostField.trapped] at untrapped
    exact absurd untrapped (by decide))))

end Kept
section Unmoved
variable {n : Nat} {env : VmxEnv n} {s s' s'' : NestedState n}

/-- The states agree on what finding and loading a nested VMCS depend on. -/
structure Unmoved (s s' : NestedState n) : Prop where
  pointer : s'.nestedVmcsPtr = s.nestedVmcsPtr
  array : s'.nestedVmcsArray = s.nestedVmcsArray
  revision : ∀ addr, (s'.regions addr).revision = (s.regions addr).revision

theorem Unmoved.trans (first : Unmoved s s') (second : Unmoved s' s'') : Unmoved s s'' :=
  ⟨second.pointer.trans first.pointer,second.array.trans first.array,
    fun addr => (second.revision addr).trans (first.revision addr)⟩

theorem Unmoved.loadable (unmoved : Unmoved s s') (cpuId : Fin n) (addr : U64) :
    loadable env cpuId s' addr = loadable env cpuId s addr := by
  rw [Nested.loadable,unmoved.revision,Nested.loadable]

theorem updateRegion_unmoved (s : NestedState n) (addr : U64) {update : Region → Region}
    (keeps : ∀ region, (update region).revision = region.revision) : Unmoved s (s.updateRegion addr update) := by
  refine ⟨rfl,rfl,fun other => ?_⟩
  by_cases here : other = addr
  · subst here
    simp [keeps]
  · simp [here]

variable (env s)

theorem hbWriteVmcs_unmoved (cpuId : Fin n) (field value : U64) :
    Unmoved s (hbWriteVmcs env cpuId s field value) := by
  unfold hbWriteVmcs
  split
  · exact updateRegion_unmoved s _ (fun _ => rfl)
  · exact ⟨rfl,rfl,fun _ => rfl⟩

theorem hbAdvanceVmGuestRip_unmoved (cpuId : Fin n) (stale : U64) :
    Unmoved s (hbAdvanceVmGuestRip env cpuId stale s) := by
  obtain ⟨rip,advanced⟩ := hbAdvanceVmGuestRip_write env cpuId stale s
  rw [advanced]
  exact hbWriteVmcs_unmoved _ _ _ _ _

theorem handled_unmoved (cpuId : Fin n) (stale : U64) :
    Unmoved s (hbClearVmxInstFlags env cpuId stale (hbAdvanceVmGuestRip env cpuId stale s)) :=
  (hbAdvanceVmGuestRip_unmoved env s cpuId stale).trans (hbWriteVmcs_unmoved _ _ _ _ _)

theorem vmExit_unmoved (exit : VmxExit n) : Unmoved s (vmExit exit s) := by
  have saved := updateRegion_unmoved s (s.current exit.cpuId)
    (show ∀ region : Region, (region.save exit.saved).revision = region.revision from fun _ => rfl)
  exact ⟨saved.pointer,saved.array,saved.revision⟩

end Unmoved

section Written
variable {n : Nat} {env : VmxEnv n} {host value : U64} (hostField : HostField env host value)
  {s : NestedState n} {cpuId : Fin n}

/-- A VMWRITE that reaches a nested VMCS: there is a slot for it and it can be loaded. -/
def Writes (env : VmxEnv n) (s : NestedState n) (region field : U64) : VmxEvent n → Prop
  | .exit taken => (∃ destAddr, taken.inst = .vmwrite field destAddr) ∧
    s.current taken.cpuId = env.guestVmcsPhyAddr taken.cpuId ∧ s.nestedVmcsPtr taken.cpuId = region ∧
    (hbFindNestedVmcsStruct s.nestedVmcsArray region).isSome ∧ loadable env taken.cpuId s region
  | .shadowed _ _ _ => False

include hostField

theorem guestVmwrite_sets (current : s.current cpuId ≠ noVmcs) (destAddr : U64) :
    (guestVmwrite env cpuId s host (hostFieldValue env cpuId host destAddr)).field (s.current cpuId) host = value := by
  have core : host ∈ coreFields := by
    rcases hostField with ⟨rfl,_⟩ | ⟨rfl,_⟩ <;> simp [coreFields]
  have allowed := env.core host core
  rw [guestVmwrite,hbWriteVmcs,if_pos ⟨current,allowed⟩,hostField.replaced]
  simpa [NestedState.field] using hostField.write _

theorem emulateVmwrite_kept (home : AtHome env (Plain env) (fun _ => True) cpuId s)
    (loads : loadable env cpuId s (s.nestedVmcsPtr cpuId)) (slot : Fin maxNestedVmcs) (destAddr : U64) :
    AtHome env (Plain env) (fun s' => s'.field (s.nestedVmcsPtr cpuId) host = value) cpuId
      (emulateVmwrite env cpuId s slot (env.guestVmcsPhyAddr cpuId) host destAddr) := by
  have plain := home.placed.pointer cpuId
  have stable := placed_stable env (Plain env)
  have slotted := home.updateSlot stable slot (saveHostField host destAddr)
  have real := plain_ne_noVmcs plain
  unfold emulateVmwrite
  generalize entered : (s.updateSlot slot (saveHostField host destAddr)).setCurrent cpuId (s.nestedVmcsPtr cpuId) = s'
  have loaded : hbLoadVmcs env cpuId (s.updateSlot slot (saveHostField host destAddr)) (s.nestedVmcsPtr cpuId) =
      (true,s') := by
    rw [← entered]
    exact if_pos loads
  have current : s'.current cpuId = s.nestedVmcsPtr cpuId := by simp [← entered]
  have guarded : Guarded env (Plain env) (fun _ => True) s' := by
    rw [← entered]
    exact slotted.visit stable
  have written := guarded.guestWrite stable (fun _ plain => plain.1) (by rwa [current]) host destAddr
  have sets := guestVmwrite_sets hostField (by rwa [current]) destAddr
  rw [current] at sets
  simp only [NestedState.updateSlot_nestedVmcsPtr,loaded]
  exact Guarded.load_home (host_stable hostField _).toKept ⟨written.placed,sets⟩

theorem type2_kept (home : AtHome env (Plain env) (fun _ => True) cpuId s)
    (slot : (hbFindNestedVmcsStruct s.nestedVmcsArray (s.nestedVmcsPtr cpuId)).isSome)
    (loads : loadable env cpuId s (s.nestedVmcsPtr cpuId)) (stale destAddr : U64) :
    AtHome env (Plain env) (fun s' => s'.field (s.nestedVmcsPtr cpuId) host = value) cpuId
      (hbVmExitCallbackVmxInstType2 env cpuId stale s (.vmwrite host destAddr)) := by
  have start := home.handled stale (placed_stable env (Plain env))
  have unmoved := handled_unmoved env s cpuId stale
  obtain ⟨found,find⟩ := Option.isSome_iff_exists.mp slot
  rw [← unmoved.loadable] at loads
  rw [← unmoved.array,← unmoved.pointer] at find
  unfold hbVmExitCallbackVmxInstType2
  dsimp only
  rw [← unmoved.pointer] at loads ⊢
  rw [find,hbStoreVmcs,start.home]
  exact emulateVmwrite_kept hostField (start.updateSlot (placed_stable env (Plain env)) found _) loads found destAddr

theorem callback_kept {exit : VmxExit n} (home : AtHome env (Plain env) (fun _ => True) exit.cpuId s)
    (slot : (hbFindNestedVmcsStruct s.nestedVmcsArray (s.nestedVmcsPtr exit.cpuId)).isSome)
    (loads : loadable env exit.cpuId s (s.nestedVmcsPtr exit.cpuId)) {destAddr : U64}
    (inst : exit.inst = .vmwrite host destAddr) :
    Guarded env (Plain env) (fun s' => s'.field (s.nestedVmcsPtr exit.cpuId) host = value)
      (hbVmExitCallback env exit s) := by
  have started := home.plainField (placed_stable env (Plain env)) 0
    (show vmCtrlVmEntryInstLength ∈ plainFields by simp [plainFields])
  have unmoved := hbWriteVmcs_unmoved env s exit.cpuId vmCtrlVmEntryInstLength 0
  have stable := host_stable hostField (s.nestedVmcsPtr exit.cpuId)
  have same := congrFun unmoved.pointer exit.cpuId
  rw [← unmoved.array,← same] at slot
  rw [← unmoved.loadable,← same] at loads
  have dispatched := type2_kept hostField started slot loads exit.stale destAddr
  rw [same] at dispatched
  have here : ¬ hbStoreVmcs exit.cpuId s ≠ env.guestVmcsPhyAddr exit.cpuId := not_not.mpr home.home
  rw [hbVmExitCallback,if_neg here,inst]
  dsimp only [dispatch,skipAll]
  split
  · exact (dispatched.hbVmSetVmcsShadowingToCurrent (fun _ plain => plain.1) stable
      (dispatched.placed.pointer exit.cpuId)).toGuarded
  · exact dispatched.toGuarded

theorem vmxStep_writes {region : U64} (guarded : Guarded env (Plain env) (fun _ => True) s) {event : VmxEvent n}
    (writes : Writes env s region host event) :
    Guarded env (Plain env) (fun s' => s'.field region host = value) (vmxStep env s event) := by
  cases event with
  | exit taken =>
    obtain ⟨⟨destAddr,inst⟩,current,rfl,slot,loads⟩ := writes
    have saved := vmExit_guarded (placed_stable env (Plain env)) guarded taken
    have unmoved := vmExit_unmoved s taken
    have same := congrFun unmoved.pointer taken.cpuId
    have home : AtHome env (Plain env) (fun _ => True) taken.cpuId (vmExit taken s) := ⟨saved,current⟩
    rw [← unmoved.array,← same] at slot
    rw [← unmoved.loadable,← same] at loads
    have called := callback_kept hostField home slot loads inst
    rw [same] at called
    exact vmEntry_guarded (host_stable hostField _).toKept called _
  | shadowed => exact writes.elim

end Written

section Run
variable {n : Nat} {env : VmxEnv n} {host value region : U64} {start : NestedState n} {events : List (VmxEvent n)}

/-- The field has its value from the start, or the guest hypervisor has written it. -/
def Prepared (env : VmxEnv n) (start : NestedState n) (events : List (VmxEvent n)) (region host value : U64) : Prop :=
  start.field region host = value ∨
    ∃ first event rest, events = first ++ event::rest ∧
      Writes env (run (vmxStep env) start first) region host event

theorem prepared_kept (hostField : HostField env host value) (placed : Placed env (Plain env) start)
    (named : ∀ event ∈ events, event.Names (Plain env)) (prepared : Prepared env start events region host value) :
    (run (vmxStep env) start events).field region host = value := by
  have stable := host_stable hostField region
  rcases prepared with initial | ⟨first,event,rest,rfl,writes⟩
  · exact (run_guarded (fun _ plain => plain.1) stable ⟨placed,initial⟩ plain_zero named).inv
  · have reached : Guarded env (Plain env) (fun _ => True) (run (vmxStep env) start first) :=
      run_guarded (fun _ plain => plain.1) (placed_stable env (Plain env)) ⟨placed,trivial⟩ plain_zero
        (fun event member => named event (by simp [member]))
    have written := vmxStep_writes hostField reached writes
    rw [run_append,run_cons]
    exact (run_guarded (fun _ plain => plain.1) stable written plain_zero
      (fun event member => named event (by simp [member]))).inv

end Run
section Entry
variable {n : Nat} {env : VmxEnv n} {s : NestedState n} {cpuId : Fin n} {addr : U64}

theorem shadow_bits : ∀ i : Fin 32, vmBitRevisionShadowVmcs.getLsbD i.val = decide (i.val = 31) := by decide

theorem shadow_cleared (revision : BitVec 32) :
    revision = revision &&& ~~~vmBitRevisionShadowVmcs ∨
      revision = (revision &&& ~~~vmBitRevisionShadowVmcs) ||| vmBitRevisionShadowVmcs := by
  cases top : revision.getLsbD 31 with
  | false =>
    left
    apply BitVec.eq_of_getLsbD_eq
    intro i bound
    rw [BitVec.getLsbD_and,BitVec.getLsbD_not,shadow_bits ⟨i,bound⟩]
    by_cases last : i = 31
    · subst last
      rw [top,Bool.false_and]
    · simp [last,bound]
  | true =>
    right
    apply BitVec.eq_of_getLsbD_eq
    intro i bound
    rw [BitVec.getLsbD_or,BitVec.getLsbD_and,BitVec.getLsbD_not,shadow_bits ⟨i,bound⟩]
    by_cases last : i = 31
    · subst last
      simpa using top
    · simp [last,bound]

theorem goodRevision_cleared (shadowing : env.supportVmcsShadowing = true) {revision : BitVec 32}
    (good : goodRevision env (revision &&& ~~~vmBitRevisionShadowVmcs)) : goodRevision env revision := by
  simp only [goodRevision,shadowing,Bool.true_and,Bool.or_eq_true,decide_eq_true_eq] at good ⊢
  rcases good with plain | shadow
  · rw [← plain]
    exact shadow_cleared revision
  · have bit := congrArg (fun value => value.getLsbD 31) shadow
    simp only [BitVec.getLsbD_and,BitVec.getLsbD_or,BitVec.getLsbD_not,shadow_bits ⟨31,by decide⟩] at bit
    simp at bit

theorem hbClearVmcs_unmoved (env : VmxEnv n) (cpuId : Fin n) (addr : U64) :
    Unmoved s (hbClearVmcs env cpuId s addr).2 := by
  have cleared := updateRegion_unmoved (s.record (.vmclear addr)) addr
    (show ∀ region : Region, ({ region with launched := false } : Region).revision = region.revision
      from fun _ => rfl)
  unfold hbClearVmcs
  dsimp only
  split
  · dsimp only
    split
    · exact ⟨cleared.pointer,cleared.array,cleared.revision⟩
    · exact ⟨cleared.pointer,cleared.array,cleared.revision⟩
  · exact ⟨rfl,rfl,fun _ => rfl⟩

theorem clearShadowing_pointer (stale : U64) :
    (hbVmClearVmcsShadowingToCurrent env cpuId stale s).nestedVmcsPtr = s.nestedVmcsPtr := by
  unfold hbVmClearVmcsShadowingToCurrent
  dsimp only
  split_ifs
  · rfl
  · rfl
  · exact ((hbWriteVmcs_unmoved env s cpuId vmVmcsLinkPtr noVmcs).trans (hbClearVmcs_unmoved env cpuId _)).pointer

theorem shadowStore_loadable (shadowing : env.supportVmcsShadowing = true) {link : U64}
    (aligned : pageStart link = link) (loads : loadable env cpuId (shadowStore env s link false) addr) :
    loadable env cpuId s addr := by
  rw [shadowStore_aligned aligned] at loads
  simp only [loadable,Bool.and_eq_true] at loads ⊢
  refine ⟨loads.1,?_⟩
  by_cases here : addr = link
  · subst here
    apply goodRevision_cleared shadowing
    simpa using loads.2
  · simpa [here] using loads.2

theorem clearShadowing_loadable (home : AtHome env (Plain env) (fun _ => True) cpuId s) (stale : U64)
    (loads : loadable env cpuId (hbVmClearVmcsShadowingToCurrent env cpuId stale s) addr) :
    loadable env cpuId s addr := by
  unfold hbVmClearVmcsShadowingToCurrent at loads
  rw [hbReadVmcs_link home.home,Option.getD_some] at loads
  dsimp only at loads
  split_ifs at loads with support linked
  · exact loads
  · exact loads
  · have plain := (home.placed.link cpuId).resolve_left linked
    have before := shadowStore_loadable (by simpa using support) plain.2 loads
    have unmoved := (hbWriteVmcs_unmoved env s cpuId vmVmcsLinkPtr noVmcs).trans
      (hbClearVmcs_unmoved env cpuId (s.field (env.guestVmcsPhyAddr cpuId) vmVmcsLinkPtr))
    rw [← unmoved.loadable]
    exact before

theorem enterNested_spec (home : AtHome env (Plain env) (fun _ => True) cpuId s) (stale : U64) :
    (enterNested env cpuId stale s).2.current cpuId = env.guestVmcsPhyAddr cpuId ∨
    ((enterNested env cpuId stale s).2.current cpuId = s.nestedVmcsPtr cpuId ∧
      loadable env cpuId s (s.nestedVmcsPtr cpuId)) := by
  have stable := placed_stable env (Plain env)
  have advanced := home.hbAdvanceVmGuestRip stale stable
  have cleared := advanced.hbVmClearVmcsShadowingToCurrent stale (fun _ plain => plain.1) stable
  have started := cleared.hbClearVmxInstFlags stale stable
  have first := hbAdvanceVmGuestRip_unmoved env s cpuId stale
  have last := hbWriteVmcs_unmoved env (hbVmClearVmcsShadowingToCurrent env cpuId stale
    (hbAdvanceVmGuestRip env cpuId stale s)) cpuId vmGuestRflags
  have pointer : (hbClearVmxInstFlags env cpuId stale (hbVmClearVmcsShadowingToCurrent env cpuId stale
      (hbAdvanceVmGuestRip env cpuId stale s))).nestedVmcsPtr cpuId = s.nestedVmcsPtr cpuId := by
    rw [hbClearVmxInstFlags,(last _).pointer,clearShadowing_pointer,first.pointer]
  unfold enterNested
  dsimp only
  rw [pointer]
  unfold hbLoadVmcs
  split
  next loads =>
    right
    refine ⟨by simp,?_⟩
    rw [hbClearVmxInstFlags,(last _).loadable] at loads
    rw [← first.loadable]
    exact clearShadowing_loadable advanced stale loads
  next => exact .inl started.home

theorem hbWriteVmcs_hostRsp (current : s.current cpuId ≠ noVmcs) :
    (hbWriteVmcs env cpuId s vmHostRsp (env.hostRsp cpuId)).field (s.current cpuId) vmHostRsp = env.hostRsp cpuId := by
  have core := env.core vmHostRsp (by simp [coreFields])
  rw [hbWriteVmcs,if_pos ⟨current,core⟩]
  simpa [NestedState.field] using write_hostRsp _ _

theorem hbWriteVmcs_setVmLaunch (launch : Bool) (field value : U64) :
    hbWriteVmcs env cpuId (s.setVmLaunch cpuId launch) field value =
      (hbWriteVmcs env cpuId s field value).setVmLaunch cpuId launch := by
  unfold hbWriteVmcs
  rw [NestedState.setVmLaunch_current]
  split <;> rfl

theorem dispatch_back (env : VmxEnv n) (s : NestedState n) (cpuId : Fin n) (stale : U64) {inst : VmxInst}
    (enters : isBackToVm inst) :
    (dispatch env cpuId stale s inst).current =
      (hbWriteVmcs env cpuId (enterNested env cpuId stale s).2 vmHostRsp (env.hostRsp cpuId)).current ∧
    (dispatch env cpuId stale s inst).field =
      (hbWriteVmcs env cpuId (enterNested env cpuId stale s).2 vmHostRsp (env.hostRsp cpuId)).field := by
  cases inst with
  | vmlaunch =>
    unfold dispatch handleVmlaunch
    dsimp only
    split
    next entered =>
      rw [entered,hbWriteVmcs_setVmLaunch]
      exact ⟨rfl,rfl⟩
    next entered =>
      rw [entered]
      exact ⟨rfl,rfl⟩
  | vmresume =>
    unfold dispatch handleVmresume
    dsimp only
    split <;> exact ⟨rfl,rfl⟩
  | _ => simp [isBackToVm] at enters

theorem dispatch_entry (home : AtHome env (Plain env) (fun _ => True) cpuId s) (stale : U64) {inst : VmxInst}
    (enters : isBackToVm inst) (away : (dispatch env cpuId stale s inst).current cpuId ≠ env.guestVmcsPhyAddr cpuId) :
    (dispatch env cpuId stale s inst).current cpuId = s.nestedVmcsPtr cpuId ∧
    loadable env cpuId s (s.nestedVmcsPtr cpuId) ∧
    (dispatch env cpuId stale s inst).field (s.nestedVmcsPtr cpuId) vmHostRsp = env.hostRsp cpuId := by
  obtain ⟨current,field⟩ := dispatch_back env s cpuId stale enters
  rw [hbWriteVmcs_current] at current
  rw [current] at away ⊢
  obtain ⟨nested,loads⟩ := (enterNested_spec home stale).resolve_left away
  refine ⟨nested,loads,?_⟩
  have real : (enterNested env cpuId stale s).2.current cpuId ≠ noVmcs := by
    rw [nested]
    exact plain_ne_noVmcs (home.placed.pointer cpuId)
  rw [field,← nested]
  exact hbWriteVmcs_hostRsp real

end Entry

section Main
variable {n : Nat}

def returned (env : VmxEnv n) (exit : VmxExit n) (s : NestedState n) : NestedState n :=
  hbVmExitCallback env exit (vmExit exit s)

def Enters (env : VmxEnv n) (exit : VmxExit n) (s : NestedState n) : Prop :=
  isBackToVm exit.inst ∧ s.current exit.cpuId = env.guestVmcsPhyAddr exit.cpuId ∧
    loadable env exit.cpuId s (s.nestedVmcsPtr exit.cpuId)

/-- The processor comes back to Hyper-box on the CPU's own stack. -/
def HostState (env : VmxEnv n) (cpuId : Fin n) (s : NestedState n) (region : U64) : Prop :=
  s.field region vmHostRip = env.vmExitCallbackStub ∧ s.field region vmHostCr3 = env.vmHostPhyPml4 ∧
    s.field region vmHostRsp = env.hostRsp cpuId

variable {env : VmxEnv n} {s : NestedState n} {exit : VmxExit n}

theorem returned_entry (guarded : Guarded env (Plain env) (fun _ => True) s) (back : isBackToVm exit.inst)
    (home : s.current exit.cpuId = env.guestVmcsPhyAddr exit.cpuId)
    (away : (returned env exit s).current exit.cpuId ≠ env.guestVmcsPhyAddr exit.cpuId) :
    Enters env exit s ∧ (returned env exit s).current exit.cpuId = s.nestedVmcsPtr exit.cpuId ∧
      (returned env exit s).field (s.nestedVmcsPtr exit.cpuId) vmHostRsp = env.hostRsp exit.cpuId := by
  have stable := placed_stable env (Plain env)
  have saved : AtHome env (Plain env) (fun _ => True) exit.cpuId (vmExit exit s) :=
    ⟨vmExit_guarded stable guarded exit,home⟩
  have started := saved.plainField stable 0 (show vmCtrlVmEntryInstLength ∈ plainFields by simp [plainFields])
  have unmoved := (vmExit_unmoved s exit).trans
    (hbWriteVmcs_unmoved env (vmExit exit s) exit.cpuId vmCtrlVmEntryInstLength 0)
  have here : ¬ hbStoreVmcs exit.cpuId (vmExit exit s) ≠ env.guestVmcsPhyAddr exit.cpuId := not_not.mpr home
  have result : returned env exit s = dispatch env exit.cpuId exit.stale
      (hbWriteVmcs env exit.cpuId (vmExit exit s) vmCtrlVmEntryInstLength 0) exit.inst := by
    rw [returned,hbVmExitCallback,if_neg here,skipAll]
    simp [back]
  rw [result] at away ⊢
  obtain ⟨current,loads,rsp⟩ := dispatch_entry started exit.stale back away
  rw [unmoved.loadable,unmoved.pointer] at loads
  rw [unmoved.pointer] at current rsp
  exact ⟨⟨back,home,loads⟩,current,rsp⟩

/-- If no pointer names a region of Hyper-box's own or is misaligned, and the guest hypervisor
has HOST_RIP and HOST_CR3 of every VMCS that it enters written, then the callback never
returns into a nested VMCS that would exit to anything but Hyper-box. -/
theorem nested_entry_host_state (env : VmxEnv n) {start : NestedState n} (launched : Launched env start)
    (events : List (VmxEvent n)) (named : ∀ event ∈ events, event.Names (Plain env))
    (prepared : ∀ before exit after, events = before ++ .exit exit::after →
      Enters env exit (run (vmxStep env) start before) →
      ∀ host value, HostField env host value →
        Prepared env start before ((run (vmxStep env) start before).nestedVmcsPtr exit.cpuId) host value)
    (before after : List (VmxEvent n)) (exit : VmxExit n) (split : events = before ++ .exit exit::after)
    (back : isBackToVm exit.inst)
    (home : (run (vmxStep env) start before).current exit.cpuId = env.guestVmcsPhyAddr exit.cpuId)
    (away : (returned env exit (run (vmxStep env) start before)).current exit.cpuId ≠
      env.guestVmcsPhyAddr exit.cpuId) :
    HostState env exit.cpuId (returned env exit (run (vmxStep env) start before))
      ((returned env exit (run (vmxStep env) start before)).current exit.cpuId) := by
  have placed := launched.placed (G := Plain env) plain_zero
  have earlier : ∀ event ∈ before, event.Names (Plain env) :=
    fun event member => named event (by simp [split,member])
  have reached := run_guarded (fun _ plain => plain.1) (placed_stable env (Plain env)) ⟨placed,trivial⟩
    plain_zero earlier
  obtain ⟨enters,current,rsp⟩ := returned_entry reached back home away
  have kept : ∀ host value, HostField env host value →
      (returned env exit (run (vmxStep env) start before)).field
        ((run (vmxStep env) start before).nestedVmcsPtr exit.cpuId) host = value := by
    intro host value hostField
    have stable := host_stable hostField ((run (vmxStep env) start before).nestedVmcsPtr exit.cpuId)
    have held := prepared_kept hostField placed earlier (prepared before exit after split enters host value hostField)
    have saved := vmExit_guarded stable ⟨reached.placed,held⟩ exit
    exact (hbVmExitCallback_guarded (fun _ plain => plain.1) stable saved plain_zero
      (named (.exit exit) (by simp [split]))).inv
  rw [current]
  exact ⟨kept _ _ (.inl ⟨rfl,rfl⟩),kept _ _ (.inr ⟨rfl,rfl⟩),rsp⟩

end Main
section Sample

theorem plain_sample : Plain sampleVmx 0x5000 := ⟨foreign_sample,by decide⟩

def usedLaunch : NestedState 1 :=
  { sampleLaunch with
    regions := fun addr =>
      if addr = 0x5000 then ⟨4,false,fun field => if field = vmHostCr3 then 0x3000 else 0⟩
      else sampleLaunch.regions addr }

theorem usedLaunch_launched : Launched sampleVmx usedLaunch :=
  ⟨by decide,by decide,by decide,by decide,by decide,by decide,by decide,rfl⟩

def carefulExits : List (VmxEvent 1) :=
  [sampleExit (.vmptrld 0x5000),sampleExit (.vmwrite vmHostRip 0x1111),.exit launchExit]

theorem careful_pointer :
    (run (vmxStep sampleVmx) usedLaunch (carefulExits.take 2)).nestedVmcsPtr launchExit.cpuId = 0x5000 := by
  decide +kernel

theorem careful_writes : Writes sampleVmx (run (vmxStep sampleVmx) usedLaunch (carefulExits.take 1)) 0x5000
    vmHostRip (sampleExit (.vmwrite vmHostRip 0x1111)) :=
  ⟨⟨_,rfl⟩,by decide +kernel,by decide +kernel,by decide +kernel,by decide +kernel⟩

theorem careful_prepared {host value : U64} (hostField : HostField sampleVmx host value) :
    Prepared sampleVmx usedLaunch (carefulExits.take 2)
      ((run (vmxStep sampleVmx) usedLaunch (carefulExits.take 2)).nestedVmcsPtr launchExit.cpuId) host value := by
  rw [careful_pointer]
  rcases hostField with ⟨rfl,_⟩ | ⟨rfl,rfl⟩
  · exact .inr ⟨_,_,_,rfl,careful_writes⟩
  · exact .inl (by decide)

theorem careful_split {before after : List (VmxEvent 1)} {exit : VmxExit 1}
    (split : carefulExits = before ++ .exit exit::after) (back : isBackToVm exit.inst) :
    before = carefulExits.take 2 ∧ exit = launchExit := by
  rcases before with _ | ⟨e1,_ | ⟨e2,_ | ⟨e3,rest⟩⟩⟩ <;>
    simp only [carefulExits,sampleExit,List.nil_append,List.cons_append,List.cons.injEq,VmxEvent.exit.injEq] at split
  · obtain ⟨rfl,_⟩ := split
    exact absurd back (by decide)
  · obtain ⟨_,rfl,_⟩ := split
    exact absurd back (by decide)
  · obtain ⟨rfl,rfl,rfl,_⟩ := split
    exact ⟨rfl,rfl⟩
  · simp at split

theorem nested_entry_host_state_sample :
    HostState sampleVmx launchExit.cpuId
      (returned sampleVmx launchExit (run (vmxStep sampleVmx) usedLaunch (carefulExits.take 2)))
      ((returned sampleVmx launchExit
        (run (vmxStep sampleVmx) usedLaunch (carefulExits.take 2))).current launchExit.cpuId) := by
  refine nested_entry_host_state sampleVmx usedLaunch_launched carefulExits ?_ ?_ (carefulExits.take 2) []
    launchExit rfl rfl (by decide +kernel) (by decide +kernel)
  · exact List.forall_mem_cons.mpr ⟨plain_sample,by simp [sampleExit,launchExit,VmxEvent.Names,VmxInst.Names]⟩
  · intro before exit after split enters host value hostField
    obtain ⟨rfl,rfl⟩ := careful_split split enters.1
    exact careful_prepared hostField

/-- A guest hypervisor that enters a VMCS with the host state it found there makes the next
exit run code of its own in root mode. -/
theorem nested_entry_untouched_host :
    (run (vmxStep sampleVmx) sampleLaunch [sampleExit (.vmptrld 0x5000)]).current 0 = 0x2000 ∧
    (returned sampleVmx launchExit
      (run (vmxStep sampleVmx) sampleLaunch [sampleExit (.vmptrld 0x5000)])).current 0 = 0x5000 ∧
    ¬ HostState sampleVmx 0 (returned sampleVmx launchExit
      (run (vmxStep sampleVmx) sampleLaunch [sampleExit (.vmptrld 0x5000)])) 0x5000 := by
  refine ⟨by decide +kernel,by decide +kernel,?_⟩
  rintro ⟨rip,_⟩
  exact absurd rip (by decide +kernel)

end Sample
end HyperBox.Nested
