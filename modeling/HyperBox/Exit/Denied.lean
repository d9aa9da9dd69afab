import HyperBox.Exit.Store
import HyperBox.Ept.Violation
import HyperBox.PageTable.Isolation

/-! The stores of the exit handlers against the extended page table. A handler stores through
the host page table, and nothing asks the extended page table whether the guest may write the
page that its operand reaches there. Which page that is follows from the tables before the exit. -/
namespace HyperBox.Exit
open HyperBox.Library HyperBox.PageTable HyperBox.Ept

/-- The pages of the host page table and of the extended one. The allocator returns no page for
both, and all of them lie in the 48 bits that the extended page table translates. -/
structure RootSystem (ramEnd : Nat) extends RootEnv where
  ept : EptPages (hbAllocEptPages (maxRamSize ramEnd))
  apart : ∀ t, Allocated ept t → ¬ toHostPages.Owned t
  low : ∀ t, toHostPages.Owned t ∨ Allocated ept t → t < 2^36

section Operand
variable (env : RootEnv) (data : ExitData) (guest : GuestState) (s : HostTables)

/-- The bytes that `hb_set_value_to_memory` stores. -/
def valueSize (instInfo : U64) : Nat :=
  match vmInstInfoAddrSize instInfo with
  | 0 => 2
  | 1 => 4
  | 2 => 8
  | _ => 0

/-- The handler calls `hb_sync_page_table`. -/
def StoreExit.syncs : StoreExit → Bool
  | gdtrIdtr => !data.systemShutdowning
  | ldtrTr => !vmInstInfoMemReg data.instInfo
  | vmread _ => false

/-- The size of the memory operand that is stored to: none for LGDT, LIDT, LLDT, LTR and registers. -/
def StoreExit.operandSize : StoreExit → Nat
  | gdtrIdtr => if !data.systemShutdowning && vmInstInfoInstIdentity data.instInfo < 2 then 10 else 0
  | ldtrTr =>
    if !vmInstInfoMemReg data.instInfo && vmInstInfoInstIdentity data.instInfo < 2 then valueSize data.instInfo else 0
  | vmread nestedVmread =>
    if !vmInstInfoMemReg data.instInfo &&
        (nestedVmread (hbGetRegValueFromIndex guest.registers (vmInstInfoReg2 data.instInfo))).isSome then
      valueSize data.instInfo
    else 0

/-- The page that root mode reaches with a store to `v`: through the entries that the call of
`hb_sync_page_table` leaves for it, or through those that the host has. -/
def StoreExit.operandPage (exit : StoreExit) (v : U64) : Option Nat :=
  let entries := if exit.syncs data then callEntries env.toSyncEnv s (destAddrOf data guest) data.guestCr3 true v
    else trace tableLink s.mem env.root (indexes v)
  let leaf := if canonical v then decodeAccess v 3 entries else none
  (leaf.filter (ArchLeaf.stores env.hostCr4)).map ArchLeaf.frame

end Operand

section Denied
variable {ramEnd : Nat} (system : RootSystem ramEnd)

def EptDenies (mem : Mem) (page : Nat) : Prop :=
  page < 2^36 ∧ ∃ leaf, (eptTranslate system.ept mem (page * 4096)).2 = some leaf ∧ leaf.rights.write = false

def Handled.KeepsDenied (handled : Handled) : Prop :=
  ∀ page, EptDenies system handled.tables.mem page →
    (hostStores system.control handled.tables.mem handled.stores).2 page = handled.tables.mem page

/-- No byte of the operand is reached in a page that the guest may not write. The tables that
the guest offers for it do not lead through Hyper-box's own. -/
def StoreExit.Spares (data : ExitData) (guest : GuestState) (s : HostTables) (exit : StoreExit) : Prop :=
  (0 < exit.operandSize data guest → exit.syncs data = true →
    GuestOutside system.toSyncEnv s (destAddrOf data guest) data.guestCr3) ∧
  ∀ k < exit.operandSize data guest, ∀ page,
    exit.operandPage system.toRootEnv data guest s (destAddrOf data guest + BitVec.ofNat 64 k) = some page →
      ¬ EptDenies system s.mem page

end Denied

section Walk
variable {env : RootEnv} {s : HostTables}

theorem host_walk (physical : ∀ t, env.Owned t → t < physicalPages) (inv : HostInv env.toHostPages s) (v : U64) :
    hostWalk s.mem env.control v =
      if canonical v then decodeAccess v 3 (trace tableLink s.mem env.root (indexes v)) else none := by
  have within : PathWithin tableLink s.mem env.root (indexes v) (fun t => t < physicalPages) := by
    intro r i rest split t at_r
    have used : PathWithin tableLink s.mem env.root (indexes v) (Used env.toHostPages s) :=
      .of_tables inv.inside (Nat.le_refl _)
    exact physical t (used r i rest split t at_r).owned
  unfold hostWalk
  exact congrArg (fun leaf => if canonical v then leaf else none) (archWalk_trace (indexes v) env.root within)

theorem storePage_kept (physical : ∀ t, env.Owned t → t < physicalPages) (inv : HostInv env.toHostPages s) {mem : Mem}
    (same : ∀ t, env.Owned t → mem t = s.mem t) (v : U64) :
    storePage mem env.control v = storePage s.mem env.control v := by
  have walks : trace tableLink mem env.root (indexes v) = trace tableLink s.mem env.root (indexes v) :=
    (inv.inside.agree (fun t used => same t used.owned) (indexes v) (Nat.le_refl _)).1
  have kept : HostInv env.toHostPages { s with mem := mem } := inv.congr (fun t used => same t used.owned)
  have after := @host_walk env { s with mem := mem } physical kept v
  rw [storePage,storePage,host_walk physical inv]
  dsimp only at after
  rw [after,walks]

variable {host : HostControl} {mem : Mem}

theorem storePlaces_pages {addr : U64} {bytes : List (BitVec 8)} {places : List (ByteLoc 512 × BitVec 8)}
    (stored : storePlaces host mem addr bytes = some places) :
    ∀ place ∈ places, ∃ k < bytes.length, storePage mem host (addr + BitVec.ofNat 64 k) = some place.1.page := by
  induction bytes generalizing addr places with
  | nil =>
    obtain rfl := Option.some.inj stored
    exact fun _ member => absurd member List.not_mem_nil
  | cons byte rest ih =>
    simp only [storePlaces,Option.bind_eq_bind,Option.bind_eq_some_iff,Option.pure_def,Option.some.injEq] at stored
    obtain ⟨loc,here,later,above,rfl⟩ := stored
    intro place member
    rcases List.mem_cons.mp member with rfl | after
    · obtain ⟨page,found,rfl⟩ := Option.map_eq_some_iff.mp here
      exact ⟨0,by simp,by simpa [byteLoc] using found⟩
    · obtain ⟨k,small,found⟩ := ih above place after
      refine ⟨k+1,by simpa using small,?_⟩
      rwa [Nat.add_comm k,BitVec.ofNat_add,← BitVec.add_assoc]

theorem storePlaces_some {addr : U64} {bytes : List (BitVec 8)}
    (mapped : ∀ k < bytes.length, ∃ loc, storeLoc mem host (addr + BitVec.ofNat 64 k) = some loc) :
    ∃ places, storePlaces host mem addr bytes = some places := by
  induction bytes generalizing addr with
  | nil => exact ⟨[],rfl⟩
  | cons byte rest ih =>
    obtain ⟨loc,here⟩ := mapped 0 (by simp)
    have first : storeLoc mem host addr = some loc := by simpa using here
    have shifted : ∀ k < rest.length, ∃ loc, storeLoc mem host (addr + 1#64 + BitVec.ofNat 64 k) = some loc := by
      intro k bound
      have next := mapped (k+1) (by simpa using bound)
      rwa [Nat.add_comm,BitVec.ofNat_add,← BitVec.add_assoc] at next
    obtain ⟨later,above⟩ := ih shifted
    exact ⟨(loc,byte)::later,by simp [storePlaces,first,above]⟩

theorem hostStores_first {addr : U64} {byte : BitVec 8} {bytes : List (BitVec 8)} {loc : ByteLoc 512}
    (mapped : ∀ k < (byte::bytes).length, ∃ loc, storeLoc mem host (addr + BitVec.ofNat 64 k) = some loc)
    (here : storeLoc mem host addr = some loc) :
    (loc,byte) ∈ (hostStores host mem [⟨addr,byte::bytes⟩]).1 := by
  obtain ⟨places,stored⟩ := storePlaces_some mapped
  rw [hostStores,stored]
  simp only [storePlaces,here,Option.bind_eq_bind,Option.bind_some,Option.bind_eq_some_iff,Option.pure_def,
    Option.some.injEq] at stored
  obtain ⟨later,_,rfl⟩ := stored
  simp

/-- Stores none of which reaches a page of the set leave it as it is, if the walks depend on no
page outside the set. -/
theorem hostStores_avoids {D : Nat → Prop}
    (walks : ∀ mem', (∀ t, D t → mem' t = mem t) → ∀ v, storePage mem' host v = storePage mem host v) :
    ∀ (stores : List HostStore) (mem' : Mem), (∀ t, D t → mem' t = mem t) →
      (∀ store ∈ stores, ∀ k < store.bytes.length, ∀ page,
        storePage mem host (store.addr + BitVec.ofNat 64 k) = some page → ¬ D page) →
      ∀ t, D t → (hostStores host mem' stores).2 t = mem t := by
  intro stores
  induction stores with
  | nil => exact fun mem' same _ => same
  | cons store rest ih =>
    intro mem' same spared
    obtain ⟨here,later⟩ := List.forall_mem_cons.mp spared
    unfold hostStores
    split
    · exact same
    next places stored =>
      refine ih _ ?_ later
      intro t inside
      refine (storeBytes_page ?_).trans (same t inside)
      intro place member hit
      obtain ⟨k,small,found⟩ := storePlaces_pages stored place member
      rw [walks mem' same] at found
      exact here k small _ found (hit ▸ inside)

end Walk

section Handle
variable {env : RootEnv} {data : ExitData} {guest : GuestState} {s : HostTables}

theorem ldtrTrInst_tables (memory : Bool) (destAddr : U64) : (ldtrTrInst env data guest s memory destAddr).tables = s := by
  unfold ldtrTrInst deliver
  dsimp only
  repeat' split
  all_goals rfl

/-- The tables that the handler stores through. -/
theorem handle_tables (exit : StoreExit) : (exit.handle env data guest s).tables =
    if exit.syncs data then callTables (hbSyncPageTable env.toSyncEnv s (destAddrOf data guest) data.guestCr3 true)
    else s := by
  cases exit with
  | gdtrIdtr =>
    have address : destAddrOf data (hbAdvanceVmGuestRip data guest) = destAddrOf data guest := rfl
    unfold StoreExit.handle hbVmExitCallbackGdtrIdtr StoreExit.syncs
    dsimp only
    rw [address]
    cases data.systemShutdowning with
    | true => rfl
    | false =>
      cases hbSyncPageTable env.toSyncEnv s (destAddrOf data guest) data.guestCr3 true with
      | error s' => rfl
      | ok result =>
        simp only [Bool.false_eq_true,if_false,Bool.not_false,if_true,callTables]
        repeat' split
        all_goals rfl
  | ldtrTr =>
    unfold StoreExit.handle hbVmExitCallbackLdtrTr StoreExit.syncs
    dsimp only
    cases vmInstInfoMemReg data.instInfo with
    | true => exact ldtrTrInst_tables _ _
    | false =>
      cases hbSyncPageTable env.toSyncEnv s (destAddrOf data guest) data.guestCr3 true with
      | error s' => rfl
      | ok result => exact ldtrTrInst_tables _ _
  | vmread nestedVmread =>
    unfold StoreExit.handle hbVmExitCallbackVmread deliver StoreExit.syncs
    dsimp only
    repeat' split
    all_goals first | rfl | contradiction

/-- The store lies in the operand. -/
def Within (addr : U64) (size : Nat) (store : HostStore) : Prop :=
  ∀ k < store.bytes.length, ∃ j < size, store.addr + BitVec.ofNat 64 k = addr + BitVec.ofNat 64 j

theorem setValue_within (instInfo addr value : U64) :
    ∀ store ∈ hbSetValueToMemory instInfo addr value, Within addr (valueSize instInfo) store := by
  have single : ∀ count, ∀ store ∈ [(⟨addr,littleEndian count value⟩ : HostStore)], Within addr count store := by
    intro count store member k small
    obtain rfl := List.mem_singleton.mp member
    exact ⟨k,by simpa [littleEndian_length] using small,rfl⟩
  unfold hbSetValueToMemory valueSize
  split
  next size => simpa only [size] using single 2
  next size => simpa only [size] using single 4
  next size => simpa only [size] using single 8
  next => exact fun _ member => absurd member List.not_mem_nil

theorem descStores_within (addr address size : U64) : ∀ store ∈ descStores addr address size, Within addr 10 store := by
  intro store member k small
  simp only [descStores,List.mem_cons,List.not_mem_nil,or_false] at member
  rcases member with rfl | rfl
  · rw [littleEndian_length] at small
    refine ⟨2 + k,by omega,?_⟩
    rw [BitVec.ofNat_add,← BitVec.add_assoc]
    rfl
  · rw [littleEndian_length] at small
    exact ⟨k,by omega,rfl⟩

theorem nil_within (addr : U64) (size : Nat) : ∀ store ∈ ([] : List HostStore), Within addr size store :=
  fun _ member => absurd member List.not_mem_nil

theorem deliver_within (destAddr value : U64) : ∀ store ∈ (deliver data guest s true destAddr value).stores,
    Within destAddr (valueSize data.instInfo) store := setValue_within _ _ _

theorem gdtrIdtr_within : ∀ store ∈ (StoreExit.gdtrIdtr.handle env data guest s).stores,
    Within (destAddrOf data guest) (StoreExit.gdtrIdtr.operandSize data guest) store := by
  have address : destAddrOf data (hbAdvanceVmGuestRip data guest) = destAddrOf data guest := rfl
  unfold StoreExit.handle hbVmExitCallbackGdtrIdtr StoreExit.operandSize
  dsimp only
  rw [address]
  cases data.systemShutdowning with
  | true => exact nil_within _ _
  | false =>
    simp only [Bool.false_eq_true,if_false]
    cases hbSyncPageTable env.toSyncEnv s (destAddrOf data guest) data.guestCr3 true with
    | error s' => exact nil_within _ _
    | ok result =>
      dsimp only
      split
      next sgdt => simpa [sgdt] using descStores_within _ _ _
      next sidt => simpa [sidt] using descStores_within _ _ _
      next => split <;> exact nil_within _ _
      next => split <;> exact nil_within _ _

theorem ldtrTr_within : ∀ store ∈ (StoreExit.ldtrTr.handle env data guest s).stores,
    Within (destAddrOf data guest) (StoreExit.ldtrTr.operandSize data guest) store := by
  unfold StoreExit.handle hbVmExitCallbackLdtrTr StoreExit.operandSize
  dsimp only
  cases vmInstInfoMemReg data.instInfo with
  | true =>
    simp only [if_true,ldtrTrInst,deliver]
    split <;> exact nil_within _ _
  | false =>
    simp only [Bool.false_eq_true,if_false]
    cases hbSyncPageTable env.toSyncEnv s (destAddrOf data guest) data.guestCr3 true with
    | error s' => exact nil_within _ _
    | ok result =>
      simp only [ldtrTrInst]
      split
      next sldt => simpa [sldt] using deliver_within _ _
      next str => simpa [str] using deliver_within _ _
      next => exact nil_within _ _
      next => exact nil_within _ _

theorem vmread_within (nestedVmread : U64 → Option U64) :
    ∀ store ∈ ((StoreExit.vmread nestedVmread).handle env data guest s).stores,
      Within (destAddrOf data guest) ((StoreExit.vmread nestedVmread).operandSize data guest) store := by
  unfold StoreExit.handle hbVmExitCallbackVmread StoreExit.operandSize
  dsimp only
  cases nestedVmread (hbGetRegValueFromIndex guest.registers (vmInstInfoReg2 data.instInfo)) with
  | none => exact nil_within _ _
  | some value =>
    cases vmInstInfoMemReg data.instInfo with
    | true =>
      simp only [Bool.true_and,decide_eq_true_eq,Bool.not_true,deliver,Bool.false_eq_true,if_false]
      split <;> exact nil_within _ _
    | false => exact deliver_within _ _

theorem handle_within (exit : StoreExit) : ∀ store ∈ (exit.handle env data guest s).stores,
    Within (destAddrOf data guest) (exit.operandSize data guest) store := by
  cases exit with
  | gdtrIdtr => exact gdtrIdtr_within
  | ldtrTr => exact ldtrTr_within
  | vmread nestedVmread => exact vmread_within nestedVmread

/-- A handler whose call of `hb_sync_page_table` does not return stores nothing. -/
theorem handle_faulted (exit : StoreExit) (syncs : exit.syncs data = true) {s' : HostTables}
    (failed : hbSyncPageTable env.toSyncEnv s (destAddrOf data guest) data.guestCr3 true = .error s') :
    (exit.handle env data guest s).stores = [] := by
  cases exit with
  | gdtrIdtr =>
    have running : data.systemShutdowning = false := by simpa [StoreExit.syncs] using syncs
    have address : destAddrOf data (hbAdvanceVmGuestRip data guest) = destAddrOf data guest := rfl
    simp [StoreExit.handle,hbVmExitCallbackGdtrIdtr,running,address,failed]
  | ldtrTr =>
    have memory : vmInstInfoMemReg data.instInfo = false := by simpa [StoreExit.syncs] using syncs
    simp [StoreExit.handle,hbVmExitCallbackLdtrTr,memory,failed]
  | vmread nestedVmread => cases syncs

end Handle

section Run

/-- The tables together with the setter calls that Hyper-box has made so far. -/
structure StoreState where
  tables : HostTables
  calls : List (Setter × U64)

inductive StoreEvent where
  | guestStore (page : Nat) (slot : Fin 512) (value : U64)
  | setterCall (setter : Setter) (phyAddr : U64)
  | handlerExit (data : ExitData) (guest : GuestState) (exit : StoreExit)

section Step
variable {ramEnd : Nat} (system : RootSystem ramEnd)

def eptLets (mem : Mem) (page : Nat) : Bool :=
  match (eptTranslate system.ept mem (page * 4096)).2 with
  | some leaf => page < 2^36 && leaf.rights.write
  | none => false

/-- The extended page table stops the stores of the guest itself. -/
def storeStep (s : StoreState) : StoreEvent → StoreState
  | .guestStore page slot value =>
    if eptLets system s.tables.mem page then
      { s with tables := { s.tables with mem := s.tables.mem.write page slot value } }
    else s
  | .setterCall setter phyAddr =>
    { tables := { s.tables with mem := Setter.apply system.ept s.tables.mem (setter,phyAddr) }
      calls := s.calls ++ [(setter,phyAddr)] }
  | .handlerExit data guest exit =>
    let handled := exit.handle system.toRootEnv data guest s.tables
    { s with tables :=
        { handled.tables with mem := (hostStores system.control handled.tables.mem handled.stores).2 } }

namespace StoreEvent

def KeepsDenied (s : StoreState) : StoreEvent → Prop
  | handlerExit data guest exit => (exit.handle system.toRootEnv data guest s.tables).KeepsDenied system
  | _ => True

def Spares (s : StoreState) : StoreEvent → Prop
  | handlerExit data guest exit => exit.Spares system data guest s.tables
  | _ => True

/-- Hyper-box never lets the guest write its own page tables. -/
def Protects : StoreEvent → Prop
  | setterCall setter phyAddr => phyAddr.toNat < maxRamSize ramEnd ∧
      (system.toHostPages.Owned (pageOffset phyAddr) ∨ Allocated system.ept (pageOffset phyAddr) →
        setter.rights.write = false)
  | _ => True

end StoreEvent

/-- The host page table is a tree of Hyper-box's own pages, the extended one holds what the setter
calls made it, and it lets the guest write neither of them. -/
structure Guarded (s : StoreState) : Prop where
  host : HostInv system.toHostPages s.tables
  ept : EptTables system.ept (fun page => (setterAfter s.calls page).flags) s.tables.mem
  below : ∀ call ∈ s.calls, call.2.toNat < maxRamSize ramEnd
  own : ∀ t, system.toHostPages.Owned t ∨ Allocated system.ept t → (rightsAfter s.calls t).write = false

end Step

section Guarded
variable {ramEnd : Nat} {system : RootSystem ramEnd} {s : StoreState}

theorem physical (t : Nat) (owned : system.toHostPages.Owned t) : t < physicalPages :=
  Nat.lt_trans (system.low t (.inl owned)) (by decide)

theorem denies_iff {calls : List (Setter × U64)} {mem : Mem}
    (tables : EptTables system.ept (fun page => (setterAfter calls page).flags) mem)
    (below : ∀ call ∈ calls, call.2.toNat < maxRamSize ramEnd) (t : Nat) :
    EptDenies system mem t ↔ t < 2^36 ∧ (rightsAfter calls t).write = false := by
  refine and_congr_right (fun low => ?_)
  have page : t * 4096 / 4096 = t := Nat.mul_div_cancel t (by decide)
  rw [setter_translate system.ept tables below (by omega),page]
  simp

theorem eptLets_iff {calls : List (Setter × U64)} {mem : Mem}
    (tables : EptTables system.ept (fun page => (setterAfter calls page).flags) mem)
    (below : ∀ call ∈ calls, call.2.toNat < maxRamSize ramEnd) (t : Nat) :
    eptLets system mem t = true ↔ t < 2^36 ∧ (rightsAfter calls t).write = true := by
  by_cases low : t < 2^36
  · have page : t * 4096 / 4096 = t := Nat.mul_div_cancel t (by decide)
    rw [eptLets,setter_translate system.ept tables below (by omega),page]
    simp
  · refine iff_of_false (fun lets => ?_) (fun both => low both.1)
    unfold eptLets at lets
    split at lets
    · exact low (by simpa using (Bool.and_eq_true_iff.mp lets).1)
    · cases lets

namespace Guarded
variable (guarded : Guarded system s)
include guarded

theorem denies {t : Nat} (own : system.toHostPages.Owned t ∨ Allocated system.ept t) :
    EptDenies system s.tables.mem t :=
  (denies_iff guarded.ept guarded.below t).mpr ⟨system.low t own,guarded.own t own⟩

/-- A change of memory outside the page tables. -/
theorem agree {mem : Mem}
    (same : ∀ t, system.toHostPages.Owned t ∨ Allocated system.ept t → mem t = s.tables.mem t) :
    Guarded system { s with tables := { s.tables with mem := mem } } where
  host := guarded.host.congr (fun t used => same t (.inl used.owned))
  ept := guarded.ept.agree Nat.one_pos (fun t allocated => same t (.inr allocated))
  below := guarded.below
  own := guarded.own

theorem guest (page : Nat) (slot : Fin 512) (value : U64) : Guarded system (storeStep system s (.guestStore page slot value)) := by
  dsimp only [storeStep]
  split
  next lets =>
    obtain ⟨_,writable⟩ := (eptLets_iff guarded.ept guarded.below page).mp lets
    refine guarded.agree (fun t own => s.tables.mem.write_page_ne slot value ?_)
    rintro rfl
    exact absurd (guarded.own t own) (by simp [writable])
  next => exact guarded

theorem setter {setter : Setter} {phyAddr : U64} (protects : (StoreEvent.setterCall setter phyAddr).Protects system) :
    Guarded system (storeStep system s (.setterCall setter phyAddr)) where
  host := by
    refine guarded.host.congr (fun t used => funext fun i => ?_)
    apply Setter.apply_elsewhere
    rintro ⟨rfl,-⟩
    exact system.apart _ (pteTable_allocated (page_inside protects.1)) used.owned
  ept := by
    have after := @run_tables _ system.ept _ s.calls guarded.ept [(setter,phyAddr)] (by simpa using protects.1)
    exact after
  below := by
    intro call member
    rcases List.mem_append.mp member with old | new
    · exact guarded.below call old
    · obtain rfl := List.mem_singleton.mp new
      exact protects.1
  own := by
    intro t own
    have before := guarded.own t own
    rw [rightsAfter_eq] at before ⊢
    dsimp only [storeStep]
    rw [setterAfter_append]
    by_cases here : t = pageOffset phyAddr
    · subst here
      rw [Function.update_self]
      exact protects.2 own
    · rwa [Function.update_of_ne here]

/-- The handler's own changes of the tables. -/
theorem called (data : ExitData) (guest : GuestState) (exit : StoreExit) :
    Guarded system { s with tables := (exit.handle system.toRootEnv data guest s.tables).tables } := by
  rw [handle_tables]
  split
  next =>
    have keeps := hbSyncPageTable_keeps guarded.host (destAddrOf data guest) data.guestCr3 true
    exact ⟨keeps.inv,guarded.ept.agree Nat.one_pos (fun t allocated => keeps.outside t (system.apart t allocated)),
      guarded.below,guarded.own⟩
  next => exact guarded

variable {data : ExitData} {guest : GuestState} {exit : StoreExit}

theorem reached (spares : exit.Spares system data guest s.tables) (stores : 0 < exit.operandSize data guest)
    (returns : exit.syncs data = true → ∀ s', hbSyncPageTable system.toSyncEnv s.tables (destAddrOf data guest)
      data.guestCr3 true ≠ .error s') (v : U64) :
    storePage (exit.handle system.toRootEnv data guest s.tables).tables.mem system.control v =
      exit.operandPage system.toRootEnv data guest s.tables v := by
  have after := (guarded.called data guest exit).host
  rw [storePage,host_walk physical after,StoreExit.operandPage,handle_tables]
  cases syncs : exit.syncs data with
  | false => rfl
  | true =>
    cases called : hbSyncPageTable system.toSyncEnv s.tables (destAddrOf data guest) data.guestCr3 true with
    | error s' => exact absurd called (returns syncs s')
    | ok result =>
      obtain ⟨s',expandValue⟩ := result
      have entries := hbSyncPageTable_access guarded.host (spares.1 stores syncs) called v
      simp only [if_true,callTables]
      rw [entries]
      rfl

/-- A handler whose operand is spared leaves every denied page as it was before the exit. -/
theorem spared (spares : exit.Spares system data guest s.tables) (t : Nat) (denied : EptDenies system s.tables.mem t) :
    (hostStores system.control (exit.handle system.toRootEnv data guest s.tables).tables.mem
      (exit.handle system.toRootEnv data guest s.tables).stores).2 t =
        (exit.handle system.toRootEnv data guest s.tables).tables.mem t := by
  have after := guarded.called data guest exit
  have within := @handle_within system.toRootEnv data guest s.tables exit
  refine hostStores_avoids (D := EptDenies system s.tables.mem) ?_ _ _ (fun _ _ => rfl) ?_ t denied
  · intro mem same v
    exact storePage_kept physical after.host (fun t owned => same t (guarded.denies (.inl owned))) v
  · intro store member k small page found
    obtain ⟨j,inside,place⟩ := within store member k small
    have returns : exit.syncs data = true → ∀ s', hbSyncPageTable system.toSyncEnv s.tables (destAddrOf data guest)
        data.guestCr3 true ≠ .error s' := by
      intro syncs s' failed
      rw [handle_faulted exit syncs failed] at member
      cases member
    rw [place,guarded.reached spares (Nat.zero_lt_of_lt inside) returns] at found
    exact spares.2 j inside page found

theorem denies_called (t : Nat) :
    EptDenies system (exit.handle system.toRootEnv data guest s.tables).tables.mem t ↔ EptDenies system s.tables.mem t := by
  have after := guarded.called data guest exit
  rw [denies_iff guarded.ept guarded.below,denies_iff after.ept after.below]

theorem step {event : StoreEvent} (protects : event.Protects system) (spares : event.Spares system s) :
    Guarded system (storeStep system s event) := by
  cases event with
  | guestStore page slot value => exact guarded.guest page slot value
  | setterCall setter phyAddr => exact guarded.setter protects
  | handlerExit data guest exit =>
    have after := guarded.called data guest exit
    refine after.agree (fun t own => ?_)
    exact guarded.spared spares t (guarded.denies own)

theorem keeps {event : StoreEvent} (spares : event.Spares system s) : event.KeepsDenied system s := by
  cases event with
  | guestStore page slot value => trivial
  | setterCall setter phyAddr => trivial
  | handlerExit data guest exit =>
    intro t denied
    exact guarded.spared spares t ((guarded.denies_called t).mp denied)

end Guarded

end Guarded
end Run

section Sample

theorem maxRamSize_sample : maxRamSize (2^42) = 2^42 + 2^30 := by decide

def deniedFrame (type : EptType) (j : Nat) : Nat :=
  match type with
  | .pml4 => 0x20000000 + j
  | .pdptePd => 0x20001000 + j
  | .pdept => 0x20010000 + j
  | .pte => 0x21000000 + j

def deniedPages : EptPages (hbAllocEptPages (maxRamSize (2^42))) where
  frame := deniedFrame
  bound := fun type j within => by
    cases type <;>
      simp only [deniedFrame,EptInfo.pageCount,hbAllocEptPages,ceil,maxRamSize_sample] at within ⊢ <;> omega
  distinct := fun type type' j j' within within' same => by
    cases type <;> cases type' <;>
      simp only [EptInfo.pageCount,hbAllocEptPages,ceil,maxRamSize_sample] at within within' <;>
      simp [deniedFrame] at same ⊢ <;> omega

theorem allocated_between {t : Nat} (allocated : Allocated deniedPages t) : 0x20000000 ≤ t ∧ t < 0x30000000 := by
  obtain ⟨type,j,within,rfl⟩ := allocated
  cases type <;>
    simp only [EptInfo.pageCount,hbAllocEptPages,ceil,maxRamSize_sample] at within <;>
    simp only [deniedPages,deniedFrame] <;> omega

theorem owned_low {t : Nat} (owned : sampleEnv.Owned t) : t < 0x20000000 := by
  obtain ⟨x,within,rfl⟩ := owned
  have page : pageOf (sampleEnv.page x) = samplePage x :=
    pageOf_frame (Nat.lt_trans (samplePage_bound within).2 (by decide))
  have limit : copyLimit 3 = 134480384 := by decide
  have inside : x.Within (copyLimit 3) 3 := within
  rw [page]
  cases x with
  | pml4 | pml4Next => decide
  | pool k | kernel k =>
    simp only [samplePage,PageSource.Within] at inside ⊢
    omega

def sampleSystem : RootSystem (2^42) where
  toRootEnv := sampleRoot
  ept := deniedPages
  apart := fun _ allocated owned => by
    have high := (allocated_between allocated).1
    have low := owned_low owned
    omega
  low := fun _ own => by
    rcases own with owned | allocated
    · have low := owned_low owned
      omega
    · have low := (allocated_between allocated).2
      omega

/-- Every page below the end of the tables is hidden, but one. -/
def sampleCalls (spared : Nat) : List (Setter × U64) :=
  ((List.range 0x30000000).filter (fun k => k ≠ spared)).map (fun k => (.hide,frame k))

section Calls
variable {spared : Nat}

theorem mem_sampleCalls {call : Setter × U64} (member : call ∈ sampleCalls spared) :
    ∃ k < 0x30000000, k ≠ spared ∧ call = (.hide,frame k) := by
  obtain ⟨k,inside,rfl⟩ := List.mem_map.mp member
  obtain ⟨range,other⟩ := List.mem_filter.mp inside
  exact ⟨k,List.mem_range.mp range,by simpa using other,rfl⟩

theorem pageOffset_frame {k : Nat} (bound : k < 0x30000000) : pageOffset (frame k) = k :=
  pageOf_frame (Nat.lt_trans bound (by decide))

theorem sampleCalls_below : ∀ call ∈ sampleCalls spared, call.2.toNat < maxRamSize (2^42) := by
  intro call member
  obtain ⟨k,bound,_,rfl⟩ := mem_sampleCalls member
  rw [maxRamSize_sample,frame,BitVec.toNat_ofNat]
  omega

theorem sampleCalls_hidden {t : Nat} (bound : t < 0x30000000) (other : t ≠ spared) :
    (rightsAfter (sampleCalls spared) t).write = false := by
  have inside : t ∈ (List.range 0x30000000).filter (fun k => k ≠ spared) :=
    List.mem_filter.mpr ⟨List.mem_range.mpr bound,by simpa using other⟩
  have touched : ∃ call ∈ sampleCalls spared, pageOffset call.2 = t :=
    ⟨_,List.mem_map_of_mem inside,pageOffset_frame bound⟩
  rw [rightsAfter_hidden ?_ touched]
  · rfl
  · intro call member
    obtain ⟨k,_,_,rfl⟩ := mem_sampleCalls member
    rfl

theorem sampleCalls_spared : rightsAfter (sampleCalls spared) spared = .all := by
  apply rightsAfter_untouched
  intro call member same
  obtain ⟨k,bound,other,rfl⟩ := mem_sampleCalls member
  exact other ((pageOffset_frame bound).symm.trans same)

end Calls

/-- The calls leave one page to the guest and hide all others below the end of the tables. -/
structure SparesOnly (calls : List (Setter × U64)) (spared : Nat) : Prop where
  below : ∀ call ∈ calls, call.2.toNat < maxRamSize (2^42)
  hidden : ∀ t < 0x30000000, t ≠ spared → (rightsAfter calls t).write = false
  lets : rightsAfter calls spared = .all

theorem exists_sparesOnly (spared : Nat) : ∃ calls, SparesOnly calls spared :=
  ⟨sampleCalls spared,sampleCalls_below,fun _ bound other => sampleCalls_hidden bound other,sampleCalls_spared⟩

/-- The sampled tables under the extended page table that the calls make. -/
def underEpt (calls : List (Setter × U64)) (s : HostTables) : StoreState where
  tables := { s with mem := eptAfter deniedPages s.mem none calls }
  calls := calls

section Sparing
variable {calls : List (Setter × U64)} {spared : Nat} {s : HostTables} (spares : SparesOnly calls spared)
include spares

theorem underEpt_same {t : Nat} (low : t < 0x20000000) : (underEpt calls s).tables.mem t = s.mem t :=
  eptAfter_elsewhere deniedPages s.mem calls spares.below
    (fun allocated => absurd (allocated_between allocated).1 (Nat.not_le_of_lt low))

theorem underEpt_guarded (reached : HostSynced sampleEnv s) (foreign : ¬ sampleEnv.Owned spared)
    (low : spared < 0x20000000) : Guarded sampleSystem (underEpt calls s) where
  host := reached.inv.1.congr (fun t used => underEpt_same spares (owned_low used.owned))
  ept := eptAfter_tables deniedPages s.mem (show Clipped (maxRamSize (2^42)) none by simp [Clipped]) calls spares.below
  below := spares.below
  own := fun t own => by
    rcases own with owned | allocated
    · exact spares.hidden t (Nat.lt_trans (owned_low owned) (by decide)) (fun same => foreign (same ▸ owned))
    · have between := allocated_between allocated
      exact spares.hidden t between.2 (by omega)

/-- The walk of the processor for the module's page, the same for all bytes of the operand. -/
theorem underEpt_walk (sampled : Sampled s) (reached : HostSynced sampleEnv s) {v : U64}
    (path : indexes v = indexes sampleOwn) :
    decodeAccess v 3 (trace tableLink (underEpt calls s).tables.mem sampleEnv.root (indexes v)) =
      some ⟨0x60,true,false⟩ := by
  have same := (reached.inv.1.inside.agree (fun t used => @underEpt_same calls spared s spares t (owned_low used.owned))
    (indexes v) (Nat.le_refl _)).1
  have kernel : trace tableLink sampleMem 1 (indexes sampleOwn) = [0x4003,0x5003,0x6003,0x60003] := by decide
  have mirrors := (sampled.host (indexes v) rfl).decodeAccess v 3 (trace_length_le _ _ _)
  rw [same,mirrors,path,kernel]
  rfl

end Sparing

/-- VMREAD with the memory operand at the address in RAX and the field in RCX; the nested VMCS
holds 0x41 in that field. -/
def vmreadData : ExitData := ⟨0x10400100,3,0,sampleCr3,false⟩

def vmreadGuest : GuestState :=
  ⟨⟨sampleOwn,0x6800,0,0,0,0,0,0,0,0,0,0,0,0,0,0⟩,0x400000,0x2,0,0,0,0,0,0,true,false⟩

def vmreadEvent : StoreEvent := .handlerExit vmreadData vmreadGuest (.vmread (fun _ => some 0x41))

theorem vmread_places : ∀ k < 8, indexes (sampleOwn + BitVec.ofNat 64 k) = indexes sampleOwn ∧
    canonical (sampleOwn + BitVec.ofNat 64 k) = true := by decide

theorem underEpt_reaches {calls : List (Setter × U64)} {spared : Nat} (spares : SparesOnly calls spared)
    {s : HostTables} (sampled : Sampled s) (reached : HostSynced sampleEnv s) {k : Nat} (small : k < 8) :
    StoreExit.operandPage sampleRoot vmreadData vmreadGuest (underEpt calls s).tables
      (.vmread (fun _ => some 0x41)) (sampleOwn + BitVec.ofNat 64 k) = some 0x60 := by
  obtain ⟨path,inside⟩ := vmread_places k small
  have walk := underEpt_walk spares sampled reached path
  simp only [StoreExit.operandPage,StoreExit.syncs,Bool.false_eq_true,if_false,inside,if_true]
  exact (congrArg (fun leaf => (leaf.filter (ArchLeaf.stores sampleRoot.hostCr4)).map ArchLeaf.frame) walk).trans rfl

end Sample

end HyperBox.Exit
