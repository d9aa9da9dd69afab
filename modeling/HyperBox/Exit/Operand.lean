import HyperBox.Library.Bytes
import HyperBox.PageTable.Mapping
import Mathlib.Tactic.IntervalCases

/-! The operands of instructions that exit: how the handlers decode the instruction
information, and how the processor carries out their memory accesses through the host
page table. -/
namespace HyperBox.Exit
open HyperBox.Library HyperBox.PageTable

section Info
variable (info : U64)

def vmInstInfoInstIdentity : Nat := ((info >>> 28) &&& 0x03).toNat
def vmInstInfoMemReg : Bool := (info >>> 10) &&& 0x01 ≠ 0
def vmInstInfoReg1 : Nat := ((info >>> 3) &&& 0x0F).toNat
def vmInstInfoReg2 : Nat := ((info >>> 28) &&& 0x0F).toNat
def vmInstInfoIdxReg : Nat := ((info >>> 18) &&& 0x0F).toNat
def vmInstInfoScale : Nat := (info &&& 0x03).toNat
def vmInstInfoBaseReg : Nat := ((info >>> 23) &&& 0x0F).toNat
def vmInstInfoAddrSize : Nat := ((info >>> 7) &&& 0x07).toNat
def vmInstInfoIdxRegInvalid : Bool := info &&& (0x01 <<< 22) ≠ 0
def vmInstInfoBaseRegInvalid : Bool := info &&& (0x01 <<< 27) ≠ 0

end Info

/-- The registers of the guest; `rsp` is a field of the VMCS. -/
structure GuestRegister where
  rax : U64
  rcx : U64
  rdx : U64
  rbx : U64
  rsp : U64
  rbp : U64
  rsi : U64
  rdi : U64
  r8 : U64
  r9 : U64
  r10 : U64
  r11 : U64
  r12 : U64
  r13 : U64
  r14 : U64
  r15 : U64

section Registers
variable (guest : GuestRegister)

def hbGetRegValueFromIndex : Nat → U64
  | 0 => guest.rax
  | 1 => guest.rcx
  | 2 => guest.rdx
  | 3 => guest.rbx
  | 4 => guest.rsp
  | 5 => guest.rbp
  | 6 => guest.rsi
  | 7 => guest.rdi
  | 8 => guest.r8
  | 9 => guest.r9
  | 10 => guest.r10
  | 11 => guest.r11
  | 12 => guest.r12
  | 13 => guest.r13
  | 14 => guest.r14
  | 15 => guest.r15
  | _ => 0

def hbSetRegValueFromIndex (index : Nat) (regValue : U64) : GuestRegister :=
  match index with
  | 0 => { guest with rax := regValue }
  | 1 => { guest with rcx := regValue }
  | 2 => { guest with rdx := regValue }
  | 3 => { guest with rbx := regValue }
  | 4 => { guest with rsp := regValue }
  | 5 => { guest with rbp := regValue }
  | 6 => { guest with rsi := regValue }
  | 7 => { guest with rdi := regValue }
  | 8 => { guest with r8 := regValue }
  | 9 => { guest with r9 := regValue }
  | 10 => { guest with r10 := regValue }
  | 11 => { guest with r11 := regValue }
  | 12 => { guest with r12 := regValue }
  | 13 => { guest with r13 := regValue }
  | 14 => { guest with r14 := regValue }
  | 15 => { guest with r15 := regValue }
  | _ => guest

def hbCalcDestMemAddr (instInfo : U64) : U64 :=
  let destAddr := if vmInstInfoIdxRegInvalid instInfo then 0
    else hbGetRegValueFromIndex guest (vmInstInfoIdxReg instInfo) <<< vmInstInfoScale instInfo
  if vmInstInfoBaseRegInvalid instInfo then destAddr
  else destAddr + hbGetRegValueFromIndex guest (vmInstInfoBaseReg instInfo)

variable {index : Nat} (bound : index < 16) (regValue : U64)
include bound

theorem hbSetReg_same : hbGetRegValueFromIndex (hbSetRegValueFromIndex guest index regValue) index = regValue := by
  interval_cases index <;> rfl

theorem hbSetReg_other {other : Nat} (differ : other ≠ index) :
    hbGetRegValueFromIndex (hbSetRegValueFromIndex guest index regValue) other = hbGetRegValueFromIndex guest other := by
  interval_cases index <;> unfold hbGetRegValueFromIndex <;> split <;> first | rfl | exact absurd rfl differ

end Registers

instance lanes_neZero : NeZero 8 := ⟨by decide⟩

/-- What the processor translates addresses with in root mode. -/
structure HostControl where
  cr3 : U64
  cr4 : U64

/-- CR4 of root mode is the kernel's, as the VMCS host area takes it. -/
structure RootEnv extends SyncEnv where
  hostCr4 : U64

def RootEnv.control (env : RootEnv) : HostControl := ⟨env.hostPml4,env.hostCr4⟩

section Access
variable (mem : Mem) (host : HostControl) (addr : U64)

def canonical : Bool := addr.toNat < 2^47 || 2^64 - 2^47 ≤ addr.toNat

def hostWalk : Option ArchLeaf :=
  if canonical addr then archWalk mem addr (pageOf host.cr3) (indexes addr) else none

def hostPage : Option Nat := ((hostWalk mem host addr).filter (ArchLeaf.loads host.cr4)).map ArchLeaf.frame

def byteLoc (page : Nat) : ByteLoc 512 :=
  ⟨page,Fin.ofNat 512 (addr.toNat / 8),Fin.ofNat 8 addr.toNat⟩

def storePage : Option Nat := ((hostWalk mem host addr).filter (ArchLeaf.stores host.cr4)).map ArchLeaf.frame

def storeLoc : Option (ByteLoc 512) := (storePage mem host addr).map (byteLoc addr)

end Access

structure HostStore where
  addr : U64
  bytes : List (BitVec 8)

def littleEndian (count : Nat) (value : U64) : List (BitVec 8) :=
  (List.range count).map (fun k => (value >>> (8 * k)).setWidth 8)

theorem littleEndian_length (count : Nat) (value : U64) : (littleEndian count value).length = count := by
  simp [littleEndian]

def hbSetValueToMemory (instInfo addr value : U64) : List HostStore :=
  match vmInstInfoAddrSize instInfo with
  | 0 => [⟨addr,littleEndian 2 value⟩]
  | 1 => [⟨addr,littleEndian 4 value⟩]
  | 2 => [⟨addr,littleEndian 8 value⟩]
  | _ => []

section Loads
variable (mem : Mem) (host : HostControl)

/-- A load of consecutive bytes, as a number. A byte without a page makes it fault. -/
def hostLoad (addr : U64) : Nat → Option U64
  | 0 => some 0
  | count+1 => do
    let page ← hostPage mem host addr
    let later ← hostLoad (addr + 1) count
    return (later <<< 8) ||| (readByte mem (byteLoc addr page)).setWidth 64

def hbGetValueFromMemory (instInfo addr : U64) : Option U64 :=
  match vmInstInfoAddrSize instInfo with
  | 0 => hostLoad mem host addr 2
  | 1 => hostLoad mem host addr 4
  | 2 => hostLoad mem host addr 8
  | _ => some 0

end Loads

section Stores
variable (host : HostControl)

/-- Where the bytes of a store go; it faults as a whole if one of them cannot be stored. -/
def storePlaces (mem : Mem) : U64 → List (BitVec 8) → Option (List (ByteLoc 512 × BitVec 8))
  | _,[] => some []
  | addr,byte::rest => do
    let loc ← storeLoc mem host addr
    let later ← storePlaces mem (addr + 1) rest
    return (loc,byte)::later

/-- The bytes stored up to the first fault, and the memory after them. -/
def hostStores (mem : Mem) : List HostStore → List (ByteLoc 512 × BitVec 8) × Mem
  | [] => ([],mem)
  | store::rest =>
    match storePlaces host mem store.addr store.bytes with
    | none => ([],mem)
    | some places =>
      let later := hostStores (storeBytes mem places) rest
      (places ++ later.1,later.2)

variable {host} {mem : Mem}

def locOffset (loc : ByteLoc 512) : Nat := loc.slot.val * 8 + loc.lane.val

theorem locOffset_byteLoc (addr : U64) (page : Nat) : locOffset (byteLoc addr page) = addr.toNat % 4096 := by
  simp only [locOffset,byteLoc,Fin.val_ofNat]
  omega

def byteOffsets (addr : U64) (count : Nat) : List Nat :=
  (List.range count).map (fun k => (addr.toNat + k) % 4096)

theorem byteOffsets_succ (addr : U64) (count : Nat) :
    byteOffsets addr (count+1) = addr.toNat % 4096 :: byteOffsets (addr + 1) count := by
  have wraps : (addr + 1).toNat % 4096 = (addr.toNat + 1) % 4096 := by
    rw [BitVec.toNat_add,show (1 : U64).toNat = 1 by rfl]
    omega
  simp only [byteOffsets,List.range_succ_eq_map,List.map_cons,List.map_map,Nat.add_zero,List.cons.injEq,true_and]
  apply List.map_congr_left
  intro k _
  simp only [Function.comp_apply]
  omega

theorem storePlaces_offsets {addr : U64} {bytes : List (BitVec 8)} {places : List (ByteLoc 512 × BitVec 8)}
    (stored : storePlaces host mem addr bytes = some places) :
    places.map (fun place => locOffset place.1) = byteOffsets addr bytes.length := by
  induction bytes generalizing addr places with
  | nil =>
    simp only [storePlaces,Option.some.injEq] at stored
    simp [← stored,byteOffsets]
  | cons byte rest ih =>
    simp only [storePlaces,Option.bind_eq_bind,Option.bind_eq_some_iff,Option.pure_def,Option.some.injEq] at stored
    obtain ⟨loc,here,later,above,rfl⟩ := stored
    rw [List.map_cons,ih above,List.length_cons,byteOffsets_succ]
    congr 1
    obtain ⟨page,_,rfl⟩ := Option.map_eq_some_iff.mp here
    exact locOffset_byteLoc addr page

def storeOffsets (stores : List HostStore) : List Nat :=
  stores.flatMap (fun store => byteOffsets store.addr store.bytes.length)

theorem hostStores_spec (host : HostControl) (mem : Mem) (stores : List HostStore) :
    (hostStores host mem stores).2 = storeBytes mem (hostStores host mem stores).1 ∧
      ((hostStores host mem stores).1.map (fun place => locOffset place.1)).Sublist (storeOffsets stores) := by
  induction stores generalizing mem with
  | nil => exact ⟨rfl,List.Sublist.refl _⟩
  | cons store rest ih =>
    unfold hostStores
    split
    · exact ⟨rfl,by simp⟩
    next places stored =>
      obtain ⟨after,sub⟩ := ih (storeBytes mem places)
      refine ⟨?_,?_⟩
      · rw [after]
        simp only [storeBytes,run_append]
      · simp only [List.map_append,storePlaces_offsets stored,storeOffsets,List.flatMap_cons]
        exact sub.append_left _

/-- Stores whose bytes have different offsets leave a set of pages as it is exactly if they
store there what it holds. -/
theorem hostStores_unchanged_iff {stores : List HostStore} (distinct : (storeOffsets stores).Nodup) (D : Nat → Prop) :
    (∀ page, D page → (hostStores host mem stores).2 page = mem page) ↔
      ∀ place ∈ (hostStores host mem stores).1, D place.1.page → readByte mem place.1 = place.2 := by
  obtain ⟨after,sub⟩ := hostStores_spec host mem stores
  have offsets := distinct.sublist sub
  have places : ((hostStores host mem stores).1.map Prod.fst).Nodup := by
    apply List.Nodup.of_map locOffset
    rwa [List.map_map]
  rw [after]
  exact storeBytes_unchanged_iff places D

end Stores

/-- Root mode with SMAP. -/
def sampleRoot : RootEnv := { sampleEnv with hostCr4 := 0x3406E0 }

end HyperBox.Exit
