import HyperBox.Ept.Range
import HyperBox.ReadOnly.Lookup

/-! Protection of the read-only part of modules. The array of areas and the extended page
table record the same fact; an addition locks the pages before it registers the area, a
removal takes the area out before it opens the pages. -/
namespace HyperBox.ReadOnly
open HyperBox.Library HyperBox.PageTable HyperBox.Ept

structure ModuleState where
  table : RoTable
  mem : Mem

section Code
variable {ramEnd : Nat} (env : ExitEnv ramEnd)

/-- The structure of the module stays writable: the kernel changes its list of modules. -/
def hbAddAndProtectModuleRo (m : ModuleLayout) (s : ModuleState) : ModuleState :=
  if m.coreBase ≠ 0 ∧ m.coreRoSize ≠ 0 then
    let mem := hbLockRange env m.coreBase (m.coreBase + m.coreRoSize) .vmalloc s.mem
    let mem := hbSetAllAccessRange env m.module (m.module + m.structSize) .vmalloc mem
    ⟨hbAddRoArea m.coreBase (m.coreBase + m.coreRoSize) s.table .module,mem⟩
  else s

def hbDeleteAndUnprotectModuleRo (modCoreBase modCoreRoSize : U64) (s : ModuleState) : ModuleState :=
  if modCoreBase ≠ 0 ∧ modCoreRoSize ≠ 0 then
    let deleted := hbDeleteRoArea modCoreBase (modCoreBase + modCoreRoSize) s.table
    if deleted.1 = 0 then
      ⟨deleted.2,hbSetAllAccessRange env modCoreBase (modCoreBase + modCoreRoSize) .vmalloc s.mem⟩
    else ⟨deleted.2,s.mem⟩
  else s

end Code

def behind {ramEnd : Nat} (env : ExitEnv ramEnd) (page : Nat) : Nat :=
  pageOffset (phyAddrOf env .vmalloc (frame page))

def CorePage (m : ModuleLayout) (page : Nat) : Prop :=
  m.coreBase.toNat ≤ page * 4096 ∧ page * 4096 < m.coreBase.toNat + m.coreSize.toNat

def RoPage (m : ModuleLayout) (page : Nat) : Prop :=
  m.coreBase.toNat ≤ page * 4096 ∧ page * 4096 < m.coreBase.toNat + m.coreRoSize.toNat

/-- Modules with page-aligned core areas. Each begins with its read-only part; the structure of
the module lies behind that, in the same core area. -/
structure Modules {ramEnd : Nat} (env : ExitEnv ramEnd) (ι : Type*) where
  layout : ι → ModuleLayout
  base : ∀ i, (layout i).coreBase ≠ 0
  alignedBase : ∀ i, (layout i).coreBase &&& maskPageaddr = (layout i).coreBase
  alignedSize : ∀ i, (layout i).coreSize &&& maskPageaddr = (layout i).coreSize
  alignedRo : ∀ i, (layout i).coreRoSize &&& maskPageaddr = (layout i).coreRoSize
  readOnly : ∀ i, (layout i).coreRoSize ≠ 0
  within : ∀ i, (layout i).coreRoSize ≤ (layout i).coreSize
  fits : ∀ i, (layout i).coreBase.toNat + (layout i).coreSize.toNat ≤ 2^64 - 4096
  behindRo : ∀ i, (layout i).coreBase.toNat + (layout i).coreRoSize.toNat ≤ (layout i).module.toNat
  inside : ∀ i, (layout i).module.toNat + (layout i).structSize.toNat ≤
    (layout i).coreBase.toNat + (layout i).coreSize.toNat
  disjoint : ∀ i j page, CorePage (layout i) page → CorePage (layout j) page → i = j
  distinct : ∀ i j page page', CorePage (layout i) page → CorePage (layout j) page' →
    behind env page = behind env page' → page = page'
  below : ∀ i page, CorePage (layout i) page → (phyAddrOf env .vmalloc (frame page)).toNat < maxRamSize ramEnd

inductive ModuleEvent (ι : Type*) where
  | add (i : ι)
  | remove (i : ι)

section System
variable {ramEnd : Nat} {env : ExitEnv ramEnd} {ι : Type*} (modules : Modules env ι)

namespace Modules

def step (s : ModuleState) : ModuleEvent ι → ModuleState
  | .add i => hbAddAndProtectModuleRo env (modules.layout i) s
  | .remove i =>
    hbDeleteAndUnprotectModuleRo env (modules.layout i).coreBase (modules.layout i).coreRoSize s

def area (i : ι) : RoArea :=
  ⟨(modules.layout i).coreBase,(modules.layout i).coreBase + (modules.layout i).coreRoSize,.module⟩

def roEvent : ModuleEvent ι → RoEvent
  | .add i => .add (modules.area i)
  | .remove i => .delete (modules.area i).start (modules.area i).stop

def calls (t : RoTable) : ModuleEvent ι → List (Setter × U64)
  | .add i => rangeCalls env .lock .vmalloc (rangeAddrs (modules.area i).start (modules.area i).stop) ++
      rangeCalls env .allAccess .vmalloc
        (rangeAddrs (modules.layout i).module ((modules.layout i).module + (modules.layout i).structSize))
  | .remove i =>
    if (hbDeleteRoArea (modules.area i).start (modules.area i).stop t).1 = 0 then
      rangeCalls env .allAccess .vmalloc (rangeAddrs (modules.area i).start (modules.area i).stop)
    else []

end Modules

section Added
variable [DecidableEq ι]

def addedStep (added : Multiset ι) : ModuleEvent ι → Multiset ι
  | .add i => i ::ₘ added
  | .remove i => added.erase i

def added (events : List (ModuleEvent ι)) : Multiset ι := run addedStep 0 events

/-- No module is added again while it is added. -/
def Fresh (added : Multiset ι) : ModuleEvent ι → Prop
  | .add i => i ∉ added
  | .remove _ => True

end Added

section Pages
variable (i : ι)

theorem roPage_core {page : Nat} (ro : RoPage (modules.layout i) page) : CorePage (modules.layout i) page := by
  have within := BitVec.le_def.mp (modules.within i)
  exact ⟨ro.1,by have := ro.2; omega⟩

theorem area_start : (modules.area i).start = (modules.layout i).coreBase := rfl

theorem area_stop : (modules.area i).stop.toNat =
    (modules.layout i).coreBase.toNat + (modules.layout i).coreRoSize.toNat := by
  have within := BitVec.le_def.mp (modules.within i)
  have fits := modules.fits i
  rw [Modules.area,BitVec.toNat_add]
  omega

theorem struct_stop : ((modules.layout i).module + (modules.layout i).structSize).toNat =
    (modules.layout i).module.toNat + (modules.layout i).structSize.toNat := by
  have inside := modules.inside i
  have fits := modules.fits i
  rw [BitVec.toNat_add]
  omega

theorem ro_positive : 0 < (modules.layout i).coreRoSize.toNat := by
  have nonzero := modules.readOnly i
  by_contra zero
  exact nonzero (BitVec.eq_of_toNat_eq (by simpa using zero))

theorem base_page : RoPage (modules.layout i) (pageOf (modules.layout i).coreBase) := by
  have aligned := aligned_toNat (modules.alignedBase i)
  have positive := ro_positive modules i
  rw [RoPage,pageOf]
  omega

theorem mem_roAddrs (addr : U64) : addr ∈ rangeAddrs (modules.area i).start (modules.area i).stop ↔
    ∃ page, RoPage (modules.layout i) page ∧ frame page = addr := by
  have aligned := aligned_toNat (modules.alignedBase i)
  have alignedRo := aligned_toNat (modules.alignedRo i)
  have within := BitVec.le_def.mp (modules.within i)
  have fits := modules.fits i
  have stop := area_stop modules i
  have pages : ∀ page, page ∈ touchedPages (modules.area i).start (modules.area i).stop ↔
      RoPage (modules.layout i) page := by
    intro page
    rw [touchedPages,List.mem_range'_1,RoPage,stop,area_start,pageOf]
    omega
  rw [rangeAddrs_touched (by omega),List.mem_map]
  exact exists_congr fun page => and_congr_left fun _ => pages page

/-- Rounding the bounds of the structure outwards stays behind the read-only part and inside
the core area. -/
theorem mem_structAddrs {addr : U64}
    (member : addr ∈ rangeAddrs (modules.layout i).module
      ((modules.layout i).module + (modules.layout i).structSize)) :
    ∃ page, CorePage (modules.layout i) page ∧ ¬ RoPage (modules.layout i) page ∧ frame page = addr := by
  have aligned := aligned_toNat (modules.alignedBase i)
  have alignedRo := aligned_toNat (modules.alignedRo i)
  have alignedSize := aligned_toNat (modules.alignedSize i)
  have fits := modules.fits i
  have inside := modules.inside i
  have behindRo := modules.behindRo i
  have stop := struct_stop modules i
  rw [rangeAddrs_touched (by omega),List.mem_map] at member
  obtain ⟨page,touched,same⟩ := member
  rw [touchedPages,List.mem_range'_1,stop,pageOf] at touched
  refine ⟨page,?_,?_,same⟩
  · rw [CorePage]
    omega
  · rw [RoPage]
    omega

end Pages

section Steps
variable {modules}

theorem step_table (s : ModuleState) (event : ModuleEvent ι) :
    (modules.step s event).table = s.table.step (modules.roEvent event) := by
  cases event with
  | add i => rw [Modules.step,hbAddAndProtectModuleRo,if_pos ⟨modules.base i,modules.readOnly i⟩]; rfl
  | remove i =>
    rw [Modules.step,hbDeleteAndUnprotectModuleRo,if_pos ⟨modules.base i,modules.readOnly i⟩]
    dsimp only
    split <;> rfl

theorem step_mem (s : ModuleState) (event : ModuleEvent ι) :
    (modules.step s event).mem = run (Setter.apply env.pages) s.mem (modules.calls s.table event) := by
  cases event with
  | add i =>
    rw [Modules.step,hbAddAndProtectModuleRo,if_pos ⟨modules.base i,modules.readOnly i⟩,Modules.calls,run_append]
    rfl
  | remove i =>
    rw [Modules.step,hbDeleteAndUnprotectModuleRo,if_pos ⟨modules.base i,modules.readOnly i⟩,Modules.calls,
      area_start,Modules.area]
    dsimp only
    split
    next found => rfl
    next missed => rfl

theorem run_table (start : ModuleState) (events : List (ModuleEvent ι)) :
    (run modules.step start events).table = run RoTable.step start.table (events.map modules.roEvent) := by
  induction events generalizing start with
  | nil => rfl
  | cons event rest ih => rw [run_cons,ih,step_table,List.map_cons,run_cons]

theorem area_injective : Function.Injective modules.area := by
  intro i j same
  have base := congrArg RoArea.start same
  have first := roPage_core modules i (base_page modules i)
  have second := roPage_core modules j (base_page modules j)
  rw [area_start,area_start] at base
  rw [base] at first
  exact modules.disjoint i j _ first second

theorem area_proper (i : ι) : RoEvent.Proper (.add (modules.area i)) := by
  have positive := ro_positive modules i
  have stop := area_stop modules i
  have base := modules.base i
  constructor
  · rw [area_start,BitVec.lt_def]
    by_contra zero
    exact base (BitVec.eq_of_toNat_eq (by simpa using zero))
  · rw [BitVec.lt_def,stop,area_start]
    omega

theorem roEvent_proper (event : ModuleEvent ι) : (modules.roEvent event).Proper := by
  cases event with
  | add i => exact area_proper i
  | remove i => exact fun bounds => modules.base i bounds.1

end Steps

def KernelAreas (kernel : List RoArea) : Prop :=
  ∀ area ∈ kernel, area.type = .kernel ∧ RoEvent.Proper (.add area) ∧
    ∀ i, ¬ (area.start = (modules.area i).start ∧ area.stop = (modules.area i).stop)

def roEvents (kernel : List RoArea) (events : List (ModuleEvent ι)) : List RoEvent :=
  kernel.map .add ++ events.map modules.roEvent

section Order
variable {modules} {kernel : List RoArea} (kernelAreas : KernelAreas modules kernel)
  (events : List (ModuleEvent ι))
include kernelAreas

theorem roEvents_proper : ∀ event ∈ roEvents modules kernel events, event.Proper := by
  intro event member
  rcases List.mem_append.mp member with first | later
  · obtain ⟨area,inside,rfl⟩ := List.mem_map.mp first
    exact (kernelAreas area inside).2.1
  · obtain ⟨other,_,rfl⟩ := List.mem_map.mp later
    exact roEvent_proper other

theorem roEvents_ordered : Ordered (roEvents modules kernel events) := by
  rw [Ordered,roEvents,List.pairwise_append,List.pairwise_map,List.pairwise_map]
  refine ⟨?_,?_,?_⟩
  · refine List.Pairwise.imp_of_mem ?_ (List.pairwise_of_forall (fun _ _ => trivial))
    intro first later member _ _ module
    rw [(kernelAreas first member).1] at module
    contradiction
  · apply List.pairwise_of_forall
    intro first later
    cases first with
    | add i =>
      cases later with
      | add j => exact fun _ => rfl
      | remove j => exact fun kernel => absurd kernel (by simp [Modules.area])
    | remove i => trivial
  · intro event member event' member'
    obtain ⟨area,inside,rfl⟩ := List.mem_map.mp member
    obtain ⟨later,_,rfl⟩ := List.mem_map.mp member'
    cases later with
    | add j => exact fun _ => rfl
    | remove j => exact fun _ => (kernelAreas area inside).2.2 j

end Order

section Live
variable {modules} [DecidableEq ι] {kernel : List RoArea} (kernelAreas : KernelAreas modules kernel)
  (events : List (ModuleEvent ι))

theorem liveAreas_kernel (kernel : List RoArea) : liveAreas (kernel.map .add) = kernel := by
  induction kernel using List.reverseRecOn with
  | nil => rfl
  | append_singleton kernel area ih =>
    rw [List.map_append,liveAreas,run_append,← liveAreas,ih,← Multiset.coe_add,Multiset.add_comm]
    rfl

theorem added_append (event : ModuleEvent ι) : added (events ++ [event]) = addedStep (added events) event := by
  rw [added,run_append,run_cons,run_nil,added]

include kernelAreas

theorem liveAreas_modules :
    liveAreas (roEvents modules kernel events) = kernel + (added events).map modules.area := by
  induction events using List.reverseRecOn with
  | nil => rw [roEvents,List.map_nil,List.append_nil,liveAreas_kernel,added,run_nil,Multiset.map_zero,add_zero]
  | append_singleton events event ih =>
    have next : liveAreas (roEvents modules kernel (events ++ [event])) =
        liveStep (liveAreas (roEvents modules kernel events)) (modules.roEvent event) := by
      rw [roEvents,List.map_append,← List.append_assoc,liveAreas,run_append]
      rfl
    rw [next,ih,added_append]
    cases event with
    | add i => rw [addedStep,Multiset.map_cons,Multiset.add_cons]; rfl
    | remove i =>
      have apart : modules.area i ∉ (kernel : Multiset RoArea) := by
        intro member
        exact absurd (kernelAreas _ (Multiset.mem_coe.mp member)).1 (by simp [Modules.area])
      rw [addedStep,Multiset.map_erase _ area_injective,← Multiset.erase_add_right_neg _ apart]
      rfl

end Live

end System

end HyperBox.ReadOnly
