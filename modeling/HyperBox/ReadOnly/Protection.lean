import HyperBox.ReadOnly.Module

/-! The array of read-only areas and the extended page table agree page by page over sequences
of additions and removals of modules, as long as no module is added twice. -/
namespace HyperBox.ReadOnly
open HyperBox.Library HyperBox.PageTable HyperBox.Ept

section System
variable {ramEnd : Nat} {env : ExitEnv ramEnd} {ι : Type*} (modules : Modules env ι)

def InModuleArea (t : RoTable) (addr : U64) : Prop :=
  ∃ area ∈ t.live, area.type = .module ∧ inArea addr area = true

def InRoPart (m : ModuleLayout) (addr : U64) : Prop :=
  m.coreBase.toNat ≤ addr.toNat ∧ addr.toNat < m.coreBase.toNat + m.coreRoSize.toNat

/-- The array and the extended page table agree about the modules after `events`. -/
structure Protected [DecidableEq ι] (events : List (ModuleEvent ι)) (s : ModuleState) : Prop where
  registered : ∀ addr, InModuleArea s.table addr → ∃ i, InRoPart (modules.layout i) addr
  present : ∀ i addr, InRoPart (modules.layout i) addr → (InModuleArea s.table addr ↔ i ∈ added events)
  locked : ∀ i page, RoPage (modules.layout i) page → InModuleArea s.table (frame page) →
    PageRights env s.mem (behind env page) ⟨true,false,true⟩
  opened : ∀ i page, RoPage (modules.layout i) page → .add i ∈ events → i ∉ added events →
    PageRights env s.mem (behind env page) .all

/-- The last setter call on the pages of the modules after `events`. -/
structure Setters [DecidableEq ι] (events : List (ModuleEvent ι)) (calls : List (Setter × U64)) : Prop where
  locked : ∀ i page, RoPage (modules.layout i) page → i ∈ added events →
    setterAfter calls (behind env page) = .lock
  opened : ∀ i page, RoPage (modules.layout i) page → .add i ∈ events → i ∉ added events →
    setterAfter calls (behind env page) = .allAccess

section Protect
variable {modules}

theorem frame_ro {i : ι} {page : Nat} (ro : RoPage (modules.layout i) page) :
    (frame page).toNat = page * 4096 := by
  have within := BitVec.le_def.mp (modules.within i)
  have fits := modules.fits i
  rw [RoPage] at ro
  rw [frame,BitVec.toNat_ofNat]
  omega

theorem roPart_page {i : ι} {addr : U64} (part : InRoPart (modules.layout i) addr) :
    RoPage (modules.layout i) (pageOf addr) := by
  have aligned := aligned_toNat (modules.alignedBase i)
  rw [InRoPart] at part
  rw [RoPage,pageOf]
  omega

theorem inArea_iff (i : ι) (addr : U64) :
    inArea addr (modules.area i) = true ↔ InRoPart (modules.layout i) addr := by
  simp only [inArea,Bool.and_eq_true,decide_eq_true_eq,BitVec.le_def,BitVec.lt_def,area_stop,area_start,InRoPart]

theorem behind_ro (i : ι) {j : ι} {page : Nat} (ro : RoPage (modules.layout j) page) :
    (∃ addr ∈ rangeAddrs (modules.area i).start (modules.area i).stop,
      pageOffset (phyAddrOf env .vmalloc addr) = behind env page) ↔ j = i := by
  constructor
  · rintro ⟨addr,member,same⟩
    obtain ⟨page',ro',rfl⟩ := (mem_roAddrs modules i addr).mp member
    have page_eq := modules.distinct i j page' page (roPage_core modules i ro') (roPage_core modules j ro) same
    rw [page_eq] at ro'
    exact modules.disjoint j i page (roPage_core modules j ro) (roPage_core modules i ro')
  · rintro rfl
    exact ⟨frame page,(mem_roAddrs modules j _).mpr ⟨page,ro,rfl⟩,rfl⟩

theorem behind_struct (i : ι) {j : ι} {page : Nat} (ro : RoPage (modules.layout j) page) :
    ¬ ∃ addr ∈ rangeAddrs (modules.layout i).module ((modules.layout i).module + (modules.layout i).structSize),
      pageOffset (phyAddrOf env .vmalloc addr) = behind env page := by
  rintro ⟨addr,member,same⟩
  obtain ⟨page',core,notRo,rfl⟩ := mem_structAddrs modules i member
  have page_eq := modules.distinct i j page' page core (roPage_core modules j ro) same
  rw [page_eq] at core notRo
  have owner := modules.disjoint i j page core (roPage_core modules j ro)
  exact notRo (owner ▸ ro)

variable {t : RoTable}

theorem calls_below {event : ModuleEvent ι} {call : Setter × U64} (member : call ∈ modules.calls t event) :
    call.2.toNat < maxRamSize ramEnd := by
  have ro : ∀ i addr, addr ∈ rangeAddrs (modules.area i).start (modules.area i).stop →
      (phyAddrOf env .vmalloc addr).toNat < maxRamSize ramEnd := by
    intro i addr inside
    obtain ⟨page,here,rfl⟩ := (mem_roAddrs modules i addr).mp inside
    exact modules.below i page (roPage_core modules i here)
  cases event with
  | add i =>
    rcases List.mem_append.mp member with lock | writable
    · obtain ⟨addr,inside,rfl⟩ := List.mem_map.mp lock
      exact ro i addr inside
    · obtain ⟨addr,inside,rfl⟩ := List.mem_map.mp writable
      obtain ⟨page,here,_,rfl⟩ := mem_structAddrs modules i inside
      exact modules.below i page here
  | remove i =>
    rw [Modules.calls] at member
    split at member
    · obtain ⟨addr,inside,rfl⟩ := List.mem_map.mp member
      exact ro i addr inside
    · contradiction

variable [DecidableEq ι] (calls : List (Setter × U64)) (t)

theorem setterAfter_add (i : ι) {j : ι} {page : Nat} (ro : RoPage (modules.layout j) page) :
    setterAfter (calls ++ modules.calls t (.add i)) (behind env page) =
      if j = i then .lock else setterAfter calls (behind env page) := by
  rw [Modules.calls,← List.append_assoc,setterAfter_calls,if_neg (behind_struct i ro),setterAfter_calls]
  simp only [behind_ro i ro]

theorem setterAfter_remove {i : ι}
    (found : (hbDeleteRoArea (modules.area i).start (modules.area i).stop t).1 = 0) {j : ι} {page : Nat}
    (ro : RoPage (modules.layout j) page) :
    setterAfter (calls ++ modules.calls t (.remove i)) (behind env page) =
      if j = i then .allAccess else setterAfter calls (behind env page) := by
  rw [Modules.calls,if_pos found,setterAfter_calls]
  simp only [behind_ro i ro]

variable {calls t} {events : List (ModuleEvent ι)}

theorem Setters.empty (calls : List (Setter × U64)) : Setters modules [] calls :=
  ⟨fun _ _ _ member => absurd member (Multiset.notMem_zero _),fun _ _ _ member => absurd member (by simp)⟩

theorem Setters.add (setters : Setters modules events calls) (i : ι) :
    Setters modules (events ++ [.add i]) (calls ++ modules.calls t (.add i)) := by
  constructor
  · intro j page ro member
    rw [added_append,addedStep,Multiset.mem_cons] at member
    rw [setterAfter_add t calls i ro]
    split
    next => rfl
    next other => exact setters.locked j page ro (member.resolve_left other)
  · intro j page ro known absent
    rw [added_append,addedStep,Multiset.mem_cons,not_or] at absent
    rw [setterAfter_add t calls i ro,if_neg absent.1]
    refine setters.opened j page ro ?_ absent.2
    simpa [absent.1] using known

/-- A removal that finds nothing leaves the table alone; one that does opens the pages of a
module that was added once. -/
theorem Setters.remove (setters : Setters modules events calls) (once : (added events).Nodup) {i : ι}
    (found : (hbDeleteRoArea (modules.area i).start (modules.area i).stop t).1 = 0 ↔ i ∈ added events) :
    Setters modules (events ++ [.remove i]) (calls ++ modules.calls t (.remove i)) := by
  by_cases present : i ∈ added events
  · have opens : ∀ {j page}, RoPage (modules.layout j) page → _ :=
      fun ro => setterAfter_remove t calls (found.mpr present) ro
    constructor
    · intro j page ro member
      rw [added_append,addedStep,once.mem_erase_iff] at member
      rw [opens ro,if_neg member.1]
      exact setters.locked j page ro member.2
    · intro j page ro known absent
      rw [added_append,addedStep,once.mem_erase_iff] at absent
      rw [opens ro]
      split
      next => rfl
      next other => exact setters.opened j page ro (by simpa using known) (fun member => absent ⟨other,member⟩)
  · have nothing : modules.calls t (.remove i) = [] := if_neg (fun zero => present (found.mp zero))
    have same : added (events ++ [.remove i]) = added events := by
      rw [added_append,addedStep,Multiset.erase_of_notMem present]
    rw [nothing,List.append_nil]
    constructor
    · intro j page ro member
      exact setters.locked j page ro (same ▸ member)
    · intro j page ro known absent
      exact setters.opened j page ro (by simpa using known) (same ▸ absent)

end Protect

section Runs
variable {modules} {kernel : List RoArea} {events : List (ModuleEvent ι)} {start : ModuleState}

theorem run_roEvents (table : start.table = run RoTable.step .empty (kernel.map .add)) (events : List (ModuleEvent ι)) :
    (run modules.step start events).table = run RoTable.step .empty (roEvents modules kernel events) := by
  rw [run_table,table,roEvents,run_append]

variable (modules) in
theorem follows_step {calls : List (Setter × U64)} {s : ModuleState} (follows : Follows env calls s.mem)
    (event : ModuleEvent ι) :
    Follows env (calls ++ modules.calls s.table event) (modules.step s event).mem := by
  rw [step_mem]
  exact follows.append (fun call member => calls_below member)

variable (kernelAreas : KernelAreas modules kernel) (table : start.table = run RoTable.step .empty (kernel.map .add))

include kernelAreas table in
theorem agrees_modules
    (room : Along RoTable.step (fun t _ => t.areas.length < maxRoArrayCount) .empty (roEvents modules kernel events)) :
    Agrees (roEvents modules kernel events) (run modules.step start events).table := by
  rw [run_roEvents table]
  exact run_agrees (roEvents_proper kernelAreas events) (roEvents_ordered kernelAreas events) room

variable [DecidableEq ι]

theorem added_nodup (once : Along addedStep Fresh 0 events) : (added events).Nodup := by
  refine once.reaches Multiset.Nodup ?_ Multiset.nodup_zero
  intro present event nodup fresh
  cases event with
  | add i => exact Multiset.nodup_cons.mpr ⟨fresh,nodup⟩
  | remove i => exact nodup.erase i

section Lookups
variable (room : Along RoTable.step (fun t _ => t.areas.length < maxRoArrayCount) .empty (roEvents modules kernel events))
include kernelAreas table room

theorem delete_found (i : ι) :
    (hbDeleteRoArea (modules.area i).start (modules.area i).stop (run modules.step start events).table).1 = 0 ↔
      i ∈ added events := by
  have agrees := agrees_modules kernelAreas table room
  have ordered := roEvents_ordered kernelAreas (events ++ [.remove i])
  rw [Ordered,roEvents,List.map_append,← List.append_assoc,List.pairwise_append] at ordered
  have earlier : ∀ event ∈ roEvents modules kernel events, Precedes event (modules.roEvent (.remove i)) :=
    fun event member => ordered.2.2 event member _ (by simp)
  have proper : (modules.roEvent (.remove i)).Proper := roEvent_proper _
  have result := (agrees.delete_result proper earlier).1
  rw [liveAreas_modules kernelAreas] at result
  refine result.trans ?_
  constructor
  · rintro ⟨area,member,bounds⟩
    rcases Multiset.mem_add.mp member with first | later
    · exact absurd bounds ((kernelAreas area (Multiset.mem_coe.mp first)).2.2 i)
    · obtain ⟨j,present,rfl⟩ := Multiset.mem_map.mp later
      have same : modules.area j = modules.area i := by
        rw [RoArea.mk.injEq]
        exact ⟨bounds.1,bounds.2,rfl⟩
      exact area_injective same ▸ present
  · intro present
    exact ⟨modules.area i,Multiset.mem_add.mpr (.inr (Multiset.mem_map_of_mem _ present)),rfl,rfl⟩

theorem inModuleArea_iff (addr : U64) : InModuleArea (run modules.step start events).table addr ↔
    ∃ i ∈ added events, InRoPart (modules.layout i) addr := by
  rw [InModuleArea,(agrees_modules kernelAreas table room).live,liveAreas_modules kernelAreas]
  constructor
  · rintro ⟨area,member,module,inside⟩
    rcases Multiset.mem_add.mp member with first | later
    · rw [(kernelAreas area (Multiset.mem_coe.mp first)).1] at module
      contradiction
    · obtain ⟨i,present,rfl⟩ := Multiset.mem_map.mp later
      exact ⟨i,present,(inArea_iff i addr).mp inside⟩
  · rintro ⟨i,present,inside⟩
    exact ⟨modules.area i,Multiset.mem_add.mpr (.inr (Multiset.mem_map_of_mem _ present)),rfl,
      (inArea_iff i addr).mpr inside⟩

theorem inModuleArea_own {i : ι} {addr : U64} (part : InRoPart (modules.layout i) addr) :
    InModuleArea (run modules.step start events).table addr ↔ i ∈ added events := by
  rw [inModuleArea_iff kernelAreas table room]
  constructor
  · rintro ⟨j,present,other⟩
    have owner := modules.disjoint j i _ (roPage_core modules j (roPart_page other))
      (roPage_core modules i (roPart_page part))
    exact owner ▸ present
  · intro present
    exact ⟨i,present,part⟩

end Lookups

include kernelAreas table

/-- The last call on a page of a module is that of its last addition or removal. -/
theorem run_setters {earlier : List (Setter × U64)} (follows : Follows env earlier start.mem)
    (events : List (ModuleEvent ι)) (once : Along addedStep Fresh 0 events)
    (room : Along RoTable.step (fun t _ => t.areas.length < maxRoArrayCount) .empty (roEvents modules kernel events)) :
    ∃ calls, Follows env calls (run modules.step start events).mem ∧ Setters modules events calls := by
  induction events using List.reverseRecOn with
  | nil => exact ⟨earlier,follows,.empty earlier⟩
  | append_singleton events event ih =>
    rw [roEvents,List.map_append,← List.append_assoc,along_append] at room
    rw [along_append] at once
    obtain ⟨calls,before,setters⟩ := ih once.1 room.1
    rw [run_append,run_cons,run_nil]
    refine ⟨_,follows_step modules before event,?_⟩
    cases event with
    | add i => exact setters.add i
    | remove i => exact setters.remove (added_nodup once.1) (delete_found kernelAreas table room.1 i)

/-- The array and the extended page table agree over every sequence in which no module is
added again while it is added. -/
theorem modules_protected {earlier : List (Setter × U64)} (follows : Follows env earlier start.mem)
    (events : List (ModuleEvent ι)) (once : Along addedStep Fresh 0 events)
    (room : Along RoTable.step (fun t _ => t.areas.length < maxRoArrayCount) .empty (roEvents modules kernel events)) :
    Protected modules events (run modules.step start events) := by
  obtain ⟨calls,after,setters⟩ := run_setters kernelAreas table follows events once room
  refine ⟨?_,?_,?_,?_⟩
  · intro addr inside
    obtain ⟨i,_,part⟩ := (inModuleArea_iff kernelAreas table room addr).mp inside
    exact ⟨i,part⟩
  · intro i addr part
    exact inModuleArea_own kernelAreas table room part
  · intro i page ro inside
    have part : InRoPart (modules.layout i) (frame page) := by
      rw [InRoPart,frame_ro ro]
      exact ro
    have present := (inModuleArea_own kernelAreas table room part).mp inside
    exact after.rights (setters.locked i page ro present)
  · intro i page ro known absent
    exact after.rights (setters.opened i page ro known absent)

end Runs

end System

section Sample

theorem sampleCore {page : Nat} (core : CorePage exitSample.layout page) : 0xC0000 ≤ page ∧ page < 0xC0003 := by
  have low : 0xC0000000 ≤ page * 4096 := core.1
  have high : page * 4096 < 0xC0003000 := core.2
  omega

theorem sampleCore_behind {page : Nat} (core : CorePage exitSample.layout page) :
    (phyAddrOf exitSample .vmalloc (frame page)).toNat = (page - 0xC0000 + 5) * 4096 := by
  obtain ⟨low,high⟩ := sampleCore core
  obtain rfl | rfl | rfl : page = 0xC0000 ∨ page = 0xC0001 ∨ page = 0xC0002 := by omega
  all_goals rfl

theorem sampleBehind_inj {page page' : Nat} (core : CorePage exitSample.layout page)
    (core' : CorePage exitSample.layout page') (same : behind exitSample page = behind exitSample page') :
    page = page' := by
  rw [behind,behind,pageOffset,pageOffset,sampleCore_behind core,sampleCore_behind core'] at same
  have first := sampleCore core
  have second := sampleCore core'
  omega

theorem sampleBehind_below {page : Nat} (core : CorePage exitSample.layout page) :
    (phyAddrOf exitSample .vmalloc (frame page)).toNat < maxRamSize 0 := by
  have bounds := sampleCore core
  rw [sampleCore_behind core,maxRamSize_zero]
  omega

def sampleModules : Modules exitSample Unit where
  layout := fun _ => exitSample.layout
  base := fun _ => by decide
  alignedBase := fun _ => by decide
  alignedSize := fun _ => by decide
  alignedRo := fun _ => by decide
  readOnly := fun _ => by decide
  within := fun _ => by decide
  fits := fun _ => by decide
  behindRo := fun _ => by decide
  inside := fun _ => by decide
  disjoint := fun _ _ _ _ _ => rfl
  distinct := fun _ _ _ _ => sampleBehind_inj
  below := fun _ _ => sampleBehind_below

def sampleStart : ModuleState := ⟨.empty,bootState.mem⟩

theorem sampleStart_follows : Follows exitSample [] sampleStart.mem :=
  ⟨eptAfter_tables samplePages (fun _ _ => 0) (show Clipped _ none by simp [Clipped]) [] (by simp),by simp⟩

theorem modules_protected_sample :
    Protected sampleModules [.add (),.remove (),.add ()] (run sampleModules.step sampleStart [.add (),.remove (),.add ()]) := by
  have none : KernelAreas sampleModules [] := by simp [KernelAreas]
  refine modules_protected none rfl sampleStart_follows _ ?_ ?_
  · simp [Along,Fresh,addedStep]
  · simp only [roEvents,List.map_nil,List.nil_append,List.map_cons,Along]
    refine ⟨by decide,by decide,by decide,trivial⟩

/-- A module that is added twice stays registered when it is removed once, but its pages
become writable. -/
theorem double_add_unlocks : ¬ Protected sampleModules [.add (),.add (),.remove ()]
    (run sampleModules.step sampleStart [.add (),.add (),.remove ()]) := by
  intro agree
  have twice := follows_step sampleModules (follows_step sampleModules sampleStart_follows (.add ())) (.add ())
  rw [run_cons,run_cons,run_cons,run_nil] at agree
  generalize reached : sampleModules.step (sampleModules.step sampleStart (.add ())) (.add ()) = s at agree twice
  generalize [] ++ sampleModules.calls sampleStart.table (.add ()) ++
    sampleModules.calls (sampleModules.step sampleStart (.add ())).table (.add ()) = calls at twice
  have table : s.table = (RoTable.empty.step (.add (sampleModules.area ()))).step (.add (sampleModules.area ())) := by
    rw [← reached,step_table,step_table]
    rfl
  have ro : RoPage (sampleModules.layout ()) 0xC0000 := ⟨by decide,by decide⟩
  have found : (hbDeleteRoArea (sampleModules.area ()).start (sampleModules.area ()).stop s.table).1 = 0 := by
    rw [table]
    decide
  have registered : InModuleArea (sampleModules.step s (.remove ())).table (frame 0xC0000) := by
    rw [step_table,table]
    exact ⟨sampleModules.area (),mem_used.mpr ⟨by decide,by decide⟩,rfl,by decide⟩
  have last := setterAfter_remove s.table calls found ro
  rw [if_pos rfl] at last
  have opened := (follows_step sampleModules twice (.remove ())).rights last
  have locked := agree.locked () 0xC0000 ro registered
  have both := (opened 0x5000 (by decide) (by decide)).symm.trans (locked 0x5000 (by decide) (by decide))
  exact absurd both (by decide)

end Sample

end HyperBox.ReadOnly
