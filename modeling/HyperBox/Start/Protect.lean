import HyperBox.Ept.Range
import HyperBox.PageTable.Isolation

/-! The protection steps of `hyper_box_init` and the page-table duplication that follows them,
over one physical memory. Every page of memory that Hyper-box allocates for its control state
is named by a region and an index; the calls of `hb_hide_range` are compared with these. -/
namespace HyperBox.Start
open HyperBox.Library HyperBox.PageTable HyperBox.Ept

/-- What `hb_alloc_vmcs_memory` allocates for each processor. -/
inductive CpuRegion where
  | vmxOnVmcs
  | guestVmcs
  | vmExitStack
  | ioBitmapA
  | ioBitmapB
  | msrBitmap
  | vmreadBitmap
  | vmwriteBitmap
  | virtApicPage
deriving DecidableEq

/-- The memory that Hyper-box allocates for its own control state. -/
inductive Region where
  | eptArray (type : EptType)
  | eptTable (type : EptType) (j : Nat)
  | cpu (region : CpuRegion) (i : Nat)
  | poolArray
  | host (x : PageSource)

def vmcsSize : Nat := 0x2000
def maxHbStackSize : Nat := 0x800000
def ioBitmapSize : Nat := 0x1000
def msrBitmapSize : Nat := 0x1000
def vmreadBitmapSize : Nat := 0x1000
def vmwriteBitmapSize : Nat := 0x1000
def virtApicPageSize : Nat := 0x1000

def vmcsSizeOrder : Nat := vmcsSize / 0x1000 - 1

namespace CpuRegion

def size : CpuRegion → Nat
  | vmxOnVmcs => 0x1000 * 2^vmcsSizeOrder
  | guestVmcs => 0x1000 * 2^vmcsSizeOrder
  | vmExitStack => maxHbStackSize
  | _ => 0x1000

def allocType : CpuRegion → AllocType
  | vmExitStack => .vmalloc
  | _ => .kmalloc

end CpuRegion

/-- Two pages for each 2MB of RAM. -/
def poolMaxCount (ramEnd : Nat) : Nat := maxRamSize ramEnd / (2 * 2^20) * 2

namespace Region

def size (ramEnd : Nat) : Region → Nat
  | eptArray type => (hbAllocEptPages (maxRamSize ramEnd)).pageCount type * 8
  | eptTable _ _ => 0x1000
  | cpu region _ => region.size
  | poolArray => poolMaxCount ramEnd * 8
  | host _ => 0x1000

def allocType : Region → AllocType
  | eptArray _ => .vmalloc
  | eptTable _ _ => .kmalloc
  | cpu region _ => region.allocType
  | poolArray => .vmalloc
  | host _ => .kmalloc

def pageCount (ramEnd : Nat) (r : Region) : Nat := ceil (r.size ramEnd) 0x1000

end Region

/-- What the allocators and the kernel's symbols gave to `hyper_box_init`; `logAddr` is the
virtual address of a region. -/
structure InitLayout (ramEnd : Nat) extends ExitEnv ramEnd where
  cpuCount : Nat
  host : HostPages
  systemRam : Option (List (Nat × Nat))
  kernelRoArea : List (U64 × U64)
  idtAddress : U64
  idtSize : U64
  logAddr : Region → U64

namespace InitLayout
variable {ramEnd : Nat} (env : InitLayout ramEnd)

def Obtains : Region → Prop
  | .eptArray _ => True
  | .eptTable type j => j < (hbAllocEptPages (maxRamSize ramEnd)).pageCount type
  | .cpu _ i => i < env.cpuCount
  | .poolArray => True
  | .host x => env.host.Obtains x

/-- The physical address of a page of a region. -/
def backing (r : Region) (k : Nat) : U64 :=
  phyAddrOf env.toExitEnv r.allocType (env.logAddr r + BitVec.ofNat 64 (k * 0x1000))

def roAddrs : List U64 :=
  env.kernelRoArea.flatMap (fun area => (rangeAddrs area.1 area.2).map env.virtToPhys)

end InitLayout

/-- The allocators return page-aligned memory below the end of the RAM and no page twice. The
RAM fits into the direct mapping of 64TB. -/
structure InitEnv (ramEnd : Nat) extends InitLayout ramEnd where
  directMapping : maxRamSize ramEnd ≤ 2^46
  clipped : Clipped (maxRamSize ramEnd) systemRam
  maxCount : host.maxCount = poolMaxCount ramEnd
  tables : ∀ type j, j < (hbAllocEptPages (maxRamSize ramEnd)).pageCount type →
    virtToPhys (logAddr (.eptTable type j)) = frame (pages.frame type j)
  hostPages : ∀ x, host.Obtains x → virtToPhys (logAddr (.host x)) = host.page x
  aligned : ∀ r, toInitLayout.Obtains r → logAddr r &&& maskPageaddr = logAddr r
  idtAligned : idtAddress &&& maskPageaddr = idtAddress
  fits : ∀ r, toInitLayout.Obtains r → (logAddr r).toNat + r.size ramEnd + 0x1000 ≤ 2^64
  below : ∀ r k, toInitLayout.Obtains r → k < r.pageCount ramEnd →
    (toInitLayout.backing r k).toNat < maxRamSize ramEnd
  roBelow : ∀ phyAddr ∈ toInitLayout.roAddrs, phyAddr.toNat < maxRamSize ramEnd
  distinct : ∀ r r' k k', toInitLayout.Obtains r → toInitLayout.Obtains r' → k < r.pageCount ramEnd →
    k' < r'.pageCount ramEnd → pageOffset (toInitLayout.backing r k) = pageOffset (toInitLayout.backing r' k') →
    r = r' ∧ k = k'

section Init
variable {ramEnd : Nat} (env : InitLayout ramEnd)

def hideAt (r : Region) (size : Nat) (allocType : AllocType) (mem : Mem) : Mem :=
  hbHideRange env.toExitEnv (env.logAddr r) (env.logAddr r + BitVec.ofNat 64 size) allocType mem

def hbProtectKernelRoArea (mem : Mem) : Mem :=
  env.kernelRoArea.foldl (fun mem area => hbLockRange env.toExitEnv area.1 area.2 .kmalloc mem) mem

/-- The end address is rounded down here, and `hb_hide_range` does not round it up again. -/
def hbSetupHostIdtAndProtect (mem : Mem) : Mem :=
  let size := if env.idtSize > 0xFFF then 0xFFF else env.idtSize
  hbHideRange env.toExitEnv env.idtAddress ((env.idtAddress + size) &&& maskPageaddr) .kmalloc mem

def hideArray (type : EptType) (mem : Mem) : Mem :=
  hideAt env (.eptArray type) ((hbAllocEptPages (maxRamSize ramEnd)).pageCount type * 8) .vmalloc mem

def hideTables (type : EptType) (mem : Mem) : Mem :=
  loop ((hbAllocEptPages (maxRamSize ramEnd)).pageCount type)
    (fun i mem => hideAt env (.eptTable type i) 0x1000 .kmalloc mem) mem

def hbProtectEptPages (mem : Mem) : Mem :=
  let mem := hideArray env .pml4 mem
  let mem := hideArray env .pdptePd mem
  let mem := hideArray env .pdept mem
  let mem := hideArray env .pte mem
  let mem := hideTables env .pml4 mem
  let mem := hideTables env .pdptePd mem
  let mem := hideTables env .pdept mem
  hideTables env .pte mem

def hbProtectVmcs (mem : Mem) : Mem :=
  loop env.cpuCount (fun i mem =>
    let mem := hideAt env (.cpu .vmxOnVmcs i) vmcsSize .kmalloc mem
    let mem := hideAt env (.cpu .guestVmcs i) vmcsSize .kmalloc mem
    let mem := hideAt env (.cpu .vmExitStack i) maxHbStackSize .vmalloc mem
    let mem := hideAt env (.cpu .ioBitmapA i) ioBitmapSize .kmalloc mem
    let mem := hideAt env (.cpu .ioBitmapB i) ioBitmapSize .kmalloc mem
    let mem := hideAt env (.cpu .msrBitmap i) msrBitmapSize .kmalloc mem
    let mem := hideAt env (.cpu .vmreadBitmap i) vmreadBitmapSize .kmalloc mem
    let mem := hideAt env (.cpu .vmwriteBitmap i) vmwriteBitmapSize .kmalloc mem
    hideAt env (.cpu .virtApicPage i) virtApicPageSize .kmalloc mem) mem

def protectedMem (mem : Mem) : Mem :=
  let mem := hbSetupEptPagetable4KB env.pages env.systemRam mem
  let mem := hbProtectKernelRoArea env mem
  let mem := hbSetupHostIdtAndProtect env mem
  let mem := hbProtectEptPages env mem
  hbProtectVmcs env mem

/-- The memory pool is set up and the page table duplicated in the memory that results. -/
def initTables (mem : Mem) : HostTables :=
  hbDupPageTableForHost env.host false (hbSetupMemoryPool env.host ⟨protectedMem env mem,0,0,[]⟩)

def hiddenEvents (s : HostTables) : List (Setter × U64) := s.hidden.reverse.map (fun t => (.hide,frame t))

/-- The pages that the pool and the duplication pass to `hb_hide_range` are hidden. Their other
stores go to pages that hold no table of the extended page table, so these calls are made
after them here. -/
def hyperBoxInit (mem : Mem) : Mem :=
  run (Setter.apply env.pages) (initTables env mem).mem (hiddenEvents (initTables env mem))

/-- The region has been allocated when `s` is reached. -/
def Taken (s : HostTables) (r : Region) : Prop :=
  env.Obtains r ∧ ∀ k, r = .host (.kernel k) → k < s.allocIndex

def NoAccess (mem : Mem) (phyAddr : U64) : Prop :=
  ∃ leaf, (eptTranslate env.pages mem phyAddr.toNat).2 = some leaf ∧ leaf.rights = ⟨false,false,false⟩

def RegionHidden (mem : Mem) (r : Region) : Prop :=
  ∀ k < r.pageCount ramEnd, NoAccess env mem (env.backing r k)

/-- Every page of Hyper-box's control state is out of reach of the guest. -/
def ControlStateHidden (mem : Mem) : Prop :=
  ∀ r, Taken env (initTables env mem) r → RegionHidden env (hyperBoxInit env mem) r

end Init

section Events
variable {ramEnd : Nat} (env : InitEnv ramEnd)

def regionEvents (r : Region) : List (Setter × U64) :=
  (List.range (r.pageCount ramEnd)).map (fun k => (.hide,env.backing r k))

def lockEvents : List (Setter × U64) := env.roAddrs.map (fun phyAddr => (.lock,phyAddr))

def cpuRegions (i : Nat) : List Region :=
  [.cpu .vmxOnVmcs i,.cpu .guestVmcs i,.cpu .vmExitStack i,.cpu .ioBitmapA i,.cpu .ioBitmapB i,
    .cpu .msrBitmap i,.cpu .vmreadBitmap i,.cpu .vmwriteBitmap i,.cpu .virtApicPage i]

def tableRegions (ramEnd : Nat) (type : EptType) : List Region :=
  (List.range ((hbAllocEptPages (maxRamSize ramEnd)).pageCount type)).map (.eptTable type)

def protectedRegions : List Region :=
  [.eptArray .pml4,.eptArray .pdptePd,.eptArray .pdept,.eptArray .pte] ++
    (tableRegions ramEnd .pml4 ++ tableRegions ramEnd .pdptePd ++ tableRegions ramEnd .pdept ++
      tableRegions ramEnd .pte) ++
    (List.range env.cpuCount).flatMap cpuRegions

variable {env}

theorem hideAt_run {r : Region} (obtained : env.Obtains r) {n : Nat} (size : n = r.size ramEnd)
    {allocType : AllocType} (type : allocType = r.allocType) (mem : Mem) :
    hideAt env.toInitLayout r n allocType mem = run (Setter.apply env.pages) mem (regionEvents env r) := by
  subst size type
  rw [hideAt,hbHideRange,setRange,rangeAddrs_pages (env.aligned r obtained) (env.fits r obtained),List.map_map]
  rfl

theorem hideTables_run (type : EptType) (mem : Mem) :
    hideTables env.toInitLayout type mem =
      run (Setter.apply env.pages) mem ((tableRegions ramEnd type).flatMap (regionEvents env)) := by
  rw [tableRegions,List.flatMap_map]
  exact loop_run (fun i bound mem => hideAt_run (r := .eptTable type i) bound rfl rfl mem) mem

theorem hbProtectEptPages_run (mem : Mem) :
    hbProtectEptPages env.toInitLayout mem = run (Setter.apply env.pages) mem
      ([.eptArray .pml4,.eptArray .pdptePd,.eptArray .pdept,.eptArray .pte].flatMap (regionEvents env) ++
        (tableRegions ramEnd .pml4 ++ tableRegions ramEnd .pdptePd ++ tableRegions ramEnd .pdept ++
          tableRegions ramEnd .pte).flatMap (regionEvents env)) := by
  have array : ∀ type mem, hideArray env.toInitLayout type mem =
      run (Setter.apply env.pages) mem (regionEvents env (.eptArray type)) :=
    fun type mem => hideAt_run (r := .eptArray type) trivial rfl rfl mem
  simp only [hbProtectEptPages,hideTables_run,array,List.flatMap_append,List.flatMap_cons,List.flatMap_nil,
    List.append_nil,run_append]

theorem hbProtectVmcs_run (mem : Mem) :
    hbProtectVmcs env.toInitLayout mem = run (Setter.apply env.pages) mem
      (((List.range env.cpuCount).flatMap cpuRegions).flatMap (regionEvents env)) := by
  rw [List.flatMap_assoc]
  refine loop_run (fun i bound mem => ?_) mem
  have hide : ∀ (region : CpuRegion) n allocType mem, n = region.size → allocType = region.allocType →
      hideAt env.toInitLayout (.cpu region i) n allocType mem =
        run (Setter.apply env.pages) mem (regionEvents env (.cpu region i)) :=
    fun region n allocType mem size type => hideAt_run (r := .cpu region i) bound size type mem
  simp only [cpuRegions,List.flatMap_cons,List.flatMap_nil,List.append_nil,run_append]
  rw [hide .vmxOnVmcs vmcsSize .kmalloc _ (by decide) rfl,hide .guestVmcs vmcsSize .kmalloc _ (by decide) rfl,
    hide .vmExitStack maxHbStackSize .vmalloc _ rfl rfl,hide .ioBitmapA ioBitmapSize .kmalloc _ rfl rfl,
    hide .ioBitmapB ioBitmapSize .kmalloc _ rfl rfl,hide .msrBitmap msrBitmapSize .kmalloc _ rfl rfl,
    hide .vmreadBitmap vmreadBitmapSize .kmalloc _ rfl rfl,hide .vmwriteBitmap vmwriteBitmapSize .kmalloc _ rfl rfl,
    hide .virtApicPage virtApicPageSize .kmalloc _ rfl rfl]

theorem hbProtectKernelRoArea_run (mem : Mem) :
    hbProtectKernelRoArea env.toInitLayout mem = run (Setter.apply env.pages) mem (lockEvents env) := by
  unfold hbProtectKernelRoArea lockEvents InitLayout.roAddrs
  generalize env.kernelRoArea = areas
  induction areas generalizing mem with
  | nil => rfl
  | cons area rest ih =>
    rw [List.foldl_cons,ih,List.flatMap_cons,List.map_append,run_append,List.map_map]
    rfl

/-- The range passed for the host's IDT is empty: the IDT is left open. -/
theorem hbSetupHostIdtAndProtect_nothing (mem : Mem) : hbSetupHostIdtAndProtect env.toInitLayout mem = mem := by
  have first := aligned_toNat env.idtAligned
  have bound := env.idtAddress.isLt
  generalize size : (if env.idtSize > 0xFFF then 0xFFF else env.idtSize) = n
  have small : n.toNat ≤ 0xFFF := by
    rw [← size]
    split
    · decide
    next clamped => simpa [BitVec.lt_def] using clamped
  have page : pageOf (env.idtAddress + n) = pageOf env.idtAddress := by
    rw [pageOf,pageOf,BitVec.toNat_add]
    omega
  simp only [hbSetupHostIdtAndProtect,size,hbHideRange,setRange]
  rw [rangeAddrs_rounded,page,Nat.sub_self]
  rfl

variable (env) in
def protectEvents : List (Setter × U64) := lockEvents env ++ (protectedRegions env).flatMap (regionEvents env)

theorem protectedMem_eq (mem : Mem) :
    protectedMem env.toInitLayout mem = eptAfter env.pages mem env.systemRam (protectEvents env) := by
  simp only [protectedMem,hbProtectKernelRoArea_run,hbSetupHostIdtAndProtect_nothing,hbProtectEptPages_run,
    hbProtectVmcs_run,eptAfter,protectEvents,protectedRegions,List.flatMap_append,run_append]

theorem mem_protectedRegions (r : Region) :
    r ∈ protectedRegions env ↔ env.Obtains r ∧ r ≠ .poolArray ∧ ∀ x, r ≠ .host x := by
  cases r with
  | eptArray type => cases type <;> simp [protectedRegions,InitLayout.Obtains]
  | eptTable type j =>
    cases type <;> simp [protectedRegions,tableRegions,cpuRegions,InitLayout.Obtains]
  | cpu region i =>
    cases region <;> simp [protectedRegions,tableRegions,cpuRegions,InitLayout.Obtains]
  | poolArray => simp [protectedRegions,tableRegions,cpuRegions]
  | host x => simp [protectedRegions,tableRegions,cpuRegions]

theorem protectEvents_below {event : Setter × U64} (member : event ∈ protectEvents env) :
    event.2.toNat < maxRamSize ramEnd := by
  rcases List.mem_append.mp member with lock | hide
  · obtain ⟨phyAddr,listed,rfl⟩ := List.mem_map.mp lock
    exact env.roBelow phyAddr listed
  · obtain ⟨r,protect,inside⟩ := List.mem_flatMap.mp hide
    obtain ⟨k,bound,rfl⟩ := List.mem_map.mp inside
    exact env.below r k ((mem_protectedRegions r).mp protect).1 (List.mem_range.mp bound)

end Events

section Rights
variable {before hides : List (Setter × U64)} {page : Nat}

theorem rightsAfter_hidden (only : ∀ event ∈ hides, event.1 = .hide)
    (touched : ∃ event ∈ hides, pageOffset event.2 = page) :
    rightsAfter (before ++ hides) page = ⟨false,false,false⟩ := by
  have some : hides.filter (fun event => pageOffset event.2 = page) ≠ [] := by
    obtain ⟨event,member,here⟩ := touched
    exact List.ne_nil_of_mem (List.mem_filter.mpr ⟨member,decide_eq_true here⟩)
  have last := List.getLast?_eq_getLast_of_ne_nil some
  have hide := only _ (List.mem_of_mem_filter (List.getLast_mem some))
  rw [rightsAfter,lastSetter,List.filter_append,List.getLast?_append_of_ne_nil _ some,last,Option.map_some,hide]
  rfl

theorem rightsAfter_spared (spared : ∀ event ∈ hides, pageOffset event.2 ≠ page) :
    rightsAfter (before ++ hides) page = rightsAfter before page := by
  have none : hides.filter (fun event => pageOffset event.2 = page) = [] := by simpa using spared
  rw [rightsAfter,lastSetter,List.filter_append,none,List.append_nil]
  rfl

theorem rightsAfter_locked (only : ∀ event ∈ before, event.1 = .lock) :
    rightsAfter before page ≠ ⟨false,false,false⟩ := by
  unfold rightsAfter
  cases last : lastSetter before page with
  | none => decide
  | some setter =>
    obtain ⟨event,found,rfl⟩ := Option.map_eq_some_iff.mp last
    have lock := only event (List.mem_of_mem_filter (List.mem_of_getLast? found))
    rw [lock]
    decide

end Rights

section Hidden
variable {ramEnd : Nat} {env : InitEnv ramEnd} {mem : Mem}

theorem pageCount_host (x : PageSource) : (Region.host x).pageCount ramEnd = 1 := by
  simp [Region.pageCount,Region.size,ceil]

theorem pageCount_table (type : EptType) (j : Nat) : (Region.eptTable type j).pageCount ramEnd = 1 := by
  simp [Region.pageCount,Region.size,ceil]

theorem phyAddr_first (r : Region) : env.logAddr r + BitVec.ofNat 64 (0 * 0x1000) = env.logAddr r := by simp

theorem backing_host {x : PageSource} (obtained : env.host.Obtains x) :
    env.backing (.host x) 0 = env.host.page x := by
  rw [InitLayout.backing,phyAddr_first]
  exact env.hostPages x obtained

theorem backing_table {type : EptType} {j : Nat}
    (obtained : j < (hbAllocEptPages (maxRamSize ramEnd)).pageCount type) :
    env.backing (.eptTable type j) 0 = frame (env.pages.frame type j) := by
  rw [InitLayout.backing,phyAddr_first]
  exact env.tables type j obtained

theorem pageOffset_frame {n : Nat} (bound : n < 2^52) : pageOffset (frame n) = n := pageOf_frame bound

theorem pageOffset_page (phyAddr : U64) : pageOffset (frame (pageOf phyAddr)) = pageOffset phyAddr := by
  have bound := phyAddr.isLt
  rw [pageOffset_frame (by rw [pageOf]; omega)]
  rfl

theorem mem_hiddenEvents (s : HostTables) (event : Setter × U64) :
    event ∈ hiddenEvents s ↔ ∃ t ∈ s.hidden, event = (.hide,frame t) := by
  simp [hiddenEvents,eq_comm]

theorem table_foreign {type : EptType} {j : Nat}
    (obtained : j < (hbAllocEptPages (maxRamSize ramEnd)).pageCount type) :
    ¬ env.host.Owned (env.pages.frame type j) := by
  rintro ⟨x,valid,same⟩
  have bound := env.pages.bound type j obtained
  have apart := env.distinct (.eptTable type j) (.host x) 0 0 obtained valid
    (by rw [pageCount_table]; exact Nat.one_pos) (by rw [pageCount_host]; exact Nat.one_pos) (by
    rw [backing_table obtained,backing_host valid,pageOffset_frame (by omega),same]
    rfl)
  cases apart.1

theorem initTables_hidden (room : (initTables env.toInitLayout mem).allocIndex ≤ env.host.allocCount) (t : Nat) :
    t ∈ (initTables env.toInitLayout mem).hidden ↔
      ∃ x, Taken env.toInitLayout (initTables env.toInitLayout mem) (.host x) ∧ t = pageOf (env.host.page x) := by
  have hidden := duplicated_hidden env.host (protectedMem env.toInitLayout mem) 0 t
    (s := initTables env.toInitLayout mem) (by rw [initTables]) room
  rw [hidden]
  constructor
  · rintro ⟨x,obtained,taken,rfl⟩
    exact ⟨x,⟨obtained,fun k same => taken k (Region.host.inj same)⟩,rfl⟩
  · rintro ⟨x,⟨obtained,taken⟩,rfl⟩
    exact ⟨x,obtained,fun k same => taken k (congrArg Region.host same),rfl⟩

theorem initTables_tables (room : (initTables env.toInitLayout mem).allocIndex ≤ env.host.allocCount)
    {type : EptType} {j : Nat} (obtained : j < (hbAllocEptPages (maxRamSize ramEnd)).pageCount type) :
    (initTables env.toInitLayout mem).mem (env.pages.frame type j) =
      protectedMem env.toInitLayout mem (env.pages.frame type j) := by
  have copies := @hbDupPageTableForHost_copies env.host
    (hbSetupMemoryPool env.host ⟨protectedMem env.toInitLayout mem,0,0,[]⟩)
  rw [← initTables] at copies
  rw [(copies room).2.1 _ (table_foreign obtained),(hbSetupMemoryPool_tables _ _).1]

theorem EptTables.congr {info : EptInfo} {pages : EptPages info} {flags : Nat → U64} {mem mem' : Mem}
    (tables : EptTables pages flags mem) (one : 0 < info.pml4PageCount)
    (same : ∀ type j, j < info.pageCount type → mem' (pages.frame type j) = mem (pages.frame type j)) :
    EptTables pages flags mem' := by
  refine ⟨?_,?_,?_,?_⟩
  · intro i
    rw [same .pml4 0 one]
    exact tables.pml4 i
  · intro j within i
    rw [same .pdptePd j within]
    exact tables.pdptePd j within i
  · intro j within i
    rw [same .pdept j within]
    exact tables.pdept j within i
  · intro j within i
    rw [same .pte j within]
    exact tables.pte j within i

variable (env mem) in
def hideEventsAll : List (Setter × U64) :=
  (protectedRegions env).flatMap (regionEvents env) ++ hiddenEvents (initTables env.toInitLayout mem)

theorem hide_only {event : Setter × U64} (member : event ∈ hideEventsAll env mem) : event.1 = .hide := by
  rcases List.mem_append.mp member with early | late
  · obtain ⟨r,_,member⟩ := List.mem_flatMap.mp early
    obtain ⟨k,_,rfl⟩ := List.mem_map.mp member
    rfl
  · obtain ⟨t,_,rfl⟩ := (mem_hiddenEvents _ _).mp late
    rfl

theorem lock_only {event : Setter × U64} (member : event ∈ lockEvents env) : event.1 = .lock := by
  obtain ⟨phyAddr,_,rfl⟩ := List.mem_map.mp member
  rfl

theorem poolArray_pages : 0 < Region.poolArray.pageCount ramEnd := by
  have large : 4 * 2^30 ≤ maxRamSize ramEnd := by
    unfold maxRamSize ceil
    split <;> omega
  simp only [Region.pageCount,Region.size,poolMaxCount,ceil]
  omega

section Room
variable (room : (initTables env.toInitLayout mem).allocIndex ≤ env.host.allocCount)
include room

/-- The pages that are hidden are those of every region but the pool's array of pointers. -/
theorem hide_pages (page : Nat) :
    (∃ event ∈ hideEventsAll env mem, pageOffset event.2 = page) ↔
      ∃ r k, Taken env.toInitLayout (initTables env.toInitLayout mem) r ∧ r ≠ .poolArray ∧
        k < r.pageCount ramEnd ∧ pageOffset (env.backing r k) = page := by
  constructor
  · rintro ⟨event,member,rfl⟩
    rcases List.mem_append.mp member with early | late
    · obtain ⟨r,protect,member⟩ := List.mem_flatMap.mp early
      obtain ⟨k,bound,rfl⟩ := List.mem_map.mp member
      obtain ⟨obtained,other,apart⟩ := (mem_protectedRegions r).mp protect
      exact ⟨r,k,⟨obtained,fun j same => absurd same (apart _)⟩,other,List.mem_range.mp bound,rfl⟩
    · obtain ⟨t,hidden,rfl⟩ := (mem_hiddenEvents _ _).mp late
      obtain ⟨x,taken,rfl⟩ := (initTables_hidden room t).mp hidden
      refine ⟨.host x,0,taken,nofun,by rw [pageCount_host]; exact Nat.one_pos,?_⟩
      rw [backing_host taken.1,pageOffset_page]
  · rintro ⟨r,k,taken,other,bound,rfl⟩
    by_cases host : ∃ x, r = .host x
    · obtain ⟨x,rfl⟩ := host
      rw [pageCount_host,Nat.lt_one_iff] at bound
      subst bound
      have hidden := (initTables_hidden room _).mpr ⟨x,taken,rfl⟩
      refine ⟨(.hide,frame (pageOf (env.host.page x))),
        List.mem_append_right _ ((mem_hiddenEvents _ _).mpr ⟨_,hidden,rfl⟩),?_⟩
      rw [backing_host taken.1,pageOffset_page]
    · have protect := (mem_protectedRegions r).mpr ⟨taken.1,other,fun x same => host ⟨x,same⟩⟩
      refine ⟨(.hide,env.backing r k),List.mem_append_left _ (List.mem_flatMap.mpr ⟨r,protect,?_⟩),rfl⟩
      exact List.mem_map.mpr ⟨k,List.mem_range.mpr bound,rfl⟩

theorem hiddenEvents_below {event : Setter × U64} (member : event ∈ hiddenEvents (initTables env.toInitLayout mem)) :
    event.2.toNat < maxRamSize ramEnd := by
  obtain ⟨t,hidden,rfl⟩ := (mem_hiddenEvents _ _).mp member
  obtain ⟨x,taken,rfl⟩ := (initTables_hidden room t).mp hidden
  have below := env.below (.host x) 0 taken.1 (by rw [pageCount_host]; exact Nat.one_pos)
  have page := pageOffset_page (env.host.page x)
  have aligned := maxRamSize_aligned ramEnd
  rw [backing_host taken.1] at below
  rw [pageOffset,pageOffset] at page
  dsimp only
  omega

theorem init_translate {a : Nat} (bound : a < 2^48) :
    (eptTranslate env.pages (hyperBoxInit env.toInitLayout mem) a).2 =
      some ⟨a,rightsAfter (lockEvents env ++ hideEventsAll env mem) (a / 4096),6⟩ := by
  have first := eptAfter_tables env.pages mem env.clipped (protectEvents env)
    (fun event member => protectEvents_below member)
  rw [← protectedMem_eq] at first
  have between := EptTables.congr first Nat.one_pos (fun _ _ obtained => initTables_tables room obtained)
  have last := run_tables env.pages between (hiddenEvents (initTables env.toInitLayout mem))
    (fun event member => hiddenEvents_below room member)
  rw [hideEventsAll,← List.append_assoc]
  refine setter_translate env.pages last ?_ bound
  intro event member
  rcases List.mem_append.mp member with early | late
  · exact protectEvents_below early
  · exact hiddenEvents_below room late

theorem noAccess_iff {r : Region} {k : Nat} (obtained : env.Obtains r) (inside : k < r.pageCount ramEnd) :
    NoAccess env.toInitLayout (hyperBoxInit env.toInitLayout mem) (env.backing r k) ↔
      rightsAfter (lockEvents env ++ hideEventsAll env mem) (pageOffset (env.backing r k)) =
        ⟨false,false,false⟩ := by
  have below := env.below r k obtained inside
  have bound := env.directMapping
  have leaf := init_translate room (a := (env.backing r k).toNat) (by omega)
  unfold NoAccess
  rw [leaf]
  simp [pageOffset]

theorem poolArray_unhidden {k : Nat} (inside : k < Region.poolArray.pageCount ramEnd) :
    ¬ NoAccess env.toInitLayout (hyperBoxInit env.toInitLayout mem) (env.backing .poolArray k) := by
  rw [noAccess_iff room (r := .poolArray) trivial inside,rightsAfter_spared]
  · exact rightsAfter_locked (fun event member => lock_only member)
  · intro event member page
    obtain ⟨r,k',taken,other,inside',page'⟩ := (hide_pages room _).mp ⟨event,member,page⟩
    exact other (env.distinct r .poolArray k' k taken.1 trivial inside' inside page').1

theorem not_controlStateHidden : ¬ ControlStateHidden env.toInitLayout mem := by
  intro hidden
  exact poolArray_unhidden room poolArray_pages (hidden .poolArray ⟨trivial,nofun⟩ 0 poolArray_pages)

/-- After the protection steps every page of every region is out of the guest's reach, except
the memory pool's array of page pointers, which is never hidden on any machine. -/
theorem pool_array_stays_open :
    (∀ r, Taken env.toInitLayout (initTables env.toInitLayout mem) r →
      (RegionHidden env.toInitLayout (hyperBoxInit env.toInitLayout mem) r ↔ r ≠ .poolArray)) ∧
    (∀ k < Region.poolArray.pageCount ramEnd,
      ¬ NoAccess env.toInitLayout (hyperBoxInit env.toInitLayout mem) (env.backing .poolArray k)) ∧
    ¬ ControlStateHidden env.toInitLayout mem := by
  refine ⟨fun r taken => ⟨?_,?_⟩,fun k inside => poolArray_unhidden room inside,not_controlStateHidden room⟩
  · rintro hidden rfl
    exact poolArray_unhidden room poolArray_pages (hidden 0 poolArray_pages)
  · intro other k inside
    rw [noAccess_iff room taken.1 inside]
    exact rightsAfter_hidden (fun event member => hide_only member)
      ((hide_pages room _).mpr ⟨r,k,taken,other,inside,rfl⟩)

end Room

end Hidden

section Sample

theorem dupTable_empty {pages : HostPages} {level org vm : Nat} {s : HostTables} (apart : org ≠ vm)
    (empty : ∀ i, s.mem org i = 0) :
    (dupTable pages (level+1) org vm s).allocIndex = s.allocIndex ∧
      ∀ i, (dupTable pages (level+1) org vm s).mem org i = 0 := by
  rw [dupTable]
  refine loop_invariant (fun _ (s' : HostTables) => s'.allocIndex = s.allocIndex ∧ ∀ i, s'.mem org i = 0)
    ⟨rfl,empty⟩ ?_
  intro i _ s' kept
  obtain ⟨allocs,clear⟩ := kept
  have plain : dupEntry pages (dupTable pages level) org vm (Fin.ofNat 512 i) s' =
      { s' with mem := s'.mem.write vm (Fin.ofNat 512 i) (s'.mem org (Fin.ofNat 512 i)) } :=
    if_pos (.inl (clear _))
  rw [plain]
  refine ⟨allocs,fun j => ?_⟩
  dsimp only
  rw [Paged.write_page_ne _ _ _ apart]
  exact clear j

theorem duplicate_empty {pages : HostPages} {s : HostTables}
    (empty : ∀ i, s.mem (pageOf pages.initPml4) i = 0) (foreign : ¬ pages.Owned (pageOf pages.initPml4)) :
    (hbDupPageTableForHost pages false s).allocIndex = s.allocIndex := by
  have zeroed : ∀ i, (zeroedPml4 pages s).mem (pageOf pages.initPml4) i = 0 := by
    rw [zeroedPml4_outside s foreign]
    exact empty
  have apart : pageOf pages.initPml4 ≠ pages.root := fun same => foreign ⟨.pml4,trivial,same⟩
  simp only [hbDupPageTableForHost,Bool.false_eq_true,if_false]
  exact (dupTable_empty apart zeroed).1

def hostFrame : PageSource → Nat
  | .pml4 => 2
  | .pml4Next => 3
  | .pool k => 0x20000 + k
  | .kernel k => 0x30000 + k

theorem hostFrame_bound {x : PageSource} (within : x.Within 16 5120) : 0 < hostFrame x ∧ hostFrame x < 0x40000 := by
  cases x with
  | pml4 | pml4Next => exact ⟨by decide,by decide⟩
  | pool k | kernel k =>
    simp only [hostFrame,PageSource.Within] at within ⊢
    omega

theorem hostFrame_nonzero (x : PageSource) (within : x.Within 16 5120) : frame (hostFrame x) ≠ 0 := by
  intro zero
  obtain ⟨positive,bound⟩ := hostFrame_bound within
  have page := pageOf_frame (Nat.lt_trans bound (by decide))
  rw [zero] at page
  have nothing : pageOf 0 = 0 := by decide
  omega

theorem hostFrame_inj {x y : PageSource} (hx : x.Within 16 5120) (hy : y.Within 16 5120)
    (same : hostFrame x = hostFrame y) : x = y := by
  cases x <;> cases y <;> simp_all [hostFrame,PageSource.Within] <;> omega

theorem hostFrame_distinct (x y : PageSource) (hx : x.Within 16 5120) (hy : y.Within 16 5120)
    (same : pageOf (frame (hostFrame x)) = pageOf (frame (hostFrame y))) : x = y := by
  have boundX := (hostFrame_bound hx).2
  have boundY := (hostFrame_bound hy).2
  rw [pageOf_frame (by omega),pageOf_frame (by omega)] at same
  exact hostFrame_inj hx hy same

theorem hostFrame_aligned (x : PageSource) (within : x.Within 16 5120) :
    getAddr (frame (hostFrame x)) = frame (hostFrame x) := by
  have bound := (hostFrame_bound within).2
  exact getAddr_frame (by omega)

theorem hostFrame_adjacent : frame (hostFrame .pml4Next) = frame (hostFrame .pml4) + val4KB := by decide

def sampleHost : HostPages where
  initPml4 := frame 0x90000
  page := fun x => frame (hostFrame x)
  allocCount := 16
  maxCount := 5120
  adjacent := hostFrame_adjacent
  aligned := hostFrame_aligned
  nonzero := hostFrame_nonzero
  distinct := hostFrame_distinct

def eptOrder : EptType → Nat
  | .pml4 => 0
  | .pdptePd => 1
  | .pdept => 2
  | .pte => 3

def cpuOrder : CpuRegion → Nat
  | .vmxOnVmcs => 0
  | .guestVmcs => 1
  | .vmExitStack => 2
  | .ioBitmapA => 3
  | .ioBitmapB => 4
  | .msrBitmap => 5
  | .vmreadBitmap => 6
  | .vmwriteBitmap => 7
  | .virtApicPage => 8

def sampleFrame : Region → Nat
  | .eptArray type => 0x40000 + 0x100 * eptOrder type
  | .eptTable type j => samplePages.frame type j
  | .cpu region i => 0x50000 + 0x10000 * i + 0x1000 * cpuOrder region
  | .poolArray => 0x80000
  | .host x => hostFrame x

/-- The direct mapping begins at the first of these pages, the area of `vmalloc` at the second. -/
def mappingBase : AllocType → Nat
  | .kmalloc => 0xffff880000000
  | .vmalloc => 0xffffc90000000

def sampleLayout : InitLayout 0 where
  pages := samplePages
  layout := exitSample.layout
  taskPool := exitSample.taskPool
  taskPoolSize := exitSample.taskPoolSize
  virtToPhys := fun addr => addr - frame (mappingBase .kmalloc)
  vmallocToPfn := fun addr => (addr - frame (mappingBase .vmalloc)) >>> 12
  jiffiesToMsecs := exitSample.jiffiesToMsecs
  systemRunning := 2
  roArray := []
  workaround := []
  sleepNotify := exitSample.sleepNotify
  sleepBacking := exitSample.sleepBacking
  sleepBelow := exitSample.sleepBelow
  cpuCount := 2
  host := sampleHost
  systemRam := none
  kernelRoArea := []
  idtAddress := frame 0x91000
  idtSize := 0xFFF
  logAddr := fun r => frame (sampleFrame r + mappingBase r.allocType)

theorem pageCount_zero (type : EptType) : (hbAllocEptPages (maxRamSize 0)).pageCount type =
    match type with
    | .pml4 => 1
    | .pdptePd => 512
    | .pdept => 5
    | .pte => 2560 := by
  cases type <;> simp [EptInfo.pageCount,hbAllocEptPages,ceil,maxRamSize_zero]

theorem cpuOrder_inj {region region' : CpuRegion} (same : cpuOrder region = cpuOrder region') :
    region = region' := by
  cases region <;> cases region' <;> first | rfl | cases same

theorem eptOrder_inj {type type' : EptType} (same : eptOrder type = eptOrder type') : type = type' := by
  cases type <;> cases type' <;> first | rfl | cases same

theorem cpuRegion_bound (region : CpuRegion) : cpuOrder region ≤ 8 ∧ ceil region.size 0x1000 ≤ 0x800 := by
  cases region <;> exact ⟨by decide,by decide⟩

theorem eptArray_bound (type : EptType) : eptOrder type ≤ 3 ∧ (Region.eptArray type).pageCount 0 ≤ 5 := by
  have count := pageCount_zero type
  cases type <;> simp only [Region.pageCount,Region.size,eptOrder,ceil] at count ⊢ <;> rw [count] <;> decide

theorem poolArray_count : Region.poolArray.pageCount 0 = 10 := by
  simp [Region.pageCount,Region.size,poolMaxCount,ceil,maxRamSize_zero]

theorem tableFrame_place {type : EptType} {j : Nat} (obtained : j < (hbAllocEptPages (maxRamSize 0)).pageCount type) :
    samplePages.frame type j = 1 ∨ 0x1000 ≤ samplePages.frame type j ∧ samplePages.frame type j < 0x20000 := by
  rw [pageCount_zero] at obtained
  cases type <;> simp only [samplePages] at obtained ⊢ <;> omega

theorem hostFrame_place {x : PageSource} (within : x.Within 16 5120) :
    hostFrame x = 2 ∨ hostFrame x = 3 ∨ 0x20000 ≤ hostFrame x ∧ hostFrame x < 0x40000 := by
  cases x with
  | pml4 => exact .inl rfl
  | pml4Next => exact .inr (.inl rfl)
  | pool k | kernel k =>
    simp only [hostFrame,PageSource.Within] at within ⊢
    omega

def SamplePlace (r : Region) (k : Nat) : Prop :=
  match r with
  | .eptArray type => k < 0x100 ∧ eptOrder type ≤ 3
  | .eptTable type j => k = 0 ∧ j < (hbAllocEptPages (maxRamSize 0)).pageCount type ∧
    (sampleFrame r = 1 ∨ 0x1000 ≤ sampleFrame r ∧ sampleFrame r < 0x20000)
  | .cpu region i => k < 0x1000 ∧ i < 2 ∧ cpuOrder region ≤ 8
  | .poolArray => k < 0x100
  | .host x => k = 0 ∧ x.Within 16 5120 ∧
    (sampleFrame r = 2 ∨ sampleFrame r = 3 ∨ 0x20000 ≤ sampleFrame r ∧ sampleFrame r < 0x40000)

theorem samplePlace {r : Region} (obtained : sampleLayout.Obtains r) {k : Nat} (inside : k < r.pageCount 0) :
    SamplePlace r k := by
  cases r with
  | eptArray type =>
    obtain ⟨order,count⟩ := eptArray_bound type
    exact ⟨by omega,order⟩
  | eptTable type j =>
    rw [pageCount_table,Nat.lt_one_iff] at inside
    exact ⟨inside,obtained,tableFrame_place obtained⟩
  | cpu region i =>
    obtain ⟨order,count⟩ := cpuRegion_bound region
    exact ⟨Nat.lt_of_lt_of_le inside (count.trans (by decide)),obtained,order⟩
  | poolArray =>
    rw [poolArray_count] at inside
    exact Nat.lt_trans inside (by decide)
  | host x =>
    rw [pageCount_host,Nat.lt_one_iff] at inside
    exact ⟨inside,obtained,hostFrame_place obtained⟩

theorem sampleFrame_inj {r r' : Region} {k k' : Nat} (place : SamplePlace r k) (place' : SamplePlace r' k')
    (same : sampleFrame r + k = sampleFrame r' + k') : r = r' ∧ k = k' := by
  cases r with
  | eptArray type =>
    cases r' with
    | eptArray type' =>
      simp only [SamplePlace,sampleFrame] at place place' same
      have order : eptOrder type = eptOrder type' := by omega
      exact ⟨by rw [eptOrder_inj order],by omega⟩
    | _ =>
      simp only [SamplePlace,sampleFrame] at place place' same
      omega
  | eptTable type j =>
    cases r' with
    | eptTable type' j' =>
      obtain ⟨rfl,obtained,_⟩ := place
      obtain ⟨rfl,obtained',_⟩ := place'
      obtain ⟨rfl,rfl⟩ := samplePages.distinct type type' j j' obtained obtained' same
      exact ⟨rfl,rfl⟩
    | _ =>
      simp only [SamplePlace,sampleFrame] at place place' same
      omega
  | cpu region i =>
    cases r' with
    | cpu region' i' =>
      simp only [SamplePlace,sampleFrame] at place place' same
      have order : cpuOrder region = cpuOrder region' := by omega
      have number : i = i' := by omega
      exact ⟨by rw [cpuOrder_inj order,number],by omega⟩
    | _ =>
      simp only [SamplePlace,sampleFrame] at place place' same
      omega
  | poolArray =>
    cases r' with
    | poolArray => exact ⟨rfl,by simpa using same⟩
    | _ =>
      simp only [SamplePlace,sampleFrame] at place place' same
      omega
  | host x =>
    cases r' with
    | host x' =>
      obtain ⟨rfl,obtained,_⟩ := place
      obtain ⟨rfl,obtained',_⟩ := place'
      exact ⟨by rw [hostFrame_inj obtained obtained' same],rfl⟩
    | _ =>
      simp only [SamplePlace,sampleFrame] at place place' same
      omega

theorem sampleFrame_bound {r : Region} {k : Nat} (place : SamplePlace r k) : sampleFrame r + k < 0x100000 := by
  cases r with
  | _ =>
    simp only [SamplePlace,sampleFrame] at place ⊢
    omega

theorem frame_toNat {n : Nat} (bound : n < 2^52) : (frame n).toNat = n * 4096 := by
  rw [frame,BitVec.toNat_ofNat]
  omega

theorem frame_aligned {n : Nat} (bound : n < 2^52) : frame n &&& maskPageaddr = frame n := by
  rw [address_frame,frame_toNat bound]
  congr 1
  omega

theorem frame_shift {n : Nat} (bound : n < 2^52) : (frame n >>> 12) <<< 12 = frame n := by
  apply BitVec.eq_of_toNat_eq
  rw [BitVec.toNat_shiftLeft,BitVec.toNat_ushiftRight,frame_toNat bound,Nat.shiftRight_eq_div_pow,
    Nat.shiftLeft_eq]
  omega

theorem frame_cancel (m n : Nat) : frame (m + n) - frame n = frame m := by
  rw [frame_add,BitVec.add_sub_cancel]

theorem sample_backing {r : Region} {k : Nat} (place : SamplePlace r k) :
    sampleLayout.backing r k = frame (sampleFrame r + k) := by
  have bound := sampleFrame_bound place
  have addr : sampleLayout.logAddr r + BitVec.ofNat 64 (k * 0x1000) =
      frame (sampleFrame r + k + mappingBase r.allocType) := by
    rw [Nat.add_right_comm,frame_add (sampleFrame r + mappingBase r.allocType) k]
    rfl
  rw [InitLayout.backing,addr]
  cases r.allocType with
  | kmalloc => exact frame_cancel _ _
  | vmalloc =>
    simp only [phyAddrOf,sampleLayout]
    rw [frame_cancel,frame_shift (by omega)]

theorem mappingBase_bound (type : AllocType) : mappingBase type ≤ 0xffffc90000000 := by
  cases type <;> decide

theorem region_size (r : Region) : 0 < r.size 0 ∧ r.size 0 ≤ 0x800000 := by
  cases r with
  | eptArray type =>
    rw [Region.size,pageCount_zero]
    cases type <;> decide
  | eptTable type j =>
    rw [Region.size]
    decide
  | cpu region i =>
    rw [Region.size]
    cases region <;> decide
  | poolArray =>
    rw [Region.size,poolMaxCount,maxRamSize_zero]
    decide
  | host x =>
    rw [Region.size]
    decide

theorem sampleFrame_small {r : Region} (obtained : sampleLayout.Obtains r) : sampleFrame r < 0x100000 := by
  have size := region_size r
  have one : 0 < r.pageCount 0 := by
    rw [Region.pageCount,ceil]
    omega
  exact sampleFrame_bound (k := 0) (samplePlace obtained one)

theorem sample_aligned (r : Region) (obtained : sampleLayout.Obtains r) :
    sampleLayout.logAddr r &&& maskPageaddr = sampleLayout.logAddr r := by
  have small := sampleFrame_small obtained
  have base := mappingBase_bound r.allocType
  exact frame_aligned (by omega)

theorem sample_fits (r : Region) (obtained : sampleLayout.Obtains r) :
    (sampleLayout.logAddr r).toNat + r.size 0 + 0x1000 ≤ 2^64 := by
  have small := sampleFrame_small obtained
  have base := mappingBase_bound r.allocType
  have size := (region_size r).2
  have value : (sampleLayout.logAddr r).toNat = (sampleFrame r + mappingBase r.allocType) * 4096 :=
    frame_toNat (by omega)
  omega

theorem sample_below (r : Region) (k : Nat) (obtained : sampleLayout.Obtains r) (inside : k < r.pageCount 0) :
    (sampleLayout.backing r k).toNat < maxRamSize 0 := by
  have place := samplePlace obtained inside
  have bound := sampleFrame_bound place
  rw [sample_backing place,frame_toNat (by omega),maxRamSize_zero]
  omega

theorem sample_distinct (r r' : Region) (k k' : Nat) (obtained : sampleLayout.Obtains r)
    (obtained' : sampleLayout.Obtains r') (inside : k < r.pageCount 0) (inside' : k' < r'.pageCount 0)
    (same : pageOffset (sampleLayout.backing r k) = pageOffset (sampleLayout.backing r' k')) :
    r = r' ∧ k = k' := by
  have place := samplePlace obtained inside
  have place' := samplePlace obtained' inside'
  have bound := sampleFrame_bound place
  have bound' := sampleFrame_bound place'
  rw [sample_backing place,sample_backing place',pageOffset_frame (by omega),pageOffset_frame (by omega)] at same
  exact sampleFrame_inj place place' same

theorem sample_tables (type : EptType) (j : Nat) (_ : j < (hbAllocEptPages (maxRamSize 0)).pageCount type) :
    sampleLayout.virtToPhys (sampleLayout.logAddr (.eptTable type j)) = frame (samplePages.frame type j) :=
  frame_cancel _ _

theorem sample_host (x : PageSource) (_ : sampleHost.Obtains x) :
    sampleLayout.virtToPhys (sampleLayout.logAddr (.host x)) = sampleHost.page x := frame_cancel _ _

theorem sample_count : sampleHost.maxCount = poolMaxCount 0 := by
  rw [poolMaxCount,maxRamSize_zero]
  rfl

theorem sample_ram : maxRamSize 0 ≤ 2^46 := by rw [maxRamSize_zero]; decide

theorem sample_clipped : Clipped (maxRamSize 0) none := nofun

theorem sample_idt : frame 0x91000 &&& maskPageaddr = frame 0x91000 := frame_aligned (by decide)

def sampleInit : InitEnv 0 where
  toInitLayout := sampleLayout
  directMapping := sample_ram
  clipped := sample_clipped
  maxCount := sample_count
  tables := sample_tables
  hostPages := sample_host
  aligned := sample_aligned
  idtAligned := sample_idt
  fits := sample_fits
  below := sample_below
  roBelow := nofun
  distinct := sample_distinct

def emptyMem : Mem := fun _ _ => 0

theorem kernelPml4_page : pageOf sampleHost.initPml4 = 0x90000 := pageOf_frame (by decide)

theorem kernelPml4_clear (i : Fin 512) : protectedMem sampleLayout emptyMem (pageOf sampleHost.initPml4) i = 0 := by
  have foreign : ¬ Allocated samplePages (pageOf sampleHost.initPml4) := by
    rintro ⟨type,j,obtained,same⟩
    have place := tableFrame_place obtained
    rw [kernelPml4_page] at same
    omega
  have result := @protectedMem_eq 0 sampleInit emptyMem
  have elsewhere := eptAfter_elsewhere samplePages emptyMem (protectEvents sampleInit)
    (fun event member => protectEvents_below member) foreign
  exact congrFun ((congrFun result _).trans elsewhere) i

theorem kernelPml4_foreign : ¬ sampleHost.Owned (pageOf sampleHost.initPml4) := by
  rintro ⟨x,obtained,same⟩
  have bound := (hostFrame_bound obtained).2
  have page : pageOf (sampleHost.page x) = hostFrame x := pageOf_frame (by omega)
  rw [kernelPml4_page,page] at same
  omega

theorem sample_room : (initTables sampleLayout emptyMem).allocIndex ≤ sampleHost.allocCount := by
  obtain ⟨mem,allocs,_⟩ := hbSetupMemoryPool_tables sampleHost ⟨protectedMem sampleLayout emptyMem,0,0,[]⟩
  have clear : ∀ i, (hbSetupMemoryPool sampleHost ⟨protectedMem sampleLayout emptyMem,0,0,[]⟩).mem
      (pageOf sampleHost.initPml4) i = 0 := by
    intro i
    rw [mem]
    dsimp only
    rw [kernelPml4_clear]
  have none := @duplicate_empty sampleHost _ clear kernelPml4_foreign
  rw [initTables,show sampleLayout.host = sampleHost by rfl,none,allocs]
  exact Nat.zero_le _

/-- With 5GB of mapped memory and two processors, the ten pages of the pool's array of pointers
stay readable and writable. -/
theorem pool_array_stays_open_sample :
    ¬ ControlStateHidden sampleLayout emptyMem ∧
      ¬ NoAccess sampleLayout (hyperBoxInit sampleLayout emptyMem) (sampleLayout.backing .poolArray 9) :=
  have opens := @pool_array_stays_open 0 sampleInit emptyMem sample_room
  ⟨opens.2.2,opens.2.1 9 (by rw [poolArray_count]; decide)⟩

theorem pool_array_exposed :
    ¬ ∀ (ramEnd : Nat) (env : InitEnv ramEnd) (mem : Mem),
      (initTables env.toInitLayout mem).allocIndex ≤ env.host.allocCount → ControlStateHidden env.toInitLayout mem := by
  intro claim
  exact @not_controlStateHidden 0 sampleInit emptyMem sample_room (claim 0 sampleInit emptyMem sample_room)

end Sample

end HyperBox.Start
