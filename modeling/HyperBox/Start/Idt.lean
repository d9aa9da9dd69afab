import HyperBox.Start.Protect

/-! The protection of the two interrupt descriptor tables. Both calls round the address of the last
byte down and pass it as the end of the range, so that the page with the last byte is never in
the range; `hb_hide_range` and `hb_lock_range` round their end up, which changes nothing then. -/
namespace HyperBox.Start
open HyperBox.Library HyperBox.PageTable HyperBox.Ept

/-- What `store_idt` reads: the limit is the offset of the last byte. -/
structure DescPtr where
  size : BitVec 16
  address : U64

def DescPtr.limit (idtr : DescPtr) : U64 := (if idtr.size > 0xFFF then 0xFFF else idtr.size).setWidth 64

section Calls
variable {ramEnd : Nat} (env : InitLayout ramEnd)

def hbProtectGdt (idtr : DescPtr) (mem : Mem) : Mem :=
  hbLockRange env.toExitEnv idtr.address ((idtr.address + idtr.limit) &&& maskPageaddr) .vmalloc mem

/-- The steps of `hyper_box_init` up to the protection of the host's IDT. -/
def idtMem (mem : Mem) : Mem :=
  hbSetupHostIdtAndProtect env (hbProtectKernelRoArea env (hbSetupEptPagetable4KB env.pages env.systemRam mem))

def hostIdtLimit : U64 := if env.idtSize > 0xFFF then 0xFFF else env.idtSize

/-- The physical page of a byte of the host's IDT. -/
def hostIdtPage (k : Nat) : U64 :=
  phyAddrOf env.toExitEnv .kmalloc ((env.idtAddress + BitVec.ofNat 64 k) &&& maskPageaddr)

/-- The physical page of a byte of a processor's IDT in the guest. -/
def guestIdtPage (idtr : DescPtr) (k : Nat) : U64 :=
  phyAddrOf env.toExitEnv .vmalloc ((idtr.address + BitVec.ofNat 64 k) &&& maskPageaddr)

def HostIdtHidden (mem : Mem) : Prop := ∀ k ≤ (hostIdtLimit env).toNat, NoAccess env mem (hostIdtPage env k)

def NotWritable (mem : Mem) (phyAddr : U64) : Prop :=
  ∀ leaf, (eptTranslate env.pages mem phyAddr.toNat).2 = some leaf → leaf.rights.write = false

def GuestIdtLocked (idtr : DescPtr) (mem : Mem) : Prop :=
  ∀ k ≤ idtr.limit.toNat, NotWritable env mem (guestIdtPage env idtr k)

/-- The IDT goes on in the next page, and the byte lies in the frame of the first page. -/
def SharesFirstPage (idtr : DescPtr) (k : Nat) : Prop :=
  pageOf idtr.address < pageOf (idtr.address + idtr.limit) ∧
    pageOffset (guestIdtPage env idtr k) = pageOffset (guestIdtPage env idtr 0)

end Calls

section Ranges

theorem DescPtr.limit_small (idtr : DescPtr) : idtr.limit.toNat ≤ 0xFFF := by
  unfold limit
  split
  · decide
  next clamped =>
    have small : idtr.size.toNat ≤ 0xFFF := by simpa [BitVec.lt_def] using clamped
    rw [BitVec.toNat_setWidth]
    omega

/-- An IDT of at most one page locks its first page, and only if it goes on in the next. -/
theorem idt_range (idtr : DescPtr) :
    rangeAddrs idtr.address ((idtr.address + idtr.limit) &&& maskPageaddr) =
      if pageOf idtr.address < pageOf (idtr.address + idtr.limit) then [idtr.address &&& maskPageaddr] else [] := by
  have bound := idtr.address.isLt
  have small := idtr.limit_small
  have sum : (idtr.address + idtr.limit).toNat = (idtr.address.toNat + idtr.limit.toNat) % 2^64 := BitVec.toNat_add _ _
  rw [rangeAddrs_rounded]
  split
  next crosses =>
    have one : pageOf (idtr.address + idtr.limit) - pageOf idtr.address = 1 := by
      rw [pageOf,pageOf,sum] at *
      omega
    simp [one]
  next within =>
    rw [Nat.sub_eq_zero_of_le (by omega)]
    rfl

end Ranges

section Tables
variable {ramEnd : Nat} {env : InitEnv ramEnd} {mem : Mem}

theorem hostIdt_open (ram : (env.virtToPhys env.idtAddress).toNat < maxRamSize ramEnd) :
    ¬ HostIdtHidden env.toInitLayout (idtMem env.toInitLayout mem) := by
  intro hidden
  have first := hidden 0 (Nat.zero_le _)
  have page : hostIdtPage env.toInitLayout 0 = env.virtToPhys env.idtAddress := by
    rw [hostIdtPage,BitVec.add_zero,env.idtAligned]
    rfl
  have bound := env.directMapping
  have state : idtMem env.toInitLayout mem = eptAfter env.pages mem env.systemRam (lockEvents env) := by
    rw [idtMem,hbSetupHostIdtAndProtect_nothing,hbProtectKernelRoArea_run]
    rfl
  have below : ∀ event ∈ lockEvents env, event.2.toNat < maxRamSize ramEnd := by
    intro event member
    obtain ⟨phyAddr,listed,rfl⟩ := List.mem_map.mp member
    exact env.roBelow phyAddr listed
  obtain ⟨leaf,found,rights⟩ := first
  rw [page,state,eptAfter_translate env.pages mem env.clipped below (by omega)] at found
  obtain rfl := Option.some.inj found
  exact rightsAfter_locked (fun event member => lock_only member) rights

section Guest
variable {events : List (Setter × U64)} {idtr : DescPtr}
  (tables : EptTables env.pages (fun page => (setterAfter events page).flags) mem)
  (below : ∀ event ∈ events, event.2.toNat < maxRamSize ramEnd)
  (ram : ∀ k ≤ idtr.limit.toNat, (guestIdtPage env.toInitLayout idtr k).toNat < maxRamSize ramEnd)
include tables below

theorem notWritable_iff {phyAddr : U64} (inside : phyAddr.toNat < maxRamSize ramEnd) :
    NotWritable env.toInitLayout mem phyAddr ↔ (rightsAfter events (pageOffset phyAddr)).write = false := by
  have bound := env.directMapping
  have found := setter_translate env.pages tables below (a := phyAddr.toNat) (by omega)
  unfold NotWritable
  rw [found]
  simp [pageOffset]

include ram

/-- A byte of a processor's IDT is out of the reach of writes after the call if it was before, or
if it shares the page that the call locks. -/
theorem guestIdt_byte_iff {k : Nat} (inside : k ≤ idtr.limit.toNat) :
    NotWritable env.toInitLayout (hbProtectGdt env.toInitLayout idtr mem) (guestIdtPage env.toInitLayout idtr k) ↔
      NotWritable env.toInitLayout mem (guestIdtPage env.toInitLayout idtr k) ∨
        SharesFirstPage env.toInitLayout idtr k := by
  rw [notWritable_iff tables below (ram k inside)]
  unfold SharesFirstPage
  have whole : hbProtectGdt env.toInitLayout idtr mem = run (Setter.apply env.pages) mem
      ((rangeAddrs idtr.address ((idtr.address + idtr.limit) &&& maskPageaddr)).map
        (fun addr => (.lock,phyAddrOf env.toExitEnv .vmalloc addr))) := rfl
  rw [idt_range] at whole
  by_cases crosses : pageOf idtr.address < pageOf (idtr.address + idtr.limit)
  · have first : phyAddrOf env.toExitEnv .vmalloc (idtr.address &&& maskPageaddr) =
        guestIdtPage env.toInitLayout idtr 0 := by
      rw [guestIdtPage,BitVec.add_zero]
    rw [if_pos crosses,List.map_singleton,first] at whole
    have once : ∀ event ∈ [(Setter.lock,guestIdtPage env.toInitLayout idtr 0)],
        event.2.toNat < maxRamSize ramEnd := by
      intro event member
      obtain rfl := List.mem_singleton.mp member
      exact ram 0 (Nat.zero_le _)
    have after := run_tables env.pages tables _ once
    have all : ∀ event ∈ events ++ [(Setter.lock,guestIdtPage env.toInitLayout idtr 0)],
        event.2.toNat < maxRamSize ramEnd := by
      intro event member
      rcases List.mem_append.mp member with early | late
      · exact below event early
      · exact once event late
    rw [whole,notWritable_iff after all (ram k inside),rightsAfter_eq,setterAfter_append,rightsAfter_eq]
    by_cases same : pageOffset (guestIdtPage env.toInitLayout idtr k) = pageOffset (guestIdtPage env.toInitLayout idtr 0)
    · simp [same,crosses,Setter.rights]
    · simp [same]
  · rw [if_neg crosses] at whole
    rw [whole]
    simpa [crosses] using notWritable_iff tables below (ram k inside)

theorem guestIdt_locked_iff :
    GuestIdtLocked env.toInitLayout idtr (hbProtectGdt env.toInitLayout idtr mem) ↔
      ∀ k ≤ idtr.limit.toNat, NotWritable env.toInitLayout mem (guestIdtPage env.toInitLayout idtr k) ∨
        SharesFirstPage env.toInitLayout idtr k :=
  forall_congr' fun _ => forall_congr' fun inside => guestIdt_byte_iff tables below ram inside

/-- The host's IDT is hidden for no address and no limit. A processor's IDT is protected from
writes exactly when each of its pages was before the call or is the first of two. -/
theorem idt_pages_left_open {mem₀ : Mem} (hostRam : (env.virtToPhys env.idtAddress).toNat < maxRamSize ramEnd) :
    ¬ HostIdtHidden env.toInitLayout (idtMem env.toInitLayout mem₀) ∧
      (GuestIdtLocked env.toInitLayout idtr (hbProtectGdt env.toInitLayout idtr mem) ↔
        ∀ k ≤ idtr.limit.toNat, NotWritable env.toInitLayout mem (guestIdtPage env.toInitLayout idtr k) ∨
          SharesFirstPage env.toInitLayout idtr k) :=
  ⟨hostIdt_open hostRam,guestIdt_locked_iff tables below ram⟩

end Guest
end Tables

section Sample

def idtLayout : InitLayout 0 := { sampleLayout with idtAddress := frame (0x91000 + mappingBase .kmalloc) }

def idtSample : InitEnv 0 where
  toInitLayout := idtLayout
  directMapping := sample_ram
  clipped := sample_clipped
  maxCount := sample_count
  tables := sample_tables
  hostPages := sample_host
  aligned := sample_aligned
  idtAligned := frame_aligned (by decide)
  fits := sample_fits
  below := sample_below
  roBelow := nofun
  distinct := sample_distinct

def pageIdtr : DescPtr := ⟨0xFFF,frame (0x92000 + mappingBase .vmalloc)⟩

theorem idtSample_hostRam : (idtSample.virtToPhys idtSample.idtAddress).toNat < maxRamSize 0 := by
  have page : idtSample.virtToPhys idtSample.idtAddress = frame 0x91000 := frame_cancel 0x91000 _
  rw [page,frame_toNat (by decide),maxRamSize_zero]
  decide

theorem idtSample_page {k : Nat} (inside : k ≤ pageIdtr.limit.toNat) :
    guestIdtPage idtLayout pageIdtr k = frame 0x92000 := by
  have small := pageIdtr.limit_small
  have byte : (pageIdtr.address + BitVec.ofNat 64 k).toNat / 4096 = 0x92000 + mappingBase .vmalloc := by
    rw [BitVec.toNat_add,BitVec.toNat_ofNat,pageIdtr,frame_toNat (by decide),mappingBase]
    omega
  have base : phyAddrOf idtLayout.toExitEnv .vmalloc (frame (0x92000 + mappingBase .vmalloc)) =
      ((frame (0x92000 + mappingBase .vmalloc) - frame (mappingBase .vmalloc)) >>> 12) <<< 12 := rfl
  rw [guestIdtPage,address_frame,byte,base,frame_cancel,frame_shift (by decide)]

theorem idtSample_ram (k : Nat) (inside : k ≤ pageIdtr.limit.toNat) :
    (guestIdtPage idtLayout pageIdtr k).toNat < maxRamSize 0 := by
  rw [idtSample_page inside,frame_toNat (by decide),maxRamSize_zero]
  decide

theorem idtSample_tables : EptTables samplePages (fun page => (setterAfter [] page).flags)
    (eptAfter samplePages emptyMem none []) := eptAfter_tables samplePages emptyMem sample_clipped [] nofun

theorem idt_pages_left_open_sample :
    ¬ HostIdtHidden idtLayout (idtMem idtLayout emptyMem) ∧
      (GuestIdtLocked idtLayout pageIdtr (hbProtectGdt idtLayout pageIdtr (eptAfter samplePages emptyMem none [])) ↔
        ∀ k ≤ pageIdtr.limit.toNat,
          NotWritable idtLayout (eptAfter samplePages emptyMem none []) (guestIdtPage idtLayout pageIdtr k) ∨
            SharesFirstPage idtLayout pageIdtr k) :=
  @idt_pages_left_open 0 idtSample _ [] pageIdtr idtSample_tables nofun idtSample_ram emptyMem idtSample_hostRam

/-- For an IDT of one page neither call protects anything. -/
theorem idts_exposed :
    ¬ HostIdtHidden idtLayout (idtMem idtLayout emptyMem) ∧
      ¬ GuestIdtLocked idtLayout pageIdtr
        (hbProtectGdt idtLayout pageIdtr (eptAfter samplePages emptyMem none [])) := by
  refine ⟨@hostIdt_open 0 idtSample emptyMem idtSample_hostRam,fun locked => ?_⟩
  have first : NotWritable idtLayout _ _ ∨ SharesFirstPage idtLayout pageIdtr 0 :=
    (@guestIdt_byte_iff 0 idtSample _ [] pageIdtr idtSample_tables nofun idtSample_ram 0 (Nat.zero_le _)).mp
      (locked 0 (Nat.zero_le _))
  rcases first with before | ⟨crosses,_⟩
  · have rights := (@notWritable_iff 0 idtSample _ [] idtSample_tables nofun _ (idtSample_ram 0 (Nat.zero_le _))).mp before
    exact absurd rights (by decide)
  · have page : pageOf (pageIdtr.address + pageIdtr.limit) = pageOf pageIdtr.address := by decide
    omega

end Sample
end HyperBox.Start
