import HyperBox.Ept.Permission
import HyperBox.PageTable.Sync

/-! The exits that change permissions of the extended page table: the step that hides
the module once, and the violation handler. The handler decides by the linear address
and acts on the physical one, both of which the guest chooses. -/
namespace HyperBox.Ept
open HyperBox.Library HyperBox.PageTable

inductive AllocType where
  | kmalloc
  | vmalloc
deriving DecidableEq

inductive ProtectMode where
  | hide
  | lock
deriving DecidableEq

structure ModuleLayout where
  module : U64
  structSize : U64
  coreBase : U64
  coreSize : U64
  coreRoSize : U64

/-- The addresses and kernel services that stay fixed while exits are handled. The page
`sleepBacking` is the one that really backs the code of `hb_system_sleep_notify`. -/
structure ExitEnv (ramEnd : Nat) where
  pages : EptPages (hbAllocEptPages (maxRamSize ramEnd))
  layout : ModuleLayout
  taskPool : U64
  taskPoolSize : U64
  virtToPhys : U64 → U64
  vmallocToPfn : U64 → U64
  jiffiesToMsecs : U64 → Nat
  systemRunning : Nat
  roArray : List RoArea
  workaround : List U64
  sleepNotify : U64
  sleepBacking : U64
  sleepBelow : sleepBacking.toNat < maxRamSize ramEnd

section Ranges
variable {ramEnd : Nat} (env : ExitEnv ramEnd)

def alignEndAddr (endAddr : U64) : U64 := (endAddr + val4KB - 1) &&& maskPageaddr

def rangeAddrs (startAddr endAddr : U64) : List U64 :=
  let first := startAddr &&& maskPageaddr
  (List.range (((alignEndAddr endAddr).toNat - first.toNat) / 4096)).map
    (fun k => first + BitVec.ofNat 64 (k * 4096))

def phyAddrOf (allocType : AllocType) (addr : U64) : U64 :=
  match allocType with
  | .kmalloc => env.virtToPhys addr
  | .vmalloc => env.vmallocToPfn addr <<< 12

def setRange (setter : Setter) (startAddr endAddr : U64) (allocType : AllocType) (mem : Mem) : Mem :=
  run (Setter.apply env.pages) mem
    ((rangeAddrs startAddr endAddr).map (fun addr => (setter,phyAddrOf env allocType addr)))

def hbLockRange : U64 → U64 → AllocType → Mem → Mem := setRange env .lock

def hbSetAllAccessRange : U64 → U64 → AllocType → Mem → Mem := setRange env .allAccess

def hbHideRange : U64 → U64 → AllocType → Mem → Mem := setRange env .hide

def hbProtectHyperBoxModule (protectMode : ProtectMode) (mem : Mem) : Mem :=
  let m := env.layout
  let mem := match protectMode with
    | .hide => hbHideRange env m.coreBase (m.coreBase + m.coreSize) .vmalloc mem
    | .lock =>
      let mem := hbLockRange env m.coreBase (m.coreBase + m.coreRoSize) .vmalloc mem
      hbSetAllAccessRange env (m.coreBase + m.coreRoSize) (m.coreBase + m.coreSize) .vmalloc mem
  hbSetAllAccessRange env m.module (m.module + m.structSize) .vmalloc mem

def hbProtectMonitorData (mem : Mem) : Mem :=
  hbHideRange env env.taskPool (env.taskPool + env.taskPoolSize) .vmalloc mem

end Ranges

structure GuestFields where
  cr0 : U64
  entryInstLength : U64
  entryIntInfo : U64
  entryErrCode : U64

structure ExitState where
  mem : Mem
  needInitInSecure : Bool
  allowHyperBoxHide : Bool
  initInSecureJiffies : U64
  isShutdownTriggerSet : Bool
  shutdownJiffies : U64
  guest : Nat → GuestFields

/-- Handlers of other exits never call the setters; what they store in memory is
carried by the event. -/
inductive ExitKind where
  | nested
  | eptViolation (guestLinear guestPhysical : U64)
  | other (stores : List (Nat × Fin 512 × U64))

structure Exit where
  cpuId : Nat
  jiffies : U64
  systemState : Nat
  acpiTargetSystemState : Nat
  kind : ExitKind

section Handlers
variable {ramEnd : Nat} (env : ExitEnv ramEnd) (exit : Exit) (s : ExitState)

def hyperboxUseWorkaround : Bool := false

def hbIsWorkaroundAddr (addr : U64) : Bool :=
  hyperboxUseWorkaround && env.workaround.contains (addr &&& maskPageaddr)

def acpiStateS3 : Nat := 3

def hbIsSystemShutdowning : Bool :=
  !(exit.systemState ≤ env.systemRunning && exit.acpiTargetSystemState < acpiStateS3)

def hbTriggerShutdownTimer : ExitState :=
  if !hbIsSystemShutdowning env exit then s
  else if s.isShutdownTriggerSet then s
  else { s with isShutdownTriggerSet := true, shutdownJiffies := exit.jiffies }

def shutdownTimeLimitMs : Nat := 10 * 60 * 1000

def hbIsShutdownTimerExpired : ExitState :=
  if !s.isShutdownTriggerSet then s
  else if shutdownTimeLimitMs ≤ env.jiffiesToMsecs (exit.jiffies - s.shutdownJiffies) then
    { s with shutdownJiffies := exit.jiffies }
  else s

def hyperBoxHideTimeBufferMs : Nat := 1000

/-- The hide step of `hb_vm_exit_callback`; the compare-and-exchange lets it through once. -/
def hideStep : ExitState :=
  if s.allowHyperBoxHide &&
      hyperBoxHideTimeBufferMs ≤ env.jiffiesToMsecs (exit.jiffies - s.initInSecureJiffies) then
    if s.needInitInSecure then
      { s with
        needInitInSecure := false
        allowHyperBoxHide := false
        mem := hbProtectMonitorData env (hbProtectHyperBoxModule env .hide s.mem) }
    else s
  else s

def updateGuest (update : GuestFields → GuestFields) : ExitState :=
  { s with guest := Function.update s.guest exit.cpuId (update (s.guest exit.cpuId)) }

def vmEntryIntInfoUd : U64 := 6 ||| (0x3 <<< 8) ||| (0x01 <<< 31)

def hbInsertUdExceptionToVm : ExitState :=
  updateGuest exit s (fun guest => { guest with entryIntInfo := vmEntryIntInfoUd, entryErrCode := 0 })

def cr0BitPg : U64 := 0x01 <<< 31

def cr0BitWp : U64 := 0x01 <<< 16

def recoverWp (guest : GuestFields) : GuestFields :=
  if guest.cr0 &&& cr0BitPg ≠ 0 ∧ guest.cr0 &&& cr0BitWp = 0 then
    { guest with cr0 := guest.cr0 ||| cr0BitWp }
  else guest

def hbVmExitCallbackEptViolation (guestLinear guestPhysical : U64) : ExitState :=
  if guestLinear = env.sleepNotify then
    hbTriggerShutdownTimer env exit { s with mem := hbSetEptLockPage env.pages guestPhysical s.mem }
  else if !hbIsSystemShutdowning env exit then
    if hbIsWorkaroundAddr env guestPhysical then
      { s with mem := hbSetEptAllAccessPage env.pages guestPhysical s.mem }
    else updateGuest exit (hbInsertUdExceptionToVm exit s) recoverWp
  else if !hbIsAddrInKernelRoArea env.roArray guestLinear then
    { s with mem := hbSetEptReadOnlyPage env.pages guestPhysical s.mem }
  else s

def storeAll (stores : List (Nat × Fin 512 × U64)) (mem : Mem) : Mem :=
  run (fun mem store => mem.write store.1 store.2.1 store.2.2) mem stores

def dispatch : ExitState :=
  match exit.kind with
  | .nested => s
  | .eptViolation guestLinear guestPhysical =>
    hbVmExitCallbackEptViolation env exit s guestLinear guestPhysical
  | .other stores => { s with mem := storeAll stores s.mem }

/-- What `hb_vm_exit_callback` does for every exit of the guest before it looks at the reason. -/
def beforeDispatch : ExitState :=
  let s := hbIsShutdownTimerExpired env exit s
  let s := updateGuest exit s (fun guest => { guest with entryInstLength := 0 })
  hideStep env exit s

/-- One call of `hb_vm_exit_callback`, as far as the extended page table depends on it. -/
def hbVmExitCallback : ExitState :=
  match exit.kind with
  | .nested => s
  | _ => dispatch env exit (beforeDispatch env exit s)

end Handlers

section Setters
variable {info : EptInfo} (pages : EptPages info) (mem : Mem) (setter : Setter) (phyAddr : U64)

theorem Setter.apply_elsewhere {t : Nat} {i : Fin 512}
    (apart : ¬ (t = pteTable pages phyAddr ∧ i = pteSlot phyAddr)) :
    Setter.apply pages mem (setter,phyAddr) t i = mem t i := by
  cases setter <;>
    simp only [Setter.apply,hbSetEptHidePage,hbSetEptReadOnlyPage,hbSetEptLockPage,hbSetEptAllAccessPage,
      setEptPage,hbSetEptPageAddr,hbSetEptPageFlags,Paged.write_ne _ _ apart]

theorem fillTables_elsewhere {t : Nat} (foreign : ¬ Allocated pages t) {β : Type} (next : β → β) (type : EptType)
    (entry : Nat → Nat → β → U64) (s : Mem × β) :
    (fillTables next 0 (info.pageCount type) (pages.frame type) entry s).1 t = s.1 t :=
  (fillTables_spec next 0 (fun a b ha hb same => (pages.distinct _ _ a b ha hb same).2) entry s).2 t
    (fun j within same => foreign ⟨type,j,within,same⟩)

theorem setup_elsewhere {t : Nat} (foreign : ¬ Allocated pages t) : hbSetupEptPagetable4KB pages none mem t = mem t :=
  calc setupPte pages (setupPdept pages (setupPdptePd pages (setupPml4 pages mem))) t
    _ = setupPdept pages (setupPdptePd pages (setupPml4 pages mem)) t := fillTables_elsewhere pages foreign id .pte _ _
    _ = setupPdptePd pages (setupPml4 pages mem) t := fillTables_elsewhere pages foreign _ .pdept _ _
    _ = setupPml4 pages mem t := fillTables_elsewhere pages foreign _ .pdptePd _ _
    _ = mem t := fillTables_elsewhere pages foreign id .pml4 _ _

variable {pages phyAddr} in
theorem pteTable_allocated (inside : pageOffset phyAddr / 512 < info.ptePageCount) :
    Allocated pages (pteTable pages phyAddr) := ⟨.pte,_,inside,rfl⟩

theorem eptAfter_elsewhere {ramEnd : Nat} (pages : EptPages (hbAllocEptPages (maxRamSize ramEnd))) (mem : Mem)
    (events : List (Setter × U64)) (below : ∀ event ∈ events, event.2.toNat < maxRamSize ramEnd) {t : Nat}
    (foreign : ¬ Allocated pages t) : eptAfter pages mem none events t = mem t := by
  induction events using List.reverseRecOn with
  | nil => rw [eptAfter,run_nil,setup_elsewhere pages mem foreign]
  | append_singleton events event ih =>
    obtain ⟨setter,phyAddr⟩ := event
    have inside := page_inside (below (setter,phyAddr) (by simp))
    have apart : t ≠ pteTable pages phyAddr := fun same => foreign (same ▸ pteTable_allocated inside)
    have before := ih (fun event member => below event (List.mem_append_left _ member))
    have step : eptAfter pages mem none (events ++ [(setter,phyAddr)]) =
        Setter.apply pages (eptAfter pages mem none events) (setter,phyAddr) := by
      rw [eptAfter,run_append,run_cons,run_nil,eptAfter]
    funext i
    rw [step,Setter.apply_elsewhere _ _ _ _ (fun same => apart same.1),before]

theorem maskPageaddr_rights : EptRights.ofEntry maskPageaddr = ⟨false,false,false⟩ := by decide

theorem ofEntry_masked (address flags : U64) :
    EptRights.ofEntry ((address &&& maskPageaddr) ||| flags) = EptRights.ofEntry flags := by
  obtain ⟨read,write,execute⟩ := EptRights.mk.inj maskPageaddr_rights
  simp only [EptRights.ofEntry,BitVec.getLsbD_or,BitVec.getLsbD_and,read,write,execute,Bool.and_false,
    Bool.false_or]

theorem ofEntry_flags (entry : U64) : EptRights.ofEntry (entry &&& ~~~maskPageaddr) = EptRights.ofEntry entry := by
  obtain ⟨read,write,execute⟩ := EptRights.mk.inj maskPageaddr_rights
  simp only [EptRights.ofEntry,BitVec.getLsbD_and,BitVec.getLsbD_not,read,write,execute]
  simp

theorem Setter.apply_rights :
    EptRights.ofEntry (Setter.apply pages mem (setter,phyAddr) (pteTable pages phyAddr) (pteSlot phyAddr)) =
      setter.rights := by
  cases setter <;>
    simp only [Setter.apply,hbSetEptHidePage,hbSetEptReadOnlyPage,hbSetEptLockPage,hbSetEptAllAccessPage,
      setEptPage,hbSetEptPageAddr,hbSetEptPageFlags,Paged.write_self,ofEntry_masked,ofEntry_flags] <;>
    decide

end Setters

def EptRights.Within (x y : EptRights) : Prop :=
  (x.read → y.read) ∧ (x.write → y.write) ∧ (x.execute → y.execute)

instance (x y : EptRights) : Decidable (x.Within y) := inferInstanceAs (Decidable (_ ∧ _ ∧ _))

theorem EptRights.Within.refl (x : EptRights) : x.Within x := ⟨id,id,id⟩

section Gains
variable {ramEnd : Nat} (env : ExitEnv ramEnd)

/-- No entry of the extended page table, except the one for the page behind
`hb_system_sleep_notify`, has a right in `after` that it lacked in `before`. -/
def NoGain (before after : Mem) : Prop :=
  ∀ t i, Allocated env.pages t →
    ¬ (t = pteTable env.pages env.sleepBacking ∧ i = pteSlot env.sleepBacking) →
    (EptRights.ofEntry (after t i)).Within (.ofEntry (before t i))

/-- A violation at the address of `hb_system_sleep_notify` reports the page that backs it,
or a page the guest may read and execute anyway; nothing else is stored in the tables. -/
def ExitConfined (s : ExitState) (exit : Exit) : Prop :=
  match exit.kind with
  | .nested => True
  | .eptViolation guestLinear guestPhysical => guestLinear = env.sleepNotify →
    pageOffset guestPhysical = pageOffset env.sleepBacking ∨
      Setter.lock.rights.Within
        (.ofEntry (s.mem (pteTable env.pages guestPhysical) (pteSlot guestPhysical)))
  | .other stores => ∀ store ∈ stores, ¬ Allocated env.pages store.1

def exitStep (s : ExitState) (exit : Exit) : ExitState := hbVmExitCallback env exit s

variable (exit : Exit) {s : ExitState}

theorem hbIsShutdownTimerExpired_keeps (s : ExitState) :
    (hbIsShutdownTimerExpired env exit s).mem = s.mem ∧
      (hbIsShutdownTimerExpired env exit s).needInitInSecure = s.needInitInSecure := by
  unfold hbIsShutdownTimerExpired
  split_ifs <;> exact ⟨rfl,rfl⟩

theorem hbTriggerShutdownTimer_keeps (s : ExitState) :
    (hbTriggerShutdownTimer env exit s).mem = s.mem ∧
      (hbTriggerShutdownTimer env exit s).needInitInSecure = s.needInitInSecure := by
  unfold hbTriggerShutdownTimer
  split_ifs <;> exact ⟨rfl,rfl⟩

theorem beforeDispatch_hidden (hidden : s.needInitInSecure = false) :
    (beforeDispatch env exit s).mem = s.mem ∧ (beforeDispatch env exit s).needInitInSecure = false := by
  obtain ⟨mem,need⟩ := hbIsShutdownTimerExpired_keeps env exit s
  simp [beforeDispatch,hideStep,updateGuest,mem,need,hidden]

variable {env exit}

theorem violation_needInit (guestLinear guestPhysical : U64) :
    (hbVmExitCallbackEptViolation env exit s guestLinear guestPhysical).needInitInSecure =
      s.needInitInSecure := by
  unfold hbVmExitCallbackEptViolation
  split_ifs
  · exact (hbTriggerShutdownTimer_keeps _ _ _).2
  all_goals rfl

/-- Of a violation's branches only the one for `hb_system_sleep_notify` reaches the table
while the system is not shutting down. -/
theorem violation_running (running : hbIsSystemShutdowning env exit = false) (guestLinear guestPhysical : U64) :
    (hbVmExitCallbackEptViolation env exit s guestLinear guestPhysical).mem =
      if guestLinear = env.sleepNotify then Setter.apply env.pages s.mem (.lock,guestPhysical) else s.mem := by
  unfold hbVmExitCallbackEptViolation
  split
  next => exact (hbTriggerShutdownTimer_keeps _ _ _).1
  next =>
    simp only [running,hbIsWorkaroundAddr,hyperboxUseWorkaround,Bool.not_false,Bool.false_and]
    rfl

theorem exitStep_hidden (hidden : s.needInitInSecure = false) :
    (exitStep env s exit).needInitInSecure = false := by
  have need := (beforeDispatch_hidden env exit hidden).2
  unfold exitStep hbVmExitCallback dispatch
  cases exit.kind with
  | nested => exact hidden
  | eptViolation guestLinear guestPhysical => exact (violation_needInit _ _).trans need
  | other stores => exact need

theorem storeAll_elsewhere {stores : List (Nat × Fin 512 × U64)} {t : Nat}
    (apart : ∀ store ∈ stores, store.1 ≠ t) (mem : Mem) : storeAll stores mem t = mem t := by
  induction stores generalizing mem with
  | nil => rfl
  | cons store rest ih =>
    have first := apart store (by simp)
    have later := ih (fun store member => apart store (by simp [member]))
    rw [storeAll,run_cons,← storeAll,later,mem.write_page_ne _ _ (Ne.symm first)]

theorem lock_noGain {guestPhysical : U64}
    (confined : pageOffset guestPhysical = pageOffset env.sleepBacking ∨
      Setter.lock.rights.Within
        (.ofEntry (s.mem (pteTable env.pages guestPhysical) (pteSlot guestPhysical)))) :
    NoGain env s.mem (Setter.apply env.pages s.mem (.lock,guestPhysical)) := by
  intro t i _ excepted
  by_cases here : t = pteTable env.pages guestPhysical ∧ i = pteSlot guestPhysical
  · obtain ⟨rfl,rfl⟩ := here
    rw [Setter.apply_rights]
    rcases confined with page | held
    · exact absurd ⟨by rw [pteTable,page,pteTable],by rw [pteSlot,page,pteSlot]⟩ excepted
    · exact held
  · rw [Setter.apply_elsewhere _ _ _ _ here]
    exact .refl _

theorem exitStep_violation (hidden : s.needInitInSecure = false)
    (running : hbIsSystemShutdowning env exit = false) {guestLinear guestPhysical : U64}
    (kind : exit.kind = .eptViolation guestLinear guestPhysical) :
    (exitStep env s exit).mem =
      if guestLinear = env.sleepNotify then Setter.apply env.pages s.mem (.lock,guestPhysical) else s.mem := by
  simp only [exitStep,hbVmExitCallback,dispatch,kind]
  rw [violation_running running,(beforeDispatch_hidden env exit hidden).1]

theorem exitStep_other (hidden : s.needInitInSecure = false) {stores : List (Nat × Fin 512 × U64)}
    (kind : exit.kind = .other stores) : (exitStep env s exit).mem = storeAll stores s.mem := by
  simp only [exitStep,hbVmExitCallback,dispatch,kind]
  rw [(beforeDispatch_hidden env exit hidden).1]

theorem exitStep_noGain (hidden : s.needInitInSecure = false)
    (running : hbIsSystemShutdowning env exit = false) (confined : ExitConfined env s exit) :
    NoGain env s.mem (exitStep env s exit).mem := by
  have kept : NoGain env s.mem s.mem := fun _ _ _ _ => .refl _
  unfold ExitConfined at confined
  cases kind : exit.kind with
  | nested =>
    have same : exitStep env s exit = s := by simp only [exitStep,hbVmExitCallback,kind]
    rwa [same]
  | eptViolation guestLinear guestPhysical =>
    rw [kind] at confined
    rw [exitStep_violation hidden running kind]
    split
    next sleep => exact lock_noGain (confined sleep)
    next => exact kept
  | other stores =>
    rw [kind] at confined
    rw [exitStep_other hidden kind]
    intro t i allocated _
    have apart : ∀ store ∈ stores, store.1 ≠ t :=
      fun store member same => confined store member (same ▸ allocated)
    rw [storeAll_elsewhere apart]
    exact .refl _

/-- Once the module is hidden and while the system runs, no exit of a confined run gives
the guest a right to a page it did not have. -/
theorem ept_rights_never_gained (env : ExitEnv ramEnd) {start : ExitState}
    (hidden : start.needInitInSecure = false) (exits : List Exit)
    (running : ∀ exit ∈ exits, hbIsSystemShutdowning env exit = false)
    (confined : Along (exitStep env) (ExitConfined env) start exits)
    (before after : List Exit) (exit : Exit) (split : exits = before ++ exit::after) :
    NoGain env (run (exitStep env) start before).mem (run (exitStep env) start (before ++ [exit])).mem := by
  subst split
  rw [along_append] at confined
  have reached : (run (exitStep env) start before).needInitInSecure = false :=
    confined.1.reaches (fun s => s.needInitInSecure = false) (fun _ _ held _ => exitStep_hidden held) hidden
  rw [run_append]
  exact exitStep_noGain reached (running exit (by simp)) confined.2.1

end Gains

section Sample

def exitSample : ExitEnv 0 where
  pages := samplePages
  layout := ⟨0xC0001000,0x300,0xC0000000,0x3000,0x1000⟩
  taskPool := 0xD0000000
  taskPoolSize := 0x1000
  virtToPhys := id
  vmallocToPfn := fun addr => (addr >>> 12) - 0xC0000 + 5
  jiffiesToMsecs := fun jiffies => jiffies.toNat
  systemRunning := 2
  roArray := []
  workaround := []
  sleepNotify := 0xC0000100
  sleepBacking := 0x5100
  sleepBelow := by decide

def runningExit (kind : ExitKind) : Exit := ⟨0,2000,2,0,kind⟩

def bootState : ExitState where
  mem := hbSetupEptPagetable4KB samplePages none (fun _ _ => 0)
  needInitInSecure := true
  allowHyperBoxHide := true
  initInSecureJiffies := 0
  isShutdownTriggerSet := false
  shutdownJiffies := 0
  guest := fun _ => ⟨0x80010033,0,0,0⟩

def rangeEvents {ramEnd : Nat} (env : ExitEnv ramEnd) (setter : Setter) (startAddr size : U64) : List (Setter × U64) :=
  (rangeAddrs startAddr (startAddr + size)).map (fun addr => (setter,phyAddrOf env .vmalloc addr))

def hideEvents {ramEnd : Nat} (env : ExitEnv ramEnd) : List (Setter × U64) :=
  rangeEvents env .hide env.layout.coreBase env.layout.coreSize ++
    rangeEvents env .allAccess env.layout.module env.layout.structSize ++
    rangeEvents env .hide env.taskPool env.taskPoolSize

def hiddenState : ExitState := exitStep exitSample bootState (runningExit (.other []))

theorem ept_rights_never_gained_sample :
    NoGain exitSample hiddenState.mem
      (run (exitStep exitSample) hiddenState [runningExit (.eptViolation 0xC0000100 0x5100)]).mem :=
  ept_rights_never_gained exitSample rfl [runningExit (.eptViolation 0xC0000100 0x5100)] (by decide)
    ⟨fun _ => .inl rfl,trivial⟩ [] [] _ rfl

theorem hideRange_events {ramEnd : Nat} (env : ExitEnv ramEnd) (mem : Mem) :
    hbProtectMonitorData env (hbProtectHyperBoxModule env .hide mem) =
      run (Setter.apply env.pages) mem (hideEvents env) := by
  simp only [hideEvents,run_append]
  rfl

theorem hideEvents_sample : hideEvents exitSample =
    [(.hide,0x5000),(.hide,0x6000),(.hide,0x7000),(.allAccess,0x6000),(.hide,0x10005000)] := by decide

theorem hiddenState_mem : hiddenState.mem = eptAfter samplePages (fun _ _ => 0) none
    [(.hide,0x5000),(.hide,0x6000),(.hide,0x7000),(.allAccess,0x6000),(.hide,0x10005000)] := by
  have hide : hiddenState.mem =
      hbProtectMonitorData exitSample (hbProtectHyperBoxModule exitSample .hide bootState.mem) := rfl
  rw [hide,hideRange_events,hideEvents_sample]
  rfl

/-- A guest that maps the address of `hb_system_sleep_notify` to another page of the hidden
module gets that page locked, that is readable and executable. -/
theorem sleep_violation_unhides :
    hiddenState.needInitInSecure = false ∧
    hbIsSystemShutdowning exitSample (runningExit (.eptViolation 0xC0000100 0x7000)) = false ∧
    ¬ NoGain exitSample hiddenState.mem
      (run (exitStep exitSample) hiddenState [runningExit (.eptViolation 0xC0000100 0x7000)]).mem := by
  refine ⟨rfl,rfl,?_⟩
  intro noGain
  have tables := eptAfter_tables samplePages (fun _ _ => 0) (show Clipped _ none by simp [Clipped])
    [(.hide,0x5000),(.hide,0x6000),(.hide,0x7000),(.allAccess,0x6000),(.hide,0x10005000)] (by decide)
  have inside := page_inside (show (0x7000 : U64).toNat < maxRamSize 0 by decide)
  have entry := tables.entry inside
  have gained := noGain (pteTable samplePages 0x7000) (pteSlot 0x7000) (pteTable_allocated inside) (by decide)
  have step := exitStep_violation (s := hiddenState) rfl
    (show hbIsSystemShutdowning exitSample (runningExit (.eptViolation 0xC0000100 0x7000)) = false by rfl) rfl
  rw [← hiddenState_mem] at entry
  rw [run_cons,run_nil,step,if_pos (by rfl),show exitSample.pages = samplePages by rfl,Setter.apply_rights,
    entry,ofEntry_frame] at gained
  exact absurd gained (by decide)

end Sample
end HyperBox.Ept
