import HyperBox.Library.LockOrder

/-! The locks that the handlers take in VMX root mode. Everything that prints takes the lock of
the log; a page is synchronised under one lock, and its new page tables come from a pool with
another; the task manager and the timer have locks of their own. The pool is never filled again,
and a core that finds it empty faults again and again with the page's lock held. -/
namespace HyperBox.Host
open HyperBox.Library

inductive HostLock where
  | tasklist
  | time
  | taskManager
  | memSync
  | memPool
  | log
deriving DecidableEq

def HostLock.rank : HostLock → Nat
  | tasklist => 0
  | time => 1
  | taskManager => 2
  | memSync => 3
  | memPool => 4
  | log => 5

abbrev Actions := List (LockAction HostLock)

section Functions

def critical (k : HostLock) (body : Actions) : Actions := .acquire k::(body ++ [.release k])

/-- `write_trylock` and `spin_trylock`: without the lock the section is left out. -/
def tried (k : HostLock) (body : Actions) : Actions := .attempt k (body.length + 1)::(body ++ [.release k])

/-- `hb_printf` in VMX root mode. -/
def hbPrintf : Actions := critical .log [.work]

def prints (n : Nat) : Actions := (List.replicate n ()).flatMap fun _ => hbPrintf

/-- What the caller does with NULL follows where the pool is exhausted. -/
def hbGetMemory (null : Actions) : Actions := [.acquire .memPool,.take (.release .memPool::null),.release .memPool] ++ hbPrintf

/-- NULL is cleared like a page after two messages. It faults, and the handler prints a message and
returns to the instruction that faults. -/
def clearNull : Actions := prints 2 ++ [.again hbPrintf]

def vmCheckAllocPageTable : Actions := hbPrintf ++ hbGetMemory clearNull ++ [.work] ++ hbPrintf

/-- `vm_is_new_page_table_needed` says yes, and `vm_check_alloc_page_table`, `vm_expand_page_table_entry`
and `hb_sync_page_table_flag` follow. -/
def newPageTable : Actions := hbPrintf ++ vmCheckAllocPageTable ++ hbPrintf ++ hbPrintf

/-- How `hb_sync_page_table` goes: it returns early, perhaps with a message, or it walks the tables
and needs a new one at some levels. -/
inductive SyncPath where
  | early (message : Bool)
  | walk (levels : List Bool)

def hbSyncPageTable : SyncPath → Actions
  | .early message => if message then hbPrintf else []
  | .walk levels => critical .memSync (levels.flatMap fun isNew => if isNew then newPageTable else [.work]) ++ [.work]

def hbSyncPage (pages : List SyncPath) : Actions := pages.flatMap hbSyncPageTable

/-- `hb_search_tree` and the like under the lock of the task manager. -/
def taskManagerWork : Actions := critical .taskManager [.work]

def hbSetExitFlagInListWithLock : Actions := taskManagerWork

/-- What `hb_callback_add_task` finds out about the task that creates another one. -/
inductive Creator where
  | unknown
  | disallowed
  | traced
  | plain

def hbCallbackAddTask (pages : List SyncPath) (overflow : Bool) (creator : Creator) : Actions :=
  hbSyncPage pages ++ critical .taskManager (if overflow then prints 2 else [.work]) ++
    if overflow then [] else taskManagerWork ++
      match creator with
      | .unknown => []
      | .disallowed => hbSetExitFlagInListWithLock ++ prints 3
      | .traced => prints 1
      | .plain => [.work]

def hbCallbackDelTask : Actions := taskManagerWork

/-- The task is unknown, or its credentials are refused or taken over. -/
inductive Update where
  | unknown
  | refused
  | accepted

def hbCallbackUpdateCred : Update → Actions
  | .unknown => taskManagerWork ++ prints 1
  | .refused => taskManagerWork ++ hbSetExitFlagInListWithLock ++ prints 3
  | .accepted => taskManagerWork ++ [.work]

/-- What the first check of a system call finds. -/
inductive Origin where
  | fine
  | tracedExec
  | workaround
  | abnormal

/-- `hb_callback_check_cred_update_syscall`. -/
def hbCallbackCheckCredUpdateSyscall (found : Bool) (origin : Origin) (changed : Bool) : Actions :=
  taskManagerWork ++ if !found then [] else
    (match origin with
    | .fine => [.work]
    | .tracedExec => prints 3 ++ hbSetExitFlagInListWithLock
    | .workaround => prints 1
    | .abnormal => prints 3 ++ hbSetExitFlagInListWithLock) ++
    if changed then prints 3 ++ hbSetExitFlagInListWithLock else [.work]

def hbCheckTimerExpiredAndUpdate : Actions := tried .time [.work]

/-- If tasks are missing, the entries of the tree are looked at: each has the pages synchronised to
look for its task, and whether it is hidden. -/
def hbCheckTaskList (count : List SyncPath) (overflow : Bool) (missing : Option (List (List SyncPath × Bool))) : Actions :=
  hbSyncPage count ++ (if overflow then prints 1 else []) ++
    match missing with
    | none => []
    | some entries => (entries.flatMap fun entry => hbSyncPage entry.1 ++ if entry.2 then prints 3 else []) ++ prints 1

def hbCheckTaskPeriodic (expired : Bool) (count : List SyncPath) (overflow : Bool)
    (missing : Option (List (List SyncPath × Bool))) : Actions :=
  hbCheckTimerExpiredAndUpdate ++ if expired then tried .tasklist (hbCheckTaskList count overflow missing) else []

/-- `hb_check_vfs_object` and `hb_check_net_object` only print. -/
def hbCheckFunctionPointersPeriodic (expired : Bool) (messages : Nat) : Actions :=
  hbCheckTimerExpiredAndUpdate ++ if expired then prints messages else []

end Functions

/-- What a core does in one stay in VMX root mode is a sequence of these. -/
inductive HostCall where
  | print
  | syncPageTable (path : SyncPath)
  | addTask (pages : List SyncPath) (overflow : Bool) (creator : Creator)
  | delTask
  | updateCred (update : Update)
  | checkSyscall (found : Bool) (origin : Origin) (changed : Bool)
  | checkTasks (expired : Bool) (count : List SyncPath) (overflow : Bool) (missing : Option (List (List SyncPath × Bool)))
  | checkPointers (expired : Bool) (messages : Nat)

def HostCall.actions : HostCall → Actions
  | print => hbPrintf
  | syncPageTable path => hbSyncPageTable path
  | addTask pages overflow creator => hbCallbackAddTask pages overflow creator
  | delTask => hbCallbackDelTask
  | updateCred update => hbCallbackUpdateCred update
  | checkSyscall found origin changed => hbCallbackCheckCredUpdateSyscall found origin changed
  | checkTasks expired count overflow missing => hbCheckTaskPeriodic expired count overflow missing
  | checkPointers expired messages => hbCheckFunctionPointersPeriodic expired messages

abbrev Free (held : List HostLock) (actions : Actions) : Prop := Neutral HostLock.rank .memSync held actions

/-- All that is held ranks below a lock. -/
def Below (k : HostLock) (held : List HostLock) : Prop := ∀ h ∈ held, h.rank < k.rank

section Order
variable {held : List HostLock}

theorem Below.mono {k k' : HostLock} (lower : k.rank ≤ k'.rank) (below : Below k held) : Below k' held :=
  fun h member => (below h member).trans_le lower

theorem Below.cons {k k' : HostLock} (lower : k.rank < k'.rank) (below : Below k held) : Below k' (k::held) :=
  List.forall_mem_cons.mpr ⟨lower,below.mono lower.le⟩

theorem hbPrintf_free (below : Below .log held) : Free held hbPrintf := .critical below .work

theorem prints_free (n : Nat) (below : Below .log held) : Free held (prints n) := .flatMap fun _ _ => hbPrintf_free below

theorem hbPrintf_keeps : ∀ action ∈ hbPrintf, action.Keeps HostLock.memSync := by
  intro action member
  rcases List.mem_cons.mp member with rfl | member
  · trivial
  · rcases List.mem_cons.mp member with rfl | member
    · trivial
    · rw [List.mem_singleton.mp member]
      exact nofun

theorem clearNull_endless : Endless HostLock.memSync clearNull := by
  refine .append (fun action member => ?_) (.again hbPrintf_keeps)
  obtain ⟨_,_,inside⟩ := List.mem_flatMap.mp member
  exact hbPrintf_keeps action inside

theorem clearNull_ordered (below : Below .log held) : Ordered HostLock.rank .memSync held clearNull := by
  refine (prints_free 2 below).before _ (.again ?_)
  refine .acquire below (.work (.release List.mem_cons_self ?_))
  rw [List.erase_cons_head]
  exact .done

theorem newPageTable_free (below : Below .memPool held) (guarded : .memSync ∈ held) : Free held newPageTable := by
  have print : Free held hbPrintf := hbPrintf_free (below.mono (by decide))
  have memory : Free held (hbGetMemory clearNull) :=
    (Neutral.taking below guarded (by decide) clearNull_endless (clearNull_ordered (below.mono (by decide)))).append print
  have table : Free held vmCheckAllocPageTable := ((print.append memory).append .work).append print
  exact ((print.append table).append print).append print

theorem hbSyncPageTable_free (below : Below .memSync held) (path : SyncPath) : Free held (hbSyncPageTable path) := by
  cases path with
  | early message =>
    cases message with
    | true => exact hbPrintf_free (below.mono (by decide))
    | false => exact .nil
  | walk levels =>
    refine (Neutral.critical below (.flatMap ?_)).append .work
    intro isNew _
    cases isNew with
    | true => exact newPageTable_free (below.cons (by decide)) List.mem_cons_self
    | false => exact .work

theorem hbSyncPage_free (below : Below .memSync held) (pages : List SyncPath) : Free held (hbSyncPage pages) :=
  .flatMap fun path _ => hbSyncPageTable_free below path

theorem taskManagerWork_free (below : Below .taskManager held) : Free held taskManagerWork := .critical below .work

theorem below_nothing (k : HostLock) : Below k [] := by simp [Below]

theorem hbCallbackAddTask_free (pages : List SyncPath) (overflow : Bool) (creator : Creator) :
    Free [] (hbCallbackAddTask pages overflow creator) := by
  have found : Free [] taskManagerWork := taskManagerWork_free (below_nothing _)
  have print : ∀ n, Free [] (prints n) := fun n => prints_free n (below_nothing _)
  refine ((hbSyncPage_free (below_nothing _) pages).append (.critical (below_nothing _) ?_)).append ?_
  · cases overflow with
    | true => exact prints_free 2 ((below_nothing .taskManager).cons (by decide))
    | false => exact .work
  · cases overflow with
    | true => exact .nil
    | false =>
      refine found.append ?_
      cases creator with
      | unknown => exact .nil
      | disallowed => exact found.append (print 3)
      | traced => exact print 1
      | plain => exact .work

theorem hbCallbackUpdateCred_free (update : Update) : Free [] (hbCallbackUpdateCred update) := by
  have found : Free [] taskManagerWork := taskManagerWork_free (below_nothing _)
  have print : ∀ n, Free [] (prints n) := fun n => prints_free n (below_nothing _)
  cases update with
  | unknown => exact found.append (print 1)
  | refused => exact (found.append found).append (print 3)
  | accepted => exact found.append .work

theorem hbCallbackCheckCredUpdateSyscall_free (found : Bool) (origin : Origin) (changed : Bool) :
    Free [] (hbCallbackCheckCredUpdateSyscall found origin changed) := by
  have work : Free [] taskManagerWork := taskManagerWork_free (below_nothing _)
  have print : ∀ n, Free [] (prints n) := fun n => prints_free n (below_nothing _)
  have kill : Free [] (prints 3 ++ hbSetExitFlagInListWithLock) := (print 3).append work
  refine work.append ?_
  cases found with
  | false => exact .nil
  | true =>
    refine Neutral.append ?_ ?_
    · cases origin with
      | fine => exact .work
      | tracedExec => exact kill
      | workaround => exact print 1
      | abnormal => exact kill
    · cases changed with
      | true => exact kill
      | false => exact .work

theorem hbCheckTaskList_free (below : Below .memSync held) (count : List SyncPath) (overflow : Bool)
    (missing : Option (List (List SyncPath × Bool))) : Free held (hbCheckTaskList count overflow missing) := by
  have print : ∀ n, Free held (prints n) := fun n => prints_free n (below.mono (by decide))
  refine ((hbSyncPage_free below count).append ?_).append ?_
  · cases overflow with
    | true => exact print 1
    | false => exact .nil
  · cases missing with
    | none => exact .nil
    | some entries =>
      refine Neutral.append (.flatMap ?_) (print 1)
      rintro ⟨pages,hidden⟩ _
      refine (hbSyncPage_free below pages).append ?_
      cases hidden with
      | true => exact print 3
      | false => exact .nil

theorem tried_free (k : HostLock) {body : Actions} (body_free : Free [k] body) : Free [] (tried k body) :=
  .attempt (by simp) body_free

/-- Every function waits for locks in the order of their ranks and gives all of them back. -/
theorem HostCall.actions_free (call : HostCall) : Free [] call.actions := by
  have timer : Free [] hbCheckTimerExpiredAndUpdate := tried_free .time .work
  cases call with
  | print => exact hbPrintf_free (below_nothing _)
  | syncPageTable path => exact hbSyncPageTable_free (below_nothing _) path
  | addTask pages overflow creator => exact hbCallbackAddTask_free pages overflow creator
  | delTask => exact taskManagerWork_free (below_nothing _)
  | updateCred update => exact hbCallbackUpdateCred_free update
  | checkSyscall found origin changed => exact hbCallbackCheckCredUpdateSyscall_free found origin changed
  | checkTasks expired count overflow missing =>
    refine timer.append ?_
    cases expired with
    | true => exact tried_free .tasklist (hbCheckTaskList_free ((below_nothing _).cons (by decide)) count overflow missing)
    | false => exact .nil
  | checkPointers expired messages =>
    refine timer.append ?_
    cases expired with
    | true => exact prints_free messages (below_nothing _)
    | false => exact .nil

end Order

section Cores
variable {n : Nat}

/-- The pool has this many pages left, and each core these calls to make. -/
def hostStart (pages : Nat) (calls : Fin n → List HostCall) : LockState (Fin n) HostLock :=
  .start pages fun core => (calls core).flatMap HostCall.actions

/-- The cores only lock each other out through an empty pool. -/
structure LockedOutByPool (pages : Nat) (calls : Fin n → List HostCall) : Prop where
  finish_iff : (∀ schedule, Finishes (run LockState.move (hostStart pages calls) schedule)) ↔
    ∀ schedule core, ¬ (run LockState.move (hostStart pages calls) schedule).FindsEmpty core
  enough : ∑ core, demand ((calls core).flatMap HostCall.actions) ≤ pages →
    ∀ schedule core, ¬ (run LockState.move (hostStart pages calls) schedule).FindsEmpty core
  held : ∀ schedule core, (run LockState.move (hostStart pages calls) schedule).FindsEmpty core →
    ∀ more, (run LockState.move (hostStart pages calls) (schedule ++ more)).owner .memSync = some core

end Cores
end HyperBox.Host
