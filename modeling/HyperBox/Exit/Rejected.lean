import HyperBox.Exit.Store

/-! The handlers that reject an action of the guest with an invalid-opcode exception. A fault is
delivered on the instruction that caused it, so nothing of the instruction may show. -/
namespace HyperBox.Exit
open HyperBox.PageTable

section Vmcall
variable (data : ExitData) (csSelector gLogInfo : U64) (guest : GuestState)

def hbClearVmxInstFlags : GuestState := { guest with rflags := guest.rflags &&& ~~~rflagsResult }

def hbInsertUdExceptionToVm : GuestState := { guest with udInserted := true }

def setRax (value : U64) : GuestState := { guest with registers := { guest.registers with rax := value } }

def vmServiceGetLoginfo : U64 := 0

/-- Services other than that of the log belong to the shutdown support, which is not built. -/
def hbVmExitCallbackVmcall : GuestState :=
  let svrNum := guest.registers.rax
  let guest := hbClearVmxInstFlags (setRax guest 0)
  if csSelector &&& 0x03 ≠ 0 then hbAdvanceVmGuestRip data (hbInsertUdExceptionToVm guest)
  else
    let guest := hbAdvanceVmGuestRip data guest
    if svrNum = vmServiceGetLoginfo then setRax guest gLogInfo else guest

end Vmcall

def hbVmExitCallbackEptViolation (atSleepNotify shutdowning workaround : Bool) (guest : GuestState) : GuestState :=
  if atSleepNotify || shutdowning || workaround then guest else hbInsertUdExceptionToVm guest

inductive RejectExit where
  | vmcall (csSelector gLogInfo : U64)
  | ldtrTr
  | eptViolation (atSleepNotify shutdowning workaround : Bool)

def RejectExit.handle (env : RootEnv) (data : ExitData) (guest : GuestState) (s : HostTables) :
    RejectExit → GuestState
  | vmcall csSelector gLogInfo => hbVmExitCallbackVmcall data csSelector gLogInfo guest
  | ldtrTr => (hbVmExitCallbackLdtrTr env data guest s).guest
  | eptViolation atSleepNotify shutdowning workaround =>
    hbVmExitCallbackEptViolation atSleepNotify shutdowning workaround guest

/-- The guest goes on as it was at the exit. -/
structure AsAtExit (guest after : GuestState) : Prop where
  registers : after.registers = guest.registers
  rip : after.rip = guest.rip
  rflags : after.rflags = guest.rflags

def RejectExit.Rejects (env : RootEnv) (data : ExitData) (guest : GuestState) (s : HostTables) (exit : RejectExit) :
    Prop := (exit.handle env data guest s).udInserted = true

/-- What the LDTR handler takes for the operand of LLDT, if it can be loaded. -/
def lldtOperand (env : RootEnv) (data : ExitData) (guest : GuestState) (s : HostTables) : Option U64 :=
  if vmInstInfoMemReg data.instInfo then some (destAddrOf data guest)
  else match hbSyncPageTable env.toSyncEnv s (destAddrOf data guest) data.guestCr3 true with
    | .error _ => none
    | .ok (s,_) => hbGetValueFromMemory s.mem env.control data.instInfo (destAddrOf data guest)

/-- VMCALL from user mode, and LLDT of anything but zero. -/
def RejectExit.Forbidden (env : RootEnv) (data : ExitData) (guest : GuestState) (s : HostTables) : RejectExit → Prop
  | vmcall csSelector _ => csSelector &&& 0x03 ≠ 0
  | ldtrTr => vmInstInfoInstIdentity data.instInfo = 2 ∧ ∃ value, lldtOperand env data guest s = some value ∧ value ≠ 0
  | eptViolation _ _ _ => False

section Handlers
variable {env : RootEnv} {data : ExitData} {guest : GuestState} {s : HostTables}

theorem vmcall_rip (csSelector gLogInfo : U64) :
    (hbVmExitCallbackVmcall data csSelector gLogInfo guest).rip = guest.rip + data.instLength := by
  unfold hbVmExitCallbackVmcall
  dsimp only
  split
  · rfl
  · split <;> rfl

/-- A rejected VMCALL has already lost its service number and its flags. -/
theorem vmcall_rejected {csSelector : U64} (user : csSelector &&& 0x03 ≠ 0) (gLogInfo : U64) :
    (hbVmExitCallbackVmcall data csSelector gLogInfo guest).registers = { guest.registers with rax := 0 } ∧
    (hbVmExitCallbackVmcall data csSelector gLogInfo guest).rflags = guest.rflags &&& ~~~rflagsResult := by
  unfold hbVmExitCallbackVmcall
  rw [if_pos user]
  exact ⟨rfl,rfl⟩

theorem deliver_rip (memory : Bool) (destAddr value : U64) :
    (deliver data guest s memory destAddr value).guest.rip = guest.rip := by
  unfold deliver
  split <;> rfl

theorem ldtrTrInst_rip (memory : Bool) (destAddr : U64) :
    (ldtrTrInst env data guest s memory destAddr).guest.rip = guest.rip := by
  have loaded : ∀ (value : Option U64) (load : U64 → GuestState), (∀ value, (load value).rip = guest.rip) →
      ((value.map load).getD guest).rip = guest.rip := by
    intro value load keeps
    cases value with
    | none => rfl
    | some value => exact keeps value
  unfold ldtrTrInst
  dsimp only
  split
  · exact deliver_rip _ _ _
  · exact deliver_rip _ _ _
  · refine loaded _ _ (fun value => ?_)
    unfold lldt
    split <;> rfl
  · exact loaded _ _ (fun _ => rfl)

theorem ldtrTr_rip : (hbVmExitCallbackLdtrTr env data guest s).guest.rip = guest.rip + data.instLength := by
  have advanced : ∀ handled : Handled, handled.guest.rip = guest.rip →
      (hbAdvanceVmGuestRip data handled.guest).rip = guest.rip + data.instLength := by
    intro handled same
    rw [hbAdvanceVmGuestRip,same]
  unfold hbVmExitCallbackLdtrTr
  dsimp only
  apply advanced
  split
  · exact ldtrTrInst_rip _ _
  · split
    · rfl
    · exact ldtrTrInst_rip _ _

theorem vmcall_rejects (fresh : guest.udInserted = false) (csSelector gLogInfo : U64) :
    (hbVmExitCallbackVmcall data csSelector gLogInfo guest).udInserted = true ↔ csSelector &&& 0x03 ≠ 0 := by
  unfold hbVmExitCallbackVmcall
  dsimp only
  split
  next user => exact iff_of_true rfl user
  next kernel =>
    refine iff_of_false ?_ kernel
    split <;> simp [setRax,hbAdvanceVmGuestRip,hbClearVmxInstFlags,fresh]

theorem lldt_rejects (fresh : guest.udInserted = false) (value : U64) :
    (lldt guest value).udInserted = true ↔ value ≠ 0 := by
  unfold lldt
  split
  next null => exact iff_of_false (by simp [fresh]) (not_not.mpr null)
  next other => exact iff_of_true rfl other

theorem ldtrTrInst_rejects (fresh : guest.udInserted = false) (memory : Bool) (destAddr : U64) :
    (ldtrTrInst env data guest s memory destAddr).guest.udInserted = true ↔
      vmInstInfoInstIdentity data.instInfo = 2 ∧ ∃ value,
        (if memory then hbGetValueFromMemory s.mem env.control data.instInfo destAddr else some destAddr) = some value ∧
          value ≠ 0 := by
  unfold ldtrTrInst
  dsimp only
  generalize (if memory then hbGetValueFromMemory s.mem env.control data.instInfo destAddr else some destAddr) = operand
  have delivers : ∀ value, (deliver data guest s memory destAddr value).guest.udInserted = false := by
    intro value
    unfold deliver
    split <;> exact fresh
  split
  next sldt => simp [sldt,delivers]
  next str => simp [str,delivers]
  next isLldt =>
    cases operand with
    | none => simp [fresh]
    | some value => simpa [isLldt] using lldt_rejects fresh value
  next _ _ notLldt =>
    refine iff_of_false ?_ (fun both => notLldt both.1)
    cases operand <;> simp [ltr,fresh]

theorem ldtrTr_rejects (fresh : guest.udInserted = false) :
    (hbVmExitCallbackLdtrTr env data guest s).guest.udInserted = true ↔
      vmInstInfoInstIdentity data.instInfo = 2 ∧ ∃ value, lldtOperand env data guest s = some value ∧ value ≠ 0 := by
  unfold hbVmExitCallbackLdtrTr lldtOperand
  dsimp only [hbAdvanceVmGuestRip]
  split
  · exact ldtrTrInst_rejects fresh false _
  · cases hbSyncPageTable env.toSyncEnv s (destAddrOf data guest) data.guestCr3 true with
    | error s' => simp [fresh]
    | ok result => exact ldtrTrInst_rejects fresh true _

theorem eptViolation_asAtExit (atSleepNotify shutdowning workaround : Bool) :
    AsAtExit guest (hbVmExitCallbackEptViolation atSleepNotify shutdowning workaround guest) := by
  unfold hbVmExitCallbackEptViolation
  split
  · exact ⟨rfl,rfl,rfl⟩
  · exact ⟨rfl,rfl,rfl⟩

theorem moved_not_asAtExit {after : GuestState} (length : data.instLength ≠ 0)
    (moved : after.rip = guest.rip + data.instLength) : ¬ AsAtExit guest after := by
  intro same
  have rip := same.rip
  rw [moved] at rip
  apply length
  simpa using rip

end Handlers

/-- A rejected instruction is left as it was exactly if it is no VMCALL and no LLDT: these are
rejected with RIP behind them. -/
theorem rejected_as_fault_iff (env : RootEnv) (data : ExitData) (guest : GuestState) (s : HostTables) (exit : RejectExit)
    (fresh : guest.udInserted = false) (length : data.instLength ≠ 0) :
    (exit.Rejects env data guest s → AsAtExit guest (exit.handle env data guest s)) ↔
      ¬ exit.Forbidden env data guest s := by
  cases exit with
  | vmcall csSelector gLogInfo =>
    have rejects : RejectExit.Rejects env data guest s (.vmcall csSelector gLogInfo) ↔ csSelector &&& 0x03 ≠ 0 :=
      vmcall_rejects fresh csSelector gLogInfo
    have moved := moved_not_asAtExit length (@vmcall_rip data guest csSelector gLogInfo)
    rw [rejects]
    exact imp_congr_right (fun _ => iff_false_intro moved)
  | ldtrTr =>
    have rejects : RejectExit.Rejects env data guest s .ldtrTr ↔ RejectExit.Forbidden env data guest s .ldtrTr :=
      ldtrTr_rejects fresh
    have moved := moved_not_asAtExit length (@ldtrTr_rip env data guest s)
    rw [rejects]
    exact imp_congr_right (fun _ => iff_false_intro moved)
  | eptViolation atSleepNotify shutdowning workaround =>
    exact iff_of_true (fun _ => eptViolation_asAtExit atSleepNotify shutdowning workaround) not_false

section Sample

def vmcallGuest : GuestState := ⟨⟨5,0,0,0,0,0,0,0,0,0,0,0,0,0,0,0⟩,0x400000,0x47,0,0,0,0,0,0,true,false⟩

def vmcallData : ExitData := ⟨0,3,0,0x3000,false⟩

theorem rejected_as_fault_sample :
    AsAtExit vmcallGuest ((RejectExit.eptViolation false false false).handle sampleRoot vmcallData vmcallGuest
      ⟨sampleMem,0,0,[]⟩) :=
  (rejected_as_fault_iff sampleRoot vmcallData vmcallGuest ⟨sampleMem,0,0,[]⟩ (.eptViolation false false false) rfl
    (by decide)).mpr not_false rfl

/-- A VMCALL from user mode is rejected with RAX and two flags cleared and RIP behind it. -/
theorem vmcall_partly_done :
    (hbVmExitCallbackVmcall vmcallData 0x33 0 vmcallGuest).udInserted = true ∧
    (hbVmExitCallbackVmcall vmcallData 0x33 0 vmcallGuest).registers.rax = 0 ∧
    (hbVmExitCallbackVmcall vmcallData 0x33 0 vmcallGuest).rip = 0x400003 ∧
    (hbVmExitCallbackVmcall vmcallData 0x33 0 vmcallGuest).rflags = 0x6 := by
  decide

end Sample
end HyperBox.Exit
