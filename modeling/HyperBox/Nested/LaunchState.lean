import HyperBox.Nested.Control

/-! The launch states of VMCSs. When the callback is done, the stub enters the current VMCS with
VMLAUNCH if the handlers have asked for it and with VMRESUME otherwise; the processor refuses
the one on a launched VMCS and the other on a clear one. -/
namespace HyperBox.Nested
open HyperBox.Library HyperBox.PageTable HyperBox.Ept

section Launched
variable {n : Nat} {env : VmxEnv n} {cpuId : Fin n} {t : Control n} {addr region : U64}

theorem clear_launched_other (apart : region ≠ addr) :
    (t.clear env cpuId addr).launched region = t.launched region := by
  unfold Control.clear
  split
  · exact Function.update_of_ne apart _ _
  · rfl

theorem relink_launched_other (apart : region ≠ addr) :
    (t.relink env cpuId addr).launched region = t.launched region := by
  unfold Control.relink
  split
  · exact clear_launched_other apart
  · rfl

theorem unlink_launched_other (apart : region ≠ t.link cpuId) :
    (t.unlink env cpuId).launched region = t.launched region := by
  unfold Control.unlink
  split
  · exact clear_launched_other apart
  · rfl

theorem loads_clearable (loads : t.loads env cpuId addr) : clearable env cpuId addr ∧ addr ≠ noVmcs := by
  simp only [Control.loads,Bool.and_eq_true] at loads
  exact ⟨by simpa [clearable] using loads.1,validAddress_real loads.1.1⟩

theorem unlink_clear (loads : t.loads env cpuId addr) :
    (t.unlink env cpuId).launched addr = false ↔
      (env.supportVmcsShadowing = true ∧ t.link cpuId = addr) ∨ t.launched addr = false := by
  obtain ⟨clearable,real⟩ := loads_clearable loads
  by_cases linked : env.supportVmcsShadowing = true ∧ t.link cpuId = addr
  · obtain ⟨shadowing,rfl⟩ := linked
    have cleared : (t.unlink env cpuId).launched (t.link cpuId) = false := by
      simp [Control.unlink,shadowing,real,Control.clear,clearable,Control.mark,Control.setLaunched]
    simp [cleared,shadowing]
  · have kept : (t.unlink env cpuId).launched addr = t.launched addr := by
      by_cases here : addr = t.link cpuId
      · have plain : ¬ env.supportVmcsShadowing = true := fun shadowing => linked ⟨shadowing,here.symm⟩
        simp [Control.unlink,plain]
      · exact unlink_launched_other here
    rw [kept]
    simp [linked]

end Launched

section Own
variable {n : Nat} {env : VmxEnv n} {cpuId : Fin n} {t : Control n} {addr : U64}

def OwnLaunched (env : VmxEnv n) (t : Control n) : Prop := ∀ cpuId, t.launched (env.guestVmcsPhyAddr cpuId) = true

theorem OwnLaunched.clear (own : OwnLaunched env t) (foreign : Foreign env addr) :
    OwnLaunched env (t.clear env cpuId addr) := by
  intro other
  rw [clear_launched_other (foreign_ne_own foreign)]
  exact own other

theorem OwnLaunched.relink (own : OwnLaunched env t) (foreign : Foreign env addr) :
    OwnLaunched env (t.relink env cpuId addr) := by
  intro other
  rw [relink_launched_other (foreign_ne_own foreign)]
  exact own other

theorem OwnLaunched.unlink (own : OwnLaunched env t) (link : t.link cpuId = noVmcs ∨ Foreign env (t.link cpuId)) :
    OwnLaunched env (t.unlink env cpuId) := by
  intro other
  have apart : env.guestVmcsPhyAddr other ≠ t.link cpuId := by
    rcases link with none | foreign
    · rw [none]
      exact guest_ne_noVmcs env other
    · exact foreign_ne_own foreign
  rw [unlink_launched_other apart]
  exact own other

theorem OwnLaunched.handle (own : OwnLaunched env t) (link : t.link cpuId = noVmcs ∨ Foreign env (t.link cpuId))
    {inst : VmxInst} (named : inst.Names (Foreign env)) : OwnLaunched env (t.handle env cpuId inst) := by
  have entered : OwnLaunched env (t.enterNested env cpuId) := by
    intro other
    rw [Control.enterNested,Control.load_launched]
    exact own.unlink link other
  cases inst with
  | vmclear data =>
    have cleared : OwnLaunched env (t.clear env cpuId data) := own.clear named
    dsimp only [Control.handle,Control.vmclear]
    split
    · have off : OwnLaunched env ((t.clear env cpuId data).withSlots (t.toSlotState.setPointer cpuId 0)) := cleared
      refine off.unlink ?_
      dsimp only [Control.withSlots]
      rwa [Control.clear_link]
    · exact cleared
  | vmptrld data =>
    have loaded : OwnLaunched env (t.withSlots (t.toSlotState.setPointer cpuId data)) := own
    exact loaded.relink named
  | vmlaunch =>
    dsimp only [Control.handle,Control.vmlaunch]
    split
    · exact entered
    · exact entered
  | vmresume =>
    dsimp only [Control.handle,Control.vmresume]
    split
    · exact entered
    · exact entered
  | _ => exact own

theorem OwnLaunched.returns (own : OwnLaunched env t)
    (current : t.current cpuId = env.guestVmcsPhyAddr cpuId ∨ Foreign env (t.current cpuId))
    (pointer : Foreign env (t.pointer cpuId)) (link : t.link cpuId = noVmcs ∨ Foreign env (t.link cpuId))
    {inst : VmxInst} (named : inst.Names (Foreign env)) : OwnLaunched env (t.returns env cpuId inst) := by
  have saved : OwnLaunched env (t.setVmLaunch cpuId false) := own
  unfold Control.returns
  split
  next home =>
    have handled := saved.handle link named
    unfold Control.refresh
    split
    · exact handled.relink (handle_pointer foreign_zero pointer named)
    · exact handled
  next away =>
    unfold Control.leave
    split
    · have loaded : OwnLaunched env ((t.setVmLaunch cpuId false).setCurrent cpuId (env.guestVmcsPhyAddr cpuId)) := own
      exact loaded.relink (current.resolve_left away)
    · exact saved

theorem OwnLaunched.enter (own : OwnLaunched env t) : OwnLaunched env (t.enter cpuId) := by
  intro other
  unfold Control.enter Control.setLaunched
  by_cases here : env.guestVmcsPhyAddr other = t.current cpuId
  · simp [← here,own other]
  · simpa [here] using own other

end Own

section Fits
variable {n : Nat} {env : VmxEnv n} {cpuId : Fin n} {t : Control n}

/-- The entry with which the callback ends is the one that the current VMCS allows. -/
def Control.Fits (cpuId : Fin n) (t : Control n) : Prop := t.launched (t.current cpuId) = !t.vmLaunch cpuId

/-- The region is clear when it is entered: it was already, or it is cleared as the shadow VMCS. -/
def Control.Clears (env : VmxEnv n) (cpuId : Fin n) (t : Control n) (addr : U64) : Prop :=
  (env.supportVmcsShadowing = true ∧ t.link cpuId = addr) ∨ t.launched addr = false

def Control.Ready (env : VmxEnv n) (cpuId : Fin n) (t : Control n) (inst : VmxInst) : Prop :=
  if t.current cpuId = env.guestVmcsPhyAddr cpuId then
    match inst with
    | .vmlaunch => t.loads env cpuId (t.pointer cpuId) → t.Clears env cpuId (t.pointer cpuId)
    | .vmresume =>
      if env.supportVmcsShadowing then
        t.loads env cpuId (t.pointer cpuId) ∧ t.Clears env cpuId (t.pointer cpuId)
      else t.loads env cpuId (t.pointer cpuId) → t.launched (t.pointer cpuId) = true
    | _ => True
  else (hbFindNestedVmcsStruct t.array (t.current cpuId)).isSome ∨ t.launched (t.current cpuId) = true

theorem enterNested_current (home : t.current cpuId = env.guestVmcsPhyAddr cpuId) :
    (t.enterNested env cpuId).current cpuId =
      if t.loads env cpuId (t.pointer cpuId) then t.pointer cpuId else env.guestVmcsPhyAddr cpuId := by
  unfold Control.enterNested Control.load
  rw [unlink_loads]
  split
  · simp [Control.setCurrent]
  · rw [Control.unlink_current,home]

variable (own : OwnLaunched env t) (link : t.link cpuId = noVmcs ∨ Foreign env (t.link cpuId))
include own link

theorem vmlaunch_fits (home : t.current cpuId = env.guestVmcsPhyAddr cpuId) (off : t.vmLaunch cpuId = false) :
    (t.vmlaunch env cpuId).Fits cpuId ↔
      (t.loads env cpuId (t.pointer cpuId) → t.Clears env cpuId (t.pointer cpuId)) := by
  have current := enterNested_current home
  unfold Control.vmlaunch Control.Fits
  rw [unlink_loads]
  split
  next loads =>
    rw [if_pos loads] at current
    simp only [Control.setVmLaunch,Function.update_self,Bool.not_true,current,loads,true_imp_iff]
    rw [Control.enterNested,Control.load_launched]
    exact unlink_clear loads
  next fails =>
    rw [if_neg fails] at current
    have flag : (t.enterNested env cpuId).vmLaunch cpuId = false := by
      rw [Control.enterNested,Control.load_vmLaunch,Control.unlink_vmLaunch,off]
    simp only [current,flag,fails,Bool.false_eq_true,false_imp_iff,iff_true,Bool.not_false]
    rw [Control.enterNested,Control.load_launched]
    exact own.unlink link cpuId

theorem vmresume_fits (home : t.current cpuId = env.guestVmcsPhyAddr cpuId) (off : t.vmLaunch cpuId = false) :
    (t.vmresume env cpuId).Fits cpuId ↔
      if env.supportVmcsShadowing then
        t.loads env cpuId (t.pointer cpuId) ∧ t.Clears env cpuId (t.pointer cpuId)
      else t.loads env cpuId (t.pointer cpuId) → t.launched (t.pointer cpuId) = true := by
  have current := enterNested_current home
  have launched : (t.enterNested env cpuId).launched = (t.unlink env cpuId).launched := Control.load_launched _
  have flag : (t.enterNested env cpuId).vmLaunch cpuId = false := by
    rw [Control.enterNested,Control.load_vmLaunch,Control.unlink_vmLaunch,off]
  unfold Control.vmresume Control.Fits
  cases shadowing : env.supportVmcsShadowing with
  | true =>
    simp only [if_true,Control.setVmLaunch,Function.update_self,Bool.not_true,launched,current]
    by_cases loads : t.loads env cpuId (t.pointer cpuId)
    · rw [if_pos loads]
      simp only [loads,true_and]
      exact unlink_clear loads
    · rw [if_neg loads,own.unlink link cpuId]
      simp [loads]
  | false =>
    have plain : t.unlink env cpuId = t := by simp [Control.unlink,shadowing]
    simp only [Bool.false_eq_true,if_false,launched,current,flag,Bool.not_false,plain]
    by_cases loads : t.loads env cpuId (t.pointer cpuId)
    · simp [loads]
    · simp [loads,own cpuId]

omit own link in
theorem returns_stays {inst : VmxInst} (home : t.current cpuId = env.guestVmcsPhyAddr cpuId)
    (stays : isBackToVm inst = false) :
    (t.returns env cpuId inst).current cpuId = env.guestVmcsPhyAddr cpuId ∧
      (t.returns env cpuId inst).vmLaunch cpuId = false := by
  obtain ⟨current,flag⟩ := @Control.handle_stays _ env cpuId (t.setVmLaunch cpuId false) inst stays
  unfold Control.returns
  rw [if_pos home,Control.refresh_current,Control.refresh_vmLaunch,current,flag]
  exact ⟨home,by simp [Control.setVmLaunch]⟩

omit own link in
theorem returns_back {inst : VmxInst} (home : t.current cpuId = env.guestVmcsPhyAddr cpuId)
    (back : isBackToVm inst = true) :
    t.returns env cpuId inst = (t.setVmLaunch cpuId false).handle env cpuId inst := by
  unfold Control.returns
  rw [if_pos home,Control.refresh,if_neg (by simp [back])]

omit own link in
theorem leave_fits (returned : OwnLaunched env (t.leave env cpuId)) (off : t.vmLaunch cpuId = false) :
    (t.leave env cpuId).Fits cpuId ↔
      (hbFindNestedVmcsStruct t.array (t.current cpuId)).isSome ∨ t.launched (t.current cpuId) = true := by
  unfold Control.leave at returned ⊢
  split
  next found =>
    rw [if_pos found] at returned
    have launched := returned cpuId
    simpa [Control.Fits,Control.setCurrent,off,found] using launched
  next missing => simp [Control.Fits,off,missing]

/-- The entry fits exactly if the state before the exit was ready for the instruction. -/
theorem returns_fits (current : t.current cpuId = env.guestVmcsPhyAddr cpuId ∨ Foreign env (t.current cpuId))
    (pointer : Foreign env (t.pointer cpuId)) {inst : VmxInst} (named : inst.Names (Foreign env)) :
    (t.returns env cpuId inst).Fits cpuId ↔ t.Ready env cpuId inst := by
  have saved : OwnLaunched env (t.setVmLaunch cpuId false) := own
  have off : (t.setVmLaunch cpuId false).vmLaunch cpuId = false := by simp [Control.setVmLaunch]
  have after := own.returns current pointer link named
  unfold Control.Ready
  by_cases home : t.current cpuId = env.guestVmcsPhyAddr cpuId
  · rw [if_pos home]
    have stays : isBackToVm inst = false → (t.returns env cpuId inst).Fits cpuId := by
      intro stays
      obtain ⟨here,flag⟩ := returns_stays home stays
      rw [Control.Fits,here,flag]
      exact after cpuId
    cases inst with
    | vmlaunch =>
      rw [returns_back home rfl]
      exact vmlaunch_fits saved link home off
    | vmresume =>
      rw [returns_back home rfl]
      exact vmresume_fits saved link home off
    | _ => exact iff_of_true (stays rfl) trivial
  · have left : t.returns env cpuId inst = (t.setVmLaunch cpuId false).leave env cpuId := if_neg home
    rw [if_neg home,left]
    rw [left] at after
    exact leave_fits after off

end Fits

section Main
variable {n : Nat} {env : VmxEnv n} {s : NestedState n}

/-- The stub's VMLAUNCH or VMRESUME does not fail on the launch state. -/
def EntryFits (env : VmxEnv n) (s : NestedState n) : VmxEvent n → Prop
  | .exit taken =>
    ((returned env taken s).regions ((returned env taken s).current taken.cpuId)).launched =
      !(returned env taken s).vmLaunch taken.cpuId
  | .shadowed _ _ _ => True

def Control.ReadyFor (env : VmxEnv n) (t : Control n) : VmxEvent n → Prop
  | .exit taken => t.Ready env taken.cpuId taken.inst
  | .shadowed _ _ _ => True

def EntryReady (env : VmxEnv n) (s : NestedState n) (event : VmxEvent n) : Prop := (s.control env).ReadyFor env event

theorem entry_fits_iff (placed : Placed env (Sound env) s) (own : OwnLaunched env (s.control env)) {event : VmxEvent n}
    (named : event.Names (Sound env)) : EntryFits env s event ↔ EntryReady env s event := by
  cases event with
  | exit taken =>
    have seen := control_returned placed named
    have fits : EntryFits env s (.exit taken) ↔ ((returned env taken s).control env).Fits taken.cpuId := Iff.rfl
    rw [fits,seen]
    exact returns_fits own ((placed.link taken.cpuId).imp_right And.left)
      ((placed.current taken.cpuId).imp_right And.left) (placed.pointer taken.cpuId).1
      (VmxInst.Names.mono (fun _ sound => sound.1) named)
  | shadowed cpuId field value => exact Iff.rfl

theorem own_launched_step (placed : Placed env (Sound env) s) (own : OwnLaunched env (s.control env))
    {event : VmxEvent n} (named : event.Names (Sound env)) : OwnLaunched env ((vmxStep env s event).control env) := by
  rw [control_vmxStep placed named]
  cases event with
  | exit taken =>
    have after := own.returns ((placed.current taken.cpuId).imp_right And.left) (placed.pointer taken.cpuId).1
      ((placed.link taken.cpuId).imp_right And.left) (VmxInst.Names.mono (fun _ sound => sound.1) named)
    exact after.enter
  | shadowed cpuId field value => exact own

/-- In a run whose operands name no region of Hyper-box's own, the stub never fails on a launch
state exactly if every exit finds its VMCSs ready for the instruction. -/
theorem entries_fit_launch_state (env : VmxEnv n) {start : NestedState n} (launched : Launched env start)
    (own : ∀ cpuId, (start.regions (env.guestVmcsPhyAddr cpuId)).launched = true) (events : List (VmxEvent n))
    (named : ∀ event ∈ events, event.Names (Sound env)) :
    Along (vmxStep env) (EntryFits env) start events ↔ Along (vmxStep env) (EntryReady env) start events := by
  apply along_iff (fun s => Placed env (Sound env) s ∧ OwnLaunched env (s.control env)) _ _
    ⟨launched.placed sound_zero,own⟩ named
  · rintro s event sound ⟨placed,own⟩ _
    have next := run_placed placed (List.forall_mem_singleton.mpr sound)
    exact ⟨next,own_launched_step placed own sound⟩
  · rintro s event sound ⟨placed,own⟩
    exact entry_fits_iff placed own sound

end Main

section Sample

def shadowLaunch : NestedState 1 :=
  { sampleLaunch with
    regions := fun addr =>
      if addr = 0x2000 then ⟨4,true,sampleOwnField⟩
      else if addr = 0x5000 ∨ addr = 0x6000 then ⟨4,false,fun _ => 0⟩
      else ⟨0,false,fun _ => 0⟩ }

theorem shadowLaunch_launched : Launched shadowVmx shadowLaunch :=
  ⟨by decide,by decide,by decide,by decide,by decide,by decide,by decide,rfl⟩

theorem sound_shadow : Sound shadowVmx 0x5000 := ⟨foreign_sample,fun _ => by decide⟩

def roundTrip : List (VmxEvent 1) :=
  [sampleExit (.vmptrld 0x5000),sampleExit .vmlaunch,sampleExit .invalidate,sampleExit .vmresume]

theorem roundTrip_sound : ∀ event ∈ roundTrip, event.Names (Sound shadowVmx) := by
  intro event member
  simp only [roundTrip,List.mem_cons,List.not_mem_nil,or_false] at member
  rcases member with rfl | rfl | rfl | rfl
  · exact sound_shadow
  all_goals trivial

theorem roundTrip_ready : Along (vmxStep shadowVmx) (EntryReady shadowVmx) shadowLaunch roundTrip := by
  apply (along_control (shadowLaunch_launched.placed sound_zero) roundTrip_sound).mpr
  refine ⟨?_,?_,?_,?_,trivial⟩
  · dsimp only [sampleExit,Control.ReadyFor,Control.Ready]
    rw [if_pos (by decide)]
    trivial
  · dsimp only [sampleExit,Control.ReadyFor,Control.Ready]
    rw [if_pos (by decide +kernel)]
    exact fun _ => .inl ⟨rfl,by decide +kernel⟩
  · dsimp only [sampleExit,Control.ReadyFor,Control.Ready]
    rw [if_neg (by decide +kernel)]
    exact .inl (by decide +kernel)
  · dsimp only [sampleExit,Control.ReadyFor,Control.Ready]
    rw [if_pos (by decide +kernel),if_pos (by decide)]
    exact ⟨by decide +kernel,.inl ⟨rfl,by decide +kernel⟩⟩

theorem entries_fit_launch_state_sample : Along (vmxStep shadowVmx) (EntryFits shadowVmx) shadowLaunch roundTrip :=
  (entries_fit_launch_state shadowVmx shadowLaunch_launched (by decide) roundTrip roundTrip_sound).mpr roundTrip_ready

/-- A VMRESUME with no VMCS loaded asks for a launch of the own VMCS, which is launched already. -/
theorem resume_without_vmcs :
    Launched shadowVmx shadowLaunch ∧ (shadowLaunch.regions 0x2000).launched = true ∧
    ¬ EntryFits shadowVmx shadowLaunch (sampleExit .vmresume) := by
  refine ⟨shadowLaunch_launched,rfl,?_⟩
  intro fits
  exact absurd fits (by unfold EntryFits sampleExit; decide +kernel)

end Sample

end HyperBox.Nested
