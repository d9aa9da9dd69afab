import HyperBox.Library.Assembly

/-! `hb_vm_launch`, which makes the running processor the guest. The guest goes on behind the
VMLAUNCH with the same stack, so that its caller sees the procedure return in either case. -/
namespace HyperBox.Asm
open HyperBox.Library

inductive LaunchLabel where
  | getRip
  | success
  | errorInvalid
  | errorValid
  | finish
deriving DecidableEq

inductive LaunchOp where
  | vmwrite (field value : Reg)
  | vmlaunch
deriving DecidableEq

def vmGuestRsp : Word := 0x681C
def vmGuestRip : Word := 0x681E

def returningInGuest : List (Instr LaunchLabel LaunchOp) := [.pop .rbx,.movImm .rax 0,.ret]

def returningInHost : List (Instr LaunchLabel LaunchOp) :=
  [.pop .rbx,.jc .errorInvalid,.jz .errorValid,.movImm .rax 0,.jmp .finish,.label .errorInvalid,.movImm .rax (-1),
    .jmp .finish,.label .errorValid,.movImm .rax (-2),.label .finish,.ret,.label .success] ++ returningInGuest

def hbVmLaunch : List (Instr LaunchLabel LaunchOp) :=
  [.push .rbx,.movImm .rbx vmGuestRsp,.mov .rax .rsp,.op (.vmwrite .rbx .rax),.callLabel .getRip,.label .getRip,
    .pop .rax,.movImm .rbx vmGuestRip,.addDistance .rax .success .getRip,.op (.vmwrite .rbx .rax),.op .vmlaunch] ++
    returningInHost

/-- The virtual-machine state of a core: whether there is a current VMCS, its fields, the rest. -/
structure VmxCore (τ : Type*) where
  current : Bool
  vmcs : Word → Word
  other : τ

inductive Launched (τ : Type*) where
  | enters (core : VmxCore τ)
  | failInvalid
  | failValid

section Core
variable {τ : Type*} (place : Nat → Word) (launch : VmxCore τ → Launched τ)

def VmxCore.write (core : VmxCore τ) (field value : Word) : VmxCore τ :=
  { core with vmcs := Function.update core.vmcs field value }

/-- Without a current VMCS both instructions set CF and do nothing else; a launch that is refused for
the controls, the host state or the state of the VMCS sets ZF. An entry takes the stack pointer from
the VMCS. A guest state that is not valid sets no flag: it is an exit to the host's RIP, and none of
the outcomes here. -/
def launchProcessor : Surroundings LaunchOp (VmxCore τ) where
  place := place
  exec o m :=
    match o with
    | .vmwrite field value =>
      if m.rest.current then
        .next { m.flags false false with rest := m.rest.write (m.regs field) (m.regs value) }
      else .next (m.flags true false)
    | .vmlaunch =>
      if m.rest.current then
        match launch m.rest with
        | .enters core => .leaves { m.set .rsp (m.rest.vmcs vmGuestRsp) with rest := core }
        | .failInvalid => .next (m.flags true false)
        | .failValid => .next (m.flags false true)
      else .next (m.flags true false)

variable {place launch} {m mid : Machine (VmxCore τ)}

/-- Where the procedure is when the guest is entered: RBX is on the stack and nothing else is lost. -/
structure Midway (m mid : Machine (VmxCore τ)) : Prop where
  rsp : mid.regs .rsp = m.regs .rsp - 8
  saved : loadWord mid.mem (m.regs .rsp - 8) = m.regs .rbx
  back : loadWord mid.mem (m.regs .rsp) = loadWord m.mem (m.regs .rsp)
  kept : ∀ r, r ≠ .rax → r ≠ .rbx → r ≠ .rsp → mid.regs r = m.regs r
  stack : ∀ addr, (addr - m.regs .rsp).toNat + 16 < 2^64 → mid.mem addr = m.mem addr

/-- Only RAX, RBX, the flags and what is no memory may change midway. -/
theorem Midway.change {mid' : Machine (VmxCore τ)} (midway : Midway m mid) (mem : mid'.mem = mid.mem)
    (regs : ∀ r, r ≠ .rax → r ≠ .rbx → mid'.regs r = mid.regs r) : Midway m mid' where
  rsp := by rw [regs _ (by decide) (by decide),midway.rsp]
  saved := by rw [mem,midway.saved]
  back := by rw [mem,midway.back]
  kept r rax rbx rsp := by rw [regs r rax rbx,midway.kept r rax rbx rsp]
  stack addr above := by rw [mem,midway.stack addr above]

def leaving (mid : Machine (VmxCore τ)) (result : Word) : Machine (VmxCore τ) :=
  let popped := (mid.pop .rbx).set .rax result
  popped.set .rsp (popped.regs .rsp + 8)

theorem leaving_returns (midway : Midway m mid) (result : Word) :
    ReturnsTo 16 m (leaving mid result) result := by
  have raised : (mid.pop .rbx).regs .rsp = m.regs .rsp := by
    rw [mid.pop_rsp (by decide),midway.rsp,BitVec.sub_add_cancel]
  refine ⟨?_,?_,?_,midway.stack⟩
  · simp [leaving]
  · simp [leaving,raised]
  · intro r rax rsp
    have same : (leaving mid result).regs r = (mid.pop .rbx).regs r := by simp [leaving,rax,rsp]
    rw [same]
    by_cases rbx : r = .rbx
    · rw [rbx,mid.pop_self,midway.rsp,midway.saved]
    · rw [mid.pop_of_ne rbx rsp,midway.kept r rax rbx rsp]

theorem leaving_back (midway : Midway m mid) (result : Word) :
    loadWord ((mid.pop .rbx).set .rax result).mem (((mid.pop .rbx).set .rax result).regs .rsp) =
      loadWord m.mem (m.regs .rsp) := by
  rw [Machine.set_of_ne _ (by decide),mid.pop_rsp (by decide),midway.rsp,BitVec.sub_add_cancel]
  exact midway.back

/-- VMWRITE, which never stops the code. -/
def wrote (m : Machine (VmxCore τ)) (field value : Reg) : Machine (VmxCore τ) :=
  if m.rest.current then { m.flags false false with rest := m.rest.write (m.regs field) (m.regs value) }
  else m.flags true false

theorem wrote_mem (m : Machine (VmxCore τ)) (field value : Reg) : (wrote m field value).mem = m.mem := by
  unfold wrote
  split <;> rfl

theorem wrote_regs (m : Machine (VmxCore τ)) (field value : Reg) : (wrote m field value).regs = m.regs := by
  unfold wrote
  split <;> rfl

theorem exec_vmwrite (m : Machine (VmxCore τ)) (field value : Reg) :
    (launchProcessor place launch).exec (.vmwrite field value) m = .next (wrote m field value) := by
  simp only [launchProcessor,wrote]
  split <;> rfl

/-- The VMCS that the guest is entered with. -/
def ready (place : Nat → Word) (m : Machine (VmxCore τ)) : VmxCore τ :=
  (m.rest.write vmGuestRsp (m.regs .rsp - 8)).write vmGuestRip (place 23)

theorem Midway.start (m : Machine (VmxCore τ)) : Midway m (m.push (m.regs .rbx)) where
  rsp := m.push_rsp _
  saved := loadWord_storeWord _
  back := by
    apply loadWord_store
    unfold Outside
    bv_omega
  kept r _ _ rsp := m.push_of_ne rsp _
  stack addr above := by
    apply storeWord_elsewhere
    bv_omega

/-- A word is pushed and popped again. -/
theorem Midway.scratch (midway : Midway m mid) (value : Word) : Midway m ((mid.push value).pop .rax) where
  rsp := by
    rw [Machine.pop_rsp _ (by decide),Machine.push_rsp,midway.rsp]
    bv_omega
  saved := by
    rw [← midway.saved,Machine.pop_mem,Machine.push_mem,midway.rsp]
    apply loadWord_store
    unfold Outside
    bv_omega
  back := by
    rw [← midway.back,Machine.pop_mem,Machine.push_mem,midway.rsp]
    apply loadWord_store
    unfold Outside
    bv_omega
  kept r rax rbx rsp := by rw [Machine.pop_of_ne _ rax rsp,Machine.push_of_ne _ rsp,midway.kept r rax rbx rsp]
  stack addr above := by
    rw [← midway.stack addr above,Machine.pop_mem,Machine.push_mem,midway.rsp]
    apply storeWord_elsewhere
    bv_omega

theorem Midway.wrote (midway : Midway m mid) (field value : Reg) : Midway m (wrote mid field value) :=
  midway.change (wrote_mem _ _ _) (fun r _ _ => by rw [wrote_regs])

theorem wrote_rest (m : Machine (VmxCore τ)) (field value : Reg) : (Asm.wrote m field value).rest =
    if m.rest.current then m.rest.write (m.regs field) (m.regs value) else m.rest := by
  unfold Asm.wrote
  split <;> rfl

theorem vmwrite_step (m : Machine (VmxCore τ)) (field value : Reg) (rest : List (Instr LaunchLabel LaunchOp)) :
    step hbVmLaunch (launchProcessor place launch) (.running (.op (.vmwrite field value)::rest) m) =
      .running rest (wrote m field value) := by
  rw [step,exec_vmwrite]

variable (place launch) in
/-- The VMCS gets the stack pointer below the saved RBX and the address of `.success`. -/
theorem reaches_launch (m : Machine (VmxCore τ)) :
    ∃ mid, Midway m mid ∧ mid.rest = (if m.rest.current then ready place m else m.rest) ∧
      Reaches hbVmLaunch (launchProcessor place launch) (.running hbVmLaunch m)
        (.running (.op .vmlaunch::returningInHost) mid) := by
  let pushed := m.push (m.regs .rbx)
  let first := (pushed.set .rbx vmGuestRsp).set .rax ((pushed.set .rbx vmGuestRsp).regs .rsp)
  let second := ((wrote first .rbx .rax).push (place 5)).pop .rax
  let sum := (second.set .rbx vmGuestRip).regs .rax + (place 23 - place 5)
  let third := ((second.set .rbx vmGuestRip).set .rax sum).flags
    (decide (sum < (second.set .rbx vmGuestRip).regs .rax)) (sum == 0)
  have saved : Midway m first := (Midway.start m).change rfl (fun r rax rbx => by simp [first,pushed,rax,rbx])
  have later : Midway m second := (saved.wrote .rbx .rax).scratch (place 5)
  have ready : Midway m third := later.change rfl (fun r rax rbx => by simp [third,Machine.flags,rax,rbx])
  have toField : Reaches hbVmLaunch (launchProcessor place launch) (.running hbVmLaunch m)
      (.running (.op (.vmwrite .rbx .rax)::hbVmLaunch.drop 4) first) := .next rfl (.next rfl (.next rfl (.refl _)))
  have toRip : Reaches hbVmLaunch (launchProcessor place launch)
      (.running (hbVmLaunch.drop 4) (wrote first .rbx .rax))
      (.running (.op (.vmwrite .rbx .rax)::.op .vmlaunch::returningInHost) third) :=
    .next rfl (.next rfl (.next rfl (.next rfl (.next rfl (.refl _)))))
  refine ⟨wrote third .rbx .rax,ready.wrote .rbx .rax,?_,
    toField.trans (.next (vmwrite_step _ _ _ _) (toRip.trans (.next (vmwrite_step _ _ _ _) (.refl _))))⟩
  have rip : (second.set .rbx vmGuestRip).regs .rax = place 5 := by
    rw [Machine.set_of_ne _ (by decide),Machine.pop_self,Machine.push_mem,Machine.push_rsp,loadWord_storeWord]
  have rest : third.rest = (wrote first .rbx .rax).rest := rfl
  have start : first.rest = m.rest := rfl
  have rbx : third.regs .rbx = vmGuestRip := by simp [third,Machine.flags]
  have rax : third.regs .rax = place 23 := by
    simp only [third,Machine.flags,Machine.set_self,sum,rip]
    bv_omega
  rw [wrote_rest,rest,wrote_rest,start,rbx,rax]
  by_cases current : m.rest.current
  · simp [current,VmxCore.write,Asm.ready,first,pushed]
  · simp [current]

/-- How the launch goes. -/
def launchOutcome (place : Nat → Word) (launch : VmxCore τ → Launched τ) (m : Machine (VmxCore τ)) : Launched τ :=
  if m.rest.current then launch (ready place m) else .failInvalid

/-- The caller sees one return. After an entry it is the guest that returns, from the address that
the VMCS got; otherwise the host returns with the reason. -/
def LaunchedInPlace (env : Surroundings LaunchOp (VmxCore τ)) (m : Machine (VmxCore τ)) : Launched τ → Prop
  | .enters core => ∃ g m', Reaches hbVmLaunch env (.running hbVmLaunch m) (.gone .vmlaunch g) ∧
      Reaches hbVmLaunch env (continueAt hbVmLaunch env ((ready env.place m).vmcs vmGuestRip) g)
        (.returned (loadWord m.mem (m.regs .rsp)) m') ∧ ReturnsTo 16 m m' 0 ∧ m'.rest = core
  | .failInvalid => ∃ m', Reaches hbVmLaunch env (.running hbVmLaunch m)
      (.returned (loadWord m.mem (m.regs .rsp)) m') ∧ ReturnsTo 16 m m' (-1)
  | .failValid => ∃ m', Reaches hbVmLaunch env (.running hbVmLaunch m)
      (.returned (loadWord m.mem (m.regs .rsp)) m') ∧ ReturnsTo 16 m m' (-2)

theorem reaches_returned (midway : Midway m mid) (result : Word) {env : Surroundings LaunchOp (VmxCore τ)}
    {rest : List (Instr LaunchLabel LaunchOp)} :
    Reaches hbVmLaunch env (.running (.ret::rest) ((mid.pop .rbx).set .rax result))
      (.returned (loadWord m.mem (m.regs .rsp)) (leaving mid result)) := by
  rw [← leaving_back midway result]
  exact .next rfl (.refl _)

theorem launch_refused (env : Surroundings LaunchOp (VmxCore τ)) (midway : Midway m mid) (invalid : Bool) :
    ∃ m', Reaches hbVmLaunch env (.running returningInHost (mid.flags invalid (!invalid)))
      (.returned (loadWord m.mem (m.regs .rsp)) m') ∧ ReturnsTo 16 m m' (if invalid then -1 else -2) := by
  have flagged : Midway m (mid.flags invalid (!invalid)) := midway.change rfl (fun _ _ _ => rfl)
  refine ⟨leaving (mid.flags invalid (!invalid)) (if invalid then -1 else -2),?_,leaving_returns flagged _⟩
  cases invalid with
  | true =>
    have toRet : Reaches hbVmLaunch env (.running returningInHost (mid.flags true false))
        (.running (hbVmLaunch.drop 22) (((mid.flags true false).pop .rbx).set .rax (-1))) :=
      .next rfl (.next rfl (.next rfl (.next rfl (.next rfl (.next rfl (.refl _))))))
    exact toRet.trans (reaches_returned flagged _)
  | false =>
    have toRet : Reaches hbVmLaunch env (.running returningInHost (mid.flags false true))
        (.running (hbVmLaunch.drop 22) (((mid.flags false true).pop .rbx).set .rax (-2))) :=
      .next rfl (.next rfl (.next rfl (.next rfl (.next rfl (.next rfl (.refl _))))))
    exact toRet.trans (reaches_returned flagged _)

/-- Whether the core becomes the guest or not, `hb_vm_launch` returns to its caller with all
registers but RAX and the stack as they were: in the guest with 0, in the host with -1 or -2. -/
theorem hb_vm_launch_in_place (place : Nat → Word) (launch : VmxCore τ → Launched τ) (m : Machine (VmxCore τ))
    (located : Located hbVmLaunch (launchProcessor place launch)) :
    LaunchedInPlace (launchProcessor place launch) m (launchOutcome place launch m) := by
  obtain ⟨mid,midway,rest,reached⟩ := reaches_launch place launch m
  unfold launchOutcome
  by_cases current : m.rest.current
  · rw [if_pos current] at rest ⊢
    have here : (ready place m).current = true := current
    cases launched : launch (ready place m) with
    | enters core =>
      let g : Machine (VmxCore τ) := { mid.set .rsp (mid.rest.vmcs vmGuestRsp) with rest := core }
      have stack : mid.rest.vmcs vmGuestRsp = mid.regs .rsp := by
        rw [rest,midway.rsp]
        simp [ready,VmxCore.write,vmGuestRsp,vmGuestRip]
      have inGuest : Midway m g := midway.change rfl (fun r _ _ => by
        by_cases rsp : r = .rsp
        · simp [g,rsp,stack]
        · simp [g,rsp])
      have leaves : (launchProcessor place launch).exec .vmlaunch mid = .leaves g := by
        simp only [launchProcessor,rest,here,if_true,launched,g]
      have address : (ready place m).vmcs vmGuestRip = place 23 := by simp [ready,VmxCore.write]
      refine ⟨g,leaving g 0,reached.trans (.next ?_ (.refl _)),?_,leaving_returns inGuest 0,rfl⟩
      · rw [step,leaves]
      · have goesOn : continueAt hbVmLaunch (launchProcessor place launch) (place 23) g = .running (hbVmLaunch.drop 23) g :=
          continueAt_place located (k := 22) (by decide) (by simp [hbVmLaunch,returningInHost]) g
        have toRet : Reaches hbVmLaunch (launchProcessor place launch) (.running (hbVmLaunch.drop 23) g)
            (.running [.ret] ((g.pop .rbx).set .rax 0)) := .next rfl (.next rfl (.next rfl (.refl _)))
        have addressed : (ready (launchProcessor place launch).place m).vmcs vmGuestRip = place 23 := address
        rw [addressed,goesOn]
        exact toRet.trans (reaches_returned inGuest 0)
    | failInvalid =>
      obtain ⟨m',returned,same⟩ := launch_refused (launchProcessor place launch) midway true
      refine ⟨m',reached.trans (.next ?_ returned),same⟩
      simp only [step,launchProcessor,rest,here,if_true,launched,Bool.not_true]
    | failValid =>
      obtain ⟨m',returned,same⟩ := launch_refused (launchProcessor place launch) midway false
      refine ⟨m',reached.trans (.next ?_ returned),same⟩
      simp only [step,launchProcessor,rest,here,if_true,launched,Bool.not_false]
  · rw [if_neg current] at rest ⊢
    obtain ⟨m',returned,same⟩ := launch_refused (launchProcessor place launch) midway true
    refine ⟨m',reached.trans (.next ?_ returned),same⟩
    simp only [step,launchProcessor,rest,current,Bool.not_true]
    rfl

end Core

section Sample

def sampleSize : Instr LaunchLabel LaunchOp → Nat
  | .label _ => 0
  | _ => 4

def samplePlace : Nat → Word := laidOut 0xFFFFFFFFA0001000 sampleSize hbVmLaunch

def launchMachine : Machine (VmxCore Unit) := ⟨fun _ => 0x1000,false,false,fun _ => 0,true,fun _ => 0,()⟩

theorem sample_located (launch : VmxCore Unit → Launched Unit) : Located hbVmLaunch (launchProcessor samplePlace launch) :=
  located_laidOut (fun i => by cases i <;> simp [sampleSize]) (by decide) rfl

theorem hb_vm_launch_in_place_sample :
    LaunchedInPlace (launchProcessor samplePlace .enters) launchMachine (.enters (ready samplePlace launchMachine)) :=
  hb_vm_launch_in_place samplePlace .enters launchMachine (sample_located _)

end Sample
end HyperBox.Asm
