import HyperBox.Library.Run
import HyperBox.ReadOnly.Module

/-! The check of the function pointers of kernel objects. A pointer of the virtual file system or of
the network is in order if it is NULL or points into a read-only area. The checks read the guest's
memory and the table of the areas word by word while other cores change them, so each of them is a
list of actions here. -/
namespace HyperBox.Monitor
open HyperBox.Library HyperBox.PageTable HyperBox.Ept HyperBox.ReadOnly

/-- The macro `KERNEL_VERSION`. -/
def kernelVersion (a b c : Nat) : Nat := a <<< 16 + b <<< 8 + c

inductive InodeOp where
  | lookup
  | followLink
  | getLink
  | permission
  | getAcl
  | readlink
  | putLink
  | create
  | link
  | unlink
  | symlink
  | mkdir
  | rmdir
  | mknod
  | rename
  | rename2
  | setattr
  | getattr
  | setxattr
  | getxattr
  | listxattr
  | removexattr
  | fiemap
  | updateTime
  | atomicOpen
  | tmpfile
  | setAcl

inductive FileOp where
  | llseek
  | read
  | write
  | aioRead
  | aioWrite
  | readIter
  | writeIter
  | iterate
  | iterateShared
  | poll
  | unlockedIoctl
  | mmap
  | «open»
  | flush
  | release
  | fsync
  | aioFsync
  | fasync
  | lock
  | sendpage
  | getUnmappedArea
  | checkFlags
  | flock
  | spliceWrite
  | spliceRead
  | setlease
  | fallocate
  | showFdinfo
  | copyFileRange
  | remapFileRange
  | cloneFileRange
  | dedupeFileRange

inductive SeqOp where
  | start
  | stop
  | next
  | «show»

inductive ProtoOp where
  | release
  | bind
  | connect
  | socketpair
  | accept
  | getname
  | poll
  | ioctl
  | listen
  | shutdown
  | setsockopt
  | getsockopt
  | sendmsg
  | recvmsg
  | mmap
  | sendpage
  | spliceRead
  | setPeekOff

section Fields
variable (version : Nat)

/-- The fields that `hb_check_inode_op_fields` checks, in its order. -/
def inodeOps : List InodeOp := List.flatten [
  [.lookup,if version < kernelVersion 4 5 0 then .followLink else .getLink,.permission,.getAcl,.readlink],
  if version < kernelVersion 4 5 0 then [.putLink] else [],
  [.create,.link,.unlink,.symlink,.mkdir,.rmdir,.mknod,.rename],
  if version < kernelVersion 4 9 0 then [.rename2] else [],
  [.setattr,.getattr],
  if version < kernelVersion 4 9 0 then [.setxattr,.getxattr] else [],
  [.listxattr],
  if version < kernelVersion 4 9 0 then [.removexattr] else [],
  [.fiemap,.updateTime,.atomicOpen,.tmpfile,.setAcl]]

def fileOps : List FileOp := List.flatten [
  [.llseek,.read,.write],
  if version < kernelVersion 3 19 0 then [.aioRead,.aioWrite] else [],
  [.readIter,.writeIter,.iterate],
  if kernelVersion 4 6 0 ≤ version then [.iterateShared] else [],
  [.poll,.unlockedIoctl,.mmap,.open,.flush,.release,.fsync],
  if version < kernelVersion 4 9 0 then [.aioFsync] else [],
  [.fasync,.lock,.sendpage,.getUnmappedArea,.checkFlags,.flock,.spliceWrite,.spliceRead,.setlease,.fallocate,
    .showFdinfo],
  if kernelVersion 4 20 0 ≤ version then [.copyFileRange,.remapFileRange]
  else if kernelVersion 4 5 0 ≤ version then [.copyFileRange,.cloneFileRange,.dedupeFileRange] else []]

def seqOps : List SeqOp := [.start,.stop,.next,.show]

def protoOps : List ProtoOp :=
  [.release,.bind,.connect,.socketpair,.accept,.getname,.poll,.ioctl,.listen,.shutdown,.setsockopt,.getsockopt,
    .sendmsg,.recvmsg,.mmap,.sendpage,.spliceRead,.setPeekOff]

end Fields

/-- `SOCK_TYPE_TCP` and `SOCK_TYPE_UDP`. -/
inductive SockType where
  | tcp
  | udp

/-- The members of the kernel's structures that the checks read. -/
inductive Member where
  | pathDentry
  | dInode
  | iOp
  | fOp
  | pde
  | procFops
  | procSeqOps
  | pdeData
  | seqFops (type : SockType)
  | seqOps (type : SockType)
  | sockOps
  | inode (op : InodeOp)
  | file (op : FileOp)
  | seq (op : SeqOp)
  | proto (op : ProtoOp)

/-- The local variables of the checks, and the pointers that they follow. -/
inductive Local where
  | object
  | dentry
  | dInode
  | inodeOp
  | fileOp
  | pde
  | afinfo
  | seqFops
  | seqSops
  | ops
deriving DecidableEq

/-- `check` is `error |= !hb_is_addr_in_ro_area(table->member)` and begins a search. `report` ends a
function: with an error set there is a message, and the result makes the caller leave out some actions. -/
inductive CheckAction where
  | point (dst : Local) (value : U64)
  | load (dst src : Local) (member : Member)
  | address (dst src : Local) (member : Member)
  | check (table : Local) (member : Member)
  | report (pointer : String) (skipped : Nat)

/-- What stays fixed: the version of the kernel and its structures, the length of a jiffy and the objects
that `hb_get_function_pointers` has opened, or NULL. -/
structure WatchEnv where
  version : Nat
  offset : Member → U64
  usecPerJiffy : Nat
  procFilePtr : U64
  rootFilePtr : U64
  tcpFilePtr : U64
  udpFilePtr : U64
  tcp6FilePtr : U64
  udp6FilePtr : U64
  tcpSock : U64
  udpSock : U64

section Checks
variable (env : WatchEnv)

/-- The common form of the checks: all members are checked, and there is one message. -/
def checkFields (table : Local) (members : List Member) (pointer : String) (skipped : Nat) : List CheckAction :=
  members.map (.check table) ++ [.report pointer skipped]

def hbCheckInodeOpFields (op : Local) (objName : String) : List CheckAction :=
  checkFields op ((inodeOps env.version).map .inode) (objName ++ " inode_op") 0

def hbCheckFileOpFields (op : Local) (objName : String) (skipped : Nat) : List CheckAction :=
  checkFields op ((fileOps env.version).map .file) (objName ++ " file_op") skipped

/-- `GET_D_INODE_FROM_FILE_PTR` -/
def getDInodeFromFilePtr : List CheckAction := [.load .dentry .object .pathDentry,.load .dInode .dentry .dInode]

def hbCheckVfsObjectAt (filePtr : U64) (objName : String) : List CheckAction :=
  if filePtr = 0 then [] else
    .point .object filePtr::(getDInodeFromFilePtr ++ [.load .inodeOp .dInode .iOp,.load .fileOp .object .fOp] ++
      (hbCheckInodeOpFields env .inodeOp objName ++ hbCheckFileOpFields env .fileOp objName 0))

def vfsObjects : List (U64 × String) := [(env.procFilePtr,"Proc FS"),(env.rootFilePtr,"Root FS")]

def hbCheckVfsObject : List CheckAction := (vfsObjects env).flatMap fun object => hbCheckVfsObjectAt env object.1 object.2

/-- The sequence operations are checked only if the file operations are in order. -/
def hbCheckNetSeqAfinfoFields (fops sops : Local) (objName : String) : List CheckAction :=
  let seq := checkFields sops (seqOps.map .seq) (objName ++ " seq_afinfo") 0
  hbCheckFileOpFields env fops objName seq.length ++ seq

def hbCheckProtoOpFields (op : Local) (objName : String) : List CheckAction :=
  checkFields op (protoOps.map .proto) (objName ++ " proto_seq_afinfo") 0

/-- `PDE(i_node)` is there twice in the newer code. -/
def hbGetFileAndSeqOps (type : SockType) : List CheckAction :=
  if kernelVersion 4 18 0 ≤ env.version then
    [.load .pde .dInode .pde,.load .seqFops .pde .procFops,.load .pde .dInode .pde,.load .seqSops .pde .procSeqOps]
  else
    [.load .pde .dInode .pde,.load .afinfo .pde .pdeData,.load .seqFops .afinfo (.seqFops type),
      .address .seqSops .afinfo (.seqOps type)]

def hbCheckNetFileAt (filePtr : U64) (type : SockType) (objName : String) : List CheckAction :=
  if filePtr = 0 then [] else
    .point .object filePtr::(getDInodeFromFilePtr ++ hbGetFileAndSeqOps env type ++
      hbCheckNetSeqAfinfoFields env .seqFops .seqSops objName)

def hbCheckSockAt (sock : U64) (objName : String) : List CheckAction :=
  if sock = 0 then [] else .point .object sock::.load .ops .object .sockOps::hbCheckProtoOpFields .ops objName

def netFiles : List (U64 × SockType × String) :=
  [(env.tcpFilePtr,.tcp,"TCP Net"),(env.udpFilePtr,.udp,"UDP Net"),(env.tcp6FilePtr,.tcp,"TCP6 Net"),
    (env.udp6FilePtr,.udp,"UDP6 Net")]

def netSocks : List (U64 × String) := [(env.tcpSock,"TCP Socket"),(env.udpSock,"UDP Socket")]

def hbCheckNetObject : List CheckAction :=
  ((netFiles env).flatMap fun file => hbCheckNetFileAt env file.1 file.2.1 file.2.2) ++
    (netSocks env).flatMap fun sock => hbCheckSockAt sock.1 sock.2

end Checks

/-- What a check sees at one time: the read-only areas and the guest's memory. -/
structure View where
  table : RoTable
  word : U64 → U64

/-- The loop of `hb_is_addr_in_ro_area`: `above` says that the pointer is not below the start of the slot. -/
structure Search where
  pointer : U64
  slot : Nat
  above : Bool

/-- A check on its way: `found` is its result so far. -/
structure Checking where
  rest : List CheckAction
  search : Option Search
  locals : Local → U64
  error : Bool
  found : Bool

section Code
variable (offset : Member → U64)

def Checking.start (actions : List CheckAction) : Checking := ⟨actions,none,fun _ => 0,false,false⟩

def Checking.ended (c : Checking) : Bool := c.search.isNone && c.rest.isEmpty

def Search.next (search : Search) : Search := ⟨search.pointer,search.slot+1,false⟩

/-- The number of slots and the start of a slot are read in one step, its end in another. -/
def Checking.lookUp (c : Checking) (view : View) (search : Search) : Checking :=
  match view.table.areas[search.slot]?, search.above with
  | none,_ => { c with search := none, error := true }
  | some area,false =>
    if area.start ≤ search.pointer then { c with search := some { search with above := true } }
    else { c with search := some search.next }
  | some area,true =>
    if search.pointer < area.stop then { c with search := none } else { c with search := some search.next }

/-- `hb_is_addr_in_ro_area` allows NULL. -/
def hbIsAddrInRoAreaStart (pointer : U64) : Option Search := if pointer = 0 then none else some ⟨pointer,0,false⟩

def Checking.step (c : Checking) (view : View) : Checking :=
  match c.search with
  | some search => c.lookUp view search
  | none =>
    match c.rest with
    | [] => c
    | .point dst value::rest => { c with rest, locals := Function.update c.locals dst value }
    | .load dst src member::rest =>
      { c with rest, locals := Function.update c.locals dst (view.word (c.locals src + offset member)) }
    | .address dst src member::rest => { c with rest, locals := Function.update c.locals dst (c.locals src + offset member) }
    | .check table member::rest =>
      { c with rest, search := hbIsAddrInRoAreaStart (view.word (c.locals table + offset member)) }
    | .report _ skipped::rest =>
      if c.error then { c with rest := rest.drop skipped, error := false, found := true } else { c with rest }

/-- The message of the next step. -/
def Checking.message (c : Checking) : Option String :=
  match c.search, c.rest with
  | none,.report pointer _::_ => if c.error then some pointer else none
  | _,_ => none

/-- The function that the check is in, by its message. -/
def reporter : List CheckAction → Option String
  | [] => none
  | .report pointer _::_ => some pointer
  | _::rest => reporter rest

/-- The next step reads a pointer. -/
def Checking.Reads (c : Checking) (view : View) (pointer : U64) : Prop :=
  c.search = none ∧ ∃ table member rest, c.rest = .check table member::rest ∧
    view.word (c.locals table + offset member) = pointer

end Code

section Ways
variable (env : WatchEnv)

/-- A watched pointer: the object and the offsets of the words that lead to it. -/
abbrev Way := U64 × List U64

def vfsWaysAt (filePtr : U64) : List Way :=
  if filePtr = 0 then [] else
    ((inodeOps env.version).map fun op =>
      (filePtr,[env.offset .pathDentry,env.offset .dInode,env.offset .iOp,env.offset (.inode op)])) ++
    (fileOps env.version).map fun op => (filePtr,[env.offset .fOp,env.offset (.file op)])

def vfsWays : List Way := (vfsObjects env).flatMap fun object => vfsWaysAt env object.1

def netWaysAt (filePtr : U64) (type : SockType) : List Way :=
  let inode := [env.offset .pathDentry,env.offset .dInode,env.offset .pde]
  if filePtr = 0 then []
  else if kernelVersion 4 18 0 ≤ env.version then
    ((fileOps env.version).map fun op => (filePtr,inode ++ [env.offset .procFops,env.offset (.file op)])) ++
      seqOps.map fun op => (filePtr,inode ++ [env.offset .procSeqOps,env.offset (.seq op)])
  else
    ((fileOps env.version).map fun op =>
      (filePtr,inode ++ [env.offset .pdeData,env.offset (.seqFops type),env.offset (.file op)])) ++
      seqOps.map fun op => (filePtr,inode ++ [env.offset .pdeData,env.offset (.seqOps type) + env.offset (.seq op)])

def sockWaysAt (sock : U64) : List Way :=
  if sock = 0 then [] else protoOps.map fun op => (sock,[env.offset .sockOps,env.offset (.proto op)])

def netWays : List Way :=
  ((netFiles env).flatMap fun file => netWaysAt env file.1 file.2.1) ++ (netSocks env).flatMap fun sock => sockWaysAt env sock.1

/-- The words on a way, with their addresses, and where the way ends. -/
def trail (word : U64 → U64) (object : U64) : List U64 → List (U64 × U64)
  | [] => []
  | offset::way => (object + offset,word (object + offset))::trail word (word (object + offset)) way

def follow (word : U64 → U64) (object : U64) : List U64 → U64
  | [] => object
  | offset::way => follow word (word (object + offset)) way

/-- The words on the way and the areas are as they were, and the pointer at the end of the way is outside
all read-only areas. -/
structure Persists (before : View) (way : Way) (view : View) : Prop where
  words : ∀ w ∈ trail before.word way.1 way.2, view.word w.1 = w.2
  table : view.table = before.table
  bad : hbIsAddrInRoArea before.table (follow before.word way.1 way.2) = false

end Ways

section Lemmas
variable (offset : Member → U64) (W : View → Prop)

/-- Whatever a check gets to see, as long as it has a property, the check finds an attack. -/
def Finds (c : Checking) : Prop :=
  ∀ views, (∀ view ∈ views, W view) → (run (Checking.step offset) c views).ended = true →
    (run (Checking.step offset) c views).found = true

variable {offset W} {c : Checking} {rest : List CheckAction} {locals : Local → U64} {error found : Bool}
  {table : Local} {member : Member}

theorem Finds.step (finds : Finds offset W c) {view : View} (holds : W view) : Finds offset W (c.step offset view) :=
  fun views all => finds (view::views) (List.forall_mem_cons.mpr ⟨holds,all⟩)

theorem Finds.done (finds : Finds offset W c) (ended : c.ended = true) : c.found = true := finds [] (by simp) ended

/-- A check that stays among some that have not ended, until it is one that finds an attack. -/
theorem Finds.of_among (I : Checking → Prop) (more : ∀ c, I c → c.ended = false)
    (next : ∀ c view, I c → W view → I (c.step offset view) ∨ Finds offset W (c.step offset view)) (among : I c) :
    Finds offset W c := by
  intro views all ended
  induction views generalizing c with
  | nil => exact absurd ended (by simp [more c among])
  | cons view views ih =>
    obtain ⟨here,later⟩ := List.forall_mem_cons.mp all
    rcases next c view among here with stays | finds
    · exact ih stays later ended
    · exact finds views later ended

theorem Finds.of_step (more : c.ended = false) (next : ∀ view, W view → Finds offset W (c.step offset view)) :
    Finds offset W c :=
  .of_among (· = c) (fun _ same => same ▸ more) (fun _ view same holds => .inr (same ▸ next view holds)) rfl

theorem Finds.point {value : U64} (next : Finds offset W ⟨rest,none,Function.update locals table value,error,found⟩) :
    Finds offset W ⟨.point table value::rest,none,locals,error,found⟩ := .of_step rfl fun _ _ => next

theorem Finds.load {src : Local} (next : ∀ view, W view →
    Finds offset W ⟨rest,none,Function.update locals table (view.word (locals src + offset member)),error,found⟩) :
    Finds offset W ⟨.load table src member::rest,none,locals,error,found⟩ := .of_step rfl next

theorem Finds.address {src : Local}
    (next : Finds offset W ⟨rest,none,Function.update locals table (locals src + offset member),error,found⟩) :
    Finds offset W ⟨.address table src member::rest,none,locals,error,found⟩ := .of_step rfl fun _ _ => next

/-- The slots that a search passes in a step do not hold the pointer. -/
def Search.Passes (search search' : Search) (view : View) : Prop :=
  search'.pointer = search.pointer ∧ ∀ slot < search'.slot, slot < search.slot ∨
    ∀ area, view.table.areas[slot]? = some area → inArea search.pointer area = false

theorem Search.passes_next {search : Search} {view : View} {area : RoArea}
    (here : view.table.areas[search.slot]? = some area) (out : inArea search.pointer area = false) :
    search.Passes search.next view := by
  refine ⟨rfl,fun slot small => ?_⟩
  rcases Nat.lt_succ_iff_lt_or_eq.mp small with old | rfl
  · exact .inl old
  · refine .inr fun area' here' => ?_
    obtain rfl := Option.some.inj (here.symm.trans here')
    exact out

/-- A step of a search: it goes on, finds an area, or comes to the end of the table. -/
theorem lookUp_cases (c : Checking) (view : View) (search : Search) :
    (∃ search', search.Passes search' view ∧ c.lookUp view search = { c with search := some search' }) ∨
      c.lookUp view search = { c with search := none } ∨
      view.table.areas[search.slot]? = none ∧ c.lookUp view search = { c with search := none, error := true } := by
  unfold Checking.lookUp
  split
  next ended => exact .inr (.inr ⟨ended,rfl⟩)
  next area here _ =>
    split
    next => exact .inl ⟨{ search with above := true },⟨rfl,fun _ small => .inl small⟩,rfl⟩
    next high => exact .inl ⟨_,Search.passes_next here (by simp [inArea,high]),rfl⟩
  next area here _ =>
    split
    next => exact .inr (.inl rfl)
    next high => exact .inl ⟨_,Search.passes_next here (by simp [inArea,high]),rfl⟩

theorem lookUp_found (c : Checking) (view : View) (search : Search) : (c.lookUp view search).found = c.found := by
  rcases lookUp_cases c view search with ⟨_,_,step⟩ | step | ⟨_,step⟩ <;> rw [step]

/-- A result stays. -/
theorem step_found (offset : Member → U64) (view : View) (before : c.found = true) : (c.step offset view).found = true := by
  unfold Checking.step
  split
  · rw [lookUp_found]
    exact before
  · split
    all_goals first | exact before | skip
    split
    · rfl
    · exact before

theorem Finds.of_found (before : c.found = true) : Finds offset W c := fun views _ _ =>
  run_invariant (fun c : Checking => c.found = true) (fun _ view holds => step_found offset view holds) before views

/-- A search that the other cores leave alone gives the result of `hb_is_addr_in_ro_area`. -/
theorem search_undisturbed (c : Checking) (view : View) (pointer : U64) (slot : Nat) :
    ∃ k, run (Checking.step offset) { c with search := some ⟨pointer,slot,false⟩ } (List.replicate k view) =
      { c with search := none, error := c.error || !(view.table.areas.drop slot).any (inArea pointer) } := by
  induction left : view.table.areas.length - slot generalizing slot with
  | zero =>
    have beyond : view.table.areas.length ≤ slot := by omega
    refine ⟨1,?_⟩
    simp [Checking.step,Checking.lookUp,List.getElem?_eq_none beyond,List.drop_eq_nil_of_le beyond]
  | succ n ih =>
    have within : slot < view.table.areas.length := by omega
    obtain ⟨k,later⟩ := ih (slot+1) (by omega)
    have here := List.getElem?_eq_getElem within
    rw [List.drop_eq_getElem_cons within,List.any_cons]
    generalize view.table.areas[slot] = area at here
    by_cases start : area.start ≤ pointer
    · by_cases stop : pointer < area.stop
      · refine ⟨2,?_⟩
        simp [List.replicate,Checking.step,Checking.lookUp,here,start,stop,inArea]
      · refine ⟨k+2,?_⟩
        simpa [List.replicate,Checking.step,Checking.lookUp,Search.next,here,start,stop,inArea] using later
    · refine ⟨k+1,?_⟩
      simpa [List.replicate,Checking.step,Checking.lookUp,Search.next,here,start,inArea] using later

/-- A pointer is checked, with whatever result: what follows it comes with the locals as they are. -/
theorem Finds.check (after : ∀ error', (error = true → error' = true) → Finds offset W ⟨rest,none,locals,error',found⟩) :
    Finds offset W ⟨.check table member::rest,none,locals,error,found⟩ := by
  have searches : ∀ search, Finds offset W ⟨rest,some search,locals,error,found⟩ := by
    intro search
    refine .of_among (fun c => ∃ search, c = ⟨rest,some search,locals,error,found⟩) ?_ ?_ ⟨search,rfl⟩
    · rintro _ ⟨search,rfl⟩
      rfl
    · rintro _ view ⟨search,rfl⟩ _
      simp only [Checking.step]
      rcases lookUp_cases ⟨rest,some search,locals,error,found⟩ view search with ⟨search',_,goes⟩ | ends | ⟨_,fails⟩
      · exact .inl ⟨search',goes⟩
      · rw [ends]
        exact .inr (after error id)
      · rw [fails]
        exact .inr (after true fun _ => rfl)
  refine .of_step rfl fun view _ => ?_
  simp only [Checking.step,hbIsAddrInRoAreaStart]
  split
  · exact after error id
  · exact searches _

/-- A pointer outside all areas is looked up in vain, if the table stays. -/
theorem Finds.bad {t : RoTable} {pointer : U64} (stays : ∀ view, W view → view.table = t)
    (reads : ∀ view, W view → view.word (locals table + offset member) = pointer)
    (outside : hbIsAddrInRoArea t pointer = false) (after : Finds offset W ⟨rest,none,locals,true,found⟩) :
    Finds offset W ⟨.check table member::rest,none,locals,error,found⟩ := by
  have nonnull : pointer ≠ 0 := by
    rintro rfl
    simp [hbIsAddrInRoArea] at outside
  have free : ∀ (i : Nat) (area : RoArea), t.areas[i]? = some area → inArea pointer area = false := by
    intro i area here
    simp only [hbIsAddrInRoArea,if_neg nonnull,List.any_eq_false,Bool.not_eq_true] at outside
    exact outside area (List.mem_of_getElem? here)
  have searches : Finds offset W ⟨rest,some ⟨pointer,0,false⟩,locals,error,found⟩ := by
    refine .of_among (fun c => ∃ slot above, c = ⟨rest,some ⟨pointer,slot,above⟩,locals,error,found⟩ ∧
      (above = true → ∀ area, t.areas[slot]? = some area → area.start ≤ pointer)) ?_ ?_ ⟨0,false,rfl,nofun⟩
    · rintro _ ⟨slot,above,rfl,_⟩
      rfl
    · rintro _ view ⟨slot,above,rfl,low⟩ holds
      simp only [Checking.step,Checking.lookUp,stays view holds]
      cases here : t.areas[slot]? with
      | none => exact .inr after
      | some area =>
        have out := free slot area here
        cases above with
        | false =>
          dsimp only
          split
          next start => exact .inl ⟨slot,true,rfl,fun _ area' here' => by
            obtain rfl := Option.some.inj (here.symm.trans here')
            exact start⟩
          next => exact .inl ⟨slot+1,false,rfl,nofun⟩
        | true =>
          have start := low rfl area here
          have stop : ¬ pointer < area.stop := by
            intro inside
            simp [inArea,start,inside] at out
          dsimp only
          rw [if_neg stop]
          exact .inl ⟨slot+1,false,rfl,nofun⟩
  refine .of_step rfl fun view holds => ?_
  simp only [Checking.step,hbIsAddrInRoAreaStart,reads view holds,if_neg nonnull]
  exact searches

/-- A function that is checked goes by. -/
theorem Finds.past (after : ∀ found, Finds offset W ⟨rest,none,locals,false,found⟩) (table : Local) (members : List Member)
    (pointer : String) (skipped : Nat) (error found : Bool) :
    Finds offset W ⟨checkFields table members pointer skipped ++ rest,none,locals,error,found⟩ := by
  induction members generalizing error with
  | nil =>
    refine .of_step rfl fun view _ => ?_
    cases error with
    | true => exact .of_found rfl
    | false => exact after found
  | cons member members ih => exact .check fun error' _ => ih error'

/-- The function that checks a pointer which is outside finds it. -/
theorem Finds.fields {members : List Member} (listed : member ∈ members) {t : RoTable} {address : U64}
    (stays : ∀ view, W view → view.table = t) (reads : ∀ view, W view → view.word (locals table + offset member) = address)
    (outside : hbIsAddrInRoArea t address = false) (pointer : String) (skipped : Nat) (error found : Bool) :
    Finds offset W ⟨checkFields table members pointer skipped ++ rest,none,locals,error,found⟩ := by
  have raised : ∀ (members : List Member) (found : Bool),
      Finds offset W ⟨checkFields table members pointer skipped ++ rest,none,locals,true,found⟩ := by
    intro members found
    induction members with
    | nil => exact .of_step rfl fun view _ => .of_found rfl
    | cons other members ih =>
      refine .check fun error' keeps => ?_
      rw [keeps rfl]
      exact ih
  induction members generalizing error with
  | nil => cases listed
  | cons other members ih =>
    rcases List.mem_cons.mp listed with rfl | later
    · exact .bad stays reads outside (raised members found)
    · exact .check fun error' _ => ih later error'

variable (offset W) in
/-- Actions that a check gets through, whatever it sees, to be ready for the next function. -/
def Passing (actions : List CheckAction) : Prop :=
  ∀ rest, (∀ locals found, Finds offset W ⟨rest,none,locals,false,found⟩) →
    ∀ locals found, Finds offset W ⟨actions ++ rest,none,locals,false,found⟩

theorem Passing.nil : Passing offset W [] := fun _ after => after

theorem Passing.append {first second : List CheckAction} (passes : Passing offset W first) (passes' : Passing offset W second) :
    Passing offset W (first ++ second) := by
  intro rest after
  rw [List.append_assoc]
  exact passes _ (passes' _ after)

theorem Passing.flatMap {α : Type} {items : List α} {f : α → List CheckAction}
    (passes : ∀ item ∈ items, Passing offset W (f item)) : Passing offset W (items.flatMap f) := by
  induction items with
  | nil => exact .nil
  | cons item items ih =>
    rw [List.flatMap_cons]
    exact (passes item (by simp)).append (ih fun other member => passes other (by simp [member]))

theorem Passing.checkFields (table : Local) (members : List Member) (pointer : String) (skipped : Nat) :
    Passing offset W (checkFields table members pointer skipped) := by
  intro rest after locals found
  exact .past (after locals) table members pointer skipped false found

/-- The actions that only set local variables. -/
def CheckAction.Sets : CheckAction → Prop
  | .point _ _ => True
  | .load _ _ _ => True
  | .address _ _ _ => True
  | _ => False

theorem Passing.sets {actions : List CheckAction} (sets : ∀ action ∈ actions, action.Sets) : Passing offset W actions := by
  induction actions with
  | nil => exact .nil
  | cons action actions ih =>
    obtain ⟨here,later⟩ := List.forall_mem_cons.mp sets
    intro rest after locals found
    refine .of_step rfl fun view _ => ?_
    cases action with
    | check => exact here.elim
    | report => exact here.elim
    | _ => exact ih later rest after _ _

variable (offset W) in
/-- Actions that find an attack, whatever comes after them. -/
def Finding (actions : List CheckAction) : Prop :=
  ∀ rest locals found, Finds offset W ⟨actions ++ rest,none,locals,false,found⟩

theorem Finding.flatMap {α : Type} {items : List α} {f : α → List CheckAction} {item : α} (member : item ∈ items)
    (finding : Finding offset W (f item)) (passes : ∀ item ∈ items, Passing offset W (f item)) :
    Finding offset W (items.flatMap f) := by
  induction items with
  | nil => cases member
  | cons other items ih =>
    intro rest locals found
    rw [List.flatMap_cons,List.append_assoc]
    rcases List.mem_cons.mp member with rfl | later
    · exact finding _ locals found
    · refine passes other (by simp) _ (fun locals found => ?_) locals found
      exact ih later (fun item inside => passes item (by simp [inside])) rest locals found

theorem Finding.append_left {first second : List CheckAction} (finding : Finding offset W first) :
    Finding offset W (first ++ second) := by
  intro rest locals found
  rw [List.append_assoc]
  exact finding _ locals found

theorem Finding.append_right {first second : List CheckAction} (passes : Passing offset W first)
    (finding : Finding offset W second) : Finding offset W (first ++ second) := by
  intro rest locals found
  rw [List.append_assoc]
  exact passes _ (fun locals found => finding rest locals found) locals found

end Lemmas

section Objects
variable {env : WatchEnv} {W : View → Prop} {before : View} {way : Way}

theorem vfsObjectAt_passing (filePtr : U64) (objName : String) :
    Passing env.offset W (hbCheckVfsObjectAt env filePtr objName) := by
  unfold hbCheckVfsObjectAt
  split
  · exact .nil
  · rw [← List.cons_append]
    exact (Passing.sets (by simp [getDInodeFromFilePtr,CheckAction.Sets])).append
      ((Passing.checkFields _ _ _ _).append (.checkFields _ _ _ _))

theorem Persists.here {object offset : U64} {way : List U64} {view : View} (persists : Persists before (object,offset::way) view) :
    view.word (object + offset) = before.word (object + offset) := persists.words _ List.mem_cons_self

theorem Persists.next {object offset : U64} {way : List U64} {view : View} (persists : Persists before (object,offset::way) view) :
    Persists before (before.word (object + offset),way) view :=
  ⟨fun w inside => persists.words w (List.mem_cons_of_mem _ inside),persists.table,persists.bad⟩

theorem vfsObjectAt_finding {filePtr : U64} (listed : way ∈ vfsWaysAt env filePtr) (objName : String) :
    Finding env.offset (Persists before way) (hbCheckVfsObjectAt env filePtr objName) := by
  unfold vfsWaysAt at listed
  split at listed
  · cases listed
  next opened =>
    rw [hbCheckVfsObjectAt,if_neg opened]
    intro rest locals found
    simp only [getDInodeFromFilePtr,List.cons_append,List.nil_append,List.append_assoc]
    refine .point (.load fun first one => .load fun second two => .load fun third three => .load fun fourth four => ?_)
    rcases List.mem_append.mp listed with inode | file
    · obtain ⟨op,member,rfl⟩ := List.mem_map.mp inode
      refine .fields (List.mem_map_of_mem member) (fun _ holds => holds.table) (fun view holds => ?_) one.bad _ _ _ _
      simpa [follow,one.here,two.next.here,three.next.next.here] using holds.next.next.next.here
    · obtain ⟨op,member,rfl⟩ := List.mem_map.mp file
      refine .past (fun found => .fields (List.mem_map_of_mem member) (fun _ holds => holds.table)
        (fun view holds => ?_) one.bad _ _ _ _) _ _ _ _ _ _
      simpa [follow,four.here] using holds.next.here

theorem netFileAt_passing (filePtr : U64) (type : SockType) (objName : String) :
    Passing env.offset W (hbCheckNetFileAt env filePtr type objName) := by
  have sets : ∀ action ∈ getDInodeFromFilePtr ++ hbGetFileAndSeqOps env type, action.Sets := by
    unfold getDInodeFromFilePtr hbGetFileAndSeqOps
    split <;> simp [CheckAction.Sets]
  have all : ∀ action ∈ CheckAction.point .object filePtr::(getDInodeFromFilePtr ++ hbGetFileAndSeqOps env type),
      action.Sets := List.forall_mem_cons.mpr ⟨trivial,sets⟩
  unfold hbCheckNetFileAt
  split
  · exact .nil
  · rw [← List.cons_append]
    exact (Passing.sets all).append ((Passing.checkFields _ _ _ _).append (.checkFields _ _ _ _))

theorem netFileAt_finding {filePtr : U64} {type : SockType} (listed : way ∈ netWaysAt env filePtr type) (objName : String) :
    Finding env.offset (Persists before way) (hbCheckNetFileAt env filePtr type objName) := by
  unfold netWaysAt at listed
  dsimp only at listed
  split at listed
  · cases listed
  next opened =>
    rw [hbCheckNetFileAt,if_neg opened]
    intro rest locals found
    split at listed
    next recent =>
      rw [hbGetFileAndSeqOps,if_pos recent]
      simp only [getDInodeFromFilePtr,hbCheckNetSeqAfinfoFields,List.cons_append,List.nil_append,List.append_assoc]
      refine .point (.load fun first one => .load fun second two => .load fun third three => .load fun fourth four =>
        .load fun fifth five => .load fun sixth six => ?_)
      rcases List.mem_append.mp listed with file | seq
      · obtain ⟨op,member,rfl⟩ := List.mem_map.mp file
        refine .fields (List.mem_map_of_mem member) (fun _ holds => holds.table) (fun view holds => ?_) one.bad _ _ _ _
        simpa [follow,one.here,two.next.here,three.next.next.here,four.next.next.next.here] using
          holds.next.next.next.next.here
      · obtain ⟨op,member,rfl⟩ := List.mem_map.mp seq
        refine .past (fun found => .fields (List.mem_map_of_mem member) (fun _ holds => holds.table)
          (fun view holds => ?_) one.bad _ _ _ _) _ _ _ _ _ _
        simpa [follow,one.here,two.next.here,five.next.next.here,six.next.next.next.here] using
          holds.next.next.next.next.here
    next old =>
      rw [hbGetFileAndSeqOps,if_neg old]
      simp only [getDInodeFromFilePtr,hbCheckNetSeqAfinfoFields,List.cons_append,List.nil_append,List.append_assoc]
      refine .point (.load fun first one => .load fun second two => .load fun third three => .load fun fourth four =>
        .load fun fifth five => .address ?_)
      rcases List.mem_append.mp listed with file | seq
      · obtain ⟨op,member,rfl⟩ := List.mem_map.mp file
        refine .fields (List.mem_map_of_mem member) (fun _ holds => holds.table) (fun view holds => ?_) one.bad _ _ _ _
        simpa [follow,one.here,two.next.here,three.next.next.here,four.next.next.next.here,five.next.next.next.next.here]
          using holds.next.next.next.next.next.here
      · obtain ⟨op,member,rfl⟩ := List.mem_map.mp seq
        refine .past (fun found => .fields (List.mem_map_of_mem member) (fun _ holds => holds.table)
          (fun view holds => ?_) one.bad _ _ _ _) _ _ _ _ _ _
        simpa [follow,one.here,two.next.here,three.next.next.here,four.next.next.next.here,add_assoc] using
          holds.next.next.next.next.here

theorem sockAt_passing (sock : U64) (objName : String) : Passing env.offset W (hbCheckSockAt sock objName) := by
  have all : ∀ action ∈ [CheckAction.point .object sock,.load .ops .object .sockOps], action.Sets := by
    simp [CheckAction.Sets]
  unfold hbCheckSockAt
  split
  · exact .nil
  · exact (Passing.sets all).append (.checkFields _ _ _ _)

theorem sockAt_finding {sock : U64} (listed : way ∈ sockWaysAt env sock) (objName : String) :
    Finding env.offset (Persists before way) (hbCheckSockAt sock objName) := by
  unfold sockWaysAt at listed
  split at listed
  · cases listed
  next opened =>
    obtain ⟨op,member,rfl⟩ := List.mem_map.mp listed
    rw [hbCheckSockAt,if_neg opened]
    intro rest locals found
    refine .point (.load fun first one => ?_)
    refine .fields (List.mem_map_of_mem member) (fun _ holds => holds.table) (fun view holds => ?_) one.bad _ _ _ _
    simpa [follow,one.here] using holds.next.here

/-- A pointer of the file system that stays outside on a way that stays is found. -/
theorem vfsObject_finds (listed : way ∈ vfsWays env) :
    Finds env.offset (Persists before way) (.start (hbCheckVfsObject env)) := by
  obtain ⟨object,member,there⟩ := List.mem_flatMap.mp listed
  have finding : Finding env.offset (Persists before way) (hbCheckVfsObject env) :=
    .flatMap member (vfsObjectAt_finding there object.2) fun item _ => vfsObjectAt_passing item.1 item.2
  have finds := finding [] (fun _ => 0) false
  rwa [List.append_nil] at finds

theorem netObject_finds (listed : way ∈ netWays env) :
    Finds env.offset (Persists before way) (.start (hbCheckNetObject env)) := by
  have files : ∀ item ∈ netFiles env, Passing env.offset (Persists before way)
      (hbCheckNetFileAt env item.1 item.2.1 item.2.2) := fun item _ => netFileAt_passing item.1 item.2.1 item.2.2
  have finding : Finding env.offset (Persists before way) (hbCheckNetObject env) := by
    rcases List.mem_append.mp listed with file | sock
    · obtain ⟨object,member,there⟩ := List.mem_flatMap.mp file
      exact .append_left (.flatMap member (netFileAt_finding there object.2.2) files)
    · obtain ⟨object,member,there⟩ := List.mem_flatMap.mp sock
      exact .append_right (.flatMap files) (.flatMap member (sockAt_finding there object.2)
        fun item _ => sockAt_passing item.1 item.2)
  have finds := finding [] (fun _ => 0) false
  rwa [List.append_nil] at finds

end Objects
end HyperBox.Monitor
