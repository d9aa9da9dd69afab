import Mathlib.Data.BitVec

/-! Credentials, task structures and the pure checks of the monitor.
Only the fields that the monitor reads or writes are kept. A C string is the
list of its characters; a pointer is its address. -/
namespace HyperBox.Monitor

abbrev Kid := BitVec 32

structure Cred where
  uid : Kid
  gid : Kid
  suid : Kid
  sgid : Kid
  euid : Kid
  egid : Kid
  fsuid : Kid
  fsgid : Kid
deriving DecidableEq

/-- `hb_is_cred_same`: one XOR over all sixteen ids. -/
def hbIsCredSame (new old : Cred) : Int :=
  if old.uid ^^^ new.uid ^^^ old.gid ^^^ new.gid ^^^
      old.suid ^^^ new.suid ^^^ old.sgid ^^^ new.sgid ^^^
      old.euid ^^^ new.euid ^^^ old.egid ^^^ new.egid ^^^
      old.fsuid ^^^ new.fsuid ^^^ old.fsgid ^^^ new.fsgid ≠ 0 then -1 else 0

namespace Nr

def clone : Int := 56
def fork : Int := 57
def vfork : Int := 58
def execve : Int := 59
def setuid : Int := 105
def setgid : Int := 106
def setreuid : Int := 113
def setregid : Int := 114
def setgroups : Int := 116
def setresuid : Int := 117
def setresgid : Int := 119
def setfsuid : Int := 122
def setfsgid : Int := 123
def capset : Int := 126
def prctl : Int := 157
def keyctl : Int := 250
def unshare : Int := 272
def execveat : Int := 322

end Nr

def hbCheckSystemcallForCred (syscallNumber : Int) : Int :=
  if syscallNumber = Nr.execve ∨ syscallNumber = Nr.setuid ∨
      syscallNumber = Nr.setgid ∨ syscallNumber = Nr.setreuid ∨
      syscallNumber = Nr.setregid ∨ syscallNumber = Nr.setresuid ∨
      syscallNumber = Nr.setresgid ∨ syscallNumber = Nr.setfsuid ∨
      syscallNumber = Nr.setfsgid ∨ syscallNumber = Nr.setgroups ∨
      syscallNumber = Nr.capset ∨ syscallNumber = Nr.prctl ∨
      syscallNumber = Nr.unshare ∨ syscallNumber = Nr.keyctl ∨
      syscallNumber = -1 then 0 else -1

structure DentryName where
  name : List Char
  len : Nat

structure TaskStruct where
  pid : Int
  tgid : Int
  comm : List Char
  cred : Cred
  mm : Nat
  groupLeader : Nat
  seccompMode : Int
  -- names from the executable's dentry up to, not including, the root
  exeFile : List DentryName

structure TaskNode where
  task : Nat
  pid : Int
  tgid : Int
  comm : List Char
  cred : Cred
  syscallNumber : Int
  needExit : Bool
  needTrace : Bool
  seccompMode : Int
  mm : Nat

def TaskNode.zero : TaskNode :=
  ⟨0,0,0,[],⟨0,0,0,0,0,0,0,0⟩,0,false,false,0,0⟩

/-- The path buffer: its characters by offset from the buffer's start, and the
moving `end` and `len` of the path functions. -/
structure PathBuffer where
  chars : Int → Char
  finish : Int
  len : Int

def PathBuffer.store (b : PathBuffer) (offset : Int) (c : Char) : PathBuffer :=
  {b with chars := fun i => if i = offset then c else b.chars i}

def PathBuffer.storeAll (b : PathBuffer) (offset : Int) : List Char → PathBuffer
  | [] => b
  | c::rest => (b.store offset c).storeAll (offset+1) rest

def prepend (b : PathBuffer) (str : List Char) : PathBuffer × Bool :=
  let len := b.len - str.length
  if len < 0 then ({b with len},true)
  else
    let finish := b.finish - str.length
    (({b with len,finish}).storeAll finish str,false)

/-- The copy loop of `prepend_name` stops at the recorded length or at a NUL. -/
def prependName (b : PathBuffer) (name : DentryName) : PathBuffer × Bool :=
  let len := b.len - (name.len+1)
  if len < 0 then ({b with len},true)
  else
    let finish := b.finish - (name.len+1)
    let copied := (name.name.take name.len).takeWhile (· ≠ '\x00')
    (({b with len,finish}).storeAll finish ('/'::copied),false)

/-- The walk up to the root; the second component is `retval`. -/
def hbGetExePathLoop (b : PathBuffer) (retval : Int) : List DentryName → PathBuffer × Int
  | [] => (b,retval)
  | name::parents =>
    match prependName b name with
    | (b,true) => (b,retval)
    | (b,false) => hbGetExePathLoop b b.finish parents

def hbGetExePath (exeFile : List DentryName) (size : Nat) : PathBuffer × Int :=
  let start : PathBuffer := ⟨fun _ => '\x00',size,size⟩
  let terminated := (prepend start ['\x00']).1
  let retval := terminated.finish - 1
  hbGetExePathLoop (terminated.store retval '/') retval exeFile

/-- The NUL-terminated string at `offset`, read at most `fuel` characters far. -/
def PathBuffer.cString (b : PathBuffer) : Nat → Int → List Char
  | 0,_ => []
  | fuel+1,offset => if b.chars offset = '\x00' then [] else b.chars offset :: b.cString fuel (offset+1)

def pathMax : Nat := 4096

structure WorkaroundProcessPath where
  comm : List Char
  path : List Char

def gHbWorkaroundProcessPath : List WorkaroundProcessPath :=
  [⟨['m','o','d','p','r','o','b','e'],
    ['/','u','s','r','/','b','i','n','/','k','m','o','d']⟩]

/-- The modprobe loop of the syscall check: is some entry matched by both the
name and the path of the executable? -/
def needsWorkaround (task : TaskStruct) : Bool :=
  gHbWorkaroundProcessPath.any fun entry =>
    task.comm == entry.comm &&
      (let (buffer,retval) := hbGetExePath task.exeFile pathMax
       buffer.cString pathMax retval == entry.path)

end HyperBox.Monitor
