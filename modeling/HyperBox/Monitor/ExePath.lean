import HyperBox.Library.Path
import HyperBox.Monitor.Task
import Mathlib.Data.List.TakeWhile

/-! `hb_get_exe_path` with the machine arithmetic of its helpers: the remaining length is an
`int`, the length of a name an unsigned number of 32 bits. The path is built from the end of
the buffer to its start; the offsets of all stores are recorded. -/
namespace HyperBox.Monitor.ExePath
open HyperBox.Library

abbrev CInt := BitVec 32

/-- The buffer by offset from its start, `end` and `len`, and the offsets stored to so far. -/
structure PathState where
  chars : Int → Char
  finish : Int
  len : CInt
  stores : List Int

namespace PathState

def store (s : PathState) (offset : Int) (c : Char) : PathState :=
  { s with chars := fun i => if i = offset then c else s.chars i, stores := s.stores ++ [offset] }

def storeAll (s : PathState) (offset : Int) : List Char → PathState
  | [] => s
  | c::rest => (s.store offset c).storeAll (offset+1) rest

end PathState

section Code

/-- `true` stands for -ENAMETOOLONG. -/
def prepend (s : PathState) (str : List Char) (namelen : CInt) : PathState × Bool :=
  let len := s.len - namelen
  if len.toInt < 0 then ({ s with len },true)
  else
    let finish := s.finish - namelen.toInt
    (({ s with len, finish }).storeAll finish str,false)

/-- `while (dlen--)`; the characters behind a name read as NUL. -/
def copyName : Nat → List Char → Int → PathState → PathState
  | 0,_,_,s => s
  | dlen+1,dname,p,s =>
    let c := dname.headD '\x00'
    if c = '\x00' then s else copyName dlen dname.tail (p+1) (s.store p c)

def prependName (s : PathState) (name : DentryName) : PathState × Bool :=
  let dlen := BitVec.ofNat 32 name.len
  let len := s.len - (dlen + 1)
  if len.toInt < 0 then ({ s with len },true)
  else
    let finish := s.finish - (dlen + 1).toNat
    (copyName dlen.toNat name.name (finish+1) (({ s with len, finish }).store finish '/'),false)

def climb (s : PathState) (retval : Int) : List DentryName → PathState × Int
  | [] => (s,retval)
  | name::parents =>
    match prependName s name with
    | (s,true) => (s,retval)
    | (s,false) => climb s s.finish parents

/-- The dentries are given from the executable's up to the one below the root. -/
def hbGetExePath (dentries : List DentryName) (buffer : Int → Char) (size : CInt) : PathState × Int :=
  let s := (prepend ⟨buffer,size.toInt,size,[]⟩ ['\x00'] 1).1
  let retval := s.finish - 1
  climb (s.store retval '/') retval dentries

end Code

def component (name : DentryName) : List Char := name.name.take name.len

/-- The recorded length is that of a name of the file system. -/
structure Named (name : DentryName) : Prop where
  nonempty : 0 < name.len
  short : name.len ≤ 255
  recorded : name.len ≤ name.name.length
  noNul : '\x00' ∉ component name
  noSlash : '/' ∉ component name

/-- The string at the offset, up to a NUL. -/
def Reads (chars : Int → Char) (offset : Int) : List Char → Prop
  | [] => chars offset = '\x00'
  | c::rest => chars offset = c ∧ c ≠ '\x00' ∧ Reads chars (offset+1) rest

section Strings
variable {chars : Int → Char} {offset : Int} {str : List Char}

theorem Reads.unique {other : List Char} (reads : Reads chars offset str) (reads' : Reads chars offset other) :
    str = other := by
  induction str generalizing offset other with
  | nil =>
    cases other with
    | nil => rfl
    | cons c other => exact absurd (reads'.1.symm.trans reads) reads'.2.1
  | cons c str ih =>
    cases other with
    | nil => exact absurd (reads.1.symm.trans reads') reads.2.1
    | cons d other => rw [← reads.1,← reads'.1,ih reads.2.2 reads'.2.2]

theorem Reads.congr {chars' : Int → Char} (reads : Reads chars offset str)
    (same : ∀ i, offset ≤ i → chars' i = chars i) : Reads chars' offset str := by
  induction str generalizing offset with
  | nil => exact (same offset (Int.le_refl _)).trans reads
  | cons c str ih =>
    exact ⟨(same offset (Int.le_refl _)).trans reads.1,reads.2.1,ih reads.2.2 (fun i later => same i (by omega))⟩

end Strings

section Stores
variable {s : PathState}

theorem storeAll_spec (s : PathState) (offset : Int) (str : List Char) :
    (s.storeAll offset str).finish = s.finish ∧ (s.storeAll offset str).len = s.len ∧
      (∀ i, i < offset ∨ offset + str.length ≤ i → (s.storeAll offset str).chars i = s.chars i) ∧
      ∀ w ∈ (s.storeAll offset str).stores, w ∈ s.stores ∨ offset ≤ w ∧ w < offset + str.length := by
  induction str generalizing s offset with
  | nil => exact ⟨rfl,rfl,fun _ _ => rfl,fun w member => .inl member⟩
  | cons c rest ih =>
    obtain ⟨finish,len,chars,stores⟩ := ih (s.store offset c) (offset+1)
    rw [List.length_cons]
    refine ⟨finish,len,?_,?_⟩
    · intro i outside
      have apart : i ≠ offset := by omega
      rw [PathState.storeAll,chars i (by omega),PathState.store]
      exact if_neg apart
    · intro w member
      rcases stores w member with old | new
      · rcases List.mem_append.mp old with old | here
        · exact .inl old
        · rw [List.mem_singleton] at here
          omega
      · omega

theorem storeAll_reads {offset : Int} {str rest : List Char} (noNul : '\x00' ∉ str)
    (reads : Reads s.chars (offset + str.length) rest) : Reads (s.storeAll offset str).chars offset (str ++ rest) := by
  induction str generalizing s offset with
  | nil => simpa [PathState.storeAll] using reads
  | cons c str ih =>
    rw [List.mem_cons,not_or] at noNul
    have later : Reads (s.store offset c).chars (offset + 1 + str.length) rest := by
      rw [List.length_cons] at reads
      have place : offset + 1 + (str.length : Int) = offset + ((str.length + 1 : Nat) : Int) := by omega
      rw [place]
      apply reads.congr
      intro i behind
      exact if_neg (by omega)
    refine ⟨?_,Ne.symm noNul.1,ih noNul.2 later⟩
    have first := (storeAll_spec (s.store offset c) (offset+1) str).2.2.1 offset (.inl (by omega))
    rw [PathState.storeAll,first]
    exact if_pos rfl

theorem copyName_eq {dlen : Nat} {dname : List Char} {p : Int} (recorded : dlen ≤ dname.length)
    (noNul : '\x00' ∉ dname.take dlen) : copyName dlen dname p s = s.storeAll p (dname.take dlen) := by
  induction dlen generalizing dname p s with
  | zero => rfl
  | succ dlen ih =>
    cases dname with
    | nil => simp at recorded
    | cons c dname =>
      rw [List.take_succ_cons,List.mem_cons,not_or] at noNul
      rw [copyName,List.headD_cons,if_neg (Ne.symm noNul.1),List.tail_cons,
        ih (Nat.le_of_succ_le_succ recorded) noNul.2]
      rfl

end Stores

/-- What the function shows of the names that are in the buffer: the slash alone for none. -/
def shown (kept : List (List Char)) : List Char := if kept = [] then ['/'] else joined '/' kept

/-- The names that fit stand at the end of the buffer, in front of a NUL. -/
structure Built (size : Int) (kept : List (List Char)) (s : PathState) (retval : Int) : Prop where
  finish : s.finish = size - 1 - (joined '/' kept).length
  room : 0 ≤ s.finish
  len : s.len.toInt = s.finish
  tail : Reads s.chars s.finish (joined '/' kept)
  result : Reads s.chars retval (shown kept)
  place : 0 ≤ retval ∧ retval + (shown kept).length = size - 1
  inside : ∀ w ∈ s.stores, 0 ≤ w ∧ w < size

/-- The returned string shows the names and ends at the end of the buffer, which no store leaves. -/
structure Shows (size : Int) (kept : List (List Char)) (result : PathState × Int) : Prop where
  reads : Reads result.1.chars result.2 (shown kept)
  start : 0 ≤ result.2
  stop : result.2 + (shown kept).length = size - 1
  inside : ∀ w ∈ result.1.stores, 0 ≤ w ∧ w < size

section Climb
variable {size : CInt} {kept : List (List Char)} {s : PathState} {retval : Int} {name : DentryName}

theorem Built.shows (built : Built size.toInt kept s retval) : Shows size.toInt kept (s,retval) :=
  ⟨built.result,built.place.1,built.place.2,built.inside⟩

theorem component_length (named : Named name) : (component name).length = name.len := by
  rw [component,List.length_take]
  exact Nat.min_eq_left named.recorded

theorem dlen_toNat (named : Named name) :
    (BitVec.ofNat 32 name.len).toNat = name.len ∧ (BitVec.ofNat 32 name.len + 1).toNat = name.len + 1 := by
  have short := named.short
  constructor
  · rw [BitVec.toNat_ofNat]
    omega
  · rw [BitVec.toNat_add,BitVec.toNat_ofNat,show (1 : CInt).toNat = 1 by rfl]
    omega

def PathState.moved (s : PathState) (name : DentryName) : PathState :=
  { s with len := s.len - (BitVec.ofNat 32 name.len + 1), finish := s.finish - (name.len + 1) }

/-- The unsigned difference is the signed one. -/
theorem len_sub (built : Built size.toInt kept s retval) (named : Named name) :
    (s.len - (BitVec.ofNat 32 name.len + 1)).toInt = s.finish - (name.len + 1) := by
  have short := named.short
  have room := built.room
  have finish := built.finish
  have bound := BitVec.toInt_lt (x := size)
  have dlen := (dlen_toNat named).2
  have value : (BitVec.ofNat 32 name.len + 1).toInt = name.len + 1 := by
    rw [BitVec.toInt_eq_toNat_of_lt (by omega),dlen]
    rfl
  rw [BitVec.toInt_sub,built.len,value]
  apply Int.bmod_eq_of_le <;> omega

/-- What is left of the room is compared once, and the bytes that are stored are those of the name. -/
theorem prependName_eq (built : Built size.toInt kept s retval) (named : Named name) :
    prependName s name =
      if s.finish - (name.len + 1) < 0 then ({ s with len := s.len - (BitVec.ofNat 32 name.len + 1) },true)
      else ((s.moved name).storeAll (s.moved name).finish ('/'::component name),false) := by
  obtain ⟨dlen,dlenNext⟩ := dlen_toNat named
  rw [prependName]
  dsimp only
  rw [len_sub built named,dlen,dlenNext,copyName_eq named.recorded named.noNul]
  rfl

theorem joined_length (named : Named name) :
    (joined '/' (kept ++ [component name])).length = name.len + 1 + (joined '/' kept).length := by
  rw [joined_snoc,List.length_append,List.length_cons,component_length named]

theorem prependName_long (built : Built size.toInt kept s retval) (named : Named name)
    (long : size.toInt - 1 < (joined '/' (kept ++ [component name])).length) :
    ∃ s', prependName s name = (s',true) ∧ s'.chars = s.chars ∧ s'.stores = s.stores := by
  have finish := built.finish
  rw [joined_length named] at long
  rw [prependName_eq built named,if_pos (by omega)]
  exact ⟨_,rfl,rfl,rfl⟩

theorem prependName_fits (built : Built size.toInt kept s retval) (named : Named name)
    (fits : (joined '/' (kept ++ [component name])).length ≤ size.toInt - 1) :
    ∃ s', prependName s name = (s',false) ∧ Built size.toInt (kept ++ [component name]) s' s'.finish := by
  have finish := built.finish
  have length := component_length named
  have count : (joined '/' (kept ++ [component name])).length = name.len + 1 + (joined '/' kept).length :=
    joined_length named
  rw [count] at fits
  rw [prependName_eq built named,if_neg (by omega)]
  obtain ⟨sameFinish,sameLen,_,stores⟩ := storeAll_spec (s.moved name) (s.moved name).finish ('/'::component name)
  have start : (s.moved name).finish = s.finish - (name.len + 1) := rfl
  have noNul : '\x00' ∉ '/'::component name := by
    rw [List.mem_cons,not_or]
    exact ⟨by decide,named.noNul⟩
  have behind : (s.moved name).finish + (('/'::component name).length : Nat) = s.finish := by
    rw [List.length_cons,length]
    omega
  have reads : Reads ((s.moved name).storeAll (s.moved name).finish ('/'::component name)).chars
      (s.moved name).finish (joined '/' (kept ++ [component name])) := by
    rw [joined_snoc]
    apply storeAll_reads noNul
    rw [behind]
    exact built.tail
  have visible : shown (kept ++ [component name]) = joined '/' (kept ++ [component name]) := if_neg (by simp)
  refine ⟨_,rfl,?_,?_,?_,?_,?_,?_,?_⟩
  · rw [sameFinish,count]
    omega
  · rw [sameFinish]
    omega
  · rw [sameLen,sameFinish]
    exact len_sub built named
  · rw [sameFinish]
    exact reads
  · rw [sameFinish,visible]
    exact reads
  · rw [sameFinish,visible,count]
    omega
  · intro w member
    rcases stores w member with old | ⟨low,high⟩
    · exact built.inside w old
    · rw [behind] at high
      omega

/-- The walk keeps the names from the executable's on until one does not fit. The induction is
on the dentries that are left. -/
theorem climb_spec (built : Built size.toInt kept s retval) {dentries : List DentryName}
    (named : ∀ name ∈ dentries, Named name) :
    ∃ final, LongestFit '/' (size.toInt - 1).toNat (kept ++ dentries.map component) final ∧
      Shows size.toInt final (climb s retval dentries) := by
  have short : (joined '/' kept).length ≤ (size.toInt - 1).toNat := by
    have finish := built.finish
    have room := built.room
    omega
  induction dentries generalizing kept s retval with
  | nil =>
    refine ⟨kept,⟨?_,short,?_⟩,built.shows⟩
    · rw [List.map_nil,List.append_nil]
    · intro more whole _
      rw [List.map_nil,List.append_nil] at whole
      exact whole.length_le
  | cons name rest ih =>
    obtain ⟨here,later⟩ := List.forall_mem_cons.mp named
    by_cases fits : (joined '/' (kept ++ [component name])).length ≤ size.toInt - 1
    · obtain ⟨s',result,next⟩ := prependName_fits built here fits
      obtain ⟨final,longest,shows⟩ := ih next later (by omega)
      rw [List.append_assoc,List.singleton_append] at longest
      rw [climb,result]
      exact ⟨final,longest,shows⟩
    · obtain ⟨s',result,chars,stores⟩ := prependName_long built here (by omega)
      have finish := built.finish
      have room := built.room
      rw [climb,result]
      refine ⟨kept,LongestFit.stop short (by omega),?_⟩
      exact ⟨chars ▸ built.result,built.place.1,built.place.2,stores ▸ built.inside⟩

theorem built_start (big : 2 ≤ size.toInt) (buffer : Int → Char) :
    ∃ s, (prepend ⟨buffer,size.toInt,size,[]⟩ ['\x00'] 1).1 = s ∧
      Built size.toInt [] (s.store (s.finish - 1) '/') (s.finish - 1) := by
  have bound := BitVec.toInt_lt (x := size)
  have one : (1 : CInt).toInt = 1 := by rfl
  have len : (size - 1).toInt = size.toInt - 1 := by
    rw [BitVec.toInt_sub,one]
    apply Int.bmod_eq_of_le <;> omega
  have first : (prepend ⟨buffer,size.toInt,size,[]⟩ ['\x00'] 1).1 =
      (PathState.mk buffer (size.toInt - 1) (size - 1) []).store (size.toInt - 1) '\x00' := by
    rw [prepend]
    dsimp only
    rw [len,if_neg (by omega),one]
    rfl
  refine ⟨_,first,?_,?_,?_,?_,?_,?_,?_⟩
  · simp [PathState.store,joined]
  · simp only [PathState.store]
    omega
  · exact len
  · refine (if_neg ?_).trans (if_pos rfl)
    simp only [PathState.store]
    omega
  · refine ⟨if_pos rfl,by decide,(if_neg ?_).trans (if_pos ?_)⟩ <;> simp only [PathState.store] <;> omega
  · simp only [PathState.store,shown,if_pos,List.length_singleton]
    omega
  · intro w member
    simp only [PathState.store,List.nil_append,List.cons_append,List.mem_cons,List.not_mem_nil,or_false] at member
    omega

end Climb

def usrBinKmod : List Char := ['/','u','s','r','/','b','i','n','/','k','m','o','d']

def kmodNames : List (List Char) := [['k','m','o','d'],['b','i','n'],['u','s','r']]

section Claim
variable {size : CInt} {dentries : List DentryName} {kept : List (List Char)}

theorem shown_kmod (noSlash : ∀ name ∈ kept, '/' ∉ name) : shown kept = usrBinKmod ↔ kept = kmodNames := by
  constructor
  · intro same
    rw [shown] at same
    split at same
    · exact absurd same (by decide)
    · exact joined_unique noSlash (by decide) same
  · rintro rfl
    decide

theorem noSlash_names (named : ∀ name ∈ dentries, Named name) : ∀ name ∈ dentries.map component, '/' ∉ name := by
  intro name member
  obtain ⟨dentry,listed,rfl⟩ := List.mem_map.mp member
  exact (named dentry listed).noSlash

theorem hbGetExePath_shows (big : 2 ≤ size.toInt) (buffer : Int → Char) (named : ∀ name ∈ dentries, Named name) :
    ∃ kept, LongestFit '/' (size.toInt - 1).toNat (dentries.map component) kept ∧
      Shows size.toInt kept (hbGetExePath dentries buffer size) := by
  obtain ⟨s,first,built⟩ := built_start big buffer
  have result := climb_spec built named
  rw [hbGetExePath,first]
  rwa [List.nil_append] at result

/-- A path that begins with the names of kmod and goes on would have had room for the next name. -/
theorem kmod_whole (large : 4096 ≤ size.toInt) (named : ∀ name ∈ dentries, Named name)
    (longest : LongestFit '/' (size.toInt - 1).toNat (dentries.map component) kmodNames) :
    dentries.map component = kmodNames := by
  obtain ⟨rest,whole⟩ := longest.whole
  cases rest with
  | nil => rw [← whole,List.append_nil]
  | cons name rest =>
    have listed : name ∈ dentries.map component := by
      rw [← whole]
      simp
    obtain ⟨dentry,member,rfl⟩ := List.mem_map.mp listed
    have short := (named dentry member).short
    have length := component_length (named dentry member)
    have more : kmodNames ++ [component dentry] <+: dentries.map component :=
      ⟨rest,by rw [← whole,List.append_assoc,List.singleton_append]⟩
    have count : (joined '/' (kmodNames ++ [component dentry])).length = dentry.len + 1 + 13 := by
      rw [joined_snoc,List.length_append,List.length_cons,length]
      rfl
    have longer := longest.longest _ more (by omega)
    rw [List.length_append] at longer
    exact absurd longer (by simp)

theorem reads_kmod (large : 4096 ≤ size.toInt) (named : ∀ name ∈ dentries, Named name) {result : PathState × Int}
    (longest : LongestFit '/' (size.toInt - 1).toNat (dentries.map component) kept)
    (shows : Shows size.toInt kept result) :
    Reads result.1.chars result.2 usrBinKmod ↔ dentries.map component = kmodNames := by
  have free : ∀ name ∈ kept, '/' ∉ name := fun name member =>
    noSlash_names named name (longest.whole.subset member)
  constructor
  · intro reads
    rw [(shown_kmod free).mp (shows.reads.unique reads)] at longest
    exact kmod_whole large named longest
  · intro kmod
    have length : (joined '/' (dentries.map component)).length = 13 := by
      rw [kmod]
      decide
    have all : kept = dentries.map component := longest.all (by omega)
    rw [← (shown_kmod free).mpr (all.trans kmod)]
    exact shows.reads

/-- The string that is returned, for every buffer that has room for the root's. -/
theorem exe_path (size : CInt) (big : 2 ≤ size.toInt) (buffer : Int → Char) (dentries : List DentryName)
    (named : ∀ name ∈ dentries, Named name) :
    let names := dentries.map component
    let result := hbGetExePath dentries buffer size
    (∃ kept, LongestFit '/' (size.toInt - 1).toNat names kept ∧ Shows size.toInt kept result) ∧
    ((joined '/' names).length ≤ size.toInt - 1 → Reads result.1.chars result.2 (shown names)) ∧
    (dentries = [] → Reads result.1.chars result.2 ['/']) ∧
    (size.toInt = pathMax → (Reads result.1.chars result.2 usrBinKmod ↔ names = kmodNames)) := by
  intro names result
  obtain ⟨kept,longest,shows⟩ := hbGetExePath_shows big buffer named
  have whole : (joined '/' names).length ≤ (size.toInt - 1).toNat → Reads result.1.chars result.2 (shown names) := by
    intro fits
    have all : kept = names := longest.all fits
    exact all ▸ shows.reads
  refine ⟨⟨kept,longest,shows⟩,fun fits => whole (by omega),?_,?_⟩
  · rintro rfl
    exact whole (Nat.zero_le _)
  · intro pathSize
    have large : size.toInt = 4096 := pathSize
    exact reads_kmod (by omega) named longest shows

def kmodChain : List DentryName :=
  [⟨['k','m','o','d','\x00'],4⟩,⟨['b','i','n','\x00'],3⟩,⟨['u','s','r','l','i','b'],3⟩]

theorem named_kmodChain : ∀ name ∈ kmodChain, Named name := by
  intro name member
  simp only [kmodChain,List.mem_cons,List.not_mem_nil,or_false] at member
  rcases member with rfl | rfl | rfl <;> constructor <;> decide

theorem exe_path_kmod :
    let result := hbGetExePath kmodChain (fun _ => '?') 4096
    Reads result.1.chars result.2 usrBinKmod :=
  ((exe_path 4096 (by decide) (fun _ => '?') kmodChain named_kmodChain).2.2.2 (by decide)).mpr (by decide)

end Claim

/-! The workaround check of the system call handler reads the same string. -/

section Workaround
variable {size : CInt} {kept : List (List Char)} {s : PathState} {b : PathBuffer} {name : DentryName}

/-- The buffer without the machine words and the record of stores. -/
structure Same (s : PathState) (b : PathBuffer) : Prop where
  chars : s.chars = b.chars
  finish : s.finish = b.finish
  len : s.len.toInt = b.len

theorem Same.storeAll (same : Same s b) (offset : Int) (str : List Char) :
    Same (s.storeAll offset str) (b.storeAll offset str) := by
  induction str generalizing s b offset with
  | nil => exact same
  | cons c rest ih =>
    have stored : Same (s.store offset c) (b.store offset c) :=
      ⟨by rw [PathState.store,PathBuffer.store,same.chars],same.finish,same.len⟩
    exact ih stored (offset+1)

theorem takeWhile_component (named : Named name) : (component name).takeWhile (· ≠ '\x00') = component name := by
  rw [List.takeWhile_eq_self_iff]
  intro c member
  exact decide_eq_true (fun nul : c = '\x00' => named.noNul (nul ▸ member))

theorem Same.prependName {retval : Int} (same : Same s b) (built : Built size.toInt kept s retval)
    (named : Named name) :
    (prependName s name).2 = (Monitor.prependName b name).2 ∧
      Same (prependName s name).1 (Monitor.prependName b name).1 := by
  have len : b.len - (name.len + 1) = s.finish - (name.len + 1) := by
    rw [← same.len,built.len]
  rw [prependName_eq built named,Monitor.prependName]
  dsimp only
  rw [len,← component,takeWhile_component named]
  by_cases long : s.finish - ((name.len : Int) + 1) < 0
  · rw [if_pos long,if_pos long]
    exact ⟨rfl,same.chars,same.finish,len_sub built named⟩
  · rw [if_neg long,if_neg long,← same.finish]
    have moved : Same (s.moved name) ⟨b.chars,s.finish - (name.len + 1),s.finish - (name.len + 1)⟩ :=
      ⟨same.chars,rfl,len_sub built named⟩
    exact ⟨rfl,moved.storeAll _ _⟩

theorem climb_same {retval : Int} (same : Same s b) (built : Built size.toInt kept s retval)
    {dentries : List DentryName} (named : ∀ name ∈ dentries, Named name) :
    (climb s retval dentries).2 = (hbGetExePathLoop b retval dentries).2 ∧
      (climb s retval dentries).1.chars = (hbGetExePathLoop b retval dentries).1.chars := by
  induction dentries generalizing kept s b retval with
  | nil => exact ⟨rfl,same.chars⟩
  | cons name rest ih =>
    obtain ⟨here,later⟩ := List.forall_mem_cons.mp named
    obtain ⟨error,next⟩ := same.prependName built here
    rw [climb,hbGetExePathLoop]
    by_cases fits : (joined '/' (kept ++ [component name])).length ≤ size.toInt - 1
    · obtain ⟨s',result,grown⟩ := prependName_fits built here fits
      rw [result] at error next
      obtain ⟨b',result'⟩ : ∃ b', Monitor.prependName b name = (b',false) := ⟨_,Prod.ext rfl error.symm⟩
      rw [result'] at next
      have finish : s'.finish = b'.finish := next.finish
      rw [result,result']
      dsimp only
      rw [← finish]
      exact ih next grown later
    · obtain ⟨s',result,_⟩ := prependName_long built here (by omega)
      rw [result] at error next
      obtain ⟨b',result'⟩ : ∃ b', Monitor.prependName b name = (b',true) := ⟨_,Prod.ext rfl error.symm⟩
      rw [result'] at next
      rw [result,result']
      exact ⟨rfl,next.chars⟩

theorem cString_reads {fuel : Nat} {offset : Int} {str : List Char} (reads : Reads b.chars offset str)
    (short : str.length < fuel) : b.cString fuel offset = str := by
  induction str generalizing fuel offset with
  | nil =>
    cases fuel with
    | zero => exact absurd short (Nat.lt_irrefl _)
    | succ fuel => exact if_pos reads
  | cons c str ih =>
    cases fuel with
    | zero => exact absurd short (Nat.not_lt_zero _)
    | succ fuel =>
      obtain ⟨first,noNul,rest⟩ := reads
      rw [PathBuffer.cString,first,if_neg noNul,ih rest (Nat.lt_of_succ_lt_succ short)]

theorem reads_exePath {dentries : List DentryName} (named : ∀ name ∈ dentries, Named name) :
    let result := Monitor.hbGetExePath dentries pathMax
    let result' := hbGetExePath dentries (fun _ => '\x00') 4096
    result.2 = result'.2 ∧ result.1.chars = result'.1.chars := by
  have big : 2 ≤ (4096 : CInt).toInt := by decide
  obtain ⟨s,first,built⟩ := built_start big (fun _ => '\x00')
  have start : Same s (Monitor.prepend ⟨fun _ => '\x00',4096,4096⟩ ['\x00']).1 := by
    rw [← first]
    exact ⟨rfl,rfl,rfl⟩
  have slash : Same (s.store (s.finish - 1) '/')
      ((Monitor.prepend ⟨fun _ => '\x00',4096,4096⟩ ['\x00']).1.store (s.finish - 1) '/') :=
    start.storeAll (s.finish - 1) ['/']
  obtain ⟨retval,chars⟩ := climb_same slash built named
  intro result result'
  have walk : result' = climb (s.store (s.finish - 1) '/') (s.finish - 1) dentries := by
    rw [← first]
    rfl
  rw [walk,retval,chars,start.finish]
  exact ⟨rfl,rfl⟩

/-- The check exempts a task exactly when it is modprobe by name and runs /usr/bin/kmod. -/
theorem needsWorkaround_iff {task : TaskStruct} (named : ∀ name ∈ task.exeFile, Named name) :
    needsWorkaround task = true ↔
      task.comm = ['m','o','d','p','r','o','b','e'] ∧ task.exeFile.map component = kmodNames := by
  have big : 2 ≤ (4096 : CInt).toInt := by decide
  obtain ⟨kept,longest,shows⟩ := hbGetExePath_shows big (fun _ => '\x00') named
  obtain ⟨retval,chars⟩ := reads_exePath named
  have whole := reads_kmod (by decide) named longest shows
  have short : (shown kept).length < pathMax := by
    have start := shows.start
    have stop := shows.stop
    have size : (4096 : CInt).toInt = 4096 := by decide
    rw [size] at stop
    simp only [pathMax]
    omega
  have read : (Monitor.hbGetExePath task.exeFile pathMax).1.cString pathMax
      (Monitor.hbGetExePath task.exeFile pathMax).2 = shown kept := by
    apply cString_reads ?_ short
    rw [retval,chars]
    exact shows.reads
  have path : shown kept = usrBinKmod ↔ task.exeFile.map component = kmodNames := by
    rw [← whole]
    exact ⟨fun same => same ▸ shows.reads,fun reads => shows.reads.unique reads⟩
  simp only [needsWorkaround,gHbWorkaroundProcessPath,List.any_cons,List.any_nil,Bool.or_false,
    Bool.and_eq_true,beq_iff_eq,read]
  exact and_congr_right fun _ => path

end Workaround

end HyperBox.Monitor.ExePath
