import HyperBox.Library.Run
import HyperBox.Library.Lines
import Mathlib.Data.List.TakeWhile

/-! The log thread of the helper module. It reads the log FIFO into a buffer of one line and
prints one line in an iteration. The bytes of a read without newline are not kept: `index`
moves only when a line has been printed. -/
namespace HyperBox.Helper
open HyperBox.Library

def maxLogLine : Nat := 1024

def newline : UInt8 := 10

/-- `fifo` holds what has not been read of the whole stream, `printed` the texts of the
`printk` calls. -/
structure LogState where
  fifo : List UInt8
  buffer : List UInt8
  index : Nat
  printed : List (List UInt8)
deriving DecidableEq

def cString (buffer : List UInt8) : List UInt8 := buffer.takeWhile (· ≠ 0)

def overwrite (buffer : List UInt8) (start : Nat) (bytes : List UInt8) : List UInt8 :=
  buffer.take start ++ (bytes ++ buffer.drop (start + bytes.length))

/-- What `kfifo_out` copies when `available` bytes of the stream have been written. -/
def kfifoOut (s : LogState) (available : Nat) : List UInt8 :=
  s.fifo.take (min (maxLogLine - s.index) available)

def hbhLogThread (s : LogState) (available : Nat) : LogState :=
  let out := kfifoOut s available
  let fifo := s.fifo.drop out.length
  let buffer := overwrite s.buffer s.index out
  let stop := s.index + out.length
  match (buffer.take stop).findIdx? (· = newline) with
  | some i =>
    let buffer := buffer.set i 0
    let copyBytes := stop - (i+1)
    { fifo := fifo
      buffer := overwrite buffer 0 ((buffer.drop (i+1)).take copyBytes)
      index := copyBytes
      printed := s.printed ++ [cString buffer ++ [newline]] }
  | none =>
    if stop = maxLogLine then
      let buffer := buffer.set (maxLogLine-1) 0
      { fifo := fifo
        buffer := buffer
        index := 0
        printed := s.printed ++ [cString buffer] }
    else { s with fifo := fifo, buffer := buffer }

def logStart (stream : List UInt8) : LogState := ⟨stream,List.replicate maxLogLine 0,0,[]⟩

def LogState.pending (s : LogState) : List UInt8 := s.buffer.take s.index

structure LogState.Fits (s : LogState) : Prop where
  size : s.buffer.length = maxLogLine
  index : s.index < maxLogLine

theorem logStart_fits (stream : List UInt8) : (logStart stream).Fits := ⟨List.length_replicate,Nat.zero_lt_succ _⟩

section Iteration
variable {s : LogState} {available : Nat}

theorem overwrite_take {buffer bytes : List UInt8} {start : Nat} (inside : start ≤ buffer.length) :
    (overwrite buffer start bytes).take (start + bytes.length) = buffer.take start ++ bytes := by
  have size : (buffer.take start).length = start := by simp [inside]
  rw [overwrite,← List.append_assoc,List.take_left']
  simp [size]

theorem overwrite_length {buffer bytes : List UInt8} {start : Nat}
    (inside : start + bytes.length ≤ buffer.length) : (overwrite buffer start bytes).length = buffer.length := by
  simp only [overwrite,List.length_append,List.length_take,List.length_drop]
  omega

theorem kfifoOut_length (fits : s.Fits) : s.index + (kfifoOut s available).length ≤ s.buffer.length := by
  have size := fits.size
  have index := fits.index
  simp only [kfifoOut,List.length_take]
  omega

theorem kfifoOut_append : kfifoOut s available ++ s.fifo.drop (kfifoOut s available).length = s.fifo := by
  have taken : kfifoOut s available = s.fifo.take (kfifoOut s available).length := by
    rw [kfifoOut,List.length_take,List.take_eq_take_iff]
    omega
  nth_rewrite 1 [taken]
  exact List.take_append_drop _ _

theorem findIdx_cut {text rest : List UInt8} (free : newline ∉ text) :
    (text ++ newline::rest).findIdx? (· = newline) = some text.length := by
  rw [List.findIdx?_append]
  have none : text.findIdx? (· = newline) = none := by
    rw [List.findIdx?_eq_none_iff]
    intro byte member
    simp only [decide_eq_false_iff_not]
    rintro rfl
    exact free member
  simp [none,List.findIdx?_cons]

theorem cString_cut (text rest : List UInt8) : cString (text ++ 0::rest) = cString text := by
  induction text with
  | nil => rfl
  | cons byte text ih =>
    by_cases zero : byte = 0
    · simp [cString,zero]
    · simpa [cString,zero] using ih

theorem searched (fits : s.Fits) :
    (overwrite s.buffer s.index (kfifoOut s available)).take (s.index + (kfifoOut s available).length) =
      s.pending ++ kfifoOut s available :=
  overwrite_take (by have size := fits.size; have index := fits.index; omega)

theorem stop_length (fits : s.Fits) :
    s.index + (kfifoOut s available).length = (s.pending ++ kfifoOut s available).length := by
  have size := fits.size
  have index := fits.index
  simp only [LogState.pending,List.length_append,List.length_take]
  omega

/-- An iteration that finds a newline prints the line before it and keeps the rest. -/
theorem hbhLogThread_line (fits : s.Fits) {text rest : List UInt8}
    (cut : s.pending ++ kfifoOut s available = text ++ newline::rest) (free : newline ∉ text) :
    (hbhLogThread s available).Fits ∧ (hbhLogThread s available).pending = rest ∧
      (hbhLogThread s available).fifo = s.fifo.drop (kfifoOut s available).length ∧
      (hbhLogThread s available).printed = s.printed ++ [cString text ++ [newline]] := by
  have bound := @kfifoOut_length s available fits
  have size := (overwrite_length bound).trans fits.size
  have search := (@searched s available fits).trans cut
  have stop := @stop_length s available fits
  rw [cut,List.length_append,List.length_cons] at stop
  -- behind the bytes of this iteration stands what earlier ones have left
  obtain ⟨stale,whole⟩ : ∃ stale, overwrite s.buffer s.index (kfifoOut s available) =
      text ++ newline::(rest ++ stale) := by
    have parts := List.take_append_drop (s.index + (kfifoOut s available).length)
      (overwrite s.buffer s.index (kfifoOut s available))
    rw [search] at parts
    exact ⟨_,by simpa using parts.symm⟩
  rw [whole] at search
  have closed : (text ++ newline::(rest ++ stale)).set text.length 0 = text ++ 0::(rest ++ stale) := by simp
  have moved : ((text ++ 0::(rest ++ stale)).drop (text.length+1)).take rest.length = rest := by simp
  have copied : s.index + (kfifoOut s available).length - (text.length+1) = rest.length := by omega
  have same : hbhLogThread s available =
      { fifo := s.fifo.drop (kfifoOut s available).length
        buffer := overwrite (text ++ 0::(rest ++ stale)) 0 rest
        index := rest.length
        printed := s.printed ++ [cString text ++ [newline]] } := by
    simp only [hbhLogThread,search,findIdx_cut free,whole,closed,copied,moved,cString_cut]
  rw [same]
  refine ⟨⟨?_,?_⟩,?_,rfl,rfl⟩
  · rw [overwrite_length (by simp only [List.length_append,List.length_cons]; omega)]
    rw [whole] at size
    simpa using size
  · have full := fits.size
    show rest.length < maxLogLine
    omega
  · have kept := @overwrite_take (text ++ 0::(rest ++ stale)) rest 0 (Nat.zero_le _)
    simpa [LogState.pending] using kept

theorem hbhLogThread_silent (fits : s.Fits) (free : newline ∉ s.pending ++ kfifoOut s available)
    (room : (s.pending ++ kfifoOut s available).length < maxLogLine) :
    (hbhLogThread s available).Fits ∧ (hbhLogThread s available).pending = s.pending ∧
      (hbhLogThread s available).fifo = s.fifo.drop (kfifoOut s available).length ∧
      (hbhLogThread s available).printed = s.printed := by
  have bound := @kfifoOut_length s available fits
  have size := (overwrite_length bound).trans fits.size
  have none : (s.pending ++ kfifoOut s available).findIdx? (· = newline) = none := by
    rw [List.findIdx?_eq_none_iff]
    intro byte member
    simp only [decide_eq_false_iff_not]
    intro same
    exact free (same ▸ member)
  have open_ : s.index + (kfifoOut s available).length ≠ maxLogLine := by
    rw [stop_length fits]
    omega
  have same : hbhLogThread s available =
      { s with fifo := s.fifo.drop (kfifoOut s available).length
               buffer := overwrite s.buffer s.index (kfifoOut s available) } := by
    simp only [hbhLogThread,searched fits,none,if_neg open_]
  rw [same]
  refine ⟨⟨size,fits.index⟩,?_,rfl,rfl⟩
  have inside : s.index ≤ s.buffer.length := by
    rw [fits.size]
    exact fits.index.le
  have size : (s.buffer.take s.index).length = s.index := List.length_take_of_le inside
  show (overwrite s.buffer s.index (kfifoOut s available)).take s.index = s.buffer.take s.index
  rw [overwrite,List.take_left' size]

end Iteration

section Runs
variable {s : LogState} {available : Nat}

/-- The read of this iteration loses nothing: it is empty, a newline stands before its end,
or no newline follows at all. -/
def Kept (s : LogState) (available : Nat) : Prop :=
  kfifoOut s available = [] ∨ newline ∈ s.pending ++ kfifoOut s available ∨
    newline ∉ s.fifo.drop (kfifoOut s available).length

def LogState.ahead (s : LogState) : List (List UInt8) := lines newline (s.pending ++ s.fifo)

/-- What holds in every state of the thread, whatever is read. -/
structure Tidy (s : LogState) : Prop where
  fits : s.Fits
  short : Short newline maxLogLine (s.pending ++ s.fifo)

theorem split_fifo : s.pending ++ s.fifo =
    (s.pending ++ kfifoOut s available) ++ s.fifo.drop (kfifoOut s available).length := by
  rw [List.append_assoc,kfifoOut_append]

/-- The two things that an iteration can do: print the next line, or drop what it has read. -/
theorem hbhLogThread_cases (tidy : Tidy s) (available : Nat) :
    (∃ text rest, newline ∉ text ∧ s.pending ++ kfifoOut s available = text ++ newline::rest ∧
      s.ahead = (text ++ [newline])::(hbhLogThread s available).ahead ∧
      (hbhLogThread s available).printed = s.printed ++ [cString text ++ [newline]]) ∨
    (newline ∉ s.pending ++ kfifoOut s available ∧
      (hbhLogThread s available).pending = s.pending ∧
      (hbhLogThread s available).fifo = s.fifo.drop (kfifoOut s available).length ∧
      (hbhLogThread s available).printed = s.printed) := by
  by_cases found : newline ∈ s.pending ++ kfifoOut s available
  · left
    obtain ⟨text,rest,cut,free⟩ := List.eq_append_cons_of_mem found
    obtain ⟨_,pending,fifo,printed⟩ := hbhLogThread_line tidy.fits cut free
    refine ⟨text,rest,free,cut,?_,printed⟩
    rw [LogState.ahead,@split_fifo s available,cut,LogState.ahead,pending,fifo,List.append_assoc,List.cons_append,
      lines_cut free]
  · right
    have room := (@split_fifo s available ▸ tidy.short).whole found
    obtain ⟨_,pending,fifo,printed⟩ := hbhLogThread_silent tidy.fits found room
    exact ⟨found,pending,fifo,printed⟩

theorem hbhLogThread_tidy (tidy : Tidy s) (available : Nat) : Tidy (hbhLogThread s available) := by
  have short := @split_fifo s available ▸ tidy.short
  by_cases found : newline ∈ s.pending ++ kfifoOut s available
  · obtain ⟨text,rest,cut,free⟩ := List.eq_append_cons_of_mem found
    obtain ⟨fits,pending,fifo,_⟩ := hbhLogThread_line tidy.fits cut free
    refine ⟨fits,?_⟩
    rw [cut] at short
    rw [pending,fifo]
    have behind : Short newline maxLogLine
        ((text ++ [newline]) ++ (rest ++ s.fifo.drop (kfifoOut s available).length)) := by
      simpa using short
    exact behind.suffix
  · obtain ⟨fits,pending,fifo,_⟩ := hbhLogThread_silent tidy.fits found (short.whole found)
    refine ⟨fits,?_⟩
    rw [pending,fifo]
    rw [List.append_assoc] at short
    exact short.leave_out fun member => found (List.mem_append_right _ member)

def shown (line : List UInt8) : List UInt8 := cString line.dropLast ++ [newline]

theorem shown_length {text : List UInt8} : (cString text ++ [newline]).length ≤ (text ++ [newline]).length := by
  have bound := (List.takeWhile_prefix (l := text) (p := (· ≠ 0))).length_le
  simp only [List.length_append,cString]
  omega

theorem shown_eq_self {stream line : List UInt8} (member : line ∈ lines newline stream) :
    shown line = line ↔ 0 ∉ line := by
  obtain ⟨text,_,rfl⟩ := lines_end member
  simp only [shown,List.dropLast_concat,List.append_cancel_right_eq,cString,List.takeWhile_eq_self_iff]
  constructor
  · intro nonzero zero
    rcases List.mem_append.mp zero with inside | last
    · simpa using nonzero 0 inside
    · simp [newline] at last
  · intro free byte inside
    simp only [decide_eq_true_eq]
    rintro rfl
    exact free (List.mem_append_left _ inside)

def LogState.weight (s : LogState) : Nat := s.printed.flatten.length + s.ahead.flatten.length

theorem weight_line {text : List UInt8} {after : LogState}
    (ahead : s.ahead = (text ++ [newline])::after.ahead)
    (printed : after.printed = s.printed ++ [cString text ++ [newline]]) : after.weight ≤ s.weight := by
  have bound := @shown_length text
  simp only [LogState.weight,ahead,printed,List.flatten_append,List.flatten_cons,List.flatten_nil,
    List.length_append,List.append_nil] at bound ⊢
  omega

theorem ahead_dropped (free : newline ∉ s.pending ++ kfifoOut s available)
    (member : newline ∈ s.fifo.drop (kfifoOut s available).length) :
    s.ahead.flatten.length =
      (lines newline (s.pending ++ s.fifo.drop (kfifoOut s available).length)).flatten.length +
        (kfifoOut s available).length := by
  rw [LogState.ahead,@split_fifo s available,List.append_assoc]
  simp only [List.mem_append,not_or] at free
  exact lines_length_drop free.1 free.2 member

theorem ahead_none {s : LogState} (free : newline ∉ s.pending) (none : newline ∉ s.fifo) : s.ahead = [] := by
  rw [LogState.ahead,lines_eq_nil]
  simp [free,none]

/-- An iteration never adds bytes, and one that is not `Kept` loses some of a line for good. -/
theorem hbhLogThread_weight (tidy : Tidy s) (available : Nat) :
    (hbhLogThread s available).weight ≤ s.weight ∧
      (¬ Kept s available → (hbhLogThread s available).weight < s.weight) := by
  rcases hbhLogThread_cases tidy available with ⟨text,rest,free,cut,ahead,printed⟩ | ⟨free,pending,fifo,printed⟩
  · refine ⟨weight_line ahead printed,?_⟩
    intro lost
    apply absurd _ lost
    right
    left
    simp [cut]
  · have after : (hbhLogThread s available).ahead =
        lines newline (s.pending ++ s.fifo.drop (kfifoOut s available).length) := by
      rw [LogState.ahead,pending,fifo]
    by_cases member : newline ∈ s.fifo.drop (kfifoOut s available).length
    · have dropped := ahead_dropped free member
      rw [LogState.weight,LogState.weight,after,printed,dropped]
      refine ⟨by omega,?_⟩
      intro lost
      have some : kfifoOut s available ≠ [] := fun none => lost (Or.inl none)
      have positive := List.length_pos_of_ne_nil some
      omega
    · have none : (hbhLogThread s available).ahead = [] := by
        rw [after,lines_eq_nil]
        simp only [List.mem_append,not_or] at free ⊢
        exact ⟨free.1,member⟩
      rw [LogState.weight,none,printed]
      refine ⟨by simp [LogState.weight],?_⟩
      intro lost
      exact absurd (Or.inr (Or.inr member)) lost

theorem tidy_start {stream : List UInt8} (short : Short newline maxLogLine stream) : Tidy (logStart stream) :=
  ⟨logStart_fits stream,short⟩

theorem run_weight (tidy : Tidy s) (reads : List Nat) :
    (run hbhLogThread s reads).weight ≤ s.weight ∧
      (¬ Along hbhLogThread Kept s reads → (run hbhLogThread s reads).weight < s.weight) := by
  induction reads generalizing s with
  | nil => exact ⟨Nat.le_refl _,fun lost => absurd trivial lost⟩
  | cons available rest ih =>
    obtain ⟨bound,lost⟩ := hbhLogThread_weight tidy available
    obtain ⟨boundRest,lostRest⟩ := ih (hbhLogThread_tidy tidy available)
    refine ⟨le_trans boundRest bound,?_⟩
    intro broken
    by_cases kept : Kept s available
    · have later : ¬ Along hbhLogThread Kept (hbhLogThread s available) rest := fun along => broken ⟨kept,along⟩
      exact lt_of_lt_of_le (lostRest later) bound
    · exact lt_of_le_of_lt boundRest (lost kept)

theorem run_kept (tidy : Tidy s) {reads : List Nat} (along : Along hbhLogThread Kept s reads) :
    (run hbhLogThread s reads).printed ++ (run hbhLogThread s reads).ahead.map shown =
      s.printed ++ s.ahead.map shown := by
  induction reads generalizing s with
  | nil => rfl
  | cons available rest ih =>
    obtain ⟨kept,along⟩ := along
    rw [run_cons,ih (hbhLogThread_tidy tidy available) along]
    rcases hbhLogThread_cases tidy available with ⟨text,rest,_,_,ahead,printed⟩ | ⟨free,pending,fifo,printed⟩
    · rw [ahead,printed]
      simp [shown]
    · have same : (hbhLogThread s available).ahead = s.ahead := by
        rcases kept with empty | found | none
        · rw [LogState.ahead,LogState.ahead,pending,fifo,empty]
          rfl
        · exact absurd found free
        · have before : s.ahead = [] := by
            rw [LogState.ahead,@split_fifo s available,lines_eq_nil]
            simp only [List.mem_append,not_or] at free ⊢
            exact ⟨free,none⟩
          rw [before]
          apply ahead_none
          · simp only [List.mem_append,not_or] at free
            rw [pending]
            exact free.1
          · rwa [fifo]
      rw [same,printed]

def Drained (s : LogState) : Prop := s.fifo = [] ∧ newline ∉ s.pending

theorem Drained.ahead (drained : Drained s) : s.ahead = [] :=
  ahead_none drained.2 (by simp [drained.1])

theorem kfifoOut_nonempty (fits : s.Fits) (some : s.fifo ≠ []) : kfifoOut s maxLogLine ≠ [] := by
  have index := fits.index
  have positive := List.length_pos_of_ne_nil some
  apply List.ne_nil_of_length_pos
  simp only [kfifoOut,List.length_take]
  omega

/-- Whatever has been read so far, further iterations empty the FIFO and the buffer. -/
theorem run_drains (tidy : Tidy s) : ∃ n, Drained (run hbhLogThread s (List.replicate n maxLogLine)) := by
  induction length : (s.pending ++ s.fifo).length using Nat.strong_induction_on generalizing s with
  | _ size ih =>
    by_cases drained : Drained s
    · exact ⟨0,drained⟩
    have smaller : ((hbhLogThread s maxLogLine).pending ++ (hbhLogThread s maxLogLine).fifo).length < size := by
      have total := congrArg List.length (@split_fifo s maxLogLine)
      rw [← length,total]
      by_cases found : newline ∈ s.pending ++ kfifoOut s maxLogLine
      · obtain ⟨text,rest,cut,free⟩ := List.eq_append_cons_of_mem found
        obtain ⟨_,pending,fifo,_⟩ := hbhLogThread_line tidy.fits cut free
        rw [pending,fifo,cut]
        simp only [List.length_append,List.length_cons]
        omega
      · have room := (@split_fifo s maxLogLine ▸ tidy.short).whole found
        obtain ⟨_,pending,fifo,_⟩ := hbhLogThread_silent tidy.fits found room
        have some : s.fifo ≠ [] := by
          intro none
          simp only [List.mem_append,not_or] at found
          exact drained ⟨none,found.1⟩
        have positive := List.length_pos_of_ne_nil (kfifoOut_nonempty tidy.fits some)
        rw [pending,fifo]
        simp only [List.length_append]
        omega
    obtain ⟨n,later⟩ := ih _ smaller (hbhLogThread_tidy tidy maxLogLine) rfl
    exact ⟨n+1,later⟩

theorem logStart_ahead (stream : List UInt8) : (logStart stream).ahead = lines newline stream := rfl

/-- The thread prints exactly the lines of the stream if and only if no line has a NUL and
every read is kept. -/
theorem hbhLogThread_prints_lines {stream : List UInt8} (short : Short newline maxLogLine stream)
    (reads : List Nat) (drained : Drained (run hbhLogThread (logStart stream) reads)) :
    (run hbhLogThread (logStart stream) reads).printed = lines newline stream ↔
      (∀ line ∈ lines newline stream, 0 ∉ line) ∧ Along hbhLogThread Kept (logStart stream) reads := by
  have tidy := tidy_start short
  have whole : Along hbhLogThread Kept (logStart stream) reads →
      (run hbhLogThread (logStart stream) reads).printed = (lines newline stream).map shown := by
    intro along
    have kept := run_kept tidy along
    rw [drained.ahead,logStart_ahead] at kept
    simpa [logStart] using kept
  constructor
  · intro exact_
    have along : Along hbhLogThread Kept (logStart stream) reads := by
      by_contra broken
      have lighter := (run_weight tidy reads).2 broken
      rw [LogState.weight,LogState.weight,drained.ahead,exact_,logStart_ahead] at lighter
      simp [logStart] at lighter
    refine ⟨?_,along⟩
    intro line member
    rw [← shown_eq_self member]
    have fixed : (lines newline stream).map shown = (lines newline stream).map id := by
      rw [List.map_id,← whole along,exact_]
    exact List.map_inj_left.mp fixed line member
  · intro ⟨free,along⟩
    rw [whole along]
    nth_rewrite 2 [← List.map_id (lines newline stream)]
    apply List.map_congr_left
    intro line member
    exact (shown_eq_self member).mpr (free line member)

/-- The lines "ab", "cde" and "f". -/
def threeLines : List UInt8 := [97,98,10,99,100,101,10,102,10]

/-- The first two reads end inside a line. -/
theorem prints_lines_example : Short newline maxLogLine threeLines ∧
    Drained (run hbhLogThread (logStart threeLines) [5,3,1]) ∧
    (run hbhLogThread (logStart threeLines) [5,3,1]).printed = lines newline threeLines := by
  have short : Short newline maxLogLine threeLines := fun part inside _ =>
    lt_of_le_of_lt inside.length_le (by decide)
  have drained : Drained (run hbhLogThread (logStart threeLines) [5,3,1]) := by
    unfold Drained
    decide +kernel
  refine ⟨short,drained,(hbhLogThread_prints_lines short [5,3,1] drained).mpr ⟨by decide,?_,?_,?_,trivial⟩⟩
  all_goals
    unfold Kept
    decide +kernel

/-- The line "a" is read in two chunks, and an empty line is printed for it. -/
theorem line_lost : ∃ stream reads, Short newline maxLogLine stream ∧
    Drained (run hbhLogThread (logStart stream) reads) ∧
    (run hbhLogThread (logStart stream) reads).printed ≠ lines newline stream := by
  refine ⟨[97,10],[1,1],fun part inside _ => lt_of_le_of_lt inside.length_le (by decide),?_,?_⟩
  · unfold Drained
    decide +kernel
  · decide +kernel

end Runs

end HyperBox.Helper
