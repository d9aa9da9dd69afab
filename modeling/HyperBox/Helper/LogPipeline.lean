import HyperBox.Helper.LogThread

/-! The host's log on its way to the kernel. In VMX root mode `hb_printf` puts a line into the FIFO
under the lock of the log, on any core, while the log thread of the helper module takes bytes out
of it without a lock. -/
namespace HyperBox.Helper
open HyperBox.Library

def maxLogBufferSize : Nat := 4 * 1024 * 1024

/-- The buffer of `hb_internal_printf` when it is copied: `text` is what the format gives, and
`below` is the byte under the buffer, which it looks at when the text is empty. -/
def logLine (below : UInt8) (text : List UInt8) : List UInt8 :=
  let buffer := text.take (maxLogLine - 2)
  if buffer.getLast?.getD below = newline then buffer
  else if maxLogLine ≤ buffer.length then buffer.set (buffer.length - 1) newline
  else buffer ++ [newline]

inductive WritePhase where
  | testing
  | copying

/-- The holder of `g_log_lock`, with what it has put into the FIFO and what remains. -/
structure Writer (n : Nat) where
  core : Fin n
  kept : List UInt8
  rest : List UInt8
  phase : WritePhase

/-- A message that is done; `lost` did not find room. -/
structure Sent where
  kept : List UInt8
  lost : List UInt8

/-- `taken` are the bytes that the log thread has read. -/
structure LogPipe (n : Nat) where
  log : LogState
  writer : Option (Writer n)
  sent : List Sent
  taken : List UInt8

inductive LogEvent (n : Nat) where
  | printf (core : Fin n) (below : UInt8) (text : List UInt8)
  | write (core : Fin n)
  | read

section Code
variable {n : Nat}

def LogPipe.close (s : LogPipe n) (w : Writer n) : LogPipe n :=
  { s with writer := none, sent := s.sent ++ [⟨w.kept,w.rest⟩] }

def LogPipe.put (s : LogPipe n) (bytes : List UInt8) : LogPipe n :=
  { s with log := { s.log with fifo := s.log.fifo ++ bytes } }

/-- The loop of `hb_internal_printf`: its test for room and its call of `kfifo_in` are two steps. -/
def LogPipe.copy (s : LogPipe n) (w : Writer n) : LogPipe n :=
  match w.phase with
  | .testing =>
    if maxLogBufferSize ≤ s.log.fifo.length then s.close w else { s with writer := some { w with phase := .copying } }
  | .copying =>
    let bytes := w.rest.take (maxLogBufferSize - s.log.fifo.length)
    let w := { w with kept := w.kept ++ bytes, rest := w.rest.drop bytes.length, phase := .testing }
    if w.rest = [] then (s.put bytes).close w else { s.put bytes with writer := some w }

/-- A core that does not get the lock spins. -/
def LogPipe.step (s : LogPipe n) : LogEvent n → LogPipe n
  | .printf core below text =>
    match s.writer with
    | none => { s with writer := some ⟨core,[],logLine below text,.testing⟩ }
    | some _ => s
  | .write core =>
    match s.writer with
    | none => s
    | some w => if w.core = core then s.copy w else s
  | .read =>
    { s with log := hbhLogThread s.log s.log.fifo.length, taken := s.taken ++ kfifoOut s.log s.log.fifo.length }

def logPipe (n : Nat) : LogPipe n := ⟨logStart [],none,[],[]⟩

/-- The line of an event that gets the lock. -/
def LogPipe.accepts (s : LogPipe n) : LogEvent n → List (List UInt8)
  | .printf _ below text => if s.writer.isNone then [logLine below text] else []
  | .write _ | .read => []

/-- The lines of a run in the order in which their cores got the lock. -/
def accepted (s : LogPipe n) : List (LogEvent n) → List (List UInt8)
  | [] => []
  | event::rest => s.accepts event ++ accepted (s.step event) rest

end Code

section Line
variable (below : UInt8) (text : List UInt8)

theorem logLine_cases : logLine below text = [] ∨
    ∃ before, logLine below text = before ++ [newline] ∧ before.length < maxLogLine - 1 := by
  have short := List.length_take_le (maxLogLine - 2) text
  have limit : maxLogLine = 1024 := rfl
  simp only [logLine]
  generalize text.take (maxLogLine - 2) = buffer at short
  split
  · rename_i ends
    rcases List.eq_nil_or_concat buffer with rfl | ⟨before,last,rfl⟩
    · exact .inl rfl
    · rw [List.concat_eq_append,List.getLast?_concat,Option.getD_some] at ends
      rw [List.concat_eq_append,List.length_append,List.length_singleton] at short
      refine .inr ⟨before,by rw [List.concat_eq_append,ends],by omega⟩
  · rw [if_neg (by omega)]
    exact .inr ⟨buffer,rfl,by omega⟩

theorem logLine_closed : Closed newline (logLine below text) := by
  rcases logLine_cases below text with empty | ⟨before,line,_⟩
  · rw [empty]
    exact closed_nil
  · rw [line]
    exact closed_concat before

theorem logLine_length : (logLine below text).length < maxLogLine := by
  rcases logLine_cases below text with empty | ⟨before,line,short⟩
  · rw [empty]
    exact Nat.zero_lt_succ _
  · rw [line,List.length_append,List.length_singleton]
    omega

end Line

section Stream
variable {n : Nat} {s : LogPipe n}

def Sent.line (m : Sent) : List UInt8 := m.kept ++ m.lost

def LogPipe.copied (s : LogPipe n) : List UInt8 := (s.writer.map Writer.kept).getD []

def LogPipe.requested (s : LogPipe n) : List (List UInt8) :=
  s.sent.map Sent.line ++ (s.writer.map (fun w => w.kept ++ w.rest)).toList

/-- The bytes that went through the FIFO are those of the messages one after the other, each from
its beginning on. -/
structure Streamed (s : LogPipe n) : Prop where
  stream : s.taken ++ s.log.fifo = (s.sent.map Sent.kept).flatten ++ s.copied
  bound : s.log.fifo.length ≤ maxLogBufferSize

/-- A message loses its end only when the FIFO is full. -/
def CutWhenFull (s : LogPipe n) (event : LogEvent n) : Prop :=
  ∀ m, (s.step event).sent = s.sent ++ [m] → m.lost ≠ [] → s.log.fifo.length = maxLogBufferSize

theorem hbhLogThread_fifo (s : LogState) (available : Nat) :
    (hbhLogThread s available).fifo = s.fifo.drop (kfifoOut s available).length := by
  unfold hbhLogThread
  dsimp only
  split
  · rfl
  · split <;> rfl

/-- What a step of the loop does: it gives up, goes on to copy, copies the rest, or copies a part of it. -/
theorem copy_cases (w : Writer n) :
    (maxLogBufferSize ≤ s.log.fifo.length ∧ s.copy w = s.close w) ∨
    s.copy w = { s with writer := some { w with phase := .copying } } ∨
    (w.rest.length ≤ maxLogBufferSize - s.log.fifo.length ∧
      s.copy w = (s.put w.rest).close ⟨w.core,w.kept ++ w.rest,[],.testing⟩) ∨
    ∃ bytes rest, w.rest = bytes ++ rest ∧ rest ≠ [] ∧ bytes.length = maxLogBufferSize - s.log.fifo.length ∧
      s.copy w = { s.put bytes with writer := some ⟨w.core,w.kept ++ bytes,rest,.testing⟩ } := by
  obtain ⟨core,kept,rest,phase⟩ := w
  cases phase with
  | testing =>
    by_cases full : maxLogBufferSize ≤ s.log.fifo.length
    · exact .inl ⟨full,if_pos full⟩
    · exact .inr (.inl (if_neg full))
  | copying =>
    refine .inr (.inr ?_)
    by_cases fits : rest.length ≤ maxLogBufferSize - s.log.fifo.length
    · refine .inl ⟨fits,?_⟩
      simp only [LogPipe.copy,List.take_of_length_le fits,List.drop_length,if_true]
    · have above := Nat.lt_of_not_le fits
      have bytes : (rest.take (maxLogBufferSize - s.log.fifo.length)).length = maxLogBufferSize - s.log.fifo.length :=
        List.length_take_of_le above.le
      have more : rest.drop (maxLogBufferSize - s.log.fifo.length) ≠ [] := by
        rw [ne_eq,List.drop_eq_nil_iff]
        exact fits
      refine .inr ⟨_,_,(List.take_append_drop _ _).symm,more,bytes,?_⟩
      simp only [LogPipe.copy,bytes,if_neg more]

/-- What a step does: nothing, it takes the lock for a new line, it copies, or the log thread reads. -/
theorem step_cases (event : LogEvent n) :
    (s.step event = s ∧ s.accepts event = []) ∨
    (s.writer = none ∧ ∃ core below text,
      s.step event = { s with writer := some ⟨core,[],logLine below text,.testing⟩ } ∧
      s.accepts event = [logLine below text]) ∨
    (∃ w, s.writer = some w ∧ s.step event = s.copy w ∧ s.accepts event = []) ∨
    event = .read := by
  cases event with
  | printf core below text =>
    cases holds : s.writer with
    | none => exact .inr (.inl ⟨rfl,core,below,text,by simp only [LogPipe.step,holds],by simp [LogPipe.accepts,holds]⟩)
    | some w => exact .inl ⟨by simp only [LogPipe.step,holds],by simp [LogPipe.accepts,holds]⟩
  | write core =>
    cases holds : s.writer with
    | none => exact .inl ⟨by simp only [LogPipe.step,holds],rfl⟩
    | some w =>
      by_cases own : w.core = core
      · exact .inr (.inr (.inl ⟨w,rfl,by simp only [LogPipe.step,holds,if_pos own],rfl⟩))
      · exact .inl ⟨by simp only [LogPipe.step,holds,if_neg own],rfl⟩
  | read => exact .inr (.inr (.inr rfl))

theorem Streamed.copy (streamed : Streamed s) {w : Writer n} (holds : s.writer = some w) : Streamed (s.copy w) := by
  have stream := streamed.stream
  have bound := streamed.bound
  rw [LogPipe.copied,holds,Option.map_some,Option.getD_some] at stream
  rcases copy_cases (s := s) w with ⟨_,ends⟩ | tests | ⟨fits,ends⟩ | ⟨bytes,rest,_,_,room,goes⟩
  · rw [ends]
    exact ⟨by simpa [LogPipe.close,LogPipe.copied] using stream,bound⟩
  · rw [tests]
    exact ⟨by simpa [LogPipe.copied] using stream,bound⟩
  · rw [ends]
    refine ⟨?_,?_⟩
    · simp [LogPipe.close,LogPipe.put,LogPipe.copied,← List.append_assoc,stream]
    · simp only [LogPipe.close,LogPipe.put,List.length_append]
      omega
  · rw [goes]
    refine ⟨?_,?_⟩
    · simp [LogPipe.put,LogPipe.copied,← List.append_assoc,stream]
    · simp only [LogPipe.put,List.length_append]
      omega

theorem Streamed.step (streamed : Streamed s) (event : LogEvent n) : Streamed (s.step event) := by
  rcases step_cases (s := s) event with ⟨stays,_⟩ | ⟨free,core,below,text,opens,_⟩ | ⟨w,holds,copies,_⟩ | rfl
  · rw [stays]
    exact streamed
  · have stream := streamed.stream
    rw [LogPipe.copied,free] at stream
    rw [opens]
    exact ⟨stream,streamed.bound⟩
  · rw [copies]
    exact streamed.copy holds
  · have fifo := hbhLogThread_fifo s.log s.log.fifo.length
    refine ⟨?_,?_⟩
    · simp only [LogPipe.step,fifo,List.append_assoc,kfifoOut_append]
      exact streamed.stream
    · simp only [LogPipe.step,fifo,List.length_drop]
      exact (Nat.sub_le _ _).trans streamed.bound

theorem Streamed.cut (streamed : Streamed s) (event : LogEvent n) : CutWhenFull s event := by
  intro m added lost
  have same : s.sent ≠ s.sent ++ [m] := by simp
  rcases step_cases (s := s) event with ⟨stays,_⟩ | ⟨_,_,_,_,opens,_⟩ | ⟨w,_,copies,_⟩ | rfl
  · rw [stays] at added
    exact absurd added same
  · rw [opens] at added
    exact absurd added same
  · rw [copies] at added
    rcases copy_cases (s := s) w with ⟨full,_⟩ | tests | ⟨_,ends⟩ | ⟨bytes,rest,_,_,_,goes⟩
    · exact Nat.le_antisymm streamed.bound full
    · rw [tests] at added
      exact absurd added same
    · rw [ends,LogPipe.close] at added
      have last : Sent.mk (w.kept ++ w.rest) [] = m := by simpa [LogPipe.put] using added
      exact absurd (last ▸ rfl) lost
    · rw [goes] at added
      exact absurd added same
  · exact absurd added same

theorem copy_requested {w : Writer n} (holds : s.writer = some w) : (s.copy w).requested = s.requested := by
  rcases copy_cases (s := s) w with ⟨_,ends⟩ | tests | ⟨_,ends⟩ | ⟨bytes,rest,split,_,_,goes⟩
  · simp [ends,LogPipe.requested,LogPipe.close,holds,Sent.line]
  · simp [tests,LogPipe.requested,holds]
  · simp [ends,LogPipe.requested,LogPipe.close,LogPipe.put,holds,Sent.line]
  · simp [goes,LogPipe.requested,LogPipe.put,holds,split]

theorem step_requested (event : LogEvent n) : (s.step event).requested = s.requested ++ s.accepts event := by
  rcases step_cases (s := s) event with ⟨stays,accepts⟩ | ⟨free,core,below,text,opens,accepts⟩ |
    ⟨w,holds,copies,accepts⟩ | rfl
  · rw [stays,accepts,List.append_nil]
  · rw [opens,accepts]
    simp [LogPipe.requested,free]
  · rw [copies,accepts,List.append_nil]
    exact copy_requested holds
  · exact (List.append_nil _).symm

theorem run_requested (s : LogPipe n) (events : List (LogEvent n)) :
    (run LogPipe.step s events).requested = s.requested ++ accepted s events := by
  induction events generalizing s with
  | nil => exact (List.append_nil _).symm
  | cons event rest ih => rw [run_cons,ih,step_requested,accepted,List.append_assoc]

theorem streamed_start : Streamed (logPipe n) := ⟨rfl,Nat.zero_le _⟩

/-- Whatever the cores and the log thread do, the bytes of the FIFO are those of the accepted messages
in their order; a message loses nothing but an end, and that only to a full FIFO. -/
theorem log_stream_prefixes (events : List (LogEvent n)) :
    Streamed (run LogPipe.step (logPipe n) events) ∧
      (run LogPipe.step (logPipe n) events).requested = accepted (logPipe n) events ∧
      Along LogPipe.step CutWhenFull (logPipe n) events := by
  refine ⟨?_,?_,?_⟩
  · exact run_invariant Streamed (fun _ event streamed => streamed.step event) streamed_start events
  · exact run_requested (logPipe n) events
  · exact along_of_invariant Streamed (fun _ event streamed => streamed.step event)
      (fun _ event streamed => streamed.cut event) streamed_start events

end Stream

section Printed
variable {n : Nat} {s : LogPipe n}

/-- The FIFO has room for what remains of the line that is being written. -/
def Roomy (s : LogPipe n) (_ : LogEvent n) : Prop :=
  s.log.fifo.length + (s.writer.map (fun w => w.rest.length)).getD 0 ≤ maxLogBufferSize

/-- The state as long as the FIFO has always had room: no line has come into it in parts. -/
structure Whole (s : LogPipe n) : Prop where
  tidy : Tidy s.log
  closed : Closed newline (s.log.pending ++ s.log.fifo)
  sent : ∀ m ∈ s.sent, m.lost = []
  messages : Closed newline (s.sent.map Sent.line).flatten
  writer : ∀ w, s.writer = some w → w.kept = [] ∧ ∃ below text, w.rest = logLine below text
  printed : s.log.printed ++ s.log.ahead.map shown = (lines newline (s.sent.map Sent.line).flatten).map shown

section Read
variable {log : LogState}

/-- The bytes of a read that has no newline would be lost; here there are none. -/
theorem read_kept (tidy : Tidy log) (closed : Closed newline (log.pending ++ log.fifo)) :
    newline ∈ log.pending ++ kfifoOut log log.fifo.length ∨ kfifoOut log log.fifo.length = [] := by
  by_contra neither
  obtain ⟨free,some⟩ := not_or.mp neither
  have index := tidy.fits.index
  have room := (@split_fifo log log.fifo.length ▸ tidy.short).whole free
  have pending : log.pending.length = log.index := by
    rw [LogState.pending,List.length_take,tidy.fits.size]
    omega
  rw [List.length_append,pending,kfifoOut,List.length_take] at room
  have all : kfifoOut log log.fifo.length = log.fifo := by
    rw [kfifoOut]
    exact List.take_of_length_le (by omega)
  rw [all] at free some
  have none := closed _ List.suffix_rfl free
  exact some (List.append_eq_nil_iff.mp none).2

theorem read_closed (tidy : Tidy log) (closed : Closed newline (log.pending ++ log.fifo)) :
    Closed newline ((hbhLogThread log log.fifo.length).pending ++ (hbhLogThread log log.fifo.length).fifo) := by
  by_cases found : newline ∈ log.pending ++ kfifoOut log log.fifo.length
  · obtain ⟨text,rest,cut,free⟩ := List.eq_append_cons_of_mem found
    obtain ⟨_,pending,fifo,_⟩ := hbhLogThread_line tidy.fits cut free
    rw [pending,fifo]
    apply closed.suffix
    rw [@split_fifo log log.fifo.length,cut]
    exact ⟨text ++ [newline],by simp⟩
  · have empty := (read_kept tidy closed).resolve_left found
    have room := (@split_fifo log log.fifo.length ▸ tidy.short).whole found
    obtain ⟨_,pending,fifo,_⟩ := hbhLogThread_silent tidy.fits found room
    rw [pending,fifo,empty]
    exact closed

theorem read_printed (tidy : Tidy log) (closed : Closed newline (log.pending ++ log.fifo)) :
    (hbhLogThread log log.fifo.length).printed ++ (hbhLogThread log log.fifo.length).ahead.map shown =
      log.printed ++ log.ahead.map shown := by
  have kept : Kept log log.fifo.length := by
    rcases read_kept tidy closed with found | empty
    · exact .inr (.inl found)
    · exact .inl empty
  have along : Along hbhLogThread Kept log [log.fifo.length] := ⟨kept,trivial⟩
  exact run_kept tidy along

/-- A read takes what there is. -/
theorem read_all (log : LogState) : hbhLogThread log log.fifo.length = hbhLogThread log maxLogLine := by
  have same : kfifoOut log log.fifo.length = kfifoOut log maxLogLine := by
    rw [kfifoOut,kfifoOut,List.take_eq_take_iff]
    omega
  simp only [hbhLogThread,same]

end Read

theorem Whole.copy (whole : Whole s) {w : Writer n} (holds : s.writer = some w)
    (room : s.log.fifo.length + w.rest.length ≤ maxLogBufferSize) : Whole (s.copy w) := by
  obtain ⟨kept,below,text,rest⟩ := whole.writer w holds
  have done (bytes : List UInt8) : ∀ m ∈ s.sent ++ [⟨bytes,[]⟩], m.lost = [] := by
    intro m member
    rcases List.mem_append.mp member with old | new
    · exact whole.sent m old
    · rw [List.mem_singleton.mp new]
  rcases copy_cases (s := s) w with ⟨full,ends⟩ | tests | ⟨_,ends⟩ | ⟨bytes,more,split,some,size,_⟩
  · -- a full FIFO has room only for an empty line
    have none : w.rest = [] := List.eq_nil_of_length_eq_zero (by omega)
    rw [ends,LogPipe.close,kept,none]
    refine ⟨whole.tidy,whole.closed,done [],?_,by simp,?_⟩
    · simpa [Sent.line] using whole.messages
    · simpa [Sent.line] using whole.printed
  · rw [tests]
    refine ⟨whole.tidy,whole.closed,whole.sent,whole.messages,?_,whole.printed⟩
    rintro w' same
    rw [← Option.some.inj same]
    exact ⟨kept,below,text,rest⟩
  · have closed := logLine_closed below text
    rw [← rest] at closed
    have fifo : s.log.pending ++ (s.log.fifo ++ w.rest) = s.log.pending ++ s.log.fifo ++ w.rest :=
      (List.append_assoc _ _ _).symm
    have messages : ((s.sent ++ [Sent.mk w.rest []]).map Sent.line).flatten = (s.sent.map Sent.line).flatten ++ w.rest := by
      simp [Sent.line]
    rw [ends,LogPipe.close,LogPipe.put,kept]
    refine ⟨⟨⟨whole.tidy.fits.size,whole.tidy.fits.index⟩,?_⟩,?_,done _,?_,by simp,?_⟩
    · exact fifo ▸ whole.tidy.short.append_closed whole.closed (rest ▸ logLine_length below text)
    · exact fifo ▸ whole.closed.append closed
    · exact messages ▸ whole.messages.append closed
    · have before := whole.printed
      have ahead : lines newline (s.log.pending ++ (s.log.fifo ++ w.rest)) = s.log.ahead ++ lines newline w.rest := by
        rw [fifo,whole.closed.lines_append]
        rfl
      change s.log.printed ++ (lines newline (s.log.pending ++ (s.log.fifo ++ w.rest))).map shown =
        (lines newline ((s.sent ++ [Sent.mk w.rest []]).map Sent.line).flatten).map shown
      rw [ahead,messages,whole.messages.lines_append,List.map_append,List.map_append,← List.append_assoc,before]
  · have cut := congrArg List.length split
    have positive := List.length_pos_of_ne_nil some
    rw [List.length_append] at cut
    omega

theorem Whole.read (whole : Whole s) : Whole (s.step .read) := by
  refine ⟨hbhLogThread_tidy whole.tidy _,read_closed whole.tidy whole.closed,whole.sent,whole.messages,whole.writer,?_⟩
  exact (read_printed whole.tidy whole.closed).trans whole.printed

theorem Whole.step (whole : Whole s) (event : LogEvent n) (room : Roomy s event) : Whole (s.step event) := by
  rcases step_cases (s := s) event with ⟨stays,_⟩ | ⟨_,core,below,text,opens,_⟩ | ⟨w,holds,copies,_⟩ | rfl
  · rw [stays]
    exact whole
  · rw [opens]
    refine ⟨whole.tidy,whole.closed,whole.sent,whole.messages,?_,whole.printed⟩
    rintro w same
    rw [← Option.some.inj same]
    exact ⟨rfl,below,text,rfl⟩
  · rw [copies]
    exact whole.copy holds (by simpa [Roomy,holds] using room)
  · exact whole.read

theorem whole_start : Whole (logPipe n) := by
  have none : (logStart []).pending ++ (logStart []).fifo = [] := rfl
  refine ⟨⟨logStart_fits [],?_⟩,?_,by simp [logPipe],closed_nil,by simp [logPipe],rfl⟩
  · rintro part inside _
    rw [logPipe,none,List.infix_nil] at inside
    rw [inside]
    exact Nat.zero_lt_succ _
  · rw [logPipe,none]
    exact closed_nil

/-- Reads alone drain the FIFO. -/
theorem reads_alone (whole : Whole s) (k : Nat) :
    Whole (run LogPipe.step s (List.replicate k .read)) ∧
      (run LogPipe.step s (List.replicate k .read)).log = run hbhLogThread s.log (List.replicate k maxLogLine) ∧
      (run LogPipe.step s (List.replicate k .read)).sent = s.sent := by
  induction k generalizing s with
  | zero => exact ⟨whole,rfl,rfl⟩
  | succ k ih =>
    obtain ⟨later,log,sent⟩ := ih whole.read
    rw [List.replicate_succ,List.replicate_succ,run_cons,run_cons]
    refine ⟨later,?_,sent⟩
    rw [log,← read_all]
    rfl

theorem Whole.prints (whole : Whole s) : ∃ k, (run LogPipe.step s (List.replicate k .read)).log.printed =
    (lines newline (s.sent.map Sent.line).flatten).map shown := by
  obtain ⟨k,drained⟩ := run_drains whole.tidy
  obtain ⟨later,log,sent⟩ := reads_alone whole k
  have printed := later.printed
  rw [sent,log,drained.ahead,List.map_nil,List.append_nil] at printed
  exact ⟨k,log ▸ printed⟩

/-- As long as the FIFO always has room, the kernel's log shows the lines of the accepted messages in
their order, whatever the interleaving: never another text, and all of them once the writers are
quiet. -/
theorem messages_printed (events : List (LogEvent n)) (room : Along LogPipe.step Roomy (logPipe n) events) :
    (run LogPipe.step (logPipe n) events).log.printed <+:
        (lines newline (accepted (logPipe n) events).flatten).map shown ∧
      ((run LogPipe.step (logPipe n) events).writer = none → ∃ k,
        (run LogPipe.step (logPipe n) (events ++ List.replicate k .read)).log.printed =
          (lines newline (accepted (logPipe n) events).flatten).map shown) := by
  have whole := room.reaches Whole (fun _ event whole here => whole.step event here) whole_start
  have requested := run_requested (logPipe n) events
  rw [show (logPipe n).requested = [] from rfl,List.nil_append] at requested
  rw [← requested]
  simp only [run_append]
  generalize run LogPipe.step (logPipe n) events = s at whole
  constructor
  · rw [LogPipe.requested,List.flatten_append,whole.messages.lines_append,List.map_append,← whole.printed,List.append_assoc]
    exact List.prefix_append _ _
  · intro quiet
    rw [LogPipe.requested,quiet]
    simpa using whole.prints

/-- Two cores print while the log thread reads. -/
def busyEvents : List (LogEvent 2) :=
  [.printf 0 0 [97],.printf 1 0 [98],.read,.write 0,.write 0,.printf 1 0 [98],.read,.write 1,.write 1]

theorem messages_printed_sample :
    (run LogPipe.step (logPipe 2) busyEvents).log.printed <+:
        (lines newline (accepted (logPipe 2) busyEvents).flatten).map shown ∧
      ((run LogPipe.step (logPipe 2) busyEvents).writer = none → ∃ k,
        (run LogPipe.step (logPipe 2) (busyEvents ++ List.replicate k .read)).log.printed =
          (lines newline (accepted (logPipe 2) busyEvents).flatten).map shown) := by
  apply messages_printed busyEvents
  simp only [busyEvents,Along]
  refine ⟨?_,?_,?_,?_,?_,?_,?_,?_,?_,trivial⟩ <;> exact Nat.le_of_ble_eq_true (by decide +kernel)

end Printed
end HyperBox.Helper
