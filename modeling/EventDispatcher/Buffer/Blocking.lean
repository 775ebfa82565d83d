import EventDispatcher.Buffer.Read

/-!
# The blocking client

`run()` and `peek()` of `tcp_blocking_client_message_connection` read one byte after each `poll()`.
They pass the lines that the buffered connections find in the same bytes, but for two things: a
zero byte ends the C string that is added to the line, so it is dropped, and a hang up that comes
with a byte is obeyed at once, although there are more bytes to read.  They do what they are for
as long as these two make no difference (`delivers_iff`).
-/

namespace EventDispatcher.Buffer

open Lib

/-- The functions that wait. -/
inductive BlockingCall where
  /-- `run()` -/
  | run
  /-- `peek()` -/
  | peek
deriving DecidableEq, Repr

/-- A `tcp_blocking_client_message_connection`, and the socket it reads. -/
structure Blocking where
  /-- `f_line` -/
  line : Str := []
  /-- The strings passed to `process_line()`, in order. -/
  processed : List Str := []
  /-- The bytes that were read. -/
  received : Str := []
  /-- The bytes that can be read. -/
  pending : Str := []
  /-- Whether the peer has closed its end. -/
  closed : Bool := false
  /-- The function that is running. -/
  call : Option BlockingCall := none
  /-- `is_done()` -/
  done : Bool := false
  /-- Whether `process_hup()` was called; it closes the socket. -/
  hungUp : Bool := false
  /-- The number of calls of `process_error()`. -/
  errors : ℕ := 0
  /-- The exceptions. -/
  thrown : List Exception := []
deriving DecidableEq

/-- What `poll()` reports, and what follows.  It reports bytes that can be read. -/
structure Turn where
  /-- `POLLIN` at the end of the stream. -/
  pollin : Bool
  /-- `POLLHUP` or `POLLRDHUP`, when the peer has closed its end. -/
  pollhup : Bool
  /-- `process_line()`, if it is called, calls `mark_done()`. -/
  markDone : Bool
deriving DecidableEq, Repr

namespace Blocking

/-- `run()` and `peek()` start. -/
def start (call : BlockingCall) (s : Blocking) : Blocking :=
  if s.call = none then
    { s with call := some call, done := if call = .run then false else s.done }
  else s

/-- The exception for a `read()` that does not return a byte. -/
def readFailed : BlockingCall → Exception
  | .run => ⟨.invalidParameter, ("tcp_blocking_client_message_connection::run():"
      ++ " read() failed reading data from socket (return value = 0).").toList⟩
  | .peek => ⟨.runtimeError, ("tcp_blocking_client_message_connection::run():"
      ++ " read() failed reading data from socket (return value = 0)").toList⟩

/-- `process_hup()`, and the return. -/
def hangUp (s : Blocking) : Blocking := { s with hungUp := true, call := none }

/-- `process_line()`, and the return when it is done. -/
def processLine (markDone : Bool) (s : Blocking) : Blocking :=
  { s with
    processed := s.processed ++ [s.line]
    line := []
    done := s.done || markDone
    call := if s.done || markDone then none else s.call }

/-- One turn of the loop of the function that is running. -/
def turn (call : BlockingCall) (t : Turn) (s : Blocking) : Blocking :=
  if s.hungUp then { s with errors := s.errors + 1, call := none }
  else
    match s.pending with
    | c :: rest =>
      let s := { s with received := s.received ++ [c], pending := rest }
      if c = '\n' then s.processLine t.markDone
      else
        let s := { s with line := s.line ++ cStr [c] }
        if s.closed ∧ t.pollhup then s.hangUp else s
    | [] =>
      if s.closed ∧ t.pollin then
        { s with errors := s.errors + 1, thrown := s.thrown ++ [readFailed call], call := none }
      else if s.closed ∧ t.pollhup then s.hangUp
      else
        -- nothing is reported: `peek()` returns and `run()` waits again
        { s with call := if call = .peek then none else s.call }

end Blocking

/-- What can happen. -/
inductive BlockingAction where
  /-- A function is called. -/
  | start (call : BlockingCall)
  /-- The function that is running makes a turn of its loop. -/
  | turn (t : Turn)
  /-- Bytes of the peer arrive. -/
  | arrive (text : Str)
  /-- The peer closes its end. -/
  | close
deriving DecidableEq

namespace Blocking

/-- One action. -/
def step (s : Blocking) : BlockingAction → Blocking
  | .start call => s.start call
  | .turn t =>
    match s.call with
    | none => s
    | some call => s.turn call t
  | .arrive text => if s.closed then s else { s with pending := s.pending ++ text }
  | .close => { s with closed := true }

/-- The lines of the stream are passed. -/
structure Delivers (s : Blocking) : Prop where
  /-- The lines of the bytes that were read are passed, each once and in order. -/
  lines : ∃ tail, Framed '\n' s.received s.processed tail
  /-- All of them, when there is a hang up. -/
  hungUp : s.hungUp = true → ∃ tail, Framed '\n' (s.received ++ s.pending) s.processed tail
  /-- The buffered connection passes the same strings. -/
  same : ∀ calls : List ReadCall, bytesRead calls = s.received →
    (runFrom (BufferClass.tcpClient.processRead record) { object := [] } calls).processed =
      s.processed

/-- The turn reads a byte as it is: a line that ends has no zero byte, and a hang up comes after
the last newline. -/
def Whole (s : Blocking) : BlockingAction → Prop
  | .turn t => s.call ≠ none → s.hungUp = false → ∀ c rest, s.pending = c :: rest →
      (c = '\n' → ∀ lines tail, Framed '\n' s.received lines tail → nul ∉ tail) ∧
      (c ≠ '\n' → s.closed = true → t.pollhup = true → '\n' ∉ rest)
  | _ => True

/-- The invariant: the residual line is what follows the last newline, without the zero bytes. -/
structure Sound (s : Blocking) : Prop where
  /-- The lines and the residual line. -/
  lines : ∃ tail, Framed '\n' s.received s.processed tail ∧ s.line = tail.filter (· ≠ nul)
  /-- After a hang up there are no lines. -/
  hungUp : s.hungUp = true → s.closed = true ∧ '\n' ∉ s.pending

variable {s : Blocking}

lemma Sound.delivers (h : s.Sound) : s.Delivers := by
  obtain ⟨tail, hframed, -⟩ := h.lines
  refine ⟨⟨tail, hframed⟩, fun hup => ⟨tail ++ s.pending, ?_⟩, fun calls hcalls => ?_⟩
  · have hnone : '\n' ∉ tail ++ s.pending := by
      rw [List.mem_append, not_or]
      exact ⟨hframed.tail, (h.hungUp hup).2⟩
    simpa using hframed.append (.of_notMem hnone)
  · obtain ⟨⟨lines, hfeeds⟩, -⟩ := reads_runFrom returns_record .tcpClient calls
      (s := { object := [] }) List.not_mem_nil
    have hbuffered := hfeeds.framed
    rw [hcalls] at hbuffered
    obtain ⟨rfl, -⟩ := hbuffered.unique hframed
    exact hfeeds.object.trans (callAll_record _ _)

lemma filter_cStr (c : Char) (tail : Str) :
    (tail ++ [c]).filter (· ≠ nul) = tail.filter (· ≠ nul) ++ cStr [c] := by
  rw [List.filter_append, cStr]
  by_cases hc : c = nul <;> simp [hc]

/-- **A newline** ends a line without zero bytes. -/
lemma Sound.processLine (h : s.Sound) (hup : s.hungUp = false) {rest : Str}
    (hwhole : ∀ lines tail, Framed '\n' s.received lines tail → nul ∉ tail) (markDone : Bool) :
    (processLine markDone { s with received := s.received ++ ['\n'], pending := rest }).Sound := by
  obtain ⟨tail, hframed, hline⟩ := h.lines
  have hself : s.line = tail := by
    rw [hline, List.filter_eq_self]
    intro c hc
    simpa using fun heq : c = nul => hwhole _ _ hframed (heq ▸ hc)
  refine ⟨⟨[], ?_, rfl⟩, fun hup' => absurd (hup.symm.trans hup') (by decide)⟩
  change Framed '\n' (s.received ++ ['\n']) (s.processed ++ [s.line]) []
  rw [hself]
  exact hframed.append (.line hframed.tail)

/-- **Another byte** continues the line. -/
lemma Sound.readByte (h : s.Sound) (hup : s.hungUp = false) {c : Char} (hc : c ≠ '\n')
    (rest : Str) :
    Sound { s with
      received := s.received ++ [c], pending := rest, line := s.line ++ cStr [c] } := by
  obtain ⟨tail, hframed, hline⟩ := h.lines
  have hnone : '\n' ∉ tail ++ [c] := by
    rw [List.mem_append, List.mem_singleton, not_or]
    exact ⟨hframed.tail, hc.symm⟩
  refine ⟨⟨tail ++ [c], ?_, ?_⟩, fun hup' => absurd (hup.symm.trans hup') (by decide)⟩
  · simpa using hframed.append (.of_notMem hnone)
  · rw [filter_cStr, ← hline]

/-- **One turn** of the loop. -/
lemma Sound.turn (h : s.Sound) {call : BlockingCall} (hcall : s.call = some call) {t : Turn}
    (hok : s.Whole (.turn t)) : (s.turn call t).Sound := by
  rw [Blocking.turn]
  by_cases hup : s.hungUp = true
  · rw [if_pos hup]
    exact ⟨h.lines, h.hungUp⟩
  · rw [if_neg hup]
    rw [Bool.not_eq_true] at hup
    cases hpending : s.pending with
    | nil =>
      have hclosed : s.hungUp = true → s.closed = true ∧ '\n' ∉ ([] : Str) :=
        fun hup => ⟨(h.hungUp hup).1, List.not_mem_nil⟩
      dsimp only
      split_ifs with hin hhup
      · exact ⟨h.lines, hclosed⟩
      · exact ⟨h.lines, fun _ => ⟨hhup.1, by rw [hangUp, hpending]; exact List.not_mem_nil⟩⟩
      all_goals exact ⟨h.lines, hclosed⟩
    | cons c rest =>
      obtain ⟨hnewline, hother⟩ := hok (by simp [hcall]) hup c rest hpending
      dsimp only
      split_ifs with hc hhup
      · subst hc
        exact h.processLine hup (hnewline rfl) t.markDone
      · exact ⟨(h.readByte hup hc rest).lines, fun _ => ⟨hhup.1, hother hc hhup.1 hhup.2⟩⟩
      · exact h.readByte hup hc rest

/-- **One action** that reads whole lines keeps the invariant. -/
lemma Sound.step (h : s.Sound) {a : BlockingAction} (hok : s.Whole a) : (s.step a).Sound := by
  cases a with
  | start call =>
    rw [Blocking.step, start]
    by_cases hnone : s.call = none
    · rw [if_pos hnone]
      exact ⟨h.lines, h.hungUp⟩
    · rw [if_neg hnone]
      exact h
  | arrive text =>
    rw [Blocking.step]
    split_ifs with hclosed
    · exact h
    · exact ⟨h.lines, fun hup => absurd (h.hungUp hup).1 hclosed⟩
  | close => exact ⟨h.lines, fun hup => ⟨rfl, (h.hungUp hup).2⟩⟩
  | turn t =>
    rw [Blocking.step]
    cases hcall : s.call with
    | none => exact h
    | some call => exact h.turn hcall hok

/-- An action after which the lines are passed reads whole lines. -/
lemma Sound.whole_of_delivers (h : s.Sound) {a : BlockingAction} (hstep : (s.step a).Delivers) :
    s.Whole a := by
  cases a with
  | start _ => trivial
  | arrive _ => trivial
  | close => trivial
  | turn t =>
    intro hcall hup c rest hpending
    obtain ⟨call, hcall⟩ := Option.ne_none_iff_exists'.mp hcall
    obtain ⟨tail, hframed, hline⟩ := h.lines
    unfold Blocking.step Blocking.turn at hstep
    simp only [hcall, hup, Bool.false_eq_true, if_false, hpending] at hstep
    constructor
    · rintro rfl lines tail' hframed'
      rw [if_pos rfl] at hstep
      obtain ⟨tail'', hlines⟩ := hstep.lines
      have hend := (hframed.append (.line hframed.tail)).unique hlines
      have hself : tail = tail.filter (· ≠ nul) := by
        have hlast := List.append_cancel_left hend.1
        rw [List.singleton_inj] at hlast
        exact hlast.trans hline
      rw [← (hframed.unique hframed').2]
      intro hmem
      rw [hself] at hmem
      simpa using List.of_mem_filter hmem
    · intro hc hclosed hhup
      rw [if_neg hc, if_pos ⟨hclosed, hhup⟩] at hstep
      obtain ⟨tail', hall⟩ := hstep.hungUp rfl
      -- there are as many lines in all the bytes as in those that were read before
      have hcount := hframed.length_lines.symm.trans hall.length_lines
      simp only [hangUp, List.count_append] at hcount
      exact List.count_eq_zero.mp (by omega)

/-- A new connection. -/
lemma Sound.new : Sound {} :=
  ⟨⟨[], .of_notMem List.not_mem_nil, rfl⟩, by simp⟩

end Blocking

end EventDispatcher.Buffer
