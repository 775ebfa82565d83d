import EventDispatcher.Buffer.Read
import EventDispatcher.Communicator.Communicator

/-!
# The lines before a hang up

When `poll()` reports data and a hang up together, the communicator calls `process_read()` once
and then `process_hup()`, which closes the socket.  `process_read()` ends early when it has
processed enough lines, or took too long, and then the lines that are still in the socket are
lost (`linesDelivered_iff`).
-/

namespace EventDispatcher.Buffer

open Lib Communicator

/-- The default of `f_event_limit` -/
def defaultEventLimit : UInt8 := 5

/-- The default of `f_processing_time_limit`, in microseconds -/
def defaultProcessingTimeLimit : Int32 := 500000

/-- What a `read()` finds in the socket of a peer that closed its end. -/
structure Arrival where
  /-- The bytes it gets. -/
  chunk : Chunk
  /-- The date when its lines are processed. -/
  now : Int64

/-- The reading of an arrival, for a connection with the default limits. -/
def Arrival.reading (a : Arrival) : Reading := ⟨.data a.chunk, defaultEventLimit, a.now⟩

/-- The bytes of some arrivals. -/
def bytes (arrivals : List Arrival) : Str := (arrivals.map fun a => a.chunk.data).flatten

/-- A `tcp_server_client_buffer_connection` whose peer has closed its end. -/
structure ServerClient where
  /-- The input side, with the strings passed to `process_line()`. -/
  input : Input (List Str)
  /-- `get_socket()` -/
  socket : Socket
  /-- What can be read from the socket, before the end of the stream. -/
  arrivals : List Arrival
  /-- `get_current_date()`, when `process_read()` is called -/
  date : Int64
  /-- The residual line has no newline. -/
  split : '\n' ∉ input.line

namespace ServerClient

/-- The call of `process_read()`. -/
def readCall (e : ServerClient) : ReadCall :=
  ⟨e.socket, e.date, defaultProcessingTimeLimit, e.arrivals.map Arrival.reading⟩

/-- `tcp_server_client_buffer_connection::process_read()`; `process_line()` returns. -/
def processRead (e : ServerClient) : ServerClient where
  input := BufferClass.tcpServerClient.processRead record e.input e.readCall
  socket := e.socket
  arrivals := e.arrivals.drop
    (e.arrivals.length -
      (BufferClass.tcpServerClient.readCall record e.input e.readCall).unused.length)
  date := e.date
  split := by
    obtain ⟨lines, hreads⟩ := readCall_spec .tcpServerClient e.readCall e.split
      (thrown_readCall returns_record ..)
    exact hreads.feeds.framed.tail

/-- `tcp_server_client_connection::close()` -/
def close (e : ServerClient) : ServerClient := { e with socket := ⟨-1, le_rfl⟩ }

/-- The callbacks of the connection; what they do on the output side is left out.  The callbacks
for an error and an invalid socket are those of the base class, which remove the connection. -/
def callback : Callback → ℕ → Communicator ServerClient → Behaviour ServerClient
  | .read, _, s => ⟨[], s.outside.processRead, none⟩
  | .hup, c, s =>
    ⟨[.setEventSource c { (s.heap c).toEventSource with socket := -1, validSocket := false },
      .removeConnection c], s.outside.close, none⟩
  | .error, c, s | .invalid, c, s => ⟨[.removeConnection c], s.outside, none⟩
  | _, _, s => ⟨[], s.outside, none⟩

/-- The callbacks, with a clock and a `poll()`. -/
def host (clock : ServerClient → Int64 × ServerClient)
    (poll : List PollFd → Int32 → ServerClient → PollResult × ServerClient) : Host ServerClient :=
  ⟨clock, poll, callback⟩

end ServerClient

/-- The lines of what could be read are all passed to `process_line()` when the communicator
handles the events `revents`, before it calls `process_hup()`. -/
def LinesDelivered (H : Host ServerClient) (c : ℕ) (revents : UInt16)
    (s : Communicator ServerClient) : Prop :=
  ∀ lines tail, Framed '\n' (s.outside.input.line ++ bytes s.outside.arrivals) lines tail →
    ∃ call ∈ (processEvents H c revents { state := s }).calls, call.callback = .hup ∧
      call.state.outside.input.processed = s.outside.input.processed ++ lines

/-- After these arrivals a limit is reached: there were enough lines, with `countLines` before,
or the date is not before the limit. -/
def LimitReached (dateLimit : Int64) (countLines : ℕ) (arrivals : List Arrival) : Prop :=
  defaultEventLimit.toNat ≤ countLines + (bytes arrivals).count '\n' ∨
    ∃ a, arrivals.getLast? = some a ∧ dateLimit ≤ a.now

/-- Wherever a limit is reached, no newline is left to read. -/
def NothingLeft (e : ServerClient) : Prop :=
  ∀ before after, before ≠ [] → e.arrivals = before ++ after →
    LimitReached (e.date + defaultProcessingTimeLimit.toInt64) 0 before → '\n' ∉ bytes after

/-! ### The loop over the arrivals -/

lemma bytes_cons (a : Arrival) (l : List Arrival) : bytes (a :: l) = a.chunk.data ++ bytes l := by
  simp [bytes]

lemma bytes_append (l l' : List Arrival) : bytes (l ++ l') = bytes l ++ bytes l' := by
  simp [bytes]

/-- One arrival more at the start. -/
lemma limitReached_cons {dateLimit : Int64} {n : ℕ} {a : Arrival} {l : List Arrival} (hl : l ≠ []) :
    LimitReached dateLimit n (a :: l) ↔
      LimitReached dateLimit (n + a.chunk.data.count '\n') l := by
  rw [LimitReached, LimitReached, bytes_cons, List.count_append, Nat.add_assoc,
    List.getLast?_cons_of_ne_nil hl]

/-- The loop reads the arrivals `before`: it stops where a limit is first reached, if one is. -/
structure StopsAfter (dateLimit : Int64) (countLines : ℕ) (before after : List Arrival) :
    Prop where
  /-- It stops early at a limit only. -/
  reached : after ≠ [] → before ≠ [] ∧ LimitReached dateLimit countLines before
  /-- No limit is reached before. -/
  first : ∀ b b', b ≠ [] → b' ≠ [] → before = b ++ b' → ¬ LimitReached dateLimit countLines b

lemma limitReached_singleton {dateLimit : Int64} {n : ℕ} {a : Arrival} :
    LimitReached dateLimit n [a] ↔
      defaultEventLimit.toNat ≤ n + a.chunk.data.count '\n' ∨ dateLimit ≤ a.now := by
  simp [LimitReached, bytes]

/-- The first arrival reaches a limit. -/
lemma StopsAfter.single {dateLimit : Int64} {n : ℕ} {a : Arrival}
    (ha : LimitReached dateLimit n [a]) (after : List Arrival) :
    StopsAfter dateLimit n [a] after := by
  refine ⟨fun _ => ⟨List.cons_ne_nil _ _, ha⟩, fun b b' hb hb' heq => ?_⟩
  rcases List.append_eq_singleton_iff.mp heq.symm with ⟨h, -⟩ | ⟨-, h⟩
  · exact absurd h hb
  · exact absurd h hb'

/-- The first arrival does not reach a limit. -/
lemma StopsAfter.cons {dateLimit : Int64} {n : ℕ} {a : Arrival} {before after : List Arrival}
    (ha : ¬ LimitReached dateLimit n [a])
    (h : StopsAfter dateLimit (n + a.chunk.data.count '\n') before after) :
    StopsAfter dateLimit n (a :: before) after := by
  refine ⟨fun hafter => ?_, fun b b' hb hb' heq => ?_⟩
  · obtain ⟨hne, hreached⟩ := h.reached hafter
    exact ⟨List.cons_ne_nil _ _, (limitReached_cons hne).mpr hreached⟩
  · obtain ⟨d, b, rfl⟩ := List.exists_cons_of_ne_nil hb
    rw [List.cons_append, List.cons.injEq] at heq
    obtain ⟨rfl, heq⟩ := heq
    by_cases hnil : b = []
    · rwa [hnil]
    · rw [limitReached_cons hnil]
      exact h.first b b' hnil hb' heq

lemma bytesOf_map_reading (arrivals : List Arrival) :
    bytesOf (arrivals.map Arrival.reading) = bytes arrivals :=
  congrArg List.flatten (List.map_map ..)

/-- The readings that the loop uses are those of the first arrivals. -/
lemma usedReadings_arrivals (dateLimit : Int64) (countLines : ℕ) (arrivals : List Arrival) :
    ∃ before after, arrivals = before ++ after ∧
      usedReadings dateLimit countLines (arrivals.map Arrival.reading) =
        before.map Arrival.reading ∧
      StopsAfter dateLimit countLines before after := by
  induction arrivals generalizing countLines with
  | nil =>
    refine ⟨[], [], rfl, rfl, fun h => absurd rfl h, fun b b' hb _ heq => ?_⟩
    exact absurd (List.append_eq_nil_iff.mp heq.symm).1 hb
  | cons a l ih =>
    have hends : a.reading.ends dateLimit countLines = true ↔
        LimitReached dateLimit countLines [a] := by
      rw [limitReached_singleton]
      exact (Bool.or_eq_true_iff ..).trans (or_congr decide_eq_true_iff decide_eq_true_iff)
    rw [List.map_cons, usedReadings]
    by_cases hlimit : LimitReached dateLimit countLines [a]
    · rw [if_pos (hends.mpr hlimit)]
      exact ⟨[a], l, rfl, rfl, .single hlimit l⟩
    · rw [if_neg fun h => hlimit (hends.mp h)]
      obtain ⟨before, after, rfl, hused, hstops⟩ := ih (countLines + a.chunk.data.count '\n')
      exact ⟨a :: before, after, rfl, congrArg (a.reading :: ·) hused, hstops.cons hlimit⟩

/-! ### The turn of the connection -/

section Turn

variable {clock : ServerClient → Int64 × ServerClient}
  {poll : List PollFd → Int32 → ServerClient → PollResult × ServerClient}

/-- No exception is on its way, the input is `i`, and it was when `process_hup()` was called. -/
structure AtHangUp (i : Input (List Str)) (p : Progress ServerClient) : Prop where
  /-- No exception. -/
  thrown : p.thrown = none
  /-- The input. -/
  input : p.state.outside.input = i
  /-- The input at the calls. -/
  calls : ∀ call ∈ p.calls, call.callback = .hup → call.state.outside.input = i

variable (clock poll) in
/-- The callbacks other than `process_read()` leave the input alone. -/
lemma AtHangUp.call {i : Input (List Str)} {p : Progress ServerClient} (h : AtHangUp i p) (c : ℕ)
    (callback : Callback) (hne : callback ≠ .read) :
    AtHangUp i (p.call (ServerClient.host clock poll) c callback) ∧
      ∃ call ∈ (p.call (ServerClient.host clock poll) c callback).calls,
        call.callback = callback := by
  rw [Progress.call]
  rw [h.thrown]
  refine ⟨⟨?_, ?_, ?_⟩, ⟨c, callback, p.state⟩, by simp, rfl⟩
  · cases callback <;> rfl
  · have hinput := h.input
    cases callback <;> first | exact absurd rfl hne | exact hinput
  · intro call hcall hhup
    rcases List.mem_append.mp hcall with hcall | hcall
    · exact h.calls call hcall hhup
    · rw [List.mem_singleton.mp hcall]
      exact h.input

variable (clock poll) in
/-- A callback under a condition. -/
lemma AtHangUp.callIf {i : Input (List Str)} {p : Progress ServerClient} (h : AtHangUp i p) (c : ℕ)
    (callback : Callback) (hne : callback ≠ .read) (b : Prop) [Decidable b] :
    AtHangUp i (if b then p.call (ServerClient.host clock poll) c callback else p) ∧
      (∀ call ∈ p.calls, call ∈
        (if b then p.call (ServerClient.host clock poll) c callback else p).calls) := by
  split_ifs
  · refine ⟨(h.call clock poll c callback hne).1, fun call hcall => ?_⟩
    rw [Progress.call]
    rw [h.thrown]
    exact List.mem_append_left _ hcall
  · exact ⟨h, fun call hcall => hcall⟩

variable (clock poll) in
/-- The events of the connection: the input is read once, before `process_hup()` is called. -/
lemma exists_hangUp (s : Communicator ServerClient) (c : ℕ) {revents : UInt16}
    (hin : revents &&& (pollIn ||| pollPri) ≠ 0) (hhup : revents &&& (pollHup ||| pollRdHup) ≠ 0)
    (hsignal : (s.heap c).signal = false) (hlistener : (s.heap c).listener = false) :
    AtHangUp s.outside.processRead.input
        (processEvents (ServerClient.host clock poll) c revents { state := s }) ∧
      ∃ call ∈ (processEvents (ServerClient.host clock poll) c revents { state := s }).calls,
        call.callback = .hup := by
  have hne : revents ≠ 0 := by
    rintro rfl
    simp at hin
  rw [processEvents]
  rw [if_pos hne, if_pos hin]
  -- the input is read first; the callbacks that follow leave it alone
  have hread : AtHangUp s.outside.processRead.input
      (processInput (ServerClient.host clock poll) c { state := s }) := by
    simp only [processInput, hsignal, hlistener, if_false, Bool.false_eq_true]
    exact ⟨rfl, rfl, fun call hcall hhup => by
      rw [List.mem_singleton.mp hcall] at hhup
      cases hhup⟩
  dsimp only
  have hwrite := (hread.callIf clock poll c .write (by decide)
    (revents &&& pollOut ≠ 0)).1
  have herror := (hwrite.callIf clock poll c .error (by decide)
    (revents &&& pollErr ≠ 0)).1
  rw [if_pos hhup]
  obtain ⟨hup, call, hcall, hcallback⟩ := herror.call clock poll c .hup (by decide)
  obtain ⟨hinvalid, hsub⟩ := hup.callIf clock poll c .invalid
    (by decide) (revents &&& pollNval ≠ 0)
  exact ⟨hinvalid, call, hsub call hcall, hcallback⟩

end Turn

/-- Nothing is left behind the arrivals that the loop reads exactly when nothing is left where a
limit is reached. -/
lemma nothingLeft_iff {e : ServerClient} {before after : List Arrival}
    (harrivals : e.arrivals = before ++ after)
    (hstops : StopsAfter (e.date + defaultProcessingTimeLimit.toInt64) 0 before after) :
    NothingLeft e ↔ '\n' ∉ bytes after := by
  constructor
  · intro h
    by_cases hafter : after = []
    · simp [hafter, bytes]
    · obtain ⟨hne, hreached⟩ := hstops.reached hafter
      exact h before after hne harrivals hreached
  · intro h b a hb heq hreached
    rw [harrivals] at heq
    rcases List.append_eq_append_iff.mp heq with ⟨x, rfl, rfl⟩ | ⟨x, rfl, rfl⟩
    · rw [bytes_append, List.mem_append, not_or] at h
      exact h.2
    · by_cases hx : x = []
      · subst hx
        simpa using h
      · exact absurd hreached (hstops.first b x hb hx rfl)

section HangUp

variable (clock : ServerClient → Int64 × ServerClient)
  (poll : List PollFd → Int32 → ServerClient → PollResult × ServerClient)

/-- The lines are delivered exactly when no newline is left behind what the loop reads. -/
lemma linesDelivered_iff_notMem (s : Communicator ServerClient) (c : ℕ) (revents : UInt16)
    (hin : revents &&& (pollIn ||| pollPri) ≠ 0) (hhup : revents &&& (pollHup ||| pollRdHup) ≠ 0)
    (hsignal : (s.heap c).signal = false) (hlistener : (s.heap c).listener = false)
    (hsocket : 0 ≤ s.outside.socket.1) :
    ∃ before after, s.outside.arrivals = before ++ after ∧
      StopsAfter (s.outside.date + defaultProcessingTimeLimit.toInt64) 0 before after ∧
      (LinesDelivered (ServerClient.host clock poll) c revents s ↔ '\n' ∉ bytes after) := by
  obtain ⟨hup, call, hcall, hcallback⟩ :=
    exists_hangUp clock poll s c hin hhup hsignal hlistener
  obtain ⟨lines, hreads⟩ := readCall_spec .tcpServerClient s.outside.readCall s.outside.split
    (thrown_readCall returns_record ..)
  obtain ⟨before, after, harrivals, hused, hstops⟩ := usedReadings_arrivals
    (s.outside.date + defaultProcessingTimeLimit.toInt64) 0 s.outside.arrivals
  have hbytes : bytesOf s.outside.readCall.used = bytes before := by
    have hcall : s.outside.readCall.used = before.map Arrival.reading :=
      (if_pos hsocket).trans hused
    rw [hcall, bytesOf_map_reading]
  have hframed : Framed '\n' (s.outside.input.line ++ bytes before) lines
      s.outside.processRead.input.line := hbytes ▸ hreads.feeds.framed
  have hprocessed : s.outside.processRead.input.processed =
      s.outside.input.processed ++ lines := hreads.feeds.object.trans (callAll_record _ _)
  refine ⟨before, after, harrivals, hstops, ?_⟩
  -- `more` are the lines that a peer sent and that the loop does not reach
  obtain ⟨more, tail, hmore⟩ := exists_framed '\n'
    (s.outside.processRead.input.line ++ bytes after)
  have hall : Framed '\n' (s.outside.input.line ++ bytes s.outside.arrivals) (lines ++ more)
        tail := by
    rw [harrivals, bytes_append, ← List.append_assoc]
    exact hframed.append hmore
  have hnewline : more = [] ↔ '\n' ∉ bytes after := by
    rw [← List.length_eq_zero_iff, hmore.length_lines, List.count_append,
      List.count_eq_zero_of_not_mem hframed.tail, Nat.zero_add, List.count_eq_zero]
  rw [← hnewline]
  constructor
  · intro h
    obtain ⟨call', hcall', hcallback', heq⟩ := h (lines ++ more) tail hall
    rw [hup.calls call' hcall' hcallback', hprocessed, ← List.append_assoc] at heq
    exact List.self_eq_append_right.mp heq
  · rintro rfl lines' tail' hframed'
    obtain ⟨rfl, -⟩ := hall.unique hframed'
    refine ⟨call, hcall, hcallback, ?_⟩
    rw [hup.calls call hcall hcallback, hprocessed, List.append_nil]

/-- **The lines before a hang up.**  When data and a hang up are reported together, all the lines
that could be read are passed to `process_line()` exactly when no newline is left to read where
`process_read()` reaches one of its limits. -/
theorem linesDelivered_iff (s : Communicator ServerClient) (c : ℕ) (revents : UInt16)
    (hin : revents &&& (pollIn ||| pollPri) ≠ 0) (hhup : revents &&& (pollHup ||| pollRdHup) ≠ 0)
    (hsignal : (s.heap c).signal = false) (hlistener : (s.heap c).listener = false)
    (hsocket : 0 ≤ s.outside.socket.1) :
    LinesDelivered (ServerClient.host clock poll) c revents s ↔ NothingLeft s.outside := by
  obtain ⟨before, after, harrivals, hstops, hiff⟩ :=
    linesDelivered_iff_notMem clock poll s c revents hin hhup hsignal hlistener hsocket
  rw [hiff, nothingLeft_iff harrivals hstops]

end HangUp

/-- A communicator with one connection, which can read `arrivals` before a hang up. -/
def hangingUp (arrivals : List Arrival) : Communicator ServerClient where
  heap _ := { reader := true, socket := 4 }
  connections := ConnectionList.push ⟨[], List.nodup_nil⟩ 0
  forceSort := false
  outside :=
    { input := { object := [] }
      socket := ⟨4, by decide⟩
      arrivals := arrivals
      date := 0
      split := List.not_mem_nil }

/-- Some newlines that are read at once. -/
def newlines (n : ℕ) (hpos : 0 < n) (hle : n ≤ 1024) : Chunk where
  data := List.replicate n '\n'
  nonempty h := hpos.ne' (by simpa using congrArg List.length h)
  length_le := (List.length_replicate ..).trans_le hle

lemma count_newlines (n : ℕ) (hpos : 0 < n) (hle : n ≤ 1024) :
    (newlines n hpos hle).data.count '\n' = n :=
  List.count_replicate_self ..

/-- A full buffer of newlines, and one newline more. -/
def manyLines : List Arrival :=
  [⟨newlines 1024 (by decide) le_rfl, 0⟩, ⟨newlines 1 (by decide) (by decide), 0⟩]

/-- A host with a clock that stands still. -/
def quietHost : Host ServerClient :=
  ServerClient.host (fun e => (e.date, e)) fun _ _ e => (.ready fun _ => 0, e)

theorem linesDelivered_iff_manyLines :
    LinesDelivered quietHost 0 (pollIn ||| pollHup) (hangingUp manyLines) ↔
      NothingLeft (hangingUp manyLines).outside :=
  linesDelivered_iff _ _ _ _ _ (by decide) (by decide) rfl rfl (by decide)

/-- The last of many lines is lost. -/
theorem not_linesDelivered_manyLines :
    ¬ LinesDelivered quietHost 0 (pollIn ||| pollHup) (hangingUp manyLines) := by
  obtain ⟨before, after, harrivals, hstops, hiff⟩ := linesDelivered_iff_notMem
    (fun e => (e.date, e)) (fun _ _ e => (.ready fun _ => 0, e)) (hangingUp manyLines) 0
    (pollIn ||| pollHup) (by decide) (by decide) rfl rfl (by decide)
  intro h
  refine (nothingLeft_iff harrivals hstops).mpr (hiff.mp h) [_] [_] (List.cons_ne_nil _ _) rfl
    (.inl ?_) (by simp [bytes, newlines])
  rw [Nat.zero_add, bytes_cons, List.count_append, count_newlines]
  exact (by decide : 5 ≤ 1024).trans (Nat.le_add_right ..)

end EventDispatcher.Buffer
