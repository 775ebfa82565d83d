import EventDispatcher.Base
import EventDispatcher.Lib.Lines
import EventDispatcher.Lib.Run
import Mathlib.Data.UInt

/-!
# Reading lines from a connection

The six buffered connections have one loop to read: it takes what `read()` gives in chunks,
passes each line to `process_line()` and keeps the rest in `f_line`.  Whatever the chunks, the
limits and the calls are, `process_line()` is called for the lines of the bytes that were read, and
the rest is kept (`framed_runFrom`): the bytes of each call are those of its readings up to the
first one that ends the loop (`usedReadings`).
-/

namespace EventDispatcher.Buffer

open Lib

/-- A socket: the number of a file, or -1. -/
abbrev Socket := { n : ℤ // -1 ≤ n }

/-- The bytes of one successful `read()` into the buffer of 1024 bytes. -/
structure Chunk where
  /-- The bytes. -/
  data : Str
  /-- There is at least one. -/
  nonempty : data ≠ []
  /-- They fit in the buffer. -/
  length_le : data.length ≤ 1024

/-- What `read()` returns. -/
inductive ReadResult where
  /-- Some bytes. -/
  | data (chunk : Chunk)
  /-- Zero. -/
  | zero
  /-- -1, with `errno`. -/
  | failed (errno : ℕ)

/-- `EAGAIN`, which is also `EWOULDBLOCK` -/
def eagain : ℕ := 11

/-- What the loop sees of the world from one `read()` to the next. -/
structure Reading where
  /-- The result of `read()`. -/
  result : ReadResult
  /-- `get_event_limit()`, when the lines of the chunk are processed -/
  eventLimit : UInt8
  /-- `get_current_date()`, then -/
  now : Int64

/-- The bytes that `read()` gives. -/
def ReadResult.bytes : ReadResult → Str
  | data chunk => chunk.data
  | zero | failed _ => []

/-- The bytes of some readings. -/
def bytesOf (readings : List Reading) : Str :=
  (readings.map fun reading => reading.result.bytes).flatten

/-- The level of a log message. -/
inductive Severity where
  | debug
  | warning
  | error
deriving DecidableEq, Repr

/-- `process_line()` of a derived class: what it leaves, and whether it returns; an exception leaves
it when it does not. -/
abbrev ProcessLine (σ : Type) := Str → σ → σ × Bool

/-- The input side of a buffered connection. -/
structure Input (σ : Type) where
  /-- `f_line` -/
  line : Str := []
  /-- What the derived class keeps. -/
  object : σ
  /-- The calls of `process_error()`, each with the level of its message. -/
  errors : List Severity := []
deriving DecidableEq

section Loop

variable {σ : Type} (processLine : ProcessLine σ)

/-- The inner loop: the first `r` bytes of the buffer, from `position` on.  The result is the
number of lines, or nothing when an exception leaves `process_line()`, and the input. -/
def splitLines (buffer : Str) (r position countLines : ℕ) (s : Input σ) : Option ℕ × Input σ :=
  if position < r then
    let it := position + ((buffer.take r).drop position).findIdx (· = '\n')
    if it = r then
      -- no newline, just add the whole thing
      (some countLines, { s with line := s.line ++ (buffer.drop position).take (r - position) })
    else
      let line := s.line ++ (buffer.drop position).take (it - position)
      let processed := processLine line s.object
      if processed.2 then
        splitLines buffer r (it + 1) (countLines + 1)
          { s with line := [], object := processed.1 }
      -- the line is not cleared, and what follows it in the buffer is lost
      else (none, { s with line, object := processed.1 })
  else (some countLines, s)
termination_by r - position

/-- What `process_read()` leaves. -/
structure ReadRun (σ : Type) where
  /-- The input. -/
  input : Input σ
  /-- The readings that were not used. -/
  unused : List Reading
  /-- An exception leaves it. -/
  thrown : Bool := false

/-- The outer loop; when the readings are used up no more data is available.  The bytes of a
chunk replace those of the one before it, from the start of the buffer. -/
def readLoop (severity : Severity) (dateLimit : Int64) :
    ℕ → Str → List Reading → Input σ → ReadRun σ
  | _, _, [], s => { input := s, unused := [] }
  | countLines, buffer, reading :: readings, s =>
    match reading.result with
    | .data chunk =>
      let buffer := chunk.data ++ buffer.drop chunk.data.length
      match splitLines processLine buffer chunk.data.length 0 countLines s with
      | (none, s) => { input := s, unused := readings, thrown := true }
      | (some countLines, s) =>
        if reading.eventLimit.toNat ≤ countLines ∨ dateLimit ≤ reading.now then
          { input := s, unused := readings }
        else readLoop severity dateLimit countLines buffer readings s
    | .zero => { input := s, unused := readings }
    | .failed errno =>
      if errno = 0 ∨ errno = eagain then { input := s, unused := readings }
      else { input := { s with errors := s.errors ++ [severity] }, unused := readings }

end Loop

/-- The classes of buffered connections. -/
inductive BufferClass where
  /-- `tcp_client_buffer_connection` -/
  | tcpClient
  /-- `tcp_server_client_buffer_connection` -/
  | tcpServerClient
  /-- `local_stream_client_buffer_connection` -/
  | localStreamClient
  /-- `local_stream_server_client_buffer_connection` -/
  | localStreamServerClient
  /-- `pipe_buffer_connection` -/
  | pipe
  /-- `fd_buffer_connection` -/
  | fd
deriving DecidableEq, Repr

namespace BufferClass

/-- The check of the socket: `valid_socket()`, or a comparison with -1. -/
def validSocket : BufferClass → Socket → Bool
  | tcpClient, s | tcpServerClient, s | fd, s => 0 ≤ s.1
  | localStreamClient, s | localStreamServerClient, s | pipe, s => s.1 ≠ -1

/-- The level of the message about an error of `read()`. -/
def severity : BufferClass → Severity
  | tcpClient | localStreamClient => .error
  | tcpServerClient | localStreamServerClient | fd => .warning
  | pipe => .debug

/-- All the classes accept the same sockets. -/
lemma validSocket_eq (k k' : BufferClass) (s : Socket) : k.validSocket s = k'.validSocket s := by
  have h : ∀ k : BufferClass, k.validSocket s = decide (0 ≤ s.1) := by
    have hs := s.2
    intro k
    cases k <;> simp only [validSocket, decide_eq_decide] <;> omega
  rw [h, h]

end BufferClass

/-- A call of `process_read()`. -/
structure ReadCall where
  /-- `get_socket()` -/
  socket : Socket
  /-- `get_current_date()` -/
  date : Int64
  /-- `get_processing_time_limit()` -/
  processingTimeLimit : Int32
  /-- What happens at each `read()`. -/
  readings : List Reading

/-- `process_read()` of a class; the next level does nothing. -/
def BufferClass.readCall {σ : Type} (k : BufferClass) (processLine : ProcessLine σ) (s : Input σ)
    (call : ReadCall) : ReadRun σ :=
  if k.validSocket call.socket then
    readLoop processLine k.severity (call.date + call.processingTimeLimit.toInt64) 0
      (List.replicate 1024 nul) call.readings s
  else { input := s, unused := call.readings }

/-- The input after a call of `process_read()`. -/
def BufferClass.processRead {σ : Type} (k : BufferClass) (processLine : ProcessLine σ)
    (s : Input σ) (call : ReadCall) : Input σ :=
  (k.readCall processLine s call).input

/-! ### The readings of a call -/

/-- The loop ends with this reading, when there were `countLines` lines before. -/
def Reading.ends (dateLimit : Int64) (countLines : ℕ) (reading : Reading) : Bool :=
  match reading.result with
  | .data chunk =>
    reading.eventLimit.toNat ≤ countLines + chunk.data.count '\n' || dateLimit ≤ reading.now
  | .zero | .failed _ => true

/-- The readings up to the first one that ends the loop. -/
def usedReadings (dateLimit : Int64) : ℕ → List Reading → List Reading
  | _, [] => []
  | countLines, reading :: readings =>
    reading :: if reading.ends dateLimit countLines then []
      else usedReadings dateLimit (countLines + reading.result.bytes.count '\n') readings

/-- The readings that a call uses when `process_line()` returns. -/
def ReadCall.used (call : ReadCall) : List Reading :=
  if 0 ≤ call.socket.1 then
    usedReadings (call.date + call.processingTimeLimit.toInt64) 0 call.readings
  else []

/-- The bytes that are read by some calls. -/
def bytesRead (calls : List ReadCall) : Str :=
  (calls.map fun call => bytesOf call.used).flatten

/-! ### The loops find the lines -/

section Loops

variable {σ : Type} {processLine : ProcessLine σ}

/-- `process_line()` is called for some lines, one after the other. -/
def callAll (processLine : ProcessLine σ) (lines : List Str) (object : σ) : σ :=
  lines.foldl (fun object line => (processLine line object).1) object

lemma callAll_append (lines lines' : List Str) (object : σ) :
    callAll processLine (lines ++ lines') object =
      callAll processLine lines' (callAll processLine lines object) := List.foldl_append

/-- What a stretch of text does to the input: `process_line()` is called for its lines, after the
residual line, and what follows the last newline stays. -/
structure Feeds (processLine : ProcessLine σ) (s s' : Input σ) (text : Str) (lines : List Str) :
    Prop where
  /-- The lines of the text. -/
  framed : Framed '\n' (s.line ++ text) lines s'.line
  /-- The calls of `process_line()`. -/
  object : s'.object = callAll processLine lines s.object

lemma Feeds.nil {s : Input σ} (h : '\n' ∉ s.line) : Feeds processLine s s [] [] :=
  ⟨by simpa using Framed.of_notMem h, rfl⟩

/-- A line in front of a text. -/
lemma Feeds.line {s s' : Input σ} {text l : Str} {lines : List Str} (hs : '\n' ∉ s.line)
    (hl : '\n' ∉ l)
    (h : Feeds processLine
      { s with line := [], object := (processLine (s.line ++ l) s.object).1 } s' text lines) :
    Feeds processLine s s' (l ++ '\n' :: text) ((s.line ++ l) :: lines) := by
  have hline : '\n' ∉ s.line ++ l := by
    rw [List.mem_append, not_or]
    exact ⟨hs, hl⟩
  refine ⟨?_, h.object⟩
  have := Framed.cons hline (by simpa using h.framed)
  simpa using this

/-- One text after the other. -/
lemma Feeds.trans {s s₁ s' : Input σ} {text text' : Str} {lines lines' : List Str}
    (h : Feeds processLine s s₁ text lines) (h' : Feeds processLine s₁ s' text' lines') :
    Feeds processLine s s' (text ++ text') (lines ++ lines') := by
  refine ⟨?_, ?_⟩
  · rw [← List.append_assoc]
    exact h.framed.append h'.framed
  · rw [callAll_append, ← h.object, h'.object]

end Loops

/-- A text up to its first newline, and after it. -/
lemma eq_take_findIdx_append {u : Str} (h : u.findIdx (· = '\n') < u.length) :
    '\n' ∉ u.take (u.findIdx (· = '\n')) ∧
      u = u.take (u.findIdx (· = '\n')) ++ '\n' :: u.drop (u.findIdx (· = '\n') + 1) := by
  constructor
  · intro hmem
    obtain ⟨i, hi, heq⟩ := List.mem_iff_getElem.mp hmem
    rw [List.length_take] at hi
    have hlt : i < u.findIdx (· = '\n') := by omega
    have hne := List.not_of_lt_findIdx hlt
    rw [List.getElem_take] at heq
    simp [heq] at hne
  · have hget : u[u.findIdx (· = '\n')] = '\n' := by
      simpa using List.findIdx_getElem (p := (· = '\n')) (w := h)
    conv_lhs => rw [← List.take_append_drop (u.findIdx (· = '\n')) u, List.drop_eq_getElem_cons h]
    rw [hget]

/-- The part of the chunk that is left ends with the chunk. -/
lemma length_left {buffer : Str} {r : ℕ} (hr : r ≤ buffer.length) (position : ℕ) :
    ((buffer.take r).drop position).length = r - position := by
  rw [List.length_drop, List.length_take_of_le hr]

/-- The part of the chunk that is left, cut at a place in it. -/
lemma cut_left (buffer : Str) {r position k : ℕ} (hk : k ≤ r - position) :
    ((buffer.take r).drop position).take k = (buffer.drop position).take k ∧
      ((buffer.take r).drop position).drop (k + 1) = (buffer.take r).drop (position + k + 1) := by
  refine ⟨?_, ?_⟩
  · rw [List.drop_take, List.take_take, Nat.min_eq_left hk]
  · rw [List.drop_drop, Nat.add_assoc]

section Loops

variable {σ : Type} {processLine : ProcessLine σ}

/-- The inner loop calls `process_line()` for the lines of the part of the chunk that is left. -/
lemma splitLines_spec {buffer : Str} {r : ℕ} (position countLines : ℕ) {s : Input σ}
    (hr : r ≤ buffer.length) (hline : '\n' ∉ s.line) (hposition : position ≤ r) {n : ℕ}
    (h : (splitLines processLine buffer r position countLines s).1 = some n) :
    ∃ lines, Feeds processLine s (splitLines processLine buffer r position countLines s).2
        ((buffer.take r).drop position) lines ∧ n = countLines + lines.length := by
  have hlength := length_left hr
  fun_induction splitLines processLine buffer r position countLines s with
  | case1 position countLines s hlt it hit =>
    -- no newline is left in the chunk, and the rest of it stays
    have hnone : '\n' ∉ (buffer.take r).drop position := by
      intro hmem
      have hfind : ((buffer.take r).drop position).findIdx (· = '\n') =
          ((buffer.take r).drop position).length := by
        rw [hlength]
        omega
      have := List.findIdx_eq_length.mp hfind '\n' hmem
      simp at this
    rw [← List.drop_take]
    refine ⟨[], ⟨.of_notMem ?_, rfl⟩, (Option.some.inj h).symm⟩
    rw [List.mem_append, not_or]
    exact ⟨hline, hnone⟩
  | case2 position countLines s hlt it hit line processed hreturns ih =>
    -- a line ends at `it`, which was searched in the chunk from the position on
    obtain ⟨k, hk⟩ : ∃ k, k = ((buffer.take r).drop position).findIdx (· = '\n') := ⟨_, rfl⟩
    have hit' : it = position + k := by omega
    have hle : k ≤ r - position := by
      rw [hk, ← hlength]
      exact List.findIdx_le_length
    obtain ⟨hnone, htext⟩ := eq_take_findIdx_append (u := (buffer.take r).drop position)
      (by rw [hlength]; omega)
    obtain ⟨hfirst, hrest⟩ := cut_left buffer hle
    obtain ⟨lines, hfeeds, hcount⟩ := ih List.not_mem_nil (by omega) h
    rw [← hk, hfirst] at hnone
    rw [← hk, hfirst, hrest] at htext
    have hsub : it - position = k := by omega
    rw [htext, ← hit', ← hsub]
    refine ⟨_, hfeeds.line hline (hsub ▸ hnone), ?_⟩
    rw [hcount, List.length_cons]
    omega
  | case3 => cases h
  | case4 position countLines s hlt =>
    obtain rfl : position = r := by omega
    exact ⟨[], by simpa using Feeds.nil hline, (Option.some.inj h).symm⟩

/-- The inner loop ends when `process_line()` returns. -/
lemma exists_splitLines (hreturns : ∀ line object, (processLine line object).2 = true)
    (buffer : Str) (r position countLines : ℕ) (s : Input σ) :
    ∃ n, (splitLines processLine buffer r position countLines s).1 = some n := by
  fun_induction splitLines processLine buffer r position countLines s with
  | case1 => exact ⟨_, rfl⟩
  | case2 position countLines s hlt it hit line processed hreturns ih => exact ih
  | case3 position countLines s hlt it hit line processed hthrows =>
    exact absurd (hreturns line s.object) hthrows
  | case4 => exact ⟨_, rfl⟩

/-- A chunk, from the start of the buffer. -/
lemma splitLines_chunk (chunk : Chunk) (buffer : Str) (countLines : ℕ) {s : Input σ}
    (hline : '\n' ∉ s.line) {n : ℕ}
    (h : (splitLines processLine (chunk.data ++ buffer) chunk.data.length 0 countLines s).1 =
      some n) :
    ∃ lines, Feeds processLine s
        (splitLines processLine (chunk.data ++ buffer) chunk.data.length 0 countLines s).2
        chunk.data lines ∧ n = countLines + chunk.data.count '\n' := by
  have hr : chunk.data.length ≤ (chunk.data ++ buffer).length := by simp
  obtain ⟨lines, hfeeds, hcount⟩ := splitLines_spec 0 countLines hr hline (Nat.zero_le _) h
  rw [List.take_left, List.drop_zero] at hfeeds
  -- the residual line has no newline, so the lines are as many as the newlines of the chunk
  have hlength := hfeeds.framed.length_lines
  rw [List.count_append, List.count_eq_zero_of_not_mem hline, Nat.zero_add] at hlength
  exact ⟨lines, hfeeds, hlength ▸ hcount⟩

/-- What the outer loop does with its readings: it uses them up to the first one that ends it, and
`process_line()` is called for the lines of their bytes. -/
structure Reads (processLine : ProcessLine σ) (s : Input σ) (readings used : List Reading)
    (r : ReadRun σ) (lines : List Str) : Prop where
  /-- The readings that are used come first. -/
  readings : readings = used ++ r.unused
  /-- The lines of their bytes. -/
  feeds : Feeds processLine s r.input (bytesOf used) lines

lemma bytesOf_cons (reading : Reading) (readings : List Reading) :
    bytesOf (reading :: readings) = reading.result.bytes ++ bytesOf readings := rfl

/-- A reading without bytes ends the loop. -/
lemma Reads.last {s : Input σ} (hline : '\n' ∉ s.line) {reading : Reading}
    (hbytes : reading.result.bytes = []) (readings : List Reading) (errors : List Severity) :
    Reads processLine s (reading :: readings) [reading]
      { input := { s with errors }, unused := readings } [] := by
  refine ⟨rfl, ?_, rfl⟩
  rw [bytesOf_cons, hbytes]
  simpa [bytesOf] using Framed.of_notMem hline

/-- **What the outer loop does** when no exception leaves `process_line()`. -/
lemma readLoop_spec (severity : Severity) (dateLimit : Int64) (countLines : ℕ) (buffer : Str)
    (readings : List Reading) {s : Input σ} (hline : '\n' ∉ s.line)
    (h : (readLoop processLine severity dateLimit countLines buffer readings s).thrown = false) :
    ∃ lines, Reads processLine s readings (usedReadings dateLimit countLines readings)
      (readLoop processLine severity dateLimit countLines buffer readings s) lines := by
  induction readings generalizing countLines buffer s with
  | nil => exact ⟨[], rfl, Feeds.nil hline⟩
  | cons reading readings ih =>
    rw [readLoop] at h ⊢
    rw [usedReadings, Reading.ends]
    cases hresult : reading.result with
    | zero =>
      have hbytes : reading.result.bytes = [] := congrArg ReadResult.bytes hresult
      exact ⟨[], .last hline hbytes readings s.errors⟩
    | failed errno =>
      have hbytes : reading.result.bytes = [] := congrArg ReadResult.bytes hresult
      dsimp only
      rw [if_pos rfl]
      split_ifs
      · exact ⟨[], .last hline hbytes readings s.errors⟩
      · exact ⟨[], .last hline hbytes readings _⟩
    | data chunk =>
      have hbytes : reading.result.bytes = chunk.data := congrArg ReadResult.bytes hresult
      simp only [hresult] at h
      dsimp only
      cases hsplit : splitLines processLine (chunk.data ++ buffer.drop chunk.data.length)
        chunk.data.length 0 countLines s with
      | mk count s' =>
        rw [hsplit] at h
        cases count with
        | none => cases h
        | some n =>
          have hcount := congrArg Prod.fst hsplit
          obtain ⟨lines, hfeeds, rfl⟩ := splitLines_chunk chunk _ countLines hline hcount
          rw [hsplit] at hfeeds
          dsimp only at h ⊢
          by_cases hends : reading.eventLimit.toNat ≤ countLines + chunk.data.count '\n' ∨
              dateLimit ≤ reading.now
          · simp only [hends, if_true, Bool.or_eq_true, decide_eq_true_eq]
            refine ⟨lines, rfl, ?_⟩
            rw [bytesOf_cons, hbytes]
            exact (List.append_nil chunk.data).symm ▸ hfeeds
          · simp only [hends, if_false, Bool.or_eq_true, decide_eq_true_eq] at h ⊢
            obtain ⟨lines', hrest⟩ := ih _ _ hfeeds.framed.tail h
            refine ⟨lines ++ lines', ?_, ?_⟩
            · exact congrArg (reading :: ·) hrest.readings
            · rw [bytesOf_cons, hbytes]
              exact hfeeds.trans hrest.feeds

/-- No exception leaves the loop when `process_line()` returns. -/
lemma thrown_readLoop (hreturns : ∀ line object, (processLine line object).2 = true)
    (severity : Severity) (dateLimit : Int64) (countLines : ℕ) (buffer : Str)
    (readings : List Reading) (s : Input σ) :
    (readLoop processLine severity dateLimit countLines buffer readings s).thrown = false := by
  induction readings generalizing countLines buffer s with
  | nil => rfl
  | cons reading readings ih =>
    rw [readLoop]
    cases reading.result with
    | zero => rfl
    | failed errno =>
      dsimp only
      split_ifs <;> rfl
    | data chunk =>
      obtain ⟨n, hn⟩ := exists_splitLines hreturns (chunk.data ++ buffer.drop chunk.data.length)
        chunk.data.length 0 countLines s
      dsimp only
      cases hsplit : splitLines processLine (chunk.data ++ buffer.drop chunk.data.length)
        chunk.data.length 0 countLines s with
      | mk count s' =>
        rw [hsplit] at hn
        obtain rfl : count = some n := hn
        dsimp only
        split_ifs
        · rfl
        · exact ih ..

/-- **What a call of `process_read()` does** when no exception leaves it. -/
lemma readCall_spec (k : BufferClass) {s : Input σ} (call : ReadCall) (hline : '\n' ∉ s.line)
    (h : (k.readCall processLine s call).thrown = false) :
    ∃ lines, Reads processLine s call.readings call.used (k.readCall processLine s call) lines := by
  have hsocket : k.validSocket call.socket = decide (0 ≤ call.socket.1) :=
    k.validSocket_eq .fd call.socket
  rw [BufferClass.readCall, hsocket] at h ⊢
  rw [ReadCall.used]
  by_cases hvalid : 0 ≤ call.socket.1
  · simp only [hvalid, decide_true, if_true] at h ⊢
    exact readLoop_spec _ _ _ _ _ hline h
  · simp only [hvalid, decide_false, if_false, Bool.false_eq_true]
    exact ⟨[], rfl, Feeds.nil hline⟩

lemma thrown_readCall (hreturns : ∀ line object, (processLine line object).2 = true)
    (k : BufferClass) (s : Input σ) (call : ReadCall) :
    (k.readCall processLine s call).thrown = false := by
  rw [BufferClass.readCall]
  split_ifs
  · exact thrown_readLoop hreturns ..
  · rfl

/-- What `process_line()` keeps is kept by `process_read()`, also when an exception leaves it. -/
lemma invariant_splitLines {Inv : σ → Prop}
    (hstep : ∀ line object, Inv object → Inv (processLine line object).1) (buffer : Str)
    (r position countLines : ℕ) {s : Input σ} (hs : Inv s.object) :
    Inv (splitLines processLine buffer r position countLines s).2.object := by
  fun_induction splitLines processLine buffer r position countLines s with
  | case1 => exact hs
  | case2 position countLines s hlt it hit line processed hreturns ih => exact ih (hstep _ _ hs)
  | case3 => exact hstep _ _ hs
  | case4 => exact hs

lemma invariant_readLoop {Inv : σ → Prop}
    (hstep : ∀ line object, Inv object → Inv (processLine line object).1) (severity : Severity)
    (dateLimit : Int64) (countLines : ℕ) (buffer : Str) (readings : List Reading) {s : Input σ}
    (hs : Inv s.object) :
    Inv (readLoop processLine severity dateLimit countLines buffer readings s).input.object := by
  induction readings generalizing countLines buffer s with
  | nil => exact hs
  | cons reading readings ih =>
    rw [readLoop]
    cases reading.result with
    | zero => exact hs
    | failed errno =>
      dsimp only
      split_ifs
      · exact hs
      · exact hs
    | data chunk =>
      have hchunk := invariant_splitLines hstep (chunk.data ++ buffer.drop chunk.data.length)
        chunk.data.length 0 countLines hs
      dsimp only
      cases hsplit : splitLines processLine (chunk.data ++ buffer.drop chunk.data.length)
        chunk.data.length 0 countLines s with
      | mk count s' =>
        rw [hsplit] at hchunk
        cases count with
        | none => exact hchunk
        | some n =>
          dsimp only
          split_ifs
          · exact hchunk
          · exact ih _ _ hchunk

lemma invariant_readCall {Inv : σ → Prop}
    (hstep : ∀ line object, Inv object → Inv (processLine line object).1) (k : BufferClass)
    {s : Input σ} (hs : Inv s.object) (call : ReadCall) :
    Inv (k.readCall processLine s call).input.object := by
  rw [BufferClass.readCall]
  split_ifs
  · exact invariant_readLoop hstep _ _ _ _ _ hs
  · exact hs

end Loops

/-! ### The copies of the loop -/

section Copies

variable {σ : Type} {processLine : ProcessLine σ}

/-- Two inputs that differ in the level of log messages only. -/
structure Input.Same (s s' : Input σ) : Prop where
  /-- The other fields are the same. -/
  eq : s' = { s with errors := s'.errors }
  /-- There are as many errors. -/
  errors : s'.errors.length = s.errors.length

variable (processLine) in
lemma splitLines_errors (buffer : Str) (r position countLines : ℕ) (s : Input σ)
    (e : List Severity) :
    splitLines processLine buffer r position countLines { s with errors := e } =
      ((splitLines processLine buffer r position countLines s).1,
        { (splitLines processLine buffer r position countLines s).2 with errors := e }) := by
  fun_induction splitLines processLine buffer r position countLines s with
  | case1 position countLines s hlt it hit =>
    rw [splitLines, if_pos hlt]
    exact if_pos hit
  | case2 position countLines s hlt it hit line processed hreturns ih =>
    rw [splitLines, if_pos hlt]
    exact (if_neg hit).trans ((if_pos hreturns).trans ih)
  | case3 position countLines s hlt it hit line processed hthrows =>
    rw [splitLines, if_pos hlt]
    exact (if_neg hit).trans (if_neg hthrows)
  | case4 position countLines s hlt => rw [splitLines, if_neg hlt]

variable (processLine) in
lemma errors_splitLines (buffer : Str) (r position countLines : ℕ) (s : Input σ) :
    (splitLines processLine buffer r position countLines s).2.errors = s.errors :=
  congrArg (fun x => x.2.errors)
    (splitLines_errors processLine buffer r position countLines s s.errors)

/-- Two runs of the loop that differ in the level of log messages only. -/
structure ReadRun.Same (r r' : ReadRun σ) : Prop where
  /-- The inputs. -/
  input : r.input.Same r'.input
  /-- The same readings are left. -/
  unused : r'.unused = r.unused
  /-- An exception leaves both of them, or none. -/
  thrown : r'.thrown = r.thrown

lemma same_readLoop (severity severity' : Severity) (dateLimit : Int64) (countLines : ℕ)
    (buffer : Str) (readings : List Reading) {s s' : Input σ} (h : s.Same s') :
    (readLoop processLine severity dateLimit countLines buffer readings s).Same
      (readLoop processLine severity' dateLimit countLines buffer readings s') := by
  induction readings generalizing countLines buffer s s' with
  | nil => exact ⟨h, rfl, rfl⟩
  | cons reading readings ih =>
    rw [readLoop, readLoop]
    cases reading.result with
    | zero => exact ⟨h, rfl, rfl⟩
    | failed errno =>
      dsimp only
      split_ifs
      · exact ⟨h, rfl, rfl⟩
      · exact ⟨⟨by conv_lhs => rw [h.eq], by simp [h.errors]⟩, rfl, rfl⟩
    | data chunk =>
      have herrors := errors_splitLines processLine
        (chunk.data ++ buffer.drop chunk.data.length) chunk.data.length 0 countLines s
      have hsplit := splitLines_errors processLine
        (chunk.data ++ buffer.drop chunk.data.length) chunk.data.length 0 countLines s s'.errors
      rw [← h.eq] at hsplit
      dsimp only
      rw [hsplit]
      cases hleft : splitLines processLine (chunk.data ++ buffer.drop chunk.data.length)
        chunk.data.length 0 countLines s with
      | mk count t =>
        rw [hleft] at herrors
        have hsame : t.Same { t with errors := s'.errors } :=
          ⟨rfl, h.errors.trans (congrArg List.length herrors).symm⟩
        cases count with
        | none => exact ⟨hsame, rfl, rfl⟩
        | some n =>
          dsimp only
          split_ifs
          · exact ⟨hsame, rfl, rfl⟩
          · exact ih _ _ hsame

lemma same_readCall (k k' : BufferClass) (call : ReadCall) {s s' : Input σ} (h : s.Same s') :
    (k.readCall processLine s call).Same (k'.readCall processLine s' call) := by
  unfold BufferClass.readCall
  rw [k.validSocket_eq k']
  split_ifs
  · exact same_readLoop _ _ _ _ _ _ h
  · exact ⟨h, rfl, rfl⟩

end Copies

/-! ### The lines of a run -/

section Runs

variable {σ : Type} {processLine : ProcessLine σ}

/-- The calls of a run: they use their readings up to the first one that ends the loop, and
`process_line()` is called for the lines of all the bytes. -/
lemma reads_runFrom (hreturns : ∀ line object, (processLine line object).2 = true)
    (k : BufferClass) (calls : List ReadCall) {s : Input σ} (hline : '\n' ∉ s.line) :
    (∃ lines, Feeds processLine s (runFrom (k.processRead processLine) s calls)
      (bytesRead calls) lines) ∧
      ∀ p ∈ visited (k.processRead processLine) s calls,
        p.2.readings = p.2.used ++ (k.readCall processLine p.1 p.2).unused := by
  induction calls generalizing s with
  | nil => exact ⟨⟨[], .nil hline⟩, fun _ hp => absurd hp List.not_mem_nil⟩
  | cons call calls ih =>
    obtain ⟨lines, hreads⟩ := readCall_spec k call hline (thrown_readCall hreturns k s call)
    obtain ⟨⟨lines', hfeeds⟩, hcalls⟩ := ih hreads.feeds.framed.tail
    refine ⟨⟨lines ++ lines', hreads.feeds.trans hfeeds⟩, ?_⟩
    rw [visited_cons, List.forall_mem_cons]
    exact ⟨hreads.readings, hcalls⟩

/-- **Framing does not depend on how the bytes arrive.**  In any calls of `process_read()`, each of
which reads up to the first reading that ends the loop, `process_line()` is called for the lines of
the bytes that were read, each once and in order, and `f_line` is what follows the last newline; the
classes do the same. -/
theorem framed_runFrom (hreturns : ∀ line object, (processLine line object).2 = true)
    (k : BufferClass) (start : σ) (calls : List ReadCall) :
    (∃ lines,
      Framed '\n' (bytesRead calls) lines
        (runFrom (k.processRead processLine) { object := start } calls).line ∧
      (runFrom (k.processRead processLine) { object := start } calls).object =
        callAll processLine lines start) ∧
    (∀ p ∈ visited (k.processRead processLine) { object := start } calls,
      p.2.readings = p.2.used ++ (k.readCall processLine p.1 p.2).unused) ∧
    ∀ k' : BufferClass, Input.Same (runFrom (k.processRead processLine) { object := start } calls)
      (runFrom (k'.processRead processLine) { object := start } calls) := by
  obtain ⟨⟨lines, hfeeds⟩, hcalls⟩ := reads_runFrom hreturns k calls
    (s := { object := start }) List.not_mem_nil
  have hsame : ∀ (k' : BufferClass) (s s' : Input σ) (call : ReadCall), s.Same s' →
      (k.processRead processLine s call).Same (k'.processRead processLine s' call) :=
    fun k' s s' call h => (same_readCall k k' call h).input
  exact ⟨⟨lines, hfeeds.framed, hfeeds.object⟩, hcalls,
    fun k' => related_of_runFrom (hsame k') ⟨rfl, rfl⟩ calls⟩

end Runs

/-- A derived class that keeps the lines. -/
def record : ProcessLine (List Str) := fun line lines => (lines ++ [line], true)

/-- The strings passed to `process_line()`, in order. -/
abbrev Input.processed (s : Input (List Str)) : List Str := s.object

lemma returns_record (line : Str) (lines : List Str) : (record line lines).2 = true := rfl

@[simp] lemma callAll_record (lines object : List Str) :
    callAll record lines object = object ++ lines := by
  induction lines generalizing object with
  | nil => exact (List.append_nil _).symm
  | cons line lines ih =>
    rw [callAll, List.foldl_cons]
    refine (ih (object ++ [line])).trans ?_
    rw [List.append_assoc, List.singleton_append]

/-- A socket that is open. -/
def openSocket : Socket := ⟨5, by decide⟩

/-- Two calls: the second one gets the end of a line, after a limit is reached. -/
def twoCalls : List ReadCall :=
  [⟨openSocket, 0, 1000,
    [⟨.data ⟨"AB\n\nC".toList, by decide, by decide⟩, 2, 0⟩, ⟨.failed eagain, 2, 0⟩]⟩,
    ⟨openSocket, 0, 1000,
      [⟨.data ⟨"D".toList, by decide, by decide⟩, 2, 0⟩,
        ⟨.data ⟨"\nE".toList, by decide, by decide⟩, 2, 0⟩, ⟨.failed eagain, 2, 0⟩]⟩]

theorem framed_runFrom_twoCalls :
    (runFrom (BufferClass.tcpClient.processRead record) { object := [] } twoCalls).processed =
        ["AB".toList, [], "CD".toList] ∧
      (runFrom (BufferClass.tcpClient.processRead record) { object := [] } twoCalls).line =
        "E".toList := by
  obtain ⟨⟨lines, hframed, hobject⟩, -⟩ := framed_runFrom returns_record .tcpClient [] twoCalls
  have hlines : Framed '\n' (bytesRead twoCalls) ["AB".toList, [], "CD".toList] "E".toList :=
    ⟨by decide, by decide, by decide⟩
  obtain ⟨rfl, hline⟩ := hframed.unique hlines
  exact ⟨hobject.trans (callAll_record _ _), hline⟩

end EventDispatcher.Buffer
