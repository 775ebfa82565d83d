import EventDispatcher.Communicator.Delivery
import EventDispatcher.CppProcess.DataPipe

/-!
# The output of a child

An `io_capture_pipe` appends what it reads to a buffer: `process_read()` reads once, as many bytes
as a pipe can hold.  The loop of the communicator runs the callbacks for the events that `poll()`
found, and the children write in between.  When the hang up is among the events no write end is
open any more, so that the one read before it takes all that is left: the buffer holds the whole
output when `process_done()` is called for the hang up (`complete_of_hup`).
-/

namespace EventDispatcher.CppProcess

open Lib

/-- The size of the buffer of `process_read()`, `1'024 * 64`. -/
def captureBufferSize : ℕ := 1024 * 64

/-- `EAGAIN` and `EWOULDBLOCK` -/
def eagain : ℕ := 11

/-- A call of the callbacks of `process_done()`, with what they find. -/
structure DoneCall where
  /-- The reason. -/
  reason : DoneReason
  /-- `get_binary_output()` -/
  output : List UInt8
  /-- The pipe. -/
  pipe : PipeConnection
  /-- Whether it is in the communicator. -/
  listed : Bool
deriving DecidableEq

/-- An `io_capture_pipe`, the pipe of the kernel, and the iteration of the loop. -/
structure CapturePipe where
  /-- The connection. -/
  pipe : PipeConnection
  /-- Whether it is in the communicator. -/
  listed : Bool := true
  /-- `f_output` -/
  output : List UInt8 := []
  /-- The calls of the callbacks of `process_done()`. -/
  done : List DoneCall := []
  /-- The callbacks that the iteration has still to run. -/
  todo : List Callback := []
  /-- How many write ends the children have open. -/
  writers : ℕ
  /-- The bytes in the pipe. -/
  content : List UInt8 := []
  /-- The bytes that the children wrote. -/
  written : List UInt8 := []
deriving DecidableEq

namespace CapturePipe

/-- `get_binary_output()` -/
def getBinaryOutput (reset : Bool) (s : CapturePipe) : CapturePipe × List UInt8 :=
  (if reset then { s with output := [] } else s, s.output)

/-- `get_output()` -/
def getOutput (reset : Bool) (s : CapturePipe) : CapturePipe × Str :=
  (if reset then { s with output := [] } else s, s.output.map fun b => Char.ofNat b.toNat)

/-- `io_pipe::process_done()` -/
def processDone (reason : DoneReason) (s : CapturePipe) : CapturePipe :=
  let s := { s with pipe := s.pipe.close, listed := false }
  { s with done := s.done ++ [⟨reason, (s.getBinaryOutput false).2, s.pipe, s.listed⟩] }

/-- Some bytes are read. -/
def take (n : ℕ) (s : CapturePipe) : CapturePipe :=
  { s with output := s.output ++ s.content.take n, content := s.content.drop n }

/-- `process_read()` -/
def processRead (a : Answer) (s : CapturePipe) : CapturePipe :=
  if s.pipe.socket ≠ .invalid then
    let r := s.pipe.read .childOutput (min captureBufferSize s.content.length) a
    if r.value < 0 ∧ r.errno ≠ 0 ∧ r.errno ≠ eagain then s.processDone .error
    else if 0 < r.value then s.take r.value.toNat
    else s
  else s

/-- A callback of the loop. -/
def callback (a : Answer) (s : CapturePipe) : Callback → CapturePipe
  | .read => s.processRead a
  | .error => s.processDone .error
  | .hup => s.processDone .hup
  | .invalid => s.processDone .invalid
  -- the other callbacks are those of `connection`, which do nothing
  | _ => s

/-- What the communicator sees. -/
def connection (s : CapturePipe) : Connection :=
  { reader := PipeType.childOutput.isReader, validSocket := s.pipe.validSocket }

/-- What can happen. -/
inductive Action where
  /-- A child writes. -/
  | write (data : List UInt8)
  /-- A child closes a write end. -/
  | close
  /-- The parent closes its write end: `close_other()`. -/
  | closeOther
  /-- The loop gets the events for the pipe from `poll()`. -/
  | poll (revents : UInt16)
  /-- The loop runs the next callback, with what the kernel answers to its `read()`. -/
  | call (a : Answer)
  /-- `get_output()` -/
  | getOutput (reset : Bool)
  /-- `get_binary_output()` -/
  | getBinaryOutput (reset : Bool)
deriving DecidableEq

/-- One action. -/
def step (s : CapturePipe) : Action → CapturePipe
  | .write data =>
    if 0 < s.writers then { s with content := s.content ++ data, written := s.written ++ data }
    else s
  | .close => { s with writers := s.writers - 1 }
  | .closeOther => { s with pipe := s.pipe.forked }
  | .poll revents =>
    if s.listed ∧ s.pipe.validSocket ∧ s.todo = [] then
      { s with todo := s.connection.selected revents }
    else s
  | .call a =>
    match s.todo with
    | [] => s
    | callback :: todo => { s with todo := todo }.callback a callback
  | .getOutput reset => (s.getOutput reset).1
  | .getBinaryOutput reset => (s.getBinaryOutput reset).1

/-- The pipe with number `n`, when some children have its write end. -/
def new (n writers : ℕ) : CapturePipe := { pipe := .new n .childOutput, writers := writers }

/-- How the kernel behaves; and the output is not reset. -/
def Documented (s : CapturePipe) : Action → Prop
  -- a pipe holds at most 65536 bytes
  | .write data => s.content.length + data.length ≤ 65536
  -- a hang up is only reported once every write end is closed, with the data that is left;
  -- `POLLRDHUP`, which is for sockets, would not be reported before either
  | .poll revents => revents &&& (pollHup ||| pollRdHup) ≠ 0 →
      s.writers = 0 ∧ (s.content ≠ [] → revents &&& pollIn ≠ 0)
  -- `read()` returns all that is available up to the size asked
  | .call a => s.todo.head? = some .read →
      ∃ n ∈ a.count, min captureBufferSize s.content.length ≤ n
  | .getOutput reset | .getBinaryOutput reset => reset = false
  | .close | .closeOther => True

instance decidableDocumented (s : CapturePipe) : (a : Action) → Decidable (s.Documented a)
  | .write _ => inferInstanceAs (Decidable (_ ≤ _))
  | .poll _ => inferInstanceAs (Decidable (_ → _))
  | .call _ => inferInstanceAs (Decidable (_ → _))
  | .getOutput _ | .getBinaryOutput _ => inferInstanceAs (Decidable (_ = _))
  | .close | .closeOther => inferInstanceAs (Decidable True)

/-- **The output is complete**: it is all that the children wrote, no one of them can write any
more, and the pipe is closed and out of the communicator. -/
structure Complete (s : CapturePipe) (d : DoneCall) : Prop where
  /-- What was captured. -/
  output : d.output = s.written
  /-- The end of the stream. -/
  ended : s.writers = 0
  /-- The pipe is closed. -/
  closed : d.pipe = ⟨.invalid, .invalid⟩
  /-- It is out of the communicator. -/
  unlisted : d.listed = false

/-- The invariant: as long as the pipe is open what was read and what is in the pipe is what was
written, and when a hang up is to be handled all that was written is read before it. -/
structure Sound (s : CapturePipe) : Prop where
  /-- The bytes in the pipe fit in one read. -/
  room : s.content.length ≤ captureBufferSize
  /-- The connection. -/
  socket : s.pipe.socket = .invalid ∨ ∃ n, s.pipe.socket = .readEnd n
  /-- What was written. -/
  kept : s.pipe.socket ≠ .invalid → s.output ++ s.content = s.written
  /-- The pipe is read first. -/
  first : ∃ l, .read ∉ l ∧ (s.todo = l ∨ (s.todo = .read :: l ∧ s.pipe.socket ≠ .invalid))
  /-- A hang up that is to be handled. -/
  hangup : .hup ∈ s.todo → s.writers = 0 ∧ (.read ∉ s.todo → s.output = s.written)
  /-- The hang ups that were handled. -/
  done : ∀ d ∈ s.done, d.reason = .hup → s.Complete d

variable {s s' : CapturePipe}

lemma Complete.of_eq {d : DoneCall} (h : s.Complete d) (hwritten : s'.written = s.written)
    (hwriters : s'.writers ≤ s.writers) : s'.Complete d :=
  ⟨h.output.trans hwritten.symm, Nat.le_zero.mp (hwriters.trans h.ended.le), h.closed, h.unlisted⟩

/-! ### The children -/

/-- **The children write** only before the end of the stream. -/
lemma Sound.write (h : s.Sound) {data : List UInt8} (hdata : s.Documented (.write data)) :
    (s.step (.write data)).Sound := by
  rw [step]
  split_ifs with hwriters
  · have hup : .hup ∉ s.todo := fun hmem => absurd (h.hangup hmem).1 hwriters.ne'
    refine ⟨?_, h.socket, fun hopen => ?_, h.first, fun hmem => absurd hmem hup,
      fun d hd hreason => absurd (h.done d hd hreason).ended hwriters.ne'⟩
    · rw [List.length_append]
      exact hdata
    · rw [← h.kept hopen, List.append_assoc]
  · exact h

lemma Sound.close (h : s.Sound) : (s.step .close).Sound := by
  refine ⟨h.room, h.socket, h.kept, h.first, fun hmem => ?_, fun d hd hreason => ?_⟩
  · obtain ⟨hwriters, hread⟩ := h.hangup hmem
    refine ⟨?_, hread⟩
    change s.writers - 1 = 0
    omega
  · exact (h.done d hd hreason).of_eq rfl (Nat.sub_le _ _)

/-! ### The loop -/

/-- The callbacks that follow the one to read. -/
def afterRead (revents : UInt16) : List Callback :=
  (if revents &&& pollOut ≠ 0 then [.write] else [])
    ++ (if revents &&& pollErr ≠ 0 then [.error] else [])
    ++ (if revents &&& (pollHup ||| pollRdHup) ≠ 0 then [.hup] else [])
    ++ (if revents &&& pollNval ≠ 0 then [.invalid] else [])

lemma read_notMem_afterRead (revents : UInt16) : .read ∉ afterRead revents := by
  rw [afterRead]
  split_ifs <;> decide

lemma hup_mem_afterRead {revents : UInt16} (h : .hup ∈ afterRead revents) :
    revents &&& (pollHup ||| pollRdHup) ≠ 0 := by
  intro hzero
  rw [afterRead, if_neg (not_not.mpr hzero)] at h
  split_ifs at h <;> simp at h

/-- A pipe is no signal and no listener: its events are read first. -/
lemma selected_connection (s : CapturePipe) (revents : UInt16) :
    s.connection.selected revents =
      (if revents &&& (pollIn ||| pollPri) ≠ 0 then [.read] else []) ++ afterRead revents := by
  simp only [Connection.selected, afterRead, List.append_assoc]
  rfl

lemma and_input_ne_zero {revents : UInt16} (h : revents &&& pollIn ≠ 0) :
    revents &&& (pollIn ||| pollPri) ≠ 0 := by
  intro hzero
  have hbit : (pollIn ||| pollPri) &&& pollIn = pollIn := by decide
  rw [← hbit, ← UInt16.and_assoc, hzero, UInt16.zero_and] at h
  exact h rfl

/-- **The events are found**: with a hang up, all that is left is still to be read. -/
lemma Sound.poll (h : s.Sound) {revents : UInt16} (hpoll : s.Documented (.poll revents)) :
    (s.step (.poll revents)).Sound := by
  rw [step]
  split_ifs with hlisted
  · obtain ⟨-, hvalid, -⟩ := hlisted
    have hopen : s.pipe.socket ≠ .invalid := by simpa [PipeConnection.validSocket] using hvalid
    have hselected := s.selected_connection revents
    refine ⟨h.room, h.socket, h.kept, ⟨afterRead revents, read_notMem_afterRead revents, ?_⟩,
      fun hmem => ?_, fun d hd hreason => (h.done d hd hreason).of_eq rfl le_rfl⟩
    · change s.connection.selected revents = afterRead revents ∨ _
      rw [hselected]
      split_ifs
      · exact Or.inr ⟨rfl, hopen⟩
      · exact Or.inl rfl
    · change .hup ∈ s.connection.selected revents at hmem
      change s.writers = 0 ∧ (.read ∉ s.connection.selected revents → _)
      rw [hselected] at hmem ⊢
      have hafter : .hup ∈ afterRead revents := by
        rcases List.mem_append.mp hmem with hmem | hmem
        · split_ifs at hmem <;> simp at hmem
        · exact hmem
      obtain ⟨hwriters, hdata⟩ := hpoll (hup_mem_afterRead hafter)
      refine ⟨hwriters, fun hnot => ?_⟩
      -- nothing is to be read, so nothing is left
      have hcontent : s.content = [] := by
        by_contra hne
        refine hnot (List.mem_append_left _ ?_)
        rw [if_pos (and_input_ne_zero (hdata hne))]
        exact List.mem_singleton_self _
      have hkept := h.kept hopen
      rwa [hcontent, List.append_nil] at hkept
  · exact h

/-- The pipe is closed, and nothing else changes but the calls. -/
lemma Sound.processDone (h : s.Sound) {reason : DoneReason}
    (hread : .read ∉ s.todo)
    (hcomplete : reason = .hup → s.writers = 0 ∧ s.output = s.written) :
    (s.processDone reason).Sound := by
  refine ⟨h.room, Or.inl rfl, fun hopen => absurd rfl hopen, ⟨s.todo, hread, Or.inl rfl⟩, h.hangup,
    fun d hd hreason => ?_⟩
  rcases List.mem_append.mp hd with hd | hd
  · exact (h.done d hd hreason).of_eq rfl le_rfl
  · obtain rfl := List.mem_singleton.mp hd
    obtain ⟨hwriters, houtput⟩ := hcomplete hreason
    exact ⟨houtput, hwriters, rfl, rfl⟩

/-- **The read takes all that is left.** -/
lemma processRead_eq {pipe : ℕ} (hsocket : s.pipe.socket = .readEnd pipe)
    (hroom : s.content.length ≤ captureBufferSize) (hkept : s.output ++ s.content = s.written)
    {a : Answer} {n : ℕ} (ha : a.count = some n)
    (hn : min captureBufferSize s.content.length ≤ n) :
    s.processRead a = { s with output := s.written, content := [] } := by
  have hvalue : (s.pipe.read .childOutput (min captureBufferSize s.content.length) a).value
      = s.content.length := by
    rw [PipeConnection.read, hsocket]
    dsimp only
    rw [Answer.value, ha]
    dsimp only
    omega
  have hopen : s.pipe.socket ≠ .invalid := by simp [hsocket]
  rw [CapturePipe.processRead, if_pos hopen]
  dsimp only
  rw [hvalue, if_neg fun hfail => by omega]
  split_ifs with hsome
  · rw [CapturePipe.take, Int.toNat_natCast, List.take_length, List.drop_length, hkept]
  · have hnil : s.content = [] := List.length_eq_zero_iff.mp (by omega)
    rw [hnil, List.append_nil] at hkept
    cases s
    cases hnil
    cases hkept
    rfl

/-- **One callback** of the loop. -/
lemma Sound.call (h : s.Sound) {a : Answer} (ha : s.Documented (.call a)) :
    (s.step (.call a)).Sound := by
  rw [step]
  obtain ⟨l, hread, hl | ⟨hl, hopen⟩⟩ := h.first
  · cases l with
    | nil =>
      rw [hl]
      exact h
    | cons callback todo =>
      rw [hl]
      have hnot : .read ∉ todo := fun hmem => hread (List.mem_cons_of_mem _ hmem)
      have hall : .hup ∈ s.todo → s.writers = 0 ∧ s.output = s.written := fun hmem =>
        ⟨(h.hangup hmem).1, (h.hangup hmem).2 (hl ▸ hread)⟩
      have hnext : Sound { s with todo := todo } := by
        refine ⟨h.room, h.socket, h.kept, ⟨todo, hnot, Or.inl rfl⟩, fun hmem => ?_, fun d hd hr =>
          (h.done d hd hr).of_eq rfl le_rfl⟩
        obtain ⟨hwriters, houtput⟩ := hall (hl ▸ List.mem_cons_of_mem _ hmem)
        exact ⟨hwriters, fun _ => houtput⟩
      cases callback with
      | read => exact absurd List.mem_cons_self hread
      | error => exact hnext.processDone hnot fun hreason => by cases hreason
      | hup => exact hnext.processDone hnot fun _ => hall (hl ▸ List.mem_cons_self)
      | invalid => exact hnext.processDone hnot fun hreason => by cases hreason
      | _ => exact hnext
  · rw [hl]
    obtain ⟨n, hcount, hn⟩ := ha (by rw [hl]; rfl)
    obtain ⟨pipe, hsocket⟩ := h.socket.resolve_left hopen
    have heq : { s with todo := l }.processRead a =
        { s with todo := l, output := s.written, content := [] } :=
      processRead_eq (s := { s with todo := l }) hsocket h.room (h.kept hopen) hcount hn
    change ({ s with todo := l }.processRead a).Sound
    rw [heq]
    refine ⟨Nat.zero_le _, h.socket, fun _ => List.append_nil _, ⟨l, hread, Or.inl rfl⟩,
      fun hmem => ?_, fun d hd hr => (h.done d hd hr).of_eq rfl le_rfl⟩
    exact ⟨(h.hangup (hl ▸ List.mem_cons_of_mem _ hmem)).1, fun _ => rfl⟩

/-! ### Runs -/

/-- **One action.** -/
lemma Sound.step (h : s.Sound) {a : Action} (ha : s.Documented a) : (s.step a).Sound := by
  cases a with
  | write data => exact h.write ha
  | close => exact h.close
  | closeOther => exact ⟨h.room, h.socket, h.kept, h.first, h.hangup,
      fun d hd hreason => (h.done d hd hreason).of_eq rfl le_rfl⟩
  | poll revents => exact h.poll ha
  | call a => exact h.call ha
  | getOutput reset =>
    obtain rfl : reset = false := ha
    exact h
  | getBinaryOutput reset =>
    obtain rfl : reset = false := ha
    exact h

lemma Sound.new (n writers : ℕ) : Sound (new n writers) :=
  ⟨Nat.zero_le _, Or.inr ⟨n, rfl⟩, fun _ => rfl, ⟨[], List.not_mem_nil, Or.inl rfl⟩,
    fun hmem => absurd hmem List.not_mem_nil, fun _ hd => absurd hd List.not_mem_nil⟩

end CapturePipe

end EventDispatcher.CppProcess
