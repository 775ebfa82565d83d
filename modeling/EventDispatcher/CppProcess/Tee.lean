import EventDispatcher.Buffer.Read
import EventDispatcher.Communicator.Connection
import EventDispatcher.CppProcess.Process
import EventDispatcher.Lib.Run

/-!
# The tee

With several next processes, `prepare_output()` creates a `tee_pipe`, which is to read what the
first process writes, and one `buffered_pipe` for each next process, to which the tee copies what
it read.  The tee is of the type `PIPE_CHILD_INPUT` and its outputs are of the type
`PIPE_CHILD_OUTPUT`, so the parent may write to the tee and read from the outputs: the tee is never
polled, and nothing is handed to a next process (`tee_feeds_iff`).
-/

namespace EventDispatcher.CppProcess

open Lib Buffer

/-- `EBADF` -/
def ebadf : ℕ := 9

/-! ### Pipes -/

/-- What the kernel answers to a `read()` or a `write()`. -/
structure Answer where
  /-- How many bytes are transferred, at most; `none` is an error. -/
  count : Option ℕ
  /-- `errno` -/
  errno : ℕ
deriving DecidableEq, Repr

/-- The result of a call that can transfer `length` bytes. -/
def Answer.value (a : Answer) (length : ℕ) : ℤ :=
  match a.count with
  | none => -1
  | some n => min n length

/-- The result of `read()` or `write()` of a pipe. -/
structure Transfer where
  /-- What the function returns. -/
  value : ℤ
  /-- `errno` -/
  errno : ℕ
  /-- Whether it failed because of the direction of the pipe. -/
  wrongDirection : Bool
deriving DecidableEq, Repr

/-- `is_reader()`, in the process that created the pipe. -/
def PipeType.isReader : PipeType → Bool
  | .childInput => false
  | .childOutput => true

namespace PipeConnection

/-- `valid_socket()` -/
def validSocket (c : PipeConnection) : Bool := c.socket ≠ .invalid

/-- `read()` of a pipe with `length` bytes in it, in the process that created the pipe. -/
def read (c : PipeConnection) (type : PipeType) (length : ℕ) (a : Answer) : Transfer :=
  match type with
  | .childInput => ⟨-1, ebadf, true⟩
  | .childOutput =>
    match c.socket with
    | .invalid => ⟨-1, ebadf, false⟩
    | .readEnd _ => ⟨a.value length, a.errno, false⟩
    -- the kernel knows the direction too
    | _ => ⟨-1, ebadf, true⟩

/-- `write()` of `length` bytes, in the process that created the pipe. -/
def write (c : PipeConnection) (type : PipeType) (length : ℕ) (a : Answer) : Transfer :=
  match type with
  | .childOutput => ⟨-1, ebadf, true⟩
  | .childInput =>
    match c.socket with
    | .invalid => ⟨-1, ebadf, false⟩
    | .writeEnd _ => if length = 0 then ⟨0, 0, false⟩ else ⟨a.value length, a.errno, false⟩
    | _ => ⟨-1, ebadf, true⟩

end PipeConnection

/-! ### The outputs -/

/-- `buffered_pipe` -/
structure BufferedPipe where
  /-- The pipe. -/
  pipe : PipeConnection
  /-- Whether it is in the communicator. -/
  listed : Bool := true
  /-- `f_output` -/
  output : Str := []
  /-- `f_position` -/
  position : ℕ := 0
  /-- The bytes that its file descriptor took, in order. -/
  handed : Str := []
  /-- How many calls failed because of the direction of the pipe. -/
  failures : ℕ := 0

namespace BufferedPipe

/-- The type that the constructor sets. -/
def type : PipeType := .childOutput

/-- `is_writer()` -/
def isWriter (o : BufferedPipe) : Bool := o.pipe.validSocket && o.output ≠ []

/-- What the communicator sees. -/
def source (o : BufferedPipe) : EventSource :=
  { reader := type.isReader, writer := o.isWriter, validSocket := o.pipe.validSocket }

/-- `write()`: the data is only buffered. -/
def write (o : BufferedPipe) (data : Str) : BufferedPipe × ℤ :=
  if o.pipe.validSocket then ({ o with output := o.output ++ data }, data.length) else (o, -1)

/-- `process_error()` and `process_invalid()` -/
def removed (o : BufferedPipe) : BufferedPipe := { o with listed := false }

/-- `process_write()` -/
def processWrite (o : BufferedPipe) (a : Answer) : BufferedPipe :=
  if o.pipe.validSocket then
    let r := o.pipe.write type (o.output.length - o.position) a
    let o := { o with failures := o.failures + r.wrongDirection.toNat }
    if 0 < r.value then
      let o := { o with
        handed := o.handed ++ (o.output.drop o.position).take r.value.toNat
        position := o.position + r.value.toNat }
      if o.output.length ≤ o.position then { o with output := [], position := 0 } else o
    else if r.value ≠ 0 ∧ r.errno ≠ 0 ∧ r.errno ≠ eagain then o.removed
    else o
  else o

/-- `process_hup()` -/
def processHup (o : BufferedPipe) : BufferedPipe := { o with pipe := o.pipe.close }.removed

end BufferedPipe

/-! ### The tee -/

/-- `tee_pipe` -/
structure TeePipe where
  /-- The pipe. -/
  pipe : PipeConnection
  /-- Whether it is in the communicator. -/
  listed : Bool := true
  /-- `f_output` -/
  output : List BufferedPipe
  /-- How many calls failed because of the direction of the pipe. -/
  failures : ℕ := 0

namespace TeePipe

/-- The type that the constructor sets. -/
def type : PipeType := .childInput

/-- What the communicator sees. -/
def source (t : TeePipe) : EventSource :=
  { reader := type.isReader, validSocket := t.pipe.validSocket }

/-- `process_error()`, `process_hup()` and `process_invalid()`: the tee is removed, and
`connection_removed()` removes the outputs. -/
def removed (t : TeePipe) : TeePipe :=
  { t with listed := false, output := t.output.map .removed }

/-- `process_read()`, with the bytes that are in the pipe of the tee; and the bytes that are left
there. -/
def processRead (t : TeePipe) (content : Str) (a : Answer) : TeePipe × Str :=
  if t.pipe.validSocket then
    -- up to 64 KiB at once
    let r := t.pipe.read type (min content.length (1024 * 64)) a
    let t := { t with failures := t.failures + r.wrongDirection.toNat }
    if r.value < 0 ∧ r.errno ≠ 0 ∧ r.errno ≠ eagain then (t.removed, content)
    else if 0 < r.value then
      ({ t with output := t.output.map fun o => (o.write (content.take r.value.toNat)).1 },
        content.drop r.value.toNat)
    else (t, content)
  else (t, content)

end TeePipe

/-! ### The chain -/

/-- A connection of the chain. -/
inductive Member where
  | tee
  | output (i : ℕ)
deriving DecidableEq, Repr

/-- The first process, the tee and its outputs. -/
structure Chain where
  /-- `f_intermediate_output_pipe` -/
  tee : TeePipe
  /-- The number of the pipe of the tee. -/
  pipe : ℕ
  /-- The standard output of the first process. -/
  stdout : Option Descriptor
  /-- The bytes that are in each pipe. -/
  content : ℕ → Str := fun _ => []
  /-- The bytes that the first process wrote, in order. -/
  stream : Str := []
  /-- Whether the first process closed its output. -/
  closed : Bool := false

/-- What the kernel does in an iteration of the communicator. -/
structure Kernel where
  /-- The events of each connection. -/
  ready : Member → UInt16
  /-- The answer to its `read()` or `write()`. -/
  answer : Member → Answer

namespace Chain

/-- The tee that `prepare_output()` creates for `n` next processes, when `fork()` returned. -/
def new (n : ℕ) : Chain :=
  match ({} : Fields).prepareOutput {} n with
  | .ok (s, p) =>
    match p.intermediate, s.tees with
    | some (.tee pipe output), (k, _) :: _ =>
      { tee := { pipe := pipe.forked, output := output.map fun o => { pipe := o } }
        pipe := k
        stdout := (p.executeCommand 0).stdout }
    | _, _ => { tee := { pipe := ⟨.invalid, .invalid⟩, output := [] }, pipe := 0, stdout := none }
  | .error _ => { tee := { pipe := ⟨.invalid, .invalid⟩, output := [] }, pipe := 0, stdout := none }

/-- What the communicator sees of a connection. -/
def source (c : Chain) : Member → EventSource
  | .tee => c.tee.source
  | .output i => (c.tee.output[i]?.map BufferedPipe.source).getD {}

/-- The connections in the communicator. -/
def members (c : Chain) : List Member :=
  (if c.tee.listed then [.tee] else []) ++
    ((List.range c.tee.output.length).filter fun i =>
      (c.tee.output[i]?.map BufferedPipe.listed).getD false).map .output

/-- The events that `poll()` returns. -/
def revents (k : Kernel) (c : Chain) (m : Member) : UInt16 :=
  let e := Connection.pollEvents (c.source m)
  if e = 0 ∨ ¬ (c.source m).validSocket then 0
  else k.ready m &&& (e ||| pollErr ||| pollHup ||| pollNval)

/-- An output changes. -/
def modify (c : Chain) (i : ℕ) (f : BufferedPipe → BufferedPipe) : Chain :=
  { c with tee := { c.tee with output := c.tee.output.modify i f } }

/-- `process_read()`; the one of an output does nothing. -/
def processRead (k : Kernel) (c : Chain) : Member → Chain
  | .tee =>
    let (t, rest) := c.tee.processRead (c.content c.pipe) (k.answer .tee)
    { c with tee := t, content := Function.update c.content c.pipe rest }
  | .output _ => c

/-- `process_write()`; the one of the tee does nothing. -/
def processWrite (k : Kernel) (c : Chain) : Member → Chain
  | .tee => c
  | .output i => c.modify i fun o => o.processWrite (k.answer (.output i))

/-- `process_error()` and `process_invalid()` -/
def processError (c : Chain) : Member → Chain
  | .tee => { c with tee := c.tee.removed }
  | .output i => c.modify i .removed

/-- `process_hup()` -/
def processHup (c : Chain) : Member → Chain
  | .tee => { c with tee := c.tee.removed }
  | .output i => c.modify i .processHup

/-- The callbacks of a connection, for the events that `poll()` returned. -/
def serve (k : Kernel) (c : Chain) (p : Member × UInt16) : Chain :=
  let c := if p.2 &&& (pollIn ||| pollPri) ≠ 0 then c.processRead k p.1 else c
  let c := if p.2 &&& pollOut ≠ 0 then c.processWrite k p.1 else c
  let c := if p.2 &&& pollErr ≠ 0 then c.processError p.1 else c
  let c := if p.2 &&& (pollHup ||| pollRdHup) ≠ 0 then c.processHup p.1 else c
  if p.2 &&& pollNval ≠ 0 then c.processError p.1 else c

/-- One iteration of `communicator::run()`. -/
def iteration (k : Kernel) (c : Chain) : Chain :=
  (c.members.map fun m => (m, c.revents k m)).foldl (serve k) c

/-- What happens to the chain. -/
inductive Event where
  /-- The first process writes. -/
  | write (data : Str)
  /-- The first process closes its output. -/
  | close
  /-- An iteration of the communicator. -/
  | iteration (k : Kernel)

/-- The first process writes to its standard output. -/
def write (data : Str) (c : Chain) : Chain :=
  if c.closed then c
  else
    { c with
      stream := c.stream ++ data
      content := match c.stdout with
        | some (.writeEnd n) => Function.update c.content n (c.content n ++ data)
        | _ => c.content }

/-- One event. -/
def step (c : Chain) : Event → Chain
  | .write data => c.write data
  | .close => { c with closed := true }
  | .iteration k => c.iteration k

/-- Each output handed exactly the stream to its file descriptor, and no call failed because of
the direction of a pipe. -/
structure Fed (c : Chain) : Prop where
  /-- The streams. -/
  handed : ∀ o ∈ c.tee.output, o.handed = c.stream
  /-- The directions. -/
  directions : c.tee.failures = 0 ∧ ∀ o ∈ c.tee.output, o.failures = 0

/-- The first process does not write any more. -/
def Silent (events : List Event) : Prop := ∀ data, .write data ∉ events

/-- When the first process does not write any more, the outputs have handed over everything or
can still do so, whatever happens first. -/
def EventuallyFed (c : Chain) : Prop :=
  ∀ more, Silent more → ∃ rest, Silent rest ∧ (runFrom step c (more ++ rest)).Fed

/-! ### Only the first process writes to the stream -/

@[simp] lemma processRead_stream (k : Kernel) (c : Chain) (m : Member) :
    (c.processRead k m).stream = c.stream := by cases m <;> rfl

@[simp] lemma processWrite_stream (k : Kernel) (c : Chain) (m : Member) :
    (c.processWrite k m).stream = c.stream := by cases m <;> rfl

@[simp] lemma processError_stream (c : Chain) (m : Member) :
    (c.processError m).stream = c.stream := by cases m <;> rfl

@[simp] lemma processHup_stream (c : Chain) (m : Member) :
    (c.processHup m).stream = c.stream := by cases m <;> rfl

@[simp] lemma serve_stream (k : Kernel) (c : Chain) (p : Member × UInt16) :
    (c.serve k p).stream = c.stream := by
  simp only [serve, apply_ite stream, processRead_stream, processWrite_stream,
    processError_stream, processHup_stream, ite_self]

lemma iteration_stream (k : Kernel) (c : Chain) : (c.iteration k).stream = c.stream := by
  rw [iteration]
  generalize c.members.map (fun m => (m, c.revents k m)) = polled
  induction polled generalizing c with
  | nil => rfl
  | cons p polled ih => rw [List.foldl_cons, ih, serve_stream]

lemma Silent.stream {events : List Event} (h : Silent events) (c : Chain) :
    (runFrom step c events).stream = c.stream := by
  induction events generalizing c with
  | nil => rfl
  | cons e events ih =>
    have hstep : (step c e).stream = c.stream := by
      cases e with
      | write data => exact absurd List.mem_cons_self (h data)
      | close => rfl
      | iteration k => exact iteration_stream k c
    exact (ih (fun data hmem => h data (List.mem_cons_of_mem _ hmem)) (step c e)).trans hstep

/-! ### Nothing is handed over -/

/-- An output to which nothing was copied. -/
def Untouched (o : BufferedPipe) : Prop := o.output = [] ∧ o.handed = [] ∧ o.failures = 0

/-- Nothing was read by the tee or copied to an output, and no call failed. -/
structure Idle (c : Chain) : Prop where
  /-- There are outputs. -/
  ne_nil : c.tee.output ≠ []
  /-- The tee did not read. -/
  tee : c.tee.failures = 0
  /-- The outputs got nothing. -/
  output : ∀ o ∈ c.tee.output, Untouched o

lemma Idle.fed_iff {c : Chain} (h : c.Idle) : c.Fed ↔ c.stream = [] := by
  constructor
  · intro hfed
    obtain ⟨o, l, hl⟩ := List.exists_cons_of_ne_nil h.ne_nil
    have ho : o ∈ c.tee.output := by rw [hl]; exact List.mem_cons_self
    rw [← hfed.handed o ho, (h.output o ho).2.1]
  · intro hstream
    exact ⟨fun o ho => by rw [hstream, (h.output o ho).2.1],
      h.tee, fun o ho => (h.output o ho).2.2⟩

/-- The tee is not polled. -/
lemma revents_tee (k : Kernel) (c : Chain) : c.revents k .tee = 0 := by
  have hevents : Connection.pollEvents (c.source .tee) = 0 := by
    simp [source, TeePipe.source, TeePipe.type, PipeType.isReader, Connection.pollEvents]
  rw [revents, hevents]
  exact if_pos (.inl rfl)

/-- An output without data is not polled for writing. -/
lemma Idle.revents_pollOut {c : Chain} (h : c.Idle) (k : Kernel) (m : Member) :
    c.revents k m &&& pollOut = 0 := by
  cases m with
  | tee => rw [revents_tee]; rfl
  | output i =>
    rw [revents]
    split_ifs with hskip
    · rfl
    · have hwriter : (c.source (.output i)).writer = false := by
        rw [source]
        cases ho : c.tee.output[i]? with
        | none => rfl
        | some o =>
          have := (h.output o (List.mem_of_getElem? ho)).1
          simp [BufferedPipe.source, BufferedPipe.isWriter, this]
      have hevents : Connection.pollEvents (c.source (.output i)) = 0 ∨
          Connection.pollEvents (c.source (.output i)) = pollIn ||| pollPri ||| pollRdHup := by
        rw [source]
        rw [source] at hwriter
        cases ho : c.tee.output[i]? with
        | none => exact .inl rfl
        | some o =>
          rw [ho] at hwriter
          have hw : o.isWriter = false := hwriter
          refine .inr ?_
          simp [BufferedPipe.source, Connection.pollEvents, hw, BufferedPipe.type,
            PipeType.isReader]
      rw [UInt16.and_assoc]
      rcases hevents with he | he
      · exact absurd (.inl he) hskip
      · rw [he]
        exact UInt16.and_zero

lemma Idle.modify {c : Chain} (h : c.Idle) (i : ℕ) {f : BufferedPipe → BufferedPipe}
    (hf : ∀ o, Untouched o → Untouched (f o)) : (c.modify i f).Idle := by
  refine ⟨fun hnil => h.ne_nil (List.modify_eq_nil_iff.mp hnil), h.tee, fun o ho => ?_⟩
  obtain ⟨j, hj⟩ := List.mem_iff_getElem?.mp ho
  rw [Chain.modify, List.getElem?_modify] at hj
  obtain ⟨o', ho', rfl⟩ := Option.map_eq_some_iff.mp hj
  have := h.output o' (List.mem_of_getElem? ho')
  split_ifs
  · exact hf o' this
  · exact this

lemma Idle.ite {c c' : Chain} {b : Prop} [Decidable b] (h : c.Idle) (h' : c'.Idle) :
    (if b then c else c').Idle := by
  split_ifs
  · exact h
  · exact h'

/-- **One connection.**  Nothing is copied when the tee has no event and no output may be
written. -/
lemma Idle.serve {c : Chain} (h : c.Idle) (k : Kernel) {p : Member × UInt16}
    (htee : p.1 = .tee → p.2 = 0) (hout : p.2 &&& pollOut = 0) : (c.serve k p).Idle := by
  obtain ⟨m, revents⟩ := p
  cases m with
  | tee =>
    obtain rfl : revents = 0 := htee rfl
    exact h
  | output i =>
    have herror : ∀ c : Chain, c.Idle → (c.processError (.output i)).Idle :=
      fun c h => h.modify i fun _ ho => ho
    have hhup : ∀ c : Chain, c.Idle → (c.processHup (.output i)).Idle :=
      fun c h => h.modify i fun _ ho => ho
    simp only [Chain.serve, processRead, ite_self, if_neg (not_not.mpr hout)]
    have h₁ := (herror _ h).ite h (b := revents &&& pollErr ≠ 0)
    have h₂ := (hhup _ h₁).ite h₁ (b := revents &&& (pollHup ||| pollRdHup) ≠ 0)
    exact (herror _ h₂).ite h₂

/-- **One event.** -/
lemma Idle.step {c : Chain} (h : c.Idle) (e : Event) : (step c e).Idle := by
  cases e with
  | write data =>
    rw [Chain.step, write]
    split_ifs
    · exact h
    · exact ⟨h.ne_nil, h.tee, h.output⟩
  | close => exact ⟨h.ne_nil, h.tee, h.output⟩
  | iteration k =>
    -- what `poll()` returned was asked for before the callbacks ran
    have hpolled : ∀ p ∈ c.members.map fun m => (m, c.revents k m),
        (p.1 = .tee → p.2 = 0) ∧ p.2 &&& pollOut = 0 := by
      intro p hp
      obtain ⟨m, -, rfl⟩ := List.mem_map.mp hp
      exact ⟨fun hm => by rw [show m = .tee from hm, revents_tee], h.revents_pollOut k m⟩
    rw [Chain.step, iteration]
    generalize c.members.map (fun m => (m, c.revents k m)) = polled at hpolled
    induction polled generalizing c with
    | nil => exact h
    | cons p polled ih =>
      obtain ⟨htee, hout⟩ := hpolled p List.mem_cons_self
      exact ih (h.serve k htee hout) fun q hq => hpolled q (List.mem_cons_of_mem _ hq)

lemma idle_new (n : ℕ) : (new (n + 2)).Idle where
  ne_nil := by simp [new, Fields.prepareOutput]
  tee := rfl
  output o ho := by
    have hmem : o ∈ (List.range' 1 (n + 2)).map fun i =>
        ({ pipe := .new i .childOutput } : BufferedPipe) := by
      simpa [new, Fields.prepareOutput] using ho
    obtain ⟨i, -, rfl⟩ := List.mem_map.mp hmem
    exact ⟨rfl, rfl, rfl⟩

lemma idle_runFrom (n : ℕ) (events : List Event) : (runFrom step (new (n + 2)) events).Idle :=
  invariant_of_runFrom (fun _ e h => h.step e) (idle_new n) events

lemma Idle.eventuallyFed_iff {c : Chain} (h : c.Idle) : c.EventuallyFed ↔ c.stream = [] := by
  have hidle : ∀ events : List Event, (runFrom Chain.step c events).Idle :=
    invariant_of_runFrom (fun _ e h => h.step e) h
  constructor
  · intro hfed
    obtain ⟨rest, hsilent, hfed⟩ := hfed [] (fun _ => List.not_mem_nil)
    rw [List.nil_append] at hfed
    rw [← hsilent.stream c]
    exact (hidle rest).fed_iff.mp hfed
  · intro hstream more hsilent
    refine ⟨[], fun _ => List.not_mem_nil, ?_⟩
    rw [List.append_nil]
    exact (hidle more).fed_iff.mpr ((hsilent.stream c).trans hstream)

/-- After any run of a tee with two outputs or more, the outputs can still hand over exactly the
stream of the first process, without a call that fails because of the direction of a pipe, exactly
when the first process wrote nothing. -/
theorem tee_feeds_iff (n : ℕ) (events : List Event) :
    (runFrom step (new (n + 2)) events).EventuallyFed ↔
      (runFrom step (new (n + 2)) events).stream = [] :=
  (idle_runFrom n events).eventuallyFed_iff

/-- The first process writes a byte for two next processes: it is never handed over. -/
theorem not_tee_feeds :
    ¬ ∀ events : List Event, (runFrom step (new 2) events).EventuallyFed := by
  intro h
  have hstream := (idle_runFrom 0 [.write ['x']]).eventuallyFed_iff.mp (h [.write ['x']])
  exact absurd hstream (by decide)

end Chain

end EventDispatcher.CppProcess
