import EventDispatcher.Link.Output
import EventDispatcher.Message.Accept

/-!
# Messages from one end of a link to the other

One end sends messages, the kernel carries the bytes that the socket took, and the other end reads
them in chunks, finds the lines and dispatches the message of each line.  Whatever is sent, written
and read in whatever order, the messages arrive once each and in order (`delivers_runFrom`): the
link is a queue of messages, and a message that cannot be read back is the only one that is lost.
-/

namespace EventDispatcher.Link

open Lib Buffer

/-- What the kernel does at a `read()`. -/
inductive ReadAnswer where
  /-- It gives at most so many bytes. -/
  | bytes (count : ℕ)
  /-- It returns zero. -/
  | zero
  /-- It fails. -/
  | failed (errno : ℕ)

/-- What the loop of `process_read()` meets from one `read()` to the next. -/
structure Arrival where
  /-- The answer of the kernel. -/
  answer : ReadAnswer
  /-- `get_event_limit()`, when the lines are processed -/
  eventLimit : UInt8
  /-- `get_current_date()`, then -/
  now : Int64

/-- The result of a `read()`: some bytes of the `wire`, 1024 at most, and `EAGAIN` when there are
none. -/
def ReadAnswer.result (wire : Str) : ReadAnswer → ReadResult
  | bytes count =>
    if h : (wire.take count).take 1024 = [] then .failed eagain
    else .data ⟨(wire.take count).take 1024, h, by simp⟩
  | zero => .zero
  | failed errno => .failed errno

/-- What the loop sees of the bytes on the wire. -/
def readings (wire : Str) : List Arrival → List Reading
  | [] => []
  | a :: arrivals =>
    ⟨a.answer.result wire, a.eventLimit, a.now⟩ ::
      readings (wire.drop (a.answer.result wire).bytes.length) arrivals

/-- One direction of a link between two message connections. -/
structure Direction where
  /-- The end that sends. -/
  sender : Sender
  /-- The bytes that the socket of the sender took and that were not read yet. -/
  wire : Str := []
  /-- The end that receives, with the strings passed to `process_line()`. -/
  input : Input (List Str) := { object := [] }

/-- What can happen, in any order. -/
inductive Action where
  /-- A call on the sending end. -/
  | send (call : SendCall)
  /-- `process_read()` of the receiving end. -/
  | processRead (socket : Socket) (date : Int64) (processingTimeLimit : Int32)
    (arrivals : List Arrival)

/-- The messages that an action sends go on one line. -/
def Action.OneLine (S : Snapdev) : Action → Prop
  | send call => call.OneLine S
  | processRead .. => True

/-- `process_line()`: the message that is dispatched for a line, if there is one. -/
def processLine (S : Snapdev) (J : JsonTokens) (line : Str) : Option Message :=
  if line = [] then none
  else
    match ({} : Message).fromMessage S J line with
    | (true, msg) => some msg
    | (false, _) => none

namespace Direction

/-- The two ends before anything is sent. -/
def start (socket : Socket) (nonBlocking : Bool) : Direction :=
  { sender := { connection := { socket, nonBlocking } } }

/-- The sending end did something: the bytes that its socket took go on the wire. -/
def sends (l : Direction) (s : Sender) : Direction :=
  { l with
    sender := s
    wire := l.wire ++ s.connection.sent.drop l.sender.connection.sent.length }

/-- The bytes of the readings that a call used are not on the wire anymore. -/
def reads (l : Direction) (call : ReadCall) (unused : List Reading) (input : Input (List Str)) :
    Direction :=
  { l with
    wire := l.wire.drop
      (bytesOf (call.readings.take (call.readings.length - unused.length))).length
    input }

/-- A call of `process_read()`, with what the kernel does. -/
def readCall (l : Direction) (socket : Socket) (date : Int64) (processingTimeLimit : Int32)
    (arrivals : List Arrival) : ReadCall :=
  ⟨socket, date, processingTimeLimit, readings l.wire arrivals⟩

/-- One action, `k` being the class of the sending end and `k'` the one of the receiving end, whose
`process_line()` returns. -/
def step (S : Snapdev) (k : OutputClass) (k' : BufferClass) (l : Direction) : Action → Direction
  | .send call => l.sends (perform S k l.sender call)
  | .processRead socket date processingTimeLimit arrivals =>
    let call := l.readCall socket date processingTimeLimit arrivals
    let r := k'.readCall record l.input call
    l.reads call r.unused r.input

/-- The messages that were given to `dispatch_message()`, in order. -/
def dispatched (S : Snapdev) (J : JsonTokens) (l : Direction) : List Message :=
  l.input.processed.filterMap (processLine S J)

end Direction

/-- The message comes back as it is: its values are safe and can be read to their end, and it does
not name a server only. -/
structure Readable (S : Snapdev) (msg : Message) : Prop where
  /-- The destination. -/
  destination : msg.server ≠ [] → msg.service ≠ []
  /-- The values have no NUL. -/
  noNul : ∀ p ∈ msg.parameters.entries, nul ∉ p.2
  /-- The values are safe. -/
  safe : TextSafe S msg.toFields

/-- **The link is a queue of messages.** -/
structure Delivers (S : Snapdev) (J : JsonTokens) (l : Direction) : Prop where
  /-- The lines that were processed are the texts of the first messages. -/
  lines : l.input.processed <+: l.sender.messages.map fun msg => msg.text S
  /-- The messages that were dispatched are those of the first messages whose text is accepted. -/
  dispatched : l.dispatched S J <+: l.sender.messages.filterMap fun msg =>
    processLine S J (msg.text S)
  /-- Messages that can be read arrive as they were sent. -/
  readable : (∀ msg ∈ l.sender.messages, Readable S msg) →
    (l.dispatched S J).map Message.toFields =
      (l.sender.messages.take l.input.processed.length).map Message.toFields
  /-- They have all arrived when nothing is buffered or on the wire. -/
  all : l.sender.connection.output = [] → l.wire = [] →
    l.input.line = [] ∧ l.input.processed = l.sender.messages.map fun msg => msg.text S

/-! ### The bytes that are read are those on the wire -/

lemma isPrefix_bytes_result (wire : Str) (a : ReadAnswer) : (a.result wire).bytes <+: wire := by
  cases a with
  | bytes count =>
    rw [ReadAnswer.result]
    split_ifs
    · exact List.nil_prefix
    · exact (List.take_prefix _ _).trans (List.take_prefix _ _)
  | zero => exact List.nil_prefix
  | failed errno => exact List.nil_prefix

/-- The bytes of the readings are those of the wire, from its start on. -/
lemma isPrefix_bytesOf_readings (wire : Str) (arrivals : List Arrival) :
    bytesOf (readings wire arrivals) <+: wire := by
  induction arrivals generalizing wire with
  | nil => exact List.nil_prefix
  | cons a arrivals ih =>
    obtain ⟨rest, hrest⟩ := isPrefix_bytes_result wire a.answer
    have hnext := ih (wire.drop (a.answer.result wire).bytes.length)
    rw [readings, bytesOf_cons]
    generalize (a.answer.result wire).bytes = b at hrest hnext ⊢
    rw [← hrest, List.drop_left] at hnext ⊢
    exact (List.prefix_append_right_inj _).mpr hnext

/-- A call takes the bytes of its readings off the wire. -/
lemma Direction.append_wire_reads {l : Direction} {socket : Socket} {date : Int64}
    {processingTimeLimit : Int32} {arrivals : List Arrival} {used unused : List Reading}
    (hused : (l.readCall socket date processingTimeLimit arrivals).readings = used ++ unused)
    (input : Input (List Str)) :
    bytesOf used ++ (l.reads (l.readCall socket date processingTimeLimit arrivals) unused
      input).wire = l.wire := by
  have htake : (l.readCall socket date processingTimeLimit arrivals).readings.take
      ((l.readCall socket date processingTimeLimit arrivals).readings.length - unused.length) =
        used := by
    rw [hused, List.length_append, Nat.add_sub_cancel, List.take_left]
  have hall := isPrefix_bytesOf_readings l.wire arrivals
  change bytesOf (l.readCall socket date processingTimeLimit arrivals).readings <+: l.wire at hall
  have happend : bytesOf (used ++ unused) = bytesOf used ++ bytesOf unused := by
    rw [bytesOf, List.map_append, List.flatten_append]
    rfl
  rw [hused, happend] at hall
  obtain ⟨rest, hrest⟩ := (List.prefix_append _ _).trans hall
  rw [Direction.reads]
  simp only [htake]
  rw [← hrest, List.drop_left]

/-! ### The text of a message is read as one -/

lemma brace_notMem {name : Str} (h : ValidDestination name) : '\x7b' ∉ name := by
  rcases h with h | rfl | rfl | rfl
  · exact h.notMem (by decide)
  · decide
  · decide
  · decide

lemma text_ne_nil {S : Snapdev} {f : Fields} (hcmd : f.command ≠ []) : f.text S ≠ [] := by
  rw [Fields.text]
  exact List.append_ne_nil_of_right_ne_nil _
    (List.append_ne_nil_of_right_ne_nil _ (List.append_ne_nil_of_left_ne_nil hcmd _))

/-- The text of a message is not taken for JSON. -/
lemma head?_text_ne {S : Snapdev} {f : Fields} (hf : f.ValidNames) (hcmd : f.command ≠ []) :
    (f.text S).head? ≠ some '\x7b' := by
  have hcommand : '\x7b' ∉ f.command := hf.command.notMem (by decide)
  have hdestination : '\x7b' ∉ f.destinationText := by
    have hserver : '\x7b' ∉ f.server := brace_notMem (hf.names .server)
    have hservice : '\x7b' ∉ f.service := brace_notMem (hf.names .service)
    rw [Fields.destinationText]
    split_ifs <;> simp [hserver, hservice]
  obtain ⟨c, cs, hc⟩ := List.exists_cons_of_ne_nil hcmd
  rw [Fields.text, Fields.sentFromText]
  split_ifs
  · simp
  · rw [List.nil_append, hc]
    rw [hc] at hcommand
    cases hd : f.destinationText with
    | nil => simpa using fun h : c = '\x7b' => hcommand (h ▸ List.mem_cons_self)
    | cons d ds =>
      rw [hd] at hdestination
      simpa using fun h : d = '\x7b' => hdestination (h ▸ List.mem_cons_self)

/-- `from_message()` reads the text of a message like `from_string()`. -/
lemma parseMessage_text {S : Snapdev} (J : JsonTokens) {f : Fields} (hf : f.ValidNames)
    (hcmd : f.command ≠ []) : parseMessage S J (f.text S) = parseString S (f.text S) := by
  have htrimmed := Fields.trimString_text (S := S) hf hcmd
  have hne : S.trimString (f.text S) ≠ [] := by
    rw [htrimmed]
    exact text_ne_nil hcmd
  have hhead : (S.trimString (f.text S)).head? ≠ some '\x7b' := by
    rw [htrimmed]
    exact head?_text_ne hf.trimmed hcmd
  rw [parseMessage]
  simp only [if_neg hne, if_neg hhead]
  rw [parseString, parseString, S.trimString_trimString]

/-- A message that can be read comes back with its fields. -/
lemma processLine_text {S : Snapdev} (J : JsonTokens) {msg : Message} (hnames : msg.ValidNames)
    (hcmd : msg.command ≠ []) (h : Readable S msg) :
    processLine S J (msg.text S) = some { toFields := msg.toFields } := by
  have hparse : parseMessage S J (msg.text S) = some msg.toFields :=
    (parseMessage_text J hnames hcmd).trans
      ((parseString_text_eq_some_iff hnames hcmd h.destination h.noNul).mpr h.safe)
  rw [processLine, if_neg (text_ne_nil hcmd), fromMessage_eq, hparse]

/-- Messages that can be read all come back. -/
lemma map_filterMap_processLine {S : Snapdev} (J : JsonTokens) {messages : List Message}
    (h : ∀ msg ∈ messages, msg.ValidNames ∧ msg.command ≠ [] ∧ Readable S msg) :
    (messages.filterMap fun msg => processLine S J (msg.text S)).map Message.toFields =
      messages.map Message.toFields := by
  induction messages with
  | nil => rfl
  | cons msg messages ih =>
    obtain ⟨hnames, hcmd, hreadable⟩ := h msg List.mem_cons_self
    rw [List.filterMap_cons, processLine_text J hnames hcmd hreadable, List.map_cons, List.map_cons,
      ih fun m hm => h m (List.mem_cons_of_mem _ hm)]

/-! ### The invariant -/

/-- The invariant of a direction: the sending end is sound, and the bytes that its socket took are
those whose lines were processed and those on the wire. -/
structure Direction.Sound (S : Snapdev) (l : Direction) : Prop where
  /-- The sending end. -/
  sender : l.sender.Sound S
  /-- The bytes. -/
  bytes : ∃ received, received ++ l.wire = l.sender.connection.sent ∧
    Framed '\n' received l.input.processed l.input.line

lemma Direction.sound_start (S : Snapdev) (socket : Socket) (nonBlocking : Bool) :
    (Direction.start socket nonBlocking).Sound S where
  sender := {
    faithful := .new rfl rfl rfl
    accepted := rfl
    command := fun _ h => absurd h List.not_mem_nil
    oneLine := fun _ h => absurd h List.not_mem_nil }
  bytes := ⟨[], rfl, .of_notMem List.not_mem_nil⟩

/-- **What the socket takes** goes on the wire. -/
lemma Direction.Sound.sends {S : Snapdev} {l : Direction} (h : l.Sound S) {s : Sender}
    (hs : s.Sound S) (hsent : l.sender.connection.sent <+: s.connection.sent) :
    (l.sends s).Sound S := by
  obtain ⟨received, hbytes, hframed⟩ := h.bytes
  obtain ⟨new, hnew⟩ := hsent
  refine ⟨hs, received, ?_, hframed⟩
  rw [Direction.sends]
  simp only [← hnew, List.drop_left]
  rw [← List.append_assoc, hbytes]

/-- **What is read** comes off the wire, and its lines are processed. -/
lemma Direction.Sound.reads {S : Snapdev} {l : Direction} (h : l.Sound S) {socket : Socket}
    {date : Int64} {processingTimeLimit : Int32} {arrivals : List Arrival}
    {used unused : List Reading} {lines : List Str} {input : Input (List Str)}
    (hused : (l.readCall socket date processingTimeLimit arrivals).readings = used ++ unused)
    (hframed : Framed '\n' (l.input.line ++ bytesOf used) lines input.line)
    (hprocessed : input.processed = l.input.processed ++ lines) :
    (l.reads (l.readCall socket date processingTimeLimit arrivals) unused input).Sound S := by
  obtain ⟨received, hbytes, hreceived⟩ := h.bytes
  refine ⟨h.sender, received ++ bytesOf used, ?_, ?_⟩
  · rw [List.append_assoc, append_wire_reads hused]
    exact hbytes
  · change Framed '\n' _ input.processed input.line
    rw [hprocessed]
    exact hreceived.append hframed

/-- **One action keeps the invariant.** -/
lemma Direction.Sound.step {S : Snapdev} {l : Direction} (h : l.Sound S) (k : OutputClass)
    (k' : BufferClass) {a : Action} (ha : a.OneLine S) : (l.step S k k' a).Sound S := by
  cases a with
  | send call => exact h.sends (h.sender.perform call ha) (sent_perform l.sender call)
  | processRead socket date processingTimeLimit arrivals =>
    obtain ⟨received, -, hreceived⟩ := h.bytes
    obtain ⟨lines, hreads⟩ := readCall_spec k'
      (l.readCall socket date processingTimeLimit arrivals) hreceived.tail
      (thrown_readCall returns_record ..)
    exact h.reads hreads.readings hreads.feeds.framed
      (hreads.feeds.object.trans (callAll_record _ _))

/-- What the invariant gives. -/
lemma Direction.Sound.delivers {S : Snapdev} {l : Direction} (h : l.Sound S) (J : JsonTokens) :
    Delivers S J l := by
  have hframed : Framed '\n' l.sender.accepted
      (l.sender.messages.map fun msg => msg.text S) [] := by
    rw [h.sender.accepted]
    have hlines : ∀ t ∈ l.sender.messages.map fun msg => msg.text S, '\n' ∉ t := by
      intro t ht
      obtain ⟨msg, hmsg, rfl⟩ := List.mem_map.mp ht
      exact (Fields.text_single_line (h.sender.oneLine msg hmsg).names).1
    have := Framed.of_lines hlines
    rwa [List.map_map] at this
  obtain ⟨received, hbytes, hreceived⟩ := h.bytes
  have hsent : received <+: l.sender.accepted := by
    rw [← h.sender.faithful.bytes, ← hbytes, List.append_assoc]
    exact List.prefix_append _ _
  have hlines := hreceived.isPrefix hframed hsent
  have htake : l.input.processed =
      (l.sender.messages.take l.input.processed.length).map fun msg => msg.text S := by
    rw [List.map_take]
    exact List.prefix_iff_eq_take.mp hlines
  refine ⟨hlines, ?_, fun hreadable => ?_, fun houtput hwire => ?_⟩
  · have := hlines.filterMap (processLine S J)
    rwa [List.filterMap_map] at this
  · have hmessages : ∀ msg ∈ l.sender.messages.take l.input.processed.length,
        msg.ValidNames ∧ msg.command ≠ [] ∧ Readable S msg := by
      intro msg hmsg
      have hmem := List.mem_of_mem_take hmsg
      exact ⟨(h.sender.oneLine msg hmem).names, h.sender.command msg hmem, hreadable msg hmem⟩
    rw [← map_filterMap_processLine J hmessages, Direction.dispatched]
    conv_lhs => rw [htake, List.filterMap_map]
    rfl
  · have hall := h.sender.faithful.bytes
    rw [houtput, List.drop_nil, List.append_nil, ← hbytes, hwire, List.append_nil] at hall
    obtain ⟨hprocessed, hline⟩ := (hall ▸ hreceived).unique hframed
    exact ⟨hline, hprocessed⟩

/-- **Messages arrive once each, in order**, in any run: whatever the two ends are, the socket takes
and gives, `process_empty_buffer()` sends, and the limits cut. -/
theorem delivers_runFrom (S : Snapdev) (J : JsonTokens) (k : OutputClass) (k' : BufferClass)
    (socket : Socket) (nonBlocking : Bool) (actions : List Action)
    (h : ∀ a ∈ actions, a.OneLine S) :
    Delivers S J
      (runFrom (Direction.step S k k') (Direction.start socket nonBlocking) actions) := by
  have hstep : ∀ (l : Direction) (a : Action), l.Sound S → a.OneLine S →
      (Direction.step S k k' l a).Sound S := fun _ _ hl ha => hl.step k k' ha
  exact ((invariant_of_visited hstep (Direction.sound_start S socket nonBlocking)
    fun p hp => h p.2 (mem_of_mem_visited hp)).2).delivers J

/-- The socket of the end that receives. -/
def farSocket : Socket := ⟨6, by decide⟩

/-- A message whose first three bytes are taken and read before the others. -/
def partialRun : List Action :=
  [.send (.sendMessage (Message.oneParameter [] ['G'] ['p'] [';', '\n']) ⟨some 3, 0⟩ []),
    .processRead farSocket 0 1000 [⟨.bytes 2, 5, 0⟩],
    .send (.processWrite ⟨some 100, 0⟩ []),
    .processRead farSocket 0 1000 [⟨.bytes 100, 5, 0⟩, ⟨.failed eagain, 5, 0⟩]]

theorem delivers_runFrom_partial :
    (runFrom (Direction.step .standard .tcpClient .tcpServerClient)
      (Direction.start openSocket true) partialRun).input.processed =
        ["G p=\";\\n\"".toList] := by
  have hbuilt : Message.Built .standard (Message.oneParameter [] ['G'] ['p'] [';', '\n']) :=
    Message.built_oneParameter (by decide) (by decide) (by decide)
  have honeLine : ∀ a ∈ partialRun, a.OneLine .standard := by
    intro a ha
    simp only [partialRun, List.mem_cons, List.not_mem_nil, or_false] at ha
    rcases ha with rfl | rfl | rfl | rfl
    · exact ⟨⟨hbuilt.wellFormed.validNames, .inl hbuilt.caches.1⟩, trivial⟩
    · trivial
    · trivial
    · trivial
  have hdelivers := delivers_runFrom .standard .standard .tcpClient .tcpServerClient
    openSocket true partialRun honeLine
  refine (hdelivers.all (by decide +kernel) (by decide +kernel)).2.trans ?_
  decide +kernel

end EventDispatcher.Link
