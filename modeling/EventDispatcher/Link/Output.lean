import EventDispatcher.Buffer.Write
import EventDispatcher.Message.Cache

/-!
# Sending messages

The five message connections write the text of a message and a newline to their output buffer.
The two TCP classes send at once what they can; the classes of Unix streams and pipes, and the one
of file descriptors, only buffer.  Whatever the low level `write()` does and whatever
`process_empty_buffer()` sends, the bytes that were taken and those that are buffered are the
lines of the messages for which `send_message()` returned true (`Sender.Sound.performAll`).
-/

namespace EventDispatcher.Link

open Lib Buffer

/-! ### The output of the six classes -/

/-- `fd_connection::mode_t` -/
inductive FdMode where
  | read
  | write
  | readWrite
deriving DecidableEq, Repr

/-- The classes with an output buffer. -/
inductive OutputClass where
  /-- `tcp_client_buffer_connection` -/
  | tcpClient
  /-- `tcp_server_client_buffer_connection` -/
  | tcpServerClient
  /-- `local_stream_client_buffer_connection` -/
  | localStreamClient
  /-- `local_stream_server_client_buffer_connection` -/
  | localStreamServerClient
  /-- `pipe_buffer_connection` -/
  | pipe
  /-- `fd_buffer_connection` -/
  | fd (mode : FdMode)
deriving DecidableEq, Repr

namespace OutputClass

/-- The class with its input. -/
def bufferClass : OutputClass → BufferClass
  | tcpClient => .tcpClient
  | tcpServerClient => .tcpServerClient
  | localStreamClient => .localStreamClient
  | localStreamServerClient => .localStreamServerClient
  | pipe => .pipe
  | fd _ => .fd

/-- The first test of `write()`. -/
def accepts : OutputClass → Socket → Bool
  | tcpClient, s | tcpServerClient, s => BufferClass.tcpClient.validSocket s
  | localStreamClient, s | localStreamServerClient, s | pipe, s => BufferClass.pipe.validSocket s
  -- `fd_connection::is_writer()`
  | fd mode, s => BufferClass.fd.validSocket s && (mode ≠ .read && s.1 ≠ -1)

/-- `write()` of the classes that only buffer. -/
def bufferOnly (k : OutputClass) (s : Output) (data : Option Str) : Output × ℤ × Bool :=
  if k.accepts s.socket then
    let d := data.getD []
    if d ≠ [] then ({ s with output := s.output ++ d }, d.length, false)
    else (s, 0, s.output = [])
  else (s, -1, false)

/-- `write()` -/
def write (k : OutputClass) (s : Output) (data : Option Str) (w : WriteResult) :
    Output × ℤ × Bool :=
  match k with
  | tcpClient | tcpServerClient => s.write data w
  | localStreamClient | localStreamServerClient | pipe | fd _ => k.bufferOnly s data

/-- The class with the test for an error of `process_write()`. -/
def errorTest : OutputClass → WriteClass
  | tcpClient | localStreamClient => .tcpClient
  | tcpServerClient | localStreamServerClient | pipe | fd _ => .tcpServerClient

/-- `process_write()`: the classes have one body, behind their own check of the socket. -/
def processWrite (k : OutputClass) (s : Output) (w : WriteResult) : Output × Bool :=
  if k.bufferClass.validSocket s.socket then s.processWrite k.errorTest w else (s, false)

/-- What is buffered only is faithful. -/
lemma faithful_bufferOnly (k : OutputClass) {t : Session} (h : t.Faithful) (data : Option Str) :
    (t.wrote data (k.bufferOnly t.connection data).1
        (k.bufferOnly t.connection data).2.1).Faithful ∧
      ((k.bufferOnly t.connection data).2.2 = true →
        (t.wrote data (k.bufferOnly t.connection data).1
          (k.bufferOnly t.connection data).2.1).Empty) := by
  rw [bufferOnly]
  by_cases hsocket : k.accepts t.connection.socket = true
  · rw [if_pos hsocket]
    by_cases hd : data.getD [] = []
    · simp only [hd, ne_eq, not_true, if_false]
      have hrefused : (t.wrote data t.connection 0).Faithful := h.refused fun _ => hd
      exact ⟨hrefused, fun hs => hrefused.empty (of_decide_eq_true hs)⟩
    · simp only [ne_eq, hd, not_false_eq_true, if_true]
      exact ⟨h.cache hd, Session.not_of_eq_false⟩
  · rw [if_neg hsocket]
    have hrefused : -1 = ((data.getD []).length : ℤ) → data.getD [] = [] :=
      fun hr => absurd hr (by omega)
    exact ⟨h.refused hrefused, Session.not_of_eq_false⟩

lemma faithful_write (k : OutputClass) {t : Session} (h : t.Faithful) (data : Option Str)
    (w : WriteResult) :
    (t.wrote data (k.write t.connection data w).1 (k.write t.connection data w).2.1).Faithful ∧
      ((k.write t.connection data w).2.2 = true →
        (t.wrote data (k.write t.connection data w).1
          (k.write t.connection data w).2.1).Empty) := by
  cases k with
  | tcpClient => exact Session.faithful_write h data w
  | tcpServerClient => exact Session.faithful_write h data w
  | localStreamClient => exact faithful_bufferOnly _ h data
  | localStreamServerClient => exact faithful_bufferOnly _ h data
  | pipe => exact faithful_bufferOnly _ h data
  | fd mode => exact faithful_bufferOnly _ h data

lemma faithful_processWrite (k : OutputClass) {t : Session} (h : t.Faithful) (w : WriteResult) :
    Session.Faithful { t with connection := (k.processWrite t.connection w).1 } ∧
      ((k.processWrite t.connection w).2 = true →
        Session.Empty { t with connection := (k.processWrite t.connection w).1 }) := by
  rw [processWrite]
  split_ifs
  · exact Session.faithful_processWrite _ h w
  · exact ⟨h, False.elim⟩

/-- A connection that is open takes all that is written. -/
lemma result_write (k : OutputClass) {s : Output} (hsocket : k.accepts s.socket = true)
    {data : Str} (hdata : data ≠ []) (w : WriteResult) :
    (k.write s (some data) w).2.1 = data.length := by
  have hbuffer : (k.bufferOnly s (some data)).2.1 = data.length := by
    simp [bufferOnly, hsocket, hdata]
  have htcp (h : s.validSocket = true) : (s.write (some data) w).2.1 = data.length := by
    rw [Output.write, if_pos h]
    simp only [Option.getD_some, ne_eq, hdata, not_false_eq_true, if_true]
    split_ifs <;> rfl
  cases k with
  | tcpClient => exact htcp hsocket
  | tcpServerClient => exact htcp hsocket
  | localStreamClient => exact hbuffer
  | localStreamServerClient => exact hbuffer
  | pipe => exact hbuffer
  | fd mode => exact hbuffer

/-- What a call on the output side does to the connection: it keeps its socket, and nothing that the
socket took is taken back. -/
structure Frame (s s' : Output) : Prop where
  /-- The socket. -/
  socket : s'.socket = s.socket
  /-- The bytes that were sent. -/
  sent : s.sent <+: s'.sent

lemma Frame.rfl {s : Output} : Frame s s := ⟨Eq.refl _, List.prefix_rfl⟩

lemma frame_lowWrite (s : Output) (w : WriteResult) (bytes : Str) :
    Frame s (s.lowWrite w bytes).1 := ⟨Eq.refl _, List.prefix_append _ _⟩

lemma frame_bufferOnly (k : OutputClass) (s : Output) (data : Option Str) :
    Frame s (k.bufferOnly s data).1 := by
  rw [bufferOnly]
  dsimp only
  split_ifs
  · exact ⟨Eq.refl _, List.prefix_rfl⟩
  · exact .rfl
  · exact .rfl

lemma frame_tcpWrite (s : Output) (data : Option Str) (w : WriteResult) :
    Frame s (s.write data w).1 := by
  have hlow := frame_lowWrite s w (data.getD [])
  rw [Output.write]
  dsimp only
  split_ifs
  · exact hlow
  · exact ⟨hlow.socket, hlow.sent⟩
  · exact ⟨hlow.socket, hlow.sent⟩
  · exact ⟨Eq.refl _, List.prefix_rfl⟩
  · exact .rfl
  · exact .rfl

lemma frame_write (k : OutputClass) (s : Output) (data : Option Str) (w : WriteResult) :
    Frame s (k.write s data w).1 := by
  cases k with
  | tcpClient => exact frame_tcpWrite s data w
  | tcpServerClient => exact frame_tcpWrite s data w
  | localStreamClient => exact frame_bufferOnly _ s data
  | localStreamServerClient => exact frame_bufferOnly _ s data
  | pipe => exact frame_bufferOnly _ s data
  | fd mode => exact frame_bufferOnly _ s data

lemma frame_processWrite (k : OutputClass) (s : Output) (w : WriteResult) :
    Frame s (k.processWrite s w).1 := by
  have hlow := frame_lowWrite s w (s.output.drop s.position)
  rw [processWrite, Output.processWrite]
  dsimp only
  split_ifs
  · exact ⟨hlow.socket, hlow.sent⟩
  · exact ⟨hlow.socket, hlow.sent⟩
  · exact ⟨hlow.socket, hlow.sent⟩
  · exact hlow
  · exact .rfl
  · exact .rfl

end OutputClass

/-! ### The messages -/

/-- The sending side of a message connection: its output, and the messages. -/
structure Sender extends Session where
  /-- The messages for which `send_message()` returned true, in the order of their bytes. -/
  messages : List Message := []

/-- A call on the sending side, with the calls that `process_empty_buffer()` makes when it is
called. -/
inductive SendCall where
  /-- `send_message()` -/
  | sendMessage (msg : Message) (w : WriteResult) (nested : List SendCall)
  /-- `process_write()` -/
  | processWrite (w : WriteResult) (nested : List SendCall)

variable (S : Snapdev) (k : OutputClass)

/-- `buf`, the text of the message with a newline. -/
def buf (text : Str) : Str := text ++ ['\n']

mutual

/-- A call, with the calls it leads to. -/
def perform (s : Sender) : SendCall → Sender
  | .sendMessage msg w nested =>
    match msg.toString S with
    -- `to_message()` throws
    | .error _ => s
    | .ok (text, _) =>
      let (output, r, emptied) := k.write s.connection (some (buf text)) w
      let session := s.wrote (some (buf text)) output r
      let messages := if r = (buf text).length then s.messages ++ [msg] else s.messages
      if emptied then performAll { toSession := session.emptyBuffer, messages } nested
      else { toSession := session, messages }
  | .processWrite w nested =>
    let (output, emptied) := k.processWrite s.connection w
    let session := { s.toSession with connection := output }
    if emptied then performAll { s with toSession := session.emptyBuffer } nested
    else { s with toSession := session }

/-- The calls one after the other. -/
def performAll (s : Sender) : List SendCall → Sender
  | [] => s
  | call :: calls => performAll (perform s call) calls

end

/-- The message goes on one line: its names are valid, and its text, once it is there, is the one
of its fields. -/
structure OneLine (msg : Message) : Prop where
  /-- The names. -/
  names : msg.ValidNames
  /-- The text. -/
  text : msg.TextCoherent S

mutual

/-- The messages of a call go on one line. -/
def SendCall.OneLine : SendCall → Prop
  | .sendMessage msg _ nested => Link.OneLine S msg ∧ SendCall.AllOneLine nested
  | .processWrite _ nested => SendCall.AllOneLine nested

/-- The messages of some calls go on one line. -/
def SendCall.AllOneLine : List SendCall → Prop
  | [] => True
  | call :: calls => call.OneLine ∧ SendCall.AllOneLine calls

end

/-- The invariant: the bytes that were accepted are the lines of the messages. -/
structure Sender.Sound (s : Sender) : Prop where
  /-- The output is a faithful stream. -/
  faithful : s.Faithful
  /-- The bytes. -/
  accepted : s.accepted = (s.messages.map fun msg => buf (msg.text S)).flatten
  /-- The messages have a command. -/
  command : ∀ msg ∈ s.messages, msg.command ≠ []
  /-- The messages go on one line. -/
  oneLine : ∀ msg ∈ s.messages, OneLine S msg

variable {S k}

/-- The text that `to_message()` returns is the one of the fields. -/
lemma OneLine.toString_eq {msg m' : Message} {text : Str} (h : OneLine S msg)
    (ht : msg.toString S = .ok (text, m')) : text = msg.text S ∧ msg.command ≠ [] := by
  rw [Message.toString] at ht
  split_ifs at ht with hcached hcommand
  · cases ht
    exact ⟨rfl, hcommand⟩
  · cases ht
    rcases h.text with h | ⟨hcommand, h⟩
    · exact absurd h hcached
    · exact ⟨h, hcommand⟩

lemma buf_ne_nil (text : Str) : buf text ≠ [] :=
  List.append_ne_nil_of_right_ne_nil _ (List.cons_ne_nil _ _)

/-- `process_empty_buffer()` is called when nothing is left to send. -/
lemma Sender.Sound.emptyBuffer {s : Sender} (h : s.Sound S) (hempty : s.Empty) :
    Sender.Sound S { s with toSession := s.emptyBuffer } :=
  ⟨hempty.emptyBuffer, h.accepted, h.command, h.oneLine⟩

/-- What `send_message()` does before `process_empty_buffer()` is called: `r` is the result of
`write()`. -/
lemma Sender.Sound.wrote {s : Sender} (h : s.Sound S) {msg : Message} (hmsg : OneLine S msg)
    (hcommand : msg.command ≠ []) {output : Output} {r : ℤ}
    (hfaithful : (s.wrote (some (buf (msg.text S))) output r).Faithful) :
    Sender.Sound S
      { toSession := s.wrote (some (buf (msg.text S))) output r
        messages := if r = (buf (msg.text S)).length then s.messages ++ [msg]
          else s.messages } := by
  by_cases hr : r = (buf (msg.text S)).length
  · rw [if_pos hr]
    refine ⟨hfaithful, ?_, fun m hm => ?_, fun m hm => ?_⟩
    · rw [Session.wrote, Option.getD_some, if_pos hr, h.accepted]
      simp
    · rcases List.mem_append.mp hm with hm | hm
      · exact h.command m hm
      · rwa [List.mem_singleton.mp hm]
    · rcases List.mem_append.mp hm with hm | hm
      · exact h.oneLine m hm
      · rwa [List.mem_singleton.mp hm]
  · rw [if_neg hr]
    refine ⟨hfaithful, ?_, h.command, h.oneLine⟩
    rw [Session.wrote, Option.getD_some, if_neg hr, List.append_nil, h.accepted]

mutual

/-- **A call keeps the lines**, with the calls it leads to. -/
lemma Sender.Sound.perform {s : Sender} (h : s.Sound S) :
    (call : SendCall) → call.OneLine S → (perform S k s call).Sound S
  | .sendMessage msg w nested, hcall => by
    rw [SendCall.OneLine] at hcall
    rw [Link.perform]
    cases htext : msg.toString S with
    | error e => exact h
    | ok r =>
      obtain ⟨text, m'⟩ := r
      obtain ⟨rfl, hcommand⟩ := hcall.1.toString_eq htext
      obtain ⟨hfaithful, hempty⟩ := k.faithful_write h.faithful (some (buf (msg.text S))) w
      have hsound := h.wrote hcall.1 hcommand hfaithful
      dsimp only
      by_cases hemptied : (k.write s.connection (some (buf (msg.text S))) w).2.2 = true
      · rw [if_pos hemptied]
        exact (hsound.emptyBuffer (hempty hemptied)).performAll nested hcall.2
      · rw [if_neg hemptied]
        exact hsound
  | .processWrite w nested, hcall => by
    rw [SendCall.OneLine] at hcall
    rw [Link.perform]
    obtain ⟨hfaithful, hempty⟩ := k.faithful_processWrite h.faithful w
    have hsound : Sender.Sound S { s with
        toSession := { s.toSession with connection := (k.processWrite s.connection w).1 } } :=
      ⟨hfaithful, h.accepted, h.command, h.oneLine⟩
    dsimp only
    split_ifs with hemptied
    · exact (hsound.emptyBuffer (hempty hemptied)).performAll nested hcall
    · exact hsound

/-- The calls one after the other. -/
lemma Sender.Sound.performAll {s : Sender} (h : s.Sound S) :
    (calls : List SendCall) → SendCall.AllOneLine S calls → (performAll S k s calls).Sound S
  | [], _ => h
  | call :: calls, hcalls => by
    rw [SendCall.AllOneLine] at hcalls
    exact (h.perform call hcalls.1).performAll calls hcalls.2

end

mutual

/-- The bytes on the way stay on the way. -/
lemma sent_perform (s : Sender) :
    (call : SendCall) → s.connection.sent <+: (perform S k s call).connection.sent
  | .sendMessage msg w nested => by
    rw [perform]
    cases msg.toString S with
    | error e => exact List.prefix_rfl
    | ok r =>
      have hsent := (k.frame_write s.connection (some (buf r.1)) w).sent
      dsimp only
      by_cases hemptied : (k.write s.connection (some (buf r.1)) w).2.2 = true
      · rw [if_pos hemptied]
        exact List.IsPrefix.trans (by exact hsent) (sent_performAll _ nested)
      · rw [if_neg hemptied]
        exact hsent
  | .processWrite w nested => by
    rw [perform]
    have hsent := (k.frame_processWrite s.connection w).sent
    dsimp only
    split_ifs
    · exact List.IsPrefix.trans (by exact hsent) (sent_performAll _ nested)
    · exact hsent

lemma sent_performAll (s : Sender) :
    (calls : List SendCall) → s.connection.sent <+: (performAll S k s calls).connection.sent
  | [] => List.prefix_rfl
  | call :: calls => (sent_perform s call).trans (sent_performAll _ calls)

end

end EventDispatcher.Link
