import EventDispatcher.Link.Output
import EventDispatcher.Lib.Run

/-!
# Permanent connections

`tcp_client_permanent_message_connection` is a timer that connects, and connects again when the
connection is lost.  Its *messenger* is the connection to the server while there is one; messages
that are sent in between wait in a cache, which is flushed when the next attempt succeeds.  An
attempt is made by the timer callback itself, or by a thread whose end is signalled through a
pipe.  `Link` is the state that decides whether the connection comes back, `Connection` adds the
messengers and the cache.  The calls that the callbacks of the user make are part of the events; an
exception of `to_message()` leaves the calls it is thrown in.  `History` is a connection with the
messages that `send_message()` took from its users.
-/

namespace EventDispatcher.Permanent

open Lib Buffer

/-! ### The connection -/

/-- The background thread. -/
inductive ThreadState where
  /-- It was not started yet, or it was joined. -/
  | idle
  /-- It tries to connect. -/
  | running
  /-- It signalled its end and was not joined yet. -/
  | ended
deriving DecidableEq, Repr

/-- What decides whether the connection comes back. -/
structure Link where
  /-- `f_use_thread` -/
  useThread : Bool
  /-- `is_done()` of the timer -/
  done : Bool := false
  /-- `is_enabled()` of the timer -/
  enabled : Bool := true
  /-- Whether the permanent connection is in the communicator. -/
  listed : Bool := true
  /-- `f_done` of the implementation -/
  implDone : Bool := false
  /-- `f_messenger`, as a number -/
  messenger : Option ℕ := none
  /-- The messengers that are in the communicator. -/
  messengers : List ℕ := []
  /-- The messengers that are marked done. -/
  marked : List ℕ := []
  /-- `f_thread` -/
  thread : ThreadState := .idle
  /-- Whether `f_tcp_connection` of the runner is set. -/
  client : Bool := false
  /-- Whether `f_thread_done` is in the communicator. -/
  signal : Bool := false
  /-- The bytes in the pipe of `f_thread_done`. -/
  signalled : ℕ := 0
deriving DecidableEq

namespace Link

/-- `tcp_client_permanent_message_connection_impl::disconnect()` -/
def disconnect (s : Link) : Link :=
  match s.messenger with
  | none => s
  | some i =>
    { s with messengers := s.messengers.filter (· ≠ i), messenger := none, client := false }

/-- `remove_from_communicator()` of the permanent connection, which calls
`connection_removed()`. -/
def removeFromCommunicator (s : Link) : Link :=
  if s.listed then { s with listed := false }.disconnect else s

/-- The default `process_empty_buffer()` of the permanent connection. -/
def processEmptyBuffer (s : Link) : Link :=
  if s.done then s.removeFromCommunicator else s

/-- `process_empty_buffer()` of a messenger, before it calls the one of its parent. -/
def messengerEmptyBuffer (s : Link) (i : ℕ) : Link :=
  if i ∈ s.marked then { s with messengers := s.messengers.filter (· ≠ i) } else s

/-- `process_error()`, `process_hup()` and `process_invalid()` of the permanent connection. -/
def processLost (s : Link) : Link :=
  if s.done then s.removeFromCommunicator else { s.disconnect with enabled := true }

/-- The same callbacks of a messenger: it leaves the communicator, and its parent is told. -/
def messengerLost (s : Link) (i : ℕ) : Link :=
  { s with messengers := s.messengers.filter (· ≠ i) }.processLost

/-- `mark_done()`, with the flag of the messenger. -/
def markDone (s : Link) (messenger : Bool) : Link :=
  let s := { s with done := true }
  if messenger then
    { s with implDone := true, marked := s.marked ++ s.messenger.toList }
  else s

/-- The thread ends its attempt: it keeps the client, and writes to the pipe. -/
def attemptEnds (s : Link) (succeeds : Bool) : Link :=
  if s.thread = .running then
    { s with thread := .ended, client := succeeds, signalled := s.signalled + 1 }
  else s

/-- `f_thread.stop()`: waits for the attempt, whose outcome is `succeeds`, and joins the thread. -/
def stop (s : Link) (succeeds : Bool) : Link :=
  { s.attemptEnds succeeds with thread := .idle }

/-- `background_connect()`.  `isRunning` is what `is_running()` says of a thread that has signalled
its end, `started` whether the thread starts. -/
def backgroundConnect (s : Link) (isRunning started : Bool) : Link × Bool :=
  if s.implDone then (s, false)
  else if s.thread = .running ∨ (s.thread = .ended ∧ isRunning) then (s, false)
  else
    let s := { s with signal := true }
    if started then ({ s with thread := .running }, true) else (s, false)

end Link

/-- A messenger: its output, and its messages. -/
structure Messenger (M : Type) extends Output where
  /-- The messages for which its `send_message()` returned true, in order. -/
  messages : List M := []

/-- A permanent connection. -/
structure Connection (M : Type) extends Link where
  /-- `f_message_cache` -/
  cache : List M := []
  /-- Each messenger, by its number. -/
  outputs : List (Messenger M) := []
  /-- Whether a null `f_messenger` was used, or an empty cache erased. -/
  undefined : Bool := false

/-- A permanent connection, and the messages that its users gave it. -/
structure History (M : Type) extends Connection M where
  /-- The messages that `send_message()` took, in the order of the calls. -/
  accepted : List M := []

/-- What the user calls.  `onEmpty` are the calls of `process_empty_buffer()` of the permanent
connection, when the call leads to it. -/
inductive Call (M : Type) where
  /-- `send_message()`, with the result of the low level `write()` -/
  | sendMessage (msg : M) (cache : Bool) (w : WriteResult) (onEmpty : List (Call M))
  /-- `disconnect()` -/
  | disconnect
  /-- `mark_done()` -/
  | markDone (messenger : Bool)
  /-- The default `process_empty_buffer()`. -/
  | processEmptyBuffer

/-- What happens when a cached message is sent: the result of the low level `write()`, and the
calls of `process_empty_buffer()`. -/
structure Reply (M : Type) where
  /-- The low level `write()`. -/
  write : WriteResult
  /-- The calls. -/
  onEmpty : List (Call M)

instance {M : Type} : Inhabited (Reply M) := ⟨⟨⟨none, eagain⟩, [.processEmptyBuffer]⟩⟩

/-- What happens at the end of an attempt. -/
structure Attempt (M : Type) where
  /-- Whether it succeeds. -/
  succeeds : Bool
  /-- What happens to each of the cached messages. -/
  replies : List (Reply M) := []
  /-- What `process_connected()` of the user does after the default one. -/
  onConnected : List (Call M) := []
  /-- What `process_connection_failed()` of the user does after the default one. -/
  onFailed : List (Call M) := []

variable {M : Type} (toMessage : M → Option Str)

/-- `send_message()` of a messenger of class `k`: `none` when `to_message()` throws, else what it
returns, and whether it calls `process_empty_buffer()` before that. -/
def Messenger.sendMessage (k : Link.OutputClass) (p : Messenger M) (msg : M) (w : WriteResult) :
    Messenger M × Option (Bool × Bool) :=
  match toMessage msg with
  | none => (p, none)
  | some text =>
    let (o, r, emptied) := k.write p.toOutput (some (Link.buf text)) w
    let result := decide (r = (Link.buf text).length)
    let messages := if result then p.messages ++ [msg] else p.messages
    ({ toOutput := o, messages := messages }, some (result, emptied))

/-- `close()` -/
def Messenger.close (p : Messenger M) : Messenger M := { p with socket := ⟨-1, by decide⟩ }

namespace Connection

/-- The messages handed to the messengers, in order. -/
def handed (s : Connection M) : List M := s.outputs.flatMap fun p => p.messages

/-- `send_message()` of messenger `i`. -/
def handOver (k : Link.OutputClass) (s : Connection M) (i : ℕ) (msg : M) (w : WriteResult) :
    Connection M × Option (Bool × Bool) :=
  match s.outputs[i]? with
  | none => (s, none)
  | some p =>
    let (p, r) := p.sendMessage toMessage k msg w
    ({ s with outputs := s.outputs.set i p }, r)

/-- `send_message()`: `none` when an exception leaves it, else what it returns, and the messenger
whose `process_empty_buffer()` is called before that. -/
def sendMessage (s : Connection M) (msg : M) (cache : Bool) (w : WriteResult) :
    Connection M × Option (Bool × Option ℕ) :=
  match s.messenger with
  | some i =>
    let (s, r) := s.handOver toMessage .tcpServerClient i msg w
    (s, r.map fun q => (q.1, if q.2 then some i else none))
  | none =>
    (if cache ∧ ¬ s.implDone then { s with cache := s.cache ++ [msg] } else s, some (false, none))

/-- The callbacks of messenger `i` for a lost connection; `process_hup()` closes its socket. -/
def messengerLost (s : Connection M) (i : ℕ) (hup : Bool) : Connection M :=
  { s with
    toLink := s.toLink.messengerLost i
    outputs := if hup then s.outputs.modify i Messenger.close else s.outputs }

end Connection

/-- A new messenger for a socket that was just connected. -/
def newMessenger : Messenger M where
  socket := ⟨0, by decide⟩
  nonBlocking := true

namespace History

/-- `send_message()` returned `result` and left the connection `s`: the message was forwarded, or
it was to be cached and `mark_done(true)` had not been called. -/
def sent (t : History M) (s : Connection M) (msg : M) (cache result : Bool) : History M where
  toConnection := s
  accepted := t.accepted ++ if result ∨ (cache ∧ ¬ t.implDone) then [msg] else []

mutual

/-- A call of the user, and whether it returns: an exception of `to_message()` leaves it. -/
def exec (t : History M) : Call M → History M × Bool
  | .sendMessage msg cache w onEmpty =>
    let (s, r) := t.toConnection.sendMessage toMessage msg cache w
    match r with
    | none => ({ t with toConnection := s }, false)
    | some (result, emptied) =>
      let t := t.sent s msg cache result
      match emptied with
      | none => (t, true)
      | some i => execAll { t with toLink := t.toLink.messengerEmptyBuffer i } onEmpty
  | .disconnect => ({ t with toLink := t.toLink.disconnect }, true)
  | .markDone messenger =>
    ({ t with
      toLink := t.toLink.markDone messenger
      cache := if messenger then [] else t.cache }, true)
  | .processEmptyBuffer => ({ t with toLink := t.toLink.processEmptyBuffer }, true)

/-- The calls one after the other, until one does not return. -/
def execAll (t : History M) : List (Call M) → History M × Bool
  | [] => (t, true)
  | c :: calls =>
    let (t, returned) := exec t c
    if returned then execAll t calls else (t, false)

end

/-- The loop of `thread_done()` that sends the cached messages with `send`, and whether it ends
without an exception.  As long as there is a messenger nothing is added to the cache, so the loop
ends after the messages that were in it. -/
def flushLoop {R : Type} [Inhabited R] (send : History M → ℕ → M → R → History M × Bool) :
    ℕ → List R → History M → History M × Bool
  | 0, _, t => if t.cache = [] then (t, true) else ({ t with undefined := true }, false)
  | n + 1, replies, t =>
    match t.cache with
    | [] => (t, true)
    | msg :: _ =>
      match t.messenger with
      | none => ({ t with undefined := true }, false)
      | some i =>
        let (t, returned) := send t i msg (replies.headD default)
        if returned then
          match t.cache with
          | [] => ({ t with undefined := true }, false)
          | _ :: cache => flushLoop send n replies.tail { t with cache := cache }
        -- the message that was sent is not erased
        else (t, false)

/-- `send_message()` of messenger `i` of class `k` for a cached message, with the
`process_empty_buffer()` of the permanent connection when nothing is left to write. -/
def sendCached (k : Link.OutputClass) (t : History M) (i : ℕ) (msg : M) (w : WriteResult)
    (onEmpty : History M → History M × Bool) : History M × Bool :=
  let (s, r) := t.toConnection.handOver toMessage k i msg w
  let t := { t with toConnection := s }
  match r with
  | none => (t, false)
  | some (_, emptied) =>
    if emptied then onEmpty { t with toLink := t.toLink.messengerEmptyBuffer i } else (t, true)

/-- `send_message()` of a TCP messenger for a cached message. -/
def tcpSend (t : History M) (i : ℕ) (msg : M) (reply : Reply M) : History M × Bool :=
  t.sendCached toMessage .tcpServerClient i msg reply.write fun t =>
    t.execAll toMessage reply.onEmpty

/-- The loop of `tcp_client_permanent_message_connection`. -/
def flush (n : ℕ) (replies : List (Reply M)) (t : History M) : History M × Bool :=
  flushLoop (tcpSend toMessage) n replies t

/-- `thread_done()` -/
def threadDone (t : History M) (a : Attempt M) : History M :=
  let t := { t with toLink := { t.toLink with signal := false }.stop a.succeeds }
  let client := t.client
  let t := { t with client := false }
  if t.implDone then t
  else if ¬ client then
    -- the default `process_connection_failed()` enables the timer
    (execAll toMessage { t with enabled := true } a.onFailed).1
  else
    let i := t.outputs.length
    let t := { t with
      messenger := some i
      messengers := t.messengers ++ [i]
      outputs := t.outputs ++ [newMessenger] }
    let (t, returned) := t.flush toMessage t.cache.length a.replies
    -- the default `process_connected()` disables the timer; no exception comes back to it
    if returned then (execAll toMessage { t with enabled := false } a.onConnected).1 else t

/-- `connect()` of the implementation: the attempt is made at once. -/
def connect (t : History M) (a : Attempt M) : History M :=
  if t.implDone then t else threadDone toMessage { t with client := a.succeeds } a

/-- `process_timeout()` -/
def processTimeout (t : History M) (isRunning started : Bool) (a : Attempt M) : History M :=
  if t.done then t
  else if t.useThread then
    let (link, result) := t.toLink.backgroundConnect isRunning started
    let t := { t with toLink := link }
    if result then { t with enabled := false } else t
  else t.connect toMessage a

/-- `process_read()` of `f_thread_done`, which is called when it is in the communicator and there
is a byte in its pipe. -/
def signalRead (t : History M) (a : Attempt M) : History M :=
  if t.signal ∧ 0 < t.signalled then
    threadDone toMessage { t with signalled := t.signalled - 1 } a
  else t

/-- `process_write()` of messenger `i`. -/
def messengerWrite (t : History M) (i : ℕ) (w : WriteResult) (onEmpty : List (Call M)) :
    History M :=
  match t.outputs[i]? with
  | none => t
  | some p =>
    let (o, emptied) := Link.OutputClass.processWrite .tcpServerClient p.toOutput w
    let t := { t with outputs := t.outputs.set i { p with toOutput := o } }
    if p.errors < o.errors then { t with toLink := t.toLink.messengerLost i }
    else if emptied then
      (execAll toMessage { t with toLink := t.toLink.messengerEmptyBuffer i } onEmpty).1
    else t

end History

/-- What happens to a permanent connection. -/
inductive Event (M : Type) where
  /-- A call of the user. -/
  | call (c : Call M)
  /-- `process_timeout()`; `isRunning` and `started` are for the thread, the attempt is for the
  connection without a thread. -/
  | processTimeout (isRunning started : Bool) (a : Attempt M)
  /-- The thread ends its attempt. -/
  | attemptEnds (succeeds : Bool)
  /-- The pipe of the thread can be read. -/
  | signalRead (a : Attempt M)
  /-- `process_write()` of a messenger. -/
  | messengerWrite (i : ℕ) (w : WriteResult) (onEmpty : List (Call M))
  /-- `process_error()`, `process_hup()` or `process_invalid()` of a messenger. -/
  | messengerLost (i : ℕ) (hup : Bool)

/-- What an event does; nothing is said of what follows undefined behaviour. -/
def History.step (t : History M) (e : Event M) : History M :=
  if t.undefined then t
  else
    match e with
    | .call c => (t.exec toMessage c).1
    | .processTimeout isRunning started a => t.processTimeout toMessage isRunning started a
    | .attemptEnds succeeds => { t with toLink := t.toLink.attemptEnds succeeds }
    | .signalRead a => t.signalRead toMessage a
    | .messengerWrite i w onEmpty => t.messengerWrite toMessage i w onEmpty
    | .messengerLost i hup => { t with toConnection := t.toConnection.messengerLost i hup }

/-- A new permanent connection that was added to the communicator. -/
def History.new (useThread : Bool) : History M := { useThread := useThread }

/-- A message that is its text; the empty text is a message without a command. -/
def textOf (msg : Str) : Option Str := if msg = [] then none else some msg

end EventDispatcher.Permanent
