import Mathlib.Data.List.Basic
import Mathlib.Data.UInt

/-!
# The socket listener

One listener asks the kernel for the state of the sockets of all the `socket_events` objects.  It
asks for those that wait for a `listen()`, and calls the `process_listening()` of an object when
the reply says that its socket is listening.

The loop of `process_read()` over the objects is cut at the calls of `process_listening()`, so that
any function can be called there: `next` goes up to the call, and `finish` is what follows it.
-/

namespace EventDispatcher.SocketEvents

/-- An address, as the listener uses it. -/
structure Addr where
  /-- `is_ipv4()` -/
  isIpv4 : Bool
  /-- `get_port()` -/
  port : UInt16
  /-- `sin_port` of `get_ipv4()`. -/
  sinPort : UInt16
  /-- `sin_addr` of `get_ipv4()`. -/
  sinAddr : UInt32
deriving DecidableEq, Repr

/-- `socket_evt` -/
structure SocketEvt where
  /-- `f_socket_events`: which object it is. -/
  socketEvents : ℕ
  /-- The address of the object. -/
  addr : Addr
  /-- `f_listening` -/
  listening : Bool := false
deriving DecidableEq, Repr

/-- A message of the kernel. -/
inductive Reply where
  /-- `NLMSG_DONE`, or a message that is too short: the function returns. -/
  | stop
  /-- An error or an unexpected message, which is only logged. -/
  | logged
  /-- The state of a socket. -/
  | diag (state : ℕ) (sport : UInt16) (src : UInt32)
deriving DecidableEq, Repr

/-- `TCP_LISTEN_STATE` -/
def tcpListenState : ℕ := 10

/-- A loop of `process_read()` over the objects. -/
structure Walk where
  /-- `idiag_sport` -/
  sport : UInt16
  /-- `idiag_src[0]` -/
  src : UInt32
  /-- The position in the list. -/
  pos : ℕ
  /-- The object whose `process_listening()` is running. -/
  calling : Option ℕ
deriving DecidableEq, Repr

/-- What happens to an object. -/
inductive MarkKind where
  /-- It is created. -/
  | created
  /-- Its `process_listening()` is called. -/
  | called
  /-- Its `lost_connection()` is called. -/
  | lost
deriving DecidableEq, Repr

/-- Something that happened to an object. -/
structure Mark where
  /-- The object. -/
  socketEvents : ℕ
  /-- What happened. -/
  kind : MarkKind
deriving DecidableEq, Repr

/-- The listener. -/
structure Listener where
  /-- Whether `g_socket_listener` is set; it is a connection of the communicator then. -/
  instanced : Bool := false
  /-- `is_enabled()` -/
  enabled : Bool := true
  /-- `f_socket_events` -/
  evts : List SocketEvt := []
  /-- The replies that `process_read()` has to handle. -/
  pending : List Reply := []
  /-- The loop that is running. -/
  walk : Option Walk := none
  /-- What happened, the last first. -/
  log : List Mark := []
  /-- Whether the behaviour is undefined. -/
  undefined : Bool := false

namespace Listener

/-- `instance()` -/
def getInstance (s : Listener) : Listener :=
  if s.instanced then s else { s with instanced := true, enabled := true }

/-- The flag of an object is set. -/
def setListening (socketEvents : ℕ) (listening : Bool) (evts : List SocketEvt) : List SocketEvt :=
  evts.map fun e => if e.socketEvents = socketEvents then { e with listening := listening } else e

/-- `add_socket_events()`, for an object that is being created.  A loop that is running holds
iterators that `push_back()` invalidates. -/
def add (socketEvents : ℕ) (addr : Addr) (s : Listener) : Listener :=
  if s.evts.any fun e => e.socketEvents = socketEvents then s
  else
    let s := s.getInstance
    if !addr.isIpv4 then s
    else
      { s with
        evts := s.evts ++ [{ socketEvents := socketEvents, addr := addr }]
        enabled := true
        log := ⟨socketEvents, .created⟩ :: s.log
        undefined := s.undefined || s.walk.isSome }

/-- `lost_connection()` -/
def lostConnection (socketEvents : ℕ) (s : Listener) : Listener :=
  let s := s.getInstance
  { s with
    evts := setListening socketEvents false s.evts
    enabled := true
    log := ⟨socketEvents, .lost⟩ :: s.log }

/-- The iterators of the loop stay valid when an element is erased: it is the first one, the loop
is past it, and there are others. -/
def ErasedSafely (evts : List SocketEvt) (i : ℕ) (w : Walk) : Prop :=
  i = 0 ∧ 0 < w.pos ∧ 1 < evts.length

instance (evts : List SocketEvt) (i : ℕ) (w : Walk) : Decidable (ErasedSafely evts i w) :=
  inferInstanceAs (Decidable (_ ∧ _ ∧ _))

/-- `remove_socket_events()`.  The listener goes with the last object. -/
def remove (socketEvents : ℕ) (s : Listener) : Listener :=
  match s.evts.findIdx? fun e => e.socketEvents = socketEvents with
  | none => s
  | some i =>
    let evts := s.evts.eraseIdx i
    { s with
      instanced := s.instanced && !evts.isEmpty
      evts := evts
      pending := if evts.isEmpty then [] else s.pending
      walk := s.walk.map fun w => { w with pos := w.pos - 1 }
      undefined := s.undefined || s.walk.any fun w => !decide (ErasedSafely s.evts i w) }

/-- `is_writer()` -/
def isWriter (s : Listener) : Bool := s.evts.any fun e => !e.listening

/-- The sockets that `process_write()` asks for. -/
def requests (s : Listener) : List (UInt16 × UInt32) :=
  (s.evts.filter fun e => !e.listening).map fun e => (e.addr.sinPort, e.addr.sinAddr)

/-- `process_timeout()` -/
def processTimeout (s : Listener) : Listener :=
  if s.isWriter then s else { s with enabled := false }

/-- `process_read()` gets some replies. -/
def read (replies : List Reply) (s : Listener) : Listener :=
  if s.instanced ∧ s.pending = [] ∧ s.walk = none then { s with pending := replies } else s

/-- The next reply. -/
def nextReply (s : Listener) : Listener :=
  match s.pending with
  | [] => s
  | .stop :: _ => { s with pending := [] }
  | .logged :: l => { s with pending := l }
  | .diag state sport src :: l =>
    { s with
      pending := l
      walk := if state = tcpListenState then some ⟨sport, src, 0, none⟩ else none }

/-- The next object of the loop, up to the call of its `process_listening()`. -/
def nextEvt (w : Walk) (s : Listener) : Listener :=
  match s.evts[w.pos]? with
  | none => { s with walk := none }
  | some e =>
    if e.listening = false ∧ e.addr.port = w.sport ∧ e.addr.sinAddr = w.src then
      { s with
        walk := some { w with calling := some e.socketEvents }
        log := ⟨e.socketEvents, .called⟩ :: s.log }
    else { s with walk := some { w with pos := w.pos + 1 } }

/-- `process_read()` goes on, when no `process_listening()` is running. -/
def next (s : Listener) : Listener :=
  match s.walk with
  | none => s.nextReply
  | some w => if w.calling.isSome then s else s.nextEvt w

/-- What follows the call of `process_listening()`. -/
def finish (s : Listener) : Listener :=
  match s.walk with
  | none => s
  | some w =>
    match w.calling with
    | none => s
    | some socketEvents =>
      { s with
        evts := setListening socketEvents true s.evts
        walk := some { w with pos := w.pos + 1, calling := none } }

end Listener

/-- What can happen. -/
inductive Action where
  /-- A `socket_events` object is created. -/
  | add (socketEvents : ℕ) (addr : Addr)
  /-- A `socket_events` object is destroyed. -/
  | remove (socketEvents : ℕ)
  /-- `lost_connection()` -/
  | lostConnection (socketEvents : ℕ)
  /-- `process_timeout()` -/
  | timeout
  /-- `process_read()` is called. -/
  | read (replies : List Reply)
  /-- `process_read()` goes on. -/
  | next
  /-- `process_listening()` returns. -/
  | finish
deriving DecidableEq, Repr

/-- One action. -/
def Listener.step (s : Listener) : Action → Listener
  | .add socketEvents addr => s.add socketEvents addr
  | .remove socketEvents => s.remove socketEvents
  | .lostConnection socketEvents => s.lostConnection socketEvents
  | .timeout => s.processTimeout
  | .read replies => s.read replies
  | .next => s.next
  | .finish => s.finish

end EventDispatcher.SocketEvents
