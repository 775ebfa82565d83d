import EventDispatcher.Communicator.Connection
import EventDispatcher.Lib.Run
import EventDispatcher.Lib.StableSort

/-!
# The loop of the communicator

The communicator keeps a list of connections.  One iteration of `run()` sorts it when it has to,
asks `poll()` for events, and serves the connections of a copy of the list one by one.  What is
outside of the library (the clock, `poll()`, and the callbacks of the users) is a parameter
`Host`, with its own state.  A callback is a list of the calls it makes on connections and on the
communicator; a call that throws changes nothing, and the callback may or may not let an
exception out.
-/

namespace EventDispatcher

open Lib

/-! ### The state -/

/-- The vector of the connections; a connection is in it at most once. -/
structure ConnectionList where
  /-- The connections, each by its number. -/
  list : List ℕ := []
  /-- No connection is there twice. -/
  nodup : list.Nodup := by simp

namespace ConnectionList

/-- A connection is added at the end, unless it is there already. -/
def push (l : ConnectionList) (c : ℕ) : ConnectionList :=
  if h : c ∈ l.list then l
  else ⟨l.list ++ [c], List.nodup_append.mpr ⟨l.nodup, List.nodup_singleton c, fun a ha b hb => by
    rw [List.mem_singleton] at hb
    rintro rfl
    exact h (hb ▸ ha)⟩⟩

/-- A connection is removed, if it is there. -/
def erase (l : ConnectionList) (c : ℕ) : ConnectionList :=
  ⟨l.list.erase c, l.nodup.erase c⟩

/-- The connections sorted by a key. -/
def sort (l : ConnectionList) (key : ℕ → ℤ) : ConnectionList :=
  ⟨stableSort key l.list, nodup_stableSort l.nodup⟩

end ConnectionList

/-- The communicator, the connections of the program, and the state of everything else. -/
structure Communicator (E : Type) where
  /-- The connections of the program, in the list or not. -/
  heap : ℕ → Connection
  /-- `f_connections` -/
  connections : ConnectionList
  /-- `f_force_sort` -/
  forceSort : Bool
  /-- The state of the host. -/
  outside : E

/-- An entry of the vector that `poll()` reads and writes. -/
structure PollFd where
  /-- `fd` -/
  fd : ℤ
  /-- `events` -/
  events : UInt16
  /-- `revents` -/
  revents : UInt16 := 0
deriving DecidableEq

/-- How `poll()` ends. -/
inductive PollResult where
  /-- The events that occurred, for each position; `poll()` returns how many are not zero. -/
  | ready (revents : ℕ → UInt16)
  /-- An error, with its number, its text, and the two limits of the number of files. -/
  | failed (errno : ℕ) (text : Str) (softLimit hardLimit : ℕ)

/-- What a callback does on the connections and on the communicator; `run()` throws when it is
called from a callback, and changes nothing. -/
inductive UserCall where
  /-- `communicator::add_connection()` -/
  | addConnection (c : ℕ)
  /-- `communicator::remove_connection()` -/
  | removeConnection (c : ℕ)
  /-- `communicator::set_force_sort()` -/
  | setForceSort (status : Bool)
  /-- `connection::set_priority()` -/
  | setPriority (c : ℕ) (priority : ℤ)
  /-- `connection::set_enable()` -/
  | setEnable (c : ℕ) (enabled : Bool)
  /-- `connection::set_timeout_delay()` -/
  | setTimeoutDelay (c : ℕ) (timeoutUs : Int64)
  /-- `connection::set_timeout_date()` -/
  | setTimeoutDate (c : ℕ) (dateUs : Int64)
  /-- `connection::calculate_next_tick()` -/
  | calculateNextTick (c : ℕ)
  /-- The answers of the virtual functions change. -/
  | setEventSource (c : ℕ) (source : EventSource)

/-- What a callback leaves. -/
structure Behaviour (E : Type) where
  /-- Its calls, in order. -/
  calls : List UserCall
  /-- The state of the host. -/
  outside : E
  /-- The exception it lets out, if it does. -/
  thrown : Option Exception := none

/-- The kernel and the code of the users. -/
structure Host (E : Type) where
  /-- `get_current_date()` -/
  clock : E → Int64 × E
  /-- `poll()`, with its timeout -/
  poll : List PollFd → Int32 → E → PollResult × E
  /-- The callbacks of the connections. -/
  callback : Callback → ℕ → Communicator E → Behaviour E

namespace Communicator

variable {E : Type} (H : Host E)

/-- A reading of the clock, when the code makes one; otherwise the date does not matter. -/
def readClock (needed : Bool) (outside : E) : Int64 × E :=
  if needed then H.clock outside else (0, outside)

/-- The connection with a number is replaced. -/
def update (s : Communicator E) (c : ℕ) (o : Connection) : Communicator E :=
  { s with heap := Function.update s.heap c o }

@[simp] lemma heap_update_self (s : Communicator E) (c : ℕ) (o : Connection) :
    (s.update c o).heap c = o := by
  simp [update]

lemma heap_update_of_ne (s : Communicator E) {a c : ℕ} (h : a ≠ c) (o : Connection) :
    (s.update c o).heap a = s.heap a := by
  simp [update, h]

/-- A connection after a setter, or as it was when the setter throws. -/
def updateOk (s : Communicator E) (c : ℕ) : Except Exception Connection → Communicator E
  | .ok o => s.update c o
  | .error _ => s

/-- `communicator::add_connection()`: a connection without a valid socket is refused. -/
def addConnection (s : Communicator E) (c : ℕ) : Communicator E :=
  if (s.heap c).validSocket then { s with connections := s.connections.push c } else s

/-- `connection::set_priority()`, which asks for the list to be sorted. -/
def setPriority (s : Communicator E) (c : ℕ) (priority : ℤ) : Communicator E :=
  match (s.heap c).setPriority priority with
  | .ok o => { s.update c o with forceSort := true }
  | .error _ => s

/-- One call of a callback. -/
def userCall (s : Communicator E) : UserCall → Communicator E
  | .addConnection c => s.addConnection c
  | .removeConnection c => { s with connections := s.connections.erase c }
  | .setForceSort status => { s with forceSort := status }
  | .setPriority c priority => s.setPriority c priority
  | .setEnable c enabled => s.update c { s.heap c with enabled := enabled }
  | .setTimeoutDelay c timeoutUs =>
    let (now, outside) := readClock H (timeoutUs ≥ 10) s.outside
    { s.updateOk c ((s.heap c).setTimeoutDelay now timeoutUs) with outside := outside }
  | .setTimeoutDate c dateUs => s.updateOk c ((s.heap c).setTimeoutDate dateUs)
  | .calculateNextTick c =>
    let (now, outside) := readClock H ((s.heap c).timeoutDelay ≠ -1) s.outside
    { s.update c ((s.heap c).calculateNextTick now) with outside := outside }
  | .setEventSource c source => s.update c { s.heap c with toEventSource := source }

/-! ### Running the callbacks -/

/-- A call of a callback, with the state it is called in. -/
structure Call (E : Type) where
  /-- The connection. -/
  connection : ℕ
  /-- The callback. -/
  callback : Callback
  /-- The state. -/
  state : Communicator E

/-- What the callback does. -/
def Call.behaviour (call : Call E) : Behaviour E :=
  H.callback call.callback call.connection call.state

/-- The state in which the callback makes its first call. -/
def Call.start (call : Call E) : Communicator E :=
  { call.state with outside := (call.behaviour H).outside }

/-- How far the loop is with a connection: the state, the callbacks it ran, and the exception
that ended it. -/
structure Progress (E : Type) where
  /-- The state. -/
  state : Communicator E
  /-- The callbacks. -/
  calls : List (Call E) := []
  /-- The exception. -/
  thrown : Option Exception := none

/-- A callback runs, unless an exception is on its way. -/
def Progress.call (p : Progress E) (c : ℕ) (callback : Callback) : Progress E :=
  match p.thrown with
  | some _ => p
  | none =>
    let call : Call E := ⟨c, callback, p.state⟩
    { state := runFrom (userCall H) (call.start H) (call.behaviour H).calls
      calls := p.calls ++ [call]
      thrown := (call.behaviour H).thrown }

/-- What an event to read leads to; Unix signals come first. -/
def processInput (c : ℕ) (p : Progress E) : Progress E :=
  let o := p.state.heap c
  if o.signal then
    if o.signalObject then p.call H c .signal else p
  else if o.listener then p.call H c .accept
  else p.call H c .read

/-- The callbacks for the events of a connection. -/
def processEvents (c : ℕ) (revents : UInt16) (p : Progress E) : Progress E :=
  if revents ≠ 0 then
    let p := if revents &&& (pollIn ||| pollPri) ≠ 0 then processInput H c p else p
    let p := if revents &&& pollOut ≠ 0 then p.call H c .write else p
    let p := if revents &&& pollErr ≠ 0 then p.call H c .error else p
    let p := if revents &&& (pollHup ||| pollRdHup) ≠ 0 then p.call H c .hup else p
    if revents &&& pollNval ≠ 0 then p.call H c .invalid else p
  else
    p

/-- The timeout of a connection.  The clock is only read when there is a timestamp, and once more
for a connection that timed out and has a delay. -/
def processTimer (c : ℕ) (p : Progress E) : Progress E :=
  match p.thrown with
  | some _ => p
  | none =>
    let o := p.state.heap c
    if o.savedTimeoutStamp = -1 then p
    else
      let (now, outside) := H.clock p.state.outside
      if o.timedOut now then
        -- `calculate_next_tick()` reads the clock again
        let (tickNow, outside) := readClock H (o.timeoutDelay ≠ -1) outside
        Progress.call H
          { p with state := { p.state.update c (o.tick now tickNow) with outside := outside } }
          c .timeout
      else
        { p with state := { p.state with outside := outside } }

/-- What the loop did for one connection. -/
structure Turn (E : Type) where
  /-- The connection. -/
  connection : ℕ
  /-- The state when its turn came. -/
  start : Communicator E
  /-- The state when its timestamp was tested. -/
  tested : Communicator E
  /-- The callbacks. -/
  calls : List (Call E)

/-- The turn of an enabled connection. -/
def serve (fds : List PollFd) (c : ℕ) (s : Communicator E) : Turn E × Progress E :=
  let p : Progress E := { state := s }
  let p' :=
    match (s.heap c).fdsPosition with
    | none => p
    | some position => processEvents H c ((fds[position]?.map PollFd.revents).getD 0) p
  let p'' := processTimer H c p'
  (⟨c, s, p'.state, p''.calls⟩, p'')

/-- The turns of the connections, up to an exception; the flags say which are enabled. -/
def serveAll (fds : List PollFd) :
    List (ℕ × Bool) → Communicator E → List (Turn E) × Communicator E × Option Exception
  | [], s => ([], s, none)
  | (c, enabled) :: l, s =>
    -- the flag is the one of the setup, a callback may have changed the connection since
    if !enabled then serveAll fds l s
    else
      let (turn, p) := serve H fds c s
      match p.thrown with
      | some e => ([turn], p.state, some e)
      | none =>
        let (turns, s, thrown) := serveAll fds l p.state
        (turn :: turns, s, thrown)

/-! ### Preparing `poll()` -/

/-- The data that the first half of an iteration collects. -/
structure Setup where
  /-- The connections of the program. -/
  heap : ℕ → Connection
  /-- `enabled` -/
  enabled : List Bool := []
  /-- `fds` -/
  fds : List PollFd := []
  /-- `next_timeout_timestamp` -/
  nextTimeoutTimestamp : Int64 := Int64.maxValue

/-- The setup of one connection. -/
def Setup.add (u : Setup) (c : ℕ) : Setup :=
  let o := { u.heap c with fdsPosition := none }
  if !o.enabled then
    -- its old timestamp stays, and is not looked at
    { u with heap := Function.update u.heap c o, enabled := u.enabled ++ [false] }
  else
    let o := o.saveTimeoutTimestamp
    let timestamp := o.savedTimeoutStamp
    let next :=
      if timestamp ≠ -1 ∧ timestamp < u.nextTimeoutTimestamp then timestamp
      else u.nextTimeoutTimestamp
    let e := Connection.pollEvents o.toEventSource
    if e = 0 ∨ !o.validSocket then
      { heap := Function.update u.heap c o
        enabled := u.enabled ++ [true]
        fds := u.fds
        nextTimeoutTimestamp := next }
    else
      { heap := Function.update u.heap c { o with fdsPosition := some u.fds.length }
        enabled := u.enabled ++ [true]
        fds := u.fds ++ [{ fd := o.socket, events := e }]
        nextTimeoutTimestamp := next }

/-- The setup of the connections of the copy. -/
def setup (s : Communicator E) : Setup :=
  s.connections.list.foldl Setup.add { heap := s.heap }

/-- The timeout in milliseconds, 64 bits; without one the loop ends when there is nothing to poll
on. -/
def pollTimeout (nextTimeoutTimestamp : Int64) (nothingToPoll : Bool) (now : Int64) :
    Option Int64 :=
  if nextTimeoutTimestamp ≠ Int64.maxValue then
    let timeout := nextTimeoutTimestamp - now
    if timeout < 0 then some 0
    -- less than a millisecond is a waste of time
    else if timeout / 1000 = 0 then some 1
    else some (timeout / 1000)
  else if nothingToPoll then none
  else some (-1)

/-- The exception for an error of `poll()`. -/
def pollException (errno : ℕ) (text : Str) (softLimit hardLimit : ℕ) : Exception :=
  if errno = 4 then
    ⟨.runtimeError, ("communicator::run(): EINTR occurred while in poll() --"
      ++ " interrupts are not supported yet").toList⟩
  else if errno = 14 then
    ⟨.invalidParameter, "communicator::run(): buffer was moved out of our address space?".toList⟩
  else if errno = 22 then
    ⟨.invalidParameter,
      "communicator::run(): too many file fds for poll, limit is currently ".toList
        ++ (toString softLimit).toList ++ ", your kernel top limit is ".toList
        ++ (toString hardLimit).toList⟩
  else if errno = 12 then
    ⟨.runtimeError, "communicator::run(): poll() failed trying to allocate memory".toList⟩
  else
    ⟨.runtimeError, "communicator::run(): poll() failed with error ".toList
      ++ (toString errno).toList ++ " -- ".toList ++ text⟩

/-- The text for a result of `poll()` that is too large. -/
def tooManyEventsText : Str :=
  ("communicator::run(): poll() returned a number of events to handle larger than the input"
    ++ " allows.").toList

/-! ### The loop -/

/-- How an iteration ends. -/
inductive LoopResult where
  /-- The loop goes on. -/
  | again
  /-- `run()` returns. -/
  | returned (b : Bool)
  /-- `run()` throws. -/
  | thrown (e : Exception)
deriving DecidableEq

/-- What an iteration does. -/
structure Iteration (E : Type) where
  /-- The state after it. -/
  state : Communicator E
  /-- How it ends. -/
  result : LoopResult
  /-- The copy of the list of the connections. -/
  connections : List ℕ := []
  /-- The timeout that `poll()` was given, when it was called. -/
  handed : Option Int32 := none
  /-- The entries after `poll()`. -/
  fds : List PollFd := []
  /-- The turns of the connections. -/
  turns : List (Turn E) := []

/-- The list is sorted when the flag is up. -/
def sortConnections (s : Communicator E) : Communicator E :=
  if s.forceSort then
    { s with
      connections := s.connections.sort fun c => (s.heap c).priority
      forceSort := false }
  else
    s

/-- The second half of an iteration: `poll()` with a timeout, and the turns. -/
def pollAndServe (u : Setup) (timeout : Int64) (s : Communicator E) : Iteration E :=
  let connections := s.connections.list
  match H.poll u.fds timeout.toInt32 s.outside with
  | (.failed errno text softLimit hardLimit, outside) =>
    { state := { s with outside := outside }
      result := .thrown (pollException errno text softLimit hardLimit)
      connections := connections
      handed := some timeout.toInt32
      fds := u.fds }
  | (.ready revents, outside) =>
    let fds := u.fds.mapIdx fun position fd => { fd with revents := revents position }
    if fds.countP (fun fd => fd.revents ≠ 0) > connections.length then
      { state := { s with outside := outside }
        result := .thrown ⟨.runtimeError, tooManyEventsText⟩
        connections := connections
        handed := some timeout.toInt32
        fds := fds }
    else
      let r := serveAll H fds (connections.zip u.enabled) { s with outside := outside }
      { state := r.2.1
        result := r.2.2.elim .again .thrown
        connections := connections
        handed := some timeout.toInt32
        fds := fds
        turns := r.1 }

/-- One iteration of `communicator::run()`.  The clock is read before `poll()` only when there is
a timestamp. -/
def iteration (s : Communicator E) : Iteration E :=
  if s.connections.list = [] then { state := s, result := .returned true }
  else
    let s := s.sortConnections
    let u := s.setup
    let s := { s with heap := u.heap }
    let (now, outside) := readClock H (u.nextTimeoutTimestamp ≠ Int64.maxValue) s.outside
    let s := { s with outside := outside }
    match pollTimeout u.nextTimeoutTimestamp u.fds.isEmpty now with
    | none => { state := s, result := .returned false, connections := s.connections.list }
    | some timeout => pollAndServe H u timeout s

/-- The states in which the iterations of a call of `run()` begin. -/
inductive InRun (s₀ : Communicator E) : Communicator E → Prop
  /-- The first iteration sorts the list. -/
  | start : InRun s₀ { s₀ with forceSort := true }
  /-- The loop goes on. -/
  | again {s : Communicator E} : InRun s₀ s → (s.iteration H).result = .again →
      InRun s₀ (s.iteration H).state

end Communicator

end EventDispatcher
