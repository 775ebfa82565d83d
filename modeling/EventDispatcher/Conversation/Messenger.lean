import EventDispatcher.Dispatcher.Matches
import EventDispatcher.Message.Cache

/-!
# The functions of a messenger

A messenger is a connection that sends messages and a dispatcher that handles those it receives.
The functions of `connection_with_send_message` behind the system matches answer `ALIVE`, `HELP`
and what no match knows, and keep whether the messenger is ready; the functions of the user are a
parameter.  What a messenger sends is kept with where it comes from (`Origin`).
-/

namespace EventDispatcher.Conversation

open Lib

/-- The strings of a `std::set`, in order. -/
abbrev StringSet := SortedMap Str Unit

/-- `snapdev::join_strings()` -/
structure JoinStrings where
  /-- The strings and the separator. -/
  join : List Str → Str → Str
  /-- The separator stands between the strings. -/
  join_eq : ∀ l separator, join l separator = separator.intercalate l

/-- Where a message that is sent comes from. -/
inductive Origin where
  /-- The user, or `register_service()` and `unregister_service()`. -/
  | user
  /-- An answer to a message, with what `get_commands()` gave then. -/
  | reply (original : Fields) (commands : StringSet)

/-- A message that was sent. -/
structure Sent where
  /-- The message. -/
  message : Message
  /-- Where it comes from. -/
  origin : Origin

/-- A connection that sends messages. -/
structure Messenger (V : Type) where
  /-- `f_service_name` -/
  serviceName : Str := []
  /-- `f_ready` -/
  ready : Bool := false
  /-- The text of `f_my_address`, once it is known. -/
  myAddress : Option Str := none
  /-- Whether `send_message()` succeeds. -/
  connected : Bool := true
  /-- `snapdev::now().to_timestamp()` -/
  now : Str := []
  /-- The messages that were sent. -/
  sent : List Sent := []
  /-- The data of the user. -/
  user : V

namespace Messenger

variable {V : Type}

/-- `send_message()`, and whether it succeeds. -/
def sendMessage (c : Messenger V) (message : Message) (origin : Origin) : Bool × Messenger V :=
  if c.connected then (true, { c with sent := c.sent ++ [⟨message, origin⟩] }) else (false, c)

/-- The user sends some messages. -/
def sendAll (c : Messenger V) (messages : List Message) : Messenger V :=
  messages.foldl (fun c message => (c.sendMessage message .user).2) c

end Messenger

/-! ### The functions of the user -/

/-- What a function of the user does. -/
structure UserRun (V α : Type) where
  /-- The result, or the exception. -/
  result : Except Exception α
  /-- The data after the call. -/
  user : V
  /-- The messages that it sends. -/
  sends : List Message := []
  /-- The calls on the definitions, in order. -/
  calls : List EnvironmentCall := []

/-- What a function of the user does that is given a message. -/
structure MessageRun (V α : Type) extends UserRun V α where
  /-- The message after the call. -/
  message : Message

/-- The functions that the user writes. -/
structure UserFunctions (V : Type) where
  /-- The match functions. -/
  matchFunc : ℕ → DispatcherMatch → Message → World (Messenger V) → MessageRun V MatchResult
  /-- The callbacks of the matches. -/
  callback : ℕ → Message → World (Messenger V) → MessageRun V Unit
  /-- `help()`, which adds commands. -/
  help : StringSet → World (Messenger V) → UserRun V StringSet
  /-- `ready()` -/
  ready : Message → World (Messenger V) → MessageRun V Unit
  /-- `restart()` -/
  restart : Message → World (Messenger V) → MessageRun V Unit
  /-- `stop()` -/
  stop : Bool → World (Messenger V) → UserRun V Unit
  /-- `process_message()` -/
  processMessage : Message → World (Messenger V) → MessageRun V Unit

variable {V α : Type}

/-- The messenger after a function of the user. -/
def UserRun.messenger (r : UserRun V α) (c : Messenger V) : Messenger V :=
  { c.sendAll r.sends with user := r.user }

/-- What the function leaves, for the dispatcher. -/
def MessageRun.toResult (r : MessageRun V α) (w : World (Messenger V)) :
    UserResult (Messenger V) α where
  result := r.result
  message := r.message
  user := r.messenger w.user
  calls := r.calls

/-! ### The answers -/

/-- A new message with the destination that answers the original. -/
def replied (S : Snapdev) (original : Message) : Except Exception Message := do
  let m ← ({} : Message).setServer S original.sentFromServer
  m.setService S original.sentFromService

/-- A parameter of the original is copied, if it is there. -/
def copyParameter (S : Snapdev) (name : Str) (original m : Message) :
    Except Exception Message := do
  if ← original.hasParameter S name then
    let value ← original.getParameter S name
    m.addParameter S name value
  else
    .ok m

/-- The message of `msg_alive()`. -/
def absolutely (S : Snapdev) (now : Str) (msg : Message) : Except Exception Message := do
  let m ← replied S msg
  let m ← m.setCommand S "ABSOLUTELY".toList
  let m ← copyParameter S "serial".toList msg m
  let m ← copyParameter S "timestamp".toList msg m
  m.addParameter S "reply_timestamp".toList now

/-- The message of `msg_reply_with_unknown()`. -/
def unknown (S : Snapdev) (msg : Message) : Except Exception Message := do
  let m ← replied S msg
  let m ← m.setCommand S "UNKNOWN".toList
  m.addParameter S "command".toList msg.command

/-- A new message that answers a `HELP` message, or goes to the communicator daemon. -/
def commandsDestination (S : Snapdev) : Option Message → Except Exception Message
  | some msg => replied S msg
  | none => do
    let m ← ({} : Message).setServer S ['.']
    m.setService S "communicatord".toList

/-- The message of `send_commands()`. -/
def commandsMessage (S : Snapdev) (J : JoinStrings) (commands : StringSet) (msg : Option Message) :
    Except Exception Message := do
  let m ← commandsDestination S msg
  let m ← m.setCommand S "COMMANDS".toList
  m.addParameter S "list".toList (J.join commands.keys [','])

/-- The commands of one match, and whether the user has to help. -/
def getCommand (r : Bool × StringSet) (m : DispatcherMatch) : Bool × StringSet :=
  match m.expr with
  | none => (r.1 || (m.func ≠ .alwaysMatch && m.func ≠ .callbackMatch), r.2)
  | some expr =>
    if m.func = .oneToOneMatch ∨ m.func = .oneToOneCallbackMatch then (r.1, r.2.insert expr ())
    -- not a one to one match, so possibly a full regex or similar
    else (true, r.2)

/-- `dispatcher::get_commands()`: whether the user has to help, and the commands. -/
def getCommands (d : Dispatcher) (commands : StringSet) : Bool × StringSet :=
  d.list.foldl getCommand (d.catchAll.callback.isSome, commands)

/-- What `get_commands()` gives. -/
def commandsOf (d : Dispatcher) : StringSet := (getCommands d ∅).2

/-! ### The functions -/

/-- A program: its platform, and what its user writes. -/
structure Program (V : Type) where
  /-- The libraries. -/
  P : Platform
  /-- `snapdev::join_strings()` -/
  J : JoinStrings
  /-- The functions of the user. -/
  U : UserFunctions V

/-- The text for a messenger without commands. -/
def noCommandsText : Str :=
  ("connection_with_send_message::msg_help()"
    ++ " is not able to determine the commands this messenger supports").toList

namespace Program

variable (p : Program V)

/-- A function that returns, with the messenger after it. -/
def returns (msg : Message) (c : Messenger V) (calls : List EnvironmentCall := []) :
    UserResult (Messenger V) Unit :=
  ⟨.ok (), msg, c, calls⟩

/-- A message is sent when it could be made; it is not cached. -/
def sends (origin : Origin) (msg : Message) (c : Messenger V) (calls : List EnvironmentCall) :
    Except Exception Message → UserResult (Messenger V) Unit
  | .error e => ⟨.error e, msg, c, calls⟩
  | .ok m => returns msg (c.sendMessage m origin).2 calls

/-- An answer to a message. -/
def answer (d : Dispatcher) (msg : Message) : Origin := .reply msg.toFields (commandsOf d)

/-- The commands that `send_commands()` finds: the dispatcher tells them, and the user. -/
def findCommands (d : Dispatcher) (w : World (Messenger V)) : UserRun V StringSet :=
  let (needUserHelp, commands) := getCommands d ∅
  if needUserHelp then p.U.help commands w else { result := .ok commands, user := w.user.user }

/-- `send_commands()`, to a message if there is one. -/
def sendCommands (d : Dispatcher) (msg : Option Message) (w : World (Messenger V)) :
    UserResult (Messenger V) Unit :=
  let m := msg.getD {}
  if msg.isSome ∧ m.command ≠ "HELP".toList then returns m w.user
  else
    let r := p.findCommands d w
    let c := r.messenger w.user
    match r.result with
    | .error e => ⟨.error e, m, c, r.calls⟩
    | .ok commands =>
      if commands.keys = [] then
        ⟨.error ⟨.implementationError, noCommandsText⟩, m, c, r.calls⟩
      else
        let origin := if msg.isSome then answer d m else .user
        sends origin m c r.calls (commandsMessage p.P.S p.J commands msg)

/-- `msg_ready()`: the address, the function of the user, and then the flag. -/
def msgReady (msg : Message) (w : World (Messenger V)) : UserResult (Messenger V) Unit :=
  let myAddress : Except Exception (Option Str) := do
    if ← msg.hasParameter p.P.S "my_address".toList then
      let a ← msg.getParameter p.P.S "my_address".toList
      match p.P.T.stringToAddr a with
      | some what => .error ⟨.runtimeError, what⟩
      | none => .ok (some a)
    else
      .ok w.user.myAddress
  match myAddress with
  | .error e => ⟨.error e, msg, w.user, []⟩
  | .ok myAddress =>
    let w := { w with user := { w.user with myAddress } }
    let r := (p.U.ready msg w).toResult w
    match r.result with
    | .error _ => r
    | .ok () => { r with user := { r.user with ready := true } }

/-- `stop()`, for `STOP` and `QUITTING`. -/
def msgStop (quitting : Bool) (msg : Message) (w : World (Messenger V)) :
    UserResult (Messenger V) Unit :=
  let r := p.U.stop quitting w
  ⟨r.result, msg, r.messenger w.user, r.calls⟩

/-- The functions behind the system matches. -/
def run (d : Dispatcher) (msg : Message) (w : World (Messenger V)) :
    SystemFunction → UserResult (Messenger V) Unit
  | .msgAlive => sends (answer d msg) msg w.user [] (absolutely p.P.S w.user.now msg)
  | .msgHelp => p.sendCommands d (some msg) w
  -- these only write to the logs, or do nothing
  | .msgLogUnknown | .msgLeak | .msgLogRotate | .msgServiceUnavailable => returns msg w.user
  | .msgQuitting => p.msgStop true msg w
  | .msgReady => p.msgReady msg w
  | .msgRestart => (p.U.restart msg w).toResult w
  | .msgStop => p.msgStop false msg w
  | .msgReplyWithUnknown => sends (answer d msg) msg w.user [] (unknown p.P.S msg)

end Program

/-- The numbers of the callbacks made of the functions of the connection. -/
def bound : Dispatcher.Bound
  | .msgAlive => 0
  | .msgHelp => 1
  | .msgLogUnknown => 2
  | .msgLeak => 3
  | .msgLogRotate => 4
  | .msgQuitting => 5
  | .msgReady => 6
  | .msgRestart => 7
  | .msgServiceUnavailable => 8
  | .msgStop => 9
  | .msgReplyWithUnknown => 10

/-- The function of a callback, when it is one of the connection. -/
def systemFunction? (id : ℕ) : Option SystemFunction :=
  [.msgAlive, .msgHelp, .msgLogUnknown, .msgLeak, .msgLogRotate, .msgQuitting, .msgReady,
    .msgRestart, .msgServiceUnavailable, .msgStop, .msgReplyWithUnknown][id]?

lemma systemFunction?_bound (f : SystemFunction) : systemFunction? (bound f) = some f := by
  cases f <;> rfl

/-- The code that the dispatcher calls. -/
def Program.code (p : Program V) (d : Dispatcher) : UserCode (Messenger V) where
  matchFunc id m msg w := (p.U.matchFunc id m msg w).toResult w
  callback id msg w :=
    match systemFunction? id with
    | some f => p.run d msg w f
    | none => (p.U.callback id msg w).toResult w

/-! ### The service -/

namespace Messenger

/-- `get_service_name()`; it throws `name_undefined` when the name is required and empty. -/
def getServiceName (c : Messenger V) (required : Bool) : Option Str :=
  if required ∧ c.serviceName = [] then none else some c.serviceName

/-- `register_service()`, and whether it succeeds. -/
def registerService (c : Messenger V) : Bool × Messenger V :=
  let m : Message :=
    { command := "REGISTER".toList
      parameters := ((∅ : SortedMap Str Str).insert "service".toList c.serviceName).insert
        "version".toList ['1'] }
  c.sendMessage m .user

/-- `unregister_service()`, when it does not throw: the connection is done, and it is removed at
once when the message cannot be sent. -/
def unregisterService (c : Messenger V) : Option (Bool × Messenger V) :=
  (c.getServiceName true).map fun name =>
    let m : Message :=
      { command := "UNREGISTER".toList
        parameters := (∅ : SortedMap Str Str).insert "service".toList name }
    c.sendMessage m .user

end Messenger

end EventDispatcher.Conversation
