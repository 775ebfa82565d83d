import EventDispatcher.Reporter.Control
import EventDispatcher.Reporter.Operators
import EventDispatcher.Reporter.Poll
import EventDispatcher.Reporter.SendData
import EventDispatcher.Reporter.SendMessage
import EventDispatcher.Reporter.Sort

/-!
# The state of a script

A script is run by one thread over one `State`: its instruction pointer and its stack, its
variables, the messages and the data that its clients received, and what it sent.  A variable is a
value, a list or an array; the expressions, the flow of control and `sort()` each see a part of it
(`Variable.toValue`, `Variable.toControl`, `Variable.toContent`).  A function that uses a variable
as one of a class that it is not of has no defined behaviour (`Halted.wrongClass`).  An execution
that stops keeps what the instruction did before (`Stopped`).
-/

namespace EventDispatcher.Script

open Lib Reporter

/-! ## Variables -/

/-- A variable; a `variable_void` is a value of the type `void`. -/
inductive Variable where
  | value (v : VariableValue)
  /-- A `variable_list`. -/
  | list (items : VariableList)
  /-- A `variable_array`. -/
  | array (items : List VariableValue)

namespace Variable

/-- `variable::get_type()` -/
def type : Variable → Str
  | value v => v.type
  | list _ => "list".toList
  | array _ => "array".toList

/-- The variable, as the evaluation of an expression sees it. -/
def toValue : Variable → VariableValue
  | value v => v
  | list _ => .other "list".toList
  | array _ => .other "array".toList

/-- The variable, as the flow of control sees it. -/
def toControl : Variable → Reporter.Variable
  | value (.integer n) => .integer n
  | value (.floatingPoint d) => .floatingPoint d
  | value (.identifier s) => .identifier s
  | v => .other v.type

/-- The variable, as `sort()` sees it. -/
def toContent : Variable → InstSort.Content
  | value (.string s) => .string s
  | value (.integer n) => .integer n
  | value (.floatingPoint d) => .floatingPoint d
  | v => .other v.type

/-- The class of the variable is the one of its type. -/
def Formed : Variable → Prop
  | value v => ∀ type, v ≠ .other type
  | list items => ∀ item ∈ items.entries, ∀ type, item.2 = .other type → type = "void".toList
  | array items => ∀ item ∈ items, ∀ type, item ≠ .other type

@[simp] lemma type_toControl (v : Variable) : v.toControl.type = v.type := by
  rcases v with (_ | _ | _ | _ | _ | _ | _ | _) | _ | _ <;> rfl

@[simp] lemma type_toContent (v : Variable) : v.toContent.type = v.type := by
  rcases v with (_ | _ | _ | _ | _ | _ | _ | _) | _ | _ <;> rfl

end Variable

/-! ## How an execution stops -/

/-- Why an execution stops. -/
inductive Halted where
  /-- `STEP_DONE` -/
  | done
  /-- An exception. -/
  | raised (r : Raised)
  /-- The exception of `get_parameter()` for a parameter that is required. -/
  | missing (name : Str)
  /-- An `ed::out_of_range`. -/
  | outOfRange (what : Str)
  /-- Undefined: `back()` and `pop_back()` of an empty vector. -/
  | emptyStack
  /-- Undefined: a variable is used as one of another class. -/
  | wrongClass
  /-- Undefined: an operation on integers. -/
  | arithmetic (u : Undefined)
  /-- Undefined: `sort()` reads an iterator past the end of its map. -/
  | pastTheEnd
  /-- Undefined: `sort()` compares the keys of a map with a NaN. -/
  | notOrdered
  /-- Not of the source: `wait()` did not return yet. -/
  | waiting
  /-- Not of the source: the parser lets no other instruction through. -/
  | unknown
deriving DecidableEq

namespace Halted

/-- An exception of the lexer and the evaluation. -/
def ofThrown : Thrown → Halted
  | .runtimeError what => .raised (.runtimeError what)
  | .logicError what | .fixme what | .library what => .raised (.library what)

/-- An evaluation without a value. -/
def ofStop : Stop → Halted
  | .thrown t => ofThrown t
  | .undefined u => .arithmetic u

/-- The end of a `sort()`. -/
def ofSort : InstSort.Halt → Halted
  | .thrown t => ofThrown t
  | .wrongClass => .wrongClass
  | .pastTheEnd => .pastTheEnd
  | .notOrdered => .notOrdered

end Halted

/-- An `ed::runtime_error`. -/
def raise {α : Type} (what : Str) : Except Halted α := .error (.raised (.runtimeError what))

/-- A part whose failures are those of the execution. -/
def within {ε α : Type} (halted : ε → Halted) : Except ε α → Except Halted α
  | .ok a => .ok a
  | .error e => .error (halted e)

/-! ## The state -/

/-- `connection_type_t` -/
inductive ConnectionType where
  /-- A `messenger_tcp_server` and its clients. -/
  | messenger
  /-- A `direct_tcp_server` and its clients. -/
  | tcp
deriving DecidableEq, Repr

/-- Both kinds of clients are a `tcp_server_client_connection`. -/
def ConnectionType.dataClass : ConnectionType → ConnectionClass
  | messenger | tcp => .tcpServerClient

/-- Only the clients of a `messenger_tcp_server` are a `connection_with_send_message`. -/
def ConnectionType.messageClass : ConnectionType → MessageConnection
  | messenger => .withSendMessage
  | tcp => .other

/-- What the first connection was given to send. -/
inductive Output where
  | data (bytes : Block)
  | message (msg : Message)

/-- What a client or a server does when an event is processed. -/
inductive Arrival where
  /-- `process_accept()` -/
  | accepted
  /-- `process_message()` -/
  | message (msg : Message)
  /-- `process_read()` of a `direct_tcp_server_client`: one buffer. -/
  | data (block : Block)

/-- The members of `state`; the program and its labels do not change. -/
structure State where
  /-- `f_ip` -/
  ip : UInt32 := 0
  /-- `f_stack`, the last element first -/
  stack : List UInt32 := []
  /-- `f_variables` -/
  vars : SortedMap Str Variable := ∅
  /-- `f_compare` -/
  compare : Compare := .undefined
  /-- `f_in_thread` -/
  inThread : Bool := false
  /-- `f_exit_code` -/
  exitCode : ℤ := -1
  /-- `f_message` -/
  messages : List Message := []
  /-- `f_connection_data` and `f_data_position` -/
  data : Data := {}
  /-- `f_connection_type` -/
  connectionType : ConnectionType := .messenger
  /-- `f_listen`, as the type of its clients -/
  listen : Option ConnectionType := none
  /-- `f_connections` -/
  connections : List ConnectionType := []
  /-- Not a member: what the connections were given to send. -/
  sent : List Output := []
  /-- Not a member: what the clients and the server did. -/
  received : List Arrival := []

namespace State

/-- `get_variable()` -/
def getVariable (s : State) (name : Str) : Option Variable := s.vars.find? name

/-- `set_variable()` -/
def setVariable (s : State) (name : Str) (v : Variable) : State :=
  { s with vars := s.vars.insert name v }

/-- `unset_variable()` -/
def unsetVariable (s : State) (name : Str) : State :=
  { s with vars := s.vars.erase name }

/-- `set_ip()` -/
def setIp (p : Program) (ip : UInt32) (s : State) : Except Halted State :=
  if p.statements.length < ip.toNat then
    .error (.outOfRange "ip out of program not allowed.".toList)
  else .ok { s with ip := ip }

/-- `push_ip()` -/
def pushIp (s : State) : State := { s with stack := s.ip :: s.stack }

/-- `pop_ip()` -/
def popIp (s : State) : Except Halted State :=
  match s.stack with
  | [] => .error .emptyStack
  | ip :: stack => .ok { s with ip := ip, stack := stack }

/-- `get_compare()` -/
def getCompare (s : State) : Except Halted Compare :=
  if s.compare = .undefined then
    raise "trying to use a 'compare' result when none are currently defined.".toList
  else .ok s.compare

/-- `set_compare()` -/
def setCompare (c : Compare) (s : State) : Except Halted State :=
  if c = .undefined then raise "'compare' cannot be set to \"undefined\".".toList
  else .ok { s with compare := c }

/-- `get_message()` -/
def getMessage (s : State) : Message :=
  match s.messages with
  | [] => {}
  | msg :: _ => msg

/-- `clear_message()` -/
def clearMessage (s : State) : State :=
  match s.messages with
  | [] => s
  | _ :: messages => { s with messages := messages }

/-- `disconnect()` -/
def disconnect (s : State) : State := { s with listen := none }

/-- `add_connection()`, `add_message()` and `add_data()`, called by the clients and the server; a
server that is not there accepts nothing. -/
def add (s : State) : Arrival → State
  | .accepted =>
    match s.listen with
    | none => s
    | some type => { s with connections := s.connections ++ [type] }
  | .message msg => { s with messages := s.messages ++ [msg] }
  | .data block => { s with data := s.data.addData block }

/-- A callback that is called. -/
def arrive (s : State) (a : Arrival) : State := { s.add a with received := s.received ++ [a] }

/-- The state, as the evaluation of an expression sees it. -/
def script (s : State) (location : Str) : ScriptState where
  values := s.vars.mapTo Variable.toValue
  location := location

/-- The state, as the flow of control sees it. -/
def control (s : State) : Control where
  ip := s.ip
  stack := s.stack
  compare := s.compare
  vars := s.vars.mapTo Variable.toControl
  inThread := s.inThread

/-- The state, as the instructions about messages see it. -/
def messageState (s : State) (location : Str) : MessageState where
  messages := s.messages
  location := location

end State

/-! ## What is left of an execution -/

/-- An execution that stops, with the state that it leaves. -/
structure Stopped where
  /-- Why it stops. -/
  why : Halted
  /-- What was done before is kept. -/
  state : State

/-- A part of an instruction that leaves the state as it is, when it fails too. -/
def inState {α : Type} (s : State) : Except Halted α → Except Stopped α
  | .ok a => .ok a
  | .error h => .error ⟨h, s⟩

/-! ## The rest of the program -/

/-- The functions of other libraries and of the system that always answer the same. -/
structure Machine where
  /-- The operators of the values. -/
  A : Arithmetic
  /-- The functions about texts. -/
  S : Snapdev
  /-- The functions about messages. -/
  T : MessageTools
  /-- `snapdev::int_to_hex()` of an `int`, with its uppercase flag and its width -/
  intToHex : Int32 → Bool → Int32 → Str
  /-- `snapdev::to_upper()` -/
  toUpper : Str → Str
  /-- `sigabbrev_np()` -/
  sigabbrev : ℕ → Option Str

/-- What a call of the `poll()` of `wait()` does. -/
inductive Polled where
  /-- There are no connections to wait on. -/
  | nothing
  /-- The callbacks of the connections are called, up to the exception of one of them, if there is
  one; `ppoll()` may fail or time out before. -/
  | called (arrivals : List Arrival) (thrown : Option Raised)

/-- What the instruction of one step is answered. -/
structure Environment where
  /-- `snapdev::gethostname()` -/
  hostname : Str
  /-- `cppthread::get_pid_max()` -/
  pidMax : Int64
  /-- `snapdev::now()` -/
  now : TimespecEx
  /-- The four calls of `rand()`. -/
  rand : Int32 × Int32 × Int32 × Int32
  /-- The error of `pthread_kill()` for a signal, as `errno` and its text. -/
  pthreadKill : Int32 → Option (ℕ × Str)
  /-- `nanosleep()` succeeds. -/
  nanosleep : TimespecEx → Bool
  /-- The exception of the constructor of a server. -/
  server : ConnectionType → Addr → Option Raised
  /-- The exception of `resize()` of a buffer. -/
  resize : ℕ → Option Raised
  /-- The `poll()` of `exit()`: whether something else than a hang up happened. -/
  exitPoll : TimespecEx → Except Raised Bool
  /-- The calls of the `poll()` of `wait()`. -/
  waitPoll : WaitMode → TimespecEx → List Polled

end EventDispatcher.Script
