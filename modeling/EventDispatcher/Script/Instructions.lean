import EventDispatcher.Script.Parameters

/-!
# The instructions of a script

Each instruction is a function of the parameters and the state.  Most of them change the state at
their end, when nothing fails any more; the others say what they leave when they fail.  `Op` lists
the instructions with their names and the declarations of their parameters, `Op.func` is what they
do.
-/

namespace EventDispatcher.Script

open Lib Reporter

/-! ## Parts of the instructions -/

/-- An exception of a message. -/
def ofException (e : Exception) : Halted := .raised (.exception e)

/-- `get_label_position()`, and the jump there. -/
def jump (p : Program) (location name : Str) (s : State) : Except Halted State :=
  match p.labels.find? name with
  | none => raise (location ++ "label \"".toList ++ name ++ "\" not found.".toList)
  | some ip => s.setIp p ip

/-- The comparison with the number that `compare()` is given. -/
def compareOf (value : Int32) : Compare :=
  if value = -2 then .unordered
  else if value = -1 then .less
  else if value = 0 then .equal
  else .greater

/-- `COMPARE_TRUE` or `COMPARE_FALSE` -/
def compareBool (b : Bool) : Compare := if b then .greater else .equal

/-- The comparison with zero in `inst_if`. -/
def compareWithZero : Variable → Except Halted Compare
  | .value (.integer n) =>
    let v := n.toInt32
    .ok (if v = 0 then .equal else if v < 0 then .less else .greater)
  | .value (.floatingPoint none) => .ok .unordered
  | .value (.floatingPoint (some (.finite q))) =>
    .ok (if q = 0 then .equal else if q < 0 then .less else .greater)
  | .value (.floatingPoint (some (.infinite negative))) =>
    .ok (if negative then .less else .greater)
  | _ => raise "if(variable: ...) only supports variables of type integer or floating point.".toList

/-- The comparison that `inst_if` looks at. -/
def ifCompare (params : Parameters) (s : State) : Except Halted Compare := do
  let name ← params.optional asString "variable"
  match name with
  | none => s.getCompare
  | some name =>
    match s.getVariable name with
    | none => .ok .unordered
    | some value => compareWithZero value

/-- `SIGINT` -/
def sigint : Int32 := 2

/-- `SIGHUP` -/
def sighup : Int32 := 1

/-- `NSIG` -/
def nsig : Int32 := 65

/-- `signal_handler::get_signal_number()` -/
def getSignalNumber (M : Machine) (name : Str) : Int32 :=
  let name := cStr name
  -- the second character is compared, and not the first one
  if charValue '0' ≤ charValue (name.getD 0 nul) ∧ charValue (name.getD 1 nul) ≤ charValue '9' then
    match M.T.convertString name with
    | none => -1
    | some sig => if nsig.toInt64 ≤ sig then -1 else sig.toInt32
  else
    let name := if "SIG".toList <+: name then name.drop 3 else name
    match (List.range' 1 63).find? fun sig => M.sigabbrev sig = some name with
    | none => -1
    | some sig => .ofNat sig

/-- The number of the signal that `kill()` is given. -/
def signalOf (M : Machine) (location : Str) (v : Variable) : Except Halted Int32 :=
  if v.type = "integer".toList then (asInteger v).map Int64.toInt32
  else if v.type = "string".toList ∨ v.type = "identifier".toList then
    (asString v).map fun name => getSignalNumber M (M.toUpper name)
  else raise (location ++ "kill(signal: ...) unsupported parameter type.".toList)

/-- The signal that `kill()` sends. -/
def killSignal (M : Machine) (location : Str) (params : Parameters) : Except Halted Int32 :=
  match params.get "signal" with
  | none => .ok sigint
  | some v => do
    let sig ← signalOf M location v
    if sig < sighup ∨ nsig ≤ sig then
      raise (location ++ "kill(signal: ...) unknown signal.".toList)
    else .ok sig

/-- The type of the connections that `listen()` is given. -/
def connectionTypeOf : Option Str → Except Halted ConnectionType
  | none => .ok .messenger
  | some type =>
    if type = "tcp".toList then .ok .tcp
    else if type = "messenger".toList then .ok .messenger
    else raise ("unknown type \"".toList ++ type ++ "\" for listen().".toList)

/-- `state::listen()` -/
def State.listenOn (E : Environment) (a : Addr) (s : State) : Except Halted State :=
  match s.listen with
  | some _ => raise ("the listen() instruction cannot be reused without an intermediate ".toList
      ++ "disconnect() instruction.".toList)
  | none =>
    match E.server s.connectionType a with
    | some r => .error (.raised r)
    | none => .ok { s with listen := some s.connectionType }

/-- The number that `random()` makes of four numbers. -/
def randomOf (rand : Int32 × Int32 × Int32 × Int32) (negative : Bool) : Int64 :=
  let (a, b, c, d) := rand
  let result := (a.toInt64 <<< 48) ^^^ (b.toInt64 <<< 32) ^^^ (c.toInt64 <<< 16) ^^^ d.toInt64
  if negative then result else result &&& 0x7FFFFFFFFFFFFFFF

/-- The text that `save_parameter_value()` saves. -/
def parameterValue (S : Snapdev) (msg : Message) (name : Str) : Except Halted Str := do
  let found ← within ofException (msg.hasParameter S name)
  if found then within ofException (msg.getParameter S name)
  else if name = "sent_server".toList then .ok msg.sentFromServer
  else if name = "sent_service".toList then .ok msg.sentFromService
  else if name = "server".toList then .ok msg.server
  else if name = "service".toList then .ok msg.service
  else if name = "command".toList then .ok msg.command
  else .ok []

/-- The variable of a type that `save_parameter_value()` makes of a text. -/
def savedVariable (T : MessageTools) (type value : Str) : Except Halted Variable :=
  if type = "string".toList then .ok (.value (.string value))
  else if type = "identifier".toList then .ok (.value (.identifier value))
  else if type = "integer".toList then
    if value = [] then .ok (.value (.integer 0))
    else
      match T.convertString value with
      | none => raise ("value \"".toList ++ value ++ "\" not recognized as a valid integer.".toList)
      | some n => .ok (.value (.integer n))
  else if type = "timestamp".toList then
    if value = [] then .ok (.value (.timestamp (0, 0)))
    else
      match T.timespecEx value with
      | .error what => .error (.raised (.library what))
      | .ok t => .ok (.value (.timestamp t))
  else raise ("unsupported type \"".toList ++ type ++ "\" for save_parameter_value().".toList)

/-- An item of an array, as a `variable_integer`. -/
def asByte : VariableValue → Except Halted Int64
  | .integer n => .ok n
  | _ => .error .wrongClass

/-- The loop of `send_data()`: `i` items are in the buffer. -/
def sendItems (location : Str) : List VariableValue → ℕ → Block → Except Halted Block
  | [], _, buf => .ok buf
  | item :: items, i, buf => do
    let byte ← asByte item
    if byte < -128 ∨ 255 < byte then
      raise (location ++ "byte values must be between -128 and +255 (position ".toList ++ toText i
        ++ " has out of range value ".toList ++ toText byte.toInt ++ ").".toList)
    else sendItems location items (i + 1) (buf ++ [InstSendData.charOf byte])

/-- The loop of `verify_data()`, `i` items being behind.  The buffer has as many bytes. -/
def verifyItems (location : Str) : List VariableValue → Block → ℕ → Except Halted Unit
  | item :: items, byte :: buf, i => do
    let value ← asByte item
    if Int64.ofNat byte.toNat ≠ value then
      raise (location ++ "values at offset ".toList ++ toText i ++ " do not match (".toList
        ++ toText byte.toNat ++ " != ".toList ++ toText value.toInt ++ ").".toList)
    else verifyItems location items buf (i + 1)
  | _, _, _ => .ok ()

/-- A `variable_string`, with its type. -/
def asVariableString : Variable → Except Halted VariableString
  | .value (.string s) => .ok { string := s }
  | .value (.identifier s) => .ok { identifier := true, string := s }
  | _ => .error .wrongClass

/-- The parameters of `send_message()`. -/
def sendParameters (params : Parameters) : Except Halted SendParameters := do
  let sentServer ← params.optional asVariableString "sent_server"
  let sentService ← params.optional asVariableString "sent_service"
  let server ← params.optional asVariableString "server"
  let service ← params.optional asVariableString "service"
  let command ← params.given asString "command"
  let parameters ← params.optional asList "parameters"
  return { sentServer, sentService, server, service, command, parameters }

/-- The parameters of `verify_message()`. -/
def verifyParameters (params : Parameters) : Except Halted VerifyParameters := do
  let command ← params.required "command"
  let requiredParameters ← params.optional asList "required_parameters"
  let optionalParameters ← params.optional asList "optional_parameters"
  let forbiddenParameters ← params.optional asList "forbidden_parameters"
  return {
    sentServer := (params.get "sent_server").map Variable.toValue
    sentService := (params.get "sent_service").map Variable.toValue
    server := (params.get "server").map Variable.toValue
    service := (params.get "service").map Variable.toValue
    command := command.toValue
    requiredParameters, optionalParameters, forbiddenParameters }

/-- A variable with a value that `sort()` writes. -/
def ofContent : InstSort.Content → Option Variable
  | .string s => some (.value (.string s))
  | .integer n => some (.value (.integer n))
  | .floatingPoint d => some (.value (.floatingPoint d))
  | .other _ => none

/-- A variable gets its value after the `sort()`. -/
def writeSorted (sorted : InstSort.Vars) (vars : SortedMap Str Variable) (name : Str) :
    SortedMap Str Variable :=
  match (sorted.find? name).bind ofContent with
  | none => vars
  | some v => vars.insert name v

/-- The mode that `wait()` is given. -/
def waitModeOf (location : Str) : Option Str → Except Halted WaitMode
  | none => .ok .wait
  | some m =>
    if m = "wait".toList then .ok .wait
    else if m = "drain".toList then .ok .drain
    else if m = "timeout".toList then .ok .timeout
    else raise (location ++ "unknown mode \"".toList ++ m ++ "\" in wait().".toList)

/-- The timeout and the mode that `wait()` is given. -/
def waitParameters (C : Conversions) (location : Str) (params : Parameters) :
    Except Halted (TimespecEx × WaitMode) := do
  let timeout ← params.given (asDuration C) "timeout"
  let given ← params.optional asString "mode"
  let mode ← waitModeOf location given
  return (timeout, mode)

/-- What the callbacks do in the calls of `poll()` of a `wait()`: it makes one call, and more of
them to drain the connections. -/
def polled (mode : WaitMode) : List Polled → List Arrival
  | [] | .nothing :: _ => []
  | .called arrivals thrown :: polls =>
    arrivals ++ if mode = .drain ∧ thrown = none then polled mode polls else []

/-- The loop of `wait()` over the calls of `poll()`. -/
def waitLoop (mode : WaitMode) : List Polled → State → Except Stopped State
  | [], s => .error ⟨.waiting, s⟩
  | .nothing :: _, s =>
    if mode = .drain then .ok s else inState s (raise "no connections to wait() on.".toList)
  | .called arrivals thrown :: polls, s =>
    let s := arrivals.foldl State.arrive s
    match thrown with
    | some r => .error ⟨.raised r, s⟩
    | none => if mode = .drain then waitLoop mode polls s else .ok s

/-! ## The instructions -/

section Instructions

variable (M : Machine) (E : Environment) (p : Program) (location : Str) (params : Parameters)
  (s : State)

/-- `inst_call` -/
def instCall : Except Stopped State := do
  let s := s.pushIp
  let name ← inState s (params.given asString "label")
  inState s (jump p location name s)

/-- `inst_clear_data` -/
def instClearData : Except Halted State := .ok { s with data := s.data.clearData }

/-- `inst_clear_message` -/
def instClearMessage : Except Halted State := .ok s.clearMessage

/-- `inst_compare` -/
def instCompare : Except Halted State := do
  let n ← params.given asInteger "expression"
  let value := n.toInt32
  if value < -2 ∨ 1 < value then
    raise (location ++ "unsupported integer in compare(), values are limited to -2 to 1.".toList)
  else s.setCompare (compareOf value)

/-- `inst_disconnect` -/
def instDisconnect : Except Halted State := .ok s.disconnect

/-- The exit code that `inst_exit` ends with. -/
def exitCodeOf : Except Halted ℤ :=
  match params.get "error_message" with
  | some errorMessage =>
    match params.get "timeout" with
    | some _ => raise (location ++ ("\"timeout\" and \"error_message\" from the exit() instruction"
        ++ " are mutually exclusive.").toList)
    | none => do
      let _ ← asString errorMessage
      return 1
  | none => do
    let timeout ← params.optional (asDuration M.A.toConversions) "timeout"
    match timeout with
    | none => .ok 0
    | some timeout =>
      let received ← within .raised (E.exitPoll timeout)
      return if received then 1 else 0

/-- `inst_exit` -/
def instExit : Except Stopped State := do
  let s := { s with exitCode := 0 }
  let exitCode ← inState s (exitCodeOf M E location params)
  let s := { s with exitCode }
  inState s (s.setIp p (UInt32.ofNat p.statements.length))

/-- `inst_goto` -/
def instGoto : Except Halted State := do
  let name ← params.given asString "label"
  jump p location name s

/-- `inst_has_data` -/
def instHasData : Except Halted State :=
  let size := s.data.dataSize
  if 0 < size then do
    let minSize ← params.optional asInteger "min_size"
    s.setCompare (compareBool (minSize.all fun n => n.toInt ≤ (size : ℤ)))
  else s.setCompare (compareBool false)

/-- `inst_has_message` -/
def instHasMessage : Except Halted State :=
  let command := s.getMessage.command
  if command ≠ [] then do
    let name ← params.optional asString "command"
    s.setCompare (compareBool (name.all fun name => command = name))
  else s.setCompare (compareBool false)

/-- `inst_has_type` -/
def instHasType : Except Halted State := do
  let name ← params.given asString "name"
  match s.getVariable name with
  | none => s.setCompare .unordered
  | some var =>
    let type ← params.given asString "type"
    s.setCompare (compareBool (var.type = type))

/-- `inst_hex` -/
def instHex : Except Halted State := do
  let name ← params.given asString "variable_name"
  let value ← params.given asInteger "value"
  let uppercase ← params.optional asInteger "uppercase"
  -- a width that is not an integer is ignored
  let width := (params.get "width").bind fun v => (asInteger v).toOption
  let text := M.intToHex value.toInt32 (uppercase.any fun n => n ≠ 0)
    ((width.map Int64.toInt32).getD 1)
  return s.setVariable name (.value (.string text))

/-- `inst_hostname` -/
def instHostname : Except Halted State := do
  let name ← params.given asString "variable_name"
  return s.setVariable name (.value (.string E.hostname))

/-- `inst_if` -/
def instIf : Except Halted State := do
  let compare ← ifCompare params s
  match (Control.ifLabels compare).findSome? params.get with
  | none => .ok s
  | some label =>
    let name ← asString label
    jump p location name s

/-- `inst_kill` -/
def instKill : Except Halted State := do
  let sig ← killSignal M location params
  match E.pthreadKill sig with
  | none => .ok s
  | some (errno, text) => raise (location ++ "kill(): signal could not be sent (errno: ".toList
      ++ toText errno ++ ", ".toList ++ text ++ ").".toList)

/-- `inst_label` -/
def instLabel : Except Halted State := .ok s

/-- `inst_listen` -/
def instListen : Except Stopped State := do
  let s := { s with connectionType := .messenger }
  let given ← inState s (params.optional asString "connection_type")
  let connectionType ← inState s (connectionTypeOf given)
  let s := { s with connectionType }
  let a ← inState s (params.given asAddress "address")
  inState s (s.listenOn E a)

/-- `inst_max_pid` -/
def instMaxPid : Except Halted State := do
  let name ← params.given asString "variable_name"
  return s.setVariable name (.value (.integer E.pidMax))

/-- `inst_now` -/
def instNow : Except Halted State := do
  let name ← params.given asString "variable_name"
  return s.setVariable name (.value (.timestamp E.now))

/-- `inst_print` -/
def instPrint : Except Halted State := do
  let _ ← params.given asString "message"
  return s

/-- `inst_random` -/
def instRandom : Except Halted State := do
  let name ← params.given asString "variable_name"
  let negative ← params.optional asInteger "negative"
  return s.setVariable name (.value (.integer (randomOf E.rand (negative.all fun n => n ≠ 0))))

/-- `inst_return` -/
def instReturn : Except Halted State := s.popIp

/-- `inst_run`, which the executor does not call -/
def instRun : Except Halted State :=
  .error (ofException ⟨.implementationError,
    "run::func() was called when it should be intercepted by the executor.".toList⟩)

/-- `inst_save_parameter_value` -/
def instSaveParameterValue : Except Halted State := do
  let parameterName ← params.given asString "parameter_name"
  let value ← parameterValue M.S s.getMessage parameterName
  let name ← params.given asString "variable_name"
  let type ← params.optional asString "type"
  let v ← savedVariable M.T (type.getD "string".toList) value
  return s.setVariable name v

/-- `inst_send_data` -/
def instSendData : Except Halted State :=
  match s.connections.map ConnectionType.dataClass with
  | [] => raise "send_data() has no connection to send data.".toList
  | .other :: _ => raise "send_data() called without a valid listener connection.".toList
  | .tcpServerClient :: _ => do
    let items ← params.given asArray "values"
    if items.length = 0 then raise (location ++ "array cannot be empty.".toList)
    else
      let buf ← sendItems location items 0 []
      return { s with sent := s.sent ++ [.data buf] }

/-- `inst_send_message`; the parameters have the classes of their declarations, so that they can
be read before the connection is looked at. -/
def instSendMessage : Except Halted State := do
  let parameters ← sendParameters params
  let msg ← within .raised
    (InstSendMessage.func M.S M.T (s.connections.map ConnectionType.messageClass) parameters)
  return { s with sent := s.sent ++ [.message msg] }

/-- `inst_set_variable` -/
def instSetVariable : Except Halted State := do
  let name ← params.given asString "name"
  let value ← params.required "value"
  let type ← params.optional asString "type"
  match type.getD [] with
  | [] => .ok (s.setVariable name value)
  | cast =>
    let v ← within .ofThrown
      (ScriptState.castVariable M.A.toConversions value.toValue cast)
    return s.setVariable name (.value v)

/-- `inst_show_data` -/
def instShowData : Except Halted State := do
  let size ← params.given asInteger "size"
  if s.data.connectionData = [] then .ok s
  else
    match E.resize size.toUInt64.toNat with
    | some r => .error (.raised r)
    | none => .ok s

/-- `inst_show_message` -/
def instShowMessage : Except Halted State := .ok s

/-- `inst_sleep` -/
def instSleep : Except Halted State := do
  let seconds ← params.given (asDuration M.A.toConversions) "seconds"
  if E.nanosleep seconds then .ok s else raise "nanosleep failed.".toList

/-- `inst_sort` -/
def instSort : Except Halted State := do
  let names ← params.mapM fun param => (asString param.2).map (param.1, ·)
  let sorted ← within .ofSort (InstSort.func location names (s.vars.mapTo Variable.toContent))
  return { s with vars := (names.map Prod.snd).foldl (writeSorted sorted) s.vars }

/-- `inst_strlen` -/
def instStrlen : Except Halted State := do
  let text ← params.given asString "string"
  let name ← params.given asString "variable_name"
  return s.setVariable name (.value (.integer (.ofNat text.length)))

/-- `inst_unset_variable` -/
def instUnsetVariable : Except Halted State := do
  let name ← params.given asString "name"
  return s.unsetVariable name

/-- `inst_verify_data` -/
def instVerifyData : Except Stopped State := do
  let items ← inState s (params.given asArray "values")
  if items.length = 0 then inState s (raise (location ++ "array cannot be empty.".toList))
  else
    let (r, data) := s.data.readData [] items.length
    let s := { s with data }
    if r.result ≠ items.length then
      inState s (raise (location ++ "could not read ".toList ++ toText items.length
        ++ " bytes from the data buffer, got ".toList ++ toText r.result ++ " instead.".toList))
    else
      inState s (verifyItems location items r.buf 0)
      return s

/-- `inst_verify_message` -/
def instVerifyMessage : Except Halted State := do
  let parameters ← verifyParameters params
  within .raised (InstVerifyMessage.func M.S M.T (s.messageState location) parameters)
  return s

/-- `inst_wait` -/
def instWait : Except Stopped State :=
  if s.inThread then do
    let (timeout, mode) ← inState s (waitParameters M.A.toConversions location params)
    waitLoop mode (E.waitPoll mode timeout) s
  else inState s (raise "wait() used before run().".toList)

end Instructions

/-! ## The table -/

/-- The instructions. -/
inductive Op where
  | call
  | clearData
  | clearMessage
  | compare
  | disconnect
  | exit
  | goto
  | hasData
  | hasMessage
  | hasType
  | hex
  | hostname
  | ifs
  | kill
  | label
  | listen
  | maxPid
  | now
  | print
  | random
  | returns
  | run
  | saveParameterValue
  | sendData
  | sendMessage
  | setVariable
  | showData
  | showMessage
  | sleep
  | sort
  | strlen
  | unsetVariable
  | verifyData
  | verifyMessage
  | wait
deriving DecidableEq, Repr

namespace Op

/-- `g_instructions`, in the order of the file -/
def all : List Op :=
  [call, clearData, clearMessage, compare, disconnect, exit, goto, hasData, hasMessage, hasType,
    hex, hostname, ifs, kill, label, listen, maxPid, now, print, random, returns, run,
    saveParameterValue, sendData, sendMessage, setVariable, showData, showMessage, sleep, sort,
    strlen, unsetVariable, verifyData, verifyMessage, wait]

/-- `get_name()` -/
def name : Op → String
  | call => "call"
  | clearData => "clear_data"
  | clearMessage => "clear_message"
  | compare => "compare"
  | disconnect => "disconnect"
  | exit => "exit"
  | goto => "goto"
  | hasData => "has_data"
  | hasMessage => "has_message"
  | hasType => "has_type"
  | hex => "hex"
  | hostname => "hostname"
  | ifs => "if"
  | kill => "kill"
  | label => "label"
  | listen => "listen"
  | maxPid => "max_pid"
  | now => "now"
  | print => "print"
  | random => "random"
  | returns => "return"
  | run => "run"
  | saveParameterValue => "save_parameter_value"
  | sendData => "send_data"
  | sendMessage => "send_message"
  | setVariable => "set_variable"
  | showData => "show_data"
  | showMessage => "show_message"
  | sleep => "sleep"
  | sort => "sort"
  | strlen => "strlen"
  | unsetVariable => "unset_variable"
  | verifyData => "verify_data"
  | verifyMessage => "verify_message"
  | wait => "wait"

/-- A parameter that is required. -/
def requires (name type : String) : ParameterDeclaration :=
  { name := name.toList, type := type.toList }

/-- A parameter that is optional. -/
def accepts (name type : String) : ParameterDeclaration :=
  { name := name.toList, type := type.toList, required := false }

/-- `parameter_declarations()` -/
def declarations : Op → List ParameterDeclaration
  | call | goto => [requires "label" "identifier"]
  | compare => [requires "expression" "integer"]
  | exit => [accepts "error_message" "string", accepts "timeout" "number"]
  | hasData => [accepts "min_size" "integer"]
  | hasMessage => [accepts "command" "identifier"]
  | hasType => [requires "name" "identifier", requires "type" "identifier"]
  | hex =>
    [requires "variable_name" "identifier", requires "value" "integer",
      accepts "uppercase" "integer", accepts "width" "integer"]
  | hostname | maxPid | now => [requires "variable_name" "identifier"]
  | ifs =>
    ["variable", "unordered", "ordered", "less", "less_or_equal", "greater", "greater_or_equal",
      "equal", "false", "not_equal", "true"].map fun name => accepts name "identifier"
  | kill => [accepts "signal" "any"]
  | label => [requires "name" "identifier"]
  | listen => [requires "address" "address", accepts "connection_type" "identifier"]
  | print => [requires "message" "string"]
  | random => [requires "variable_name" "identifier", accepts "negative" "integer"]
  | saveParameterValue =>
    [requires "parameter_name" "identifier", requires "variable_name" "identifier",
      accepts "type" "identifier"]
  | sendData | verifyData => [requires "values" "array"]
  | sendMessage =>
    [accepts "sent_server" "string_or_identifier", accepts "sent_service" "string_or_identifier",
      accepts "server" "string_or_identifier", accepts "service" "string_or_identifier",
      requires "command" "identifier", accepts "parameters" "list"]
  | setVariable =>
    [requires "name" "identifier", requires "value" "any", accepts "type" "identifier"]
  | showData => [requires "size" "integer"]
  | sleep => [requires "seconds" "number"]
  | sort => InstSort.sortParams
  | strlen => [requires "variable_name" "string_or_identifier", requires "string" "string"]
  | unsetVariable => [requires "name" "identifier"]
  | verifyMessage =>
    [accepts "sent_server" "any", accepts "sent_service" "any", accepts "server" "any",
      accepts "service" "any", requires "command" "any", accepts "required_parameters" "list",
      accepts "optional_parameters" "list", accepts "forbidden_parameters" "list"]
  | wait => [requires "timeout" "number", accepts "mode" "identifier"]
  | clearData | clearMessage | disconnect | returns | run | showMessage => []

/-- The instruction, as the parser sees it. -/
def instruction (op : Op) : Instruction where
  name := op.name.toList
  parameterDeclarations := op.declarations

/-- The instruction of a statement. -/
def of? (i : Instruction) : Option Op := all.find? fun op => op.instruction = i

/-- `func()` -/
def func (op : Op) (M : Machine) (E : Environment) (p : Program) (location : Str)
    (params : Parameters) (s : State) : Except Stopped State :=
  match op with
  | call => instCall p location params s
  | clearData => inState s (instClearData s)
  | clearMessage => inState s (instClearMessage s)
  | compare => inState s (instCompare location params s)
  | disconnect => inState s (instDisconnect s)
  | exit => instExit M E p location params s
  | goto => inState s (instGoto p location params s)
  | hasData => inState s (instHasData params s)
  | hasMessage => inState s (instHasMessage params s)
  | hasType => inState s (instHasType params s)
  | hex => inState s (instHex M params s)
  | hostname => inState s (instHostname E params s)
  | ifs => inState s (instIf p location params s)
  | kill => inState s (instKill M E location params s)
  | label => inState s (instLabel s)
  | listen => instListen E params s
  | maxPid => inState s (instMaxPid E params s)
  | now => inState s (instNow E params s)
  | print => inState s (instPrint params s)
  | random => inState s (instRandom E params s)
  | returns => inState s (instReturn s)
  | run => inState s instRun
  | saveParameterValue => inState s (instSaveParameterValue M params s)
  | sendData => inState s (instSendData location params s)
  | sendMessage => inState s (instSendMessage M params s)
  | setVariable => inState s (instSetVariable M params s)
  | showData => inState s (instShowData E params s)
  | showMessage => inState s (instShowMessage s)
  | sleep => inState s (instSleep M E params s)
  | sort => inState s (instSort location params s)
  | strlen => inState s (instStrlen params s)
  | unsetVariable => inState s (instUnsetVariable params s)
  | verifyData => instVerifyData location params s
  | verifyMessage => inState s (instVerifyMessage M location params s)
  | wait => instWait M E location params s

end Op

/-- The instructions that are registered. -/
def instructions : List Instruction := Op.all.map Op.instruction

/-! ## One step -/

/-- `execute_instruction()`; `STEP_START` starts the thread, which takes over. -/
def executeInstruction (M : Machine) (E : Environment) (p : Program) (s : State) :
    Except Stopped State :=
  match p.statements[s.ip.toNat]? with
  | none => .error ⟨.done, s⟩
  | some stmt => do
    let s ← inState s (s.setIp p (s.ip + 1))
    match Op.of? stmt.instruction with
    | none => .error ⟨.unknown, s⟩
    | some op =>
      if op = .run then
        if s.inThread then
          inState s (raise
            "run() instruction found when already running in the background.".toList)
        else return { s with inThread := true }
      else
        let params ← inState s
          (parametersOf (evaluate M.A (s.script stmt.location)) stmt op.declarations)
        op.func M E p stmt.location params s

end EventDispatcher.Script
