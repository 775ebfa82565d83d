import EventDispatcher.Reporter.Variables
import EventDispatcher.SnapLogger.Record

/-!
# Sending and verifying messages

`send_message()` makes a message of its parameters, which becomes text: a parameter of the message
is the text of its variable.  `verify_message()` takes the message at the front of the queue and
compares its fields with the ones that are given, then the parameters of three lists: the required
ones, the optional ones and the forbidden ones.  `InstVerifyMessage.func_eq_ok_iff` says what it
accepts, and so it recognizes the messages of `send_message()` (`verifyMessage_recognizes`).
-/

namespace EventDispatcher.Reporter

open Lib

/-- What the instructions about messages throw. -/
inductive Raised where
  /-- An exception of this library. -/
  | exception (e : Exception)
  /-- An exception of another library. -/
  | library (what : Str)
deriving DecidableEq

/-- An `ed::runtime_error`. -/
def Raised.runtimeError (what : Str) : Raised := .exception ⟨.runtimeError, what⟩

/-- A function of a message that may throw. -/
def raised {α : Type} : Except Exception α → Except Raised α
  | .error e => .error (.exception e)
  | .ok a => .ok a

/-- The functions of other libraries that the instructions call. -/
structure MessageTools where
  /-- `timespec_ex::to_timestamp(true)` -/
  toTimestamp : TimespecEx → Str
  /-- The constructor of `timespec_ex` from a string. -/
  timespecEx : Str → Except Str TimespecEx
  /-- `timespec_ex::to_string()` -/
  timespecText : TimespecEx → Str
  /-- `validator_integer::convert_string()` -/
  convertString : Str → Option Int64
  /-- `std::regex_match()` of a text, with the regular expression that was compiled before. -/
  regexMatch : Str → Str → Except Str Bool

/-- `validator_integer::convert_string()` inverts `std::to_string()`. -/
def MessageTools.InvertsToString (T : MessageTools) : Prop :=
  ∀ n : Int64, T.convertString (intText n.toInt) = some n

/-- A library that reads decimal integers; a regular expression stands for itself. -/
def MessageTools.standard : MessageTools where
  toTimestamp t := intText t.1.toInt
  timespecEx _ := .error "not a timestamp".toList
  timespecText t := intText t.1.toInt
  convertString s := (SnapLogger.decimalInteger s).bind fun n =>
    if (Int64.ofInt n).toInt = n then some (Int64.ofInt n) else none
  regexMatch value regex := .ok (value = regex)

lemma MessageTools.invertsToString_standard : MessageTools.standard.InvertsToString := by
  intro n
  change (SnapLogger.decimalInteger (intText n.toInt)).bind _ = _
  rw [SnapLogger.decimalInteger_intText, Option.bind_some, Int64.ofInt_toInt]
  exact if_pos rfl

/-- The class of a connection of the state. -/
inductive MessageConnection where
  /-- A `connection_with_send_message`. -/
  | withSendMessage
  | other
deriving DecidableEq, Repr

/-- The state of a script, as far as its messages go. -/
structure MessageState where
  /-- `f_message` -/
  messages : List Message := []
  /-- The location of the running statement. -/
  location : Str := []

namespace MessageState

/-- `state::get_message()` -/
def getMessage (s : MessageState) : Message :=
  match s.messages with
  | [] => {}
  | msg :: _ => msg

/-- `state::clear_message()` -/
def clearMessage (s : MessageState) : MessageState :=
  match s.messages with
  | [] => s
  | _ :: messages => { s with messages := messages }

/-- The queue after some calls of `clear_message()`. -/
lemma messages_iterate_clearMessage {s : MessageState} {earlier rest : List Message}
    (h : s.messages = earlier ++ rest) :
    (clearMessage^[earlier.length] s).messages = rest := by
  induction earlier generalizing s with
  | nil => exact h
  | cons msg earlier ih =>
    rw [List.length_cons, Function.iterate_succ_apply]
    apply ih
    rw [clearMessage, h]
    rfl

end MessageState

/-! ## The parameters of the instructions -/

/-- A `variable_string`: a string or an identifier. -/
structure VariableString where
  /-- The type is `identifier`. -/
  identifier : Bool := false
  /-- `get_string()` -/
  string : Str
deriving DecidableEq

/-- The variable with its type. -/
def VariableString.value (v : VariableString) : VariableValue :=
  if v.identifier then .identifier v.string else .string v.string

/-- A `variable_list`: its items by their name. -/
abbrev VariableList := SortedMap Str VariableValue

/-- The parameters of `send_message()`, with the types of its declarations. -/
structure SendParameters where
  sentServer : Option VariableString := none
  sentService : Option VariableString := none
  server : Option VariableString := none
  service : Option VariableString := none
  /-- An identifier. -/
  command : Str
  parameters : Option VariableList := none

/-- The parameters of `verify_message()`, with the types of its declarations. -/
structure VerifyParameters where
  sentServer : Option VariableValue := none
  sentService : Option VariableValue := none
  server : Option VariableValue := none
  service : Option VariableValue := none
  command : VariableValue
  requiredParameters : Option VariableList := none
  optionalParameters : Option VariableList := none
  forbiddenParameters : Option VariableList := none

/-! ## The instructions -/

namespace InstSendMessage

/-- A setter is called when its parameter is there. -/
def setGiven (set : Message → Str → Except Exception Message) (param : Option VariableString)
    (msg : Message) : Except Raised Message :=
  match param with
  | none => .ok msg
  | some var => raised (set msg var.string)

/-- One item of the list of parameters. -/
def addItem (S : Snapdev) (T : MessageTools) (msg : Message) (name : Str) :
    VariableValue → Except Raised Message
  | .integer n => raised (msg.addParameter S name (intText n.toInt))
  | .string s => raised (msg.addParameter S name s)
  | .identifier s => raised (msg.addParameter S name s)
  | .timestamp t => raised (msg.addParameter S name (T.toTimestamp t))
  | var => .error (.runtimeError
      ("message parameter type \"".toList ++ var.type ++ "\" not supported yet.".toList))

/-- The loop over the items of the list. -/
def addItems (S : Snapdev) (T : MessageTools) : List (Str × VariableValue) → Message →
    Except Raised Message
  | [], msg => .ok msg
  | (name, var) :: items, msg =>
    match addItem S T msg name var with
    | .error e => .error e
    | .ok msg => addItems S T items msg

/-- The items are added when there is a list. -/
def addParameters (S : Snapdev) (T : MessageTools) (param : Option VariableList)
    (msg : Message) : Except Raised Message :=
  match param with
  | none => .ok msg
  | some list => addItems S T list.entries msg

/-- `inst_send_message::func()`: the message that is given to the connection. -/
def func (S : Snapdev) (T : MessageTools) (connections : List MessageConnection)
    (p : SendParameters) : Except Raised Message :=
  match connections with
  | [] => .error (.runtimeError "send_message() has no connection to send a message to.".toList)
  | .other :: _ =>
    .error (.runtimeError "send_message() called without a valid listener connection.".toList)
  | .withSendMessage :: _ => do
    let msg ← setGiven (Message.setSentFromServer S) p.sentServer {}
    let msg ← setGiven (Message.setSentFromService S) p.sentService msg
    let msg ← setGiven (Message.setServer S) p.server msg
    let msg ← setGiven (Message.setService S) p.service msg
    let msg ← raised (msg.setCommand S p.command)
    addParameters S T p.parameters msg

end InstSendMessage

namespace InstVerifyMessage

/-- The text of the error for a parameter of the message that is not there; `function` is the one
that was called. -/
def notDefined (function : Str) (msg : Message) (name : Str) : Exception :=
  ⟨.invalidMessage, "message::".toList ++ function ++ "(): parameter \"".toList ++ name
    ++ "\" of command \"".toList ++ msg.command
    ++ "\" not defined, try has_parameter() before calling the ".toList ++ function
    ++ "() function.".toList⟩

/-- `message::get_integer_parameter()` -/
def getIntegerParameter (S : Snapdev) (T : MessageTools) (msg : Message) (name : Str) :
    Except Raised Int64 :=
  match verifyMessageName S name with
  | .error e => .error (.exception e)
  | .ok () =>
    match msg.parameters.find? name with
    | some value =>
      match T.convertString value with
      | some r => .ok r
      | none =>
        .error (.exception ⟨.invalidMessage,
          "message::get_integer_parameter(): command \"".toList ++ msg.command
            ++ "\" expected an integer for \"".toList ++ name ++ "\" but \"".toList ++ value
            ++ "\" could not be converted.".toList⟩)
    | none => .error (.exception (notDefined "get_integer_parameter".toList msg name))

/-- `message::get_timespec_parameter()` -/
def getTimespecParameter (S : Snapdev) (T : MessageTools) (msg : Message) (name : Str) :
    Except Raised TimespecEx :=
  match verifyMessageName S name with
  | .error e => .error (.exception e)
  | .ok () =>
    match msg.parameters.find? name with
    | some value =>
      match T.timespecEx value with
      | .ok r => .ok r
      | .error what => .error (.library what)
    | none => .error (.exception (notDefined "get_timespec_parameter".toList msg name))

/-- The error for a text that does not match; `kind` is what the variable is. -/
def doesNotMatch (location start name value kind expected : Str) : Raised :=
  .runtimeError (location ++ start ++ name ++ "\", set to \"".toList ++ value
    ++ "\", to match ".toList ++ kind ++ "\"".toList ++ expected ++ "\".".toList)

/-- The regular expression is compiled, and the text has to match. -/
def checkRegex (T : MessageTools) (location start name value regex : Str) : Except Raised Unit :=
  match T.regexMatch value regex with
  | .error what => .error (.library what)
  | .ok false => .error (doesNotMatch location start name value "regex ".toList regex)
  | .ok true => .ok ()

/-- A field that is expected to be a text. -/
def checkText (location name value expected : Str) : Except Raised Unit :=
  if expected ≠ value then
    .error (doesNotMatch location "message expected \"".toList name value [] expected)
  else .ok ()

/-- `check_value()`, the parameter having been looked up. -/
def checkValue (T : MessageTools) (location : Str) (param : Option VariableValue)
    (name value : Str) : Except Raised Unit :=
  match param with
  | none => .ok ()
  | some (.string expected) => checkText location name value expected
  | some (.identifier expected) => checkText location name value expected
  | some (.regex regex) =>
    checkRegex T location "message expected \"".toList name value regex
  | some var => .error (.runtimeError (location ++ "message value \"".toList ++ name
      ++ "\" does not support type \"".toList ++ var.type ++ "\".".toList))

/-- The loop that erases what two texts start with. -/
def eraseCommon : Str → Str → Str × Str
  | a :: expected, b :: value =>
    if a = b then eraseCommon expected value else (a :: expected, b :: value)
  | expected, value => (expected, value)

/-- The two texts as the error shows them. -/
def shorten (expected value : Str) : Str × Str :=
  if 100 < expected.length ∨ 100 < value.length then
    let (e, v) := eraseCommon expected value
    -- something was erased
    if e.length < expected.length then ("...".toList ++ e, "...".toList ++ v) else (e, v)
  else (expected, value)

/-- A parameter that is expected to be a text. -/
def checkString (S : Snapdev) (location : Str) (msg : Message) (name expected : Str) :
    Except Raised Unit := do
  let value ← raised (msg.getParameter S name)
  if expected ≠ value then
    let (e, v) := shorten expected value
    .error (.runtimeError (location ++ "message expected parameter \"".toList ++ name
      ++ "\" to be a string set to \"".toList ++ e ++ "\" but found \"".toList ++ v
      ++ "\" instead.".toList))
  else .ok ()

/-- The error for a variable that a parameter cannot be compared with. -/
def notSupported (location type : Str) : Raised :=
  .runtimeError (location ++ "message parameter type \"".toList ++ type
    ++ "\" not supported yet.".toList)

/-- A parameter that is there, compared with the variable of the list. -/
def checkParameter (S : Snapdev) (T : MessageTools) (location : Str) (msg : Message)
    (name : Str) : VariableValue → Except Raised Unit
  | .integer expected => do
    let value ← getIntegerParameter S T msg name
    if expected ≠ value then
      .error (.runtimeError (location ++ "message expected parameter \"".toList ++ name
        ++ "\" to be an integer set to \"".toList ++ intText expected.toInt
        ++ "\" but found \"".toList ++ intText value.toInt ++ "\" instead.".toList))
    else .ok ()
  | .string expected => checkString S location msg name expected
  | .identifier expected => checkString S location msg name expected
  | .regex regex => do
    let value ← raised (msg.getParameter S name)
    checkRegex T location "message expected parameter \"".toList name value regex
  | .timestamp expected => do
    let value ← getTimespecParameter S T msg name
    if expected ≠ value then
      .error (doesNotMatch location "message expected parameter \"".toList name
        (T.timespecText value) "timestamp ".toList (T.timespecText expected))
    else .ok ()
  | .other type =>
    -- a parameter without a value only has to be there
    if type = "void".toList then .ok () else .error (notSupported location type)
  | var => .error (notSupported location var.type)

/-- One item of the lists of parameters. -/
def checkItem (S : Snapdev) (T : MessageTools) (location : Str) (msg : Message)
    (optional forbidden : Bool) (name : Str) (var : VariableValue) : Except Raised Unit := do
  let found ← raised (msg.hasParameter S name)
  if found then
    if forbidden then
      .error (.runtimeError (location ++ "message forbidden parameter \"".toList ++ name
        ++ "\" was found in this message.".toList))
    else checkParameter S T location msg name var
  else if optional || forbidden then .ok ()
  else .error (.runtimeError (location ++ "message required parameter \"".toList ++ name
    ++ "\" was not found in this message.".toList))

/-- `check_parameters()`, the list having been looked up. -/
def checkParameters (S : Snapdev) (T : MessageTools) (location : Str) (msg : Message)
    (list : Option VariableList) (optional forbidden : Bool) : Except Raised Unit :=
  match list with
  | none => .ok ()
  | some list =>
    list.entries.forM fun item => checkItem S T location msg optional forbidden item.1 item.2

/-- `inst_verify_message::func()` -/
def func (S : Snapdev) (T : MessageTools) (s : MessageState) (p : VerifyParameters) :
    Except Raised Unit := do
  let msg := s.getMessage
  checkValue T s.location p.sentServer "sent_server".toList msg.sentFromServer
  checkValue T s.location p.sentService "sent_service".toList msg.sentFromService
  checkValue T s.location p.server "server".toList msg.server
  checkValue T s.location p.service "service".toList msg.service
  checkValue T s.location (some p.command) "command".toList msg.command
  checkParameters S T s.location msg p.requiredParameters false false
  checkParameters S T s.location msg p.optionalParameters true false
  checkParameters S T s.location msg p.forbiddenParameters false true

end InstVerifyMessage

/-! ## What the instructions do -/

/-- The fields of a message that the instructions give by name. -/
inductive MessageField where
  | sentServer
  | sentService
  | server
  | service
  | command
deriving DecidableEq, Repr

/-- The text of the field in a message. -/
def MessageField.ofMessage (m : Fields) : MessageField → Str
  | sentServer => m.sentFromServer
  | sentService => m.sentFromService
  | server => m.server
  | service => m.service
  | command => m.command

/-- What `send_message()` is given for the field. -/
def SendParameters.field (p : SendParameters) : MessageField → Option VariableString
  | .sentServer => p.sentServer
  | .sentService => p.sentService
  | .server => p.server
  | .service => p.service
  | .command => some { identifier := true, string := p.command }

/-- What `verify_message()` is given for the field. -/
def VerifyParameters.field (p : VerifyParameters) : MessageField → Option VariableValue
  | .sentServer => p.sentServer
  | .sentService => p.sentService
  | .server => p.server
  | .service => p.service
  | .command => some p.command

/-- The items of the list of parameters, without a list none. -/
def SendParameters.items (p : SendParameters) : VariableList := p.parameters.getD ∅

namespace VariableValue

/-- The variable is a string or an identifier with this text. -/
def IsText (v : VariableValue) (s : Str) : Prop := v = .string s ∨ v = .identifier s

/-- The variable is an integer, a string or an identifier. -/
def IsPlain (v : VariableValue) : Prop := (∃ n, v = .integer n) ∨ ∃ s, v.IsText s

/-- The text that a variable is sent as. -/
def sentText (T : MessageTools) : VariableValue → Option Str
  | .integer n => some (intText n.toInt)
  | .string s => some s
  | .identifier s => some s
  | .timestamp t => some (T.toTimestamp t)
  | _ => none

/-- The text of a field is the one that the variable describes. -/
def MatchesField (T : MessageTools) (value : Str) : VariableValue → Prop
  | .string s => s = value
  | .identifier s => s = value
  | .regex r => T.regexMatch value r = .ok true
  | _ => False

/-- The text of a parameter is one that the variable describes. -/
def MatchesParameter (T : MessageTools) (value : Str) : VariableValue → Prop
  | .integer n => T.convertString value = some n
  | .string s => s = value
  | .identifier s => s = value
  | .regex r => T.regexMatch value r = .ok true
  | .timestamp t => T.timespecEx value = .ok t
  | .floatingPoint _ => False
  | .address _ => False
  | .other type => type = "void".toList

end VariableValue

/-- A function that throws does not return. -/
lemma error_ne_ok {ε α : Type} {e : ε} {a : α} : (.error e : Except ε α) ≠ .ok a := by
  intro h
  cases h

lemma raised_eq_ok_iff {α : Type} {x : Except Exception α} {a : α} :
    raised x = .ok a ↔ x = .ok a := by
  cases x with
  | error e => exact iff_of_false error_ne_ok error_ne_ok
  | ok b => rw [raised, Except.ok.injEq, Except.ok.injEq]

/-- Two checks after one another. -/
lemma seq_eq_ok_iff {x : Except Raised Unit} {f : Unit → Except Raised Unit} :
    (x >>= f) = .ok () ↔ x = .ok () ∧ f () = .ok () := by
  cases x with
  | error e => exact iff_of_false error_ne_ok fun h => error_ne_ok h.1
  | ok u => exact (and_iff_right rfl).symm

/-- A comparison. -/
lemma ite_error_eq_ok_iff {p : Prop} [Decidable p] {e : Raised} :
    (if p then .error e else .ok () : Except Raised Unit) = .ok () ↔ ¬ p := by
  by_cases h : p
  · rw [if_pos h]
    exact iff_of_false error_ne_ok (not_not.mpr h)
  · rw [if_neg h]
    exact iff_of_true rfl h

namespace InstVerifyMessage

variable {S : Snapdev} {T : MessageTools} {location name value : Str} {msg : Message}

lemma checkRegex_eq_ok_iff {start r : Str} :
    checkRegex T location start name value r = .ok () ↔ T.regexMatch value r = .ok true := by
  rw [checkRegex]
  rcases T.regexMatch value r with what | _ | _ <;> simp

lemma checkText_eq_ok_iff {expected : Str} :
    checkText location name value expected = .ok () ↔ expected = value := by
  rw [checkText, ite_error_eq_ok_iff, not_not]

/-- What `check_value()` accepts. -/
lemma checkValue_eq_ok_iff {param : Option VariableValue} :
    checkValue T location param name value = .ok () ↔
      ∀ v, param = some v → v.MatchesField T value := by
  rcases param with _ | v
  · exact iff_of_true rfl fun v h => absurd h.symm (Option.some_ne_none v)
  · have hsome : (∀ w, some v = some w → w.MatchesField T value) ↔ v.MatchesField T value :=
      ⟨fun h => h v rfl, fun h w hw => Option.some.inj hw ▸ h⟩
    rw [hsome]
    cases v with
    | string s => exact checkText_eq_ok_iff
    | identifier s => exact checkText_eq_ok_iff
    | regex r => exact checkRegex_eq_ok_iff
    | integer n => exact iff_of_false error_ne_ok id
    | floatingPoint d => exact iff_of_false error_ne_ok id
    | timestamp t => exact iff_of_false error_ne_ok id
    | address a => exact iff_of_false error_ne_ok id
    | other type => exact iff_of_false error_ne_ok id

/-- The text of a parameter that is there. -/
lemma getParameter_of_find? (hname : ValidName false true name)
    (hfind : msg.parameters.find? name = some value) :
    raised (msg.getParameter S name) = .ok value := by
  rw [Message.getParameter, verifyMessageName_eq_ok_iff.mpr hname]
  simp only [hfind, raised]

lemma checkString_eq_ok_iff {expected : Str} (hname : ValidName false true name)
    (hfind : msg.parameters.find? name = some value) :
    checkString S location msg name expected = .ok () ↔ expected = value := by
  rw [checkString, getParameter_of_find? hname hfind]
  exact ite_error_eq_ok_iff.trans not_not

/-- The integer of a parameter that is there, and its comparison. -/
lemma checkInteger_eq_ok_iff {n : Int64} (hname : ValidName false true name)
    (hfind : msg.parameters.find? name = some value) :
    checkParameter S T location msg name (.integer n) = .ok () ↔
      T.convertString value = some n := by
  rw [checkParameter, getIntegerParameter, verifyMessageName_eq_ok_iff.mpr hname]
  simp only [hfind]
  rcases T.convertString value with _ | r
  · exact iff_of_false error_ne_ok (Option.some_ne_none n).symm
  · rw [Option.some.injEq, eq_comm (a := r)]
    exact (ite_error_eq_ok_iff (p := n ≠ r)).trans not_not

/-- The time of a parameter that is there, and its comparison. -/
lemma checkTimestamp_eq_ok_iff {t : TimespecEx} (hname : ValidName false true name)
    (hfind : msg.parameters.find? name = some value) :
    checkParameter S T location msg name (.timestamp t) = .ok () ↔
      T.timespecEx value = .ok t := by
  rw [checkParameter, getTimespecParameter, verifyMessageName_eq_ok_iff.mpr hname]
  simp only [hfind]
  rcases T.timespecEx value with what | r
  · exact iff_of_false error_ne_ok error_ne_ok
  · rw [Except.ok.injEq, eq_comm (a := r)]
    exact (ite_error_eq_ok_iff (p := t ≠ r)).trans not_not

/-- What the comparison of a parameter accepts. -/
lemma checkParameter_eq_ok_iff {v : VariableValue} (hname : ValidName false true name)
    (hfind : msg.parameters.find? name = some value) :
    checkParameter S T location msg name v = .ok () ↔ v.MatchesParameter T value := by
  cases v with
  | string s =>
    rw [checkParameter]
    exact checkString_eq_ok_iff hname hfind
  | identifier s =>
    rw [checkParameter]
    exact checkString_eq_ok_iff hname hfind
  | regex r =>
    rw [checkParameter, getParameter_of_find? hname hfind]
    exact checkRegex_eq_ok_iff
  | integer n => exact checkInteger_eq_ok_iff hname hfind
  | timestamp t => exact checkTimestamp_eq_ok_iff hname hfind
  | floatingPoint d => exact iff_of_false error_ne_ok id
  | address a => exact iff_of_false error_ne_ok id
  | other type =>
    rw [checkParameter, VariableValue.MatchesParameter]
    by_cases h : type = "void".toList
    · rw [if_pos h]
      exact iff_of_true rfl h
    · rw [if_neg h]
      exact iff_of_false error_ne_ok h

/-- What an item of a list asks of a message. -/
def Asks (T : MessageTools) (m : Fields) (optional forbidden : Bool)
    (item : Str × VariableValue) : Prop :=
  ValidName false true item.1 ∧
    match m.parameters.find? item.1 with
    | some value => forbidden = false ∧ item.2.MatchesParameter T value
    | none => optional = true ∨ forbidden = true

lemma checkItem_eq_ok_iff {optional forbidden : Bool} {item : Str × VariableValue} :
    checkItem S T location msg optional forbidden item.1 item.2 = .ok () ↔
      Asks T msg.toFields optional forbidden item := by
  rw [checkItem, Message.hasParameter, Asks, ← verifyMessageName_eq_ok_iff (S := S)]
  rcases hname : verifyMessageName S item.1 with e | _
  · exact iff_of_false error_ne_ok fun h => error_ne_ok h.1
  rw [and_iff_right rfl]
  rcases hfind : msg.parameters.find? item.1 with _ | value
  · -- the parameter is not there
    change (if (optional || forbidden) = true then _ else _) = _ ↔ _
    rw [← Bool.or_eq_true]
    by_cases h : (optional || forbidden) = true
    · rw [if_pos h]
      exact iff_of_true rfl h
    · rw [if_neg h]
      exact iff_of_false error_ne_ok h
  · change (if forbidden = true then _ else checkParameter S T location msg item.1 item.2) = _ ↔ _
    cases forbidden with
    | true => exact iff_of_false error_ne_ok fun h => Bool.noConfusion h.1
    | false =>
      rw [if_neg Bool.false_ne_true]
      have hvalid := verifyMessageName_eq_ok_iff.mp hname
      exact (checkParameter_eq_ok_iff hvalid hfind).trans (and_iff_right rfl).symm

/-- A loop of checks accepts what each of them accepts. -/
lemma forM_eq_ok_iff {α : Type} {f : α → Except Raised Unit} {l : List α} :
    l.forM f = .ok () ↔ ∀ a ∈ l, f a = .ok () := by
  induction l with
  | nil => exact iff_of_true rfl fun a ha => absurd ha List.not_mem_nil
  | cons a l ih =>
    rw [List.forall_mem_cons, ← ih]
    exact seq_eq_ok_iff

/-- What `check_parameters()` accepts. -/
lemma checkParameters_eq_ok_iff {list : Option VariableList} {optional forbidden : Bool} :
    checkParameters S T location msg list optional forbidden = .ok () ↔
      ∀ item ∈ (list.getD ∅).entries, Asks T msg.toFields optional forbidden item := by
  cases list with
  | none => exact iff_of_true rfl fun item h => absurd h List.not_mem_nil
  | some list =>
    rw [checkParameters, forM_eq_ok_iff, Option.getD_some]
    exact forall₂_congr fun item _ => checkItem_eq_ok_iff

/-- What `verify_message()` accepts. -/
structure Accepts (T : MessageTools) (p : VerifyParameters) (m : Fields) : Prop where
  /-- The fields that are given match. -/
  field : ∀ f v, p.field f = some v → v.MatchesField T (f.ofMessage m)
  /-- The required parameters are there, and match. -/
  required : ∀ item ∈ (p.requiredParameters.getD ∅).entries, Asks T m false false item
  /-- The optional parameters match, if they are there. -/
  optional : ∀ item ∈ (p.optionalParameters.getD ∅).entries, Asks T m true false item
  /-- The forbidden parameters are not there. -/
  forbidden : ∀ item ∈ (p.forbiddenParameters.getD ∅).entries, Asks T m false true item

/-- **What `verify_message()` accepts** of the message at the front of the queue. -/
theorem func_eq_ok_iff {s : MessageState} {p : VerifyParameters} :
    func S T s p = .ok () ↔ Accepts T p s.getMessage.toFields := by
  rw [func]
  simp only [seq_eq_ok_iff, checkValue_eq_ok_iff, checkParameters_eq_ok_iff]
  constructor
  · rintro ⟨h₁, h₂, h₃, h₄, h₅, hrequired, hoptional, hforbidden⟩
    refine ⟨fun f => ?_, hrequired, hoptional, hforbidden⟩
    cases f with
    | sentServer => exact h₁
    | sentService => exact h₂
    | server => exact h₃
    | service => exact h₄
    | command => exact h₅
  · rintro ⟨hfield, hrequired, hoptional, hforbidden⟩
    exact ⟨hfield .sentServer, hfield .sentService, hfield .server, hfield .service,
      hfield .command, hrequired, hoptional, hforbidden⟩

end InstVerifyMessage

/-! ## What is sent -/

/-- What `send_message()` sets the field to; a field that is not given stays empty. -/
def SendParameters.text (p : SendParameters) (f : MessageField) : Str :=
  ((p.field f).map VariableString.string).getD []

namespace InstSendMessage

variable {S : Snapdev} {T : MessageTools}

/-- The items of a list with the texts that they are sent as. -/
def sentEntries (T : MessageTools) (items : List (Str × VariableValue)) : List (Str × Str) :=
  items.map fun item => (item.1, (item.2.sentText T).getD [])

/-- A setter of a name puts the name in its field. -/
lemma toFields_setName {field : NameField} {msg msg' : Message} {x : Str}
    (h : msg.setName S field x = .ok msg') : msg'.toFields = msg.toFields.putName field x := by
  rcases Message.setName_eq_ok_iff.mp h with ⟨rfl, rfl⟩ | ⟨-, -, rfl⟩
  · cases field <;> rfl
  · rfl

/-- A field that was empty holds what is given for it. -/
lemma toFields_setGiven (field : NameField) {set : Message → Str → Except Exception Message}
    (hset : ∀ m x, set m x = m.setName S field x) {param : Option VariableString}
    {msg msg' : Message} (hempty : msg.name field = []) (h : setGiven set param msg = .ok msg') :
    msg'.toFields = msg.toFields.putName field ((param.map VariableString.string).getD []) := by
  cases param with
  | none =>
    obtain rfl : msg = msg' := Except.ok.inj h
    change msg.toFields = msg.toFields.putName field []
    rw [← hempty]
    cases field <;> rfl
  | some var =>
    have hok := raised_eq_ok_iff.mp h
    rw [hset] at hok
    exact toFields_setName hok

lemma toFields_setCommand {msg msg' : Message} {x : Str} (h : msg.setCommand S x = .ok msg') :
    msg'.toFields = { msg.toFields with command := x } := by
  obtain ⟨-, ⟨rfl, rfl⟩ | ⟨-, rfl⟩⟩ := Message.setCommand_eq_ok_iff.mp h <;> rfl

/-- What an item of the list adds to the message. -/
lemma addItem_eq_ok {msg msg' : Message} {name : Str} {v : VariableValue}
    (h : addItem S T msg name v = .ok msg') :
    ∃ text, v.sentText T = some text ∧ ValidName false true name ∧
      msg'.toFields = { msg.toFields with parameters := msg.parameters.insert name text } := by
  have hadd {text : Str} (h : raised (msg.addParameter S name text) = .ok msg') :
      ValidName false true name ∧
        msg'.toFields = { msg.toFields with parameters := msg.parameters.insert name text } := by
    obtain ⟨hvalid, rfl⟩ := Message.addParameter_eq_ok_iff.mp (raised_eq_ok_iff.mp h)
    exact ⟨hvalid, rfl⟩
  cases v with
  | integer n => exact ⟨_, rfl, hadd h⟩
  | string s => exact ⟨_, rfl, hadd h⟩
  | identifier s => exact ⟨_, rfl, hadd h⟩
  | timestamp t => exact ⟨_, rfl, hadd h⟩
  | floatingPoint d => exact absurd h error_ne_ok
  | regex r => exact absurd h error_ne_ok
  | address a => exact absurd h error_ne_ok
  | other type => exact absurd h error_ne_ok

/-- What the loop over the items adds to the message. -/
lemma addItems_eq_ok {items : List (Str × VariableValue)} {msg msg' : Message}
    (h : addItems S T items msg = .ok msg') :
    (∀ item ∈ items, item.2.sentText T ≠ none ∧ ValidName false true item.1) ∧
      msg'.toFields =
        { msg.toFields with parameters := msg.parameters.insertAll (sentEntries T items) } := by
  induction items generalizing msg with
  | nil =>
    obtain rfl : msg = msg' := Except.ok.inj h
    exact ⟨fun item h => absurd h List.not_mem_nil, rfl⟩
  | cons item items ih =>
    obtain ⟨name, v⟩ := item
    rw [addItems] at h
    rcases hadd : addItem S T msg name v with e | msg₁
    · rw [hadd] at h
      exact absurd h error_ne_ok
    · rw [hadd] at h
      obtain ⟨text, htext, hvalid, hmsg⟩ := addItem_eq_ok hadd
      obtain ⟨hitems, hmsg'⟩ := ih h
      have hsent : v.sentText T ≠ none := htext ▸ Option.some_ne_none text
      refine ⟨List.forall_mem_cons.mpr ⟨⟨hsent, hvalid⟩, hitems⟩, ?_⟩
      have hentries : sentEntries T ((name, v) :: items) = (name, text) :: sentEntries T items := by
        rw [sentEntries, List.map_cons, htext]
        rfl
      rw [hmsg', hmsg, hentries]
      rfl

/-- The fields of a message that was made of the parameters. -/
structure Sent (T : MessageTools) (p : SendParameters) (m : Fields) : Prop where
  /-- The fields are the ones that are given. -/
  field : ∀ f : MessageField, f.ofMessage m = p.text f
  /-- The parameters are the items, as text. -/
  parameters : m.parameters = (∅ : SortedMap Str Str).insertAll (sentEntries T p.items.entries)
  /-- Each item can be sent. -/
  items : ∀ item ∈ p.items.entries, item.2.sentText T ≠ none ∧ ValidName false true item.1

/-- What the list of parameters adds to the message. -/
lemma addParameters_eq_ok {param : Option VariableList} {msg msg' : Message}
    (h : addParameters S T param msg = .ok msg') :
    (∀ item ∈ (param.getD ∅).entries,
        item.2.sentText T ≠ none ∧ ValidName false true item.1) ∧
      msg'.toFields = { msg.toFields with
        parameters := msg.parameters.insertAll (sentEntries T (param.getD ∅).entries) } := by
  cases param with
  | none =>
    obtain rfl : msg = msg' := Except.ok.inj h
    exact ⟨fun item h => absurd h List.not_mem_nil, rfl⟩
  | some list => exact addItems_eq_ok h

/-- **What `send_message()` sends.** -/
theorem sent_of_func {connections : List MessageConnection} {p : SendParameters} {sent : Message}
    (h : func S T connections p = .ok sent) : Sent T p sent.toFields := by
  rcases connections with _ | ⟨_ | _, connections⟩
  · exact absurd h error_ne_ok
  · rw [func] at h
    obtain ⟨m₁, h₁, h⟩ := exists_of_bind_eq_ok h
    obtain ⟨m₂, h₂, h⟩ := exists_of_bind_eq_ok h
    obtain ⟨m₃, h₃, h⟩ := exists_of_bind_eq_ok h
    obtain ⟨m₄, h₄, h⟩ := exists_of_bind_eq_ok h
    obtain ⟨m₅, h₅, h⟩ := exists_of_bind_eq_ok h
    -- each setter finds its own field empty
    have hm₁ := toFields_setGiven .sentFromServer (fun _ _ => rfl) rfl h₁
    have hm₂ := toFields_setGiven .sentFromService (fun _ _ => rfl)
      (by rw [hm₁]; rfl) h₂
    have hm₃ := toFields_setGiven .server (fun _ _ => rfl)
      (by rw [hm₂, hm₁]; rfl) h₃
    have hm₄ := toFields_setGiven .service (fun _ _ => rfl)
      (by rw [hm₃, hm₂, hm₁]; rfl) h₄
    have hm₅ := toFields_setCommand (raised_eq_ok_iff.mp h₅)
    obtain ⟨hitems, hsent⟩ := addParameters_eq_ok h
    rw [hsent, hm₅, hm₄, hm₃, hm₂, hm₁]
    refine ⟨fun f => ?_, rfl, hitems⟩
    cases f <;> rfl
  · exact absurd h error_ne_ok

variable {p : SendParameters} {m : Fields}

lemma map_fst_sentEntries (items : List (Str × VariableValue)) :
    (sentEntries T items).map Prod.fst = items.map Prod.fst := by
  rw [sentEntries, List.map_map]
  rfl

/-- The text of a parameter that is sent. -/
lemma Sent.find?_of_mem (h : Sent T p m) {name : Str} {v : VariableValue}
    (hmem : (name, v) ∈ p.items.entries) :
    ∃ text, v.sentText T = some text ∧ m.parameters.find? name = some text := by
  obtain ⟨text, htext⟩ := Option.ne_none_iff_exists'.mp (h.items _ hmem).1
  refine ⟨text, htext, ?_⟩
  rw [h.parameters]
  apply SortedMap.find?_insertAll_of_mem
  · rw [map_fst_sentEntries]
    exact p.items.keys_nodup
  · refine List.mem_map.mpr ⟨(name, v), hmem, ?_⟩
    rw [htext]
    rfl

/-- A parameter that is not sent. -/
lemma Sent.find?_of_notMem (h : Sent T p m) {name : Str} (hmem : name ∉ p.items.keys) :
    m.parameters.find? name = none := by
  rw [h.parameters, SortedMap.find?_insertAll_of_notMem]
  · rfl
  · rw [map_fst_sentEntries]
    exact hmem

end InstSendMessage

/-! ## What is recognized -/

/-- What `verify_message()` is given to verify what was sent, with some forbidden parameters. -/
def SendParameters.expected (p : SendParameters) (forbidden : Option VariableList) :
    VerifyParameters where
  sentServer := p.sentServer.map VariableString.value
  sentService := p.sentService.map VariableString.value
  server := p.server.map VariableString.value
  service := p.service.map VariableString.value
  command := .identifier p.command
  requiredParameters := p.parameters
  optionalParameters := p.parameters
  forbiddenParameters := forbidden

/-- The value that is expected of a parameter differs from the one that is sent.  The message has
texts only: an integer is compared with a text as the integer that the text is. -/
inductive VariableValue.Differs (T : MessageTools) : VariableValue → VariableValue → Prop
  | integer {n n' : Int64} : n ≠ n' → Differs T (.integer n) (.integer n')
  | text {v w : VariableValue} {s t : Str} : v.IsText s → w.IsText t → s ≠ t → Differs T v w
  | integerOfText {w : VariableValue} {n : Int64} {t : Str} : w.IsText t →
      T.convertString t ≠ some n → Differs T (.integer n) w
  | textOfInteger {v : VariableValue} {n : Int64} {s : Str} : v.IsText s →
      s ≠ intText n.toInt → Differs T v (.integer n)

/-- Something that is expected differs from what is sent. -/
inductive Differs (T : MessageTools) (p : SendParameters) (q : VerifyParameters) : Prop
  /-- The text of a field. -/
  | field {f : MessageField} {v : VariableValue} {s : Str} : q.field f = some v → v.IsText s →
      s ≠ p.text f → Differs T p q
  /-- The value of a required parameter. -/
  | required {name : Str} {v w : VariableValue} :
      (name, v) ∈ (q.requiredParameters.getD ∅).entries → (name, w) ∈ p.items.entries →
      v.Differs T w → Differs T p q
  /-- The value of an optional parameter. -/
  | optional {name : Str} {v w : VariableValue} :
      (name, v) ∈ (q.optionalParameters.getD ∅).entries → (name, w) ∈ p.items.entries →
      v.Differs T w → Differs T p q
  /-- A required parameter is missing. -/
  | missing {name : Str} : name ∈ (q.requiredParameters.getD ∅).keys → name ∉ p.items.keys →
      Differs T p q
  /-- A forbidden parameter is there. -/
  | forbidden {name : Str} : name ∈ (q.forbiddenParameters.getD ∅).keys → name ∈ p.items.keys →
      Differs T p q

/-- `verify_message()` recognizes what is sent: it accepts what was given to `send_message()`, with
other parameters forbidden, and throws when something differs. -/
structure RecognizesMessage (S : Snapdev) (T : MessageTools) (s : MessageState)
    (p : SendParameters) : Prop where
  accepts : ∀ forbidden : Option VariableList,
    (∀ name ∈ (forbidden.getD ∅).keys, ValidName false true name ∧ name ∉ p.items.keys) →
      InstVerifyMessage.func S T s (p.expected forbidden) = .ok ()
  rejects : ∀ q, Differs T p q → ∃ e, InstVerifyMessage.func S T s q = .error e

section Recognized

variable {S : Snapdev} {T : MessageTools} {p : SendParameters} {m : Fields}

/-- A text that is sent for a variable matches the variable. -/
lemma VariableValue.IsPlain.matchesParameter {v : VariableValue} {text : Str} (hv : v.IsPlain)
    (hT : T.InvertsToString) (h : v.sentText T = some text) : v.MatchesParameter T text := by
  rcases hv with ⟨n, rfl⟩ | ⟨s, rfl | rfl⟩ <;> obtain rfl := Option.some.inj h
  · exact hT n
  · rfl
  · rfl

/-- A text that is sent for another value does not match. -/
lemma VariableValue.Differs.not_matchesParameter {v w : VariableValue} {text : Str}
    (h : v.Differs T w) (hT : T.InvertsToString) (htext : w.sentText T = some text) :
    ¬ v.MatchesParameter T text := by
  intro hmatches
  cases h with
  | integer hne =>
    obtain rfl := Option.some.inj htext
    exact hne (Option.some.inj (hmatches.symm.trans (hT _)))
  | text hv hw hne =>
    rcases hv with rfl | rfl <;> rcases hw with rfl | rfl <;>
      exact hne (hmatches.trans (Option.some.inj htext).symm)
  | integerOfText hw hne =>
    rcases hw with rfl | rfl <;> (obtain rfl := Option.some.inj htext; exact hne hmatches)
  | textOfInteger hv hne =>
    obtain rfl := Option.some.inj htext
    rcases hv with rfl | rfl <;> exact hne hmatches

lemma VariableValue.IsText.eq_of_matchesField {v : VariableValue} {s value : Str}
    (hv : v.IsText s) (h : v.MatchesField T value) : s = value := by
  rcases hv with rfl | rfl <;> exact h

lemma VariableString.matchesField (v : VariableString) :
    v.value.MatchesField T v.string := by
  obtain ⟨_ | _, s⟩ := v <;> rfl

/-- The fields that are expected are the ones that were given. -/
lemma SendParameters.field_expected (p : SendParameters) (forbidden : Option VariableList)
    (f : MessageField) :
    (p.expected forbidden).field f = (p.field f).map VariableString.value := by
  cases f <;> rfl

namespace InstVerifyMessage

/-- What is asked of a parameter that is there. -/
lemma Asks.of_some {optional forbidden : Bool} {item : Str × VariableValue} {value : Str}
    (h : Asks T m optional forbidden item) (hfind : m.parameters.find? item.1 = some value) :
    forbidden = false ∧ item.2.MatchesParameter T value := by
  have hasks := h.2
  rwa [hfind] at hasks

/-- What is asked of a parameter that is not there. -/
lemma Asks.of_none {optional forbidden : Bool} {item : Str × VariableValue}
    (h : Asks T m optional forbidden item) (hfind : m.parameters.find? item.1 = none) :
    optional = true ∨ forbidden = true := by
  have hasks := h.2
  rwa [hfind] at hasks

end InstVerifyMessage

namespace InstSendMessage

/-- The items of the list ask for what they were sent as. -/
lemma Sent.asks (h : Sent T p m) (hT : T.InvertsToString)
    (hplain : ∀ item ∈ p.items.entries, item.2.IsPlain) {item : Str × VariableValue}
    (hitem : item ∈ p.items.entries) (optional : Bool) :
    InstVerifyMessage.Asks T m optional false item := by
  obtain ⟨text, htext, hfind⟩ := h.find?_of_mem hitem
  refine ⟨(h.items item hitem).2, ?_⟩
  rw [hfind]
  exact ⟨rfl, (hplain item hitem).matchesParameter hT htext⟩

/-- What was given to `send_message()` is accepted. -/
lemma Sent.accepts (h : Sent T p m) (hT : T.InvertsToString)
    (hplain : ∀ item ∈ p.items.entries, item.2.IsPlain) {forbidden : Option VariableList}
    (hforbidden : ∀ name ∈ (forbidden.getD ∅).keys,
      ValidName false true name ∧ name ∉ p.items.keys) :
    InstVerifyMessage.Accepts T (p.expected forbidden) m where
  field f v hv := by
    rw [p.field_expected] at hv
    obtain ⟨var, hvar, rfl⟩ := Option.map_eq_some_iff.mp hv
    have htext : f.ofMessage m = var.string := by
      rw [h.field, SendParameters.text, hvar]
      rfl
    rw [htext]
    exact var.matchesField
  required item hitem := h.asks hT hplain hitem false
  optional item hitem := h.asks hT hplain hitem true
  forbidden item hitem := by
    obtain ⟨hvalid, hnot⟩ := hforbidden item.1 (List.mem_map_of_mem hitem)
    refine ⟨hvalid, ?_⟩
    rw [h.find?_of_notMem hnot]
    exact Or.inr rfl

/-- What differs is not accepted. -/
lemma Sent.not_accepts (h : Sent T p m) (hT : T.InvertsToString) {q : VerifyParameters}
    (hq : Differs T p q) : ¬ InstVerifyMessage.Accepts T q m := by
  intro haccepts
  have hvalue {name : Str} {v w : VariableValue} {optional : Bool}
      (hasks : InstVerifyMessage.Asks T m optional false (name, v))
      (hw : (name, w) ∈ p.items.entries) : ¬ v.Differs T w := by
    intro hdiffers
    obtain ⟨text, htext, hfind⟩ := h.find?_of_mem hw
    exact hdiffers.not_matchesParameter hT htext (hasks.of_some hfind).2
  cases hq with
  | field hv htext hne =>
    have hmatches := haccepts.field _ _ hv
    rw [h.field] at hmatches
    exact hne (htext.eq_of_matchesField hmatches)
  | required hv hw hdiffers => exact hvalue (haccepts.required _ hv) hw hdiffers
  | optional hv hw hdiffers => exact hvalue (haccepts.optional _ hv) hw hdiffers
  | missing hmem hnot =>
    obtain ⟨v, hv⟩ := SortedMap.mem_keys_iff.mp hmem
    have hor := (haccepts.required _ hv).of_none (h.find?_of_notMem hnot)
    exact hor.elim Bool.false_ne_true Bool.false_ne_true
  | forbidden hmem hsent =>
    obtain ⟨v, hv⟩ := SortedMap.mem_keys_iff.mp hmem
    obtain ⟨w, hw⟩ := SortedMap.mem_keys_iff.mp hsent
    obtain ⟨text, -, hfind⟩ := h.find?_of_mem hw
    exact Bool.false_ne_true ((haccepts.forbidden _ hv).of_some hfind).1.symm

end InstSendMessage

/-- **`verify_message()` recognizes what `send_message()` sends**, when the message is at the front
of the queue. -/
theorem verifyMessage_recognizes (S : Snapdev) (T : MessageTools) (hT : T.InvertsToString)
    (connections : List MessageConnection) (p : SendParameters)
    (hplain : ∀ item ∈ p.items.entries, item.2.IsPlain) (sent msg : Message)
    (hsend : InstSendMessage.func S T connections p = .ok sent)
    (hsame : msg.toFields = sent.toFields) (s : MessageState) (earlier later : List Message)
    (hqueue : s.messages = earlier ++ msg :: later) :
    RecognizesMessage S T (MessageState.clearMessage^[earlier.length] s) p := by
  have hfront : (MessageState.clearMessage^[earlier.length] s).getMessage = msg := by
    rw [MessageState.getMessage, MessageState.messages_iterate_clearMessage hqueue]
  have hsent := InstSendMessage.sent_of_func hsend
  rw [← hsame, ← hfront] at hsent
  refine ⟨fun forbidden hforbidden => ?_, fun q hq => ?_⟩
  · exact InstVerifyMessage.func_eq_ok_iff.mpr (hsent.accepts hT hplain hforbidden)
  · rcases hfunc : InstVerifyMessage.func S T (MessageState.clearMessage^[earlier.length] s) q
      with e | _
    · exact ⟨e, rfl⟩
    · exact absurd (InstVerifyMessage.func_eq_ok_iff.mp hfunc) (hsent.not_accepts hT hq)

/-- The parameters `server: "*"`, `command: HELLO` and `parameters: { count: -5, name: me }`. -/
def hello : SendParameters where
  server := some { string := "*".toList }
  command := "HELLO".toList
  parameters := some (((∅ : VariableList).insert "count".toList (.integer (-5))).insert
    "name".toList (.identifier "me".toList))

/-- The message of these parameters. -/
def helloMessage : Message where
  server := "*".toList
  command := "HELLO".toList
  parameters := ((∅ : SortedMap Str Str).insert "count".toList "-5".toList).insert
    "name".toList "me".toList

/-- The message is recognized behind another one. -/
theorem verifyMessage_recognizes_hello :
    RecognizesMessage .standard .standard
      (MessageState.clearMessage^[1] { messages := [{}, helloMessage] }) hello :=
  verifyMessage_recognizes .standard .standard MessageTools.invertsToString_standard
    [.withSendMessage] hello
    (List.forall_mem_cons.mpr ⟨.inl ⟨-5, rfl⟩, List.forall_mem_cons.mpr
      ⟨.inr ⟨"me".toList, .inr rfl⟩, fun _ h => absurd h List.not_mem_nil⟩⟩)
    helloMessage helloMessage (by decide) rfl _ [{}] [] rfl

end Recognized

end EventDispatcher.Reporter
