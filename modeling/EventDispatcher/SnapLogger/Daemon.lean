import EventDispatcher.Dispatcher.Dispatch
import EventDispatcher.SnapLogger.Record

/-!
# The log daemon

The daemon turns the messages of the network appenders back to log records
(`edMessageToLogMessage`), when its dispatchers are asked for the command `LOGGER`.  The appenders
send the command `LOG`, so no record arrives (`log_message_lost`).  Nor would it be whole: the
conversion throws when the timestamp has nanoseconds (`edMessageToLogMessage_throws`), and what it
returns was made by the daemon, as far as its file name, function, line and column say
(`edMessageToLogMessage_location`).
-/

namespace EventDispatcher.SnapLogger

open Lib

variable (S : Snapdev) (L : LogTools)

/-! ### The conversion -/

/-- `message::get_integer_parameter()` -/
def getIntegerParameter (m : Message) (name : Str) : Except Exception ℤ :=
  match verifyMessageName S name with
  | .error e => .error e
  | .ok () =>
    match m.parameters.find? name with
    | some value =>
      match L.convertString value with
      | some r => .ok r
      | none =>
        .error ⟨.invalidMessage, "message::get_integer_parameter(): command \"".toList ++ m.command
          ++ "\" expected an integer for \"".toList ++ name ++ "\" but \"".toList ++ value
          ++ "\" could not be converted.".toList⟩
    | none =>
      .error ⟨.invalidMessage, "message::get_integer_parameter(): parameter \"".toList ++ name
        ++ "\" of command \"".toList ++ m.command
        ++ ("\" not defined, try has_parameter() before calling"
          ++ " the get_integer_parameter() function.").toList⟩

/-- `get` is called for a parameter that is there. -/
def whenPresent {α : Type} (m : Message) (name : Str) (get : Message → Str → Except Exception α) :
    Except Exception (Option α) :=
  (m.hasParameter S name).bind fun present =>
    if present then (get m name).map some else .ok none

/-- The severity of a name: `SEVERITY_ERROR` when it is not known. -/
def severityOf (severityError : ℕ) (name : Option Str) : ℕ :=
  (name.bind L.severityNamed).getD severityError

/-- The name of the component of the records of the same computer. -/
def localComponent : Str := "local".toList

/-- The components of the parameter, or the normal one. -/
def addGiven (msg : LogMessage) : Option Str → Except Exception LogMessage
  | some all => (L.splitString all).foldlM L.addComponent msg
  | none =>
    if L.canAddComponent msg "normal".toList then L.addComponent msg "normal".toList
    else .ok msg

/-- The component of the records of other computers. -/
def addRemote (msg : LogMessage) (isLocal : Bool) : Except Exception LogMessage :=
  if isLocal then .ok msg else L.addComponent msg "remote".toList

/-- The components of the parameter, and the ones of the network. -/
def addComponents (msg : LogMessage) (components : Option Str) : Except Exception LogMessage := do
  let isLocal := (components.map L.splitString).any fun names => localComponent ∈ names
  let msg ← addGiven L msg components
  let msg ← addRemote L msg isLocal
  L.addComponent msg "network".toList

/-- The part of a field that is read, and whether the character before was a backslash. -/
structure FieldState where
  /-- Whether it is the value. -/
  inValue : Bool := false
  /-- Whether the next character is taken as it is. -/
  escaped : Bool := false
  /-- The name. -/
  name : Str := []
  /-- The value. -/
  value : Str := []
deriving DecidableEq

/-- One character of the fields.  A field is added at the comma that follows it. -/
def fieldStep (r : FieldState × LogMessage) (f : Char) :
    Except Exception (FieldState × LogMessage) :=
  let (s, msg) := r
  if f = '\\' then .ok ({ s with escaped := true }, msg)
  else if s.escaped then
    if s.inValue then .ok ({ s with value := s.value ++ [f], escaped := false }, msg)
    else .ok ({ s with name := s.name ++ [f], escaped := false }, msg)
  else if s.inValue then
    if f = ',' then (L.addField msg s.name s.value).map fun msg => ({}, msg)
    else .ok ({ s with value := s.value ++ [f] }, msg)
  else if f = ':' then .ok ({ s with inValue := true }, msg)
  else if f = ',' then (L.addField msg s.name []).map fun msg => ({ s with name := [] }, msg)
  else .ok ({ s with name := s.name ++ [f] }, msg)

/-- The fields of the parameter. -/
def addFields (msg : LogMessage) (fields : Option Str) : Except Exception LogMessage :=
  match fields with
  | none => .ok msg
  | some fields => ((fields.foldlM (fieldStep L) ({}, msg))).map Prod.snd

/-- `ed_message_to_log_message()`.  The file name, the function and the line are read and not
used. -/
def edMessageToLogMessage (severityError : ℕ) (message : Message) :
    Except Exception LogMessage := do
  let severity ← whenPresent S message "severity".toList (Message.getParameter S)
  let _filename ← whenPresent S message "filename".toList (Message.getParameter S)
  let _function ← whenPresent S message "function".toList (Message.getParameter S)
  let _line ← whenPresent S message "line".toList (getIntegerParameter S L)
  let msg := L.newMessage (severityOf L severityError severity)
  let timestamp ← whenPresent S message "timestamp".toList (getIntegerParameter S L)
  let msg := { msg with timestamp := timestamp.elim msg.timestamp fun sec => { sec := sec } }
  let text ← whenPresent S message "message".toList (Message.getParameter S)
  let msg := { msg with message := msg.message ++ text.getD [] }
  let recursive ← whenPresent S message "recursive".toList (Message.getParameter S)
  let msg := { msg with recursive := recursive.elim msg.recursive L.isTrue }
  let components ← whenPresent S message "components".toList (Message.getParameter S)
  let msg ← addComponents L msg components
  let fields ← whenPresent S message "fields".toList (Message.getParameter S)
  addFields L msg fields

/-! ### The dispatchers -/

open DispatcherMatch in
/-- The matches of the two connections: `LOGGER`, and the catch-all. -/
def loggerMatches (msgLoggerMessage msgReplyWithUnknown : ℕ) :
    Except Exception (List DispatcherMatch) := do
  let logger ← defineMatch
    { expr := expression "LOGGER".toList, callback := some msgLoggerMessage }
  let catchAll ← defineMatch { callback := some msgReplyWithUnknown, func := .alwaysMatch }
  pure [logger, catchAll]

/-- A new dispatcher with these matches. -/
def loggerDispatcher (msgLoggerMessage msgReplyWithUnknown : ℕ) : Except Exception Dispatcher :=
  (loggerMatches msgLoggerMessage msgReplyWithUnknown).bind fun matches_ =>
    (({} : Dispatcher).addMatches matches_).1.map fun _ =>
      (({} : Dispatcher).addMatches matches_).2

/-- `tcp_logger_connection::msg_logger_message()` -/
def tcpMsgLoggerMessage : ℕ := 0

/-- `udp_logger_server::msg_logger_message()` -/
def udpMsgLoggerMessage : ℕ := 1

/-- `msg_reply_with_unknown()` of the connection. -/
def msgReplyWithUnknown : ℕ := 2

/-- The dispatcher of `tcp_logger_connection`. -/
def tcpLoggerConnection : Except Exception Dispatcher :=
  loggerDispatcher tcpMsgLoggerMessage msgReplyWithUnknown

/-- The dispatcher of `udp_logger_server`. -/
def udpLoggerServer : Except Exception Dispatcher :=
  loggerDispatcher udpMsgLoggerMessage msgReplyWithUnknown

section

variable {U : Type} (P : Platform) (code : UserCode U) (w : World U)

/-- The dispatcher calls the callback for the message. -/
def Routes (d : Except Exception Dispatcher) (callback : ℕ) (msg : Message) : Prop :=
  ∃ d', d = .ok d' ∧ callback ∈ (d'.dispatch P code.logged msg w.logging).2.world.user.2

/-- The record is the same, with the timestamp to the second; it can have more components. -/
structure SameRecord (msg msg' : LogMessage) : Prop where
  /-- The severity. -/
  severity : msg'.severity = msg.severity
  /-- The timestamp. -/
  timestamp : msg'.timestamp.sec = msg.timestamp.sec
  /-- The file name. -/
  filename : msg'.filename = msg.filename
  /-- The function. -/
  function : msg'.function = msg.function
  /-- The line. -/
  line : msg'.line = msg.line
  /-- The column. -/
  column : msg'.column = msg.column
  /-- The recursive flag. -/
  recursive : msg'.recursive = msg.recursive
  /-- The text. -/
  message : msg'.message = msg.message
  /-- The components. -/
  components : msg.components ⊆ msg'.components

/-- The record survives the network: its message is made, routed by both dispatchers, and
converted to the same record. -/
structure Survives (severityError : ℕ) (msg : LogMessage) (extraComponent : Option Str)
    (message : Message) (msg' : LogMessage) : Prop where
  /-- The message is made. -/
  made : logMessageToEdMessage P.S L msg {} extraComponent = .ok message
  /-- The connection routes it. -/
  tcp : Routes P code w tcpLoggerConnection tcpMsgLoggerMessage message
  /-- The server routes it. -/
  udp : Routes P code w udpLoggerServer udpMsgLoggerMessage message
  /-- It is converted. -/
  converted : edMessageToLogMessage P.S L severityError message = .ok msg'
  /-- The record is the same. -/
  same : SameRecord msg msg'

end

/-! ### What is called -/

variable {S L} {U : Type} {P : Platform} {code : UserCode U}

lemma deliver_log (callback : ℕ) (answer : Bool) (parameters : List MessageParameter)
    (msg : Message) (w : World (U × List ℕ)) :
    (DispatcherMatch.deliver P code.logged callback answer parameters msg w).world.user.2 ⊆
      callback :: w.user.2 := by
  rw [DispatcherMatch.deliver]
  split_ifs
  · intro c hc
    rcases List.mem_append.mp hc with hc | hc
    · exact List.mem_cons_of_mem _ hc
    · exact List.mem_singleton.mp hc ▸ List.mem_cons_self
  · split
    · exact List.subset_cons_self _ _
    · exact List.subset_cons_self _ _
  · exact List.subset_cons_self _ _

/-- A match that is executed calls its own callback and no other. -/
lemma executeMatch_log {m : DispatcherMatch} {callback : ℕ} (hm : m.callback = some callback)
    (answer : Bool) (msg : Message) (w : World (U × List ℕ)) :
    (m.executeMatch P code.logged answer msg w).2.world.user.2 ⊆ callback :: w.user.2 := by
  unfold DispatcherMatch.executeMatch DispatcherMatch.definition
  rw [hm]
  cases m.messageDefinition with
  | some d => exact deliver_log callback answer d.parameters _ w
  | none =>
    dsimp only
    cases (w.env.definition P msg.markProcessed.command).1 with
    | error e => exact List.subset_cons_self _ _
    | ok d => exact deliver_log callback answer d.parameters _ _

/-- The match of another command does nothing. -/
lemma executeAll_of_ne {m : DispatcherMatch} {expr : Str} (hexpr : m.expr = some expr)
    (hfunc : m.func = .oneToOneMatch) {msg : Message} (hcommand : msg.command ≠ expr)
    (w : World U) :
    Dispatcher.executeAll P code [m] msg w = ([m], ⟨.ok false, msg, w, []⟩) := by
  simp [Dispatcher.executeAll, DispatcherMatch.execute, DispatcherMatch.callMatch, hfunc,
    DispatcherMatch.oneToOneMatch, hexpr, hcommand.symm]

/-- A message with another command is left to the catch-all. -/
lemma not_routes {msgLoggerMessage : ℕ} (hne : msgLoggerMessage ≠ msgReplyWithUnknown)
    {msg : Message} (hcommand : msg.command ≠ "LOGGER".toList) (w : World U) :
    ¬ Routes P code w (loggerDispatcher msgLoggerMessage msgReplyWithUnknown) msgLoggerMessage
      msg := by
  rintro ⟨d, hd, hmem⟩
  obtain rfl : { list := [{ expr := some "LOGGER".toList, callback := some msgLoggerMessage }]
                 catchAll := { callback := some msgReplyWithUnknown, func := .alwaysMatch } } = d :=
    Except.ok.inj hd
  unfold Dispatcher.dispatch at hmem
  simp only [Bool.false_eq_true, if_false] at hmem
  rw [executeAll_of_ne rfl rfl hcommand, Dispatcher.dispatchEnd] at hmem
  dsimp only at hmem
  split_ifs at hmem with hprocessed hcallback
  · cases hmem
  · exact hne (List.mem_singleton.mp (executeMatch_log rfl true msg w.logging hmem))
  · cases hmem

/-! ### What is converted -/

lemma bind_ok {α β : Type} {x : Except Exception α} {f : α → Except Exception β} {b : β}
    (h : x >>= f = .ok b) : ∃ a, x = .ok a ∧ f a = .ok b :=
  exists_of_bind_eq_ok h

/-- A parameter that is there and is no integer is an error. -/
lemma exists_convertString {m : Message} {name value : Str} {r : Option ℤ}
    (hvalue : m.parameters.find? name = some value)
    (h : whenPresent S m name (getIntegerParameter S L) = .ok r) :
    ∃ n, L.convertString value = some n := by
  obtain ⟨present, hpresent, h⟩ := exists_of_bind_eq_ok h
  rw [Message.hasParameter] at hpresent
  cases hname : verifyMessageName S name with
  | error e =>
    rw [hname] at hpresent
    cases hpresent
  | ok u =>
    rw [hname] at hpresent
    cases hpresent
    cases hconvert : L.convertString value with
    | some n => exact ⟨n, rfl⟩
    | none => simp [getIntegerParameter, hname, hvalue, hconvert, Except.map] at h

/-- The keys of the parameters of a record. -/
lemma nodup_valued_logParameters (msg : LogMessage) (extraComponent : Option Str) :
    ((valued (logParameters S L msg extraComponent)).map Prod.fst).Nodup := by
  have hkeys : ((logParameters S L msg extraComponent).map Prod.fst).Nodup := by
    simp only [logParameters, List.map_cons, List.map_nil]
    decide
  refine List.Nodup.sublist ?_ hkeys
  generalize logParameters S L msg extraComponent = l
  induction l with
  | nil => exact List.Sublist.slnil
  | cons p l ih =>
    obtain ⟨name, value⟩ := p
    cases value with
    | none => exact ih.cons name
    | some value => exact ih.cons_cons name

/-- The message of a record with nanoseconds is not converted. -/
theorem edMessageToLogMessage_throws {msg : LogMessage} (hnsec : msg.timestamp.nsec ≠ 0)
    {extraComponent : Option Str} {message : Message}
    (hmade : logMessageToEdMessage S L msg {} extraComponent = .ok message) (severityError : ℕ)
    (msg' : LogMessage) : edMessageToLogMessage S L severityError message ≠ .ok msg' := by
  intro h
  obtain ⟨m, hm, -, hparameters⟩ := logMessageToEdMessage_eq_ok (S := S) (L := L) msg extraComponent
  cases hmade.symm.trans hm
  have hfind : message.parameters.find? "timestamp".toList =
      some (L.toTimestamp msg.timestamp) := by
    rw [hparameters]
    refine SortedMap.find?_insertAll_of_mem (nodup_valued_logParameters msg extraComponent) ?_
    exact List.mem_filterMap.mpr ⟨("timestamp".toList, some (L.toTimestamp msg.timestamp)),
      List.mem_of_getElem? (i := 1) rfl, rfl⟩
  obtain ⟨_, -, h⟩ := bind_ok h
  obtain ⟨_, -, h⟩ := bind_ok h
  obtain ⟨_, -, h⟩ := bind_ok h
  obtain ⟨_, -, h⟩ := bind_ok h
  obtain ⟨timestamp, htimestamp, -⟩ := bind_ok h
  obtain ⟨n, hn⟩ := exists_convertString hfind htimestamp
  rw [L.convertString_period _ (L.toTimestamp_nsec _ hnsec)] at hn
  cases hn

/-- The place that a record says it was made at. -/
def location (msg : LogMessage) : Str × Str × ℤ × ℤ :=
  (msg.filename, msg.function, msg.line, msg.column)

lemma location_addComponent {msg msg' : LogMessage} {name : Str}
    (h : L.addComponent msg name = .ok msg') : location msg' = location msg := by
  obtain ⟨components, rfl⟩ := L.addComponent_eq_ok msg name msg' h
  rfl

lemma location_addGiven {msg msg' : LogMessage} {components : Option Str}
    (h : addGiven L msg components = .ok msg') : location msg' = location msg := by
  cases components with
  | some all =>
    have hstep : ∀ m c m', location m = location msg → L.addComponent m c = .ok m' →
        location m' = location msg := fun m c m' hinv h => (location_addComponent h).trans hinv
    exact invariant_of_foldlM hstep rfl h
  | none =>
    rw [addGiven] at h
    split_ifs at h
    · exact location_addComponent h
    · exact (congrArg location (Except.ok.inj h)).symm

lemma location_addRemote {msg msg' : LogMessage} {isLocal : Bool}
    (h : addRemote L msg isLocal = .ok msg') : location msg' = location msg := by
  rw [addRemote] at h
  split_ifs at h
  · exact (congrArg location (Except.ok.inj h)).symm
  · exact location_addComponent h

lemma location_addComponents {msg msg' : LogMessage} {components : Option Str}
    (h : addComponents L msg components = .ok msg') : location msg' = location msg := by
  obtain ⟨msg₁, h₁, h⟩ := bind_ok h
  obtain ⟨msg₂, h₂, h⟩ := bind_ok h
  exact (location_addComponent h).trans ((location_addRemote h₂).trans (location_addGiven h₁))

lemma location_addField {msg msg' : LogMessage} {name value : Str}
    (h : L.addField msg name value = .ok msg') : location msg' = location msg := by
  obtain ⟨fields, rfl⟩ := L.addField_eq_ok msg name value msg' h
  rfl

/-- A field that is added leaves the place alone. -/
lemma location_map_addField {msg : LogMessage} {name value : Str} {s : FieldState}
    {r : FieldState × LogMessage}
    (h : (L.addField msg name value).map (fun msg => (s, msg)) = .ok r) :
    location r.2 = location msg := by
  cases hadd : L.addField msg name value with
  | error e =>
    rw [hadd] at h
    cases h
  | ok msg' =>
    rw [hadd] at h
    cases h
    exact location_addField hadd

lemma location_fieldStep {r r' : FieldState × LogMessage} {f : Char}
    (h : fieldStep L r f = .ok r') : location r'.2 = location r.2 := by
  rw [fieldStep] at h
  split_ifs at h <;> first | exact location_map_addField h | (cases h; rfl)

lemma location_addFields {msg msg' : LogMessage} {fields : Option Str}
    (h : addFields L msg fields = .ok msg') : location msg' = location msg := by
  unfold addFields at h
  cases fields with
  | none => exact (congrArg location (Except.ok.inj h)).symm
  | some fields =>
    dsimp only at h
    cases hfold : fields.foldlM (fieldStep L) ({}, msg) with
    | error e =>
      rw [hfold] at h
      cases h
    | ok r =>
      rw [hfold] at h
      cases h
      have hstep : ∀ r f r', location r.2 = location msg → fieldStep L r f = .ok r' →
          location r'.2 = location msg := fun r f r' hinv h => (location_fieldStep h).trans hinv
      exact invariant_of_foldlM hstep rfl hfold

/-- A record that was converted says that it was made where the daemon makes its records. -/
theorem edMessageToLogMessage_location {severityError : ℕ} {message : Message} {msg : LogMessage}
    (h : edMessageToLogMessage S L severityError message = .ok msg) :
    ∃ severity, location msg = location (L.newMessage severity) := by
  obtain ⟨severity, -, h⟩ := bind_ok h
  obtain ⟨_, -, h⟩ := bind_ok h
  obtain ⟨_, -, h⟩ := bind_ok h
  obtain ⟨_, -, h⟩ := bind_ok h
  obtain ⟨_, -, h⟩ := bind_ok h
  obtain ⟨_, -, h⟩ := bind_ok h
  obtain ⟨_, -, h⟩ := bind_ok h
  obtain ⟨_, -, h⟩ := bind_ok h
  obtain ⟨_, hcomponents, h⟩ := bind_ok h
  obtain ⟨_, -, h⟩ := bind_ok h
  have hlocation := location_addComponents hcomponents
  exact ⟨severityOf L severityError severity, (location_addFields h).trans hlocation⟩

/-! ### The network -/

/-- No record survives the network: its message has the command `LOG`, and the dispatchers are
asked for `LOGGER`. -/
theorem log_message_lost (P : Platform) (L : LogTools) (code : UserCode U) (w : World U)
    (severityError : ℕ) (msg : LogMessage) (extraComponent : Option Str) :
    ¬ ∃ message msg', Survives L P code w severityError msg extraComponent message msg' := by
  rintro ⟨message, msg', h⟩
  obtain ⟨m, hm, hcommand, -⟩ :=
    logMessageToEdMessage_eq_ok (S := P.S) (L := L) msg extraComponent
  cases h.made.symm.trans hm
  exact not_routes (by decide) (by rw [hcommand]; decide) w h.tcp

/-- A record with a severity and a text. -/
def plainRecord : LogMessage where
  severity := 1
  timestamp := { sec := 1700000000 }
  message := "started".toList

/-- The message of a record is not routed. -/
theorem not_log_message_survives :
    ¬ ∀ (P : Platform) (L : LogTools) (code : UserCode Unit) (w : World Unit) (severityError : ℕ)
      (msg : LogMessage) (extraComponent : Option Str), L.severityName msg.severity ≠ none →
        ∃ message msg', Survives L P code w severityError msg extraComponent message msg' := by
  intro h
  obtain ⟨message, msg', hsurvives⟩ := h .standard .standard Service.idle
    { env := {}, user := () } 1 plainRecord none (by decide)
  obtain ⟨m, hm, hcommand, -⟩ :=
    logMessageToEdMessage_eq_ok (S := Platform.standard.S) (L := .standard) plainRecord none
  cases hsurvives.made.symm.trans hm
  exact not_routes (by decide) (by rw [hcommand]; decide) _ hsurvives.tcp

end EventDispatcher.SnapLogger
