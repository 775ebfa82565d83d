import EventDispatcher.Lib.Decimal
import EventDispatcher.Message.Message

/-!
# Log records and their messages

The network appenders of snaplogger turn a log record into a message, with one parameter for each
part of the record that is set (`logMessageToEdMessage`).  The snaplogger and advgetopt libraries
are not part of the repository: `LogTools` lists the functions that are called.
-/

namespace EventDispatcher.SnapLogger

open Lib

/-- The part of a `timespec` that is used. -/
structure Timespec where
  /-- `tv_sec` -/
  sec : ℤ
  /-- `tv_nsec` -/
  nsec : ℕ := 0
deriving DecidableEq, Repr

/-- `snaplogger::message` -/
structure LogMessage where
  /-- `get_severity()` -/
  severity : ℕ
  /-- `get_timestamp()` -/
  timestamp : Timespec
  /-- `get_filename()` -/
  filename : Str := []
  /-- `get_function()` -/
  function : Str := []
  /-- `get_line()` -/
  line : ℤ := 0
  /-- `get_column()` -/
  column : ℤ := 0
  /-- `get_recursive_message()` -/
  recursive : Bool := false
  /-- The names of `get_components()`, in the order of the set. -/
  components : List Str := []
  /-- `get_message()` -/
  message : Str := []
  /-- `get_fields()` -/
  fields : SortedMap Str Str := ∅
deriving DecidableEq

/-- The functions of snaplogger, snapdev and advgetopt that the two sides call. -/
structure LogTools where
  /-- The name of `get_severity()` of a number, when it is known. -/
  severityName : ℕ → Option Str
  /-- The number of `get_severity()` of a name, when it is known. -/
  severityNamed : Str → Option ℕ
  /-- A new message: of the parts that are not given, where it was made and when. -/
  newMessage : ℕ → LogMessage
  /-- `can_add_component()` -/
  canAddComponent : LogMessage → Str → Bool
  /-- `get_component()` and `add_component()` -/
  addComponent : LogMessage → Str → Except Exception LogMessage
  /-- `add_field()` -/
  addField : LogMessage → Str → Str → Except Exception LogMessage
  /-- `timespec_ex::to_timestamp(true)` -/
  toTimestamp : Timespec → Str
  /-- `validator_integer::convert_string()` -/
  convertString : Str → Option ℤ
  /-- `advgetopt::split_string()`, at commas -/
  splitString : Str → List Str
  /-- `advgetopt::is_true()` -/
  isTrue : Str → Bool
  /-- A component is added, and nothing else changes. -/
  addComponent_eq_ok : ∀ m c m', addComponent m c = .ok m' →
    ∃ components, m' = { m with components := components }
  /-- A field is added, and nothing else changes. -/
  addField_eq_ok : ∀ m name value m', addField m name value = .ok m' →
    ∃ fields, m' = { m with fields := fields }
  /-- The nanoseconds follow the seconds after a period when they are not zero. -/
  toTimestamp_nsec : ∀ t, t.nsec ≠ 0 → '.' ∈ toTimestamp t
  /-- Only decimal integers are converted. -/
  convertString_period : ∀ s, '.' ∈ s → convertString s = none

/-- A decimal integer. -/
def decimalInteger (s : Str) : Option ℤ :=
  let digits := if s.head? = some '-' then s.tail else s
  if digits ≠ [] ∧ ∀ c ∈ digits, c.isDigit = true then
    some (if s.head? = some '-' then -(Nat.ofDigitChars 10 digits 0 : ℤ)
      else Nat.ofDigitChars 10 digits 0)
  else none

lemma decimalInteger_period {s : Str} (h : '.' ∈ s) : decimalInteger s = none := by
  have hmem : '.' ∈ if s.head? = some '-' then s.tail else s := by
    split_ifs with hhead
    · cases s with
      | nil => cases hhead
      | cons c s =>
        rcases List.mem_cons.mp h with hc | h
        · exact absurd (hc ▸ Option.some.inj hhead) (by decide)
        · exact h
    · exact h
  rw [decimalInteger]
  exact if_neg fun hdigits => absurd (hdigits.2 _ hmem) (by decide)

/-- A printed integer is read back. -/
lemma decimalInteger_intText (n : ℤ) : decimalInteger (intText n) = some n := by
  have hhead : (natText n.natAbs).head? ≠ some '-' := by
    intro h
    exact absurd (natText_digits _ '-' (List.mem_of_mem_head? h)) (by decide)
  have hvalue := ofDigitChars_natText n.natAbs
  have hne := natText_ne_nil n.natAbs
  have hdigits := natText_digits n.natAbs
  rw [intText]
  split_ifs with hneg
  · have hread : decimalInteger ('-' :: natText n.natAbs)
        = some (-(Nat.ofDigitChars 10 (natText n.natAbs) 0 : ℤ)) := if_pos ⟨hne, hdigits⟩
    rw [hread, hvalue]
    congr 1
    omega
  · rw [decimalInteger, if_neg hhead, if_neg hhead]
    rw [if_pos ⟨hne, hdigits⟩, hvalue]
    congr 1
    omega

/-- The functions of the libraries, with one severity and every component. -/
def LogTools.standard : LogTools where
  severityName severity := if severity = 1 then some "error".toList else none
  severityNamed name := if name = "error".toList then some 1 else none
  newMessage severity := { severity := severity, timestamp := { sec := 0 } }
  canAddComponent _ _ := true
  addComponent m c := .ok { m with components := m.components.insert c }
  addField m name value := .ok { m with fields := m.fields.insert name value }
  toTimestamp t := intText t.sec ++ if t.nsec = 0 then [] else '.' :: lastDigits 9 t.nsec
  convertString := decimalInteger
  splitString s := (s.splitOnP fun c => c == ',').filter fun t => t ≠ []
  isTrue s := s = "true".toList
  addComponent_eq_ok m c m' h := ⟨_, (Except.ok.inj h).symm⟩
  addField_eq_ok m name value m' h := ⟨_, (Except.ok.inj h).symm⟩
  toTimestamp_nsec t h := by simp [h]
  convertString_period _ := decimalInteger_period

variable (S : Snapdev) (L : LogTools)

/-- A text with a comma before it, when it is not the first one. -/
def joinComma (texts : List Str) : Str :=
  texts.foldl (fun s t => (if s ≠ [] then s ++ [','] else s) ++ t) []

/-- The commas and colons of the name or the value of a field. -/
def fieldEscapes : Pairs Char := [([','], ['\\', ',']), ([':'], ['\\', ':'])]

/-- A field as a text; the value is there when it is not empty. -/
def fieldText (f : Str × Str) : Str :=
  let safeName := S.stringReplaceMany f.1 fieldEscapes
  let safeValue := S.stringReplaceMany f.2 fieldEscapes
  safeName ++ if safeValue ≠ [] then ':' :: safeValue else []

/-- The text of the fields, a comma between two of them; nothing when it is empty. -/
def fieldsParameter (fields : SortedMap Str Str) : Option Str :=
  let flds := joinComma (fields.entries.map (fieldText S))
  if flds ≠ [] then some flds else none

/-- The parameters of the message of a record, in the order of the calls of `add_parameter()`; the
ones without a value are not added. -/
def logParameters (msg : LogMessage) (extraComponent : Option Str) : List (Str × Option Str) :=
  let comps := joinComma (extraComponent.toList ++ msg.components)
  [("severity".toList, L.severityName msg.severity),
    ("timestamp".toList, some (L.toTimestamp msg.timestamp)),
    ("filename".toList, if msg.filename ≠ [] then some msg.filename else none),
    ("function".toList, if msg.function ≠ [] then some msg.function else none),
    ("line".toList, if msg.line ≠ 0 then some (intText msg.line) else none),
    ("column".toList, if msg.column ≠ 0 then some (intText msg.column) else none),
    ("recursive".toList, if msg.recursive then some "true".toList else none),
    ("components".toList, if comps ≠ [] then some comps else none),
    ("message".toList, some msg.message),
    ("fields".toList, fieldsParameter S msg.fields)]

/-- The calls of `add_parameter()`, one after the other. -/
def addAll (m : Message) : List (Str × Option Str) → Except Exception Message
  | [] => .ok m
  | (_, none) :: l => addAll m l
  | (name, some value) :: l => (m.addParameter S name value).bind fun m => addAll m l

/-- The command of the messages. -/
def logCommand : Str := "LOG".toList

/-- `base_network_appender::log_message_to_ed_message()` -/
def logMessageToEdMessage (msg : LogMessage) (logMessage : Message)
    (extraComponent : Option Str) : Except Exception Message :=
  (logMessage.setCommand S logCommand).bind fun logMessage =>
    addAll S logMessage (logParameters S L msg extraComponent)

/-! ### What the message holds -/

variable {S L}

/-- The parameters that have a value. -/
def valued (l : List (Str × Option Str)) : List (Str × Str) :=
  l.filterMap fun p => p.2.map fun value => (p.1, value)

/-- Parameters with valid names are added. -/
lemma addAll_eq_ok {l : List (Str × Option Str)} (hl : ∀ p ∈ l, ValidName false true p.1)
    (m : Message) :
    ∃ m', addAll S m l = .ok m' ∧ m'.command = m.command ∧
      m'.parameters = m.parameters.insertAll (valued l) := by
  induction l generalizing m with
  | nil => exact ⟨m, rfl, rfl, rfl⟩
  | cons p l ih =>
    have hrest := fun p hp => hl p (List.mem_cons_of_mem _ hp)
    obtain ⟨name, value⟩ := p
    cases value with
    | none =>
      obtain ⟨m', hm', hcommand, hparameters⟩ := ih hrest m
      exact ⟨m', hm', hcommand, hparameters⟩
    | some value =>
      have hadd : m.addParameter S name value = .ok
          { m with parameters := m.parameters.insert name value, cachedMessage := [] } :=
        Message.addParameter_eq_ok_iff.mpr ⟨hl (name, some value) List.mem_cons_self, rfl⟩
      obtain ⟨m', hm', hcommand, hparameters⟩ := ih hrest
        { m with parameters := m.parameters.insert name value, cachedMessage := [] }
      refine ⟨m', ?_, hcommand, hparameters⟩
      rw [addAll, hadd]
      exact hm'

lemma validName_logParameters (msg : LogMessage) (extraComponent : Option Str) :
    ∀ p ∈ logParameters S L msg extraComponent, ValidName false true p.1 := by
  simp only [logParameters, List.forall_mem_cons]
  decide

/-- **The message of a record** is made, with the command and the parameters of the record. -/
lemma logMessageToEdMessage_eq_ok (msg : LogMessage) (extraComponent : Option Str) :
    ∃ m, logMessageToEdMessage S L msg {} extraComponent = .ok m ∧ m.command = logCommand ∧
      m.parameters = (∅ : SortedMap Str Str).insertAll
        (valued (logParameters S L msg extraComponent)) := by
  have hset := Message.setCommand_eq_ok_iff (S := S) (m := {}) (x := logCommand).mpr
    ⟨by decide, .inr ⟨by decide, rfl⟩⟩
  obtain ⟨m, hm, hcommand, hparameters⟩ :=
    addAll_eq_ok (validName_logParameters (S := S) (L := L) msg extraComponent)
      { ({} : Message) with command := logCommand, cachedMessage := [] }
  refine ⟨m, ?_, hcommand, hparameters⟩
  rw [logMessageToEdMessage, hset]
  exact hm

end EventDispatcher.SnapLogger
