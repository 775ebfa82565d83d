import EventDispatcher.Message.Text
import Mathlib.Data.UInt

/-!
# The definitions of the messages

A definition gives the parameters of one command, each with a type and flags.  It is read from a
configuration file the first time `getMessageDefinition` is asked for the command, and kept in a
registry.  `Message.checkParameters` checks the parameters of a message against a definition.
-/

namespace EventDispatcher

open Lib

/-! ### The data -/

/-- The types of a parameter. -/
inductive ParameterType where
  | string
  | integer
  | address
  | timespec
deriving DecidableEq, Repr

/-- `PARAMETER_FLAG_REQUIRED` -/
def parameterFlagRequired : UInt32 := 0x0001

/-- `PARAMETER_FLAG_EMPTY` -/
def parameterFlagEmpty : UInt32 := 0x0002

/-- `PARAMETER_FLAG_FORBIDDEN` -/
def parameterFlagForbidden : UInt32 := 0x0004

/-- `PARAMETER_FLAG_DEFAULT` -/
def parameterFlagDefault : UInt32 := parameterFlagRequired ||| parameterFlagEmpty

/-- What is expected of one parameter. -/
structure MessageParameter where
  /-- `f_name` -/
  name : Str := []
  /-- `f_type` -/
  type : ParameterType := .string
  /-- `f_flags` -/
  flags : UInt32 := parameterFlagDefault
deriving DecidableEq

/-- The definition of the messages with one command. -/
structure MessageDefinition where
  /-- `f_command` -/
  command : Str := []
  /-- `f_parameters` -/
  parameters : List MessageParameter := []
deriving DecidableEq

/-- A section of a configuration file, with the two variables that are read. -/
structure ConfSection where
  /-- The name between the brackets. -/
  name : Str
  /-- The variable `type`, when it is there. -/
  type : Option Str := none
  /-- The variable `flags`, when it is there. -/
  flags : Option Str := none
deriving DecidableEq

/-- The functions of other libraries that definitions are read and checked with. -/
structure DefinitionTools where
  /-- `snapdev::tokenize_string()`: the text, the separators, whether the tokens are trimmed -/
  tokenizeString : Str → Str → Bool → List Str
  /-- `advgetopt::option_with_underscores()` -/
  optionWithUnderscores : Str → Str
  /-- Whether `advgetopt::validator_integer::convert_string()` succeeds. -/
  convertInteger : Str → Bool
  /-- The text of the exception that `addr::string_to_addr()` throws, if it throws. -/
  stringToAddr : Str → Option Str
  /-- The text of the exception that the constructor of `snapdev::timespec_ex` throws, if it
  throws. -/
  timespecEx : Str → Option Str

/-- The functions of the libraries, for texts of ASCII characters and decimal integers. -/
def DefinitionTools.standard : DefinitionTools where
  tokenizeString s separators trim :=
    ((s.splitOnP fun c => c ∈ separators).map fun token =>
      if trim then Snapdev.standard.trimString token else token).filter fun token => token ≠ []
  optionWithUnderscores s := s.map fun c => if c = '-' then '_' else c
  convertInteger s :=
    let digits := if s.head? = some '-' ∨ s.head? = some '+' then s.drop 1 else s
    digits ≠ [] ∧ ∀ c ∈ digits, isDigit c = true
  stringToAddr _ := none
  timespecEx _ := none

/-- The options of the compiler that the code tests. -/
structure Build where
  /-- `_DEBUG` -/
  debug : Bool := false
  /-- `__SANITIZE_ADDRESS__` -/
  sanitizeAddress : Bool := false

/-- The global variables of the definitions, and the configuration files. -/
structure Environment where
  /-- `g_message_definition_paths` -/
  paths : Str := []
  /-- `g_message_definitions` -/
  registry : SortedMap Str MessageDefinition := ∅
  /-- The sections of the file with a name, when it exists. -/
  files : Str → Option (List ConfSection) := fun _ => none

/-! ### Reading a definition -/

/-- `g_message_definition_suffix` -/
def messageDefinitionSuffix : Str := ".conf".toList

/-- The type that a name stands for. -/
def parameterType? (type : Str) : Option ParameterType :=
  if type = "default".toList ∨ type = "string".toList then some .string
  else if type = "integer".toList then some .integer
  else if type = "address".toList then some .address
  else if type = "timespec".toList then some .timespec
  else none

/-- The flag that a name stands for; three of the names set no flag. -/
def parameterFlag? (f : Str) : Option UInt32 :=
  if f = "required".toList then some parameterFlagRequired
  else if f = "empty".toList then some parameterFlagEmpty
  else if f = "forbidden".toList then some parameterFlagForbidden
  else if f ≠ "optional".toList ∧ f ≠ "defined".toList ∧ f ≠ "allowed".toList then none
  else some 0

/-- The text for a type that does not exist. -/
def unsupportedTypeText (command type : Str) : Str :=
  "message definition:".toList ++ command ++ ": parameter type \"".toList ++ type
    ++ "\" is not a supported type.".toList

/-- The text for a flag that does not exist. -/
def unsupportedFlagText (command f : Str) : Str :=
  "message definition:".toList ++ command ++ ": parameter flag \"".toList ++ f
    ++ "\" not supported.".toList

/-- The text for a definition that is asked for before the paths are set. -/
def noPathsText (command : Str) : Str :=
  "message definition:".toList ++ command
    ++ (": no paths defined to message definitions. (i.e. did you call the"
      ++ " add_message_definition_options() and process_message_definition_options()"
      ++ " functions?)").toList

/-- The text for a command without a definition. -/
def definitionNotFoundText (command : Str) : Str :=
  "message definition for \"".toList ++ command ++ "\" not found.".toList

/-- The flags that a list of names adds. -/
def readFlags (command : Str) (flags : UInt32) : List Str → Except Exception UInt32
  | [] => .ok flags
  | f :: names =>
    match parameterFlag? f with
    | some flag => readFlags command (flags ||| flag) names
    | none => .error ⟨.invalidParameter, unsupportedFlagText command f⟩

variable (S : Snapdev) (T : DefinitionTools) (B : Build)

/-- The parameter of one section. -/
def readParameter (command : Str) (s : ConfSection) : Except Exception MessageParameter := do
  let type ← match s.type with
    | none => .ok .string
    | some type =>
      match parameterType? type with
      | some type => .ok type
      | none => .error ⟨.invalidParameter, unsupportedTypeText command type⟩
  let flags ← match s.flags with
    | none => .ok parameterFlagDefault
    -- the defaults do not apply once the section has flags of its own
    | some flags => readFlags command 0 (T.tokenizeString flags [','] true)
  .ok { name := T.optionWithUnderscores s.name, type := type, flags := flags }

/-- The parameters of the sections of a file, up to the first one with an error. -/
def readParameters (command : Str) :
    List ConfSection → Except Exception Unit × List MessageParameter
  | [] => (.ok (), [])
  | s :: sections =>
    match readParameter T command s with
    | .error e => (.error e, [])
    | .ok param =>
      let (result, parameters) := readParameters command sections
      (result, param :: parameters)

/-- The first of the files `p/command.conf` that exists. -/
def Environment.definitionFile (env : Environment) (command : Str) : Option (List ConfSection) :=
  (T.tokenizeString env.paths [':'] true).findSome? fun p =>
    env.files (p ++ ['/'] ++ command ++ messageDefinitionSuffix)

/-- The definition of a command that is not in the registry yet, as far as it could be read, and
the error that ended the reading. -/
def Environment.loadDefinition (env : Environment) (command : Str) :
    Except Exception Unit × MessageDefinition :=
  match env.definitionFile T command with
  | some sections =>
    let (result, parameters) := readParameters T command sections
    (result, { command := command, parameters := parameters })
  | none =>
    -- only a debug build refuses a command without a definition
    (if B.debug then .error ⟨.invalidParameter, definitionNotFoundText command⟩ else .ok (),
      { command := command })

/-- `get_message_definition()`: the definition of a command.  The new definition is registered
before its file is read, so it stays in the registry when the file has an error. -/
def Environment.getMessageDefinition (env : Environment) (command : Str) :
    Except Exception MessageDefinition × Environment :=
  if env.paths = [] then
    (.error ⟨.invalidParameter, noPathsText command⟩, env)
  else
    match verifyMessageName S command with
    | .error e => (.error e, env)
    | .ok () =>
      match env.registry.find? command with
      | some d => (.ok d, env)
      | none =>
        let (result, d) := env.loadDefinition T B command
        (result.map fun _ => d, { env with registry := env.registry.insert command d })

/-! ### Checking a message -/

/-- The noisy error for one parameter of a definition, if there is one.  The texts of the two
exceptions follow the sentences of their types. -/
def Message.parameterError (m : Message) (p : MessageParameter) : Option Str :=
  match m.parameters.find? p.name with
  | none =>
    if p.flags &&& parameterFlagRequired ≠ 0 then
      some ("mandatory parameter named \"".toList ++ p.name
        ++ "\" is missing from message \"".toList ++ m.command ++ "\".".toList)
    else none
  | some value =>
    if p.flags &&& parameterFlagForbidden ≠ 0 then
      some ("forbidden parameter named \"".toList ++ p.name
        ++ "\" was found in message \"".toList ++ m.command ++ "\".".toList)
    else if value = [] then
      if p.flags &&& parameterFlagEmpty = 0 then
        some ("parameter named \"".toList ++ p.name ++ "\" from message \"".toList ++ m.command
          ++ "\" cannot be empty.".toList)
      else none
    else
      match p.type with
      | .string => none
      | .integer =>
        if T.convertInteger value then none
        else some ("parameter named \"".toList ++ p.name ++ "\" from message \"".toList
          ++ m.command ++ "\" must be a valid integer.".toList)
      | .address =>
        (T.stringToAddr value).map fun e =>
          "parameter named \"".toList ++ p.name ++ "\" from message \"".toList ++ m.command
            ++ "\" must be a valid IP address: ".toList ++ e
      | .timespec =>
        (T.timespecEx value).map fun e =>
          "parameter named \"".toList ++ p.name ++ "\" from message \"".toList ++ m.command
            ++ "\" with value \"".toList ++ value ++ "\" must be a valid timespec: ".toList ++ e

/-- The noisy errors of `message::check_parameters()`, one for each parameter at fault. -/
def Message.parameterErrors (m : Message) (parameterDefinitions : List MessageParameter) :
    List Str :=
  parameterDefinitions.filterMap (m.parameterError T)

/-- `message::check_parameters()` -/
def Message.checkParameters (m : Message) (parameterDefinitions : List MessageParameter) : Bool :=
  (m.parameterErrors T parameterDefinitions).isEmpty

/-! ### What the registry keeps -/

variable {S T B}

namespace Environment

/-- Each definition is registered under its own command. -/
def Registered (env : Environment) : Prop :=
  ∀ k d, env.registry.find? k = some d → d.command = k

/-- What a call can do: refuse, find the definition, or register a new one. -/
lemma getMessageDefinition_cases (env : Environment) (command : Str) :
    (∃ e, env.getMessageDefinition S T B command = (.error e, env)) ∨
    (∃ d, env.registry.find? command = some d ∧
      env.getMessageDefinition S T B command = (.ok d, env)) ∨
    (∃ (r : Except Exception Unit) (d : MessageDefinition), d.command = command ∧
      env.registry.find? command = none ∧
      env.getMessageDefinition S T B command =
        (r.map fun _ => d, { env with registry := env.registry.insert command d })) := by
  unfold getMessageDefinition
  split
  · exact Or.inl ⟨_, rfl⟩
  · cases hname : verifyMessageName S command with
    | error e => exact Or.inl ⟨e, rfl⟩
    | ok u =>
      cases hfind : env.registry.find? command with
      | some d => exact Or.inr (Or.inl ⟨d, rfl, rfl⟩)
      | none =>
        refine Or.inr (Or.inr ⟨(env.loadDefinition T B command).1,
          (env.loadDefinition T B command).2, ?_, rfl, rfl⟩)
        unfold loadDefinition
        cases env.definitionFile T command <;> rfl

/-- A call keeps what is registered. -/
lemma find?_getMessageDefinition {env : Environment} {k : Str} {d : MessageDefinition}
    (h : env.registry.find? k = some d) (command : Str) :
    (env.getMessageDefinition S T B command).2.registry.find? k = some d := by
  rcases env.getMessageDefinition_cases (S := S) (T := T) (B := B) command with
    ⟨e, heq⟩ | ⟨d', -, heq⟩ | ⟨r, d', -, hnone, heq⟩
  · rw [heq]
    exact h
  · rw [heq]
    exact h
  · rw [heq, SortedMap.find?_insert, if_neg]
    · exact h
    · rintro rfl
      rw [hnone] at h
      cases h

lemma Registered.getMessageDefinition {env : Environment} (h : env.Registered) (command : Str) :
    (env.getMessageDefinition S T B command).2.Registered := by
  rcases env.getMessageDefinition_cases (S := S) (T := T) (B := B) command with
    ⟨e, heq⟩ | ⟨d, -, heq⟩ | ⟨r, d, hd, -, heq⟩
  · rw [heq]
    exact h
  · rw [heq]
    exact h
  · rw [heq]
    intro k d' hk
    rw [SortedMap.find?_insert] at hk
    split at hk
    · rename_i hck
      cases hk
      exact hd.trans hck
    · exact h k d' hk

/-- The definition that a call returns is registered after it. -/
lemma find?_of_getMessageDefinition {env : Environment} {command : Str} {d : MessageDefinition}
    (h : (env.getMessageDefinition S T B command).1 = .ok d) :
    (env.getMessageDefinition S T B command).2.registry.find? command = some d := by
  rcases env.getMessageDefinition_cases (S := S) (T := T) (B := B) command with
    ⟨e, heq⟩ | ⟨d', hfind, heq⟩ | ⟨r, d', -, -, heq⟩
  · rw [heq] at h
    cases h
  · rw [heq] at h ⊢
    cases h
    exact hfind
  · rw [heq] at h ⊢
    cases r with
    | error e => cases h
    | ok u =>
      cases h
      exact SortedMap.find?_insert_self _ _ _

/-- What is registered is what a call returns, if it returns. -/
lemma getMessageDefinition_of_find? {env : Environment} {command : Str} {d d' : MessageDefinition}
    (h : env.registry.find? command = some d)
    (h' : (env.getMessageDefinition S T B command).1 = .ok d') : d' = d := by
  have hkept := find?_getMessageDefinition (S := S) (T := T) (B := B) h command
  rw [find?_of_getMessageDefinition h'] at hkept
  exact Option.some.inj hkept

end Environment

end EventDispatcher
