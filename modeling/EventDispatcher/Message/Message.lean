import EventDispatcher.Message.Name
import EventDispatcher.Lib.SortedMap

/-!
# The message object and its setters

A message is its six fields and two texts that `to_string()` and `to_json()` fill on their
first call.  `Built` are the messages that a sequence of successful setter calls leads to from
a new object; their fields are `WellFormed` and both texts are still empty.
-/

namespace EventDispatcher

open Lib

/-- The fields of a message that travel. -/
structure Fields where
  /-- `f_sent_from_server` -/
  sentFromServer : Str := []
  /-- `f_sent_from_service` -/
  sentFromService : Str := []
  /-- `f_server` -/
  server : Str := []
  /-- `f_service` -/
  service : Str := []
  /-- `f_command` -/
  command : Str := []
  /-- `f_parameters` -/
  parameters : SortedMap Str Str := ∅
deriving DecidableEq

/-- A message object. -/
structure Message extends Fields where
  /-- `f_cached_message`, empty until `to_string()` fills it -/
  cachedMessage : Str := []
  /-- `f_cached_json`, empty until `to_json()` fills it -/
  cachedJson : Str := []
  /-- `f_processed` -/
  processed : Bool := false
deriving DecidableEq

/-- The four fields that hold the name of a server or of a service. -/
inductive NameField where
  | sentFromServer
  | sentFromService
  | server
  | service
deriving DecidableEq, Repr

/-- Whether the setter of the field takes the special destinations. -/
def NameField.takesSpecial : NameField → Bool
  | sentFromServer | sentFromService => false
  | server | service => true

/-- The names the setter of the field accepts. -/
def NameField.Accepts (field : NameField) (name : Str) : Prop :=
  ValidName true true name ∨ (field.takesSpecial = true ∧ IsSpecialDestination name)

lemma NameField.Accepts.validDestination {field : NameField} {name : Str}
    (h : field.Accepts name) : ValidDestination name :=
  h.imp id And.right

namespace Fields

/-- The name a field holds. -/
def name (f : Fields) : NameField → Str
  | .sentFromServer => f.sentFromServer
  | .sentFromService => f.sentFromService
  | .server => f.server
  | .service => f.service

/-- The fields with one of the names replaced. -/
def putName (f : Fields) (field : NameField) (x : Str) : Fields :=
  match field with
  | .sentFromServer => { f with sentFromServer := x }
  | .sentFromService => { f with sentFromService := x }
  | .server => { f with server := x }
  | .service => { f with service := x }

lemma name_putName (f : Fields) (field field' : NameField) (x : Str) :
    (f.putName field x).name field' = if field = field' then x else f.name field' := by
  cases field <;> cases field' <;> rfl

@[simp] lemma command_putName (f : Fields) (field : NameField) (x : Str) :
    (f.putName field x).command = f.command := by
  cases field <;> rfl

@[simp] lemma parameters_putName (f : Fields) (field : NameField) (x : Str) :
    (f.putName field x).parameters = f.parameters := by
  cases field <;> rfl

/-- The fields the setters can lead to. -/
structure WellFormed (f : Fields) : Prop where
  /-- Each name is one its setter accepts. -/
  names : ∀ field : NameField, field.Accepts (f.name field)
  /-- The command is not set yet, or it is a name in uppercase. -/
  command : f.command = [] ∨ ValidName false false f.command
  /-- The parameters have valid names. -/
  parameters : ∀ k ∈ f.parameters.keys, ValidName false true k

/-- The names of a message that can be sent: the servers and services are names or special
destinations, the command is in uppercase, the parameters have valid names. -/
structure ValidNames (f : Fields) : Prop where
  /-- The names of the servers and services. -/
  names : ∀ field : NameField, ValidDestination (f.name field)
  /-- The command, which can be missing. -/
  command : ValidName true false f.command
  /-- The names of the parameters. -/
  parameters : ∀ k ∈ f.parameters.keys, ValidName false true k

lemma WellFormed.validNames {f : Fields} (h : f.WellFormed) : f.ValidNames where
  names field := (h.names field).validDestination
  command := by
    rcases h.command with hc | hc
    · rw [hc]
      decide
    · exact ⟨fun h => (nomatch h), hc.chars, hc.head⟩
  parameters := h.parameters

end Fields

namespace Message

variable (S : Snapdev)

/-- What the four name setters do: nothing when the name is already there, otherwise the name
is checked, saved, and the cached text dropped. -/
def setName (field : NameField) (m : Message) (x : Str) : Except Exception Message :=
  if m.name field ≠ x then
    -- the special destinations are saved without a check
    if field.takesSpecial ∧ IsSpecialDestination x then
      .ok { m with toFields := m.putName field x, cachedMessage := [] }
    else
      match verifyMessageName S x true with
      | .error e => .error e
      | .ok () => .ok { m with toFields := m.putName field x, cachedMessage := [] }
  else
    .ok m

/-- `message::set_sent_from_server()` -/
def setSentFromServer (m : Message) (sentFromServer : Str) : Except Exception Message :=
  m.setName S .sentFromServer sentFromServer

/-- `message::set_sent_from_service()` -/
def setSentFromService (m : Message) (sentFromService : Str) : Except Exception Message :=
  m.setName S .sentFromService sentFromService

/-- `message::set_server()` -/
def setServer (m : Message) (server : Str) : Except Exception Message :=
  m.setName S .server server

/-- `message::set_service()` -/
def setService (m : Message) (service : Str) : Except Exception Message :=
  m.setName S .service service

/-- `message::set_command()`; the name is checked before it is compared. -/
def setCommand (m : Message) (command : Str) : Except Exception Message :=
  match verifyMessageName S command false false with
  | .error e => .error e
  | .ok () =>
    if m.command ≠ command then .ok { m with command := command, cachedMessage := [] }
    else .ok m

/-- `message::add_parameter()` for a string value -/
def addParameter (m : Message) (name value : Str) : Except Exception Message :=
  match verifyMessageName S name with
  | .error e => .error e
  | .ok () =>
    .ok { m with parameters := m.parameters.insert name value, cachedMessage := [] }

/-- `message::has_parameter()` -/
def hasParameter (m : Message) (name : Str) : Except Exception Bool :=
  match verifyMessageName S name with
  | .error e => .error e
  | .ok () => .ok (m.parameters.find? name).isSome

/-- `message::get_parameter()` -/
def getParameter (m : Message) (name : Str) : Except Exception Str :=
  match verifyMessageName S name with
  | .error e => .error e
  | .ok () =>
    match m.parameters.find? name with
    | some value => .ok value
    | none =>
      .error ⟨.invalidMessage, "message::get_parameter(): parameter \"".toList ++ name
        ++ "\" of command \"".toList ++ m.command
        ++ ("\" not defined, try has_parameter() before calling"
          ++ " the get_parameter() function.").toList⟩

/-- `message::mark_processed()` -/
def markProcessed (m : Message) : Message := { m with processed := true }

/-! ### What each setter does -/

variable {S}

/-- The check of a name decides between an error and the continuation. -/
lemma verified_eq_ok_iff {name : Str} {canBeEmpty canBeLowercase : Bool} {next m' : Message} :
    (match verifyMessageName S name canBeEmpty canBeLowercase with
      | .error e => (.error e : Except Exception Message)
      | .ok () => .ok next) = .ok m' ↔ ValidName canBeEmpty canBeLowercase name ∧ m' = next := by
  rw [← verifyMessageName_eq_ok_iff (S := S)]
  cases verifyMessageName S name canBeEmpty canBeLowercase with
  | error e => simp
  | ok u => simp [eq_comm]

lemma setName_eq_ok_iff {field : NameField} {m m' : Message} {x : Str} :
    m.setName S field x = .ok m' ↔
      (m.name field = x ∧ m' = m) ∨ (m.name field ≠ x ∧ field.Accepts x ∧
        m' = { m with toFields := m.putName field x, cachedMessage := [] }) := by
  rw [setName, NameField.Accepts]
  by_cases hx : m.name field = x
  · rw [if_neg (not_not.mpr hx), Except.ok.injEq]
    exact ⟨fun h => Or.inl ⟨hx, h.symm⟩, fun h => h.elim (fun h => h.2.symm) fun h => absurd hx h.1⟩
  · rw [if_pos hx]
    by_cases hsp : field.takesSpecial = true ∧ IsSpecialDestination x
    · rw [if_pos hsp, Except.ok.injEq]
      exact ⟨fun h => Or.inr ⟨hx, Or.inr hsp, h.symm⟩,
        fun h => h.elim (fun h => absurd h.1 hx) fun h => h.2.2.symm⟩
    · rw [if_neg hsp, verified_eq_ok_iff]
      exact ⟨fun h => Or.inr ⟨hx, Or.inl h.1, h.2⟩, fun h => h.elim (fun h => absurd h.1 hx)
        fun h => ⟨h.2.1.resolve_right hsp, h.2.2⟩⟩

lemma setCommand_eq_ok_iff {m m' : Message} {x : Str} :
    m.setCommand S x = .ok m' ↔ ValidName false false x ∧
      ((m.command = x ∧ m' = m) ∨
        (m.command ≠ x ∧ m' = { m with command := x, cachedMessage := [] })) := by
  rw [setCommand]
  rw [← verifyMessageName_eq_ok_iff (S := S)]
  cases verifyMessageName S x false false with
  | error e => simp
  | ok u =>
    by_cases hx : m.command = x
    · simp [hx, eq_comm (a := m)]
    · simp [hx, eq_comm (b := m')]

lemma addParameter_eq_ok_iff {m m' : Message} {name value : Str} :
    m.addParameter S name value = .ok m' ↔ ValidName false true name ∧
      m' = { m with parameters := m.parameters.insert name value, cachedMessage := [] } :=
  verified_eq_ok_iff

/-! ### The messages the setters build -/

variable (S) in
/-- The messages that successful setter calls lead to from a new object. -/
inductive Built : Message → Prop
  /-- A new object. -/
  | fresh : Built {}
  /-- A call of one of the four name setters. -/
  | setName {m m' : Message} {field : NameField} {x : Str} :
      Built m → m.setName S field x = .ok m' → Built m'
  /-- A call of `set_command()`. -/
  | setCommand {m m' : Message} {x : Str} : Built m → m.setCommand S x = .ok m' → Built m'
  /-- A call of `add_parameter()`. -/
  | addParameter {m m' : Message} {name value : Str} :
      Built m → m.addParameter S name value = .ok m' → Built m'

/-- The setters keep the fields well formed. -/
theorem Built.wellFormed {m : Message} (h : Built S m) : m.toFields.WellFormed := by
  induction h with
  | fresh =>
    have hempty : ValidName true true [] := by decide
    refine ⟨fun field => Or.inl ?_, Or.inl rfl, fun k hk => ?_⟩
    · cases field <;> exact hempty
    · simp [SortedMap.keys] at hk
  | @setName m m' field x _ hset ih =>
    rcases setName_eq_ok_iff.mp hset with ⟨-, rfl⟩ | ⟨-, hacc, rfl⟩
    · exact ih
    · refine ⟨fun field' => ?_, by simpa using ih.command, by simpa using ih.parameters⟩
      rw [Fields.name_putName]
      split
      · rename_i heq
        exact heq ▸ hacc
      · exact ih.names field'
  | setCommand _ hset ih =>
    obtain ⟨hval, ⟨-, rfl⟩ | ⟨-, rfl⟩⟩ := setCommand_eq_ok_iff.mp hset
    · exact ih
    · exact ⟨fun field => by simpa [Fields.name] using ih.names field, Or.inr hval, ih.parameters⟩
  | addParameter _ hset ih =>
    obtain ⟨hval, rfl⟩ := addParameter_eq_ok_iff.mp hset
    refine ⟨fun field => by simpa [Fields.name] using ih.names field, ih.command, fun k hk => ?_⟩
    rcases SortedMap.mem_keys_insert.mp hk with rfl | hk
    · exact hval
    · exact ih.parameters k hk

/-- The setters leave both cached texts empty. -/
theorem Built.caches {m : Message} (h : Built S m) : m.cachedMessage = [] ∧ m.cachedJson = [] := by
  induction h with
  | fresh => exact ⟨rfl, rfl⟩
  | setName _ hset ih =>
    rcases setName_eq_ok_iff.mp hset with ⟨-, rfl⟩ | ⟨-, -, rfl⟩
    · exact ih
    · exact ⟨rfl, ih.2⟩
  | setCommand _ hset ih =>
    obtain ⟨-, ⟨-, rfl⟩ | ⟨-, rfl⟩⟩ := setCommand_eq_ok_iff.mp hset
    · exact ih
    · exact ⟨rfl, ih.2⟩
  | addParameter _ hset ih =>
    obtain ⟨-, rfl⟩ := addParameter_eq_ok_iff.mp hset
    exact ⟨rfl, ih.2⟩

/-- A message with a service, a command and one parameter. -/
def oneParameter (service command name value : Str) : Message where
  service := service
  command := command
  parameters := (∅ : SortedMap Str Str).insert name value

lemma built_oneParameter {service command name value : Str}
    (hservice : ValidName true true service) (hcommand : ValidName false false command)
    (hname : ValidName false true name) :
    Built S (oneParameter service command name value) := by
  have hfresh := Built.fresh (S := S)
  have hs : Built S { service := service } := by
    by_cases h : service = []
    · rw [h]
      exact hfresh
    · exact hfresh.setName (setName_eq_ok_iff.mpr
        (Or.inr ⟨(Ne.symm h : ({} : Message).name .service ≠ service), Or.inl hservice, rfl⟩))
  have hne : ([] : Str) ≠ command := (hcommand.nonempty rfl).symm
  have hc := hs.setCommand (setCommand_eq_ok_iff.mpr ⟨hcommand, Or.inr ⟨hne, rfl⟩⟩)
  exact hc.addParameter (addParameter_eq_ok_iff.mpr ⟨hname, rfl⟩)

end Message

end EventDispatcher
