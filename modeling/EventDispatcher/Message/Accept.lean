import EventDispatcher.Message.TextRoundTrip
import EventDispatcher.Message.JsonGrammar

/-!
# The messages that are accepted

`from_message()` reads both formats.  The names of a parameter are checked when a text in the
string format is read; no other name is checked, and a JSON message can also miss its command.
What is accepted is a message the setters could have built exactly when the names that stand in
the text are valid (`NamesValid`, `fromMessage_valid_iff`).
-/

namespace EventDispatcher

open Lib Lib.Json

variable {S : Snapdev} {J : JsonTokens}

/-- `message::from_message()`: whether the text was accepted, and the message after the call. -/
def Message.fromMessage (S : Snapdev) (J : JsonTokens) (m : Message) (originalMessage : Str) :
    Bool × Message :=
  let msg := S.trimString originalMessage
  if msg = [] then (false, m)
  else if msg.head? = some '\x7b' then m.fromJson S J msg
  else m.fromString S msg

/-- The fields of a message that can be sent: the names and the parameters are valid, and there
is a command. -/
structure Fields.Sendable (f : Fields) : Prop where
  /-- The names of the servers and services. -/
  names : ∀ field : NameField, ValidDestination (f.name field)
  /-- The command. -/
  command : ValidName false false f.command
  /-- The names of the parameters. -/
  parameters : ∀ k ∈ f.parameters.keys, ValidName false true k

lemma Fields.Sendable.validNames {f : Fields} (h : f.Sendable) : f.ValidNames :=
  ⟨h.names, ⟨fun h => (nomatch h), h.command.chars, h.command.head⟩, h.parameters⟩

/-- The names that the members of a JSON message give are valid, and one of them gives a
command. -/
structure MembersValid (ms : List Member) : Prop where
  /-- The last value of each name. -/
  names : ∀ field : NameField, ValidDestination (Member.lastValue ms field.key)
  /-- The last command. -/
  command : ValidName false false (Member.lastValue ms commandKey)
  /-- The names of all the parameters. -/
  parameters : ∀ m ∈ ms, ∀ k ∈ m.names, ValidName false true k

/-- The names that stand in the text are valid: the sent-from names, the destination and the
command of a text in the string format, the members of a JSON message. -/
def NamesValid (S : Snapdev) (originalMessage : Str) : Prop :=
  if (S.trimString originalMessage).head? = some '\x7b' then
    ∀ l ms, Lexes Binary64.nearest (S.trimString originalMessage) l → JsonMessage S l ms →
      MembersValid ms
  else
    ∀ f, TextForm S (cStr (S.trimString originalMessage)) f →
      (∀ field, ValidDestination (f.name field)) ∧ ValidName true false f.command

/-- The members of a JSON message are valid when the fields they give can be sent. -/
lemma membersValid_iff {ms : List Member} : MembersValid ms ↔ (Member.fields ms).Sendable := by
  constructor
  · rintro ⟨hnames, hcommand, hparameters⟩
    refine ⟨fun field => ?_, ?_, fun k hk => ?_⟩
    · rw [Member.name_fields]
      exact hnames field
    · rw [Member.command_fields]
      exact hcommand
    · obtain ⟨m, hm, hk⟩ := Member.mem_keys_fields.mp hk
      exact hparameters m hm k hk
  · rintro ⟨hnames, hcommand, hparameters⟩
    refine ⟨fun field => ?_, ?_, fun m hm k hk => ?_⟩
    · rw [← Member.name_fields]
      exact hnames field
    · rw [← Member.command_fields]
      exact hcommand
    · exact hparameters k (Member.mem_keys_fields.mpr ⟨m, hm, hk⟩)

/-- The parameters of a text in the string format have valid names. -/
lemma ParametersForm.validNames {m : Str} {l : List (Str × Str)} (h : ParametersForm S m l) :
    ∀ k ∈ l.map Prod.fst, ValidName false true k := by
  induction h with
  | nil => simp
  | last hname => simpa using hname
  | cons hname _ _ ih => simpa using ⟨hname, by simpa using ih⟩

/-- A text in the string format has a command, and its parameters have valid names. -/
lemma TextForm.command_parameters {t : Str} {f : Fields} (h : TextForm S t f) :
    f.command ≠ [] ∧ ∀ k ∈ f.parameters.keys, ValidName false true k := by
  cases h with
  | mk _ _ hcmd htail =>
    refine ⟨hcmd, fun k hk => ?_⟩
    rw [SortedMap.mem_keys_insertAll] at hk
    rcases hk with hk | hk
    · simp [SortedMap.keys] at hk
    · cases htail with
      | none => simp at hk
      | parameters hl => exact hl.validNames k hk

/-- What is read from a text in the string format can be sent when its names are valid. -/
lemma TextForm.sendable_iff {t : Str} {f : Fields} (h : TextForm S t f) :
    f.Sendable ↔ (∀ field, ValidDestination (f.name field)) ∧ ValidName true false f.command := by
  obtain ⟨hcmd, hparameters⟩ := h.command_parameters
  constructor
  · exact fun hf => ⟨hf.names, hf.validNames.command⟩
  · rintro ⟨hnames, hcommand⟩
    exact ⟨hnames, ⟨fun _ => hcmd, hcommand.chars, hcommand.head⟩, hparameters⟩

/-- The fields that `from_message()` reads. -/
def parseMessage (S : Snapdev) (J : JsonTokens) (originalMessage : Str) : Option Fields :=
  let msg := S.trimString originalMessage
  if msg = [] then none
  else if msg.head? = some '\x7b' then parseJson S J msg
  else parseString S msg

/-- The message after the call: as it was, or with the fields that were read. -/
lemma fromMessage_eq (m : Message) (originalMessage : Str) :
    m.fromMessage S J originalMessage =
      match parseMessage S J originalMessage with
      | none => (false, m)
      | some f => (true, { m with toFields := f, cachedMessage := [] }) := by
  unfold Message.fromMessage parseMessage
  simp only
  split_ifs <;> rfl

/-- The empty text is not in the string format. -/
lemma not_textForm_nil {f : Fields} : ¬ TextForm S [] f := by
  intro h
  have hparse : parseString S [] = none := by
    have htrim : S.trimString [] = [] := by
      rw [S.trimString_eq]
      rfl
    rw [parseString, htrim]
    rfl
  have htrim : cStr (S.trimString []) = [] := by
    rw [S.trimString_eq]
    rfl
  rw [← htrim, ← parseString_eq_some_iff, hparse] at h
  cases h

/-- The names that stand in the text are valid when what is read can be sent. -/
lemma namesValid_iff (S : Snapdev) (J : JsonTokens) (originalMessage : Str) :
    NamesValid S originalMessage ↔
      ∀ f, parseMessage S J originalMessage = some f → f.Sendable := by
  unfold NamesValid parseMessage
  simp only
  split_ifs with hjson hempty hempty
  · rw [hempty] at hjson
    cases hjson
  · simp only [parseJson_eq_some_iff_members]
    constructor
    · rintro h f ⟨l, ms, hl, hms, rfl⟩
      exact membersValid_iff.mp (h l ms hl hms)
    · exact fun h l ms hl hms => membersValid_iff.mpr (h _ ⟨l, ms, hl, hms, rfl⟩)
  · rw [hempty]
    constructor
    · exact fun _ f h => (nomatch h)
    · exact fun _ f h => absurd h not_textForm_nil
  · simp only [parseString_eq_some_iff, S.trimString_trimString]
    exact forall₂_congr fun f hf => hf.sendable_iff.symm

/-- A message whose fields were just read is written on one line. -/
lemma Fields.Sendable.toString {f : Fields} (h : f.Sendable) {m : Message}
    (hm : m.cachedMessage = []) (hf : m.toFields = f) :
    ∃ text m', m.toString S = .ok (text, m') ∧ '\n' ∉ text ∧ '\r' ∉ text := by
  subst hf
  refine ⟨m.text S, { m with cachedMessage := m.text S }, ?_,
    (text_single_line h.validNames).1, (text_single_line h.validNames).2⟩
  rw [Message.toString, if_pos hm, if_neg (h.command.nonempty rfl)]

/-- **What is accepted is valid** exactly when the names that stand in the text are; a text that
is refused changes nothing. -/
theorem fromMessage_valid_iff (m : Message) (originalMessage : Str) :
    (((m.fromMessage S J originalMessage).1 = true →
        (m.fromMessage S J originalMessage).2.Sendable ∧
        ∃ text m', (m.fromMessage S J originalMessage).2.toString S = .ok (text, m') ∧
          '\n' ∉ text ∧ '\r' ∉ text) ∧
      ((m.fromMessage S J originalMessage).1 = false →
        (m.fromMessage S J originalMessage).2 = m)) ↔
      NamesValid S originalMessage := by
  rw [namesValid_iff S J, fromMessage_eq]
  cases parseMessage S J originalMessage with
  | none => simp
  | some f =>
    simp only [true_imp_iff, Bool.true_eq_false, false_imp_iff, and_true, Option.some.injEq,
      forall_eq']
    exact ⟨And.left, fun h => ⟨h, h.toString rfl rfl⟩⟩

/-- A command in lowercase is accepted. -/
theorem not_fromMessage_valid :
    ¬ ∀ (S : Snapdev) (J : JsonTokens) (m : Message) (originalMessage : Str),
      ((m.fromMessage S J originalMessage).1 = true →
        (m.fromMessage S J originalMessage).2.Sendable ∧
        ∃ text m', (m.fromMessage S J originalMessage).2.toString S = .ok (text, m') ∧
          '\n' ∉ text ∧ '\r' ∉ text) ∧
      ((m.fromMessage S J originalMessage).1 = false →
        (m.fromMessage S J originalMessage).2 = m) := by
  intro h
  obtain ⟨hf, -⟩ := (h .standard .standard {} ['g', 'o']).1 (by decide)
  have hcommand : (Message.fromMessage .standard .standard {} ['g', 'o']).2.command =
      ['g', 'o'] := by decide
  have hvalid := hf.command
  rw [hcommand] at hvalid
  exact absurd hvalid (by decide)

end EventDispatcher
