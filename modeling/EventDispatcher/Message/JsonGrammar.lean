import EventDispatcher.Message.Json

/-!
# The grammar of the JSON format

The relations of this file say which lists of tokens are messages in the JSON format and what
they hold: `JsonParameters` for the parameters, `JsonMember` for one member and
`JsonMessage` for the whole object.  The reader accepts exactly these lists and fills the
fields their members give (`parseTokens_eq_some_iff`), a later member replacing an earlier one.
-/

namespace EventDispatcher

open Lib Lib.Json

/-- A member of the object. -/
inductive Member where
  /-- A member whose value is a string. -/
  | field (name value : Str)
  /-- The member that holds the parameters. -/
  | parameters (ps : List (Str × Str))

namespace Member

/-- What a member does to the fields read so far. -/
def apply (f : Fields) : Member → Fields
  | .field name value => f.setMember name value
  | .parameters ps => { f with parameters := f.parameters.insertAll ps }

/-- The fields the members give, from the first one to the last one. -/
def fields (ms : List Member) : Fields := ms.foldl apply {}

end Member

variable {S : Snapdev}

/-- `JsonParameters S l ps`: the tokens `l` list the parameters `ps`, one at least. -/
inductive JsonParameters (S : Snapdev) : List JsonToken → List (Str × Str) → Prop
  /-- The last parameter. -/
  | last {name v : Str} {t : JsonToken} : tokenValue S t = some v →
      JsonParameters S [.string name, .colon, t] [(name, v)]
  /-- A parameter and its comma. -/
  | cons {name v : Str} {t : JsonToken} {l : List JsonToken} {ps : List (Str × Str)} :
      tokenValue S t = some v → JsonParameters S l ps →
      JsonParameters S (.string name :: .colon :: t :: .comma :: l) ((name, v) :: ps)

/-- `JsonMember S l m`: the tokens `l` are the member `m`. -/
inductive JsonMember (S : Snapdev) : List JsonToken → Member → Prop
  /-- A member whose value is a string. -/
  | field (name v : Str) : JsonMember S [.string name, .colon, .string v] (.field name v)
  /-- No parameter. -/
  | empty : JsonMember S [.string parametersKey, .colon, .openObject, .closeObject]
      (.parameters [])
  /-- Some parameters. -/
  | parameters {l : List JsonToken} {ps : List (Str × Str)} : JsonParameters S l ps →
      JsonMember S (.string parametersKey :: .colon :: .openObject :: (l ++ [.closeObject]))
        (.parameters ps)

/-- `JsonMembers S l ms`: the tokens `l` list the members `ms`, one at least. -/
inductive JsonMembers (S : Snapdev) : List JsonToken → List Member → Prop
  /-- The last member. -/
  | last {l : List JsonToken} {m : Member} : JsonMember S l m → JsonMembers S l [m]
  /-- A member and its comma. -/
  | cons {l l' : List JsonToken} {m : Member} {ms : List Member} : JsonMember S l m →
      JsonMembers S l' ms → JsonMembers S (l ++ .comma :: l') (m :: ms)

/-- `JsonMessage S l ms`: the tokens `l` are the object with the members `ms`. -/
inductive JsonMessage (S : Snapdev) : List JsonToken → List Member → Prop
  /-- The members between their braces. -/
  | object {l : List JsonToken} {ms : List Member} : JsonMembers S l ms →
      JsonMessage S (.openObject :: (l ++ [.closeObject])) ms

namespace Reader

/-! ### The calls of the reader, one by one -/

/-- The reader goes from the call `p` over the tokens `l` to the end. -/
def Ends (S : Snapdev) (p : Point) (f : Fields) (l : List JsonToken) (g : Fields) : Prop :=
  (Reader.mk p f).run S l = some ⟨.closed, g⟩

variable {f g : Fields} {l : List JsonToken} {name : Str}

lemma ends_start :
    Ends S .start f l g ↔ ∃ l', l = .openObject :: l' ∧ Ends S .memberName f l' g := by
  unfold Ends
  cases l with
  | nil => simp [run]
  | cons t l => cases t <;> simp [run, next.eq_def]

lemma ends_memberName : Ends S .memberName f l g ↔
    ∃ name l', l = .string name :: l' ∧ Ends S (.memberColon name) f l' g := by
  unfold Ends
  cases l with
  | nil => simp [run]
  | cons t l => cases t <;> simp [run, next.eq_def]

lemma ends_memberColon : Ends S (.memberColon name) f l g ↔
    ∃ l', l = .colon :: l' ∧ Ends S (.memberValue name) f l' g := by
  unfold Ends
  cases l with
  | nil => simp [run]
  | cons t l => cases t <;> simp [run, next.eq_def]

lemma ends_memberValue : Ends S (.memberValue name) f l g ↔
    (∃ l', l = .openObject :: l' ∧ name = parametersKey ∧ Ends S .firstParameter f l' g) ∨
      ∃ v l', l = .string v :: l' ∧ Ends S .afterMember (f.setMember name v) l' g := by
  unfold Ends
  cases l with
  | nil => simp [run]
  | cons t l =>
    cases t with
    | openObject =>
      by_cases h : name = parametersKey <;> simp [run, next.eq_def, h]
    | _ => simp [run, next.eq_def]

lemma ends_firstParameter : Ends S .firstParameter f l g ↔
    (∃ l', l = .closeObject :: l' ∧ Ends S .afterMember f l' g) ∨
      Ends S .parameterName f l g := by
  unfold Ends
  cases l with
  | nil => simp [run]
  | cons t l => cases t <;> simp [run, next.eq_def]

lemma ends_parameterName : Ends S .parameterName f l g ↔
    ∃ name l', l = .string name :: l' ∧ Ends S (.parameterColon name) f l' g := by
  unfold Ends
  cases l with
  | nil => simp [run]
  | cons t l => cases t <;> simp [run, next.eq_def]

lemma ends_parameterColon : Ends S (.parameterColon name) f l g ↔
    ∃ l', l = .colon :: l' ∧ Ends S (.parameterValue name) f l' g := by
  unfold Ends
  cases l with
  | nil => simp [run]
  | cons t l => cases t <;> simp [run, next.eq_def]

lemma ends_parameterValue : Ends S (.parameterValue name) f l g ↔
    ∃ t v l', l = t :: l' ∧ tokenValue S t = some v ∧
      Ends S .afterParameter (Member.apply f (.parameters [(name, v)])) l' g := by
  unfold Ends
  cases l with
  | nil => simp [run]
  | cons t l =>
    have hnext : (Reader.mk (.parameterValue name) f).next S t = (tokenValue S t).map fun v =>
        ⟨.afterParameter, Member.apply f (.parameters [(name, v)])⟩ := rfl
    rw [run, hnext]
    cases htoken : tokenValue S t with
    | none => simp [htoken]
    | some v => simp [htoken]

lemma ends_afterParameter : Ends S .afterParameter f l g ↔
    (∃ l', l = .closeObject :: l' ∧ Ends S .afterMember f l' g) ∨
      ∃ l', l = .comma :: l' ∧ Ends S .parameterName f l' g := by
  unfold Ends
  cases l with
  | nil => simp [run]
  | cons t l => cases t <;> simp [run, next.eq_def]

lemma ends_closed : Ends S .closed f l g ↔ l = [] ∧ f = g := by
  rw [Ends]
  cases l with
  | nil => simp [run]
  | cons t l => cases t <;> simp [run, next.eq_def]

lemma ends_afterMember : Ends S .afterMember f l g ↔
    (l = [.closeObject] ∧ f = g) ∨ ∃ l', l = .comma :: l' ∧ Ends S .memberName f l' g := by
  have hclosed := @ends_closed S f g
  unfold Ends at hclosed ⊢
  cases l with
  | nil => simp [run]
  | cons t l => cases t <;> simp [run, next.eq_def, hclosed]

/-! ### Parameters and members -/

lemma apply_parameters_append (f : Fields) (ps qs : List (Str × Str)) :
    Member.apply (Member.apply f (.parameters ps)) (.parameters qs) =
      Member.apply f (.parameters (ps ++ qs)) := by
  simp [Member.apply, SortedMap.insertAll_append]

/-- From the name of a parameter, the reader goes over parameters and their closing brace. -/
lemma ends_parameterName_iff :
    Ends S .parameterName f l g ↔ ∃ l₁ ps rest, JsonParameters S l₁ ps ∧
      l = l₁ ++ .closeObject :: rest ∧
        Ends S .afterMember (Member.apply f (.parameters ps)) rest g := by
  constructor
  · intro h
    induction hn : l.length using Nat.strong_induction_on generalizing f l with
    | _ n ih =>
      obtain ⟨name, l₁, rfl, h₁⟩ := ends_parameterName.mp h
      obtain ⟨l₂, rfl, h₂⟩ := ends_parameterColon.mp h₁
      obtain ⟨t, v, l₃, rfl, hv, h₃⟩ := ends_parameterValue.mp h₂
      rcases ends_afterParameter.mp h₃ with ⟨rest, rfl, h₄⟩ | ⟨l₄, rfl, h₄⟩
      · exact ⟨_, _, rest, JsonParameters.last hv, rfl, h₄⟩
      · simp only [List.length_cons] at hn
        obtain ⟨l₅, ps, rest, hps, rfl, h₅⟩ := ih l₄.length (by omega) h₄ rfl
        rw [apply_parameters_append] at h₅
        exact ⟨_, _, rest, JsonParameters.cons hv hps, rfl, h₅⟩
  · rintro ⟨l₁, ps, rest, hps, rfl, h⟩
    induction hps generalizing f with
    | last hv =>
      refine ends_parameterName.mpr ⟨_, _, rfl, ends_parameterColon.mpr ⟨_, rfl, ?_⟩⟩
      exact ends_parameterValue.mpr ⟨_, _, _, rfl, hv, ends_afterParameter.mpr
        (Or.inl ⟨_, rfl, h⟩)⟩
    | cons hv _ ih =>
      refine ends_parameterName.mpr ⟨_, _, rfl, ends_parameterColon.mpr ⟨_, rfl, ?_⟩⟩
      refine ends_parameterValue.mpr ⟨_, _, _, rfl, hv, ends_afterParameter.mpr
        (Or.inr ⟨_, rfl, ih ?_⟩)⟩
      rw [apply_parameters_append]
      exact h

/-- From the name of a member, the reader goes over one member. -/
lemma ends_member_iff :
    Ends S .memberName f l g ↔ ∃ l₁ m rest, JsonMember S l₁ m ∧ l = l₁ ++ rest ∧
      Ends S .afterMember (Member.apply f m) rest g := by
  constructor
  · intro h
    obtain ⟨name, l₁, rfl, h₁⟩ := ends_memberName.mp h
    obtain ⟨l₂, rfl, h₂⟩ := ends_memberColon.mp h₁
    rcases ends_memberValue.mp h₂ with ⟨l₃, rfl, rfl, h₃⟩ | ⟨v, l₃, rfl, h₃⟩
    · rcases ends_firstParameter.mp h₃ with ⟨rest, rfl, h₄⟩ | h₄
      · exact ⟨_, _, rest, JsonMember.empty, rfl, h₄⟩
      · obtain ⟨l₄, ps, rest, hps, rfl, h₅⟩ := ends_parameterName_iff.mp h₄
        exact ⟨_, _, rest, JsonMember.parameters hps, by simp, h₅⟩
    · exact ⟨_, _, l₃, JsonMember.field name v, rfl, h₃⟩
  · rintro ⟨l₁, m, rest, hm, rfl, h⟩
    cases hm with
    | field name v =>
      exact ends_memberName.mpr ⟨_, _, rfl, ends_memberColon.mpr ⟨_, rfl,
        ends_memberValue.mpr (Or.inr ⟨_, _, rfl, h⟩)⟩⟩
    | empty =>
      exact ends_memberName.mpr ⟨_, _, rfl, ends_memberColon.mpr ⟨_, rfl,
        ends_memberValue.mpr (Or.inl ⟨_, rfl, rfl, ends_firstParameter.mpr
          (Or.inl ⟨_, rfl, h⟩)⟩)⟩⟩
    | parameters hps =>
      refine ends_memberName.mpr ⟨_, _, rfl, ends_memberColon.mpr ⟨_, rfl,
        ends_memberValue.mpr (Or.inl ⟨_, rfl, rfl, ends_firstParameter.mpr (Or.inr ?_)⟩)⟩⟩
      exact ends_parameterName_iff.mpr ⟨_, _, rest, hps, by simp, h⟩

/-- From the name of a member, the reader goes over the members and the closing brace. -/
lemma ends_memberName_iff :
    Ends S .memberName f l g ↔ ∃ l₁ ms, JsonMembers S l₁ ms ∧ l = l₁ ++ [.closeObject] ∧
      g = ms.foldl Member.apply f := by
  constructor
  · intro h
    induction hn : l.length using Nat.strong_induction_on generalizing f l with
    | _ n ih =>
      obtain ⟨l₁, m, rest, hm, rfl, h₁⟩ := ends_member_iff.mp h
      rcases ends_afterMember.mp h₁ with ⟨rfl, rfl⟩ | ⟨l₂, rfl, h₂⟩
      · exact ⟨l₁, [m], JsonMembers.last hm, rfl, rfl⟩
      · simp only [List.length_append, List.length_cons] at hn
        obtain ⟨l₃, ms, hms, rfl, rfl⟩ := ih l₂.length (by omega) h₂ rfl
        exact ⟨_, m :: ms, JsonMembers.cons hm hms, by simp, rfl⟩
  · rintro ⟨l₁, ms, hms, rfl, rfl⟩
    induction hms generalizing f with
    | last hm =>
      exact ends_member_iff.mpr ⟨_, _, _, hm, rfl, ends_afterMember.mpr (Or.inl ⟨rfl, rfl⟩)⟩
    | cons hm _ ih =>
      exact ends_member_iff.mpr ⟨_, _, _, hm, List.append_assoc _ _ _,
        ends_afterMember.mpr (Or.inr ⟨_, rfl, ih⟩)⟩

end Reader

/-- **The reader accepts exactly the messages in the JSON format.** -/
theorem parseTokens_eq_some_iff {l : List JsonToken} {g : Fields} :
    parseTokens S l = some g ↔ ∃ ms, JsonMessage S l ms ∧ g = Member.fields ms := by
  have hends : parseTokens S l = some g ↔ Reader.Ends S .start {} l g := by
    rw [parseTokens, Reader.Ends]
    constructor
    · intro h
      split at h
      · rename_i hrun
        cases h
        exact hrun
      · cases h
    · intro h
      have hrun : Reader.initial.run S l = some ⟨.closed, g⟩ := h
      rw [hrun]
  rw [hends, Reader.ends_start]
  simp only [Reader.ends_memberName_iff]
  constructor
  · rintro ⟨_, rfl, l₁, ms, hms, rfl, rfl⟩
    exact ⟨ms, JsonMessage.object hms, rfl⟩
  · rintro ⟨ms, hms, rfl⟩
    cases hms with
    | object hms => exact ⟨_, rfl, _, ms, hms, rfl, rfl⟩

/-- **The texts `from_json()` accepts** are the standard JSON objects of this form. -/
theorem parseJson_eq_some_iff_members {J : JsonTokens} {msg : Str} {g : Fields} :
    parseJson S J msg = some g ↔ ∃ l ms, Lexes Binary64.nearest msg l ∧ JsonMessage S l ms ∧
      g = Member.fields ms := by
  rw [parseJson_eq_some_iff]
  simp only [parseTokens_eq_some_iff]
  constructor
  · rintro ⟨l, hl, ms, hms, rfl⟩
    exact ⟨l, ms, hl, hms, rfl⟩
  · rintro ⟨l, ms, hl, hms, rfl⟩
    exact ⟨l, hl, ms, hms, rfl⟩

/-! ### What the members give -/

namespace Member

/-- The value for a key after one more member. -/
def valueAfter (key x : Str) : Member → Str
  | .field name value => if name = key then value else x
  | .parameters _ => x

/-- The last value that is given to a key. -/
def lastValue (ms : List Member) (key : Str) : Str := ms.foldl (valueAfter key) []

/-- The names of the parameters of one member. -/
def names : Member → List Str
  | .field _ _ => []
  | .parameters ps => ps.map Prod.fst

lemma name_apply (f : Fields) (m : Member) (field : NameField) :
    (apply f m).name field = valueAfter field.key (f.name field) m := by
  cases m with
  | parameters ps => cases field <;> rfl
  | field name value =>
    rw [apply, valueAfter]
    by_cases hkey : ∃ field' : NameField, name = field'.key
    · obtain ⟨field', rfl⟩ := hkey
      rw [Fields.setMember_key, Fields.name_putName]
      by_cases h : field' = field
      · rw [if_pos h, if_pos (by rw [h])]
      · rw [if_neg h, if_neg fun hk => h (NameField.key_inj hk)]
    · push Not at hkey
      rw [if_neg (hkey field)]
      by_cases hcommand : name = commandKey
      · rw [hcommand, Fields.setMember_commandKey]
        cases field <;> rfl
      · rw [Fields.setMember_unknown f value hkey hcommand]

lemma command_apply (f : Fields) (m : Member) :
    (apply f m).command = valueAfter commandKey f.command m := by
  cases m with
  | parameters ps => rfl
  | field name value =>
    rw [apply, valueAfter]
    by_cases hkey : ∃ field' : NameField, name = field'.key
    · obtain ⟨field', rfl⟩ := hkey
      rw [Fields.setMember_key, Fields.command_putName, if_neg field'.key_ne_commandKey]
    · push Not at hkey
      by_cases hcommand : name = commandKey
      · rw [hcommand, Fields.setMember_commandKey, if_pos rfl]
      · rw [Fields.setMember_unknown f value hkey hcommand, if_neg hcommand]

lemma mem_keys_apply {f : Fields} {m : Member} {k : Str} :
    k ∈ (apply f m).parameters.keys ↔ k ∈ f.parameters.keys ∨ k ∈ m.names := by
  cases m with
  | parameters ps => exact SortedMap.mem_keys_insertAll
  | field name value =>
    have hsame : (f.setMember name value).parameters = f.parameters := by
      rw [Fields.setMember]
      split_ifs <;> first | exact Fields.parameters_putName _ _ _ | rfl
    rw [apply, hsame]
    simp [names]

/-- A name is the last value of its member. -/
lemma name_fields (ms : List Member) (field : NameField) :
    (fields ms).name field = lastValue ms field.key := by
  have key : ∀ (ms : List Member) (f : Fields), (ms.foldl apply f).name field =
      ms.foldl (valueAfter field.key) (f.name field) := by
    intro ms
    induction ms with
    | nil => exact fun _ => rfl
    | cons m ms ih =>
      intro f
      rw [List.foldl_cons, List.foldl_cons, ih, name_apply]
  have hempty : ({} : Fields).name field = [] := by cases field <;> rfl
  rw [fields, key, hempty]
  rfl

/-- The command is the last value of its member. -/
lemma command_fields (ms : List Member) : (fields ms).command = lastValue ms commandKey := by
  have key : ∀ (ms : List Member) (f : Fields), (ms.foldl apply f).command =
      ms.foldl (valueAfter commandKey) f.command := by
    intro ms
    induction ms with
    | nil => exact fun _ => rfl
    | cons m ms ih =>
      intro f
      rw [List.foldl_cons, List.foldl_cons, ih, command_apply]
  exact key ms {}

/-- The parameters are those of all the members. -/
lemma mem_keys_fields {ms : List Member} {k : Str} :
    k ∈ (fields ms).parameters.keys ↔ ∃ m ∈ ms, k ∈ m.names := by
  have key : ∀ (ms : List Member) (f : Fields), k ∈ (ms.foldl apply f).parameters.keys ↔
      k ∈ f.parameters.keys ∨ ∃ m ∈ ms, k ∈ m.names := by
    intro ms
    induction ms with
    | nil => simp
    | cons m ms ih =>
      intro f
      rw [List.foldl_cons, ih, mem_keys_apply, List.exists_mem_cons_iff, or_assoc]
  rw [fields, key]
  simp [SortedMap.keys]

end Member

end EventDispatcher
