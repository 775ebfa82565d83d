import EventDispatcher.Message.JsonText

/-!
# The JSON format: what comes back

A message that `to_json()` writes is accepted by `from_json()` exactly when it has no service
and its values are `JsonSafe` (`fromJson_toJson_iff`).  A value then comes back unless it is a
number that is printed differently from the nearest double, or a string with an escape that
`from_json()` replaces a second time (`ValueKept`, `fromJson_toJson_value_iff`).
-/

namespace EventDispatcher

open Lib Lib.Json

variable {S : Snapdev} {V : ValidatorDouble} {J : JsonTokens}

/-! ### Reading the tokens of a message -/

/-- The value that `from_json()` reads for a value that `to_json()` wrote. -/
def backValue (S : Snapdev) (V : ValidatorDouble) (v : Str) : Str :=
  (tokenValue S (valueToken V v)).getD []

lemma tokenValue_valueToken (v : Str) :
    tokenValue S (valueToken V v) = some (backValue S V v) := by
  rw [backValue, valueToken]
  split_ifs <;> rfl

namespace Fields

lemma putName_self (f : Fields) (field : NameField) : f.putName field (f.name field) = f := by
  cases field <;> rfl

/-- The fields with other parameters. -/
def putParameters (f : Fields) (ps : SortedMap Str Str) : Fields := { f with parameters := ps }

/-- The fields that are read: the server is not written without a service, and the values are
the ones their tokens hold. -/
def readBack (S : Snapdev) (V : ValidatorDouble) (f : Fields) : Fields :=
  { f with server := [], service := [], parameters := f.parameters.mapValues (backValue S V) }

end Fields

namespace Reader

lemma run_memberTokens (f : Fields) {key value : Str} (l : List JsonToken) :
    (Reader.mk .memberName f).run S (memberTokens key value ++ l) =
      (Reader.mk .afterMember (f.setMember key value)).run S l := rfl

/-- Reading a member that is written when its name is not empty. -/
lemma run_nameTokens (f g : Fields) {field : NameField} (hg : g.name field = [])
    (l : List JsonToken) :
    (Reader.mk .memberName g).run S (f.memberTokens field ++ l) =
      (Reader.mk .memberName (g.putName field (f.name field))).run S l := by
  rw [Fields.memberTokens]
  split
  · rw [List.append_assoc, run_memberTokens, Fields.setMember_key]
    rfl
  · rename_i h
    rw [not_not.mp h, ← hg, Fields.putName_self]
    rfl

/-- Reading the parameters, from the brace that opens their object to the one that closes it. -/
lemma run_parametersTokens (ps : List (Str × Str)) (first : Bool) (f : Fields)
    (l : List JsonToken) :
    (Reader.mk (if first then .firstParameter else .afterParameter) f).run S
        (parametersTokens V first ps ++ .closeObject :: l) =
      (Reader.mk .afterMember (f.putParameters
        (f.parameters.insertAll (ps.map fun p => (p.1, backValue S V p.2))))).run S l := by
  induction ps generalizing first f with
  | nil => cases first <;> rfl
  | cons p ps ih =>
    have hvalue : ∀ l, (Reader.mk (.parameterValue p.1) f).run S (valueToken V p.2 :: l) =
        (Reader.mk .afterParameter (f.putParameters
          (f.parameters.insert p.1 (backValue S V p.2)))).run S l := by
      intro l
      refine run_cons ?_
      rw [next.eq_def]
      simp only [tokenValue_valueToken, Option.map_some, Fields.putParameters]
    have hrest := ih false (f.putParameters (f.parameters.insert p.1 (backValue S V p.2)))
    rw [if_neg Bool.false_ne_true, ← hvalue] at hrest
    refine Eq.trans ?_ hrest
    cases first <;> rfl

/-- Reading what follows the command. -/
lemma run_tailTokens (f g : Fields) (hg : g.parameters = ∅) :
    (Reader.mk .afterMember g).run S (f.tailTokens V) =
      some ⟨.closed, g.putParameters (f.parameters.mapValues (backValue S V))⟩ := by
  rw [Fields.tailTokens]
  split
  · have hrun := run_parametersTokens (S := S) (V := V) f.parameters.entries true g [.closeObject]
    have hmap : (∅ : SortedMap Str Str).insertAll
        (f.parameters.entries.map fun p => (p.1, backValue S V p.2)) =
        f.parameters.mapValues (backValue S V) :=
      SortedMap.insertAll_entries (f.parameters.mapValues (backValue S V))
    rw [hg, hmap, if_pos rfl] at hrun
    have hopen : (Reader.mk .afterMember g).run S
        (.comma :: .string parametersKey :: .colon :: .openObject ::
          (parametersTokens V true f.parameters.entries ++ [.closeObject]) ++ [.closeObject]) =
        (Reader.mk .firstParameter g).run S
          (parametersTokens V true f.parameters.entries ++ .closeObject :: [.closeObject]) := by
      rw [List.cons_append, List.cons_append, List.cons_append, List.cons_append,
        List.append_assoc, List.singleton_append]
      rfl
    rw [hopen, hrun]
    rfl
  · rename_i h
    have hempty : f.parameters.mapValues (backValue S V) = ∅ :=
      SortedMap.ext (by simp [SortedMap.mapValues, not_not.mp h])
    rw [hempty, ← hg]
    rfl

end Reader

/-- The fields the tokens of a message hold. -/
lemma parseTokens_tokens (f : Fields) : parseTokens S (f.tokens V) = some (f.readBack S V) := by
  have hrun : Reader.initial.run S (f.tokens V) = some ⟨.closed, f.readBack S V⟩ := by
    have hopen : Reader.initial.run S (f.tokens V) = (Reader.mk .memberName {}).run S
        (f.memberTokens .sentFromServer ++ (f.memberTokens .sentFromService ++
          (memberTokens commandKey f.command ++ f.tailTokens V))) := rfl
    rw [hopen, Reader.run_nameTokens f _ rfl, Reader.run_nameTokens f _ rfl,
      Reader.run_memberTokens, Fields.setMember_commandKey, Reader.run_tailTokens f _ rfl]
    rfl
  rw [parseTokens, hrun]

/-- **What comes back**: the text of a message is accepted exactly when it has no service and
its values are safe, and then the fields that are read are known. -/
theorem parseJson_json_eq_some_iff {f g : Fields} (hf : f.ValidNames) :
    parseJson S J (f.json S V) = some g ↔
      f.service = [] ∧ (∀ p ∈ f.parameters.entries, JsonSafe V p.2) ∧ g = f.readBack S V := by
  rw [parseJson_eq_some_iff]
  simp only [Fields.lexes_json_iff hf]
  constructor
  · rintro ⟨l, ⟨hservice, hsafe, rfl⟩, h⟩
    rw [parseTokens_tokens, Option.some.injEq] at h
    exact ⟨hservice, hsafe, h.symm⟩
  · rintro ⟨hservice, hsafe, rfl⟩
    exact ⟨_, ⟨hservice, hsafe, rfl⟩, parseTokens_tokens f⟩

/-- What a reader gets from the text of a message that the setters built. -/
lemma fromJson_toJson_cases {m : Message} (hm : Message.Built S m) (hcmd : m.command ≠ [])
    (r : Message) {P : Message → Prop} :
    (∃ text m₁ r₁, m.toJson S V = .ok (text, m₁) ∧ r.fromJson S J text = (true, r₁) ∧ P r₁) ↔
      m.service = [] ∧ (∀ p ∈ m.parameters.entries, JsonSafe V p.2) ∧
        P { r with toFields := m.readBack S V, cachedMessage := [] } := by
  have htext : m.toJson S V = .ok (m.json S V, { m with cachedJson := m.json S V }) := by
    rw [Message.toJson, if_pos hm.caches.2, if_neg hcmd]
  have hparse := fun g => parseJson_json_eq_some_iff (S := S) (V := V) (J := J) (g := g)
    hm.wellFormed.validNames
  rw [htext]
  constructor
  · rintro ⟨text, m₁, r₁, h, hr, hP⟩
    cases h
    unfold Message.fromJson at hr
    split at hr
    · cases hr
    · rename_i f hf
      cases hr
      obtain ⟨hservice, hsafe, rfl⟩ := (hparse f).mp hf
      exact ⟨hservice, hsafe, hP⟩
  · rintro ⟨hservice, hsafe, hP⟩
    refine ⟨_, _, _, rfl, ?_, hP⟩
    rw [Message.fromJson, (hparse _).mpr ⟨hservice, hsafe, rfl⟩]

/-- **The names come back from JSON** exactly when the message has no service and its values are
safe. -/
theorem fromJson_toJson_iff {m : Message} (hm : Message.Built S m) (hcmd : m.command ≠ [])
    (hdest : m.server ≠ [] → m.service ≠ []) (r : Message) :
    (∃ text m₁ r₁, m.toJson S V = .ok (text, m₁) ∧ r.fromJson S J text = (true, r₁) ∧
      (∀ field, r₁.name field = m.name field) ∧ r₁.command = m.command ∧
        r₁.parameters.keys = m.parameters.keys) ↔
      m.service = [] ∧ ∀ p ∈ m.parameters.entries, JsonSafe V p.2 := by
  rw [fromJson_toJson_cases hm hcmd r]
  constructor
  · exact fun h => ⟨h.1, h.2.1⟩
  · rintro ⟨hservice, hsafe⟩
    have hserver : m.server = [] := by
      by_contra h
      exact hdest h hservice
    refine ⟨hservice, hsafe, fun field => ?_, rfl, SortedMap.keys_mapValues _ _⟩
    cases field
    · rfl
    · rfl
    · exact hserver.symm
    · exact hservice.symm

/-- A message without a service, with a value that is a number, comes back. -/
theorem fromJson_toJson_number :
    ∃ text m₁ r₁, (Message.oneParameter [] ['G'] ['p'] ['+', '1', '.', '5']).toJson
        .standard .standard = .ok (text, m₁) ∧
      Message.fromJson .standard .standard {} text = (true, r₁) ∧
      (∀ field, r₁.name field =
        (Message.oneParameter [] ['G'] ['p'] ['+', '1', '.', '5']).name field) ∧
      r₁.command = ['G'] ∧ r₁.parameters.keys = [['p']] :=
  (fromJson_toJson_iff (Message.built_oneParameter (by decide) (by decide) (by decide)) (by decide)
    (by decide) {}).mpr ⟨rfl, by
      intro p hp
      rw [List.mem_singleton.mp hp]
      exact Or.inr (Or.inr (Or.inl ⟨by decide, by decide⟩))⟩

/-- A message with a service does not come back. -/
theorem not_fromJson_toJson :
    ¬ ∀ (S : Snapdev) (V : ValidatorDouble) (J : JsonTokens) (m r : Message),
      Message.Built S m → m.command ≠ [] → (m.server ≠ [] → m.service ≠ []) →
      ∃ text m₁ r₁, m.toJson S V = .ok (text, m₁) ∧ r.fromJson S J text = (true, r₁) ∧
        (∀ field, r₁.name field = m.name field) ∧ r₁.command = m.command ∧
          r₁.parameters.keys = m.parameters.keys := by
  intro h
  have hm : Message.Built .standard (Message.oneParameter ['v'] ['G'] ['p'] ['x']) :=
    Message.built_oneParameter (by decide) (by decide) (by decide)
  have hback := h .standard .standard .standard _ {} hm (by decide) (by decide)
  rw [fromJson_toJson_cases hm (by decide)] at hback
  exact absurd hback.1 (by decide)

end EventDispatcher
