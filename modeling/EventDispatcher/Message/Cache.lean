import EventDispatcher.Message.Json
import EventDispatcher.Lib.Run

/-!
# The cached texts over a sequence of calls

A message object keeps the last text of `to_string()` and of `to_json()`.  `Message.call` is one
call of a member function, with its outcome.  The text of `to_string()` is always the one of the
fields (`toString_coherent`).  The text of `to_json()` is never dropped, so it is the one of the
fields as long as no call changes the fields once it is there (`caches_coherent`).
-/

namespace EventDispatcher

open Lib

/-- The calls of the member functions that read or change a message. -/
inductive Call where
  /-- One of the four setters of a name. -/
  | setName (field : NameField) (x : Str)
  /-- `message::reply_to()` -/
  | replyTo (original : Message)
  /-- `message::set_command()` -/
  | setCommand (command : Str)
  /-- `message::add_parameter()` -/
  | addParameter (name value : Str)
  /-- `message::from_string()` -/
  | fromString (text : Str)
  /-- `message::from_json()` -/
  | fromJson (text : Str)
  /-- `message::to_string()` -/
  | toString
  /-- `message::to_json()` -/
  | toJson

/-- How a call ends. -/
inductive Outcome where
  /-- The function has no result. -/
  | done
  /-- The function returns whether it succeeded. -/
  | success (b : Bool)
  /-- The function returns a text. -/
  | text (t : Str)
  /-- The function throws. -/
  | thrown (e : Exception)
deriving DecidableEq

namespace Message

variable (S : Snapdev) (V : ValidatorDouble) (J : JsonTokens)

/-- A setter: the exception it throws, or the message it leads to. -/
def ended (m : Message) : Except Exception Message → Outcome × Message
  | .ok m' => (.done, m')
  | .error e => (.thrown e, m)

/-- `message::reply_to()`; when the service is not accepted, the server is already set. -/
def replyTo (m original : Message) : Outcome × Message :=
  match m.setServer S original.sentFromServer with
  | .error e => (.thrown e, m)
  | .ok m => m.ended (m.setService S original.sentFromService)

/-- A function that returns a text. -/
def returned (m : Message) : Except Exception (Str × Message) → Outcome × Message
  | .ok (t, m') => (.text t, m')
  | .error e => (.thrown e, m)

/-- One call: how it ends, and the message after it. -/
def call (m : Message) : Call → Outcome × Message
  | .setName field x => m.ended (m.setName S field x)
  | .replyTo original => m.replyTo S original
  | .setCommand command => m.ended (m.setCommand S command)
  | .addParameter name value => m.ended (m.addParameter S name value)
  | .fromString text => ((m.fromString S text).map Outcome.success id)
  | .fromJson text => ((m.fromJson S J text).map Outcome.success id)
  | .toString => m.returned (m.toString S)
  | .toJson => m.returned (m.toJson S V)

/-- The message after a call. -/
def after (m : Message) (c : Call) : Message := (m.call S V J c).2

/-- A new object with the same fields. -/
def fresh (m : Message) : Message := { toFields := m.toFields }

/-- The text of `to_string()`, once it is there, is the one of the fields. -/
def TextCoherent (m : Message) : Prop :=
  m.cachedMessage = [] ∨ (m.command ≠ [] ∧ m.cachedMessage = m.text S)

/-- The text of `to_json()`, once it is there, is the one of the fields. -/
def JsonCoherent (m : Message) : Prop :=
  m.cachedJson = [] ∨ (m.command ≠ [] ∧ m.cachedJson = m.json S V)

variable {S V J}

/-! ### What one call does -/

/-- What a call leaves behind: the message as it was, the message with other fields and without
its text, or the message with one of its texts filled. -/
inductive Effect (S : Snapdev) (V : ValidatorDouble) (m : Message) : Message → Prop
  /-- Nothing changed. -/
  | same : Effect S V m m
  /-- The fields may have changed. -/
  | changed (f : Fields) : Effect S V m { m with toFields := f, cachedMessage := [] }
  /-- The text was filled. -/
  | filledText : m.command ≠ [] → Effect S V m { m with cachedMessage := m.text S }
  /-- The JSON text was filled. -/
  | filledJson : m.command ≠ [] → Effect S V m { m with cachedJson := m.json S V }

lemma effect_setName {field : NameField} {m m' : Message} {x : Str}
    (h : m.setName S field x = .ok m') : Effect S V m m' := by
  rcases setName_eq_ok_iff.mp h with ⟨-, rfl⟩ | ⟨-, -, rfl⟩
  · exact .same
  · exact .changed _

lemma effect_ended {m : Message} {r : Except Exception Message}
    (h : ∀ m', r = .ok m' → Effect S V m m') : Effect S V m (m.ended r).2 := by
  cases r with
  | error e => exact .same
  | ok m' => exact h m' rfl

/-- After a change, another setter is still a change. -/
lemma Effect.trans_setName {field : NameField} {m m₁ m₂ : Message} {x y : Str}
    {field' : NameField} (h₁ : m.setName S field x = .ok m₁)
    (h₂ : m₁.setName S field' y = .ok m₂) : Effect S V m m₂ := by
  rcases setName_eq_ok_iff.mp h₁ with ⟨-, rfl⟩ | ⟨-, -, rfl⟩
  · exact effect_setName h₂
  · rcases setName_eq_ok_iff.mp h₂ with ⟨-, rfl⟩ | ⟨-, -, rfl⟩
    · exact .changed _
    · exact .changed _

lemma effect_replyTo (m original : Message) : Effect S V m (m.replyTo S original).2 := by
  rw [replyTo]
  split
  · exact .same
  · rename_i m₁ h₁
    cases h₂ : m₁.setService S original.sentFromService with
    | error e => exact effect_setName h₁
    | ok m₂ => exact Effect.trans_setName h₁ h₂

lemma effect_fromString (m : Message) (text : Str) : Effect S V m (m.fromString S text).2 := by
  rw [fromString]
  split
  · exact .same
  · exact .changed _

lemma effect_fromJson (m : Message) (text : Str) : Effect S V m (m.fromJson S J text).2 := by
  rw [fromJson]
  split
  · exact .same
  · exact .changed _

lemma effect_toString (m : Message) : Effect S V m (m.returned (m.toString S)).2 := by
  rw [Message.toString]
  split_ifs with h₁ h₂
  · exact .same
  · exact .filledText h₂
  · exact .same

lemma effect_toJson (m : Message) : Effect S V m (m.returned (m.toJson S V)).2 := by
  rw [Message.toJson]
  split_ifs with h₁ h₂
  · exact .same
  · exact .filledJson h₂
  · exact .same

/-- **What a call can do to a message.** -/
theorem effect_after (m : Message) (c : Call) : Effect S V m (m.after S V J c) := by
  cases c with
  | setName field x => exact effect_ended fun m' h => effect_setName h
  | replyTo original => exact effect_replyTo m original
  | setCommand command =>
    refine effect_ended fun m' h => ?_
    obtain ⟨-, ⟨-, rfl⟩ | ⟨-, rfl⟩⟩ := setCommand_eq_ok_iff.mp h
    · exact .same
    · exact .changed _
  | addParameter name value =>
    refine effect_ended fun m' h => ?_
    obtain ⟨-, rfl⟩ := addParameter_eq_ok_iff.mp h
    exact .changed _
  | fromString text => exact effect_fromString m text
  | fromJson text => exact effect_fromJson m text
  | toString => exact effect_toString m
  | toJson => exact effect_toJson m

lemma Effect.textCoherent {m m' : Message} (h : Effect S V m m') (hm : m.TextCoherent S) :
    m'.TextCoherent S := by
  cases h with
  | same => exact hm
  | changed f => exact Or.inl rfl
  | filledText hc => exact Or.inr ⟨hc, rfl⟩
  | filledJson hc => exact hm

lemma Effect.jsonCoherent {m m' : Message} (h : Effect S V m m') (hm : m.JsonCoherent S V)
    (hsame : m.cachedJson ≠ [] → m'.toFields = m.toFields) : m'.JsonCoherent S V := by
  cases h with
  | same => exact hm
  | changed f =>
    by_cases hj : m.cachedJson = []
    · exact Or.inl hj
    · -- the text is there, so the fields are the same
      have hf : f = m.toFields := hsame hj
      rcases hm with h | ⟨hc, h⟩
      · exact absurd h hj
      · exact Or.inr (by rw [hf]; exact ⟨hc, h⟩)
  | filledText hc => exact hm
  | filledJson hc => exact Or.inr ⟨hc, rfl⟩

/-! ### Runs -/

lemma fresh_toString {m : Message} (hc : m.command ≠ []) :
    m.fresh.toString S = .ok (m.text S, { m.fresh with cachedMessage := m.text S }) := by
  have hempty : m.fresh.cachedMessage = [] := rfl
  rw [Message.toString, if_pos hempty]
  exact if_neg hc

lemma fresh_toJson {m : Message} (hc : m.command ≠ []) :
    m.fresh.toJson S V = .ok (m.json S V, { m.fresh with cachedJson := m.json S V }) := by
  have hempty : m.fresh.cachedJson = [] := rfl
  rw [Message.toJson, if_pos hempty]
  exact if_neg hc

lemma returned_eq_text_iff {m : Message} {r : Except Exception (Str × Message)} {t : Str} :
    (m.returned r).1 = .text t ↔ ∃ m', r = .ok (t, m') := by
  cases r with
  | error e => simp [returned]
  | ok p =>
    obtain ⟨t', m'⟩ := p
    simp [returned]

/-- A coherent message returns the text a new object with the same fields returns. -/
lemma call_toString_fresh {m : Message} (hm : m.TextCoherent S) {t : Str}
    (h : (m.call S V J .toString).1 = .text t) :
    (m.fresh.call S V J .toString).1 = .text t := by
  obtain ⟨m', h⟩ := returned_eq_text_iff.mp h
  suffices hfresh : m.command ≠ [] ∧ m.text S = t by
    exact returned_eq_text_iff.mpr ⟨_, hfresh.2 ▸ fresh_toString hfresh.1⟩
  unfold Message.toString at h
  split_ifs at h with h₁ h₂
  · cases h
    exact ⟨h₂, rfl⟩
  · cases h
    exact hm.elim (fun h => absurd h h₁) fun h => ⟨h.1, h.2.symm⟩

lemma call_toJson_fresh {m : Message} (hm : m.JsonCoherent S V) {t : Str}
    (h : (m.call S V J .toJson).1 = .text t) :
    (m.fresh.call S V J .toJson).1 = .text t := by
  obtain ⟨m', h⟩ := returned_eq_text_iff.mp h
  suffices hfresh : m.command ≠ [] ∧ m.json S V = t by
    exact returned_eq_text_iff.mpr ⟨_, hfresh.2 ▸ fresh_toJson hfresh.1⟩
  unfold Message.toJson at h
  split_ifs at h with h₁ h₂
  · cases h
    exact ⟨h₂, rfl⟩
  · cases h
    exact hm.elim (fun h => absurd h h₁) fun h => ⟨h.1, h.2.symm⟩

/-- A setter returns no text. -/
lemma ended_ne_text (m : Message) (r : Except Exception Message) (t : Str) :
    (m.ended r).1 ≠ .text t := by
  cases r <;> simp [ended]

lemma replyTo_ne_text (m original : Message) (t : Str) :
    (m.replyTo S original).1 ≠ .text t := by
  rw [replyTo]
  split
  · simp
  · exact ended_ne_text _ _ t

/-- Only `to_string()` and `to_json()` return a text. -/
lemma eq_toString_or_toJson {m : Message} {c : Call} {t : Str}
    (h : (m.call S V J c).1 = .text t) : c = .toString ∨ c = .toJson := by
  cases c with
  | setName => exact absurd h (ended_ne_text _ _ t)
  | replyTo original => exact absurd h (replyTo_ne_text m original t)
  | setCommand => exact absurd h (ended_ne_text _ _ t)
  | addParameter => exact absurd h (ended_ne_text _ _ t)
  | fromString => cases h
  | fromJson => cases h
  | toString => exact Or.inl rfl
  | toJson => exact Or.inr rfl

/-- Whatever the calls are, `to_string()` returns the text of the fields. -/
theorem toString_coherent (calls : List Call) {m : Message}
    (hm : (m, .toString) ∈ visited (after S V J) {} calls) {t : Str}
    (h : (m.call S V J .toString).1 = .text t) :
    (m.fresh.call S V J .toString).1 = .text t := by
  have hstep : ∀ (m : Message) (c : Call), m.TextCoherent S → True →
      (m.after S V J c).TextCoherent S :=
    fun m c hm _ => (effect_after m c).textCoherent hm
  have hinv := (invariant_of_visited hstep (s := {}) (l := calls) (Or.inl rfl)
    fun _ _ => trivial).1
  exact call_toString_fresh (hinv _ hm) h

/-- **The cached texts are coherent** in every run in which no call changes the fields once the
JSON text is there: each text that is returned is the one a new object with the same fields
returns. -/
theorem caches_coherent (calls : List Call)
    (hsame : ∀ p ∈ visited (after S V J) {} calls, p.1.cachedJson ≠ [] →
      (p.1.after S V J p.2).toFields = p.1.toFields) :
    ∀ p ∈ visited (after S V J) {} calls, ∀ t, (p.1.call S V J p.2).1 = .text t →
      (p.1.fresh.call S V J p.2).1 = .text t := by
  have hstep : ∀ (m : Message) (c : Call), m.TextCoherent S ∧ m.JsonCoherent S V →
      (m.cachedJson ≠ [] → (m.after S V J c).toFields = m.toFields) →
      (m.after S V J c).TextCoherent S ∧ (m.after S V J c).JsonCoherent S V :=
    fun m c hm hok =>
      ⟨(effect_after m c).textCoherent hm.1, (effect_after m c).jsonCoherent hm.2 hok⟩
  have hinv := (invariant_of_visited hstep (s := {}) (l := calls) ⟨Or.inl rfl, Or.inl rfl⟩ hsame).1
  rintro ⟨m, c⟩ hp t h
  obtain ⟨htext, hjson⟩ := hinv _ hp
  rcases eq_toString_or_toJson h with rfl | rfl
  · exact call_toString_fresh htext h
  · exact call_toJson_fresh hjson h

/-- The message of a run that fills both caches. -/
def writtenMessage : Message where
  command := ['G']
  parameters := SortedMap.insert ∅ ['p'] ['x']
  cachedMessage := "G p=x".toList
  cachedJson := "\x7b\"command\":\"G\",\"parameters\":\x7b\"p\":\"x\"\x7d\x7d".toList

/-- A run that adds a parameter between two texts, and goes on when both texts are there. -/
def writtenCalls : List Call :=
  [.setCommand ['G'], .toString, .addParameter ['p'] ['x'], .toString, .toJson, .toString, .toJson]

/-- Both texts, when they come from the caches, have the parameter, as those of a new object
have. -/
theorem caches_coherent_toString :
    (writtenMessage.fresh.call .standard .standard .standard .toString).1 =
        .text "G p=x".toList ∧
      (writtenMessage.fresh.call .standard .standard .standard .toJson).1 =
        .text "\x7b\"command\":\"G\",\"parameters\":\x7b\"p\":\"x\"\x7d\x7d".toList :=
  ⟨caches_coherent writtenCalls (by decide) (writtenMessage, .toString)
      (List.mem_of_getElem? (i := 5) rfl) _ rfl,
    caches_coherent writtenCalls (by decide) (writtenMessage, .toJson)
      (List.mem_of_getElem? (i := 6) rfl) _ rfl⟩

/-- After a second command, `to_json()` still returns the text of the first one. -/
theorem not_caches_coherent :
    ¬ ∀ (S : Snapdev) (V : ValidatorDouble) (J : JsonTokens) (calls : List Call),
      ∀ p ∈ visited (after S V J) {} calls, ∀ t, (p.1.call S V J p.2).1 = .text t →
        (p.1.fresh.call S V J p.2).1 = .text t := by
  intro h
  have hstale := h .standard .standard .standard
    [.setCommand ['A'], .toJson, .setCommand ['B'], .toJson]
    ({ command := ['B'], cachedJson := "\x7b\"command\":\"A\"\x7d".toList }, .toJson)
    (by
      refine List.mem_cons_of_mem _ (List.mem_cons_of_mem _ (List.mem_cons_of_mem _ ?_))
      exact List.mem_singleton_self _) _ rfl
  exact absurd hstale (by decide)

end Message

end EventDispatcher
