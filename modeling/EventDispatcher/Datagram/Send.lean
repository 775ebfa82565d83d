import EventDispatcher.Datagram.ProcessRead
import EventDispatcher.Message.Cache

/-!
# The messages that the datagram servers send

`send_message()` of the two classes makes a copy of the message with the address to reply to, and
then passes the message it was given to the overload that adds the secret code.  The datagram never
has the address (`encode_eq`): it carries what was asked exactly when the message has that very
parameter already, or when it is too large with and without it (`carries_iff`).
-/

namespace EventDispatcher.Datagram

open Lib

/-- The exceptions of `send_message()`. -/
inductive SendError where
  /-- `initialization_missing` -/
  | initializationMissing (what : Str)
  /-- An exception of the message, or `invalid_message`. -/
  | message (e : Exception)
deriving DecidableEq, Repr

/-- The text of `initialization_missing`. -/
def noClientText : Str :=
  "this UDP server was not initialized with a client (see constructor).".toList

/-- The text of `invalid_message`.  `DATAGRAM_MAX_SIZE` is not a macro, so its name is what
`SNAPDEV_STRINGIZE()` gives. -/
def tooLargeText (length : ℕ) : Str :=
  "message too large (".toList ++ natText length
    ++ " bytes) for a UDP server (max: DATAGRAM_MAX_SIZE)".toList

/-- The name of the parameter. -/
def replyTo : Str := "reply_to".toList

/-- A connection. -/
structure Sender where
  /-- Its class. -/
  kind : DatagramClass
  /-- The text that `add_parameter()` writes for `get_address()`. -/
  address : Str
  /-- `f_udp_client` or `f_dgram_client` is set. -/
  client : Bool
deriving DecidableEq, Repr

/-- A call that ended: what it gives and the message of the caller, whose cache can be filled. -/
structure Ended (α : Type) where
  /-- What it returns or throws. -/
  result : Except SendError α
  /-- The message of the caller. -/
  msg : Message

/-- What was sent. -/
structure Sent where
  /-- The bytes that were given to the socket. -/
  data : Str
  /-- What the function returns. -/
  success : Bool
deriving DecidableEq, Repr

variable (S : Snapdev)

/-- The text of the datagram: the one of a copy with the secret code when there is one. -/
def encode (msg : Message) (secret : Str) : Ended Str :=
  if secret ≠ [] then
    match msg.addParameter S secretCode secret with
    | .error e => ⟨.error (.message e), msg⟩
    | .ok m =>
      match m.toString S with
      | .error e => ⟨.error (.message e), msg⟩
      | .ok r => ⟨.ok r.1, msg⟩
  else
    match msg.toString S with
    | .error e => ⟨.error (.message e), msg⟩
    | .ok r => ⟨.ok r.1, r.2⟩

/-- `send_message(client, msg, secret_code)`, with what `client.send()` answers. -/
def sendClient (k : DatagramClass) (msg : Message) (secret : Str) (answer : ℤ) : Ended Sent :=
  let buf := encode S msg secret
  match buf.result with
  | .error e => ⟨.error e, buf.msg⟩
  | .ok data =>
    if data.length > k.maxSize then
      ⟨.error (.message ⟨.invalidMessage, tooLargeText data.length⟩), buf.msg⟩
    else ⟨.ok ⟨data, answer == data.length⟩, buf.msg⟩

/-- `send_message(msg, secret_code)` -/
def sendMessage (s : Sender) (msg : Message) (secret : Str) (answer : ℤ) : Ended Sent :=
  if s.client = false then ⟨.error (.initializationMissing noClientText), msg⟩
  else
    match msg.addParameter S replyTo s.address with
    | .error e => ⟨.error (.message e), msg⟩
    -- the copy with the address is not what is passed on
    | .ok _ => sendClient S s.kind msg secret answer

/-- The fields with the secret code when there is one. -/
def withSecret (f : Fields) (secret : Str) : Fields :=
  if secret ≠ [] then { f with parameters := f.parameters.insert secretCode secret } else f

/-- The fields that a datagram is to carry: with the address to reply to and the secret code. -/
def decorate (s : Sender) (f : Fields) (secret : Str) : Fields :=
  withSecret { f with parameters := f.parameters.insert replyTo s.address } secret

variable (J : JsonTokens)

/-- `to_message()` and `from_message()` round trip the fields. -/
def RoundTrips (f : Fields) : Prop :=
  f.command ≠ [] ∧
    ∃ m, ({} : Message).fromMessage S J (f.text S) = (true, m) ∧ m.toFields = f

/-- **A datagram carries what was asked.** -/
structure Carries (s : Sender) (msg : Message) (secret : Str) (answer : ℤ) : Prop where
  /-- The bytes that are sent decode to the message with the address and the secret code, and fit
  in the buffer of the one who receives them. -/
  sent : ∀ r, (sendMessage S s msg secret answer).result = .ok r →
    (∃ m, ({} : Message).fromMessage S J r.data = (true, m) ∧
      m.toFields = decorate s msg.toFields secret) ∧ r.data.length ≤ s.kind.maxSize
  /-- The call throws exactly when they would not. -/
  throws : (∃ e, (sendMessage S s msg secret answer).result = .error e) ↔
    s.kind.maxSize < ((decorate s msg.toFields secret).text S).length
  /-- The message of the caller is not changed. -/
  unchanged : (sendMessage S s msg secret answer).msg.toFields = msg.toFields

variable {S J}

/-! ### One call -/

/-- A coherent message gives the text of its fields. -/
lemma toString_of_textCoherent {m : Message} (hm : m.TextCoherent S) (hc : m.command ≠ []) :
    ∃ m', m.toString S = .ok (m.text S, m') ∧ m'.toFields = m.toFields := by
  rw [Message.toString]
  rcases hm with hempty | ⟨-, htext⟩
  · rw [if_pos hempty, if_neg hc]
    exact ⟨_, rfl, rfl⟩
  · by_cases hempty : m.cachedMessage = []
    · rw [if_pos hempty, if_neg hc]
      exact ⟨_, rfl, rfl⟩
    · rw [if_neg hempty, htext]
      exact ⟨m, rfl, rfl⟩

lemma addParameter_secretCode (m : Message) (secret : Str) :
    m.addParameter S secretCode secret =
      .ok { m with parameters := m.parameters.insert secretCode secret, cachedMessage := [] } :=
  Message.addParameter_eq_ok_iff.mpr ⟨by decide, rfl⟩

lemma addParameter_replyTo (m : Message) (address : Str) :
    m.addParameter S replyTo address =
      .ok { m with parameters := m.parameters.insert replyTo address, cachedMessage := [] } :=
  Message.addParameter_eq_ok_iff.mpr ⟨by decide, rfl⟩

@[simp] lemma command_withSecret (f : Fields) (secret : Str) :
    (withSecret f secret).command = f.command := by
  rw [withSecret]
  split_ifs <;> rfl

/-- **What is sent** is the text of the message with the secret code alone. -/
lemma encode_eq {msg : Message} (hm : msg.TextCoherent S) (hc : msg.command ≠ []) (secret : Str) :
    (encode S msg secret).result = .ok ((withSecret msg.toFields secret).text S) ∧
      (encode S msg secret).msg.toFields = msg.toFields := by
  rw [encode, withSecret]
  split_ifs with hsecret
  · have hempty : Message.TextCoherent S { msg with
        parameters := msg.parameters.insert secretCode secret, cachedMessage := [] } := Or.inl rfl
    obtain ⟨m', htext, -⟩ := toString_of_textCoherent hempty hc
    rw [addParameter_secretCode]
    dsimp only
    rw [htext]
    exact ⟨rfl, rfl⟩
  · obtain ⟨m', htext, hfields⟩ := toString_of_textCoherent hm hc
    rw [htext]
    exact ⟨rfl, hfields⟩

/-- The call with a client throws when the text is too large, and sends it otherwise. -/
lemma sendMessage_eq {s : Sender} (hs : s.client = true) {msg : Message}
    (hm : msg.TextCoherent S) (hc : msg.command ≠ []) (secret : Str) (answer : ℤ) :
    let data := (withSecret msg.toFields secret).text S
    (sendMessage S s msg secret answer).result =
        (if data.length > s.kind.maxSize then
          .error (.message ⟨.invalidMessage, tooLargeText data.length⟩)
        else .ok ⟨data, answer == data.length⟩) ∧
      (sendMessage S s msg secret answer).msg.toFields = msg.toFields := by
  obtain ⟨hresult, hfields⟩ := encode_eq hm hc secret
  have hclient : ¬ s.client = false := by simp [hs]
  dsimp only
  rw [sendMessage, if_neg hclient, addParameter_replyTo]
  dsimp only
  rw [sendClient, hresult]
  dsimp only
  split_ifs with hlarge
  · exact ⟨rfl, hfields⟩
  · exact ⟨rfl, hfields⟩

/-- The address makes no difference exactly when it is already there. -/
lemma withSecret_eq_decorate_iff {s : Sender} {f : Fields} {secret : Str} :
    withSecret f secret = decorate s f secret ↔ f.parameters.find? replyTo = some s.address := by
  constructor
  · intro h
    have hfind := congrArg (fun f : Fields => f.parameters.find? replyTo) h
    have hname : secretCode ≠ replyTo := by decide
    have hsecret (f : Fields) :
        (withSecret f secret).parameters.find? replyTo = f.parameters.find? replyTo := by
      rw [withSecret]
      split_ifs
      · exact (SortedMap.find?_insert _ _ _ _).trans (if_neg hname)
      · rfl
    rw [decorate] at hfind
    simpa only [hsecret, SortedMap.find?_insert_self] using hfind
  · intro h
    rw [decorate, SortedMap.insert_eq_self_iff.mpr h]

/-! ### What a datagram carries -/

section Client

variable {s : Sender} {msg : Message} {secret : Str} {answer : ℤ}

/-- A call that throws is right exactly when the text with the address is too large. -/
lemma carries_iff_of_large (hs : s.client = true) (hm : msg.TextCoherent S) (hc : msg.command ≠ [])
    (hlarge : s.kind.maxSize < ((withSecret msg.toFields secret).text S).length) :
    Carries S J s msg secret answer ↔
      s.kind.maxSize < ((decorate s msg.toFields secret).text S).length := by
  obtain ⟨hresult, hunchanged⟩ := sendMessage_eq hs hm hc secret answer
  rw [if_pos hlarge] at hresult
  constructor
  · exact fun h => h.throws.mp ⟨_, hresult⟩
  · intro hdecorated
    refine ⟨fun r hr => ?_, iff_of_true ⟨_, hresult⟩ hdecorated, hunchanged⟩
    rw [hresult] at hr
    cases hr

/-- A datagram that is sent is right exactly when the address makes no difference. -/
lemma carries_iff_of_sent (hs : s.client = true) (hm : msg.TextCoherent S)
    (hround : RoundTrips S J (withSecret msg.toFields secret))
    (hsmall : ¬ s.kind.maxSize < ((withSecret msg.toFields secret).text S).length) :
    Carries S J s msg secret answer ↔
      withSecret msg.toFields secret = decorate s msg.toFields secret := by
  obtain ⟨hc, m, hdecodes, hfields⟩ := hround
  rw [command_withSecret] at hc
  obtain ⟨hresult, hunchanged⟩ := sendMessage_eq hs hm hc secret answer
  rw [if_neg hsmall] at hresult
  constructor
  · intro h
    obtain ⟨⟨m', hdecodes', hfields'⟩, -⟩ := h.sent _ hresult
    rw [hdecodes, Prod.mk.injEq] at hdecodes'
    rw [← hdecodes'.2, hfields] at hfields'
    exact hfields'
  · intro heq
    refine ⟨fun r hr => ?_, iff_of_false ?_ (heq ▸ hsmall), hunchanged⟩
    · rw [hresult] at hr
      cases hr
      exact ⟨⟨m, hdecodes, hfields.trans heq⟩, Nat.le_of_not_lt hsmall⟩
    · rintro ⟨e, he⟩
      rw [hresult] at he
      cases he

end Client

/-- **A datagram carries what was asked** exactly when the message has the address to reply to
already, or when it is too large with it and without it.  A connection that was not made with a
client throws what it says. -/
theorem carries_iff (S : Snapdev) (J : JsonTokens) (s : Sender) (msg : Message) (secret : Str)
    (answer : ℤ) (hm : msg.TextCoherent S)
    (hround : RoundTrips S J (withSecret msg.toFields secret)) :
    (s.client = true → (Carries S J s msg secret answer ↔
      msg.parameters.find? replyTo = some s.address ∨
        (s.kind.maxSize < ((withSecret msg.toFields secret).text S).length ∧
          s.kind.maxSize < ((decorate s msg.toFields secret).text S).length))) ∧
    (s.client = false → sendMessage S s msg secret answer =
      ⟨.error (.initializationMissing noClientText), msg⟩) := by
  have hc : msg.command ≠ [] := command_withSecret msg.toFields secret ▸ hround.1
  refine ⟨fun hs => ?_, fun hs => by rw [sendMessage, if_pos hs]⟩
  rw [← @withSecret_eq_decorate_iff s msg.toFields secret]
  by_cases hlarge : s.kind.maxSize < ((withSecret msg.toFields secret).text S).length
  · rw [carries_iff_of_large hs hm hc hlarge]
    constructor
    · exact fun h => Or.inr ⟨hlarge, h⟩
    · rintro (heq | h)
      · rwa [← heq]
      · exact h.2
  · rw [carries_iff_of_sent hs hm hround hlarge]
    exact ⟨Or.inl, fun h => h.resolve_right fun h => hlarge h.1⟩

/-- A message that has the address. -/
theorem carries_replied :
    Carries .standard .standard ⟨.udpServer, ['a'], true⟩ (.oneParameter [] ['G'] replyTo ['a']) []
      12 :=
  ((carries_iff .standard .standard ⟨.udpServer, ['a'], true⟩
    (.oneParameter [] ['G'] replyTo ['a']) [] 12 (Or.inl rfl)
    ⟨by decide, _, Prod.ext (by decide) rfl, by decide⟩).1 rfl).mpr (Or.inl (by decide))

/-- A message that does not: the address is lost. -/
theorem not_carries :
    ¬ ∀ (S : Snapdev) (J : JsonTokens) (s : Sender) (msg : Message) (secret : Str) (answer : ℤ),
      s.client = true → msg.TextCoherent S → RoundTrips S J (withSecret msg.toFields secret) →
      RoundTrips S J (decorate s msg.toFields secret) → Carries S J s msg secret answer := by
  intro h
  have hround : RoundTrips .standard .standard { command := ['G'] } :=
    ⟨by decide, _, Prod.ext (by decide) rfl, by decide⟩
  have hdecorated : RoundTrips .standard .standard
      { command := ['G'], parameters := (∅ : SortedMap Str Str).insert replyTo ['a'] } :=
    ⟨by decide, _, Prod.ext (by decide) rfl, by decide⟩
  have hcarries := h .standard .standard ⟨.udpServer, ['a'], true⟩ { command := ['G'] } [] 1 rfl
    (Or.inl rfl) hround hdecorated
  have hresult :
      (sendMessage .standard ⟨.udpServer, ['a'], true⟩ { command := ['G'] } [] 1).result =
        .ok ⟨['G'], true⟩ := by decide
  obtain ⟨⟨m, hdecodes, hfields⟩, -⟩ := hcarries.sent _ hresult
  have hread : (({} : Message).fromMessage .standard .standard ['G']).2.parameters = ∅ := by decide
  rw [hdecodes, show m.parameters = (decorate _ _ _).parameters from congrArg _ hfields] at hread
  exact absurd hread (by decide)

end EventDispatcher.Datagram
