import EventDispatcher.Message.Accept
import EventDispatcher.Lib.Run

/-!
# The servers that receive datagrams

`process_read()` of the two classes reads datagrams into a buffer until there is none left, and
dispatches the messages that have the secret code.  What does not fit in the buffer is cut off by
`recv()`, and the function does not know: the UDP server, whose buffer is smaller than a datagram
can be, dispatches what the first bytes say.  That is the only way in which it differs from what it
is for (`dispatched_iff`).
-/

namespace EventDispatcher.Datagram

open Lib

/-- The classes. -/
inductive DatagramClass where
  /-- `udp_server_message_connection` -/
  | udpServer
  /-- `local_dgram_server_message_connection` -/
  | localDgramServer
deriving DecidableEq, Repr

/-- `DATAGRAM_MAX_SIZE` -/
def DatagramClass.maxSize : DatagramClass → ℕ
  | udpServer => 1024
  | localDgramServer => 64 * 1024

/-- A datagram. -/
structure Packet where
  /-- Its bytes. -/
  data : Str
  /-- It is not longer than a UDP datagram can be. -/
  length_le : data.length ≤ 65507
deriving DecidableEq

/-- A connection, and its socket. -/
structure Receiver where
  /-- The datagrams that can be received. -/
  queue : List Packet := []
  /-- The messages that were passed to `dispatch_message()`, in order. -/
  dispatched : List Message := []
  /-- All the datagrams that came. -/
  arrived : List Packet := []
deriving DecidableEq

/-- The name of the parameter. -/
def secretCode : Str := "secret_code".toList

/-- The check of the secret code.  The name of the parameter is valid, so `has_parameter()` and
`get_parameter()` return. -/
def acceptsSecret (expected : Str) (msg : Message) : Bool :=
  match msg.parameters.find? secretCode with
  | some secret => if secret ≠ expected then expected.isEmpty else true
  | none => expected.isEmpty

variable (S : Snapdev) (J : JsonTokens) (k : DatagramClass) (expected : Str)

/-- The loop.  An empty datagram ends it, and so does a message without the secret code. -/
def readLoop (dispatched : List Message) : List Packet → List Message × List Packet
  | [] => (dispatched, [])
  | d :: queue =>
    let buf := d.data.take k.maxSize
    if buf = [] then (dispatched, queue)
    else
      let r := ({} : Message).fromMessage S J buf
      if r.1 then
        if acceptsSecret expected r.2 then readLoop (dispatched ++ [r.2]) queue
        else (dispatched, queue)
      else readLoop dispatched queue

/-- `process_read()` -/
def processRead (s : Receiver) : Receiver :=
  let r := readLoop S J k expected s.dispatched s.queue
  { s with dispatched := r.1, queue := r.2 }

/-- What can happen. -/
inductive Action where
  /-- A datagram comes. -/
  | arrive (d : Packet)
  /-- `process_read()` is called. -/
  | processRead
deriving DecidableEq

/-- One action. -/
def step (s : Receiver) : Action → Receiver
  | .arrive d => { s with queue := s.queue ++ [d], arrived := s.arrived ++ [d] }
  | .processRead => Datagram.processRead S J k expected s

/-- The message has the secret code, when there is one. -/
def Authentic (msg : Message) : Prop :=
  expected ≠ [] → msg.parameters.find? secretCode = some expected

instance (msg : Message) : Decidable (Authentic expected msg) :=
  inferInstanceAs (Decidable (_ → _))

/-- The message of a text, when it is accepted and has the secret code. -/
def decoding (text : Str) : Option Message :=
  let r := ({} : Message).fromMessage S J text
  if r.1 = true ∧ Authentic expected r.2 then some r.2 else none

/-- The message that is to be dispatched for a datagram: the one of the whole datagram, when it is
not oversized. -/
def whole (d : Packet) : Option Message :=
  if d.data.length ≤ k.maxSize then decoding S J expected d.data else none

/-- The message that the first bytes of a datagram say, all that `recv()` gives of it. -/
def received (d : Packet) : Option Message := decoding S J expected (d.data.take k.maxSize)

variable {S J k expected}

/-! ### One call -/

lemma acceptsSecret_iff {msg : Message} :
    acceptsSecret expected msg = true ↔ Authentic expected msg := by
  rw [acceptsSecret, Authentic]
  cases hsecret : msg.parameters.find? secretCode with
  | none => simp
  | some secret =>
    simp only [ne_eq, ite_not, Option.some.injEq]
    split_ifs with heq
    · simp [heq]
    · simp [heq]

lemma fromMessage_nil (m : Message) : m.fromMessage S J [] = (false, m) := by
  have htrim : S.trimString [] = [] := by
    rw [S.trimString_eq]
    simp
  rw [Message.fromMessage, htrim]
  exact if_pos rfl

lemma decoding_nil : decoding S J expected [] = none := by
  rw [decoding, fromMessage_nil]
  exact if_neg fun h => absurd h.1 (by decide)

/-- **One call** takes some datagrams, at least one when there is one, and dispatches what their
first bytes say. -/
lemma readLoop_spec (dispatched : List Message) (queue : List Packet) :
    ∃ taken, queue = taken ++ (readLoop S J k expected dispatched queue).2 ∧
      (readLoop S J k expected dispatched queue).1 = dispatched ++
        taken.filterMap (received S J k expected) ∧
      (queue ≠ [] → taken ≠ []) := by
  induction queue generalizing dispatched with
  | nil => exact ⟨[], rfl, by simp [readLoop], fun h => absurd rfl h⟩
  | cons d queue ih =>
    rw [readLoop]
    by_cases hempty : d.data.take k.maxSize = []
    · rw [if_pos hempty]
      exact ⟨[d], rfl, by simp [received, hempty, decoding_nil], by simp⟩
    · rw [if_neg hempty]
      dsimp only
      split_ifs with haccepted hsecret
      · obtain ⟨taken, hqueue, hdispatched, -⟩ := ih (dispatched ++
          [(({} : Message).fromMessage S J (d.data.take k.maxSize)).2])
        have hdecoding : received S J k expected d =
            some (({} : Message).fromMessage S J (d.data.take k.maxSize)).2 :=
          if_pos ⟨haccepted, acceptsSecret_iff.mp hsecret⟩
        refine ⟨d :: taken, congrArg (d :: ·) hqueue, ?_, by simp⟩
        rw [hdispatched, List.filterMap_cons, hdecoding, List.append_assoc, List.singleton_append]
      · have hdecoding : received S J k expected d = none :=
          if_neg fun h => hsecret (acceptsSecret_iff.mpr h.2)
        exact ⟨[d], rfl, by simp [hdecoding], by simp⟩
      · obtain ⟨taken, hqueue, hdispatched, -⟩ := ih dispatched
        have hdecoding : received S J k expected d = none :=
          if_neg fun h => haccepted h.1
        refine ⟨d :: taken, congrArg (d :: ·) hqueue, ?_, by simp⟩
        rw [hdispatched, List.filterMap_cons, hdecoding]

/-! ### A run -/

/-- What was dispatched, with what the queue will give, is what came. -/
def Accounts (S : Snapdev) (J : JsonTokens) (k : DatagramClass) (expected : Str) (s : Receiver) :
    Prop :=
  s.dispatched ++ s.queue.filterMap (received S J k expected) =
    s.arrived.filterMap (received S J k expected)

/-- Each action keeps the account. -/
lemma Accounts.step {s : Receiver} (h : Accounts S J k expected s) (a : Action) :
    Accounts S J k expected (step S J k expected s a) := by
  unfold Accounts at h
  cases a with
  | arrive d =>
    change s.dispatched ++ (s.queue ++ [d]).filterMap _ = (s.arrived ++ [d]).filterMap _
    rw [List.filterMap_append, List.filterMap_append, ← List.append_assoc, h]
  | processRead =>
    obtain ⟨taken, hqueue, hdispatched, -⟩ :=
      @readLoop_spec S J k expected s.dispatched s.queue
    change (readLoop S J k expected s.dispatched s.queue).1 ++
      (readLoop S J k expected s.dispatched s.queue).2.filterMap _ = s.arrived.filterMap _
    rw [hdispatched, List.append_assoc, ← List.filterMap_append, ← hqueue, h]

/-- The socket is drained by calling the function again. -/
lemma drained (s : Receiver) :
    ∃ n, (runFrom (step S J k expected) s (List.replicate n .processRead)).queue = [] := by
  induction hlength : s.queue.length using Nat.strong_induction_on generalizing s with
  | _ len ih =>
    by_cases hempty : s.queue = []
    · exact ⟨0, hempty⟩
    · obtain ⟨taken, hqueue, -, hsome⟩ :=
        @readLoop_spec S J k expected s.dispatched s.queue
      have hpos : 0 < taken.length := List.length_pos_iff.mpr (hsome hempty)
      have hlen := congrArg List.length hqueue
      rw [List.length_append] at hlen
      obtain ⟨n, hn⟩ := ih (readLoop S J k expected s.dispatched s.queue).2.length (by omega)
        (step S J k expected s .processRead) rfl
      exact ⟨n + 1, hn⟩

/-- One datagram is taken by one call. -/
lemma drained_of_one (d : Packet) :
    (runFrom (step S J k expected) {} [.arrive d, .processRead]).queue = [] := by
  obtain ⟨taken, htaken, -, hsome⟩ :=
    @readLoop_spec S J k expected [] [d]
  have hpos := List.length_pos_iff.mpr (hsome (by simp))
  have hlength := congrArg List.length htaken
  rw [List.length_append, List.length_singleton] at hlength
  have hrest : (readLoop S J k expected [] [d]).2.length = 0 := by omega
  exact List.length_eq_zero_iff.mp hrest

/-- A selection that keeps what it has from another one is not longer. -/
lemma length_filterMap_le {α β : Type*} {f g : α → Option β} {l : List α}
    (h : ∀ a ∈ l, g a = f a ∨ g a = none) :
    (l.filterMap g).length ≤ (l.filterMap f).length := by
  induction l with
  | nil => simp
  | cons a l ih =>
    have hrest := ih fun b hb => h b (List.mem_cons_of_mem _ hb)
    rw [List.filterMap_cons, List.filterMap_cons]
    rcases h a List.mem_cons_self with ha | ha
    · rw [ha]
      cases f a with
      | none => exact hrest
      | some b => simpa using hrest
    · rw [ha]
      cases f a with
      | none => exact hrest
      | some b => exact hrest.trans (by simp)

/-- It is the same only when the two agree on each element. -/
lemma filterMap_eq_filterMap_iff {α β : Type*} {f g : α → Option β} {l : List α}
    (h : ∀ a ∈ l, g a = f a ∨ g a = none) :
    l.filterMap f = l.filterMap g ↔ ∀ a ∈ l, f a = g a := by
  constructor
  · intro heq
    induction l with
    | nil => simp
    | cons a l ih =>
      have htail : ∀ b ∈ l, g b = f b ∨ g b = none := fun b hb => h b (List.mem_cons_of_mem _ hb)
      rw [List.filterMap_cons, List.filterMap_cons] at heq
      have ha : f a = g a ∧ l.filterMap f = l.filterMap g := by
        rcases h a List.mem_cons_self with ha | ha
        · rw [ha] at heq ⊢
          cases hfa : f a with
          | none => simpa [hfa] using heq
          | some b => simpa [hfa] using heq
        · rw [ha] at heq ⊢
          cases hfa : f a with
          | none => simpa [hfa] using heq
          | some b =>
            -- the left side has one more element than the right can have
            have hlength := length_filterMap_le htail
            rw [hfa] at heq
            have hcons := congrArg List.length heq
            simp only [List.length_cons] at hcons
            omega
      intro b hb
      rcases List.mem_cons.mp hb with rfl | hb
      · exact ha.1
      · exact ih htail ha.2 b hb
  · exact fun h => List.filterMap_congr h

lemma whole_eq_received {d : Packet} (h : d.data.length ≤ k.maxSize) :
    whole S J k expected d = received S J k expected d := by
  rw [whole, if_pos h, received, List.take_of_length_le h]

lemma whole_of_oversized {d : Packet} (h : k.maxSize < d.data.length) :
    whole S J k expected d = none :=
  if_neg (by omega)

/-- No datagram is oversized for `local_dgram_server_message_connection`. -/
lemma length_le_maxSize (d : Packet) : d.data.length ≤ DatagramClass.localDgramServer.maxSize :=
  d.length_le.trans (by decide)

/-- What was dispatched when the socket is drained is what it is for exactly when the first bytes of
each oversized datagram are refused. -/
lemma Accounts.exact_iff {s : Receiver} (h : Accounts S J k expected s) (hqueue : s.queue = []) :
    s.dispatched = s.arrived.filterMap (whole S J k expected) ↔
      ∀ d ∈ s.arrived, k.maxSize < d.data.length → received S J k expected d = none := by
  rw [Accounts, hqueue, List.filterMap_nil, List.append_nil] at h
  have hcases (d : Packet) : whole S J k expected d = received S J k expected d ∨
      whole S J k expected d = none := by
    rcases Nat.lt_or_ge k.maxSize d.data.length with hlt | hle
    · exact Or.inr (whole_of_oversized hlt)
    · exact Or.inl (whole_eq_received hle)
  rw [h, filterMap_eq_filterMap_iff fun d _ => hcases d]
  constructor
  · intro hall d hd hlt
    rw [hall d hd, whole_of_oversized hlt]
  · intro hrefused d hd
    rcases Nat.lt_or_ge k.maxSize d.data.length with hlt | hle
    · rw [hrefused d hd hlt, whole_of_oversized hlt]
    · exact (whole_eq_received hle).symm

/-- A run keeps the account. -/
lemma accounts_runFrom (actions : List Action) :
    Accounts S J k expected (runFrom (step S J k expected) {} actions) := by
  have hstart : Accounts S J k expected {} := rfl
  have hstep : ∀ s a, Accounts S J k expected s →
      Accounts S J k expected (step S J k expected s a) := fun _ a h => h.step a
  exact invariant_of_runFrom hstep hstart actions

/-- **Only what is authentic is dispatched, and all of it**, once the socket is drained, exactly
when the first bytes of each oversized datagram are refused; and calling the function again drains
the socket. -/
theorem dispatched_iff (S : Snapdev) (J : JsonTokens) (k : DatagramClass) (expected : Str)
    (actions : List Action) :
    let s := runFrom (step S J k expected) {} actions
    (s.queue = [] → (s.dispatched = s.arrived.filterMap (whole S J k expected) ↔
      ∀ d ∈ s.arrived, k.maxSize < d.data.length → received S J k expected d = none)) ∧
    ∃ n, (runFrom (step S J k expected) s (List.replicate n .processRead)).queue = [] :=
  ⟨(accounts_runFrom actions).exact_iff, drained _⟩

/-- `local_dgram_server_message_connection` always dispatches what it is for. -/
theorem dispatched_of_localDgramServer (S : Snapdev) (J : JsonTokens) (expected : Str)
    (actions : List Action)
    (hqueue : (runFrom (step S J .localDgramServer expected) {} actions).queue = []) :
    let s := runFrom (step S J .localDgramServer expected) {} actions
    s.dispatched = s.arrived.filterMap (whole S J .localDgramServer expected) :=
  ((accounts_runFrom actions).exact_iff hqueue).mpr fun d _ hlt =>
    absurd (length_le_maxSize d) (by omega)

/-! ### A parameter that is cut off -/

/-- The message `G p=xx…`. -/
def longMessage (n : ℕ) : Message := .oneParameter [] ['G'] ['p'] (List.replicate n 'x')

lemma needsQuotes_replicate (n : ℕ) : needsQuotes (List.replicate n 'x') = false := by
  cases n <;> simp [needsQuotes, List.replicate_succ]

lemma text_longMessage (n : ℕ) :
    (longMessage n).text S = 'G' :: ' ' :: 'p' :: '=' :: List.replicate n 'x' := by
  have hcode : (List.replicate n 'x').flatMap textCode = List.replicate n 'x' := by
    induction n with
    | zero => rfl
    | succ n ih => rw [List.replicate_succ, List.flatMap_cons, ih]; rfl
  have hvalue : valueText S (List.replicate n 'x') = List.replicate n 'x' := by
    rw [valueText_eq, needsQuotes_replicate, if_neg (by decide), hcode]
  change 'G' :: ' ' :: ('p' :: '=' :: (valueText S (List.replicate n 'x') ++ [])) = _
  rw [hvalue, List.append_nil]

lemma getLast?_replicate {s : Str} {n : ℕ} {c : Char}
    (h : (s ++ List.replicate (n + 1) 'x').getLast? = some c) : c = 'x' := by
  rw [List.replicate_succ', ← List.append_assoc, List.getLast?_concat] at h
  exact (Option.some.inj h).symm

/-- The text is accepted, whatever the length of the value. -/
lemma parseMessage_longMessage (n : ℕ) :
    parseMessage S J ('G' :: ' ' :: 'p' :: '=' :: List.replicate (n + 1) 'x') =
      some (longMessage (n + 1)).toFields := by
  have htrim := S.trimString_append_blank (b := [])
    (s := 'G' :: ' ' :: 'p' :: '=' :: List.replicate (n + 1) 'x') (by simp)
    (fun c hc => Option.some.inj hc ▸ S.not_blank_of_graphic 'G' (by decide) (by decide))
    (fun c hc => getLast?_replicate (s := ['G', ' ', 'p', '=']) hc ▸
      S.not_blank_of_graphic 'x' (by decide) (by decide)) (by simp)
  rw [List.append_nil] at htrim
  have hbuilt : Message.Built S (longMessage (n + 1)) :=
    Message.built_oneParameter (by decide) (by decide) (by decide)
  have hentry {p : Str × Str} (hp : p ∈ (longMessage (n + 1)).parameters.entries) :
      p = (['p'], List.replicate (n + 1) 'x') := List.mem_singleton.mp hp
  have hsafe : TextSafe S (longMessage (n + 1)).toFields := by
    constructor
    · intro p hp hquotes
      rw [hentry hp, needsQuotes_replicate] at hquotes
      cases hquotes
    · intro p hp _ c hc hblank
      rw [hentry (List.mem_of_getLast? hp)] at hc
      rw [getLast?_replicate (s := []) hc, S.not_blank_of_graphic 'x' (by decide) (by decide)]
        at hblank
      cases hblank
  have hread : parseString S ((longMessage (n + 1)).text S) =
      some (longMessage (n + 1)).toFields := by
    refine (parseString_text_eq_some_iff hbuilt.wellFormed.validNames (List.cons_ne_nil _ _)
      (fun h => absurd rfl h) fun p hp hnul => ?_).mpr hsafe
    rw [hentry hp] at hnul
    exact absurd (List.eq_of_mem_replicate hnul) (by decide)
  rw [text_longMessage] at hread
  rw [parseMessage, htrim]
  exact hread

/-- A UDP datagram with a value of 1021 bytes. -/
def cutDatagram : Packet where
  data := 'G' :: ' ' :: 'p' :: '=' :: List.replicate 1021 'x'
  length_le := by simp only [List.length_cons, List.length_replicate]; decide

lemma received_cutDatagram : received S J .udpServer [] cutDatagram ≠ none := by
  have htake : cutDatagram.data.take DatagramClass.udpServer.maxSize =
      'G' :: ' ' :: 'p' :: '=' :: List.replicate (1019 + 1) 'x' := by
    change 'G' :: ' ' :: 'p' :: '=' :: (List.replicate 1021 'x').take 1020 = _
    rw [List.take_replicate]
    rfl
  rw [received, htake, decoding, fromMessage_eq, parseMessage_longMessage]
  simp [Authentic]

/-- What fits in the buffer is dispatched. -/
theorem not_dispatched :
    ¬ ∀ (S : Snapdev) (J : JsonTokens) (k : DatagramClass) (expected : Str)
      (actions : List Action),
      (runFrom (step S J k expected) {} actions).queue = [] →
      (runFrom (step S J k expected) {} actions).dispatched =
        (runFrom (step S J k expected) {} actions).arrived.filterMap (whole S J k expected) := by
  intro h
  have hqueue := @drained_of_one .standard .standard .udpServer [] cutDatagram
  refine received_cutDatagram (((accounts_runFrom _).exact_iff hqueue).mp
    (h .standard .standard .udpServer [] _ hqueue) cutDatagram (List.mem_singleton_self _) ?_)
  simp only [cutDatagram, List.length_cons, List.length_replicate]
  decide

end EventDispatcher.Datagram
