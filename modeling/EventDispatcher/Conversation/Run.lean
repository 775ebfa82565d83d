import EventDispatcher.Conversation.Matches

/-!
# Conversations

Two messengers are connected, each with its program, and the messages of each arrive in order at the
other one or are lost.  Whatever the users send, and in whatever order messages arrive and matches
come and go, an answer answers a message that arrived, in order and once (`replies_runFrom`), and
the answers of the system never feed each other: at most three messages come of one that a user
sends (`bounded_runFrom`).
-/

namespace EventDispatcher.Conversation

open Lib

variable {V : Type}

/-- One of the two messengers. -/
inductive Side where
  | near
  | far
deriving DecidableEq, Repr

/-- The other messenger. -/
def Side.other : Side → Side
  | near => far
  | far => near

/-- A messenger with its dispatcher. -/
structure Peer (V : Type) where
  /-- The dispatcher. -/
  dispatcher : Dispatcher
  /-- The definitions, and the connection. -/
  world : World (Messenger V)

namespace Peer

/-- The messages that were sent. -/
def sent (s : Peer V) : List Sent := s.world.user.sent

/-- The connection changes. -/
def mapMessenger (s : Peer V) (f : Messenger V → Messenger V) : Peer V :=
  { s with world := { s.world with user := f s.world.user } }

/-- `dispatch_message()` at the time `now`: what the dispatcher does not take is for
`process_message()`.  The result is false when an exception leaves it. -/
def dispatchMessage (p : Program V) (now : Str) (msg : Message) (s : Peer V) : Peer V × Bool :=
  let w := { s.world with user := { s.world.user with now } }
  let (d, e) := s.dispatcher.dispatch p.P (p.code s.dispatcher) msg w
  match e.result with
  | .ok false =>
    let r := (p.U.processMessage e.message e.world).toResult e.world
    ({ dispatcher := d, world := r.world p.P e.world }, r.result.isOk)
  | .ok true => ({ dispatcher := d, world := e.world }, true)
  | .error _ => ({ dispatcher := d, world := e.world }, false)

/-- `send_commands()` without a message. -/
def sendCommands (p : Program V) (s : Peer V) : Peer V :=
  { s with world := (p.sendCommands s.dispatcher none s.world).world p.P s.world }

end Peer

/-- What can happen at a messenger besides the arrival of messages. -/
inductive PeerAction (V : Type) where
  /-- The user sends a message. -/
  | send (message : Message)
  /-- `register_service()` -/
  | registerService
  /-- `unregister_service()` -/
  | unregisterService
  /-- `send_commands()` without a message. -/
  | sendCommands
  /-- The user changes its data. -/
  | setUser (user : V)
  /-- A call on the definitions. -/
  | call (c : EnvironmentCall)
  /-- `dispatcher::add_matches()` -/
  | addMatches (l : List DispatcherMatch)
  /-- `dispatcher::remove_matches()` -/
  | removeMatches (tag : ℕ)

/-- The matches that the user adds call functions of the user. -/
def PeerAction.IsUser : PeerAction V → Prop
  | addMatches l => ∀ m ∈ l, Conversation.IsUser m
  | _ => True

/-- The messenger after something happened. -/
def Peer.perform (p : Program V) (s : Peer V) : PeerAction V → Peer V
  | .send message => s.mapMessenger fun m => (m.sendMessage message .user).2
  | .registerService => s.mapMessenger fun m => m.registerService.2
  | .unregisterService => s.mapMessenger fun m =>
    match m.unregisterService with
    | none => m
    | some (_, m) => m
  | .sendCommands => s.sendCommands p
  | .setUser user => s.mapMessenger fun m => { m with user }
  | .call call => { s with world := { s.world with env := s.world.env.call p.P call } }
  | .addMatches l => { s with dispatcher := (s.dispatcher.addMatches l).2 }
  | .removeMatches tag => { s with dispatcher := s.dispatcher.removeMatches tag }

/-- Two messengers that are connected. -/
structure Exchange (V : Type) where
  /-- The messengers. -/
  peer : Side → Peer V
  /-- How many messages of the other messenger arrived or were lost. -/
  received : Side → ℕ := fun _ => 0

/-- What can happen, in any order. -/
inductive Action (V : Type) where
  /-- The next message arrives. -/
  | deliver (side : Side) (now : Str)
  /-- The next message is lost, or its text is not accepted. -/
  | lose (side : Side)
  /-- The connection is lost, or made again. -/
  | setConnected (side : Side) (connected : Bool)
  /-- Something else happens at a messenger. -/
  | act (side : Side) (a : PeerAction V)

/-- The matches that the user adds call functions of the user. -/
def Action.IsUser : Action V → Prop
  | act _ a => a.IsUser
  | _ => True

namespace Exchange

/-- The messages to a messenger that are on the way. -/
def inFlight (c : Exchange V) (side : Side) : List Sent :=
  (c.peer side.other).sent.drop (c.received side)

/-- One of the messengers changes. -/
def setPeer (c : Exchange V) (side : Side) (s : Peer V) : Exchange V :=
  { c with peer := Function.update c.peer side s }

/-- One more message arrived, or was lost. -/
def take (c : Exchange V) (side : Side) : Exchange V :=
  { c with received := Function.update c.received side (c.received side + 1) }

/-- One action, with the programs of the two messengers. -/
def step (p : Side → Program V) (c : Exchange V) : Action V → Exchange V
  | .deliver side now =>
    match c.inFlight side with
    | [] => c
    -- the receiver builds a new message from the text; an exception ends the action
    | s :: _ => (c.take side).setPeer side
        ((c.peer side).dispatchMessage (p side) now { toFields := s.message.toFields }).1
  | .lose side =>
    match c.inFlight side with
    | [] => c
    | _ :: _ => c.take side
  | .setConnected side connected =>
    c.setPeer side ((c.peer side).mapMessenger fun m => { m with connected })
  | .act side a => c.setPeer side ((c.peer side).perform (p side) a)

/-- How many messages were sent. -/
def sent (c : Exchange V) : ℕ := (c.peer .near).sent.length + (c.peer .far).sent.length

/-- How many of them the users sent. -/
def initiated (c : Exchange V) : ℕ :=
  (c.peer .near).sent.countP (fun s => !s.isReply) +
    (c.peer .far).sent.countP (fun s => !s.isReply)

end Exchange

/-! ### How far one message can lead -/

/-- How many answers can come of a message, the answers to its answer included. -/
def chain (command : Str) : ℕ :=
  if command = "ALIVE".toList ∨ command = "HELP".toList then 2
  else if IsSystem command then 0
  else 1

lemma chain_le (command : Str) : chain command ≤ 2 := by
  rw [chain]
  split_ifs <;> omega

lemma command_addParameter {S : Snapdev} {m m' : Message} {name value : Str}
    (h : m.addParameter S name value = .ok m') : m'.command = m.command := by
  obtain ⟨-, rfl⟩ := Message.addParameter_eq_ok_iff.mp h
  rfl

lemma command_setCommand {S : Snapdev} {m m' : Message} {command : Str}
    (h : m.setCommand S command = .ok m') : m'.command = command := by
  obtain ⟨-, ⟨hcommand, rfl⟩ | ⟨-, rfl⟩⟩ := Message.setCommand_eq_ok_iff.mp h
  · exact hcommand
  · rfl

lemma command_copyParameter {S : Snapdev} {name : Str} {original m m' : Message}
    (h : copyParameter S name original m = .ok m') : m'.command = m.command := by
  rw [copyParameter] at h
  obtain ⟨has, -, h⟩ := exists_of_bind_eq_ok h
  cases has with
  | false =>
    cases h
    rfl
  | true =>
    obtain ⟨value, -, h⟩ := exists_of_bind_eq_ok h
    exact command_addParameter h

lemma command_absolutely {S : Snapdev} {now : Str} {msg m : Message}
    (h : absolutely S now msg = .ok m) : m.command = "ABSOLUTELY".toList := by
  rw [absolutely] at h
  obtain ⟨m₁, -, h⟩ := exists_of_bind_eq_ok h
  obtain ⟨m₂, hcommand, h⟩ := exists_of_bind_eq_ok h
  obtain ⟨m₃, hserial, h⟩ := exists_of_bind_eq_ok h
  obtain ⟨m₄, htimestamp, h⟩ := exists_of_bind_eq_ok h
  rw [command_addParameter h, command_copyParameter htimestamp, command_copyParameter hserial,
    command_setCommand hcommand]

lemma command_unknown {S : Snapdev} {msg m : Message} (h : unknown S msg = .ok m) :
    m.command = "UNKNOWN".toList := by
  rw [unknown] at h
  obtain ⟨m₁, -, h⟩ := exists_of_bind_eq_ok h
  obtain ⟨m₂, hcommand, h⟩ := exists_of_bind_eq_ok h
  rw [command_addParameter h, command_setCommand hcommand]

lemma command_commandsMessage {S : Snapdev} {J : JoinStrings} {commands : StringSet}
    {msg : Option Message} {m : Message} (h : commandsMessage S J commands msg = .ok m) :
    m.command = "COMMANDS".toList := by
  rw [commandsMessage] at h
  obtain ⟨m₁, -, h⟩ := exists_of_bind_eq_ok h
  obtain ⟨m₂, hcommand, h⟩ := exists_of_bind_eq_ok h
  rw [command_addParameter h, command_setCommand hcommand]

/-- **An answer leads less far than what it answers.** -/
lemma Reply.chain_lt {p : Program V} {f : Fields} {commands : StringSet} {m : Message}
    (h : Reply p f commands m) : chain m.command < chain f.command := by
  cases h with
  | absolutely now hcommand h =>
    rw [command_absolutely h, hcommand]
    decide
  | commands list hcommand hlist h =>
    rw [command_commandsMessage h, hcommand]
    decide
  | unknown hsystem hcommands h =>
    have hone : chain f.command = 1 := by
      rw [chain, if_neg, if_neg hsystem]
      rintro (h | h) <;> exact hsystem (h ▸ by decide)
    rw [command_unknown h, hone]
    decide

/-! ### The invariant -/

/-- The original of an answer. -/
def Sent.original? (s : Sent) : Option Fields :=
  match s.origin with
  | .user => none
  | .reply original _ => some original

/-- How many answers can come of some messages. -/
def pending (l : List Sent) : ℕ := (l.map fun s => chain s.message.command).sum

lemma pending_append (l l' : List Sent) : pending (l ++ l') = pending l + pending l' := by
  rw [pending, List.map_append, List.sum_append]
  rfl

lemma pending_le (l : List Sent) : pending l ≤ 2 * l.length := by
  induction l with
  | nil => exact le_rfl
  | cons s l ih =>
    have := chain_le s.message.command
    rw [pending, List.map_cons, List.sum_cons, List.length_cons]
    rw [pending] at ih
    omega

lemma Side.other_other (side : Side) : side.other.other = side := by cases side <;> rfl

lemma Side.eq_or_eq_other (side side' : Side) : side' = side ∨ side' = side.other := by
  cases side <;> cases side' <;> simp [Side.other]

lemma Side.other_ne (side : Side) : side.other ≠ side := by cases side <;> simp [Side.other]

namespace Exchange

variable {c : Exchange V} {side : Side}

@[simp] lemma peer_setPeer_self (c : Exchange V) (side : Side) (s : Peer V) :
    (c.setPeer side s).peer side = s := Function.update_self ..

@[simp] lemma peer_setPeer_other (c : Exchange V) (side : Side) (s : Peer V) :
    (c.setPeer side s).peer side.other = c.peer side.other :=
  Function.update_of_ne side.other_ne ..

@[simp] lemma received_setPeer (c : Exchange V) (side : Side) (s : Peer V) :
    (c.setPeer side s).received = c.received := rfl

@[simp] lemma peer_take (c : Exchange V) (side : Side) : (c.take side).peer = c.peer := rfl

@[simp] lemma received_take_self (c : Exchange V) (side : Side) :
    (c.take side).received side = c.received side + 1 := Function.update_self ..

@[simp] lemma received_take_other (c : Exchange V) (side : Side) :
    (c.take side).received side.other = c.received side.other :=
  Function.update_of_ne side.other_ne ..

lemma sent_eq (c : Exchange V) (side : Side) :
    c.sent = (c.peer side).sent.length + (c.peer side.other).sent.length := by
  cases side
  · rfl
  · exact Nat.add_comm _ _

lemma initiated_eq (c : Exchange V) (side : Side) :
    c.initiated = (c.peer side).sent.countP (fun s => !s.isReply) +
      (c.peer side.other).sent.countP (fun s => !s.isReply) := by
  cases side
  · rfl
  · exact Nat.add_comm _ _

/-- How many answers can come of the messages on the way. -/
def expected (c : Exchange V) : ℕ := pending (c.inFlight .near) + pending (c.inFlight .far)

lemma expected_eq (c : Exchange V) (side : Side) :
    c.expected = pending (c.inFlight side) + pending (c.inFlight side.other) := by
  cases side
  · rfl
  · exact Nat.add_comm _ _

/-- The invariant of a conversation. -/
structure Sound (K : Fields → Fields → Prop) (p : Side → Program V) (c : Exchange V) : Prop where
  /-- The dispatchers have their system matches. -/
  serves : ∀ side, Serves (c.peer side).dispatcher
  /-- What arrived was sent. -/
  received : ∀ side, c.received side ≤ (c.peer side.other).sent.length
  /-- What was sent, and what can still come of it. -/
  bounded : c.sent + c.expected ≤ 3 * c.initiated
  /-- The answers. -/
  replies : ∀ side, ∀ s ∈ (c.peer side).sent, ∀ f commands, s.origin = .reply f commands →
    Reply (p side) f commands s.message
  /-- They answer messages that arrived, in order and once. -/
  inOrder : ∀ side, List.SublistForall₂ (fun f' f => K f f')
    ((c.peer side).sent.filterMap Sent.original?)
    (((c.peer side.other).sent.take (c.received side)).map fun s => s.message.toFields)

namespace Sound

variable {K : Fields → Fields → Prop} {p : Side → Program V}

/-- A messenger changes, and its user sends messages. -/
lemma setPeer (h : c.Sound K p) {s : Peer V} (hserves : Serves s.dispatcher)
    (hsends : UserSends (c.peer side).world.user s.world.user) : (c.setPeer side s).Sound K p := by
  obtain ⟨new, hnew, husers⟩ := hsends
  change s.sent = (c.peer side).sent ++ new at hnew
  have hcount : new.countP (fun s => !s.isReply) = new.length :=
    List.countP_eq_length.mpr fun s hs => by rw [husers s hs]; rfl
  have horiginal : new.filterMap Sent.original? = [] := by
    rw [List.filterMap_eq_nil_iff]
    intro s hs
    have := husers s hs
    rw [Sent.isReply] at this
    rw [Sent.original?]
    cases horigin : s.origin with
    | user => rfl
    | reply original commands =>
      rw [horigin] at this
      cases this
  have hle := h.received side.other
  rw [side.other_other] at hle
  refine ⟨fun side' => ?_, fun side' => ?_, ?_, fun side' s' hs' f commands horigin => ?_,
    fun side' => ?_⟩
  · rcases side.eq_or_eq_other side' with rfl | rfl
    · rwa [peer_setPeer_self]
    · rw [peer_setPeer_other]
      exact h.serves _
  · rcases side.eq_or_eq_other side' with rfl | rfl
    · rw [peer_setPeer_other, received_setPeer]
      exact h.received _
    · rw [side.other_other, peer_setPeer_self, received_setPeer, hnew, List.length_append]
      omega
  · have hbounded := h.bounded
    have hpending := pending_le new
    rw [sent_eq _ side, expected_eq _ side, initiated_eq _ side] at hbounded ⊢
    have hflight : (c.setPeer side s).inFlight side = c.inFlight side := by
      rw [inFlight, peer_setPeer_other, received_setPeer]
      rfl
    have hflight' : (c.setPeer side s).inFlight side.other = c.inFlight side.other ++ new := by
      rw [inFlight, inFlight, side.other_other, peer_setPeer_self, received_setPeer, hnew,
        List.drop_append_of_le_length hle]
    rw [hflight, hflight', pending_append, peer_setPeer_self, peer_setPeer_other, hnew,
      List.length_append, List.countP_append, hcount]
    omega
  · rcases side.eq_or_eq_other side' with rfl | rfl
    · rw [peer_setPeer_self, hnew] at hs'
      rcases List.mem_append.mp hs' with hs' | hs'
      · exact h.replies _ s' hs' f commands horigin
      · have := husers s' hs'
        rw [Sent.isReply, horigin] at this
        cases this
    · rw [peer_setPeer_other] at hs'
      exact h.replies _ s' hs' f commands horigin
  · rcases side.eq_or_eq_other side' with rfl | rfl
    · rw [peer_setPeer_self, peer_setPeer_other, received_setPeer, hnew, List.filterMap_append,
        horiginal, List.append_nil]
      exact h.inOrder _
    · have hin := h.inOrder side.other
      rw [side.other_other] at hin ⊢
      rw [peer_setPeer_self, peer_setPeer_other, received_setPeer, hnew,
        List.take_append_of_le_length hle]
      exact hin

/-- The next message on the way. -/
lemma next (h : c.inFlight side ≠ []) : ∃ s, c.inFlight side = s :: (c.take side).inFlight side ∧
    (c.peer side.other).sent.take (c.received side + 1) =
      (c.peer side.other).sent.take (c.received side) ++ [s] ∧
    c.received side < (c.peer side.other).sent.length := by
  rw [inFlight] at h
  have hlt : c.received side < (c.peer side.other).sent.length := by
    by_contra hge
    exact h (List.drop_eq_nil_of_le (not_lt.mp hge))
  refine ⟨(c.peer side.other).sent[c.received side], ?_, ?_, hlt⟩
  · rw [inFlight, inFlight, received_take_self, peer_take]
    exact List.drop_eq_getElem_cons hlt
  · exact List.take_append_getElem hlt |>.symm

/-- A message is lost, or is not answered. -/
lemma take (h : c.Sound K p) (hflight : c.inFlight side ≠ []) : (c.take side).Sound K p := by
  obtain ⟨s, hs, htake, hlt⟩ := next hflight
  refine ⟨h.serves, fun side' => ?_, ?_, h.replies, fun side' => ?_⟩
  · rcases side.eq_or_eq_other side' with rfl | rfl
    · rw [received_take_self]
      exact hlt
    · rw [received_take_other]
      exact h.received _
  · have hbounded := h.bounded
    rw [expected_eq _ side] at hbounded ⊢
    have hother : (c.take side).inFlight side.other = c.inFlight side.other := by
      rw [inFlight, received_take_other]
      rfl
    have hpending : pending (c.inFlight side) =
        chain s.message.command + pending ((c.take side).inFlight side) := by
      rw [hs, pending, List.map_cons, List.sum_cons]
      rfl
    have hsent : (c.take side).sent = c.sent := rfl
    have hinitiated : (c.take side).initiated = c.initiated := rfl
    rw [hother, hsent, hinitiated]
    omega
  · rcases side.eq_or_eq_other side' with rfl | rfl
    · rw [received_take_self, peer_take, htake, List.map_append]
      obtain ⟨l, hl, hsub⟩ := List.sublistForall₂_iff.mp (h.inOrder _)
      exact List.sublistForall₂_iff.mpr ⟨l, hl, hsub.trans (List.sublist_append_left _ _)⟩
    · rw [received_take_other]
      exact h.inOrder _

/-- A message is answered. -/
lemma reply (h : c.Sound K p) (hK : Keeping K) {s : Peer V} {m : Message} {f : Fields}
    {commands : StringSet} (hflight : c.inFlight side ≠ [])
    (hf : ∀ s ∈ (c.inFlight side).head?, K s.message.toFields f)
    (hserves : Serves s.dispatcher) (hreply : Reply (p side) f commands m)
    (hsent : s.sent = (c.peer side).sent ++ [⟨m, .reply f commands⟩]) :
    ((c.take side).setPeer side s).Sound K p := by
  obtain ⟨s', hs', htake, hlt⟩ := next hflight
  have hkept : K s'.message.toFields f := hf s' (by rw [hs']; rfl)
  have htaken := h.take hflight
  have hle := h.received side.other
  rw [side.other_other] at hle
  refine ⟨fun side' => ?_, fun side' => ?_, ?_, fun side' t ht f commands horigin => ?_,
    fun side' => ?_⟩
  · rcases side.eq_or_eq_other side' with rfl | rfl
    · rwa [peer_setPeer_self]
    · rw [peer_setPeer_other]
      exact h.serves _
  · rcases side.eq_or_eq_other side' with rfl | rfl
    · rw [peer_setPeer_other, received_setPeer]
      exact htaken.received _
    · rw [side.other_other, peer_setPeer_self, received_setPeer, received_take_other, hsent,
        List.length_append]
      omega
  · have hbounded := h.bounded
    have hchain := hreply.chain_lt
    rw [hK.command hkept] at hchain
    rw [sent_eq _ side, expected_eq _ side, initiated_eq _ side] at hbounded ⊢
    have hflight : ((c.take side).setPeer side s).inFlight side = (c.take side).inFlight side := by
      rw [inFlight, peer_setPeer_other, received_setPeer]
      rfl
    have hflight' : ((c.take side).setPeer side s).inFlight side.other =
        c.inFlight side.other ++ [⟨m, .reply f commands⟩] := by
      rw [inFlight, inFlight, side.other_other, peer_setPeer_self, received_setPeer,
        received_take_other, hsent, List.drop_append_of_le_length hle]
    have hpending : pending (c.inFlight side) =
        chain s'.message.command + pending ((c.take side).inFlight side) := by
      rw [hs', pending, List.map_cons, List.sum_cons]
      rfl
    have hsingle : pending [⟨m, .reply f commands⟩] = chain m.command := by
      simp [pending]
    have hcount : [(⟨m, .reply f commands⟩ : Sent)].countP
        (fun s => !s.isReply) = 0 := rfl
    rw [hflight, hflight', pending_append, hsingle, peer_setPeer_self, peer_setPeer_other, hsent,
      List.length_append, List.countP_append, hcount, peer_take, List.length_singleton]
    omega
  · rcases side.eq_or_eq_other side' with rfl | rfl
    · rw [peer_setPeer_self, hsent] at ht
      rcases List.mem_append.mp ht with ht | ht
      · exact h.replies _ t ht f commands horigin
      · rw [List.mem_singleton.mp ht] at horigin ⊢
        cases horigin
        exact hreply
    · rw [peer_setPeer_other] at ht
      exact h.replies _ t ht f commands horigin
  · rcases side.eq_or_eq_other side' with rfl | rfl
    · rw [peer_setPeer_self, peer_setPeer_other, received_setPeer, received_take_self, peer_take,
        htake, hsent, List.filterMap_append, List.map_append]
      obtain ⟨l, hl, hsub⟩ := List.sublistForall₂_iff.mp (h.inOrder _)
      exact List.sublistForall₂_iff.mpr ⟨l ++ [s'.message.toFields],
        List.rel_append hl (.cons hkept .nil), hsub.append (List.Sublist.refl _)⟩
    · have hin := h.inOrder side.other
      rw [side.other_other] at hin ⊢
      rw [peer_setPeer_self, peer_setPeer_other, received_setPeer, received_take_other, hsent,
        List.take_append_of_le_length hle, peer_take]
      exact hin

/-- A message arrives, and is answered once at most. -/
lemma deliver (h : c.Sound K p) (hK : Keeping K) {s : Peer V} {t : Sent} {rest : List Sent}
    {d : Dispatcher} (hflight : c.inFlight side = t :: rest) (hserves : Serves s.dispatcher)
    (hsends : Answered K (p side) d t.message.toFields True (c.peer side).world.user s.world.user) :
    ((c.take side).setPeer side s).Sound K p := by
  have hne : c.inFlight side ≠ [] := by
    rw [hflight]
    exact List.cons_ne_nil _ _
  rcases hsends with husers | ⟨-, f, before, m, hf, husers, hreply, hsent⟩
  · exact (h.take hne).setPeer hserves husers
  · -- the user sends first, and the answer follows
    have hbefore : (c.setPeer side { s with world := { s.world with user := before } }).Sound K p :=
      h.setPeer hserves husers
    have hflight' : (c.setPeer side { s with world := { s.world with user := before } }).inFlight
        side = c.inFlight side := by
      rw [inFlight, peer_setPeer_other, received_setPeer]
      rfl
    have hreplied := hbefore.reply hK (s := s) (hflight' ▸ hne)
      (fun s' hs' => by
        rw [hflight', hflight] at hs'
        obtain rfl : t = s' := Option.some.inj hs'
        exact hf) hserves hreply (by rw [peer_setPeer_self]; exact hsent)
    have hsame : ((c.setPeer side { s with world := { s.world with user := before } }).take
        side).setPeer side s = (c.take side).setPeer side s := by
      rw [Exchange.setPeer, Exchange.setPeer, Exchange.setPeer]
      simp only [Exchange.take, Function.update_idem]
    rwa [hsame] at hreplied

end Sound

end Exchange

/-! ### The steps -/

/-- **One message is answered once at most.** -/
lemma Peer.answered_dispatchMessage {K : Fields → Fields → Prop} (hK : Keeping K) {p : Program V}
    (hkeeps : p.U.Keeps K) {s : Peer V}
    (hserves : Serves s.dispatcher) (now : Str) (msg : Message) :
    Answered K p s.dispatcher msg.toFields True s.world.user
        (s.dispatchMessage p now msg).1.world.user ∧
      Serves (s.dispatchMessage p now msg).1.dispatcher := by
  obtain ⟨w, hw⟩ : ∃ w : World (Messenger V),
      w = { s.world with user := { s.world.user with now } } := ⟨_, rfl⟩
  have hstart : UserSends s.world.user w.user := by
    rw [hw]
    exact (UserSends.refl s.world.user).of_sent_eq rfl
  have hsends := answered_dispatch hK hkeeps hserves msg w
  have hafter := hserves.dispatch p.P (p.code s.dispatcher) msg w
  rw [Peer.dispatchMessage]
  dsimp only
  rw [← hw]
  rcases hdispatch : s.dispatcher.dispatch p.P (p.code s.dispatcher) msg w with ⟨d, e⟩
  rw [hdispatch] at hsends hafter
  split
  · rename_i hresult
    have husers := hsends.userSends fun h => h hresult
    exact ⟨Or.inl ((hstart.trans husers).trans (userSends_toResult _ e.world)), hafter⟩
  all_goals exact ⟨(hsends.of_userSends hstart).mono fun _ => trivial, hafter⟩

lemma Peer.userSends_sendCommands (p : Program V) (s : Peer V) :
    UserSends s.world.user (s.sendCommands p).world.user := by
  have husers := p.userSends_findCommands s.dispatcher s.world
  change UserSends s.world.user (p.sendCommands s.dispatcher none s.world).user
  rw [Program.sendCommands, if_neg (by simp)]
  simp only
  split
  · exact husers
  · rename_i list _
    by_cases hkeys : list.keys = []
    · rw [if_pos hkeys]
      exact husers
    · rw [if_neg hkeys]
      cases hm : commandsMessage p.P.S p.J list none with
      | error e => exact husers
      | ok m => exact husers.trans (userSends_sendMessage _ m)

/-- What happens besides the arrival of messages is the work of the user. -/
lemma Peer.serves_perform (p : Program V) {s : Peer V} (hserves : Serves s.dispatcher)
    {a : PeerAction V} (ha : a.IsUser) :
    Serves (s.perform p a).dispatcher ∧ UserSends s.world.user (s.perform p a).world.user := by
  cases a with
  | send message => exact ⟨hserves, userSends_sendMessage _ message⟩
  | registerService => exact ⟨hserves, userSends_sendMessage _ _⟩
  | unregisterService =>
    refine ⟨hserves, ?_⟩
    rw [Peer.perform, Peer.mapMessenger, Messenger.unregisterService]
    cases s.world.user.getServiceName true with
    | none => exact .refl _
    | some name => exact userSends_sendMessage _ _
  | sendCommands => exact ⟨hserves, Peer.userSends_sendCommands _ _⟩
  | setUser user => exact ⟨hserves, (UserSends.refl _).of_sent_eq rfl⟩
  | call call => exact ⟨hserves, .refl _⟩
  | addMatches l => exact ⟨hserves.addMatches fun m hm => (ha m hm).isAllowed, .refl _⟩
  | removeMatches tag => exact ⟨hserves.removeMatches tag, .refl _⟩

namespace Exchange

variable {c : Exchange V} {K : Fields → Fields → Prop} {p : Side → Program V}

/-- **One action keeps the invariant.** -/
lemma Sound.step (h : c.Sound K p) (hK : Keeping K) (hkeeps : ∀ side, (p side).U.Keeps K)
    {a : Action V} (ha : a.IsUser) : (c.step p a).Sound K p := by
  cases a with
  | deliver side now =>
    rw [Exchange.step]
    split
    · exact h
    · rename_i t rest hflight
      obtain ⟨hsends, hserves⟩ := Peer.answered_dispatchMessage hK (hkeeps side) (h.serves side) now
        { toFields := t.message.toFields }
      exact h.deliver hK hflight hserves hsends
  | lose side =>
    rw [Exchange.step]
    split
    · exact h
    · rename_i hflight
      exact h.take (by simp [hflight])
  | setConnected side connected =>
    exact h.setPeer (h.serves side) ((UserSends.refl _).of_sent_eq rfl)
  | act side a =>
    obtain ⟨hserves, hsends⟩ := Peer.serves_perform (p side) (h.serves side) ha
    exact h.setPeer hserves hsends

/-- Nothing was sent yet, and the dispatchers have their system matches. -/
structure Starts (c : Exchange V) : Prop where
  /-- The dispatchers. -/
  serves : ∀ side, Serves (c.peer side).dispatcher
  /-- No message. -/
  sent : ∀ side, (c.peer side).sent = []
  /-- None arrived. -/
  received : ∀ side, c.received side = 0

lemma Starts.sound (h : c.Starts) : c.Sound K p where
  serves := h.serves
  received side := by rw [h.received]; exact Nat.zero_le _
  bounded := by
    simp [Exchange.sent, expected, inFlight, h.sent, pending]
  replies side s hs := by
    rw [h.sent] at hs
    cases hs
  inOrder side := by
    rw [h.sent]
    exact .nil

lemma Starts.sound_runFrom (h : c.Starts) (hK : Keeping K) (hkeeps : ∀ side, (p side).U.Keeps K)
    {actions : List (Action V)} (hactions : ∀ a ∈ actions, a.IsUser) :
    (runFrom (step p) c actions).Sound K p := by
  have hstep : ∀ (c : Exchange V) (a : Action V), c.Sound K p → a.IsUser →
      (step p c a).Sound K p := fun _ _ hc ha => hc.step hK hkeeps ha
  exact (invariant_of_visited hstep h.sound
    fun q hq => hactions q.2 (mem_of_mem_visited hq)).2

/-- **No storm of answers.**  Whatever happens in whatever order, no more messages arrive than are
sent, and no more than three times as many are sent as the users send. -/
theorem bounded_runFrom (h : c.Starts) (hK : Keeping K) (hkeeps : ∀ side, (p side).U.Keeps K)
    {actions : List (Action V)} (hactions : ∀ a ∈ actions, a.IsUser) :
    let c' := runFrom (step p) c actions
    c'.received .near + c'.received .far ≤ c'.sent ∧ c'.sent ≤ 3 * c'.initiated := by
  have hsound := h.sound_runFrom hK hkeeps hactions
  refine ⟨?_, le_trans (Nat.le_add_right _ _) hsound.bounded⟩
  rw [sent_eq _ .near, Nat.add_comm]
  exact Nat.add_le_add (hsound.received .far) (hsound.received .near)

/-- A program whose user does nothing. -/
def quiet : Program Unit where
  P := .standard
  J := ⟨fun l separator => separator.intercalate l, fun _ _ => rfl⟩
  U :=
    { matchFunc := fun _ _ message _ => { result := .ok .matchFalse, user := (), message }
      callback := fun _ message _ => { result := .ok (), user := (), message }
      help := fun commands _ => { result := .ok commands, user := () }
      ready := fun message _ => { result := .ok (), user := (), message }
      restart := fun message _ => { result := .ok (), user := (), message }
      stop := fun _ _ => { result := .ok (), user := () }
      processMessage := fun message _ => { result := .ok (), user := (), message } }

/-- Two messengers with the system matches and a catch-all, before anything happens. -/
def idle : Exchange Unit where
  peer _ :=
    { dispatcher := (Dispatcher.addCommunicatorCommands bound {} true).2
      world := { env := { paths := ['/'] }, user := { user := () } } }

lemma keeping_eq : Keeping fun f f' => f' = f :=
  ⟨fun _ => rfl, fun h h' => h'.trans h, fun h => congrArg Fields.command h⟩

lemma keeps_quiet : quiet.U.Keeps fun f f' => f' = f :=
  ⟨fun _ _ _ _ => ⟨rfl, id⟩, fun _ _ _ => ⟨rfl, id⟩⟩

lemma starts_idle : idle.Starts :=
  ⟨fun _ => (plain_new false).serves true, fun _ => rfl, fun _ => rfl⟩

/-- `ALIVE` is answered with `ABSOLUTELY`, and that with `UNKNOWN`. -/
theorem bounded_runFrom_alive :
    let c' := runFrom (step fun _ => quiet) idle
      [.act .near (.send { command := "ALIVE".toList }), .deliver .far ['1'], .deliver .near ['2'],
        .deliver .far ['3'], .deliver .near ['4']]
    c'.received .near + c'.received .far ≤ c'.sent ∧ c'.sent ≤ 3 * c'.initiated :=
  bounded_runFrom starts_idle keeping_eq (fun _ => keeps_quiet) (by
    intro a ha
    simp only [List.mem_cons, List.not_mem_nil, or_false] at ha
    rcases ha with rfl | rfl | rfl | rfl | rfl <;> trivial)

/-- **Every answer has its message.**  In every run, each message that a messenger sends by itself
answers one that arrived from the other end, as the functions of the user left it, in the order of
their arrival and at most once: `ALIVE`, `HELP`, or one whose command is neither of the system nor
told by `get_commands()`. -/
theorem replies_runFrom (h : c.Starts) (hK : Keeping K) (hkeeps : ∀ side, (p side).U.Keeps K)
    {actions : List (Action V)} (hactions : ∀ a ∈ actions, a.IsUser) (side : Side) :
    let c' := runFrom (step p) c actions
    (∀ s ∈ (c'.peer side).sent, ∀ f commands, s.origin = .reply f commands →
        Reply (p side) f commands s.message) ∧
      List.SublistForall₂ (fun f' f => K f f') ((c'.peer side).sent.filterMap Sent.original?)
        (((c'.peer side.other).sent.take (c'.received side)).map fun s => s.message.toFields) :=
  have hsound := h.sound_runFrom hK hkeeps hactions
  ⟨hsound.replies side, hsound.inOrder side⟩

/-- A message that only the catch-all takes. -/
theorem replies_runFrom_unknown :
    let c' := runFrom (step fun _ => quiet) idle
      [.act .near (.send { command := ['G', 'O'] }), .deliver .far ['1'], .deliver .near ['2']]
    (∀ s ∈ (c'.peer .far).sent, ∀ f commands, s.origin = .reply f commands →
        Reply quiet f commands s.message) ∧
      List.SublistForall₂ (fun f' f => f' = f) ((c'.peer .far).sent.filterMap Sent.original?)
        (((c'.peer .near).sent.take (c'.received .far)).map fun s => s.message.toFields) :=
  replies_runFrom starts_idle keeping_eq (fun _ => keeps_quiet) (by
    intro a ha
    simp only [List.mem_cons, List.not_mem_nil, or_false] at ha
    rcases ha with rfl | rfl | rfl <;> trivial) .far

end Exchange

end EventDispatcher.Conversation
