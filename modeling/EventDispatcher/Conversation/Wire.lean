import EventDispatcher.Conversation.Run
import EventDispatcher.Link.Delivery

/-!
# Conversations over a link

Here the messages of two messengers are bytes: `send_message()` writes them to the output buffer of
the connection, the kernel takes and gives what it likes, and `process_read()` dispatches the
message of each line it completes, whose answers go to the other output buffer.  A run of the two
ends is a run of their conversation in which no message is lost (`exchange_runFrom`), as long as no
exception leaves `dispatch_message()`: a message is delivered at the `process_read()` that completes
its line.
-/

namespace EventDispatcher.Conversation

open Lib Buffer

variable {V : Type}

/-! ### What a messenger keeps -/

/-- A messenger keeps what it sent, and stays connected. -/
structure Grows (c c' : Messenger V) : Prop where
  /-- The messages. -/
  sent : c.sent <+: c'.sent
  /-- Whether it can send. -/
  connected : c'.connected = c.connected

namespace Grows

variable {c c₁ c' : Messenger V}

lemma refl (c : Messenger V) : Grows c c := ⟨List.prefix_rfl, rfl⟩

lemma trans (h : Grows c c₁) (h' : Grows c₁ c') : Grows c c' :=
  ⟨h.sent.trans h'.sent, h'.connected.trans h.connected⟩

/-- Nothing else of the messenger plays a role. -/
lemma of_eq (h : Grows c c₁) (hsent : c'.sent = c₁.sent)
    (hconnected : c'.connected = c₁.connected) : Grows c c' :=
  ⟨hsent ▸ h.sent, hconnected.trans h.connected⟩

lemma sendMessage (c : Messenger V) (message : Message) (origin : Origin) :
    Grows c (c.sendMessage message origin).2 := by
  rw [Messenger.sendMessage]
  split_ifs
  · exact ⟨List.prefix_append _ _, rfl⟩
  · exact .refl c

lemma messenger {α : Type} (r : UserRun V α) (c : Messenger V) : Grows c (r.messenger c) := by
  have hall : ∀ (messages : List Message) (c : Messenger V), Grows c (c.sendAll messages) := by
    intro messages
    induction messages with
    | nil => exact refl
    | cons message messages ih => exact fun c => (sendMessage c message .user).trans (ih _)
  exact (hall r.sends c).of_eq rfl rfl

lemma sends (origin : Origin) (msg : Message) (c : Messenger V) (calls : List EnvironmentCall)
    (r : Except Exception Message) : Grows c (Program.sends origin msg c calls r).user := by
  cases r with
  | error e => exact .refl c
  | ok m => exact .sendMessage c m origin

lemma sendCommands (p : Program V) (d : Dispatcher) (msg : Option Message)
    (w : World (Messenger V)) : Grows w.user (p.sendCommands d msg w).user := by
  have hfind : Grows w.user ((p.findCommands d w).messenger w.user) := .messenger _ _
  rw [Program.sendCommands]
  dsimp only
  split_ifs
  · exact .refl w.user
  all_goals
    split
    · exact hfind
    · split_ifs
      · exact hfind
      · exact hfind.trans (.sends ..)

lemma run (p : Program V) (d : Dispatcher) (msg : Message) (w : World (Messenger V))
    (f : SystemFunction) : Grows w.user (p.run d msg w f).user := by
  cases f with
  | msgAlive => exact .sends ..
  | msgReplyWithUnknown => exact .sends ..
  | msgHelp => exact .sendCommands ..
  | msgQuitting => exact .messenger ..
  | msgStop => exact .messenger ..
  | msgRestart => exact .messenger ..
  | msgReady =>
    rw [Program.run, Program.msgReady]
    dsimp only
    split
    · exact .refl w.user
    · rename_i myAddress _
      have hstart : Grows w.user { w.user with myAddress } := (Grows.refl _).of_eq rfl rfl
      have hready := hstart.trans (.messenger
        (p.U.ready msg { w with user := { w.user with myAddress } }).toUserRun _)
      split
      · exact hready
      · exact hready.of_eq rfl rfl
  | _ => exact .refl w.user

lemma moves (p : Program V) (d : Dispatcher) : (p.code d).Moves Grows where
  refl := refl
  trans := trans
  matchFunc id m msg w := messenger _ _
  callback id msg w := by
    rw [Program.code]
    dsimp only
    split
    · exact .run ..
    · exact .messenger _ _

end Grows

lemma Peer.grows_dispatchMessage (p : Program V) (now : Str) (msg : Message) (s : Peer V) :
    Grows s.world.user (s.dispatchMessage p now msg).1.world.user := by
  have hstart : Grows s.world.user { s.world.user with now } := (Grows.refl _).of_eq rfl rfl
  have hdispatch := (Grows.moves p s.dispatcher).dispatch (P := p.P) s.dispatcher msg
    { s.world with user := { s.world.user with now } }
  rw [Peer.dispatchMessage]
  dsimp only
  split
  · exact (hstart.trans hdispatch).trans (.messenger _ _)
  all_goals exact hstart.trans hdispatch

lemma Peer.grows_perform (p : Program V) (s : Peer V) (a : PeerAction V) :
    Grows s.world.user (s.perform p a).world.user := by
  cases a with
  | send message => exact .sendMessage ..
  | registerService => exact .sendMessage ..
  | unregisterService =>
    rw [Peer.perform, Peer.mapMessenger, Messenger.unregisterService]
    cases s.world.user.getServiceName true with
    | none => exact .refl _
    | some name => exact .sendMessage ..
  | sendCommands => exact .sendCommands ..
  | setUser user => exact (Grows.refl _).of_eq rfl rfl
  | call c => exact .refl _
  | addMatches l => exact .refl _
  | removeMatches tag => exact .refl _

/-! ### The two ends of a link -/

/-- Two messengers, and the directions of the link between them. -/
structure Wire (V : Type) where
  /-- The messengers. -/
  peer : Side → Peer V
  /-- The direction on which a messenger sends. -/
  link : Side → Link.Direction

/-- What can happen, in any order. -/
inductive WireAction (V : Type) where
  /-- `process_read()`, with the time at each line, and what the low level `write()` does with each
  message that is sent at each line. -/
  | processRead (side : Side) (socket : Socket) (date : Int64) (processingTimeLimit : Int32)
    (arrivals : List Link.Arrival) (now : ℕ → Str) (writes : ℕ → ℕ → WriteResult)
  /-- `process_write()` -/
  | processWrite (side : Side) (w : WriteResult)
  /-- Something happens at a messenger, with what the low level `write()` does with each message
  that is sent. -/
  | act (side : Side) (a : PeerAction V) (writes : ℕ → WriteResult)

/-- The calls of `send_message()` for some messages. -/
def sendCalls (writes : ℕ → WriteResult) (l : List Sent) : List Link.SendCall :=
  l.mapIdx fun i t => .sendMessage t.message (writes i) []

namespace Wire

variable (S : Snapdev) (J : JsonTokens) (p : Side → Program V) (k : Side → Link.OutputClass)

/-- The direction on which a messenger sends changes. -/
def setLink (s : Wire V) (side : Side) (l : Link.Direction) : Wire V :=
  { s with link := Function.update s.link side l }

/-- A messenger changes, and the messages that it sends are written. -/
def change (s : Wire V) (side : Side) (t : Peer V) (writes : ℕ → WriteResult) : Wire V where
  peer := Function.update s.peer side t
  link := Function.update s.link side ((s.link side).sends
    (Link.performAll S (k side) (s.link side).sender
      (sendCalls writes (t.sent.drop (s.peer side).sent.length))))

/-- `process_line()`; an exception of `dispatch_message()` leaves it. -/
def processLine (s : Wire V) (side : Side) (line now : Str) (writes : ℕ → WriteResult) :
    Wire V × Bool :=
  match Link.processLine S J line with
  | none => (s, true)
  | some msg =>
    let (t, returns) := (s.peer side).dispatchMessage (p side) now msg
    (s.change S k side t writes, returns)

/-- `process_line()` while an end reads, which keeps the lines of the call. -/
def readLine (side : Side) (now : ℕ → Str) (writes : ℕ → ℕ → WriteResult) :
    ProcessLine (Wire V × List Str) := fun line (s, lines) =>
  let (s, returns) := s.processLine S J p k side line (now lines.length) (writes lines.length)
  ((s, lines ++ [line]), returns)

/-- `process_read()` of an end. -/
def read (s : Wire V) (side : Side) (socket : Socket) (date : Int64) (processingTimeLimit : Int32)
    (arrivals : List Link.Arrival) (now : ℕ → Str) (writes : ℕ → ℕ → WriteResult) :
    ReadRun (Wire V × List Str) :=
  let l := s.link side.other
  (k side).bufferClass.readCall (readLine S J p k side now writes)
    { line := l.input.line, object := (s, []), errors := l.input.errors }
    (l.readCall socket date processingTimeLimit arrivals)

/-- One action. -/
def step (s : Wire V) : WireAction V → Wire V
  | .processRead side socket date processingTimeLimit arrivals now writes =>
    let l := s.link side.other
    let r := s.read S J p k side socket date processingTimeLimit arrivals now writes
    let (s, lines) := r.input.object
    s.setLink side.other (l.reads (l.readCall socket date processingTimeLimit arrivals) r.unused
      { r.input with object := l.input.processed ++ lines })
  | .processWrite side w =>
    s.setLink side ((s.link side).step S (k side) (k side.other).bufferClass
      (.send (.processWrite w [])))
  | .act side a writes => s.change S k side ((s.peer side).perform (p side) a) writes

/-- An exception leaves `process_read()`. -/
def throws (s : Wire V) : WireAction V → Bool
  | .processRead side socket date processingTimeLimit arrivals now writes =>
    (s.read S J p k side socket date processingTimeLimit arrivals now writes).thrown
  | .processWrite .. | .act .. => false

/-- The conversation of the two ends: what arrived is what was read as lines. -/
def exchange (s : Wire V) : Exchange V where
  peer := s.peer
  received side := (s.link side.other).input.processed.length

/-- What an action is in the conversation. -/
def deliveries (s : Wire V) : WireAction V → List (Action V)
  | .processRead side socket date processingTimeLimit arrivals now writes =>
    (s.read S J p k side socket date processingTimeLimit arrivals now writes).input.object.2.mapIdx
      fun i _ => .deliver side (now i)
  | .processWrite .. => []
  | .act side a _ => [.act side a]

end Wire

/-- A message arrives as it is: it goes on one line, and can be read back. -/
structure Intact (S : Snapdev) (msg : Message) : Prop where
  /-- It has a command. -/
  command : msg.command ≠ []
  /-- The line. -/
  oneLine : Link.OneLine S msg
  /-- The values. -/
  readable : Link.Readable S msg

namespace Wire

variable {S : Snapdev} {J : JsonTokens} {p : Side → Program V} {k : Side → Link.OutputClass}

/-- The messages that were sent arrive as they are. -/
def AllIntact (S : Snapdev) (s : Wire V) : Prop :=
  ∀ side, ∀ t ∈ (s.peer side).sent, Intact S t.message

/-- The invariant: the messages of each direction are those that its messenger sent. -/
structure Sound (S : Snapdev) (k : Side → Link.OutputClass) (s : Wire V) : Prop where
  /-- The directions. -/
  link : ∀ side, (s.link side).Sound S
  /-- The messages. -/
  messages : ∀ side, (s.link side).sender.messages = (s.peer side).sent.map Sent.message
  /-- The sockets are open. -/
  accepts : ∀ side, (k side).accepts (s.link side).sender.connection.socket = true

end Wire

/-! ### Sending -/

section Sending

variable {S : Snapdev} {k : Link.OutputClass} {s : Link.Sender}

/-- A message that can be sent is accepted. -/
lemma perform_sendMessage (hsocket : k.accepts s.connection.socket = true) {msg : Message}
    (hmsg : Intact S msg) (w : WriteResult) :
    (Link.perform S k s (.sendMessage msg w [])).messages = s.messages ++ [msg] ∧
      (Link.perform S k s (.sendMessage msg w [])).connection.socket = s.connection.socket := by
  obtain ⟨text, m', htext⟩ : ∃ text m', msg.toString S = .ok (text, m') := by
    rw [Message.toString]
    split_ifs with hcached hcommand
    · exact absurd hcommand hmsg.command
    · exact ⟨_, _, rfl⟩
    · exact ⟨_, _, rfl⟩
  have hresult := k.result_write hsocket (Link.buf_ne_nil text) w
  have hsame := (k.frame_write s.connection (some (Link.buf text)) w).socket
  rw [Link.perform, htext]
  simp only [hresult, if_true]
  split_ifs
  · exact ⟨rfl, hsame⟩
  · exact ⟨rfl, hsame⟩

/-- **All the messages are accepted**, in order. -/
lemma performAll_sendCalls {l : List Sent} (hsocket : k.accepts s.connection.socket = true)
    (hl : ∀ t ∈ l, Intact S t.message) (writes : ℕ → WriteResult) :
    (Link.performAll S k s (sendCalls writes l)).messages = s.messages ++ l.map Sent.message ∧
      (Link.performAll S k s (sendCalls writes l)).connection.socket = s.connection.socket := by
  induction l generalizing s writes with
  | nil => exact ⟨(List.append_nil _).symm, rfl⟩
  | cons t l ih =>
    obtain ⟨hmessages, hsame⟩ :=
      perform_sendMessage hsocket (hl t List.mem_cons_self) (writes 0)
    obtain ⟨hall, hkept⟩ := ih (s := Link.perform S k s (.sendMessage t.message (writes 0) []))
      (hsame ▸ hsocket) (fun t ht => hl t (List.mem_cons_of_mem _ ht)) fun i => writes (i + 1)
    rw [sendCalls, List.mapIdx_cons, Link.performAll]
    refine ⟨hall.trans ?_, hkept.trans hsame⟩
    rw [hmessages, List.append_assoc]
    rfl

/-- No message is sent by `process_write()`. -/
lemma perform_processWrite (w : WriteResult) :
    (Link.perform S k s (.processWrite w [])).messages = s.messages ∧
      (Link.perform S k s (.processWrite w [])).connection.socket = s.connection.socket := by
  have hsame := (k.frame_processWrite s.connection w).socket
  rw [Link.perform]
  dsimp only
  split_ifs
  · exact ⟨rfl, hsame⟩
  · exact ⟨rfl, hsame⟩

lemma allOneLine_sendCalls {l : List Sent} (hl : ∀ t ∈ l, Intact S t.message)
    (writes : ℕ → WriteResult) : Link.SendCall.AllOneLine S (sendCalls writes l) := by
  induction l generalizing writes with
  | nil => trivial
  | cons t l ih =>
    rw [sendCalls, List.mapIdx_cons, Link.SendCall.AllOneLine, Link.SendCall.OneLine]
    exact ⟨⟨(hl t List.mem_cons_self).oneLine, trivial⟩,
      ih (fun t ht => hl t (List.mem_cons_of_mem _ ht)) fun i => writes (i + 1)⟩

end Sending

namespace Wire

variable {S : Snapdev} {J : JsonTokens} {p : Side → Program V} {k : Side → Link.OutputClass}
  {s : Wire V} {side : Side}

/-! ### One messenger changes -/

/-- The end that sends, after some messages were written. -/
def written (s : Wire V) (S : Snapdev) (k : Side → Link.OutputClass) (side : Side) (t : Peer V)
    (writes : ℕ → WriteResult) : Link.Sender :=
  Link.performAll S (k side) (s.link side).sender
    (sendCalls writes (t.sent.drop (s.peer side).sent.length))

@[simp] lemma peer_change_self (t : Peer V) (writes : ℕ → WriteResult) :
    (s.change S k side t writes).peer side = t := Function.update_self ..

@[simp] lemma peer_change_other (t : Peer V) (writes : ℕ → WriteResult) :
    (s.change S k side t writes).peer side.other = s.peer side.other :=
  Function.update_of_ne side.other_ne ..

@[simp] lemma link_change_self (t : Peer V) (writes : ℕ → WriteResult) :
    (s.change S k side t writes).link side = (s.link side).sends (s.written S k side t writes) :=
  Function.update_self ..

@[simp] lemma link_change_other (t : Peer V) (writes : ℕ → WriteResult) :
    (s.change S k side t writes).link side.other = s.link side.other :=
  Function.update_of_ne side.other_ne ..

lemma input_change (side' : Side) (t : Peer V) (writes : ℕ → WriteResult) :
    ((s.change S k side t writes).link side').input = (s.link side').input := by
  rcases side.eq_or_eq_other side' with rfl | rfl
  · rw [link_change_self]
    rfl
  · rw [link_change_other]

/-- What the messengers sent is kept. -/
def Extends (s s' : Wire V) : Prop := ∀ side, (s.peer side).sent <+: (s'.peer side).sent

lemma Extends.trans {s₁ s' : Wire V} (h : s.Extends s₁) (h' : s₁.Extends s') : s.Extends s' :=
  fun side => (h side).trans (h' side)

lemma AllIntact.of_extends {s' : Wire V} (h : s'.AllIntact S) (hs : s.Extends s') :
    s.AllIntact S := fun side t ht => h side t ((hs side).subset ht)

lemma extends_change {t : Peer V} (ht : Grows (s.peer side).world.user t.world.user)
    (writes : ℕ → WriteResult) : s.Extends (s.change S k side t writes) := by
  intro side'
  rcases side.eq_or_eq_other side' with rfl | rfl
  · rw [peer_change_self]
    exact ht.sent
  · rw [peer_change_other]

/-- **The messages of a change are written.** -/
lemma Sound.change (h : s.Sound S k) {t : Peer V}
    (ht : Grows (s.peer side).world.user t.world.user) (writes : ℕ → WriteResult)
    (hsends : (s.change S k side t writes).AllIntact S) :
    (s.change S k side t writes).Sound S k := by
  obtain ⟨new, hnew⟩ := ht.sent
  change (s.peer side).sent ++ new = t.sent at hnew
  have hreadable : ∀ m ∈ t.sent.drop (s.peer side).sent.length, Intact S m.message := by
    intro m hm
    refine hsends side m ?_
    rw [peer_change_self]
    exact List.mem_of_mem_drop hm
  obtain ⟨hmessages, hsocket⟩ :=
    performAll_sendCalls (s := (s.link side).sender) (h.accepts side) hreadable writes
  have hsender : (s.written S k side t writes).Sound S :=
    (h.link side).sender.performAll _ (allOneLine_sendCalls hreadable writes)
  have hsent : (s.link side).sender.connection.sent <+:
      (s.written S k side t writes).connection.sent := Link.sent_performAll _ _
  refine ⟨fun side' => ?_, fun side' => ?_, fun side' => ?_⟩
  all_goals
    rcases side.eq_or_eq_other side' with rfl | rfl
  · rw [link_change_self]
    exact (h.link side').sends hsender hsent
  · rw [link_change_other]
    exact h.link _
  · rw [link_change_self, peer_change_self]
    refine hmessages.trans ?_
    rw [h.messages, ← List.map_append, ← hnew, List.drop_left]
  · rw [link_change_other, peer_change_other]
    exact h.messages _
  · rw [link_change_self]
    exact (congrArg (k side').accepts hsocket).trans (h.accepts side')
  · rw [link_change_other]
    exact h.accepts _

/-! ### The lines of one `process_read()` -/

/-- The conversation when `n` lines were processed at one end. -/
def exchangeAt (s : Wire V) (side : Side) (n : ℕ) : Exchange V :=
  { s.exchange with received := Function.update s.exchange.received side n }

lemma exchangeAt_self (s : Wire V) (side : Side) :
    s.exchangeAt side (s.link side.other).input.processed.length = s.exchange := by
  have h : Function.update s.exchange.received side (s.exchange.received side) =
      s.exchange.received := Function.update_eq_self side _
  exact congrArg (Exchange.mk s.peer) h

lemma inFlight_exchangeAt (s : Wire V) (side : Side) (n : ℕ) :
    (s.exchangeAt side n).inFlight side = (s.peer side.other).sent.drop n := by
  have hn : (s.exchangeAt side n).received side = n := Function.update_self ..
  rw [Exchange.inFlight, hn]
  rfl

lemma take_exchangeAt (s : Wire V) (side : Side) (n : ℕ) :
    (s.exchangeAt side n).take side = s.exchangeAt side (n + 1) := by
  rw [Exchange.take, exchangeAt, exchangeAt]
  simp only [Function.update_self, Function.update_idem]

lemma exchange_change (t : Peer V) (writes : ℕ → WriteResult) :
    (s.change S k side t writes).exchange = s.exchange.setPeer side t := by
  have hreceived : (s.change S k side t writes).exchange.received = s.exchange.received :=
    funext fun side' => congrArg (fun i : Input (List Str) => i.processed.length)
      (input_change side'.other t writes)
  exact congrArg (Exchange.mk (Function.update s.peer side t)) hreceived

lemma exchangeAt_change (n : ℕ) (t : Peer V) (writes : ℕ → WriteResult) :
    (s.change S k side t writes).exchangeAt side n = (s.exchangeAt side n).setPeer side t := by
  rw [exchangeAt, exchange_change]
  rfl

/-- The line of a message that can be read. -/
lemma processLine_text {msg : Message} (hmsg : Intact S msg) (now : Str)
    (writes : ℕ → WriteResult) :
    (s.processLine S J p k side (msg.text S) now writes).1 =
      s.change S k side ((s.peer side).dispatchMessage (p side) now { toFields := msg.toFields }).1
        writes := by
  rw [processLine, Link.processLine_text J hmsg.oneLine.names hmsg.command hmsg.readable]

lemma extends_processLine (line now : Str) (writes : ℕ → WriteResult) :
    s.Extends (s.processLine S J p k side line now writes).1 := by
  rw [processLine]
  split
  · exact fun _ => List.prefix_rfl
  · exact extends_change (Peer.grows_dispatchMessage ..) writes

variable {now : ℕ → Str} {writes : ℕ → ℕ → WriteResult}

lemma extends_callAll (lines : List Str) (done : List Str) :
    s.Extends (callAll (readLine S J p k side now writes) lines (s, done)).1 := by
  induction lines generalizing s done with
  | nil => exact fun _ => List.prefix_rfl
  | cons line lines ih => exact (extends_processLine line _ _).trans (ih _)

/-- **The lines of a `process_read()` are deliveries**, when they are the texts of the next
messages. -/
lemma callAll_spec (h : s.Sound S k) {lines done : List Str} {n : ℕ}
    (hlines : lines <+: ((s.peer side.other).sent.drop n).map fun t => t.message.text S)
    (hsends : (callAll (readLine S J p k side now writes) lines (s, done)).1.AllIntact S) :
    let r := callAll (readLine S J p k side now writes) lines (s, done)
    r.2 = done ++ lines ∧ r.1.Sound S k ∧ r.1.link side.other = s.link side.other ∧
      r.1.exchangeAt side (n + lines.length) = runFrom (Exchange.step p) (s.exchangeAt side n)
        (lines.mapIdx fun i _ => Action.deliver side (now (done.length + i))) := by
  induction lines generalizing s n done with
  | nil => exact ⟨(List.append_nil _).symm, h, rfl, rfl⟩
  | cons line lines ih =>
    cases hflight : (s.peer side.other).sent.drop n with
    | nil =>
      rw [hflight] at hlines
      exact absurd hlines (by simp)
    | cons t rest =>
      rw [hflight, List.map_cons, List.cons_prefix_cons] at hlines
      obtain ⟨rfl, hlines⟩ := hlines
      have hmem : t ∈ (s.peer side.other).sent :=
        List.mem_of_mem_drop (hflight ▸ List.mem_cons_self)
      have hreadable : Intact S t.message :=
        hsends.of_extends (extends_callAll _ _) side.other t hmem
      obtain ⟨peer, hpeer⟩ : ∃ peer, peer = ((s.peer side).dispatchMessage (p side)
        (now done.length) { toFields := t.message.toFields }).1 := ⟨_, rfl⟩
      have hgrows : Grows (s.peer side).world.user peer.world.user :=
        hpeer ▸ Peer.grows_dispatchMessage ..
      have hline : (readLine S J p k side now writes (t.message.text S) (s, done)).1 =
          (s.change S k side peer (writes done.length), done ++ [t.message.text S]) :=
        Prod.ext ((processLine_text hreadable _ _).trans (by rw [hpeer])) rfl
      rw [callAll, List.foldl_cons, hline] at hsends ⊢
      have hsound : (s.change S k side peer (writes done.length)).Sound S k :=
        h.change hgrows _ (hsends.of_extends (extends_callAll _ _))
      have hdrop : ((s.change S k side peer (writes done.length)).peer side.other).sent.drop
          (n + 1) = rest := by
        rw [peer_change_other, ← List.drop_drop, hflight]
        rfl
      obtain ⟨hdone, hafter, hlink, hrun⟩ := ih hsound (n := n + 1) (hdrop.symm ▸ hlines) hsends
      refine ⟨hdone.trans (by simp), hafter, hlink.trans (link_change_other ..), ?_⟩
      have hstep : Exchange.step p (s.exchangeAt side n) (.deliver side (now done.length)) =
          (s.change S k side peer (writes done.length)).exchangeAt side (n + 1) := by
        rw [Exchange.step, inFlight_exchangeAt, hflight, exchangeAt_change, hpeer,
          ← take_exchangeAt]
        rfl
      have hlater : (fun i (_ : Str) => Action.deliver (V := V) side
          (now ((done ++ [t.message.text S]).length + i))) =
          fun i _ => Action.deliver side (now (done.length + (i + 1))) := by
        funext i _
        rw [List.length_append, List.length_singleton, Nat.add_assoc, Nat.add_comm 1]
      rw [hlater] at hrun
      rw [List.length_cons, Nat.add_comm lines.length, ← Nat.add_assoc, List.mapIdx_cons,
        runFrom, List.foldl_cons, Nat.add_zero done.length, hstep]
      exact hrun

/-! ### The run -/

@[simp] lemma link_setLink_self (s : Wire V) (side : Side) (l : Link.Direction) :
    (s.setLink side l).link side = l := Function.update_self ..

@[simp] lemma link_setLink_other (s : Wire V) (side : Side) (l : Link.Direction) :
    (s.setLink side l).link side.other = s.link side.other :=
  Function.update_of_ne side.other_ne ..

lemma received_exchange (s : Wire V) (side : Side) :
    s.exchange.received side = (s.link side.other).input.processed.length := rfl

lemma exchange_setLink_other (s : Wire V) (side : Side) (l : Link.Direction) :
    (s.setLink side.other l).exchange = s.exchangeAt side l.input.processed.length := by
  have hreceived : (s.setLink side.other l).exchange.received =
      Function.update s.exchange.received side l.input.processed.length := by
    funext side'
    rcases side.eq_or_eq_other side' with rfl | rfl
    · rw [received_exchange, link_setLink_self, Function.update_self]
    · rw [Function.update_of_ne side.other_ne, received_exchange, link_setLink_other,
        received_exchange]
  exact congrArg (Exchange.mk s.peer) hreceived

lemma exchange_setLink (l : Link.Direction) (hl : l.input = (s.link side).input) :
    (s.setLink side l).exchange = s.exchange := by
  have hreceived : (s.setLink side l).exchange.received = s.exchange.received := by
    funext side'
    rcases side.eq_or_eq_other side'.other with h | h
    · rw [received_exchange, received_exchange, h, link_setLink_self, hl]
    · rw [received_exchange, received_exchange, h, link_setLink_other]
  exact congrArg (Exchange.mk s.peer) hreceived

/-- A direction changes, and no message is sent. -/
lemma Sound.setLink (h : s.Sound S k) {l : Link.Direction} (hl : l.Sound S)
    (hmessages : l.sender.messages = (s.link side).sender.messages)
    (hsocket : l.sender.connection.socket = (s.link side).sender.connection.socket) :
    (s.setLink side l).Sound S k := by
  refine ⟨fun side' => ?_, fun side' => ?_, fun side' => ?_⟩
  all_goals
    rcases side.eq_or_eq_other side' with rfl | rfl
  · rwa [link_setLink_self]
  · rw [link_setLink_other]
    exact h.link _
  · rw [link_setLink_self, hmessages]
    exact h.messages side'
  · rw [link_setLink_other]
    exact h.messages _
  · rw [link_setLink_self, hsocket]
    exact h.accepts side'
  · rw [link_setLink_other]
    exact h.accepts _

/-- A `process_read()` that no exception leaves. -/
lemma Sound.processRead (h : s.Sound S k) (socket : Socket) (date : Int64)
    (processingTimeLimit : Int32) (arrivals : List Link.Arrival)
    (hreturns : (s.read S J p k side socket date processingTimeLimit arrivals now writes).thrown =
      false)
    (hsends : (s.step S J p k (.processRead side socket date processingTimeLimit arrivals now
      writes)).AllIntact S) :
    (s.step S J p k (.processRead side socket date processingTimeLimit arrivals now writes)).Sound
        S k ∧
      (s.step S J p k (.processRead side socket date processingTimeLimit arrivals now
        writes)).exchange = runFrom (Exchange.step p) s.exchange (s.deliveries S J p k
          (.processRead side socket date processingTimeLimit arrivals now writes)) := by
  obtain ⟨received, -, hreceived⟩ := (h.link side.other).bytes
  obtain ⟨lines, hreads⟩ := readCall_spec (k side).bufferClass
    (s := { line := (s.link side.other).input.line, object := (s, []),
            errors := (s.link side.other).input.errors })
    ((s.link side.other).readCall socket date processingTimeLimit arrivals) hreceived.tail hreturns
  obtain ⟨r, hr⟩ : ∃ r, r = s.read S J p k side socket date processingTimeLimit arrivals now
    writes := ⟨_, rfl⟩
  change Reads _ _ _ _ (s.read S J p k side socket date processingTimeLimit arrivals now writes) _
    at hreads
  rw [← hr] at hreads
  have hobject : r.input.object = callAll (readLine S J p k side now writes) lines (s, []) :=
    hreads.feeds.object
  rw [Wire.step, deliveries]
  rw [Wire.step] at hsends
  simp only [← hr] at hsends ⊢
  rcases hafter : r.input.object with ⟨s', done⟩
  rw [hafter] at hobject
  simp only [hafter] at hsends ⊢
  -- the lines that are there stay, and the next ones are those of the next messages
  have hl : Link.Direction.Sound S ((s.link side.other).reads
      ((s.link side.other).readCall socket date processingTimeLimit arrivals) r.unused
      { line := r.input.line, object := (s.link side.other).input.processed ++ lines,
        errors := r.input.errors }) :=
    (h.link side.other).reads hreads.readings hreads.feeds.framed rfl
  have hlines := (hl.delivers J).lines
  change (s.link side.other).input.processed ++ lines <+:
    (s.link side.other).sender.messages.map _ at hlines
  rw [h.messages, List.map_map] at hlines
  have hnext : lines <+: ((s.peer side.other).sent.drop
      (s.link side.other).input.processed.length).map fun t => t.message.text S := by
    have := hlines.drop (s.link side.other).input.processed.length
    rwa [List.drop_left, ← List.map_drop] at this
  have hintact : (callAll (readLine S J p k side now writes) lines (s, [])).1.AllIntact S := by
    rw [← hobject]
    exact hsends
  have hspec := callAll_spec h hnext hintact
  rw [← hobject] at hspec
  obtain ⟨hdone, hsound, hlink, hrun⟩ := hspec
  obtain rfl : done = lines := hdone
  refine ⟨hsound.setLink hl (by rw [hlink]; rfl) (by rw [hlink]; rfl), ?_⟩
  simp only [List.length_nil, Nat.zero_add] at hrun
  rw [← exchangeAt_self s side, ← hrun, exchange_setLink_other]
  exact congrArg (s'.exchangeAt side) List.length_append

/-- **One action is its deliveries.** -/
lemma Sound.step (h : s.Sound S k) {a : WireAction V} (hreturns : s.throws S J p k a = false)
    (hsends : (s.step S J p k a).AllIntact S) :
    (s.step S J p k a).Sound S k ∧
      (s.step S J p k a).exchange =
        runFrom (Exchange.step p) s.exchange (s.deliveries S J p k a) := by
  cases a with
  | processRead side socket date processingTimeLimit arrivals now writes =>
    exact h.processRead socket date processingTimeLimit arrivals hreturns hsends
  | processWrite side w =>
    have hstep := (h.link side).step (k side) (k side.other).bufferClass
      (a := .send (.processWrite w [])) (by
        rw [Link.Action.OneLine, Link.SendCall.OneLine]
        trivial)
    obtain ⟨hmessages, hsocket⟩ := perform_processWrite (S := S) (k := k side)
      (s := (s.link side).sender) w
    exact ⟨h.setLink hstep hmessages hsocket, exchange_setLink _ rfl⟩
  | act side a writes =>
    have hgrows := Peer.grows_perform (p side) (s.peer side) a
    exact ⟨h.change hgrows writes hsends, exchange_change _ _⟩

lemma extends_step (a : WireAction V) : s.Extends (s.step S J p k a) := by
  cases a with
  | processRead side socket date processingTimeLimit arrivals now writes =>
    have hline : ∀ line (object : Wire V × List Str), s.Extends object.1 →
        s.Extends (readLine S J p k side now writes line object).1.1 :=
      fun line object h => h.trans (extends_processLine line _ _)
    exact invariant_readCall hline (k side).bufferClass
      (s := { line := (s.link side.other).input.line, object := (s, []),
              errors := (s.link side.other).input.errors }) (fun _ => List.prefix_rfl)
      ((s.link side.other).readCall socket date processingTimeLimit arrivals)
  | processWrite side w => exact fun _ => List.prefix_rfl
  | act side a writes => exact extends_change (Peer.grows_perform ..) writes

lemma extends_runFrom (actions : List (WireAction V)) :
    s.Extends (runFrom (Wire.step S J p k) s actions) := by
  induction actions generalizing s with
  | nil => exact fun _ => List.prefix_rfl
  | cons a actions ih => exact (extends_step a).trans ih

/-- The deliveries of a run. -/
def deliveriesFrom (S : Snapdev) (J : JsonTokens) (p : Side → Program V)
    (k : Side → Link.OutputClass) (s : Wire V) (actions : List (WireAction V)) : List (Action V) :=
  (visited (Wire.step S J p k) s actions).flatMap fun q => q.1.deliveries S J p k q.2

/-- No exception leaves a `process_read()` of a run. -/
def Returns (S : Snapdev) (J : JsonTokens) (p : Side → Program V) (k : Side → Link.OutputClass)
    (s : Wire V) (actions : List (WireAction V)) : Prop :=
  ∀ q ∈ visited (Wire.step S J p k) s actions, q.1.throws S J p k q.2 = false

lemma Sound.runFrom (h : s.Sound S k) {actions : List (WireAction V)}
    (hreturns : s.Returns S J p k actions)
    (hsends : (runFrom (Wire.step S J p k) s actions).AllIntact S) :
    (runFrom (Wire.step S J p k) s actions).Sound S k ∧
      (runFrom (Wire.step S J p k) s actions).exchange =
        Lib.runFrom (Exchange.step p) s.exchange (deliveriesFrom S J p k s actions) := by
  induction actions generalizing s with
  | nil => exact ⟨h, rfl⟩
  | cons a actions ih =>
    rw [Returns, visited_cons, List.forall_mem_cons] at hreturns
    obtain ⟨hsound, hstep⟩ :=
      h.step hreturns.1 (hsends.of_extends (extends_runFrom actions))
    obtain ⟨hafter, hrun⟩ := ih hsound hreturns.2 hsends
    refine ⟨hafter, hrun.trans ?_⟩
    rw [deliveriesFrom, deliveriesFrom, visited_cons, List.flatMap_cons, hstep, Lib.runFrom,
      Lib.runFrom, Lib.runFrom, List.foldl_append]

/-- Nothing was sent yet, and the connections are open. -/
structure Starts (k : Side → Link.OutputClass) (s : Wire V) : Prop where
  /-- The directions. -/
  link : ∀ side, ∃ socket nonBlocking, s.link side = .start socket nonBlocking ∧
    (k side).accepts socket = true
  /-- No message. -/
  sent : ∀ side, (s.peer side).sent = []

lemma Starts.sound (h : s.Starts k) : s.Sound S k := by
  refine ⟨fun side => ?_, fun side => ?_, fun side => ?_⟩
  all_goals obtain ⟨socket, nonBlocking, hlink, haccepts⟩ := h.link side
  · rw [hlink]
    exact Link.Direction.sound_start S socket nonBlocking
  · rw [hlink, h.sent]
    rfl
  · rw [hlink]
    exact haccepts

/-- Two messengers with the system matches and a catch-all, on two TCP connections. -/
def idle : Wire Unit where
  peer := Exchange.idle.peer
  link _ := .start openSocket true

/-- A client and the server's end of its connection. -/
def tcpEnds : Side → Link.OutputClass
  | .near => .tcpClient
  | .far => .tcpServerClient

/-- A message that only the catch-all takes: the socket takes two of its bytes at first. -/
def splitRun : List (WireAction Unit) :=
  [.act .near (.send (Message.oneParameter [] ['G', 'O'] ['p'] ['1'])) fun _ => ⟨some 2, 0⟩,
    .processRead .far Link.farSocket 0 1000 [⟨.bytes 100, 5, 0⟩] (fun _ => ['1'])
      fun _ _ => ⟨some 100, 0⟩,
    .processWrite .near ⟨some 100, 0⟩,
    .processRead .far Link.farSocket 0 1000 [⟨.bytes 100, 5, 0⟩] (fun _ => ['2'])
      fun _ _ => ⟨some 100, 0⟩,
    .processRead .near Link.farSocket 0 1000 [⟨.bytes 100, 5, 0⟩] (fun _ => ['3'])
      fun _ _ => ⟨some 100, 0⟩]

lemma starts_idle : idle.Starts tcpEnds where
  link side := ⟨_, _, rfl, by cases side <;> decide⟩
  sent _ := rfl

/-- A message with one value of visible characters below the backslash. -/
lemma intact_oneParameter {command name value : Str} (hcommand : ValidName false false command)
    (hne : command ≠ []) (hname : ValidName false true name)
    (hvalue : ∀ c ∈ value, '!' ≤ c ∧ c < '\\') :
    Intact .standard (Message.oneParameter [] command name value) where
  command := hne
  oneLine := by
    have hbuilt : Message.Built .standard (Message.oneParameter [] command name value) :=
      Message.built_oneParameter (by decide) hcommand hname
    exact ⟨hbuilt.wellFormed.validNames, .inl rfl⟩
  readable := by
    refine ⟨fun h => absurd rfl h, fun p hp => ?_, fun p hp _ hlast => ?_,
      fun p hp _ c hc hblank => ?_⟩
    · rw [List.mem_singleton.mp hp]
      exact fun hnul => absurd (hvalue nul hnul).1 (by decide)
    · rw [List.mem_singleton.mp hp] at hlast
      exact absurd (hvalue '\\' (List.mem_of_getLast? hlast)).2 (lt_irrefl _)
    · obtain rfl : (name, value) = p := Option.some.inj hp
      obtain ⟨hlow, hhigh⟩ := hvalue c (List.mem_of_getLast? hc)
      have hvisible := Snapdev.standard.not_blank_of_graphic c hlow
        (hhigh.le.trans (by decide : '\\' ≤ '~'))
      exact absurd (hvisible.symm.trans hblank) Bool.false_ne_true

lemma allIntact_splitRun :
    (runFrom (Wire.step .standard .standard (fun _ => Exchange.quiet) tcpEnds) idle
      splitRun).AllIntact .standard := by
  have hnear : ((runFrom (Wire.step .standard .standard (fun _ => Exchange.quiet) tcpEnds) idle
      splitRun).peer .near).sent.map Sent.message =
        [Message.oneParameter [] ['G', 'O'] ['p'] ['1']] := by
    decide +kernel
  have hfar : ((runFrom (Wire.step .standard .standard (fun _ => Exchange.quiet) tcpEnds) idle
      splitRun).peer .far).sent.map Sent.message =
        [Message.oneParameter [] "UNKNOWN".toList "command".toList ['G', 'O']] := by
    decide +kernel
  intro side t ht
  have hmessage := List.mem_map_of_mem (f := Sent.message) ht
  cases side with
  | near =>
    rw [hnear, List.mem_singleton] at hmessage
    rw [hmessage]
    exact intact_oneParameter (by decide) (by decide) (by decide) (by decide)
  | far =>
    rw [hfar, List.mem_singleton] at hmessage
    rw [hmessage]
    exact intact_oneParameter (by decide) (by decide) (by decide) (by decide)

lemma returns_splitRun :
    idle.Returns .standard .standard (fun _ => Exchange.quiet) tcpEnds splitRun := by
  rw [Returns]
  decide +kernel

/-- **The link carries the conversation.**  Whatever the two ends are and the kernel does, the
messengers go through the conversation in which each message is delivered at the `process_read()`
that completes its line, when no exception leaves one; none is lost, and none is on the way when
nothing is buffered or on the wire. -/
theorem exchange_runFrom (hs : s.Starts k) (actions : List (WireAction V))
    (hreturns : s.Returns S J p k actions)
    (hsends : (runFrom (Wire.step S J p k) s actions).AllIntact S) :
    let s' := runFrom (Wire.step S J p k) s actions
    s'.exchange = runFrom (Exchange.step p) s.exchange (deliveriesFrom S J p k s actions) ∧
      ∀ side, (s'.link side.other).sender.connection.output = [] →
        (s'.link side.other).wire = [] → s'.exchange.inFlight side = [] := by
  obtain ⟨hsound, hrun⟩ := hs.sound.runFrom hreturns hsends
  refine ⟨hrun, fun side houtput hwire => ?_⟩
  obtain ⟨-, hall⟩ := ((hsound.link side.other).delivers J).all houtput hwire
  rw [hsound.messages] at hall
  rw [Exchange.inFlight, received_exchange, hall, List.length_map, List.length_map]
  exact List.drop_length

/-- The message arrives in two pieces, and is answered with `UNKNOWN`. -/
theorem exchange_runFrom_splitRun :
    let s' := runFrom (Wire.step .standard .standard (fun _ => Exchange.quiet) tcpEnds) idle
      splitRun
    s'.exchange.received = (fun _ => 1) ∧
      s'.exchange = runFrom (Exchange.step fun _ => Exchange.quiet) idle.exchange
        (deliveriesFrom .standard .standard (fun _ => Exchange.quiet) tcpEnds idle splitRun) ∧
      ∀ side, (s'.link side.other).sender.connection.output = [] →
        (s'.link side.other).wire = [] → s'.exchange.inFlight side = [] := by
  refine ⟨?_, exchange_runFrom starts_idle splitRun returns_splitRun allIntact_splitRun⟩
  funext side
  cases side <;> decide +kernel

/-- The matches that the user adds call functions of the user. -/
def IsUser : WireAction V → Prop
  | .act _ a _ => a.IsUser
  | _ => True

lemma isUser_deliveries {a : WireAction V} (ha : IsUser a) :
    ∀ b ∈ s.deliveries S J p k a, b.IsUser := by
  intro b hb
  cases a with
  | processRead side socket date processingTimeLimit arrivals now writes =>
    rw [deliveries, List.mem_mapIdx] at hb
    obtain ⟨i, -, rfl⟩ := hb
    trivial
  | processWrite side w => cases hb
  | act side a writes =>
    rw [List.mem_singleton.mp hb]
    exact ha

/-- **No storm of answers on the wire.**  No more lines arrive than were written, and no more than
three times as many are written as the users send messages. -/
theorem lines_runFrom {K : Fields → Fields → Prop} (hs : s.Starts k)
    (hserves : ∀ side, Serves (s.peer side).dispatcher) (hK : Keeping K)
    (hkeeps : ∀ side, (p side).U.Keeps K) {actions : List (WireAction V)}
    (hactions : ∀ a ∈ actions, IsUser a) (hreturns : s.Returns S J p k actions)
    (hsends : (runFrom (Wire.step S J p k) s actions).AllIntact S) :
    let s' := runFrom (Wire.step S J p k) s actions
    (∀ side, (s'.link side).input.processed.length ≤ (s'.link side).sender.messages.length) ∧
      (s'.link .near).sender.messages.length + (s'.link .far).sender.messages.length ≤
        3 * s'.exchange.initiated := by
  obtain ⟨hsound, hrun⟩ := hs.sound.runFrom hreturns hsends
  have hstarts : s.exchange.Starts := by
    refine ⟨hserves, hs.sent, fun side => ?_⟩
    obtain ⟨socket, nonBlocking, hlink, -⟩ := hs.link side.other
    rw [received_exchange, hlink]
    rfl
  have husers : ∀ b ∈ deliveriesFrom S J p k s actions, b.IsUser := by
    intro b hb
    obtain ⟨q, hq, hb⟩ := List.mem_flatMap.mp hb
    exact isUser_deliveries (hactions q.2 (mem_of_mem_visited hq)) b hb
  have hconversation := hstarts.sound_runFrom hK hkeeps husers
  rw [← hrun] at hconversation
  refine ⟨fun side => ?_, ?_⟩
  · have hreceived := hconversation.received side.other
    rw [received_exchange, side.other_other] at hreceived
    rw [hsound.messages, List.length_map]
    exact hreceived
  · rw [hsound.messages, hsound.messages, List.length_map, List.length_map]
    exact le_trans (Nat.le_add_right _ _) hconversation.bounded

/-- One message of the user, and its answer. -/
theorem lines_runFrom_splitRun :
    let s' := runFrom (Wire.step .standard .standard (fun _ => Exchange.quiet) tcpEnds) idle
      splitRun
    (∀ side, (s'.link side).input.processed.length ≤ (s'.link side).sender.messages.length) ∧
      (s'.link .near).sender.messages.length + (s'.link .far).sender.messages.length ≤
        3 * s'.exchange.initiated :=
  lines_runFrom starts_idle Exchange.starts_idle.serves Exchange.keeping_eq
    (fun _ => Exchange.keeps_quiet) (by
      intro a ha
      simp only [splitRun, List.mem_cons, List.not_mem_nil, or_false] at ha
      rcases ha with rfl | rfl | rfl | rfl | rfl <;> trivial) returns_splitRun allIntact_splitRun

end Wire

end EventDispatcher.Conversation
