import EventDispatcher.Permanent.Connection

/-!
# Callbacks that only send messages

A connection that is not marked done, with callbacks that only send messages, keeps its link while
a callback runs (`Sends`).  The messages that a callback sends are handed to the messenger at once
when there is one, and wait in the cache otherwise.  A flush hands over the cached messages up to
the first one for which `to_message()` throws (`Flushed`).
-/

namespace EventDispatcher.Permanent

open Lib Buffer

variable {M : Type} (toMessage : M → Option Str)

/-- The message of the call has a command. -/
def Call.hasCommand : Call M → Bool
  | .sendMessage msg _ _ _ => (toMessage msg).isSome
  | .disconnect | .markDone _ | .processEmptyBuffer => true

mutual

/-- The call only sends messages, and the calls it leads to only send messages with a command. -/
def Call.sends : Call M → Bool
  | .sendMessage _ _ _ onEmpty => Call.sendsAll onEmpty
  | .processEmptyBuffer => true
  | .disconnect | .markDone _ => false

/-- All the calls only send messages with a command. -/
def Call.sendsAll : List (Call M) → Bool
  | [] => true
  | c :: calls => Call.sends c && c.hasCommand toMessage && Call.sendsAll calls

end

/-- No call sends a message. -/
def Call.silent (l : List (Call M)) : Bool :=
  l.all fun c => match c with
    | .processEmptyBuffer => true
    | _ => false

/-- The callbacks at the end of the attempt only send messages with a command. -/
def Attempt.sends (a : Attempt M) : Bool :=
  (a.replies.all fun r => Call.sendsAll toMessage r.onEmpty) &&
    Call.sendsAll toMessage a.onConnected && Call.sendsAll toMessage a.onFailed

/-- The callbacks only send messages with a command, and nothing marks the connection done. -/
def Event.plain : Event M → Bool
  | .call .disconnect => true
  | .call c => c.sends toMessage
  | .processTimeout _ _ a => a.sends toMessage
  | .signalRead a => a.sends toMessage
  | .messengerWrite _ _ onEmpty => Call.sendsAll toMessage onEmpty
  | .attemptEnds _ | .messengerLost _ _ => true

/-- The message of the event has a command, if it is a call of `send_message()`. -/
def Event.hasCommand : Event M → Bool
  | .call c => c.hasCommand toMessage
  | _ => true

/-- What is buffered for a messenger and what was sent, against the lines of its messages. -/
def Messenger.session (p : Messenger M) : Session where
  connection := p.toOutput
  accepted := p.messages.flatMap fun msg => (toMessage msg).elim [] Link.buf

variable {toMessage}

/-- A messenger that took a message with the given text. -/
def Messenger.took (k : Link.OutputClass) (p : Messenger M) (msg : M) (text : Str)
    (w : WriteResult) : Messenger M where
  toOutput := (k.write p.toOutput (some (Link.buf text)) w).1
  messages := p.messages ++ [msg]

/-- A messenger with a socket takes a message that has a command. -/
lemma Messenger.sendMessage_spec {k : Link.OutputClass} {p : Messenger M} {msg : M} {text : Str}
    (htext : toMessage msg = some text) (hsocket : k.accepts p.socket = true) (w : WriteResult) :
    p.sendMessage toMessage k msg w =
      (p.took k msg text w, some (true, (k.write p.toOutput (some (Link.buf text)) w).2.2)) := by
  have hresult := k.result_write hsocket (Link.buf_ne_nil text) w
  simp only [sendMessage, htext, hresult, decide_true, if_true, took]

/-- The lines of a messenger stay faithful when it takes a message. -/
lemma Messenger.faithful_took {k : Link.OutputClass} {p : Messenger M} {msg : M} {text : Str}
    (htext : toMessage msg = some text) (hsocket : k.accepts p.socket = true) (w : WriteResult)
    (h : (p.session toMessage).Faithful) :
    ((p.took k msg text w).session toMessage).Faithful := by
  have hresult := k.result_write hsocket (Link.buf_ne_nil text) w
  have hline : (p.took k msg text w).session toMessage =
      (p.session toMessage).wrote (some (Link.buf text))
        (k.write p.toOutput (some (Link.buf text)) w).1
        (k.write p.toOutput (some (Link.buf text)) w).2.1 := by
    simp [session, took, Session.wrote, hresult, htext]
  rw [hline]
  exact (k.faithful_write h (some (Link.buf text)) w).1

namespace Connection

/-- The sockets of the messengers. -/
def sockets (s : Connection M) : List Socket := s.outputs.map fun p => p.socket

variable (toMessage) in
/-- What each messenger's socket took and what it has buffered are the lines of the messages that
were handed to it. -/
def Lines (s : Connection M) : Prop := ∀ p ∈ s.outputs, (p.session toMessage).Faithful

/-- Messenger `i` is the last one, and has a socket. -/
structure Ready (s : Connection M) (i : ℕ) : Prop where
  /-- It is the last one. -/
  last : i + 1 = s.sockets.length
  /-- Its socket. -/
  socket : ∀ c ∈ s.sockets[i]?, 0 ≤ c.1

/-- Not marked done, and the messenger is ready. -/
structure Open (s : Connection M) : Prop where
  /-- The timer is not marked done. -/
  done : s.done = false
  /-- The implementation is not marked done. -/
  implDone : s.implDone = false
  /-- No messenger is marked done. -/
  marked : s.marked = []
  /-- The messenger can be used. -/
  messenger : ∀ i ∈ s.messenger, s.Ready i

lemma Ready.of_sockets {s s' : Connection M} {i : ℕ} (h : s.Ready i)
    (hsockets : s'.sockets = s.sockets) : s'.Ready i :=
  ⟨hsockets ▸ h.last, hsockets ▸ h.socket⟩

lemma Ready.exists_output {s : Connection M} {i : ℕ} (h : s.Ready i) :
    ∃ p, s.outputs[i]? = some p ∧ 0 ≤ p.socket.1 := by
  have hi : i < s.outputs.length := by
    have := h.last
    rw [sockets, List.length_map] at this
    omega
  have hp := List.getElem?_eq_getElem hi
  refine ⟨_, hp, h.socket _ ?_⟩
  rw [sockets, List.getElem?_map, hp]
  rfl

lemma Open.of_link {s s' : Connection M} (hs : s.Open) (hlink : s'.toLink = s.toLink)
    (hsockets : s'.sockets = s.sockets) : s'.Open := by
  refine ⟨?_, ?_, ?_, fun i hi => ?_⟩
  · rw [hlink]
    exact hs.done
  · rw [hlink]
    exact hs.implDone
  · rw [hlink]
    exact hs.marked
  · rw [hlink] at hi
    exact (hs.messenger i hi).of_sockets hsockets

lemma messengerEmptyBuffer_of_open {s : Connection M} (hs : s.Open) (i : ℕ) :
    s.toLink.messengerEmptyBuffer i = s.toLink := by
  rw [Link.messengerEmptyBuffer, hs.marked]
  simp

variable (toMessage) in
/-- From `s` to `s'` a message is handed over. -/
structure Hands (s s' : Connection M) (msg : M) : Prop where
  /-- The link stays. -/
  link : s'.toLink = s.toLink
  /-- Nothing undefined happens. -/
  undefined : s'.undefined = s.undefined
  /-- The sockets stay. -/
  sockets : s'.sockets = s.sockets
  /-- The cache stays. -/
  cache : s'.cache = s.cache
  /-- The lines stay faithful. -/
  lines : s.Lines toMessage → s'.Lines toMessage
  /-- The message. -/
  handed : s'.handed = s.handed ++ [msg]

/-- What the last messenger takes is the last thing that is handed over. -/
lemma flatMap_set_last {l : List (Messenger M)} {i : ℕ} {p p' : Messenger M} {msg : M}
    (hp : l[i]? = some p) (hlast : i + 1 = l.length)
    (hmessages : p'.messages = p.messages ++ [msg]) :
    (l.set i p').flatMap (fun p => p.messages) = l.flatMap (fun p => p.messages) ++ [msg] := by
  rcases l.eq_nil_or_concat' with rfl | ⟨before, q, rfl⟩
  · cases hlast
  · obtain rfl : i = before.length := by
      rw [List.length_append, List.length_singleton] at hlast
      omega
    obtain rfl : q = p := by simpa using hp
    simp [hmessages]

/-- The messenger that is ready takes a message that has a command. -/
lemma handOver_eq {k : Link.OutputClass} {s : Connection M} {i : ℕ} {p : Messenger M}
    (hp : s.outputs[i]? = some p) (hsocket : k.accepts p.socket = true) {msg : M} {text : Str}
    (htext : toMessage msg = some text) (w : WriteResult) :
    s.handOver toMessage k i msg w =
      ({ s with outputs := s.outputs.set i (p.took k msg text w) },
        some (true, (k.write p.toOutput (some (Link.buf text)) w).2.2)) := by
  rw [handOver, hp]
  simp only [Messenger.sendMessage_spec htext hsocket w]

/-- What changes when it does. -/
lemma hands_handOver {k : Link.OutputClass} (hk : ∀ c : Socket, 0 ≤ c.1 → k.accepts c = true)
    {s : Connection M} {i : ℕ} (hs : s.Ready i) {msg : M} {text : Str}
    (htext : toMessage msg = some text) (w : WriteResult) :
    ∃ s' emptied, s.handOver toMessage k i msg w = (s', some (true, emptied)) ∧
      Hands toMessage s s' msg := by
  obtain ⟨p, hp, hsocket⟩ := hs.exists_output
  have hlast : i + 1 = s.outputs.length := by
    rw [hs.last, sockets, List.length_map]
  refine ⟨_, _, handOver_eq hp (hk _ hsocket) htext w, rfl, rfl, ?_, rfl, fun hlines q hq => ?_,
    flatMap_set_last hp hlast rfl⟩
  · have hsame : (p.took k msg text w).socket = p.socket := (k.frame_write p.toOutput _ w).socket
    obtain ⟨hi, rfl⟩ := List.getElem?_eq_some_iff.mp hp
    rw [sockets, List.map_set, hsame, ← List.map_set, List.set_getElem_self]
    rfl
  · rcases List.mem_or_eq_of_mem_set hq with hq | rfl
    · exact hlines q hq
    · exact Messenger.faithful_took htext (hk _ hsocket) w (hlines p (List.mem_of_getElem? hp))

/-- A messenger throws when the message has no command. -/
lemma handOver_throws (k : Link.OutputClass) {s : Connection M} {i : ℕ} (hs : s.Ready i) {msg : M}
    (htext : toMessage msg = none) (w : WriteResult) :
    s.handOver toMessage k i msg w = (s, none) := by
  obtain ⟨p, hp, -⟩ := hs.exists_output
  obtain ⟨hi, rfl⟩ := List.getElem?_eq_some_iff.mp hp
  rw [handOver, hp]
  simp only [Messenger.sendMessage, htext, List.set_getElem_self]

lemma accepts_tcp (c : Socket) (hc : 0 ≤ c.1) :
    Link.OutputClass.accepts .tcpServerClient c = true := decide_eq_true hc

/-- The message goes to the messenger when there is one. -/
lemma sendMessage_of_some {s : Connection M} {i : ℕ} (hm : s.messenger = some i) (hs : s.Ready i)
    {msg : M} {text : Str} (htext : toMessage msg = some text) (cache : Bool) (w : WriteResult) :
    ∃ s' emptied, s.sendMessage toMessage msg cache w = (s', some (true, emptied)) ∧
      Hands toMessage s s' msg := by
  obtain ⟨s', emptied, hover, hhands⟩ := hands_handOver accepts_tcp hs htext w
  refine ⟨s', if emptied then some i else none, ?_, hhands⟩
  rw [sendMessage]
  simp only [hm, hover, Option.map_some]

/-- An exception of the messenger leaves `send_message()`. -/
lemma sendMessage_throws {s : Connection M} {i : ℕ} (hm : s.messenger = some i) (hs : s.Ready i)
    {msg : M} (htext : toMessage msg = none) (cache : Bool) (w : WriteResult) :
    s.sendMessage toMessage msg cache w = (s, none) := by
  rw [sendMessage]
  simp only [hm, handOver_throws .tcpServerClient hs htext w, Option.map_none]

end Connection

namespace History

variable (toMessage) in
/-- What calls that only send messages change; `commands` says that the messages have a command. -/
structure Sends (commands : Prop) (t t' : History M) : Prop where
  /-- The link stays. -/
  link : t'.toLink = t.toLink
  /-- Nothing undefined happens. -/
  undefined : t'.undefined = t.undefined
  /-- The messengers stay. -/
  sockets : t'.sockets = t.sockets
  /-- The lines stay faithful. -/
  lines : t.Lines toMessage → t'.Lines toMessage
  /-- The messages are taken, and handed over or cached. -/
  messages : ∃ l, t'.accepted = t.accepted ++ l ∧
    (t.messenger.isSome = true → t'.handed = t.handed ++ l ∧ t'.cache = t.cache) ∧
    (t.messenger = none → t'.handed = t.handed ∧ t'.cache = t.cache ++ l) ∧
    (commands → ∀ msg ∈ l, (toMessage msg).isSome = true)

lemma Sends.refl {commands : Prop} (t : History M) : Sends toMessage commands t t :=
  ⟨rfl, rfl, rfl, id, [], by simp, fun _ => by simp, fun _ => by simp, fun _ => by simp⟩

lemma Sends.mono {commands commands' : Prop} {t t' : History M}
    (h : Sends toMessage commands t t') (himp : commands' → commands) :
    Sends toMessage commands' t t' := by
  obtain ⟨l, haccepted, hyes, hno, hall⟩ := h.messages
  exact ⟨h.link, h.undefined, h.sockets, h.lines, l, haccepted, hyes, hno, fun hc => hall (himp hc)⟩

lemma Sends.trans {commands : Prop} {t₁ t₂ t₃ : History M} (h₁ : Sends toMessage commands t₁ t₂)
    (h₂ : Sends toMessage commands t₂ t₃) : Sends toMessage commands t₁ t₃ := by
  obtain ⟨l, haccepted, hyes, hno, hall⟩ := h₁.messages
  obtain ⟨l', haccepted', hyes', hno', hall'⟩ := h₂.messages
  have hmessenger : t₂.messenger = t₁.messenger := congrArg Link.messenger h₁.link
  refine ⟨h₂.link.trans h₁.link, h₂.undefined.trans h₁.undefined, h₂.sockets.trans h₁.sockets,
    fun h => h₂.lines (h₁.lines h), l ++ l', ?_, fun hm => ?_, fun hm => ?_,
    fun hc => List.forall_mem_append.mpr ⟨hall hc, hall' hc⟩⟩
  · rw [haccepted', haccepted, List.append_assoc]
  · obtain ⟨hh, hc⟩ := hyes hm
    obtain ⟨hh', hc'⟩ := hyes' (hmessenger ▸ hm)
    exact ⟨by rw [hh', hh, List.append_assoc], hc'.trans hc⟩
  · obtain ⟨hh, hc⟩ := hno hm
    obtain ⟨hh', hc'⟩ := hno' (hmessenger.trans hm)
    exact ⟨hh'.trans hh, by rw [hc', hc, List.append_assoc]⟩

lemma Sends.open_ {commands : Prop} {t t' : History M} (h : Sends toMessage commands t t')
    (ht : t.Open) : t'.Open :=
  ht.of_link h.link h.sockets

/-- A message that was handed over, and taken. -/
lemma sends_of_hands {t : History M} {s : Connection M} {msg : M}
    (h : Connection.Hands toMessage t.toConnection s msg) (hm : t.messenger.isSome = true)
    (cache : Bool) :
    Sends toMessage ((toMessage msg).isSome = true) t (t.sent s msg cache true) := by
  refine ⟨h.link, h.undefined, h.sockets, h.lines, [msg], ?_, fun _ => ⟨h.handed, h.cache⟩,
    fun hnone => ?_, fun hmsg => by simpa using hmsg⟩
  · simp [sent]
  · rw [hnone] at hm
    cases hm

variable (toMessage) in
/-- A message that is not forwarded is cached if it is to be. -/
lemma sends_of_none {t : History M} (ht : t.Open) (hm : t.messenger = none) (msg : M)
    (cache : Bool) (w : WriteResult) :
    ∃ s, t.toConnection.sendMessage toMessage msg cache w = (s, some (false, none)) ∧
      Sends toMessage ((toMessage msg).isSome = true) t (t.sent s msg cache false) := by
  refine ⟨_, by rw [Connection.sendMessage]; simp only [hm]; rfl, ?_⟩
  cases cache with
  | true =>
    simp only [ht.implDone, sent]
    exact ⟨rfl, rfl, rfl, id, [msg], by simp, fun h => by simp [hm] at h,
      fun _ => by simp [Connection.handed], fun hmsg => by simpa using hmsg⟩
  | false =>
    simp only [sent]
    exact ⟨rfl, rfl, rfl, id, [], by simp, fun _ => by simp [Connection.handed],
      fun _ => by simp [Connection.handed], fun _ => by simp⟩

mutual

/-- A call that only sends messages; it returns when its message has a command. -/
lemma sends_exec (t : History M) (ht : t.Open) (c : Call M) (hc : c.sends toMessage = true) :
    Sends toMessage (c.hasCommand toMessage = true) t (t.exec toMessage c).1 ∧
      (c.hasCommand toMessage = true → (t.exec toMessage c).2 = true) := by
  match c with
  | .disconnect => simp [Call.sends] at hc
  | .markDone b => simp [Call.sends] at hc
  | .processEmptyBuffer =>
    have hlink : t.toLink.processEmptyBuffer = t.toLink := by
      rw [Link.processEmptyBuffer, ht.done]
      simp
    rw [exec, hlink]
    exact ⟨.refl t, fun _ => rfl⟩
  | .sendMessage msg cache w onEmpty =>
    rw [Call.sends] at hc
    rw [exec]
    cases hm : t.messenger with
    | none =>
      obtain ⟨s, hsend, hsends⟩ := sends_of_none toMessage ht hm msg cache w
      simp only [hsend]
      exact ⟨hsends, fun _ => trivial⟩
    | some i =>
      have hready := ht.messenger i hm
      cases htext : toMessage msg with
      | none =>
        simp only [Connection.sendMessage_throws hm hready htext]
        refine ⟨.refl t, fun h => ?_⟩
        rw [Call.hasCommand, htext] at h
        cases h
      | some text =>
        obtain ⟨s, emptied, hsend, hhands⟩ :=
          Connection.sendMessage_of_some hm hready htext cache w
        have hgive := sends_of_hands hhands (by rw [hm]; rfl) cache
        simp only [hsend]
        cases emptied with
        | none => exact ⟨hgive, fun _ => rfl⟩
        | some j =>
          simp only [Connection.messengerEmptyBuffer_of_open (hgive.open_ ht)]
          obtain ⟨hsends, hreturns⟩ := sends_execAll _ (hgive.open_ ht) onEmpty hc
          exact ⟨hgive.trans (hsends.mono fun _ => trivial), fun _ => hreturns⟩

/-- Calls that only send messages with a command return. -/
lemma sends_execAll (t : History M) (ht : t.Open) (l : List (Call M))
    (hl : Call.sendsAll toMessage l = true) :
    Sends toMessage True t (t.execAll toMessage l).1 ∧ (t.execAll toMessage l).2 = true := by
  match l with
  | [] =>
    rw [execAll]
    exact ⟨.refl t, rfl⟩
  | c :: calls =>
    rw [Call.sendsAll, Bool.and_eq_true, Bool.and_eq_true] at hl
    obtain ⟨hc, hreturns⟩ := sends_exec t ht c hl.1.1
    rw [execAll]
    simp only [hreturns hl.1.2, if_true]
    obtain ⟨hrest, hreturned⟩ := sends_execAll _ (hc.open_ ht) calls hl.2
    exact ⟨(hc.mono fun _ => hl.1.2).trans hrest, hreturned⟩

end

variable (toMessage) in
/-- Calls that send no message do nothing. -/
lemma execAll_silent {t : History M} (ht : t.Open) {l : List (Call M)}
    (hl : Call.silent l = true) : t.execAll toMessage l = (t, true) := by
  induction l with
  | nil => rw [execAll]
  | cons c calls ih =>
    rw [Call.silent, List.all_cons, Bool.and_eq_true] at hl
    have hexec : t.exec toMessage c = (t, true) := by
      cases c with
      | processEmptyBuffer => rw [exec, Link.processEmptyBuffer, ht.done, if_neg (by simp)]
      | sendMessage msg cache w onEmpty => simp at hl
      | disconnect => simp at hl
      | markDone b => simp at hl
    rw [execAll, hexec]
    exact ih hl.2

/-! ### The flush -/

/-- One cached message with a command is sent: the messages of the callback follow it. -/
lemma tcpSend_spec {t : History M} (ht : t.Open) {i : ℕ} (hm : t.messenger = some i) {msg : M}
    {text : Str} (htext : toMessage msg = some text) {reply : Reply M}
    (hsends : Call.sendsAll toMessage reply.onEmpty = true) :
    (t.tcpSend toMessage i msg reply).2 = true ∧
      let t' := (t.tcpSend toMessage i msg reply).1
      t'.toLink = t.toLink ∧ t'.undefined = t.undefined ∧ t'.sockets = t.sockets ∧
        (t.Lines toMessage → t'.Lines toMessage) ∧ t'.cache = t.cache ∧
        ∃ l, t'.handed = t.handed ++ msg :: l ∧ t'.accepted = t.accepted ++ l ∧
          (Call.silent reply.onEmpty = true → l = []) := by
  obtain ⟨s, emptied, hover, hhands⟩ := Connection.hands_handOver Connection.accepts_tcp
    (ht.messenger i hm) htext reply.write
  have hopen : s.Open := ht.of_link hhands.link hhands.sockets
  rw [tcpSend, sendCached]
  simp only [hover]
  cases emptied with
  | false =>
    exact ⟨rfl, hhands.link, hhands.undefined, hhands.sockets, hhands.lines, hhands.cache,
      [], hhands.handed, by simp, fun _ => rfl⟩
  | true =>
    have hopen₁ : ({ t with toConnection := s } : History M).Open := hopen
    obtain ⟨hcalls, hreturns⟩ := sends_execAll _ hopen₁ reply.onEmpty hsends
    have hup : s.messenger = some i := (congrArg Link.messenger hhands.link).trans hm
    obtain ⟨l, haccepted, hyes, -⟩ := hcalls.messages
    obtain ⟨hhanded, hcache⟩ := hyes (by rw [hup]; rfl)
    simp only [if_true, Connection.messengerEmptyBuffer_of_open hopen]
    refine ⟨hreturns, hcalls.link.trans hhands.link, hcalls.undefined.trans hhands.undefined,
      hcalls.sockets.trans hhands.sockets, fun h => hcalls.lines (hhands.lines h),
      hcache.trans hhands.cache, l, ?_, haccepted, fun hsilent => ?_⟩
    · rw [hhanded, hhands.handed, List.append_assoc]
      rfl
    · have hsame := execAll_silent toMessage hopen₁ hsilent
      rw [hsame] at haccepted
      exact List.self_eq_append_right.mp haccepted

variable (toMessage) in
/-- What the flush of the cache leaves.  Each cached message up to the first one without a command
is handed over with the messages that its callback sends behind it; `quiet` says that only the
callback of the last one sends messages. -/
structure Flushed (t t' : History M) (quiet : Prop) : Prop where
  /-- The link stays. -/
  link : t'.toLink = t.toLink
  /-- Nothing undefined happens. -/
  undefined : t'.undefined = t.undefined
  /-- The messengers stay. -/
  sockets : t'.sockets = t.sockets
  /-- The lines stay faithful. -/
  lines : t.Lines toMessage → t'.Lines toMessage
  /-- What is cached starts with a message without a command. -/
  cache : t'.cache = t.cache.dropWhile fun msg => (toMessage msg).isSome
  /-- Each message that is handed over with the messages of its callback. -/
  messages : ∃ batch : List (M × List M),
    batch.map Prod.fst = (t.cache.takeWhile fun msg => (toMessage msg).isSome) ∧
    t'.handed = t.handed ++ batch.flatMap (fun p => p.1 :: p.2) ∧
    t'.accepted = t.accepted ++ batch.flatMap Prod.snd ∧
    (quiet → ∀ p ∈ batch.dropLast, p.2 = [])

/-- When the callbacks of all the messages but the last one are silent, the messages of a batch but
its last one have none behind them; this goes from the rest of a batch to the batch. -/
lemma silent_of_dropLast_cons {batch : List (M × List M)} {replies : List (Reply M)} {n : ℕ}
    {p₀ : M × List M} (hbatch : batch.length ≤ n)
    (hhead : Call.silent (replies.headD default).onEmpty = true → p₀.2 = [])
    (hrest : (∀ r ∈ replies.tail.take (n - 1), Call.silent r.onEmpty = true) →
      ∀ p ∈ batch.dropLast, p.2 = [])
    (hreplies : ∀ r ∈ replies.take n, Call.silent r.onEmpty = true) :
    ∀ p ∈ (p₀ :: batch).dropLast, p.2 = [] := by
  intro p hp
  -- with a message left in the cache, this callback sends nothing
  cases batch with
  | nil => simp at hp
  | cons q batch =>
    obtain ⟨n, rfl⟩ := Nat.exists_eq_add_one_of_ne_zero
      (Nat.ne_of_gt ((Nat.succ_pos _).trans_le hbatch))
    rw [List.dropLast_cons_cons, List.mem_cons] at hp
    cases replies with
    | nil =>
      rcases hp with rfl | hp
      · exact hhead rfl
      · exact hrest (by simp) p hp
    | cons r replies =>
      rcases hp with rfl | hp
      · exact hhead (hreplies r List.mem_cons_self)
      · exact hrest (fun r' hr => hreplies r' (List.mem_cons_of_mem _ hr)) p hp

/-- A cached message without a command stays in the cache. -/
lemma sendCached_throws (k : Link.OutputClass) {t : History M} {i : ℕ} (ht : t.Ready i) {msg : M}
    (htext : toMessage msg = none) (w : WriteResult)
    (onEmpty : History M → History M × Bool) :
    t.sendCached toMessage k i msg w onEmpty = (t, false) := by
  rw [sendCached, Connection.handOver_throws k ht htext]

section Iteration

variable {R : Type} [Inhabited R] {send : History M → ℕ → M → R → History M × Bool}
  {t t' : History M} {msg msg' : M} {cache cache' : List M} {i : ℕ} {replies : List R}

/-- An exception leaves the loop. -/
lemma flushLoop_throws (hcache : t.cache = msg :: cache) (hm : t.messenger = some i)
    (hsend : send t i msg (replies.headD default) = (t', false)) (n : ℕ) :
    flushLoop send (n + 1) replies t = (t', false) := by
  rw [flushLoop]
  simp only [hcache, hm, hsend]
  rfl

/-- The message that was sent is erased, and the loop goes on. -/
lemma flushLoop_sent (hcache : t.cache = msg :: cache) (hm : t.messenger = some i)
    (hsend : send t i msg (replies.headD default) = (t', true))
    (hcache' : t'.cache = msg' :: cache') (n : ℕ) :
    flushLoop send (n + 1) replies t =
      flushLoop send n replies.tail { t' with cache := cache' } := by
  rw [flushLoop]
  simp only [hcache, hm, hsend, if_true, hcache']

/-- An empty cache is erased. -/
lemma flushLoop_cleared (hcache : t.cache = msg :: cache) (hm : t.messenger = some i)
    (hsend : send t i msg (replies.headD default) = (t', true)) (hcache' : t'.cache = [])
    (n : ℕ) : flushLoop send (n + 1) replies t = ({ t' with undefined := true }, false) := by
  rw [flushLoop]
  simp only [hcache, hm, hsend, if_true, hcache']

end Iteration

/-- The cached messages are sent, each followed by the messages of its callback, until
`to_message()` throws. -/
lemma flush_spec {t : History M} (ht : t.Open) (hm : t.messenger.isSome = true)
    {n : ℕ} (hn : t.cache.length = n) {replies : List (Reply M)}
    (hsends : ∀ r ∈ replies, Call.sendsAll toMessage r.onEmpty = true) :
    Flushed toMessage t (t.flush toMessage n replies).1
        (∀ r ∈ replies.take (n - 1), Call.silent r.onEmpty = true) ∧
      (t.flush toMessage n replies).2 = t.cache.all fun msg => (toMessage msg).isSome := by
  rw [flush]
  induction n generalizing t replies with
  | zero =>
    have hcache : t.cache = [] := List.length_eq_zero_iff.mp hn
    rw [flushLoop, if_pos hcache, hcache]
    exact ⟨⟨rfl, rfl, rfl, id, by simp [hcache], [], by simp [hcache], by simp, by simp, by simp⟩,
      rfl⟩
  | succ n ih =>
    obtain ⟨msg, cache, hcache⟩ := List.exists_cons_of_length_eq_add_one hn
    obtain ⟨i, hi⟩ := Option.isSome_iff_exists.mp hm
    cases htext : toMessage msg with
    | none =>
      rw [flushLoop_throws hcache hi (sendCached_throws _ (ht.messenger i hi) htext _ _)]
      refine ⟨⟨rfl, rfl, rfl, id, ?_, [], ?_, by simp, by simp, by simp⟩, ?_⟩
      · simp [hcache, htext]
      · simp [hcache, htext]
      · simp [hcache, htext]
    | some text =>
      have hlength : cache.length = n := by
        rw [hcache, List.length_cons] at hn
        omega
      have hreply : Call.sendsAll toMessage (replies.headD default).onEmpty = true := by
        cases replies with
        | nil => rfl
        | cons r replies => exact hsends r List.mem_cons_self
      have hspec := tcpSend_spec ht hi htext hreply
      generalize hsend : t.tcpSend toMessage i msg (replies.headD default) = r at hspec
      obtain ⟨t₁, returned⟩ := r
      obtain ⟨rfl, hlink, hundefined, hsockets, hlines, hsame, l, hhanded, haccepted, hsilent⟩ :=
        hspec
      rw [flushLoop_sent hcache hi hsend (hsame.trans hcache)]
      have hopen : ({ t₁ with cache := cache } : History M).Open := ht.of_link hlink hsockets
      obtain ⟨htail, hall⟩ := ih (t := { t₁ with cache := cache }) hopen
        (by rw [hlink]; exact hm) hlength fun r hr => hsends r (List.mem_of_mem_tail hr)
      -- the message and those of its callback come before what the rest of the loop hands over
      obtain ⟨batch, hfst, hhanded', haccepted', hquiet⟩ := htail.messages
      refine ⟨⟨htail.link.trans hlink, htail.undefined.trans hundefined,
        htail.sockets.trans hsockets, fun h => htail.lines (hlines h), ?_,
        (msg, l) :: batch, ?_, ?_, ?_, ?_⟩, ?_⟩
      · rw [htail.cache, hcache]
        simp [htext]
      · rw [List.map_cons, hfst, hcache]
        simp [htext]
      · rw [hhanded', List.flatMap_cons]
        change t₁.handed ++ _ = _
        rw [hhanded, List.append_assoc]
      · rw [haccepted', List.flatMap_cons]
        change t₁.accepted ++ _ = _
        rw [haccepted, List.append_assoc]
      · have hbatch : batch.length ≤ n := by
          rw [← List.length_map Prod.fst, hfst, ← hlength]
          exact (List.takeWhile_sublist _).length_le
        exact silent_of_dropLast_cons hbatch hsilent hquiet
      · rw [hall, hcache, List.all_cons, htext]
        rfl

/-! ### The end of an attempt -/

/-- The link once the thread is joined, with the outcome of the attempt still in it. -/
def ended (t : History M) (a : Attempt M) : Link :=
  { t.toLink with signal := false }.stop a.succeeds

/-- The connection after an attempt that failed. -/
def failed (t : History M) (a : Attempt M) : History M :=
  { t with toLink := { t.ended a with client := false, enabled := true } }

/-- The connection with the messenger of an attempt that succeeded. -/
def connected (t : History M) (a : Attempt M) : History M :=
  { t with
    toLink := { t.ended a with
      client := false
      messenger := some t.outputs.length
      messengers := (t.ended a).messengers ++ [t.outputs.length] }
    outputs := t.outputs ++ [newMessenger] }

lemma open_ended {t : History M} (ht : t.Open) (a : Attempt M) :
    (t.ended a).done = false ∧ (t.ended a).implDone = false ∧ (t.ended a).marked = [] ∧
      (t.ended a).messenger = t.messenger ∧ (t.ended a).messengers = t.messengers := by
  rw [ended, Link.stop, Link.attemptEnds]
  split
  · exact ⟨ht.done, ht.implDone, ht.marked, rfl, rfl⟩
  · exact ⟨ht.done, ht.implDone, ht.marked, rfl, rfl⟩

lemma open_failed {t : History M} (ht : t.Open) (a : Attempt M) : (t.failed a).Open := by
  obtain ⟨hdone, himpl, hmarked, hm, -⟩ := open_ended ht a
  exact ⟨hdone, himpl, hmarked, fun i hi => (ht.messenger i (hm ▸ hi)).of_sockets rfl⟩

/-- The new messenger is ready. -/
lemma ready_connected (t : History M) (a : Attempt M) :
    (t.connected a).Ready t.outputs.length := by
  refine ⟨?_, fun c hc => ?_⟩
  · simp [connected, Connection.sockets]
  · have hlast : (t.connected a).sockets[t.outputs.length]? = some ⟨0, by decide⟩ := by
      simp [connected, Connection.sockets, newMessenger]
    rw [hlast] at hc
    cases hc
    exact le_rfl

lemma open_connected {t : History M} (ht : t.Open) (a : Attempt M) : (t.connected a).Open := by
  obtain ⟨hdone, himpl, hmarked, -, -⟩ := open_ended ht a
  refine ⟨hdone, himpl, hmarked, fun i hi => ?_⟩
  obtain rfl : t.outputs.length = i := Option.some.inj hi
  exact t.ready_connected a

/-- Nothing was handed to the new messenger. -/
lemma lines_connected {t : History M} (a : Attempt M) (h : t.Lines toMessage) :
    (t.connected a).Lines toMessage := by
  intro p hp
  rcases List.mem_append.mp hp with hp | hp
  · exact h p hp
  · rw [List.mem_singleton.mp hp]
    exact .new rfl rfl rfl

lemma threadDone_eq (t : History M) (a : Attempt M) :
    t.threadDone toMessage a =
      if (t.ended a).implDone then { t with toLink := { t.ended a with client := false } }
      else if ¬ (t.ended a).client then ((t.failed a).execAll toMessage a.onFailed).1
      else
        let r := (t.connected a).flush toMessage t.cache.length a.replies
        if r.2 then (execAll toMessage { r.1 with enabled := false } a.onConnected).1
        else r.1 := rfl

/-- An attempt that failed enables the timer, and the callback of the user is called. -/
lemma threadDone_failed {t : History M} (ht : t.Open) {a : Attempt M}
    (ha : a.sends toMessage = true) (hclient : (t.ended a).client = false) :
    Sends toMessage True (t.failed a) (t.threadDone toMessage a) := by
  simp only [Attempt.sends, Bool.and_eq_true] at ha
  obtain ⟨-, himpl, -⟩ := open_ended ht a
  rw [threadDone_eq, if_neg (by simp [himpl]), if_pos (by simp [hclient])]
  exact (sends_execAll _ (open_failed ht a) a.onFailed ha.2).1

/-- After a success the cache is flushed.  If all its messages have a command, the timer is disabled
and the callback of the user is called; else an exception leaves. -/
lemma threadDone_connected {t : History M} (ht : t.Open) {a : Attempt M}
    (ha : a.sends toMessage = true) (hclient : (t.ended a).client = true) :
    ∃ t₁, Flushed toMessage (t.connected a) t₁
        (∀ r ∈ a.replies.take (t.cache.length - 1), Call.silent r.onEmpty = true) ∧
      ((t.cache.all fun msg => (toMessage msg).isSome) = true →
        Sends toMessage True { t₁ with enabled := false } (t.threadDone toMessage a)) ∧
      ((t.cache.all fun msg => (toMessage msg).isSome) = false →
        t.threadDone toMessage a = t₁) := by
  simp only [Attempt.sends, Bool.and_eq_true, List.all_eq_true] at ha
  obtain ⟨-, himpl, -⟩ := open_ended ht a
  have hflush : Flushed toMessage (t.connected a)
        ((t.connected a).flush toMessage t.cache.length a.replies).1
        (∀ r ∈ a.replies.take (t.cache.length - 1), Call.silent r.onEmpty = true) ∧
      ((t.connected a).flush toMessage t.cache.length a.replies).2 =
        t.cache.all fun msg => (toMessage msg).isSome :=
    flush_spec (open_connected ht a) rfl rfl ha.1.1
  rw [threadDone_eq, if_neg (by simp [himpl]), if_neg (by simp [hclient])]
  generalize (t.connected a).flush toMessage t.cache.length a.replies = r at hflush ⊢
  obtain ⟨t₁, returned⟩ := r
  obtain ⟨hflush, rfl⟩ := hflush
  refine ⟨t₁, hflush, fun hall => ?_, fun hall => ?_⟩
  · simp only [hall, if_true]
    have hopen := (open_connected ht a).of_link hflush.link hflush.sockets
    have hdisabled : ({ t₁ with enabled := false } : History M).Open :=
      ⟨hopen.done, hopen.implDone, hopen.marked,
        fun i hi => (hopen.messenger i hi).of_sockets rfl⟩
    exact (sends_execAll _ hdisabled a.onConnected ha.1.2).1
  · simp only [hall, Bool.false_eq_true, if_false]

end History

end EventDispatcher.Permanent
