import EventDispatcher.Permanent.Sends

/-!
# What an event does to a permanent connection

`step_change` says once what each event can do to a connection that is not marked done and whose
callbacks only send messages: the callbacks send, the link changes and the messages stay, or an
attempt ends.  The invariants of the next modules are read off `Change`.
-/

namespace EventDispatcher.Permanent

open Lib Buffer

variable {M : Type} {toMessage : M → Option Str}

/-- `disconnect()` leaves no messenger. -/
lemma Link.disconnect_messenger (s : Link) : s.disconnect.messenger = none := by
  cases hm : s.messenger with
  | none => simp only [disconnect, hm]
  | some i => simp only [disconnect, hm]

/-- `disconnect()` leaves the timer and the thread as they are. -/
lemma Link.disconnect_spec (s : Link) :
    s.disconnect.enabled = s.enabled ∧ s.disconnect.thread = s.thread ∧
      s.disconnect.signal = s.signal ∧ s.disconnect.signalled = s.signalled ∧
      s.disconnect.done = s.done ∧ s.disconnect.implDone = s.implDone ∧
      s.disconnect.marked = s.marked := by
  cases hm : s.messenger with
  | none => simp only [disconnect, hm, and_self]
  | some i => simp only [disconnect, hm, and_self]

/-- A connection that is lost, or that the user drops, has no messenger left. -/
lemma Link.messengerLost_messenger {s : Link} (hs : s.done = false) (i : ℕ) :
    (s.messengerLost i).messenger = none := by
  rw [messengerLost, processLost, if_neg (by simp [hs])]
  exact disconnect_messenger _

/-- A messenger that sent what it could of what it has buffered. -/
def Messenger.wrote (p : Messenger M) (w : WriteResult) : Messenger M :=
  { p with toOutput := (Link.OutputClass.processWrite .tcpServerClient p.toOutput w).1 }

namespace History

variable (toMessage) in
/-- The messages stay, and there is no new messenger. -/
structure Kept (t t' : History M) : Prop where
  /-- Nothing undefined happens. -/
  undefined : t'.undefined = t.undefined
  /-- The messenger goes, or stays with the others. -/
  messenger : t'.messenger = none ∨ t'.messenger = t.messenger ∧ t'.sockets = t.sockets
  /-- The cache stays. -/
  cache : t'.cache = t.cache
  /-- Nothing is handed over. -/
  handed : t'.handed = t.handed
  /-- Nothing is taken. -/
  accepted : t'.accepted = t.accepted
  /-- The lines stay faithful. -/
  lines : t.Lines toMessage → t'.Lines toMessage

lemma Kept.of_link (t : History M) {link : Link}
    (hm : link.messenger = none ∨ link.messenger = t.messenger) :
    Kept toMessage t { t with toLink := link } :=
  ⟨rfl, hm.imp_right fun h => ⟨h, rfl⟩, rfl, rfl, rfl, id⟩

/-- The event `e` ends the attempt `a`; `t₀` is the connection when the outcome is looked at. -/
inductive Begins (t : History M) : Event M → Attempt M → History M → Prop where
  /-- The timer callback connects. -/
  | direct (isRunning started : Bool) (a : Attempt M) (hthread : t.useThread = false) :
    Begins t (.processTimeout isRunning started a) a { t with client := a.succeeds }
  /-- The thread signalled the end of its attempt. -/
  | signalled (a : Attempt M) (hsignal : t.signal = true) (hsignalled : 0 < t.signalled) :
    Begins t (.signalRead a) a { t with signalled := t.signalled - 1 }

variable (toMessage) in
/-- All the cached messages have a command. -/
def Commands (t : History M) : Bool := t.cache.all fun msg => (toMessage msg).isSome

variable (toMessage) in
/-- What an event can do. -/
inductive Change (t : History M) : Event M → History M → Prop where
  /-- Messages are sent. -/
  | sends {e : Event M} {t' : History M}
    (h : Sends toMessage (e.hasCommand toMessage = true) t t') : Change t e t'
  /-- The user disconnects. -/
  | disconnects {t' : History M} (hlink : t'.toLink = t.toLink.disconnect)
    (h : Kept toMessage t t') : Change t (.call .disconnect) t'
  /-- The connection of a messenger is lost. -/
  | loses {e : Event M} {t' : History M} (i : ℕ)
    (hlink : t'.toLink = t.toLink.messengerLost i) (h : Kept toMessage t t') : Change t e t'
  /-- The thread does not start. -/
  | waits {e : Event M} {t' : History M} (hlink : t'.toLink = { t.toLink with signal := true })
    (h : Kept toMessage t t') : Change t e t'
  /-- The thread starts. -/
  | starts {e : Event M} {t' : History M}
    (hlink : t'.toLink = { t.toLink with signal := true, thread := .running, enabled := false })
    (h : Kept toMessage t t') : Change t e t'
  /-- The thread ends its attempt. -/
  | ends {e : Event M} {t' : History M} (succeeds : Bool)
    (hlink : t'.toLink = t.toLink.attemptEnds succeeds) (h : Kept toMessage t t') : Change t e t'
  /-- An attempt failed. -/
  | fails {e : Event M} {t' t₀ : History M} {a : Attempt M} (hbegins : Begins t e a t₀)
    (hclient : (t₀.ended a).client = false) (h : Sends toMessage True (t₀.failed a) t') :
    Change t e t'
  /-- An attempt succeeded. -/
  | connects {e : Event M} {t' t₀ t₁ : History M} {a : Attempt M} (hbegins : Begins t e a t₀)
    (hclient : (t₀.ended a).client = true) (hcommands : t.Commands toMessage = true)
    (hflush : Flushed toMessage (t₀.connected a) t₁
      (∀ r ∈ a.replies.take (t.cache.length - 1), Call.silent r.onEmpty = true))
    (h : Sends toMessage True { t₁ with enabled := false } t') : Change t e t'
  /-- An attempt succeeded, and the flush ended with an exception. -/
  | throws {e : Event M} {t' t₀ : History M} {a : Attempt M} (hbegins : Begins t e a t₀)
    (hclient : (t₀.ended a).client = true) (hcommands : t.Commands toMessage = false)
    (hflush : Flushed toMessage (t₀.connected a) t'
      (∀ r ∈ a.replies.take (t.cache.length - 1), Call.silent r.onEmpty = true)) :
    Change t e t'

/-- What the start of an attempt leaves: it only changes what is known of the thread. -/
structure Starts (t t₀ : History M) : Prop where
  /-- The messages. -/
  messages : t₀.cache = t.cache ∧ t₀.accepted = t.accepted ∧ t₀.undefined = t.undefined
  /-- The messengers. -/
  outputs : t₀.outputs = t.outputs ∧ t₀.messenger = t.messenger ∧ t₀.messengers = t.messengers
  /-- What is marked done. -/
  done : t₀.done = t.done ∧ t₀.implDone = t.implDone ∧ t₀.marked = t.marked
  /-- The timer. -/
  enabled : t₀.enabled = t.enabled

lemma Begins.starts {t t₀ : History M} {e : Event M} {a : Attempt M} (h : Begins t e a t₀) :
    Starts t t₀ := by
  cases h with
  | direct isRunning started a hthread =>
    exact ⟨⟨rfl, rfl, rfl⟩, ⟨rfl, rfl, rfl⟩, ⟨rfl, rfl, rfl⟩, rfl⟩
  | signalled a hsignal hsignalled =>
    exact ⟨⟨rfl, rfl, rfl⟩, ⟨rfl, rfl, rfl⟩, ⟨rfl, rfl, rfl⟩, rfl⟩

lemma Starts.sockets {t t₀ : History M} (h : Starts t t₀) : t₀.sockets = t.sockets := by
  rw [Connection.sockets, h.outputs.1]
  rfl

lemma Starts.handed {t t₀ : History M} (h : Starts t t₀) : t₀.handed = t.handed := by
  rw [Connection.handed, h.outputs.1]
  rfl

lemma Starts.open_ {t t₀ : History M} (h : Starts t t₀) (ht : t.Open) : t₀.Open := by
  obtain ⟨hdone, himpl, hmarked⟩ := h.done
  refine ⟨hdone.trans ht.done, himpl.trans ht.implDone, hmarked.trans ht.marked, fun i hi => ?_⟩
  exact (ht.messenger i (h.outputs.2.1 ▸ hi)).of_sockets h.sockets

lemma Starts.lines {t t₀ : History M} (h : Starts t t₀) (ht : t.Lines toMessage) :
    t₀.Lines toMessage := by
  rw [Connection.Lines, h.outputs.1]
  exact ht

/-- The end of an attempt, whether it failed or succeeded. -/
lemma Begins.change {t t₀ : History M} {e : Event M} {a : Attempt M} (h : Begins t e a t₀)
    (ht : t.Open) (ha : a.sends toMessage = true) :
    Change toMessage t e (t₀.threadDone toMessage a) := by
  have hcache : t₀.cache = t.cache := h.starts.messages.1
  have hopen := h.starts.open_ ht
  cases hclient : (t₀.ended a).client with
  | false => exact .fails h hclient (threadDone_failed hopen ha hclient)
  | true =>
    obtain ⟨t₁, hflush, hsends, hthrows⟩ := threadDone_connected hopen ha hclient
    rw [hcache] at hflush hsends hthrows
    cases hcommands : t.Commands toMessage with
    | true => exact .connects h hclient hcommands hflush (hsends hcommands)
    | false =>
      rw [hthrows hcommands]
      exact .throws h hclient hcommands hflush

lemma change_processTimeout {t : History M} (ht : t.Open) (isRunning started : Bool)
    {a : Attempt M} (ha : a.sends toMessage = true) :
    Change toMessage t (.processTimeout isRunning started a)
      (t.processTimeout toMessage isRunning started a) := by
  rw [processTimeout, if_neg (by simp [ht.done])]
  cases hthread : t.useThread with
  | false =>
    rw [if_neg (by simp), connect, if_neg (by simp [ht.implDone])]
    exact (Begins.direct isRunning started a hthread).change ht ha
  | true =>
    rw [if_pos rfl]
    rw [Link.backgroundConnect]
    rw [if_neg (by simp [ht.implDone])]
    split_ifs with hrunning hstarted
    · exact .sends (.refl t)
    · exact .starts rfl (.of_link t (.inr rfl))
    · exact .waits rfl (.of_link t (.inr rfl))

/-- What the messengers have in common stays when one of them changes in something else. -/
lemma map_set_same {β : Type*} {l : List (Messenger M)} {i : ℕ} {p p' : Messenger M}
    (hp : l[i]? = some p) {f : Messenger M → β} (h : f p' = f p) :
    (l.set i p').map f = l.map f := by
  obtain ⟨hi, rfl⟩ := List.getElem?_eq_some_iff.mp hp
  rw [List.map_set, h, ← List.map_set, List.set_getElem_self]

/-- What was handed over is the messages of the messengers. -/
lemma handed_of_map {t t' : History M}
    (h : t'.outputs.map (fun p => p.messages) = t.outputs.map fun p => p.messages) :
    t'.handed = t.handed := by
  rw [Connection.handed, List.flatMap_def, h, ← List.flatMap_def]
  rfl

/-- A messenger that sends what it has buffered keeps its socket, its messages and its lines. -/
lemma sends_wrote {t : History M} {i : ℕ} {p : Messenger M} (hp : t.outputs[i]? = some p)
    (w : WriteResult) :
    Sends toMessage True t { t with outputs := t.outputs.set i (p.wrote w) } := by
  have hhanded : ({ t with outputs := t.outputs.set i (p.wrote w) } : History M).handed =
      t.handed := handed_of_map (map_set_same hp rfl)
  refine ⟨rfl, rfl, map_set_same hp ?_, fun hlines q hq => ?_, [], (List.append_nil _).symm,
    fun _ => ⟨hhanded.trans (List.append_nil _).symm, rfl⟩,
    fun _ => ⟨hhanded, (List.append_nil _).symm⟩, fun _ => by simp⟩
  · exact (Link.OutputClass.frame_processWrite .tcpServerClient p.toOutput w).socket
  · rcases List.mem_or_eq_of_mem_set hq with hq | rfl
    · exact hlines q hq
    · exact (Link.OutputClass.faithful_processWrite .tcpServerClient
        (hlines p (List.mem_of_getElem? hp)) w).1

/-- A connection whose link changes after it sent nothing. -/
lemma Sends.kept {t t' : History M} (h : Sends toMessage True t t')
    (haccepted : t'.accepted = t.accepted) {link : Link} (hm : link.messenger = none) :
    Kept toMessage t { t' with toLink := link } := by
  obtain ⟨l, htaken, hyes, hno, -⟩ := h.messages
  obtain rfl : l = [] := by
    rw [haccepted] at htaken
    exact List.self_eq_append_right.mp htaken
  have hstays : t'.handed = t.handed ∧ t'.cache = t.cache := by
    cases hm : t.messenger with
    | none => simpa using hno hm
    | some i => simpa using hyes (by rw [hm]; rfl)
  exact ⟨h.undefined, .inl hm, hstays.2, hstays.1, haccepted, h.lines⟩

lemma change_messengerWrite {t : History M} (ht : t.Open) (i : ℕ) (w : WriteResult)
    {onEmpty : List (Call M)} (hsends : Call.sendsAll toMessage onEmpty = true) :
    Change toMessage t (.messengerWrite i w onEmpty) (t.messengerWrite toMessage i w onEmpty) := by
  rw [messengerWrite]
  cases hp : t.outputs[i]? with
  | none => exact .sends (.refl t)
  | some p =>
    have hwrote : Sends toMessage True t { t with outputs := t.outputs.set i (p.wrote w) } :=
      sends_wrote hp w
    have hopen := hwrote.open_ ht
    simp only
    split_ifs with herror hemptied
    · exact .loses i rfl (hwrote.kept rfl (Link.messengerLost_messenger ht.done i))
    · rw [Connection.messengerEmptyBuffer_of_open hopen]
      exact .sends ((hwrote.trans (sends_execAll _ hopen onEmpty hsends).1).mono
        fun _ => trivial)
    · exact .sends (hwrote.mono fun _ => trivial)

/-- Closing a socket changes nothing else. -/
lemma map_messages_close (l : List (Messenger M)) (i : ℕ) :
    (l.modify i Messenger.close).map (fun p => p.messages) = l.map fun p => p.messages := by
  induction l generalizing i with
  | nil => rw [List.modify_nil]
  | cons p l ih =>
    cases i with
    | zero => rfl
    | succ i => rw [List.modify_succ_cons, List.map_cons, List.map_cons, ih]

lemma faithful_close {l : List (Messenger M)}
    (h : ∀ p ∈ l, (p.session toMessage).Faithful) (i : ℕ) :
    ∀ p ∈ l.modify i Messenger.close, (p.session toMessage).Faithful := by
  induction l generalizing i with
  | nil => simp
  | cons p l ih =>
    rw [List.forall_mem_cons] at h
    cases i with
    | zero =>
      rw [List.modify_zero_cons, List.forall_mem_cons]
      exact ⟨⟨h.1.bytes, h.1.position, h.1.emptied⟩, h.2⟩
    | succ i =>
      rw [List.modify_succ_cons, List.forall_mem_cons]
      exact ⟨h.1, ih h.2 i⟩

/-- A lost connection keeps the messages, and its socket may be closed. -/
lemma kept_messengerLost {t : History M} (hdone : t.done = false) (i : ℕ) (hup : Bool) :
    Kept toMessage t { t with toConnection := t.toConnection.messengerLost i hup } := by
  have hnone := Link.messengerLost_messenger hdone i
  cases hup with
  | false => exact ⟨rfl, .inl hnone, rfl, rfl, rfl, id⟩
  | true =>
    exact ⟨rfl, .inl hnone, rfl, handed_of_map (map_messages_close t.outputs i), rfl,
      fun hlines => faithful_close hlines i⟩

/-- What an event does. -/
lemma step_change {t : History M} (ht : t.Open) (hundefined : t.undefined = false)
    {e : Event M} (he : e.plain toMessage = true) :
    Change toMessage t e (t.step toMessage e) := by
  rw [step.eq_def, if_neg (by simp [hundefined])]
  cases e with
  | call c =>
    cases c with
    | disconnect =>
      simp only [exec]
      exact .disconnects rfl (.of_link t (.inl t.toLink.disconnect_messenger))
    | sendMessage msg cache w onEmpty => exact .sends (sends_exec t ht _ he).1
    | markDone messenger => exact .sends (sends_exec t ht _ he).1
    | processEmptyBuffer => exact .sends (sends_exec t ht _ he).1
  | processTimeout isRunning started a => exact change_processTimeout ht isRunning started he
  | attemptEnds succeeds =>
    refine .ends succeeds rfl (.of_link t (.inr ?_))
    rw [Link.attemptEnds]
    split <;> rfl
  | signalRead a =>
    simp only [signalRead]
    split_ifs with h
    · exact (Begins.signalled a h.1 h.2).change ht he
    · exact .sends (.refl t)
  | messengerWrite i w onEmpty => exact change_messengerWrite ht i w he
  | messengerLost i hup => exact .loses i rfl (kept_messengerLost ht.done i hup)

lemma Kept.open_ {t t' : History M} (h : Kept toMessage t t') (ht : t.Open)
    (hdone : t'.done = t.done) (himpl : t'.implDone = t.implDone)
    (hmarked : t'.marked = t.marked) : t'.Open := by
  refine ⟨hdone.trans ht.done, himpl.trans ht.implDone, hmarked.trans ht.marked, fun i hi => ?_⟩
  rcases h.messenger with hnone | ⟨hsame, hsockets⟩
  · rw [hnone] at hi
    cases hi
  · exact (ht.messenger i (hsame ▸ hi)).of_sockets hsockets

/-- No event marks the connection done, and nothing undefined happens. -/
lemma Change.open_ {t t' : History M} {e : Event M} (h : Change toMessage t e t') (ht : t.Open) :
    t'.Open ∧ t'.undefined = t.undefined := by
  cases h with
  | sends h => exact ⟨h.open_ ht, h.undefined⟩
  | disconnects hlink h =>
    obtain ⟨-, -, -, -, hdone, himpl, hmarked⟩ := t.toLink.disconnect_spec
    exact ⟨h.open_ ht (hlink ▸ hdone) (hlink ▸ himpl) (hlink ▸ hmarked), h.undefined⟩
  | loses i hlink h =>
    rw [Link.messengerLost, Link.processLost, if_neg (by simp [ht.done])] at hlink
    generalize hs' : ({ t.toLink with messengers := t.messengers.filter (· ≠ i) } : Link) = link
      at hlink
    obtain ⟨-, -, -, -, hdone, himpl, hmarked⟩ := link.disconnect_spec
    subst hs'
    exact ⟨h.open_ ht (hlink ▸ hdone) (hlink ▸ himpl) (hlink ▸ hmarked), h.undefined⟩
  | waits hlink h =>
    exact ⟨h.open_ ht (hlink ▸ rfl) (hlink ▸ rfl) (hlink ▸ rfl), h.undefined⟩
  | starts hlink h =>
    exact ⟨h.open_ ht (hlink ▸ rfl) (hlink ▸ rfl) (hlink ▸ rfl), h.undefined⟩
  | ends succeeds hlink h =>
    unfold Link.attemptEnds at hlink
    refine ⟨h.open_ ht ?_ ?_ ?_, h.undefined⟩
    all_goals
      rw [hlink]
      split <;> rfl
  | fails hbegins hclient h =>
    exact ⟨h.open_ (open_failed (hbegins.starts.open_ ht) _),
      h.undefined.trans hbegins.starts.messages.2.2⟩
  | connects hbegins hclient hcommands hflush h =>
    have hopen :=
      (open_connected (hbegins.starts.open_ ht) _).of_link hflush.link hflush.sockets
    exact ⟨h.open_ ⟨hopen.done, hopen.implDone, hopen.marked,
        fun i hi => (hopen.messenger i hi).of_sockets rfl⟩,
      h.undefined.trans (hflush.undefined.trans hbegins.starts.messages.2.2)⟩
  | throws hbegins hclient hcommands hflush =>
    exact ⟨(open_connected (hbegins.starts.open_ ht) _).of_link hflush.link hflush.sockets,
      hflush.undefined.trans hbegins.starts.messages.2.2⟩

end History

end EventDispatcher.Permanent
