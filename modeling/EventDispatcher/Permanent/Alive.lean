import EventDispatcher.Permanent.Step

/-!
# A permanent connection comes back

A link is *alive* when it is connected, or its timer is enabled, or a background attempt is in
progress, and when it is not connected while its timer is enabled.  Every event keeps a link
alive, but for those that are not `Safe`: `disconnect()` drops the messenger and does not enable
the timer, an attempt that fails while there is a messenger enables the timer, and an attempt that
succeeds leaves it enabled when `to_message()` throws for a cached message.
-/

namespace EventDispatcher.Permanent

open Lib Buffer

namespace Link

/-- The messenger is set and in the communicator. -/
def Connected (s : Link) : Prop := ∃ i ∈ s.messengers, s.messenger = some i

instance (s : Link) : Decidable s.Connected :=
  inferInstanceAs (Decidable (∃ i ∈ s.messengers, s.messenger = some i))

/-- The thread tries to connect, or its end is still to be read. -/
def Attempting (s : Link) : Prop := s.signal = true ∧ (s.thread = .running ∨ 0 < s.signalled)

instance (s : Link) : Decidable s.Attempting :=
  inferInstanceAs (Decidable (s.signal = true ∧ (s.thread = .running ∨ 0 < s.signalled)))

/-- The connection is there or comes back, and the timer is only enabled when it is not there. -/
def Alive (s : Link) : Prop :=
  (s.Connected ∨ s.enabled = true ∨ s.Attempting) ∧ (s.Connected → s.enabled = false)

instance (s : Link) : Decidable s.Alive :=
  inferInstanceAs (Decidable ((s.Connected ∨ s.enabled = true ∨ s.Attempting) ∧
    (s.Connected → s.enabled = false)))

/-- The outcome of an attempt of the thread, when its end is read: an attempt that still runs
is waited for. -/
def outcome (s : Link) (succeeds : Bool) : Bool :=
  if s.thread = .running then succeeds else s.client

/-- What every event keeps when it is safe. -/
structure Steady (s : Link) : Prop where
  /-- The messenger is in the communicator. -/
  listed : ∀ i, s.messenger = some i → i ∈ s.messengers
  /-- The signal is in the communicator as long as the thread runs. -/
  thread : s.thread = .running → s.signal = true
  /-- The connection is there or comes back. -/
  alive : s.Alive

lemma connected_iff {s : Link} (hs : s.Steady) : s.Connected ↔ s.messenger ≠ none := by
  constructor
  · rintro ⟨i, -, hi⟩
    rw [hi]
    exact Option.some_ne_none i
  · intro h
    obtain ⟨i, hi⟩ := Option.ne_none_iff_exists'.mp h
    exact ⟨i, hs.listed i hi, hi⟩

lemma not_connected_of_none {s : Link} (h : s.messenger = none) : ¬ s.Connected := by
  rintro ⟨i, -, hi⟩
  rw [h] at hi
  cases hi

/-- A link without a messenger is alive when its timer is enabled. -/
lemma alive_of_enabled {s : Link} (hm : s.messenger = none) (henabled : s.enabled = true) :
    s.Alive :=
  ⟨.inr (.inl henabled), fun h => (not_connected_of_none hm h).elim⟩

/-! ### One lemma for each change of the link -/

lemma Steady.disconnect {s : Link} (hs : s.Steady) (hok : s.Connected → s.Attempting) :
    s.disconnect.Steady := by
  obtain ⟨henabled, hthread, hsignal, hsignalled, -⟩ := s.disconnect_spec
  refine ⟨?_, ?_, ?_, ?_⟩
  · intro i hi
    rw [disconnect_messenger] at hi
    cases hi
  · rw [hthread, hsignal]
    exact hs.thread
  · rw [Attempting]
    rw [henabled, hthread, hsignal, hsignalled]
    rcases hs.alive.1 with hconnected | h
    · exact .inr (.inr (hok hconnected))
    · exact .inr h
  · exact fun h => (not_connected_of_none s.disconnect_messenger h).elim

/-- A lost connection enables the timer. -/
lemma Steady.messengerLost {s : Link} (hs : s.Steady) (hdone : s.done = false) (i : ℕ) :
    (s.messengerLost i).Steady := by
  rw [Link.messengerLost, processLost, if_neg (by simp [hdone])]
  generalize hs' : ({ s with messengers := s.messengers.filter (· ≠ i) } : Link) = s'
  obtain ⟨-, hthread, hsignal, -⟩ := s'.disconnect_spec
  refine ⟨?_, ?_, alive_of_enabled s'.disconnect_messenger rfl⟩
  · intro j hj
    change s'.disconnect.messenger = some j at hj
    rw [disconnect_messenger] at hj
    cases hj
  · change s'.disconnect.thread = .running → s'.disconnect.signal = true
    rw [hthread, hsignal, ← hs']
    exact hs.thread

/-- The pipe of the thread is watched. -/
lemma Steady.waits {s : Link} (hs : s.Steady) : Steady { s with signal := true } := by
  refine ⟨hs.listed, fun _ => rfl, ?_, hs.alive.2⟩
  rcases hs.alive.1 with h | h | h
  · exact .inl h
  · exact .inr (.inl h)
  · exact .inr (.inr ⟨rfl, h.2⟩)

/-- A thread that runs takes the place of the timer. -/
lemma Steady.starts {s : Link} (hs : s.Steady) :
    Steady { s with signal := true, thread := .running, enabled := false } :=
  ⟨hs.listed, fun _ => rfl, .inr (.inr ⟨rfl, .inl rfl⟩), fun _ => rfl⟩

/-- The end of the thread is read later. -/
lemma Steady.attemptEnds {s : Link} (hs : s.Steady) (succeeds : Bool) :
    (s.attemptEnds succeeds).Steady := by
  unfold Link.attemptEnds
  split_ifs with hrunning
  · refine ⟨hs.listed, fun h => absurd h (by simp), .inr (.inr ?_), hs.alive.2⟩
    exact ⟨hs.thread hrunning, .inr (Nat.succ_pos _)⟩
  · exact hs

end Link

variable {M : Type} (toMessage : M → Option Str)

/-- What keeps the link alive at the end of an attempt: it does not fail while the connection is
up, and it does not succeed while the timer is enabled and a message without a command is cached. -/
def History.EndsWell (t : History M) (succeeds : Bool) : Prop :=
  if succeeds then t.enabled = true → t.Commands toMessage = true else ¬ t.toLink.Connected

instance (t : History M) (succeeds : Bool) : Decidable (t.EndsWell toMessage succeeds) :=
  inferInstanceAs (Decidable (if succeeds then t.enabled = true → t.Commands toMessage = true
    else ¬ t.toLink.Connected))

/-- The events that keep a link alive. -/
def Event.Safe (t : History M) : Event M → Prop
  | .call .disconnect => t.toLink.Connected → t.toLink.Attempting
  | .processTimeout _ _ a => t.useThread = false → t.EndsWell toMessage a.succeeds
  | .signalRead a =>
    t.signal = true → 0 < t.signalled → t.EndsWell toMessage (t.toLink.outcome a.succeeds)
  | _ => True

instance (t : History M) : DecidablePred (Event.Safe toMessage t : Event M → Prop)
  | .call .disconnect =>
    inferInstanceAs (Decidable (t.toLink.Connected → t.toLink.Attempting))
  | .processTimeout _ _ a =>
    inferInstanceAs (Decidable (t.useThread = false → t.EndsWell toMessage a.succeeds))
  | .signalRead a =>
    inferInstanceAs (Decidable (t.signal = true → 0 < t.signalled →
      t.EndsWell toMessage (t.toLink.outcome a.succeeds)))
  | .call (.sendMessage ..) | .call (.markDone _) | .call .processEmptyBuffer | .attemptEnds _
  | .messengerWrite .. | .messengerLost .. => inferInstanceAs (Decidable True)

namespace History

/-- The outcome that `thread_done()` looks at. -/
lemma ended_spec (t : History M) (a : Attempt M) :
    (t.ended a).client = t.toLink.outcome a.succeeds ∧ (t.ended a).thread = .idle ∧
      (t.ended a).messenger = t.messenger ∧ (t.ended a).messengers = t.messengers ∧
      (t.ended a).enabled = t.enabled := by
  unfold ended Link.stop Link.attemptEnds Link.outcome
  split_ifs with h
  · exact ⟨rfl, rfl, rfl, rfl, rfl⟩
  · exact ⟨rfl, rfl, rfl, rfl, rfl⟩

/-- What the event knows of the outcome. -/
lemma Begins.endsWell {t t₀ : History M} {e : Event M} {a : Attempt M} (h : Begins t e a t₀) :
    e.Safe toMessage t ↔ t.EndsWell toMessage (t₀.ended a).client := by
  rw [(ended_spec t₀ a).1]
  cases h with
  | direct isRunning started a hthread =>
    have houtcome : Link.outcome { t.toLink with client := a.succeeds } a.succeeds = a.succeeds :=
      ite_self _
    exact ⟨fun h => by rw [houtcome]; exact h hthread, fun h _ => by rwa [houtcome] at h⟩
  | signalled a hsignal hsignalled => exact ⟨fun h => h hsignal hsignalled, fun h _ _ => h⟩

/-- An attempt that failed leaves the link steady when there is no messenger. -/
lemma steady_failed {t : History M} (hm : t.messenger = none) (a : Attempt M) :
    (t.failed a).toLink.Steady := by
  obtain ⟨-, hthread, hmessenger, -⟩ := t.ended_spec a
  have hnone : (t.failed a).toLink.messenger = none := hmessenger.trans hm
  refine ⟨fun i hi => ?_, fun h => ?_, Link.alive_of_enabled hnone rfl⟩
  · rw [hnone] at hi
    cases hi
  · rw [show (t.failed a).toLink.thread = .idle from hthread] at h
    cases h

/-- An attempt that succeeded leaves the link steady once the timer is disabled. -/
lemma steady_connected {t : History M} {a : Attempt M} {link : Link}
    (hlink : link = { (t.connected a).toLink with enabled := false }) : link.Steady := by
  subst hlink
  obtain ⟨-, hthread, -, -⟩ := t.ended_spec a
  have hlisted : t.outputs.length ∈ (t.connected a).toLink.messengers := by simp [connected]
  refine ⟨fun i hi => ?_, fun h => ?_, .inl ⟨t.outputs.length, hlisted, rfl⟩, fun _ => rfl⟩
  · cases hi
    exact hlisted
  · rw [show (t.connected a).toLink.thread = .idle from hthread] at h
    cases h

/-- What holds in every state of a run of safe events. -/
structure Sound (t : History M) : Prop where
  /-- The connection is not marked done. -/
  open_ : t.Open
  /-- Nothing undefined happened. -/
  undefined : t.undefined = false
  /-- The connection is there or comes back. -/
  steady : t.toLink.Steady

lemma sound_new (useThread : Bool) : (new useThread : History M).Sound := by
  refine ⟨⟨rfl, rfl, rfl, by simp [new]⟩, rfl, ⟨by simp [new], by simp [new], ?_⟩⟩
  exact Link.alive_of_enabled rfl rfl

variable {toMessage}

/-- A safe event keeps the link steady. -/
lemma Change.steady {t t' : History M} {e : Event M} (h : Change toMessage t e t') (ht : t.Sound)
    (hok : e.Safe toMessage t) : t'.toLink.Steady := by
  cases h with
  | sends h =>
    rw [h.link]
    exact ht.steady
  | disconnects hlink _ =>
    rw [hlink]
    exact ht.steady.disconnect hok
  | loses i hlink _ =>
    rw [hlink]
    exact ht.steady.messengerLost ht.open_.done i
  | waits hlink _ =>
    rw [hlink]
    exact ht.steady.waits
  | starts hlink _ =>
    rw [hlink]
    exact ht.steady.starts
  | ends succeeds hlink _ =>
    rw [hlink]
    exact ht.steady.attemptEnds succeeds
  | fails hbegins hclient h =>
    rw [h.link]
    rw [hbegins.endsWell, hclient] at hok
    refine steady_failed (hbegins.starts.outputs.2.1.trans ?_) _
    -- an attempt may only fail while there is no messenger
    by_contra hmessenger
    exact hok ((Link.connected_iff ht.steady).mpr hmessenger)
  | @connects e t' t₀ t₁ a hbegins hclient hcommands hflush h =>
    refine steady_connected (t := t₀) (a := a) (h.link.trans ?_)
    change ({ t₁.toLink with enabled := false } : Link) = _
    rw [hflush.link]
  | @throws e t' t₀ a hbegins hclient hcommands hflush =>
    rw [hbegins.endsWell, hclient] at hok
    -- the timer is not enabled, although `process_connected()` is not called
    have hdisabled : (t₀.connected a).enabled = false := by
      obtain ⟨-, -, -, -, henabled⟩ := t₀.ended_spec a
      refine (henabled.trans hbegins.starts.enabled).trans ?_
      refine Bool.eq_false_iff.mpr fun h => ?_
      rw [hok h] at hcommands
      cases hcommands
    refine steady_connected (t := t₀) (a := a) (hflush.link.trans ?_)
    rw [← hdisabled]

/-- The end of an attempt that leaves the link alive ended well. -/
lemma endsWell_of_threadDone {t t₀ : History M} (ht : t.Sound) {e : Event M} {a : Attempt M}
    (hbegins : Begins t e a t₀) (ha : a.sends toMessage = true)
    (halive : (t₀.threadDone toMessage a).toLink.Alive) : e.Safe toMessage t := by
  rw [hbegins.endsWell]
  have hstarts := hbegins.starts
  have hopen := hstarts.open_ ht.open_
  obtain ⟨-, -, hm, hmessengers, henabled⟩ := t₀.ended_spec a
  cases hclient : (t₀.ended a).client with
  | false =>
    -- a failed attempt leaves the messenger, and the timer is enabled
    rintro ⟨i, hi, hmi⟩
    rw [(threadDone_failed hopen ha hclient).link] at halive
    have hstill : (t₀.failed a).toLink.Connected :=
      ⟨i, (hmessengers.trans hstarts.outputs.2.2).symm ▸ hi,
        (hm.trans hstarts.outputs.2.1).trans hmi⟩
    cases halive.2 hstill
  | true =>
    intro hon
    obtain ⟨t₁, hflush, -, hthrows⟩ := threadDone_connected hopen ha hclient
    rw [Commands, ← hstarts.messages.1]
    refine Bool.not_eq_false _ ▸ fun hcommands => ?_
    rw [hthrows hcommands, hflush.link] at halive
    have hup : (t₀.connected a).toLink.Connected :=
      ⟨t₀.outputs.length, by simp [connected], rfl⟩
    have hoff : (t₀.ended a).enabled = false := halive.2 hup
    rw [henabled, hstarts.enabled, hon] at hoff
    cases hoff

/-- An event that is not safe leaves the link without a way back, or connected with its timer
enabled. -/
lemma safe_of_alive {t : History M} (ht : t.Sound) {e : Event M} (he : e.plain toMessage = true)
    (halive : (t.step toMessage e).toLink.Alive) : e.Safe toMessage t := by
  rw [step.eq_def, if_neg (by simp [ht.undefined])] at halive
  cases e with
  | call c =>
    cases c with
    | disconnect =>
      intro hconnected
      simp only [exec] at halive
      obtain ⟨henabled, hthread, hsignal, hsignalled, -⟩ := t.toLink.disconnect_spec
      rcases halive.1 with h | h | h
      · exact (Link.not_connected_of_none t.toLink.disconnect_messenger h).elim
      · rw [henabled, ht.steady.alive.2 hconnected] at h
        cases h
      · rwa [Link.Attempting, hthread, hsignal, hsignalled] at h
    | sendMessage msg cache w onEmpty => trivial
    | markDone messenger => trivial
    | processEmptyBuffer => trivial
  | processTimeout isRunning started a =>
    intro hthread
    simp only [processTimeout] at halive
    rw [if_neg (by simp [ht.open_.done]), if_neg (by simp [hthread]), connect,
      if_neg (by simp [ht.open_.implDone])] at halive
    exact endsWell_of_threadDone ht (.direct isRunning started a hthread) he halive hthread
  | attemptEnds succeeds => trivial
  | signalRead a =>
    intro hsignal hsignalled
    simp only [signalRead, if_pos (And.intro hsignal hsignalled)] at halive
    exact endsWell_of_threadDone ht (.signalled a hsignal hsignalled) he halive hsignal hsignalled
  | messengerWrite i w onEmpty => trivial
  | messengerLost i hup => trivial

variable (toMessage) in
/-- In a run whose callbacks only send messages with a command, the permanent connection is there
or comes back in every state, and is not there while its timer is enabled, exactly when its events
are safe. -/
theorem never_stuck_iff (useThread : Bool) {l : List (Event M)}
    (hplain : ∀ e ∈ l, e.plain toMessage = true) :
    ((∀ p ∈ visited (step toMessage) (new useThread) l, p.1.toLink.Alive) ∧
        (runFrom (step toMessage) (new useThread) l).toLink.Alive) ↔
      ∀ p ∈ visited (step toMessage) (new useThread) l, p.2.Safe toMessage p.1 := by
  have hstep (t : History M) (e : Event M) (ht : t.Sound) (he : e.plain toMessage = true)
      (hok : e.Safe toMessage t) : (t.step toMessage e).Sound := by
    have hchange := step_change ht.open_ ht.undefined he
    obtain ⟨hopen, hundefined⟩ := hchange.open_ ht.open_
    exact ⟨hopen, hundefined.trans ht.undefined, hchange.steady ht hok⟩
  have halive (t : History M) (ht : t.Sound) : t.toLink.Alive := ht.steady.alive
  exact holds_along_iff hstep halive (fun t e ht he => safe_of_alive ht he)
    (sound_new useThread) hplain

/-- A connection that is made after an attempt that failed, and lost by a hang up. -/
theorem never_stuck_iff_lost :
    (runFrom (step textOf) (new false) [.processTimeout false false ⟨false, [], [], []⟩,
      .call (.sendMessage ['a'] true ⟨none, eagain⟩ []),
      .processTimeout false false ⟨true, [], [], []⟩, .messengerLost 0 true]).toLink.Alive :=
  ((never_stuck_iff textOf false (by decide)).mpr (by decide)).2

/-- A user who disconnects without marking the connection done leaves it stuck: there is no
messenger, the timer is disabled, and nothing tries to connect.  A message without a command in
the cache leaves the timer of a connection that is up enabled. -/
theorem not_never_stuck :
    (¬ ∀ l : List (Event Str), (∀ e ∈ l, e.plain textOf = true) →
      (runFrom (step textOf) (new false : History Str) l).toLink.Alive) ∧
    ¬ (runFrom (step textOf) (new false) [.call (.sendMessage [] true ⟨none, eagain⟩ []),
      .processTimeout false false ⟨true, [], [], []⟩]).toLink.Alive := by
  refine ⟨fun h => ?_, by decide⟩
  have halive := h [.processTimeout false false ⟨true, [], [], []⟩, .call .disconnect] (by decide)
  exact absurd halive (by decide)

end History

end EventDispatcher.Permanent
