import EventDispatcher.Permanent.Step

/-!
# The order of the messages

The messages that a permanent connection takes are handed to its messengers, and wait in the
cache as long as there is none, or behind a message for which `to_message()` throws.  Nothing is
lost or duplicated (`Counted`).  A *batch* is a cache that was flushed, each message with those
that its callback sent: they go out at once, before the rest of the cache.  When all the messages
have a command, what was handed over is the batches one after the other, and the order is the one
of the calls but for the messages of those callbacks (`Batched`).
-/

namespace EventDispatcher.Permanent

open Lib Buffer

variable {M : Type} {toMessage : M → Option Str}

/-- The messages of a batch as they are handed over. -/
def batchHanded (b : List (M × List M)) : List M := b.flatMap fun p => p.1 :: p.2

/-- The messages of a batch as they are taken: the cache comes first. -/
def batchAccepted (b : List (M × List M)) : List M := b.map Prod.fst ++ b.flatMap Prod.snd

/-- Only the last callback sends messages. -/
def QuietBatch (b : List (M × List M)) : Prop := ∀ p ∈ b.dropLast, p.2 = []

lemma batchHanded_perm (b : List (M × List M)) : (batchHanded b).Perm (batchAccepted b) := by
  induction b with
  | nil => exact .refl _
  | cons p b ih =>
    have hrest : (p.2 ++ batchHanded b).Perm (b.map Prod.fst ++ (p.2 ++ b.flatMap Prod.snd)) := by
      refine (ih.append_left p.2).trans ?_
      rw [batchAccepted, ← List.append_assoc, ← List.append_assoc]
      exact List.perm_append_comm.append_right _
    exact hrest.cons p.1

/-- A quiet batch is handed over in the order of the calls. -/
lemma batchHanded_of_quiet {b : List (M × List M)} (hb : QuietBatch b) :
    batchHanded b = batchAccepted b := by
  induction b with
  | nil => rfl
  | cons p b ih =>
    cases b with
    | nil => simp [batchHanded, batchAccepted]
    | cons q b =>
      have hp : p.2 = [] := hb p (by simp)
      have htail : batchHanded (q :: b) = batchAccepted (q :: b) :=
        ih fun r hr => hb r (by simp [hr])
      rw [batchHanded, List.flatMap_cons, ← batchHanded, htail, batchAccepted, batchAccepted, hp]
      simp [hp]

/-- The event leaves the messages of the callbacks behind those that are cached: when it flushes
`n` messages, only the callback of the last one sends messages. -/
def Event.Quiet (n : ℕ) : Event M → Prop
  | .processTimeout _ _ a | .signalRead a =>
    ∀ r ∈ a.replies.take (n - 1), Call.silent r.onEmpty = true
  | _ => True

instance (n : ℕ) : DecidablePred (Event.Quiet n : Event M → Prop)
  | .processTimeout _ _ a | .signalRead a =>
    inferInstanceAs (Decidable (∀ r ∈ a.replies.take (n - 1), Call.silent r.onEmpty = true))
  | .call _ | .attemptEnds _ | .messengerWrite .. | .messengerLost .. =>
    inferInstanceAs (Decidable True)

namespace History

/-! ### Nothing is lost or duplicated -/

variable (toMessage) in
/-- The messages that were taken are those that were handed over and those in the cache. -/
structure Counted (t : History M) : Prop where
  /-- Each message is handed over or cached, once. -/
  perm : (t.handed ++ t.cache).Perm t.accepted
  /-- The cached messages are in order. -/
  cache : t.cache.Sublist t.accepted
  /-- The messengers send the lines of their messages. -/
  lines : t.Lines toMessage
  /-- While there is a messenger, what is cached waits for a message without a command. -/
  waits : t.messenger.isSome = true → ∀ msg ∈ t.cache.head?, toMessage msg = none

/-- The messages stay, and there is no new messenger. -/
lemma Counted.kept {t t' : History M} (ht : t.Counted toMessage) (h : Kept toMessage t t') :
    t'.Counted toMessage := by
  refine ⟨?_, ?_, h.lines ht.lines, fun hsome => ?_⟩
  · rw [h.handed, h.cache, h.accepted]
    exact ht.perm
  · rw [h.cache, h.accepted]
    exact ht.cache
  · rw [h.cache]
    rcases h.messenger with hnone | ⟨hsame, -⟩
    · simp [hnone] at hsome
    · exact ht.waits (hsame ▸ hsome)

/-- The messages that are sent are handed over or cached. -/
lemma Counted.sends {commands : Prop} {t t' : History M} (ht : t.Counted toMessage)
    (h : Sends toMessage commands t t') : t'.Counted toMessage := by
  obtain ⟨l, haccepted, hyes, hno, -⟩ := h.messages
  have hmessenger : t'.messenger = t.messenger := congrArg Link.messenger h.link
  cases hm : t.messenger with
  | none =>
    obtain ⟨hh, hc⟩ := hno hm
    refine ⟨?_, ?_, h.lines ht.lines, fun hsome => ?_⟩
    · rw [hh, hc, haccepted, ← List.append_assoc]
      exact ht.perm.append_right l
    · rw [hc, haccepted]
      exact ht.cache.append_right l
    · rw [hmessenger, hm] at hsome
      cases hsome
  | some i =>
    obtain ⟨hh, hc⟩ := hyes (by rw [hm]; rfl)
    refine ⟨?_, ?_, h.lines ht.lines, fun _ => ?_⟩
    · rw [hh, hc, haccepted, List.append_assoc]
      have hswap : (t.handed ++ (l ++ t.cache)).Perm (t.handed ++ t.cache ++ l) := by
        rw [List.append_assoc]
        exact List.perm_append_comm.append_left _
      exact hswap.trans (ht.perm.append_right l)
    · rw [hc, haccepted]
      exact ht.cache.trans (List.sublist_append_left _ _)
    · rw [hc]
      exact ht.waits (by rw [hm]; rfl)

/-- The new messenger has no message yet. -/
lemma handed_connected (t : History M) (a : Attempt M) : (t.connected a).handed = t.handed := by
  simp [connected, Connection.handed, newMessenger]

/-- A flush hands over the first cached messages, and those of the callbacks. -/
lemma Counted.flushed {t t₀ t' : History M} {a : Attempt M} {quiet : Prop}
    (ht : t.Counted toMessage) (hstarts : Starts t t₀)
    (h : Flushed toMessage (t₀.connected a) t' quiet) : t'.Counted toMessage := by
  obtain ⟨batch, hfst, hh, ha, -⟩ := h.messages
  have hcache : t'.cache = t.cache.dropWhile fun msg => (toMessage msg).isSome := by
    rw [← hstarts.messages.1]
    exact h.cache
  have htaken : batch.map Prod.fst = t.cache.takeWhile fun msg => (toMessage msg).isSome := by
    rw [← hstarts.messages.1]
    exact hfst
  have haccepted : t'.accepted = t.accepted ++ batch.flatMap Prod.snd := by
    rw [← hstarts.messages.2.1]
    exact ha
  rw [handed_connected, hstarts.handed] at hh
  refine ⟨?_, ?_, h.lines (lines_connected a (hstarts.lines ht.lines)), fun _ msg hmsg => ?_⟩
  · have hbatch := (batchHanded_perm batch).append_right t'.cache
    rw [batchAccepted, htaken, hcache] at hbatch
    rw [hh, haccepted, hcache, List.append_assoc]
    -- the messages of the callbacks go behind those that stay in the cache
    have hcached : (t.handed ++ ((t.cache.takeWhile fun msg => (toMessage msg).isSome) ++
        batch.flatMap Prod.snd ++ t.cache.dropWhile fun msg => (toMessage msg).isSome)).Perm
        (t.handed ++ t.cache ++ batch.flatMap Prod.snd) := by
      conv_rhs => rw [← List.takeWhile_append_dropWhile (p := fun msg => (toMessage msg).isSome)
        (l := t.cache)]
      rw [List.append_assoc, List.append_assoc, List.append_assoc]
      exact (List.perm_append_comm.append_left _).append_left _
    exact ((hbatch.append_left _).trans hcached).trans (ht.perm.append_right _)
  · rw [hcache, haccepted]
    exact ((List.dropWhile_sublist _).trans ht.cache).trans (List.sublist_append_left _ _)
  · rw [hcache] at hmsg
    have hbad := List.head?_dropWhile_not (fun msg => (toMessage msg).isSome) t.cache
    rw [Option.mem_def.mp hmsg] at hbad
    simpa using hbad

variable (toMessage) in
/-- An attempt that failed keeps the messages and the messenger. -/
lemma Starts.kept_failed {t t₀ : History M} (h : Starts t t₀) (ht : t.Open) (a : Attempt M) :
    Kept toMessage t (t₀.failed a) := by
  obtain ⟨-, -, -, hm, -⟩ := open_ended (h.open_ ht) a
  exact ⟨h.messages.2.2, .inr ⟨hm.trans h.outputs.2.1, h.sockets⟩, h.messages.1, h.handed,
    h.messages.2.1, h.lines⟩

variable (toMessage) in
/-- Disabling the timer keeps the messages and the messenger. -/
lemma kept_disabled (t : History M) : Kept toMessage t { t with enabled := false } :=
  ⟨rfl, .inr ⟨rfl, rfl⟩, rfl, rfl, rfl, id⟩

/-- Every event keeps the count. -/
lemma Change.counted {t t' : History M} {e : Event M} (h : Change toMessage t e t')
    (hopen : t.Open) (ht : t.Counted toMessage) : t'.Counted toMessage := by
  cases h with
  | sends h => exact ht.sends h
  | disconnects hlink h => exact ht.kept h
  | loses i hlink h => exact ht.kept h
  | waits hlink h => exact ht.kept h
  | starts hlink h => exact ht.kept h
  | ends succeeds hlink h => exact ht.kept h
  | fails hbegins hclient h =>
    exact (ht.kept (hbegins.starts.kept_failed toMessage hopen _)).sends h
  | connects hbegins hclient hcommands hflush h =>
    exact ((ht.flushed hbegins.starts hflush).kept (kept_disabled toMessage _)).sends h
  | throws hbegins hclient hcommands hflush => exact ht.flushed hbegins.starts hflush

/-! ### The batches -/

/-- What was handed over are batches with `Q`; what was taken are these and the cache. -/
structure Batched (Q : List (M × List M) → Prop) (t : History M) : Prop where
  /-- Nothing is cached while there is a messenger. -/
  cache : t.messenger.isSome = true → t.cache = []
  /-- The batches. -/
  batches : ∃ bs : List (List (M × List M)), (∀ b ∈ bs, Q b) ∧
    t.handed = bs.flatMap batchHanded ∧ t.accepted = bs.flatMap batchAccepted ++ t.cache

variable {Q : List (M × List M) → Prop}

/-- The messages stay, and there is no new messenger. -/
lemma Batched.kept {t t' : History M} (ht : t.Batched Q) (h : Kept toMessage t t') :
    t'.Batched Q := by
  refine ⟨fun hsome => ?_, ?_⟩
  · rw [h.cache]
    rcases h.messenger with hnone | ⟨hsame, -⟩
    · simp [hnone] at hsome
    · exact ht.cache (hsame ▸ hsome)
  · rw [h.handed, h.accepted, h.cache]
    exact ht.batches

/-- Each message that is sent while there is a messenger is a batch of its own. -/
lemma Batched.sends {commands : Prop} {t t' : History M} (ht : t.Batched Q)
    (hone : ∀ msg, Q [(msg, [])]) (h : Sends toMessage commands t t') : t'.Batched Q := by
  obtain ⟨l, haccepted, hyes, hno, -⟩ := h.messages
  obtain ⟨bs, hQ, hhanded, htaken⟩ := ht.batches
  have hmessenger : t'.messenger = t.messenger := congrArg Link.messenger h.link
  cases hm : t.messenger with
  | none =>
    obtain ⟨hh, hc⟩ := hno hm
    refine ⟨fun hsome => ?_, bs, hQ, hh.trans hhanded, ?_⟩
    · rw [hmessenger, hm] at hsome
      cases hsome
    · rw [haccepted, htaken, hc, List.append_assoc]
  | some i =>
    obtain ⟨hh, hc⟩ := hyes (by rw [hm]; rfl)
    have hempty : t.cache = [] := ht.cache (by rw [hm]; rfl)
    refine ⟨fun _ => hc.trans hempty, bs ++ l.map fun msg => [(msg, [])], fun b hb => ?_, ?_, ?_⟩
    · rcases List.mem_append.mp hb with hb | hb
      · exact hQ b hb
      · obtain ⟨msg, -, rfl⟩ := List.mem_map.mp hb
        exact hone msg
    · rw [hh, hhanded, List.flatMap_append, List.flatMap_map]
      simp [batchHanded]
    · rw [haccepted, htaken, hc, hempty, List.flatMap_append, List.flatMap_map]
      simp [batchAccepted]

/-- A cache that is flushed is a batch. -/
lemma Batched.flushed {t t₀ t' : History M} {a : Attempt M} {quiet : Prop} (ht : t.Batched Q)
    (hstarts : Starts t t₀) (hcommands : t.Commands toMessage = true)
    (h : Flushed toMessage (t₀.connected a) t' quiet)
    (hQ : ∀ b, (quiet → QuietBatch b) → Q b) : t'.Batched Q := by
  -- the messages of the callbacks were taken after the cached ones
  obtain ⟨batch, hfst, hh, ha, hquiet⟩ := h.messages
  obtain ⟨bs, hbs, hhanded, htaken⟩ := ht.batches
  have hall : ∀ msg ∈ (t₀.connected a).cache, (toMessage msg).isSome = true := by
    change ∀ msg ∈ t₀.cache, _
    rw [hstarts.messages.1]
    exact List.all_eq_true.mp hcommands
  have hcached : batch.map Prod.fst = t.cache := by
    rw [hfst, List.takeWhile_eq_self_iff.mpr hall]
    exact hstarts.messages.1
  have hempty : t'.cache = [] := by
    rw [h.cache, List.dropWhile_eq_nil_iff.mpr hall]
  refine ⟨fun _ => hempty, bs ++ [batch], fun b hb => ?_, ?_, ?_⟩
  · rcases List.mem_append.mp hb with hb | hb
    · exact hbs b hb
    · rw [List.mem_singleton.mp hb]
      exact hQ batch hquiet
  · rw [hh, handed_connected, hstarts.handed, hhanded, List.flatMap_append,
      List.flatMap_singleton]
    rfl
  · have hbefore : (t₀.connected a).accepted = bs.flatMap batchAccepted ++ t.cache :=
      hstarts.messages.2.1.trans htaken
    rw [ha, hbefore, hempty, ← hcached, List.flatMap_append, List.flatMap_singleton,
      List.append_nil, batchAccepted, List.append_assoc]

/-- Every event keeps the batches; a flush adds one. -/
lemma Change.batched {t t' : History M} {e : Event M} (h : Change toMessage t e t')
    (hopen : t.Open) (ht : t.Batched Q) (hall : t.Commands toMessage = true)
    (hone : ∀ msg, Q [(msg, [])])
    (hflushed : ∀ b, (e.Quiet t.cache.length → QuietBatch b) → Q b) : t'.Batched Q := by
  cases h with
  | sends h => exact ht.sends hone h
  | disconnects hlink h => exact ht.kept h
  | loses i hlink h => exact ht.kept h
  | waits hlink h => exact ht.kept h
  | starts hlink h => exact ht.kept h
  | ends succeeds hlink h => exact ht.kept h
  | fails hbegins hclient h =>
    exact (ht.kept (hbegins.starts.kept_failed toMessage hopen _)).sends hone h
  | @connects e t' t₀ t₁ a hbegins hclient hcommands hflush h =>
    have hbatched : t₁.Batched Q := by
      refine ht.flushed hbegins.starts hcommands hflush fun b hb => hflushed b fun hquiet => hb ?_
      cases hbegins with
      | direct isRunning started a hthread => exact hquiet
      | signalled a hsignal hsignalled => exact hquiet
    exact (hbatched.kept (kept_disabled toMessage t₁)).sends hone h
  | throws hbegins hclient hcommands hflush =>
    rw [hall] at hcommands
    cases hcommands

/-- Messages with a command are sent, so only such messages are cached. -/
lemma Sends.commands {commands : Prop} {t t' : History M} (h : Sends toMessage commands t t')
    (hc : commands) (ht : t.Commands toMessage = true) : t'.Commands toMessage = true := by
  obtain ⟨l, -, hyes, hno, hall⟩ := h.messages
  rw [Commands]
  cases hm : t.messenger with
  | none =>
    rw [(hno hm).2, List.all_append, Bool.and_eq_true]
    exact ⟨ht, List.all_eq_true.mpr (hall hc)⟩
  | some i =>
    rw [(hyes (by rw [hm]; rfl)).2]
    exact ht

/-- A flush empties a cache whose messages have a command. -/
lemma Flushed.commands {t t' : History M} {quiet : Prop} (h : Flushed toMessage t t' quiet)
    (ht : t.Commands toMessage = true) : t'.Commands toMessage = true := by
  rw [Commands, h.cache, List.dropWhile_eq_nil_iff.mpr (List.all_eq_true.mp ht)]
  rfl

/-- A message with a command is the only thing that an event caches. -/
lemma Change.commands {t t' : History M} {e : Event M} (h : Change toMessage t e t')
    (he : e.hasCommand toMessage = true) (ht : t.Commands toMessage = true) :
    t'.Commands toMessage = true := by
  have hkept (t₁ : History M) (hcache : t₁.cache = t.cache) : t₁.Commands toMessage = true := by
    rw [Commands, hcache]
    exact ht
  cases h with
  | sends h => exact h.commands he ht
  | disconnects hlink h => exact hkept _ h.cache
  | loses i hlink h => exact hkept _ h.cache
  | waits hlink h => exact hkept _ h.cache
  | starts hlink h => exact hkept _ h.cache
  | ends succeeds hlink h => exact hkept _ h.cache
  | @fails e t' t₀ a hbegins hclient h =>
    exact h.commands trivial (hkept (t₀.failed a) hbegins.starts.messages.1)
  | @connects e t' t₀ t₁ a hbegins hclient hcommands hflush h =>
    exact h.commands trivial
      (hflush.commands (hkept (t₀.connected a) hbegins.starts.messages.1))
  | @throws e t' t₀ a hbegins hclient hcommands hflush =>
    exact hflush.commands (hkept (t₀.connected a) hbegins.starts.messages.1)

/-! ### Runs -/

/-- What holds in every state of a run. -/
structure Accounted (toMessage : M → Option Str) (t : History M) : Prop where
  /-- The connection is not marked done. -/
  open_ : t.Open
  /-- Nothing undefined happened. -/
  undefined : t.undefined = false
  /-- The messages are counted. -/
  counted : t.Counted toMessage

/-- What holds too in a run whose messages all have a command. -/
structure Ordered (toMessage : M → Option Str) (Q : List (M × List M) → Prop) (t : History M) :
    Prop extends Accounted toMessage t where
  /-- The cached messages have a command. -/
  commands : t.Commands toMessage = true
  /-- What was handed over are batches. -/
  batched : t.Batched Q

lemma ordered_new (useThread : Bool) : (new useThread : History M).Ordered toMessage Q := by
  refine ⟨⟨⟨rfl, rfl, rfl, by simp [new]⟩, rfl, ⟨.refl _, .refl _, ?_, by simp [new]⟩⟩, rfl,
    by simp [new], [], by simp, rfl, rfl⟩
  simp [new, Connection.Lines]

/-- An event keeps the account. -/
lemma Accounted.step {t : History M} (ht : t.Accounted toMessage) {e : Event M}
    (he : e.plain toMessage = true) : (t.step toMessage e).Accounted toMessage := by
  have hchange := step_change ht.open_ ht.undefined he
  obtain ⟨hopen, hundefined⟩ := hchange.open_ ht.open_
  exact ⟨hopen, hundefined.trans ht.undefined, hchange.counted ht.open_ ht.counted⟩

/-- What is kept by the events whose flushes only make batches with `Q`. -/
lemma ordered_of_run (hone : ∀ msg, Q [(msg, [])]) (useThread : Bool) {l : List (Event M)}
    (hplain : ∀ e ∈ l, e.plain toMessage = true) (hcommand : ∀ e ∈ l, e.hasCommand toMessage = true)
    (hflushed : ∀ p ∈ visited (step toMessage) (new useThread) l,
      ∀ b, (p.2.Quiet p.1.cache.length → QuietBatch b) → Q b) :
    (runFrom (step toMessage) (new useThread) l).Ordered toMessage Q := by
  have hstep (t : History M) (e : Event M) (ht : t.Ordered toMessage Q)
      (he : e.plain toMessage = true ∧ e.hasCommand toMessage = true ∧
        ∀ b, (e.Quiet t.cache.length → QuietBatch b) → Q b) :
      (t.step toMessage e).Ordered toMessage Q := by
    have hchange := step_change ht.open_ ht.undefined he.1
    exact ⟨ht.toAccounted.step he.1, hchange.commands he.2.1 ht.commands,
      hchange.batched ht.open_ ht.batched ht.commands hone he.2.2⟩
  exact (invariant_of_visited hstep (ordered_new useThread) fun p hp =>
    ⟨hplain _ (mem_of_mem_visited hp), hcommand _ (mem_of_mem_visited hp), hflushed p hp⟩).2

variable (toMessage) in
/-- The messages that a permanent connection takes are handed to its messengers, each once, and
wait in the cache in the order of the calls; each messenger has sent or buffered the lines of the
messages that were handed to it.  While there is a messenger only a message for which
`to_message()` throws keeps messages in the cache.  When all the messages have a command, what was
handed over are batches, in each of which the messages that a callback sent while the cache was
flushed follow the message it was called for, and the order is the order of the calls when only
the callback of the last message of a cache sends messages. -/
theorem handed_over (useThread : Bool) {l : List (Event M)}
    (hplain : ∀ e ∈ l, e.plain toMessage = true) :
    let t := runFrom (step toMessage) (new useThread) l
    (t.handed ++ t.cache).Perm t.accepted ∧ t.cache.Sublist t.accepted ∧
      (∀ p ∈ t.outputs, (p.session toMessage).Faithful) ∧
      (t.messenger.isSome = true → ∀ msg ∈ t.cache.head?, toMessage msg = none) ∧
      ((∀ e ∈ l, e.hasCommand toMessage = true) →
        (∃ bs : List (List (M × List M)), t.handed = bs.flatMap batchHanded ∧
          t.accepted = bs.flatMap batchAccepted ++ t.cache) ∧
        (t.messenger.isSome = true → t.cache = []) ∧
        ((∀ p ∈ visited (step toMessage) (new useThread) l, p.2.Quiet p.1.cache.length) →
          t.handed ++ t.cache = t.accepted)) := by
  intro t
  have hstep (t : History M) (e : Event M) (ht : t.Accounted toMessage)
      (he : e.plain toMessage = true) : (t.step toMessage e).Accounted toMessage := ht.step he
  have hnew : (new useThread : History M).Ordered toMessage fun _ => True := ordered_new useThread
  have hcounted : t.Counted toMessage := (invariant_of_visited hstep hnew.toAccounted fun p hp =>
    hplain _ (mem_of_mem_visited hp)).2.counted
  refine ⟨hcounted.perm, hcounted.cache, hcounted.lines, hcounted.waits, fun hcommand => ?_⟩
  have hall : t.Batched fun _ => True :=
    (ordered_of_run (fun _ => trivial) useThread hplain hcommand fun _ _ _ _ => trivial).batched
  obtain ⟨bs, -, hhanded, haccepted⟩ := hall.batches
  refine ⟨⟨bs, hhanded, haccepted⟩, hall.cache, fun hquiet => ?_⟩
  have hordered : t.Batched QuietBatch :=
    (ordered_of_run (fun msg => by simp [QuietBatch]) useThread hplain hcommand
      fun p hp b hb => hb (hquiet p hp)).batched
  obtain ⟨bs, hbs, hhanded, haccepted⟩ := hordered.batches
  rw [hhanded, haccepted]
  congr 1
  exact List.flatMap_congr fun b hb => batchHanded_of_quiet (hbs b hb)

/-- Two messages that wait in the cache, an attempt that fails, and one that succeeds while the
callback of the second message sends a third one. -/
def cachedRun : List (Event Str) :=
  [.call (.sendMessage ['a'] true ⟨none, eagain⟩ []),
    .processTimeout false false ⟨false, [], [], []⟩,
    .call (.sendMessage ['b'] true ⟨none, eagain⟩ []),
    .processTimeout false false ⟨true, [⟨⟨some 2, 0⟩, []⟩,
      ⟨⟨some 2, 0⟩, [.sendMessage ['c'] true ⟨some 2, 0⟩ []]⟩], [], []⟩]

/-- The three messages are handed over in the order of the calls. -/
theorem handed_over_cached :
    let t := runFrom (step textOf) (new false) cachedRun
    t.handed = [['a'], ['b'], ['c']] ∧ t.handed ++ t.cache = t.accepted :=
  ⟨by decide +kernel,
    ((handed_over textOf false (by decide)).2.2.2.2 (by decide)).2.2 (by decide +kernel)⟩

/-- A message that the callback of the first of two cached messages sends overtakes the second. -/
theorem not_handed_over_in_order :
    ¬ ∀ l : List (Event Str), (∀ e ∈ l, e.plain textOf = true) →
      let t := runFrom (step textOf) (new false : History Str) l
      t.messenger.isSome = true → t.handed = t.accepted := by
  intro h
  have horder := h [.call (.sendMessage ['a'] true ⟨none, eagain⟩ []),
    .call (.sendMessage ['b'] true ⟨none, eagain⟩ []),
    .processTimeout false false ⟨true, [⟨⟨some 2, 0⟩,
      [.sendMessage ['c'] true ⟨some 2, 0⟩ []]⟩, ⟨⟨some 2, 0⟩, []⟩], [], []⟩] (by decide)
  exact absurd (horder (by decide +kernel)) (by decide +kernel)

end History

end EventDispatcher.Permanent
