import Mathlib.Algebra.Order.Group.Multiset
import EventDispatcher.Permanent.Sends

/-!
# The flush of the cache and its callbacks

While `thread_done()` sends the cached messages, a message that the socket takes at once calls
`process_empty_buffer()`, which may disconnect, mark the connection done, or send messages.  What
such calls come to is known from the calls and from what the socket takes: `Course` follows them
without the connection, and the connection follows it (`acts_exec`).  The loop survives exactly
when the course of each callback leaves it what it still needs (`Keeps`).  The local stream class
never writes at once, so its loop runs no callback.
-/

namespace EventDispatcher.Permanent

open Lib Buffer

variable {M : Type} (toMessage : M → Option Str)

/-! ### The course of the callbacks -/

/-- Where the callbacks of a flush have led. -/
structure Course where
  /-- Whether there still is a messenger. -/
  messenger : Bool := true
  /-- Whether the messenger has something buffered, so that nothing is written at once. -/
  waits : Bool := false
  /-- Whether `mark_done()` was called. -/
  done : Bool
  /-- Whether the permanent connection is in the communicator. -/
  listed : Bool
  /-- Whether `mark_done(true)` was called. -/
  implDone : Bool := false
  /-- Whether a message was cached because there was no messenger any more. -/
  cached : Bool := false

mutual

/-- Where a call leads, and whether it returns. -/
def Call.course (f : Course) : Call M → Course × Bool
  | .sendMessage msg cache w onEmpty =>
    if f.messenger then
      match toMessage msg with
      | none => (f, false)
      | some text =>
        if f.waits then (f, true)
        else if w.value (Link.buf text).length = (Link.buf text).length then
          Call.courseAll f onEmpty
        else ({ f with waits := true }, true)
    else ({ f with cached := f.cached || cache && !f.implDone }, true)
  | .disconnect => ({ f with messenger := false }, true)
  | .markDone messenger => ({ f with done := true, implDone := f.implDone || messenger }, true)
  | .processEmptyBuffer =>
    -- the connection that is marked done leaves the communicator, and disconnects
    if f.done && f.listed then ({ f with messenger := false, listed := false }, true)
    else (f, true)

/-- Where calls lead one after the other. -/
def Call.courseAll (f : Course) : List (Call M) → Course × Bool
  | [] => (f, true)
  | c :: calls =>
    let (f, returned) := Call.course f c
    if returned then Call.courseAll f calls else (f, false)

end

/-- The condition on the callbacks for the cached messages, one after the other.  A callback that
returns did not call `mark_done(true)`, and it leaves the messenger, unless its message is the last
one, and then it caches nothing after that.  An exception may only leave a callback that called
`mark_done(true)`.  Nothing is asked once `to_message()` throws for a cached message. -/
def Keeps (f : Course) : List M → List (Reply M) → Prop
  | [], _ => True
  | msg :: cache, replies =>
    (toMessage msg).isSome = true →
      let reply := replies.headD default
      let r := Call.course toMessage f (.sendMessage msg true reply.write reply.onEmpty)
      if r.2 = true then
        r.1.implDone = false ∧ r.1.cached = false ∧ (r.1.messenger = false → cache = []) ∧
          Keeps r.1 cache replies.tail
      else r.1.implDone = true

instance Keeps.decidable : (f : Course) → (cache : List M) → (replies : List (Reply M)) →
    Decidable (Keeps toMessage f cache replies)
  | _, [], _ => inferInstanceAs (Decidable True)
  | f, msg :: cache, replies =>
    have := fun f => Keeps.decidable f cache replies.tail
    inferInstanceAs (Decidable ((toMessage msg).isSome = true →
      let reply := replies.headD default
      let r := Call.course toMessage f (.sendMessage msg true reply.write reply.onEmpty)
      if r.2 = true then
        r.1.implDone = false ∧ r.1.cached = false ∧ (r.1.messenger = false → cache = []) ∧
          Keeps toMessage r.1 cache replies.tail
      else r.1.implDone = true))

namespace History

/-- `send_message()` of a local stream messenger for a cached message: the low level `write()` is
not called. -/
def localSend (t : History M) (i : ℕ) (msg : M) (onEmpty : History M → History M × Bool) :
    History M × Bool :=
  t.sendCached toMessage .localStreamClient i msg ⟨none, eagain⟩ onEmpty

/-- A callback that does nothing. -/
instance : Inhabited (History M → History M × Bool) := ⟨fun t => (t, true)⟩

/-- The loop of `local_stream_client_permanent_message_connection`. -/
def localFlush (n : ℕ) (onEmpty : List (History M → History M × Bool)) (t : History M) :
    History M × Bool :=
  flushLoop (localSend toMessage) n onEmpty t

/-! ### What the flush has to do -/

/-- From `t` to `t'` the messages that were handed over or cached, and those that were taken
meanwhile, are handed over or cached, but for `discarded`, and with `doubled` once more. -/
def Balance (t t' : History M) (doubled discarded : Multiset M) : Prop :=
  ∃ taken : List M, t'.accepted = t.accepted ++ taken ∧
    (t'.handed + t'.cache + discarded : Multiset M) = t.handed + t.cache + taken + doubled

/-- From `t` to `t'` the cache is flushed: no null messenger is used and no empty cache erased,
and the cached messages, like those that were taken meanwhile, are handed over once or still
cached, but for those that `mark_done(true)` discarded. -/
structure Survives (t t' : History M) : Prop where
  defined : t'.undefined = false
  messages : ∃ discarded : Multiset M, Balance t t' 0 discarded ∧
    (t'.implDone = false → discarded = 0)

lemma Balance.refl (t : History M) : Balance t t 0 0 := ⟨[], by simp, by simp⟩

lemma Balance.trans {t u v : History M} {d d' x x' : Multiset M} (h : Balance t u d x)
    (h' : Balance u v d' x') : Balance t v (d + d') (x + x') := by
  obtain ⟨taken, haccepted, hmessages⟩ := h
  obtain ⟨taken', haccepted', hmessages'⟩ := h'
  refine ⟨taken ++ taken', by rw [haccepted', haccepted, List.append_assoc], ?_⟩
  rw [← Multiset.coe_add]
  calc (v.handed + v.cache + (x + x') : Multiset M)
      = v.handed + v.cache + x' + x := by rw [add_comm x, add_assoc, add_assoc, add_assoc]
    _ = u.handed + u.cache + x + taken' + d' := by
        rw [hmessages']
        abel
    _ = t.handed + t.cache + (taken + taken') + (d + d') := by
        rw [hmessages]
        abel

/-- What is doubled and discarded is where it was. -/
lemma Balance.cancel {t u : History M} {d x y : Multiset M} (h : Balance t u (d + y) (x + y)) :
    Balance t u d x := by
  obtain ⟨taken, haccepted, hmessages⟩ := h
  exact ⟨taken, haccepted, by rwa [← add_assoc, ← add_assoc, add_left_inj] at hmessages⟩

/-- The balance is determined by the messages. -/
lemma Balance.unique {t u : History M} {d d' x x' : Multiset M} (h : Balance t u d x)
    (h' : Balance t u d' x') : x + d' = x' + d := by
  obtain ⟨taken, haccepted, hmessages⟩ := h
  obtain ⟨taken', haccepted', hmessages'⟩ := h'
  obtain rfl : taken = taken' := List.append_cancel_left (haccepted.symm.trans haccepted')
  refine add_left_cancel (a := (u.handed + u.cache : Multiset M)) ?_
  rw [← add_assoc, hmessages, ← add_assoc, hmessages', add_right_comm]

/-! ### What a callback does -/

/-- A socket that is not blocking takes a buffer at once when nothing is buffered and it takes all
its bytes; else something is buffered. -/
lemma write_spec {o : Output} (hsocket : 0 ≤ o.socket.1) (hblocking : o.nonBlocking = true)
    {d : Str} (hd : d ≠ []) (w : WriteResult) :
    (o.write (some d) w).1.nonBlocking = true ∧
      ((o.write (some d) w).1.output = [] ↔ o.output = [] ∧ w.value d.length = d.length) ∧
      ((o.write (some d) w).2.2 = true ↔ o.output = [] ∧ w.value d.length = d.length) := by
  have hlength : 0 < d.length := List.length_pos_iff.mpr hd
  have hle : w.value d.length ≤ d.length := by
    rw [WriteResult.value]
    split <;> omega
  have hvalid : o.validSocket = true := decide_eq_true hsocket
  rw [Output.write, if_pos hvalid]
  simp only [Option.getD_some, ne_eq, hd, not_false_eq_true, if_true, hblocking, and_true,
    Output.lowWrite]
  split_ifs with hempty hpos hall
  · have hvalue : w.value d.length = d.length := by omega
    simp [hempty, hvalue]
  · have hvalue : ¬ w.value d.length = d.length := by omega
    have hrest : d.drop (w.value d.length).toNat ≠ [] := fun h => by
      rw [List.drop_eq_nil_iff] at h
      omega
    simp [hempty, hvalue, hrest]
  · have hvalue : ¬ w.value d.length = d.length := by omega
    simp [hempty, hvalue, hd]
  · simp [hempty]

/-- The connection is where the course is; `i` is the messenger of the flush. -/
structure Follows (i : ℕ) (f : Course) (t : History M) : Prop where
  /-- The messenger has a socket. -/
  ready : t.Ready i
  /-- Its output. -/
  output : ∀ p ∈ t.outputs[i]?, p.nonBlocking = true ∧ (f.waits = false ↔ p.output = [])
  /-- It is used until it is dropped. -/
  messenger : t.messenger = if f.messenger then some i else none
  /-- `is_done()` -/
  done : t.done = f.done
  /-- The permanent connection in the communicator. -/
  listed : t.listed = f.listed
  /-- `f_done` -/
  implDone : t.implDone = f.implDone
  /-- Nothing undefined happened. -/
  defined : t.undefined = false

/-- The messenger takes a message, and calls back when the socket takes it at once. -/
lemma Follows.handOver {i : ℕ} {f : Course} {t : History M} (h : Follows i f t) {msg : M}
    {text : Str} (htext : toMessage msg = some text) (w : WriteResult) :
    ∃ s emptied, t.toConnection.handOver toMessage .tcpServerClient i msg w =
        (s, some (true, emptied)) ∧ Connection.Hands toMessage t.toConnection s msg ∧
      (emptied = true ↔
        f.waits = false ∧ w.value (Link.buf text).length = (Link.buf text).length) ∧
      ∀ p ∈ s.outputs[i]?, p.nonBlocking = true ∧ (p.output = [] ↔ emptied = true) := by
  obtain ⟨p, hp, hsocket⟩ := h.ready.exists_output
  obtain ⟨hblocking, hwaits⟩ := h.output p hp
  obtain ⟨hblocking', hleft, hemptied⟩ :=
    write_spec hsocket hblocking (Link.buf_ne_nil text) w
  obtain ⟨s, emptied, hover, hhands⟩ :=
    Connection.hands_handOver Connection.accepts_tcp h.ready htext w
  have heq := Connection.handOver_eq hp (Connection.accepts_tcp _ hsocket) htext w
  rw [hover] at heq
  obtain ⟨rfl, rfl⟩ := Prod.mk.inj heq |>.imp_right fun h => (Prod.mk.inj (Option.some.inj h)).2
  refine ⟨_, _, hover, hhands, ?_, fun q hq => ?_⟩
  · rw [hwaits]
    exact hemptied
  · have hi : i < t.outputs.length := (List.getElem?_eq_some_iff.mp hp).1
    rw [List.getElem?_set_self hi] at hq
    cases hq
    exact ⟨hblocking', hleft.trans hemptied.symm⟩

/-- What the calls of a callback did since `t₀`. -/
structure Acts (t₀ : History M) (i : ℕ) (f : Course) (t : History M) : Prop
    extends Follows i f t where
  /-- Only `mark_done(true)` discards messages, all those that were cached. -/
  balance : ∃ discarded : Multiset M, Balance t₀ t 0 discarded ∧
    (f.implDone = false → discarded = 0) ∧ (f.implDone = true → t₀.cache ≤ discarded)
  /-- Without it the cached messages stay, and others may follow when the messenger is gone. -/
  kept : f.implDone = false → ∃ cached, t.cache = t₀.cache ++ cached ∧
    (f.cached = false ↔ cached = []) ∧ (f.messenger = true → cached = [])
  /-- With it the cache is empty. -/
  cleared : f.implDone = true → t.cache = []

lemma Follows.acts {i : ℕ} {f : Course} {t : History M} (h : Follows i f t)
    (himpl : f.implDone = false) (hcached : f.cached = false) : Acts t i f t :=
  ⟨h, ⟨0, .refl t, fun _ => rfl, fun h => absurd (himpl.symm.trans h) Bool.false_ne_true⟩,
    fun _ => ⟨[], by simp, by simp [hcached], fun _ => rfl⟩,
    fun h => absurd (himpl.symm.trans h) Bool.false_ne_true⟩

/-- A change of the link. -/
lemma Acts.of_link {t₀ t : History M} {i : ℕ} {f f' : Course} (h : Acts t₀ i f t) {link : Link}
    (hm : link.messenger = if f'.messenger then some i else none) (hdone : link.done = f'.done)
    (hlisted : link.listed = f'.listed) (himpl : link.implDone = t.implDone)
    (hf : f'.waits = f.waits ∧ f'.implDone = f.implDone ∧ f'.cached = f.cached)
    (hdown : f'.messenger = true → f.messenger = true) :
    Acts t₀ i f' { t with toLink := link } := by
  obtain ⟨hwaits, himpl', hcached⟩ := hf
  refine ⟨⟨h.ready.of_sockets rfl, ?_, hm, hdone, hlisted, ?_, h.defined⟩, ?_, ?_, ?_⟩
  · rw [hwaits]
    exact h.output
  · rw [himpl']
    exact himpl.trans h.implDone
  · rw [himpl']
    exact h.balance
  · intro hopen
    obtain ⟨cached, hcache, hnone, hup⟩ := h.kept (himpl'.symm.trans hopen)
    exact ⟨cached, hcache, by rw [hcached, hnone], fun hm => hup (hdown hm)⟩
  · rw [himpl']
    exact h.cleared

/-- The messenger took a message of the user. -/
lemma Acts.sent {t₀ t : History M} {i : ℕ} {f : Course} (h : Acts t₀ i f t)
    (hm : f.messenger = true) {msg : M} {text : Str} (htext : toMessage msg = some text)
    (cache : Bool) (w : WriteResult) :
    ∃ s emptied, t.toConnection.sendMessage toMessage msg cache w =
        (s, some (true, if emptied then some i else none)) ∧
      (emptied = true ↔
        f.waits = false ∧ w.value (Link.buf text).length = (Link.buf text).length) ∧
      Acts t₀ i { f with waits := !emptied } (t.sent s msg cache true) := by
  obtain ⟨s, emptied, hover, hhands, hemptied, houtput⟩ := h.handOver toMessage htext w
  have hup : t.messenger = some i := by
    rw [h.messenger, if_pos hm]
  refine ⟨s, emptied, ?_, hemptied, ⟨?_, ?_, ?_, ?_⟩⟩
  · rw [Connection.sendMessage]
    simp only [hup, hover, Option.map_some]
  · refine ⟨h.ready.of_sockets hhands.sockets, fun p hp => ?_,
      (congrArg Link.messenger hhands.link).trans h.messenger,
      (congrArg Link.done hhands.link).trans h.done,
      (congrArg Link.listed hhands.link).trans h.listed,
      (congrArg Link.implDone hhands.link).trans h.implDone, hhands.undefined.trans h.defined⟩
    obtain ⟨hblocking, hleft⟩ := houtput p hp
    exact ⟨hblocking, by rw [hleft]; simp⟩
  · obtain ⟨discarded, hbalance, hnone⟩ := h.balance
    refine ⟨discarded, ?_, hnone⟩
    have hsent : Balance t (t.sent s msg cache true) 0 0 := by
      refine ⟨[msg], by simp [History.sent], ?_⟩
      change (s.handed + s.cache + 0 : Multiset M) = _
      rw [hhands.handed, hhands.cache, add_zero, add_zero, ← Multiset.coe_add, add_right_comm]
    simpa only [add_zero] using hbalance.trans hsent
  · intro himpl
    obtain ⟨cached, hcache, hcached⟩ := h.kept himpl
    exact ⟨cached, hhands.cache.trans hcache, hcached⟩
  · exact fun himpl => hhands.cache.trans (h.cleared himpl)

/-- A message is cached behind the others. -/
lemma Acts.caches {t₀ t : History M} {i : ℕ} {f : Course} (h : Acts t₀ i f t)
    (hm : f.messenger = false) (himpl : f.implDone = false) (msg : M) :
    Acts t₀ i { f with cached := true }
      { t with cache := t.cache ++ [msg], accepted := t.accepted ++ [msg] } := by
  obtain ⟨discarded, hbalance, hnone⟩ := h.balance
  refine ⟨⟨h.ready.of_sockets rfl, h.output, h.messenger, h.done, h.listed, h.implDone,
    h.defined⟩, ⟨discarded, ?_, hnone⟩, fun _ => ?_, fun himpl' => ?_⟩
  · have hcached : Balance t
        { t with cache := t.cache ++ [msg], accepted := t.accepted ++ [msg] } 0 0 := by
      refine ⟨[msg], rfl, ?_⟩
      change (t.handed + (t.cache ++ [msg] : List M) + 0 : Multiset M) = _
      rw [← Multiset.coe_add, add_zero, add_zero, add_assoc]
    simpa only [add_zero] using hbalance.trans hcached
  · obtain ⟨cached, hcache, -⟩ := h.kept himpl
    exact ⟨cached ++ [msg], by rw [hcache, List.append_assoc], by simp,
      fun hup => absurd (hm.symm.trans hup) Bool.false_ne_true⟩
  · rw [show f.implDone = true from himpl'] at himpl
    cases himpl

/-- Without a messenger a message is cached, or ignored. -/
lemma Acts.cached {t₀ t : History M} {i : ℕ} {f : Course} (h : Acts t₀ i f t)
    (hm : f.messenger = false) (msg : M) (cache : Bool) (w : WriteResult) :
    ∃ s, t.toConnection.sendMessage toMessage msg cache w = (s, some (false, none)) ∧
      Acts t₀ i { f with cached := f.cached || cache && !f.implDone }
        (t.sent s msg cache false) := by
  have hdown : t.messenger = none := by
    rw [h.messenger, hm]
    rfl
  refine ⟨_, by rw [Connection.sendMessage]; simp only [hdown]; rfl, ?_⟩
  by_cases htakes : cache = true ∧ f.implDone = false
  · have hsent : t.sent (if cache = true ∧ ¬ t.implDone = true then
          { t.toConnection with cache := t.cache ++ [msg] } else t.toConnection) msg cache false =
        { t with cache := t.cache ++ [msg], accepted := t.accepted ++ [msg] } := by
      simp [History.sent, h.implDone, htakes]
    have hf : (f.cached || cache && !f.implDone) = true := by simp [htakes]
    rw [hsent, hf]
    exact h.caches hm htakes.2 msg
  · have hsent : t.sent (if cache = true ∧ ¬ t.implDone = true then
          { t.toConnection with cache := t.cache ++ [msg] } else t.toConnection) msg cache false =
        t := by
      simp only [History.sent, h.implDone, Bool.not_eq_true, htakes, if_false,
        Bool.false_eq_true, false_or, List.append_nil]
    have hf : (f.cached || cache && !f.implDone) = f.cached := by
      have hignored : (cache && !f.implDone) = false := by
        simpa using htakes
      rw [hignored, Bool.or_false]
    rw [hsent, hf]
    exact h

/-- `mark_done(true)` clears the cache. -/
lemma Acts.markDone {t₀ t : History M} {i : ℕ} {f : Course} (h : Acts t₀ i f t) :
    Acts t₀ i { f with done := true, implDone := true }
      { t with toLink := t.toLink.markDone true, cache := [] } := by
  obtain ⟨discarded, hbalance, -, hall⟩ := h.balance
  have hcleared : Balance t { t with toLink := t.toLink.markDone true, cache := [] } 0 t.cache := by
    refine ⟨[], (List.append_nil _).symm, ?_⟩
    change (t.handed + ([] : List M) + t.cache : Multiset M) = _
    rw [Multiset.coe_nil, add_zero, add_zero, add_zero]
  have hgone : (t₀.cache : Multiset M) ≤ discarded + t.cache := by
    cases himpl : f.implDone with
    | true => exact (hall himpl).trans (Multiset.le_add_right _ _)
    | false =>
      obtain ⟨cached, hcache, -⟩ := h.kept himpl
      rw [hcache, ← Multiset.coe_add]
      exact (Multiset.le_add_right _ _).trans (Multiset.le_add_left _ _)
  exact ⟨⟨h.ready.of_sockets rfl, h.output, h.messenger, rfl, h.listed, rfl, h.defined⟩,
    ⟨discarded + t.cache, hbalance.trans hcleared, Bool.noConfusion, fun _ => hgone⟩,
    Bool.noConfusion, fun _ => rfl⟩

lemma disconnect_fields (s : Link) :
    s.disconnect.messenger = none ∧ s.disconnect.done = s.done ∧
      s.disconnect.listed = s.listed ∧ s.disconnect.implDone = s.implDone := by
  cases hm : s.messenger <;> simp [Link.disconnect, hm]

/-- The default `process_empty_buffer()` leaves the communicator when the connection is marked
done. -/
lemma Acts.processEmptyBuffer {t₀ t : History M} {i : ℕ} {f : Course} (h : Acts t₀ i f t) :
    Acts t₀ i (Call.course toMessage f .processEmptyBuffer).1
      { t with toLink := t.toLink.processEmptyBuffer } := by
  rw [Call.course, Link.processEmptyBuffer]
  by_cases hremoved : t.done = true ∧ t.listed = true
  · have hf : (f.done && f.listed) = true := by
      rw [← h.done, ← h.listed, hremoved.1, hremoved.2]
      rfl
    rw [if_pos hremoved.1, Link.removeFromCommunicator, if_pos hremoved.2, if_pos hf]
    obtain ⟨hm, hdone, hlisted, himpl⟩ := disconnect_fields { t.toLink with listed := false }
    exact h.of_link hm (hdone.trans h.done) hlisted himpl ⟨rfl, rfl, rfl⟩ Bool.noConfusion
  · have hf : ¬ (f.done && f.listed) = true := by
      rw [← h.done, ← h.listed, Bool.and_eq_true]
      exact hremoved
    have hsame : (if t.done = true then t.removeFromCommunicator else t.toLink) = t.toLink := by
      rw [Link.removeFromCommunicator]
      split_ifs with hdone hlisted
      · exact absurd ⟨hdone, hlisted⟩ hremoved
      · rfl
      · rfl
    rw [hsame, if_neg hf]
    exact h

/-- Where a message leads that the messenger takes. -/
lemma course_sent {f : Course} (hm : f.messenger = true) {msg : M} {text : Str}
    (htext : toMessage msg = some text) {w : WriteResult} {emptied : Bool}
    (hemptied : emptied = true ↔
      f.waits = false ∧ w.value (Link.buf text).length = (Link.buf text).length)
    (cache : Bool) (onEmpty : List (Call M)) :
    Call.course toMessage f (.sendMessage msg cache w onEmpty) =
      if emptied then Call.courseAll toMessage { f with waits := !emptied } onEmpty
      else ({ f with waits := !emptied }, true) := by
  rw [Call.course, if_pos hm]
  simp only [htext]
  cases emptied with
  | true =>
    obtain ⟨hwaits, htakes⟩ := hemptied.mp rfl
    have hf : ({ f with waits := !true } : Course) = f := by
      rw [Bool.not_true, ← hwaits]
    rw [hf, hwaits]
    simp only [Bool.false_eq_true, if_false, htakes, if_true]
  | false =>
    simp only [Bool.false_eq_true, if_false]
    split_ifs with hwaits htakes
    · have hf : ({ f with waits := !false } : Course) = f := by
        rw [Bool.not_false, ← hwaits]
      rw [hf]
    · exact absurd (hemptied.mpr ⟨Bool.eq_false_iff.mpr hwaits, htakes⟩) Bool.noConfusion
    · rfl

/-- `process_empty_buffer()` of the messenger only takes it out of the communicator. -/
lemma Acts.messengerEmptyBuffer {t₀ t : History M} {i : ℕ} {f : Course} (h : Acts t₀ i f t) :
    Acts t₀ i f { t with toLink := t.toLink.messengerEmptyBuffer i } := by
  rw [Link.messengerEmptyBuffer]
  split_ifs
  · exact h.of_link h.messenger h.done h.listed rfl ⟨rfl, rfl, rfl⟩ id
  · exact h

mutual

/-- **The connection follows a call** of a callback. -/
lemma acts_exec {t₀ t : History M} {i : ℕ} {f : Course} (h : Acts t₀ i f t) (c : Call M) :
    Acts t₀ i (c.course toMessage f).1 (t.exec toMessage c).1 ∧
      (t.exec toMessage c).2 = (c.course toMessage f).2 := by
  match c with
  | .disconnect =>
    rw [exec, Call.course]
    obtain ⟨hm, hdone, hlisted, himpl⟩ := disconnect_fields t.toLink
    exact ⟨h.of_link hm (hdone.trans h.done) (hlisted.trans h.listed) himpl ⟨rfl, rfl, rfl⟩
      Bool.noConfusion, rfl⟩
  | .markDone true =>
    rw [exec, Call.course, Bool.or_true]
    exact ⟨h.markDone, rfl⟩
  | .markDone false =>
    rw [exec, Call.course, Bool.or_false]
    exact ⟨h.of_link h.messenger rfl h.listed rfl ⟨rfl, rfl, rfl⟩ id, rfl⟩
  | .processEmptyBuffer =>
    rw [exec]
    refine ⟨h.processEmptyBuffer toMessage, ?_⟩
    rw [Call.course]
    split_ifs <;> rfl
  | .sendMessage msg cache w onEmpty =>
    rw [exec]
    by_cases hm : f.messenger = true
    · cases htext : toMessage msg with
      | none =>
        have hup : t.messenger = some i := by
          rw [h.messenger, if_pos hm]
        rw [Call.course, if_pos hm]
        simp only [Connection.sendMessage_throws hup h.ready htext, htext]
        exact ⟨h, trivial⟩
      | some text =>
        obtain ⟨s, emptied, hsend, hemptied, hacts⟩ := h.sent toMessage hm htext cache w
        rw [course_sent toMessage hm htext hemptied]
        simp only [hsend]
        cases emptied with
        | true => exact acts_execAll hacts.messengerEmptyBuffer onEmpty
        | false => exact ⟨hacts, rfl⟩
    · obtain ⟨s, hsend, hacts⟩ :=
        h.cached toMessage (Bool.eq_false_iff.mpr hm) msg cache w
      rw [Call.course, if_neg hm]
      simp only [hsend]
      exact ⟨hacts, trivial⟩

/-- The connection follows calls one after the other. -/
lemma acts_execAll {t₀ t : History M} {i : ℕ} {f : Course} (h : Acts t₀ i f t)
    (l : List (Call M)) :
    Acts t₀ i (Call.courseAll toMessage f l).1 (t.execAll toMessage l).1 ∧
      (t.execAll toMessage l).2 = (Call.courseAll toMessage f l).2 := by
  match l with
  | [] =>
    rw [execAll, Call.courseAll]
    exact ⟨h, rfl⟩
  | c :: calls =>
    obtain ⟨hacts, hreturns⟩ := acts_exec h c
    rw [execAll, Call.courseAll]
    simp only [hreturns]
    cases hreturned : (c.course toMessage f).2 with
    | false => exact ⟨hacts, rfl⟩
    | true => exact acts_execAll hacts calls

end

/-! ### The loop -/

variable {toMessage} in
/-- A cached message that is handed over is there twice until it is erased. -/
lemma balance_hands {t : History M} {s : Connection M} {msg : M}
    (h : Connection.Hands toMessage t.toConnection s msg) :
    Balance t { t with toConnection := s } {msg} 0 := by
  refine ⟨[], (List.append_nil _).symm, ?_⟩
  change (s.handed + s.cache + 0 : Multiset M) = _
  rw [h.handed, h.cache, add_zero, Multiset.coe_nil, add_zero, ← Multiset.coe_add, add_right_comm]
  rfl

/-- **One iteration**: the message is handed over, and its callback acts. -/
lemma acts_tcpSend {t : History M} {i : ℕ} {f : Course} (h : Follows i f t)
    (hm : f.messenger = true) (himpl : f.implDone = false) (hcached : f.cached = false) {msg : M}
    {text : Str} (htext : toMessage msg = some text) (reply : Reply M) :
    ∃ t₁, Balance t t₁ {msg} 0 ∧ t₁.cache = t.cache ∧
      Acts t₁ i (Call.course toMessage f (.sendMessage msg true reply.write reply.onEmpty)).1
        (t.tcpSend toMessage i msg reply).1 ∧
      (t.tcpSend toMessage i msg reply).2 =
        (Call.course toMessage f (.sendMessage msg true reply.write reply.onEmpty)).2 := by
  obtain ⟨s, emptied, hover, hhands, hemptied, houtput⟩ := h.handOver toMessage htext reply.write
  have hfollows : Follows i { f with waits := !emptied } { t with toConnection := s } := by
    refine ⟨h.ready.of_sockets hhands.sockets, fun p hp => ?_,
      (congrArg Link.messenger hhands.link).trans h.messenger,
      (congrArg Link.done hhands.link).trans h.done,
      (congrArg Link.listed hhands.link).trans h.listed,
      (congrArg Link.implDone hhands.link).trans h.implDone, hhands.undefined.trans h.defined⟩
    obtain ⟨hblocking, hleft⟩ := houtput p hp
    exact ⟨hblocking, by rw [hleft]; simp⟩
  have hacts := hfollows.acts himpl hcached
  refine ⟨{ t with toConnection := s }, balance_hands hhands, hhands.cache, ?_⟩
  rw [tcpSend, sendCached, course_sent toMessage hm htext hemptied]
  simp only [hover]
  cases emptied with
  | true => exact acts_execAll toMessage hacts.messengerEmptyBuffer reply.onEmpty
  | false => exact ⟨hacts, rfl⟩

/-- A loop without a messenger and with a message left. -/
lemma undefined_flushLoop {R : Type} [Inhabited R]
    {send : History M → ℕ → M → R → History M × Bool} {t : History M} (hm : t.messenger = none)
    (hcache : t.cache ≠ []) (n : ℕ) (replies : List R) :
    (flushLoop send n replies t).1.undefined = true := by
  cases n with
  | zero => rw [flushLoop, if_neg hcache]
  | succ n =>
    rw [flushLoop]
    cases hc : t.cache with
    | nil => exact absurd hc hcache
    | cons msg cache => simp only [hm]

lemma Survives.refl {t : History M} (ht : t.undefined = false) : Survives t t :=
  ⟨ht, 0, .refl t, fun _ => rfl⟩

/-- What a part of the loop keeps balanced does not matter to the rest. -/
lemma Survives.of_balance {t t₁ t' : History M} (h₁ : Balance t t₁ 0 0) (h : Survives t₁ t') :
    Survives t t' := by
  obtain ⟨discarded, hbalance, hnone⟩ := h.messages
  have hboth := h₁.trans hbalance
  rw [zero_add, zero_add] at hboth
  exact ⟨h.defined, discarded, hboth, hnone⟩

/-- How the loop fails: it does something undefined, or an exception leaves a message in the cache
that was sent. -/
def Fails (t t' : History M) : Prop :=
  t'.undefined = true ∨ t'.implDone = false ∧ ∃ msg, Balance t t' {msg} 0

lemma Fails.of_balance {t t₁ t' : History M} (h₁ : Balance t t₁ 0 0) (h : Fails t₁ t') :
    Fails t t' := by
  refine h.imp_right fun ⟨himpl, msg, hbalance⟩ => ⟨himpl, msg, ?_⟩
  have hboth := h₁.trans hbalance
  rwa [zero_add, zero_add] at hboth

lemma Fails.not_survives {t t' : History M} (h : Fails t t') : ¬ Survives t t' := by
  rintro ⟨hdefined, discarded, hbalance, hnone⟩
  rcases h with hundefined | ⟨himpl, msg, hdoubled⟩
  · rw [hdefined] at hundefined
    cases hundefined
  · rw [hnone himpl] at hbalance
    have hmsg := hbalance.unique hdoubled
    rw [zero_add, zero_add] at hmsg
    exact Multiset.singleton_ne_zero msg hmsg

/-- The message that was sent is erased: it was handed over once. -/
lemma balance_erased {t t₁ t₂ : History M} {msg : M} {cache : List M}
    (hsent : Balance t t₁ {msg} 0) (hacts : Balance t₁ t₂ 0 0)
    (hcache₂ : t₂.cache = msg :: cache) : Balance t { t₂ with cache := cache } 0 0 := by
  have herased : Balance t₂ { t₂ with cache := cache } 0 {msg} := by
    refine ⟨[], (List.append_nil _).symm, ?_⟩
    change (t₂.handed + cache + {msg} : Multiset M) = _
    rw [hcache₂, Multiset.coe_nil, add_zero, add_zero, ← Multiset.cons_coe,
      ← Multiset.singleton_add, add_assoc, add_comm (cache : Multiset M)]
  have hboth := (hsent.trans hacts).trans herased
  rw [add_zero, add_zero, zero_add] at hboth
  exact Balance.cancel (y := {msg}) (by rwa [zero_add])

/-- An exception leaves the callback of a message, which stays in the cache: the loop survives when
`mark_done(true)` was called before, and fails else. -/
lemma survives_thrown {t t₁ t₂ : History M} {i : ℕ} {f : Course} {msg : M} {cache : List M}
    (hsent : Balance t t₁ {msg} 0) (hcache₁ : t₁.cache = msg :: cache) (h : Acts t₁ i f t₂) :
    (f.implDone = true → Survives t t₂) ∧ (¬ f.implDone = true → Fails t t₂) := by
  obtain ⟨discarded, hbalance, hnone, hall⟩ := h.balance
  refine ⟨fun himpl => ⟨h.defined, ?_⟩, fun hopen => .inr ⟨?_, msg, ?_⟩⟩
  · -- the message is one of those that were discarded
    have hmsg : {msg} ≤ discarded := by
      refine le_trans ?_ (hall himpl)
      rw [hcache₁, ← Multiset.cons_coe, ← Multiset.singleton_add]
      exact Multiset.le_add_right _ _
    obtain ⟨others, rfl⟩ := Multiset.le_iff_exists_add.mp hmsg
    have hboth := hsent.trans hbalance
    rw [add_zero, zero_add, add_comm {msg} others] at hboth
    refine ⟨others, Balance.cancel (y := {msg}) (by rwa [zero_add]), fun hopen => ?_⟩
    rw [h.implDone, himpl] at hopen
    cases hopen
  · rw [h.implDone]
    exact Bool.eq_false_iff.mpr hopen
  · rw [hnone (Bool.eq_false_iff.mpr hopen)] at hbalance
    exact hsent.trans hbalance

/-- The cache changes behind the callback. -/
lemma Acts.follows {t₁ t₂ : History M} {i : ℕ} {f : Course} (h : Acts t₁ i f t₂) (cache : List M) :
    Follows i f { t₂ with cache := cache } :=
  ⟨h.ready.of_sockets rfl, h.output, h.messenger, h.done, h.listed, h.implDone, h.defined⟩

/-- A callback that caches a message, or leaves no messenger for the rest of the cache, leaves no
messenger and a message. -/
lemma gone_of_not_kept {f : Course} {cache cached : List M}
    (hcached : f.cached = false ↔ cached = []) (hup : f.messenger = true → cached = [])
    (h : ¬ (f.cached = false ∧ (f.messenger = false → cache = []))) :
    f.messenger = false ∧ cache ++ cached ≠ [] := by
  cases hm : f.messenger with
  | true => exact absurd ⟨hcached.mpr (hup hm), by simp [hm]⟩ h
  | false =>
    refine ⟨rfl, fun hnil => h ?_⟩
    rw [List.append_eq_nil_iff] at hnil
    exact ⟨hcached.mpr hnil.2, fun _ => hnil.1⟩

/-- **The loop survives when its callbacks keep what it needs**, and fails when they do not. -/
lemma survives_flushLoop {t : History M} {i : ℕ} {f : Course} (h : Follows i f t)
    (himpl : f.implDone = false) (hcached : f.cached = false)
    (hm : f.messenger = false → t.cache = []) {n : ℕ} (hn : t.cache.length = n)
    (replies : List (Reply M)) :
    (Keeps toMessage f t.cache replies →
        Survives t (flushLoop (tcpSend toMessage) n replies t).1) ∧
      (¬ Keeps toMessage f t.cache replies →
        Fails t (flushLoop (tcpSend toMessage) n replies t).1) := by
  induction n generalizing t f replies with
  | zero =>
    have hcache : t.cache = [] := List.length_eq_zero_iff.mp hn
    rw [flushLoop, if_pos hcache, hcache, Keeps]
    exact ⟨fun _ => .refl h.defined, fun hnot => absurd trivial hnot⟩
  | succ n ih =>
    obtain ⟨msg, cache, hcache⟩ := List.exists_cons_of_length_eq_add_one hn
    have hup : f.messenger = true := by
      refine Bool.not_eq_false _ ▸ fun hdown => ?_
      rw [hm hdown] at hcache
      cases hcache
    have hmessenger : t.messenger = some i := by
      rw [h.messenger, if_pos hup]
    rw [hcache, Keeps]
    dsimp only
    cases htext : toMessage msg with
    | none =>
      -- `to_message()` throws, and the message stays in the cache
      rw [flushLoop_throws hcache hmessenger (sendCached_throws _ h.ready htext _ _)]
      exact ⟨fun _ => .refl h.defined,
        fun hnot => absurd (fun hsome => absurd hsome Bool.false_ne_true) hnot⟩
    | some text =>
      obtain ⟨t₁, hsent, hcache₁, hacts, hreturns⟩ :=
        acts_tcpSend toMessage h hup himpl hcached htext (replies.headD default)
      generalize hsend : t.tcpSend toMessage i msg (replies.headD default) = r at hacts hreturns
      generalize Call.course toMessage f (.sendMessage msg true (replies.headD default).write
        (replies.headD default).onEmpty) = c at hacts hreturns ⊢
      obtain ⟨t₂, returned⟩ := r
      obtain ⟨f', returned'⟩ := c
      obtain rfl : returned = returned' := hreturns
      rw [hcache] at hcache₁
      simp only [Option.isSome_some, true_imp_iff]
      cases returned with
      | false =>
        rw [flushLoop_throws hcache hmessenger hsend, if_neg Bool.false_ne_true]
        exact survives_thrown hsent hcache₁ hacts
      | true =>
        rw [if_pos rfl]
        cases himpl' : f'.implDone with
        | true =>
          -- `mark_done(true)` cleared the cache
          rw [flushLoop_cleared hcache hmessenger hsend (hacts.cleared himpl')]
          exact ⟨fun h => absurd h.1 Bool.noConfusion, fun _ => .inl rfl⟩
        | false =>
          obtain ⟨cached, hcache₂, hcached', hup'⟩ := hacts.kept himpl'
          rw [hcache₁, List.cons_append] at hcache₂
          rw [flushLoop_sent hcache hmessenger hsend hcache₂]
          by_cases hok : f'.cached = false ∧ (f'.messenger = false → cache = [])
          · -- the rest of the cache is left, and a messenger for it
            obtain rfl : cached = [] := hcached'.mp hok.1
            rw [List.append_nil] at hcache₂ ⊢
            obtain ⟨discarded, hbalance, hnone, -⟩ := hacts.balance
            rw [hnone himpl'] at hbalance
            have herased := balance_erased hsent hbalance hcache₂
            have hlength : cache.length = n := by
              rw [hcache, List.length_cons] at hn
              omega
            obtain ⟨hsurvives, hfails⟩ :=
              ih (hacts.follows cache) himpl' hok.1 hok.2 hlength replies.tail
            exact ⟨fun h => .of_balance herased (hsurvives h.2.2.2),
              fun hnot => .of_balance herased (hfails fun h => hnot ⟨rfl, hok.1, hok.2, h⟩)⟩
          · -- the messenger is gone and a message is left
            obtain ⟨hgone, hleft⟩ := gone_of_not_kept hcached' hup' hok
            have hnone : t₂.messenger = none := by
              rw [hacts.messenger, hgone]
              rfl
            refine ⟨fun h => absurd ⟨h.2.1, h.2.2.1⟩ hok, fun _ => .inl ?_⟩
            exact undefined_flushLoop (t := { t₂ with cache := cache ++ cached }) hnone hleft n
              replies.tail

/-- The local stream class writes nothing at once. -/
lemma localSend_eq {t : History M} {i : ℕ} (h : t.Ready i) {msg : M} {text : Str}
    (htext : toMessage msg = some text) (onEmpty : History M → History M × Bool) :
    ∃ s, t.localSend toMessage i msg onEmpty = ({ t with toConnection := s }, true) ∧
      Connection.Hands toMessage t.toConnection s msg := by
  have haccepts (c : Socket) (hc : 0 ≤ c.1) :
      Link.OutputClass.accepts .localStreamClient c = true := by
    rw [Link.OutputClass.accepts, BufferClass.validSocket_eq .pipe .tcpClient]
    exact decide_eq_true hc
  obtain ⟨p, hp, hsocket⟩ := h.exists_output
  obtain ⟨s, emptied, hover, hhands⟩ :=
    Connection.hands_handOver haccepts h htext ⟨none, eagain⟩
  have heq := Connection.handOver_eq hp (haccepts _ hsocket) htext ⟨none, eagain⟩
  have hquiet : (Link.OutputClass.localStreamClient.write p.toOutput (some (Link.buf text))
      ⟨none, eagain⟩).2.2 = false := by
    rw [Link.OutputClass.write, Link.OutputClass.bufferOnly, if_pos (haccepts _ hsocket)]
    simp [Link.buf_ne_nil]
  rw [hover, hquiet] at heq
  obtain ⟨rfl, rfl⟩ := (Prod.mk.inj heq).imp_right fun h => (Prod.mk.inj (Option.some.inj h)).2
  refine ⟨_, ?_, hhands⟩
  rw [localSend, sendCached]
  simp only [hover, Bool.false_eq_true, if_false]

/-- The loop of the local stream class calls nothing back. -/
lemma survives_localFlush {t : History M} {i : ℕ} (h : t.Ready i) (hm : t.messenger = some i)
    (hundefined : t.undefined = false) {n : ℕ} (hn : t.cache.length = n)
    (onEmpty : List (History M → History M × Bool)) :
    Survives t (t.localFlush toMessage n onEmpty).1 := by
  rw [localFlush]
  induction n generalizing t onEmpty with
  | zero =>
    rw [flushLoop, if_pos (List.length_eq_zero_iff.mp hn)]
    exact .refl hundefined
  | succ n ih =>
    obtain ⟨msg, cache, hcache⟩ := List.exists_cons_of_length_eq_add_one hn
    cases htext : toMessage msg with
    | none =>
      rw [flushLoop_throws hcache hm (sendCached_throws _ h htext _ _)]
      exact .refl hundefined
    | some text =>
      obtain ⟨s, hsend, hhands⟩ := localSend_eq toMessage h htext (onEmpty.headD default)
      rw [flushLoop_sent hcache hm hsend (hhands.cache.trans hcache)]
      have hlength : cache.length = n := by
        rw [hcache, List.length_cons] at hn
        omega
      have herased := balance_erased (balance_hands hhands) (.refl _) (hhands.cache.trans hcache)
      have hrest : Survives { t with toConnection := { s with cache := cache } }
          (flushLoop (localSend toMessage) n onEmpty.tail
            { t with toConnection := { s with cache := cache } }).1 :=
        ih ((h.of_sockets hhands.sockets).of_sockets rfl)
          ((congrArg Link.messenger hhands.link).trans hm)
          (hhands.undefined.trans hundefined) hlength onEmpty.tail
      exact .of_balance herased hrest

/-- Where the callbacks of a flush begin. -/
def course (t : History M) : Course where
  done := t.done
  listed := t.listed

/-- The attempt leaves what is marked done. -/
lemma marks_ended (t : History M) (a : Attempt M) :
    (t.ended a).done = t.done ∧ (t.ended a).listed = t.listed ∧
      (t.ended a).implDone = t.implDone := by
  rw [ended, Link.stop, Link.attemptEnds]
  split_ifs
  · exact ⟨rfl, rfl, rfl⟩
  · exact ⟨rfl, rfl, rfl⟩

/-- **The flush of `thread_done()`** survives its callbacks exactly when each of them keeps what the
loop still needs; the one of the local stream class always does. -/
theorem survives_flush_iff (t : History M) (a : Attempt M) (hundefined : t.undefined = false)
    (hdone : t.implDone = false) (onEmpty : List (History M → History M × Bool)) :
    (Survives (t.connected a) ((t.connected a).flush toMessage t.cache.length a.replies).1 ↔
        Keeps toMessage t.course t.cache a.replies) ∧
      Survives (t.connected a) ((t.connected a).localFlush toMessage t.cache.length onEmpty).1 := by
  obtain ⟨hdone', hlisted, himpl⟩ := t.marks_ended a
  have hfollows : Follows t.outputs.length t.course (t.connected a) := by
    refine ⟨t.ready_connected a, fun p hp => ?_, rfl, hdone', hlisted, himpl.trans hdone,
      hundefined⟩
    have hlast : (t.connected a).outputs[t.outputs.length]? = some newMessenger := by
      simp [connected]
    rw [hlast] at hp
    cases hp
    exact ⟨rfl, fun _ => rfl, fun _ => rfl⟩
  obtain ⟨hsurvives, hfails⟩ := survives_flushLoop toMessage hfollows rfl rfl Bool.noConfusion
    (n := t.cache.length) rfl a.replies
  refine ⟨⟨fun h => ?_, hsurvives⟩, survives_localFlush toMessage (t.ready_connected a) rfl
    hundefined rfl onEmpty⟩
  by_contra hnot
  exact (hfails hnot).not_survives h

/-- Messages are cached, a background attempt begins, and `mark_done()` is called before it ends. -/
def markedDone (messages : List Str) : History Str :=
  runFrom (step textOf) (new true)
    ((messages.map fun msg => .call (.sendMessage msg true ⟨none, eagain⟩ [])) ++
      [.processTimeout false true ⟨false, [], [], []⟩, .call (.markDone false), .attemptEnds true])

/-- The socket takes messages of one byte, and the default `process_empty_buffer()` is called. -/
def takesAll : Attempt Str := ⟨true, List.replicate 2 ⟨⟨some 2, 0⟩, [.processEmptyBuffer]⟩, [], []⟩

/-- One cached message is sent, and the connection ends as documented. -/
theorem survives_flush_iff_one :
    Survives ((markedDone [['a']]).connected takesAll)
      (((markedDone [['a']]).connected takesAll).flush textOf (markedDone [['a']]).cache.length
        takesAll.replies).1 :=
  (survives_flush_iff textOf (markedDone [['a']]) takesAll (by decide +kernel)
    (by decide +kernel) []).1.mpr (by decide +kernel)

/-- With two messages cached, the callback of the first one resets the messenger, and the second
one is sent through a null pointer. -/
theorem not_survives_flush_two :
    ((markedDone [['a'], ['b']]).step textOf (.signalRead takesAll)).undefined = true ∧
      ¬ Survives ((markedDone [['a'], ['b']]).connected takesAll)
        (((markedDone [['a'], ['b']]).connected takesAll).flush textOf
          (markedDone [['a'], ['b']]).cache.length takesAll.replies).1 := by
  have hundefined : (((markedDone [['a'], ['b']]).connected takesAll).flush textOf
      (markedDone [['a'], ['b']]).cache.length takesAll.replies).1.undefined = true := by
    decide +kernel
  refine ⟨by decide +kernel, fun h => ?_⟩
  rw [h.defined] at hundefined
  cases hundefined

end History

end EventDispatcher.Permanent
