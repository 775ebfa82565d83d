import EventDispatcher.Lib.Run
import Mathlib.Logic.Function.Basic
import Mathlib.Data.List.Basic

/-!
# Messages between two threads

An `inter_thread_message_connection` has a queue and an `eventfd` for each of its two threads.
`send_message()` pushes the message and then adds one to the counter of the `eventfd`;
`process_read()` pops a message and then takes one from the counter.  The threads are interleaved
at each access to a queue or to a counter.  A *channel* is one direction; it is named by the
thread that reads it.  What was sent on a channel, and what was received, are read off the actions
of a run (`Connection.sends`, `Connection.receives`).
-/

namespace EventDispatcher.InterThread

open Lib

/-- The two threads: `a` created the connection. -/
inductive Thread where
  | a
  | b
deriving DecidableEq, Repr

/-- The thread at the other end. -/
def Thread.other : Thread → Thread
  | .a => .b
  | .b => .a

/-- What one thread reads and the other one writes. -/
structure Channel (M : Type) where
  /-- `f_message_a` or `f_message_b` -/
  message : List M := []
  /-- The counter of `f_thread_a` or `f_thread_b`. -/
  thread : ℕ := 0
  /-- Whether `pop_front()` found the queue empty. -/
  emptyPop : Bool := false
  /-- Whether the `read()` of the counter failed, and `process_read()` threw. -/
  thrown : Bool := false

/-- Where a thread is. -/
inductive Point (M : Type) where
  /-- In none of the two functions. -/
  | idle
  /-- In `send_message()`, after `push_back()`. -/
  | pushed
  /-- In `process_read()`, after `pop_front()`; `none` is a queue that was empty. -/
  | popped (got : Option M)
  /-- In `process_read()`, after the `read()` of the counter. -/
  | taken (got : Option M)

variable {M : Type}

namespace Channel

/-- `push_back()` -/
def pushBack (c : Channel M) (msg : M) : Channel M :=
  { c with message := c.message ++ [msg] }

/-- The `write()` of `send_message()`. -/
def write (c : Channel M) : Channel M := { c with thread := c.thread + 1 }

/-- `pop_front()` that does not wait. -/
def popFront (c : Channel M) : Channel M × Option M :=
  match c.message with
  | [] => ({ c with emptyPop := true }, none)
  | msg :: message => ({ c with message := message }, some msg)

/-- The `read()` of `process_read()`; it fails when the counter is zero. -/
def read (c : Channel M) : Channel M × Bool :=
  if c.thread = 0 then ({ c with thrown := true }, false)
  else ({ c with thread := c.thread - 1 }, true)

end Channel

/-- The connection, and where its threads are. -/
structure Connection (M : Type) where
  /-- What each thread reads. -/
  channel : Thread → Channel M := fun _ => {}
  /-- Where each thread is. -/
  point : Thread → Point M := fun _ => .idle

/-- The next thing that a thread does. -/
inductive Action (M : Type) where
  /-- `send_message()` is called, up to its `push_back()`. -/
  | sendMessage (t : Thread) (msg : M)
  /-- The `write()` of `send_message()`, which then returns. -/
  | write (t : Thread)
  /-- `process_read()` is called, up to its `pop_front()`. -/
  | processRead (t : Thread)
  /-- The `read()` of `process_read()`. -/
  | read (t : Thread)
  /-- The callback with the message; it may do anything next. -/
  | processMessage (t : Thread)

namespace Connection

/-- Thread `t` goes on to `p`, after the channel that `r` reads became `c`. -/
def goes (s : Connection M) (t r : Thread) (c : Channel M) (p : Point M) : Connection M :=
  { channel := Function.update s.channel r c, point := Function.update s.point t p }

/-- A thread does the next thing; what it cannot do where it is changes nothing.
`process_read()` is only called when the counter is not zero. -/
def step (s : Connection M) : Action M → Connection M
  | .sendMessage t msg =>
    match s.point t with
    | .idle => s.goes t t.other ((s.channel t.other).pushBack msg) .pushed
    | _ => s
  | .write t =>
    match s.point t with
    | .pushed => s.goes t t.other (s.channel t.other).write .idle
    | _ => s
  | .processRead t =>
    match s.point t with
    | .idle =>
      if 0 < (s.channel t).thread then
        let (c, got) := (s.channel t).popFront
        s.goes t t c (.popped got)
      else s
    | _ => s
  | .read t =>
    match s.point t with
    | .popped got =>
      let (c, ok) := (s.channel t).read
      s.goes t t c (if ok then .taken got else .idle)
    | _ => s
  | .processMessage t =>
    match s.point t with
    | .taken _ => s.goes t t (s.channel t) .idle
    | _ => s

end Connection

/-! ### The messages of a run -/

/-- Whether the thread is in none of the two functions, so that it can call one. -/
def Point.isIdle : Point M → Bool
  | idle => true
  | pushed | popped _ | taken _ => false

/-- The message that the thread is about to give to its callback. -/
def Point.ready : Point M → List M
  | taken got => got.toList
  | idle | pushed | popped _ => []

namespace Connection

/-- The messages that an action gives to `send_message()` for the thread `t`. -/
def sends (s : Connection M) (t : Thread) : Action M → List M
  | .sendMessage u msg => if u = t.other ∧ (s.point u).isIdle = true then [msg] else []
  | .write _ | .processRead _ | .read _ | .processMessage _ => []

/-- The messages that an action gives to `process_message_a()` or `process_message_b()` of the
thread `t`. -/
def receives (s : Connection M) (t : Thread) : Action M → List M
  | .processMessage u => if u = t then (s.point u).ready else []
  | .sendMessage _ _ | .write _ | .processRead _ | .read _ => []

/-- The messages that were sent to a thread in a run of a new connection, in order. -/
def sentTo (l : List (Action M)) (t : Thread) : List M :=
  (visited step {} l).flatMap fun p => p.1.sends t p.2

/-- The messages that a thread received in a run of a new connection, in order. -/
def receivedBy (l : List (Action M)) (t : Thread) : List M :=
  (visited step {} l).flatMap fun p => p.1.receives t p.2

end Connection

/-! ### The invariant of a channel -/

namespace Point

/-- The messages that the thread popped and did not process yet. -/
def hand : Point M → List M
  | popped got | taken got => got.toList
  | idle | pushed => []

/-- The messages that the thread popped and did not count yet. -/
def uncounted : Point M → ℕ
  | popped _ => 1
  | idle | pushed | taken _ => 0

/-- The messages that the thread pushed and did not count yet. -/
def unposted : Point M → ℕ
  | pushed => 1
  | idle | popped _ | taken _ => 0

end Point

/-- What holds of a channel whose threads are at `reader` and at `writer`, after the messages
`sent` were sent and the messages `received` were received. -/
structure Good (c : Channel M) (reader writer : Point M) (received sent : List M) : Prop where
  /-- Each message in the queue is counted, but for those that a thread is about to count. -/
  count : c.message.length + reader.uncounted = c.thread + writer.unposted
  /-- The reader finds what it is about to take. -/
  token : reader.uncounted ≤ c.thread
  /-- No message is lost, and the order is kept. -/
  messages : received ++ reader.hand ++ c.message = sent
  /-- The queue was never found empty. -/
  emptyPop : c.emptyPop = false
  /-- No `read()` failed. -/
  thrown : c.thrown = false

namespace Good

variable {c : Channel M} {reader writer : Point M} {received sent : List M}

/-- The reader is somewhere else, with the same messages. -/
lemma reader_congr (h : Good c reader writer received sent) {p : Point M}
    (hhand : p.hand = reader.hand) (huncounted : p.uncounted = reader.uncounted) :
    Good c p writer received sent :=
  ⟨by rw [huncounted]; exact h.count, by rw [huncounted]; exact h.token,
    by rw [hhand]; exact h.messages, h.emptyPop, h.thrown⟩

/-- The writer is somewhere else. -/
lemma writer_congr (h : Good c reader writer received sent) {p : Point M}
    (hp : p.unposted = writer.unposted) : Good c reader p received sent :=
  ⟨by rw [hp]; exact h.count, h.token, h.messages, h.emptyPop, h.thrown⟩

lemma pushBack (h : Good c reader .idle received sent) (msg : M) :
    Good (c.pushBack msg) reader .pushed received (sent ++ [msg]) := by
  refine ⟨?_, h.token, ?_, h.emptyPop, h.thrown⟩
  · have hcount := h.count
    simp only [Channel.pushBack, List.length_append, List.length_singleton, Point.unposted] at *
    omega
  · change received ++ reader.hand ++ (c.message ++ [msg]) = sent ++ [msg]
    rw [← h.messages, List.append_assoc, List.append_assoc, List.append_assoc]

lemma write (h : Good c reader .pushed received sent) :
    Good c.write reader .idle received sent := by
  refine ⟨?_, Nat.le_trans h.token (Nat.le_succ _), h.messages, h.emptyPop, h.thrown⟩
  have hcount := h.count
  simp only [Channel.write, Point.unposted] at *
  omega

/-- The counter says that there is a message. -/
lemma popFront (h : Good c .idle writer received sent) (hthread : 0 < c.thread) :
    Good c.popFront.1 (.popped c.popFront.2) writer received sent := by
  have hcount := h.count
  have hmessages := h.messages
  rw [Channel.popFront]
  cases hm : c.message with
  | nil =>
    -- an empty queue is counted as empty
    rw [hm] at hcount
    simp only [List.length_nil, Point.uncounted] at hcount
    omega
  | cons msg message =>
    rw [hm] at hcount hmessages
    refine ⟨?_, hthread, ?_, h.emptyPop, h.thrown⟩
    · simp only [List.length_cons, Point.uncounted] at *
      omega
    · simpa [Point.hand] using hmessages

lemma read {got : Option M} (h : Good c (.popped got) writer received sent) :
    c.read.2 = true ∧ Good c.read.1 (.taken got) writer received sent := by
  have htoken : 1 ≤ c.thread := h.token
  have hcount := h.count
  rw [Channel.read]
  rw [if_neg (by omega)]
  refine ⟨rfl, ?_, Nat.zero_le _, h.messages, h.emptyPop, h.thrown⟩
  simp only [Point.uncounted] at *
  omega

lemma processMessage {got : Option M} (h : Good c (.taken got) writer received sent) :
    Good c .idle writer (received ++ got.toList) sent := by
  refine ⟨h.count, Nat.zero_le _, ?_, h.emptyPop, h.thrown⟩
  have hmessages := h.messages
  simpa [Point.hand] using hmessages

end Good

/-! ### The two channels together -/

@[simp] lemma Thread.other_other (t : Thread) : t.other.other = t := by cases t <;> rfl

@[simp] lemma Thread.other_ne (t : Thread) : t.other ≠ t := by cases t <;> decide

@[simp] lemma Thread.ne_other (t : Thread) : t ≠ t.other := t.other_ne.symm

lemma Thread.eq_or_eq_other (r t : Thread) : r = t ∨ r = t.other := by
  cases r <;> cases t <;> decide

namespace Connection

variable {s : Connection M} {c : Channel M} {p : Point M} {received sent : Thread → List M}

/-- What holds of the two channels. -/
def Sound (s : Connection M) (received sent : Thread → List M) : Prop :=
  ∀ t, Good (s.channel t) (s.point t) (s.point t.other) (received t) (sent t)

lemma sound_new : ({} : Connection M).Sound (fun _ => []) fun _ => [] :=
  fun _ => ⟨rfl, Nat.zero_le _, rfl, rfl, rfl⟩

@[simp] lemma goes_point (s : Connection M) (t r : Thread) : (s.goes t r c p).point t = p :=
  Function.update_self ..

@[simp] lemma goes_point_other (s : Connection M) (t r : Thread) :
    (s.goes t r c p).point t.other = s.point t.other :=
  Function.update_of_ne t.other_ne ..

@[simp] lemma goes_channel (s : Connection M) (t r : Thread) : (s.goes t r c p).channel r = c :=
  Function.update_self ..

@[simp] lemma goes_channel_other (s : Connection M) (t r : Thread) :
    (s.goes t r c p).channel r.other = s.channel r.other :=
  Function.update_of_ne r.other_ne ..

/-- A thread that changes the channel it writes to. -/
lemma Sound.goes_writer (hs : s.Sound received sent) (t : Thread) {sent' : Thread → List M}
    (hc : Good c (s.point t.other) p (received t.other) (sent' t.other)) (hsent : sent' t = sent t)
    (hhand : p.hand = (s.point t).hand) (huncounted : p.uncounted = (s.point t).uncounted) :
    (s.goes t t.other c p).Sound received sent' := by
  intro r
  rcases r.eq_or_eq_other t with rfl | rfl
  · have hsame : (s.goes r r.other c p).channel r = s.channel r := by
      simpa using goes_channel_other s r r.other
    rw [hsame, goes_point, goes_point_other, hsent]
    exact (hs r).reader_congr hhand huncounted
  · simpa using hc

/-- A thread that changes the channel it reads. -/
lemma Sound.goes_reader (hs : s.Sound received sent) (t : Thread) {received' : Thread → List M}
    (hc : Good c p (s.point t.other) (received' t) (sent t))
    (hreceived : received' t.other = received t.other)
    (hunposted : p.unposted = (s.point t).unposted) : (s.goes t t c p).Sound received' sent := by
  intro r
  rcases r.eq_or_eq_other t with rfl | rfl
  · simpa using hc
  · have hother := hs t.other
    rw [Thread.other_other, ← hreceived] at hother
    simpa using hother.writer_congr hunposted

/-- **Each action** keeps what holds of the channels, with the messages that it sends and
receives. -/
lemma Sound.step (hs : s.Sound received sent) (a : Action M) :
    (s.step a).Sound (fun t => received t ++ s.receives t a) fun t => sent t ++ s.sends t a := by
  cases a with
  | sendMessage t msg =>
    simp only [receives, sends, Connection.step, List.append_nil]
    split
    case h_1 hidle =>
      have hother := hs t.other
      rw [Thread.other_other, hidle] at hother
      refine hs.goes_writer t ?_ ?_ (by rw [hidle]; rfl) (by rw [hidle]; rfl)
      · simpa [hidle, Point.isIdle] using hother.pushBack msg
      · simp
    case h_2 hbusy =>
      have hidle : (s.point t).isIdle = false := by
        cases hp : s.point t with
        | idle => exact absurd hp hbusy
        | _ => rfl
      simpa [hidle] using hs
  | write t =>
    simp only [receives, sends, Connection.step, List.append_nil]
    split
    case h_1 hpushed =>
      have hother := hs t.other
      rw [Thread.other_other, hpushed] at hother
      exact hs.goes_writer t hother.write rfl (by rw [hpushed]; rfl) (by rw [hpushed]; rfl)
    case h_2 => exact hs
  | processRead t =>
    simp only [receives, sends, Connection.step, List.append_nil]
    split
    case h_1 hidle =>
      have hreader := hs t
      rw [hidle] at hreader
      split
      case isTrue hthread =>
        exact hs.goes_reader t (hreader.popFront hthread) rfl (by rw [hidle]; rfl)
      case isFalse => exact hs
    case h_2 => exact hs
  | read t =>
    simp only [receives, sends, Connection.step, List.append_nil]
    split
    case h_1 got hpopped =>
      have hreader := hs t
      rw [hpopped] at hreader
      obtain ⟨hok, hgood⟩ := hreader.read
      rw [hok]
      exact hs.goes_reader t hgood rfl (by rw [hpopped]; rfl)
    case h_2 => exact hs
  | processMessage t =>
    simp only [receives, sends, Connection.step, List.append_nil]
    split
    case h_1 got htaken =>
      have hreader := hs t
      rw [htaken] at hreader
      refine hs.goes_reader t ?_ ?_ (by rw [htaken]; rfl)
      · simpa [htaken, Point.ready] using hreader.processMessage
      · simp
    case h_2 hbusy =>
      have hready : (s.point t).ready = [] := by
        cases hp : s.point t with
        | taken got => exact absurd hp (hbusy got)
        | _ => rfl
      simpa [hready] using hs

/-- What a run keeps, with the messages that it sends and receives. -/
lemma Sound.runFrom (hs : s.Sound received sent) (l : List (Action M)) :
    (runFrom Connection.step s l).Sound
      (fun t => received t ++ (visited Connection.step s l).flatMap fun p => p.1.receives t p.2)
      fun t => sent t ++ (visited Connection.step s l).flatMap fun p => p.1.sends t p.2 := by
  induction l generalizing s received sent with
  | nil => simpa [Lib.runFrom] using hs
  | cons a l ih =>
    have hafter := ih (hs.step a)
    simp only [List.append_assoc] at hafter
    exact hafter

end Connection

end EventDispatcher.InterThread
