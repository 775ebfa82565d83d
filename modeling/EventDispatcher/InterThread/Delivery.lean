import EventDispatcher.InterThread.Connection

/-!
# Delivery between two threads

Whatever the order in which the two threads take their steps, each of them receives the messages
of the other one, each once and in order (`exactly_once`): those of the calls of `send_message()` in
the run.  The messages that are still on their
way are the one that the reader has in hand and those in the queue, and the reader gets them all
by going on as long as its counter is not zero.
-/

namespace EventDispatcher.InterThread

open Lib

variable {M : Type}

/-- The action is not a call of `send_message()`. -/
def Action.silent : Action M → Bool
  | .sendMessage _ _ => false
  | .write _ | .processRead _ | .read _ | .processMessage _ => true

namespace Connection

variable {s : Connection M} {received sent : Thread → List M}

/-- Only `send_message()` sends. -/
lemma sends_of_silent (s : Connection M) {a : Action M} (ha : a.silent = true) (t : Thread) :
    s.sends t a = [] := by
  cases a with
  | sendMessage u msg => cases ha
  | _ => rfl

/-- What a run without new messages keeps: the messages that were sent. -/
lemma silent_run (hs : s.Sound received sent) {l : List (Action M)}
    (hl : ∀ a ∈ l, a.silent = true) :
    (runFrom step s l).Sound
      (fun t => received t ++ (visited step s l).flatMap fun p => p.1.receives t p.2) sent := by
  have hsent : ∀ t, (visited step s l).flatMap (fun p => p.1.sends t p.2) = [] := fun t =>
    List.flatMap_eq_nil_iff.mpr fun p hp =>
      sends_of_silent p.1 (hl p.2 (mem_of_mem_visited hp)) t
  simpa only [hsent, List.append_nil] using hs.runFrom l

/-- A thread ends the function it is in, and the other one stays where it is. -/
lemma exists_idle (hs : s.Sound received sent) (t : Thread) :
    ∃ l : List (Action M), (∀ a ∈ l, a.silent = true) ∧ (runFrom step s l).point t = .idle ∧
      (runFrom step s l).point t.other = s.point t.other := by
  cases hp : s.point t with
  | idle => exact ⟨[], by simp, hp, rfl⟩
  | pushed =>
    exact ⟨[.write t], by simp [Action.silent], by simp [runFrom, step, hp],
      by simp [runFrom, step, hp]⟩
  | popped got =>
    have hreader := hs t
    rw [hp] at hreader
    have hok := hreader.read.1
    exact ⟨[.read t, .processMessage t], by simp [Action.silent],
      by simp [runFrom, step, hp, hok], by simp [runFrom, step, hp, hok]⟩
  | taken got =>
    exact ⟨[.processMessage t], by simp [Action.silent], by simp [runFrom, step, hp],
      by simp [runFrom, step, hp]⟩

/-- One message is read from the beginning to the end. -/
lemma run_reads (hs : s.Sound received sent) {t : Thread} (ht : s.point t = .idle)
    (hthread : 0 < (s.channel t).thread) :
    let s' := runFrom step s [.processRead t, .read t, .processMessage t]
    s'.point t = .idle ∧ s'.point t.other = s.point t.other ∧
      (s'.channel t).message = (s.channel t).message.tail := by
  have hgood := hs t
  rw [ht] at hgood
  have hok := (hgood.popFront hthread).read.1
  have hfirst : s.step (.processRead t) =
      s.goes t t (s.channel t).popFront.1 (.popped (s.channel t).popFront.2) := by
    simp only [step, ht, if_pos hthread]
  have hmessage : (s.channel t).popFront.1.message = (s.channel t).message.tail := by
    rw [Channel.popFront]
    cases (s.channel t).message with
    | nil => rfl
    | cons msg message => rfl
  have hread : (s.channel t).popFront.1.read.1.message = (s.channel t).popFront.1.message := by
    rw [Channel.read]
    split <;> rfl
  simp only [runFrom, List.foldl_cons, List.foldl_nil, hfirst]
  simp [step, hok, hread, hmessage]

/-- A thread that is woken up as long as its counter is not zero empties its queue. -/
lemma exists_drained (hs : s.Sound received sent) {t : Thread} (ht : s.point t = .idle)
    (hother : s.point t.other = .idle) {n : ℕ} (hn : (s.channel t).message.length = n) :
    ∃ l : List (Action M), (∀ a ∈ l, a.silent = true) ∧ (runFrom step s l).point t = .idle ∧
      ((runFrom step s l).channel t).message = [] := by
  induction n generalizing s received with
  | zero => exact ⟨[], by simp, ht, List.length_eq_zero_iff.mp hn⟩
  | succ n ih =>
    have hgood := hs t
    rw [ht, hother] at hgood
    have hthread : 0 < (s.channel t).thread := by
      have hcount := hgood.count
      simp only [Point.uncounted, Point.unposted] at hcount
      omega
    have hsilent : ∀ a ∈ [Action.processRead t, .read t, .processMessage t],
        (a : Action M).silent = true := by simp [Action.silent]
    obtain ⟨hidle, hother', hmessage⟩ := run_reads hs ht hthread
    have hlength : ((runFrom step s [.processRead t, .read t, .processMessage t]).channel
        t).message.length = n := by
      rw [hmessage, List.length_tail, hn, Nat.add_sub_cancel]
    obtain ⟨l, hl, hidle', hempty⟩ :=
      ih (silent_run hs hsilent) hidle (hother'.trans hother) hlength
    refine ⟨[.processRead t, .read t, .processMessage t] ++ l, fun a ha => ?_, ?_, ?_⟩
    · rcases List.mem_append.mp ha with ha | ha
      · exact hsilent a ha
      · exact hl a ha
    · rw [runFrom, List.foldl_append]
      exact hidle'
    · rw [runFrom, List.foldl_append]
      exact hempty

/-- What is still on its way can be received without any new message. -/
lemma exists_received (hs : s.Sound received sent) (t : Thread) :
    ∃ l : List (Action M), (∀ a ∈ l, a.silent = true) ∧
      received t ++ (visited step s l).flatMap (fun p => p.1.receives t p.2) = sent t := by
  -- both threads end what they are doing, then `t` empties its queue
  obtain ⟨l₁, hl₁, hother, -⟩ := exists_idle hs t.other
  have hsound₁ := silent_run hs hl₁
  obtain ⟨l₂, hl₂, hidle, hkept⟩ := exists_idle hsound₁ t
  have hsound₂ := silent_run hsound₁ hl₂
  obtain ⟨l₃, hl₃, hidle', hempty⟩ := exists_drained hsound₂ hidle (hkept.trans hother) rfl
  have hall : ∀ a ∈ l₁ ++ l₂ ++ l₃, a.silent = true := by
    intro a ha
    simp only [List.mem_append] at ha
    rcases ha with (ha | ha) | ha
    · exact hl₁ a ha
    · exact hl₂ a ha
    · exact hl₃ a ha
  have hrun : runFrom step s (l₁ ++ l₂ ++ l₃) =
      runFrom step (runFrom step (runFrom step s l₁) l₂) l₃ := by
    simp only [runFrom, List.foldl_append]
  have hmessages := (silent_run hs hall t).messages
  rw [hrun, hidle', hempty] at hmessages
  refine ⟨l₁ ++ l₂ ++ l₃, hall, ?_⟩
  simpa [Point.hand] using hmessages

/-- However the two threads are interleaved, what a thread received, has in hand and has in its
queue are the messages of the calls of `send_message()` by the other one, in order.  No
`pop_front()` finds the queue empty and no `read()` fails.  Between two calls the counter is the
number of messages in the queue, so a thread that is not woken up received them all; and from
wherever the threads are, it does receive them all. -/
theorem exactly_once (l : List (Action M)) (t : Thread) :
    let s := runFrom step ({} : Connection M) l
    let c := s.channel t
    receivedBy l t ++ (s.point t).hand ++ c.message = sentTo l t ∧
      c.emptyPop = false ∧ c.thrown = false ∧
      (s.point t = .idle → s.point t.other = .idle →
        c.thread = c.message.length ∧ (c.thread = 0 → receivedBy l t = sentTo l t)) ∧
      ∃ l' : List (Action M), (∀ a ∈ l', a.silent = true) ∧
        receivedBy (l ++ l') t = sentTo l t := by
  intro s c
  have hs := (sound_new (M := M)).runFrom l
  have hgood : Good c (s.point t) (s.point t.other) (receivedBy l t) (sentTo l t) := hs t
  refine ⟨hgood.messages, hgood.emptyPop, hgood.thrown, fun ht hother => ?_, ?_⟩
  · rw [ht, hother] at hgood
    have hcount : c.message.length = c.thread := hgood.count
    refine ⟨hcount.symm, fun hzero => ?_⟩
    have hempty : c.message = [] := List.length_eq_zero_iff.mp (hcount.trans hzero)
    have hmessages := hgood.messages
    rw [hempty] at hmessages
    simpa [Point.hand] using hmessages
  · obtain ⟨l', hl', hreceived⟩ := exists_received hs t
    refine ⟨l', hl', ?_⟩
    rw [receivedBy, visited_append, List.flatMap_append]
    exact hreceived

/-- The thread `b` sends two messages, and `a` reads the first one while the second one is sent. -/
def overlapping : List (Action ℕ) :=
  [.sendMessage .b 1, .write .b, .sendMessage .b 2, .processRead .a, .read .a, .write .b,
    .processMessage .a]

theorem exactly_once_overlapping :
    receivedBy overlapping .a = [1] ∧ sentTo overlapping .a = [1, 2] ∧
      ∃ l' : List (Action ℕ), (∀ a ∈ l', a.silent = true) ∧
        receivedBy (overlapping ++ l') .a = [1, 2] := by
  obtain ⟨-, -, -, -, hall⟩ := exactly_once overlapping .a
  exact ⟨by decide, by decide, hall⟩

end Connection

end EventDispatcher.InterThread
