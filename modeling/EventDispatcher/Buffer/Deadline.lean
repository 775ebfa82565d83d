import EventDispatcher.Communicator.Poll
import EventDispatcher.Lib.Decimal

/-!
# The deadline of the blocking client

`run()` of `tcp_blocking_client_message_connection` waits until the timeout of the connection.  It
subtracts the date of the clock from the timestamp also when there is no timeout and the timestamp
is `-1`, and the number of milliseconds, of 64 bits, becomes the `int` that `poll()` takes.  It
times out at its deadline as long as there is one and it is not too far (`onTime_iff`).
-/

namespace EventDispatcher.Deadline

open Lib

/-- What a callback does on the connection. -/
inductive ClientCall where
  /-- `set_enable()` -/
  | setEnable (enabled : Bool)
  /-- `set_timeout_delay()`, with what the clock shows -/
  | setTimeoutDelay (now timeoutUs : Int64)
  /-- `set_timeout_date()` -/
  | setTimeoutDate (dateUs : Int64)
  /-- `calculate_next_tick()`, with what the clock shows -/
  | calculateNextTick (now : Int64)
  /-- The socket is replaced or closed. -/
  | setSocket (socket : ℤ)
  /-- `mark_done()` -/
  | markDone
  /-- `mark_not_done()` -/
  | markNotDone
deriving DecidableEq

/-- A `tcp_blocking_client_message_connection`. -/
structure Client where
  /-- The base class. -/
  connection : Connection
  /-- `f_line` -/
  line : Str := []
  /-- `is_done()` -/
  done : Bool := false
  /-- Whether `run()` is running. -/
  running : Bool := false
deriving DecidableEq

/-- What an iteration of `run()` does. -/
inductive Event where
  /-- `poll()` is called: the number of milliseconds and the `int` that it becomes. -/
  | polled (timeout : Int64) (handed : Int32)
  /-- A callback is called. -/
  | called (callback : Callback)
  /-- `process_line()` is called. -/
  | line (text : Str)
  /-- `run()` throws. -/
  | thrown (e : Exception)
  /-- An exception of a callback goes through `run()`. -/
  | escaped (e : Exception)
deriving DecidableEq

/-- What an iteration finds, and the callback that it calls does. -/
structure Turn where
  /-- `get_current_date()` -/
  now : Int64
  /-- `poll()` -/
  poll : PollResult
  /-- What `read()` returns. -/
  size : ℤ
  /-- The byte that it reads. -/
  byte : Char
  /-- The calls of the callback. -/
  calls : List ClientCall
  /-- The exception that it lets out, if it does. -/
  escapes : Option Exception

/-- A text of `run()`. -/
def runText (text : String) : Str :=
  "tcp_blocking_client_message_connection::run():".toList ++ text.toList

/-- The exception at the deadline. -/
def timedOut : Exception := ⟨.runtimeError, runText " blocking connection timed out."⟩

/-- The exception for an error of `poll()`. -/
def pollFailed (errno : ℕ) (text : Str) (softLimit hardLimit : ℕ) : Exception :=
  if errno = 4 then
    ⟨.runtimeError,
      runText " EINTR occurred while in poll() -- interrupts are not supported yet though."⟩
  else if errno = 14 then
    ⟨.runtimeError, runText " buffer was moved out of our address space?"⟩
  else if errno = 22 then
    ⟨.invalidParameter, runText " too many file fds for poll, limit is currently "
      ++ natText softLimit ++ ", your kernel top limit is ".toList ++ natText hardLimit ++ ['.']⟩
  else if errno = 12 then
    ⟨.runtimeError, runText " poll() failed because of memory."⟩
  else
    ⟨.invalidParameter, runText " poll() failed with error " ++ natText errno ++ " -- ".toList
      ++ text⟩

/-- The exception for a `read()` that does not return a byte. -/
def readFailed (size : ℤ) : Exception :=
  ⟨.invalidParameter, runText " read() failed reading data from socket (return value = "
    ++ intText size ++ ").".toList⟩

namespace Client

/-- A setter of the timers; one that throws changes nothing. -/
def updateOk (s : Client) : Except Exception Connection → Client
  | .ok c => { s with connection := c }
  | .error _ => s

/-- One call of a callback. -/
def perform (s : Client) : ClientCall → Client
  | .setEnable enabled => { s with connection := { s.connection with enabled := enabled } }
  | .setTimeoutDelay now timeoutUs => s.updateOk (s.connection.setTimeoutDelay now timeoutUs)
  | .setTimeoutDate dateUs => s.updateOk (s.connection.setTimeoutDate dateUs)
  | .calculateNextTick now => { s with connection := s.connection.calculateNextTick now }
  | .setSocket socket => { s with connection := { s.connection with socket := socket } }
  | .markDone => { s with done := true }
  | .markNotDone => { s with done := false }

/-- `run()` ends. -/
def stop (s : Client) : Client := { s with running := false }

/-- A callback, and what follows when it lets no exception out. -/
def callback (s : Client) (t : Turn) (event : Event) (next : Client → Client × List Event) :
    Client × List Event :=
  let s := t.calls.foldl perform s
  match t.escapes with
  | some e => (s.stop, [event, .escaped e])
  | none => ((next s).1, event :: (next s).2)

/-- What follows `poll()`: at most one byte is read. -/
def serve (s : Client) (t : Turn) (revents : UInt16) : Client × List Event :=
  let readable := revents &&& (pollIn ||| pollPri) ≠ 0
  if readable ∧ t.size ≠ 1 then
    s.callback t (.called .error) fun s => (s.stop, [.thrown (readFailed t.size)])
  else if readable ∧ t.byte = '\n' then
    s.callback t (.line s.line) fun s => ({ s with line := [], running := !s.done }, [])
  else
    let s := if readable then { s with line := s.line ++ cStr [t.byte] } else s
    if revents &&& pollErr ≠ 0 then s.callback t (.called .error) fun s => (s.stop, [])
    else if revents &&& (pollHup ||| pollRdHup) ≠ 0 then
      s.callback t (.called .hup) fun s => (s.stop, [])
    else if revents &&& pollNval ≠ 0 then s.callback t (.called .invalid) fun s => (s.stop, [])
    else (s, [])

/-- The milliseconds until the timeout, as the code computes them. -/
def timeout (c : Connection) (now : Int64) : Int64 :=
  (c.saveTimeoutTimestamp.savedTimeoutStamp - now) / 1000

/-- One iteration of the inner loop of `run()`. -/
def iterate (s : Client) (t : Turn) : Client × List Event :=
  if s.running = false then (s, [])
  else if s.connection.socket < 0 ∨ s.connection.enabled = false then
    s.callback t (.called .error) fun s => (s.stop, [])
  else
    let timeout := timeout s.connection t.now
    let s := { s with connection := s.connection.saveTimeoutTimestamp }
    if timeout ≤ 0 then
      s.callback t (.called .timeout) fun s =>
        (s.stop, if s.done then [] else [.thrown timedOut])
    else
      match t.poll with
      | .failed errno text softLimit hardLimit =>
        (s.stop, [.polled timeout timeout.toInt32,
          .thrown (pollFailed errno text softLimit hardLimit)])
      | .ready revents =>
        let r := s.serve t (revents 0)
        (r.1, .polled timeout timeout.toInt32 :: r.2)

/-- The client after an iteration. -/
def step (s : Client) (t : Turn) : Client := (s.iterate t).1

/-- `run()` starts. -/
def start (s : Client) : Client := { s with done := false, running := true }

/-- The iteration gets to the timeout. -/
def Waits (s : Client) : Prop :=
  s.running = true ∧ ¬ (s.connection.socket < 0 ∨ s.connection.enabled = false)

instance (s : Client) : Decidable s.Waits := inferInstanceAs (Decidable (_ ∧ _))

/-- A date or a delay is set. -/
def TimeoutSet (c : Connection) : Prop := c.timeoutDate ≠ -1 ∨ c.timeoutDelay ≠ -1

instance (c : Connection) : Decidable (TimeoutSet c) := inferInstanceAs (Decidable (_ ∨ _))

/-- **An iteration times out only at the deadline.** -/
structure OnTime (s : Client) (t : Turn) : Prop where
  /-- It times out only if a timeout is set that is passed or less than a millisecond away. -/
  timesOut : .called .timeout ∈ (s.iterate t).2 ∨ .thrown timedOut ∈ (s.iterate t).2 →
    TimeoutSet s.connection ∧ s.connection.getTimeoutTimestamp.toInt - t.now.toInt < 1000
  /-- It waits without limit when no timeout is set. -/
  unlimited : s.Waits → ¬ TimeoutSet s.connection →
    ∃ timeout handed, .polled timeout handed ∈ (s.iterate t).2 ∧ handed < 0
  /-- The number that `poll()` is given is not cut. -/
  whole : ∀ timeout handed, .polled timeout handed ∈ (s.iterate t).2 →
    handed.toInt = timeout.toInt

/-- When the iteration gets to the timeout, there is one, and it is less than `2 ^ 31` milliseconds
away, also in 64 bits. -/
def InReach (s : Client) (t : Turn) : Prop :=
  s.Waits → TimeoutSet s.connection ∧
    s.connection.getTimeoutTimestamp.toInt - t.now.toInt < 2 ^ 63 ∧
    s.connection.getTimeoutTimestamp - t.now < 2147483648000

instance (s : Client) (t : Turn) : Decidable (s.InReach t) := inferInstanceAs (Decidable (_ → _))

end Client

/-- The event has nothing to do with the timeout. -/
def Event.Unrelated : Event → Prop
  | .polled _ _ => False
  | .called c => c ≠ .timeout
  | .thrown e => e ≠ timedOut
  | .line _ | .escaped _ => True

namespace Client

variable {s : Client} {t : Turn}

/-! ### The events of an iteration -/

lemma runText_ne_timedOut {text : String} (h : text ≠ " blocking connection timed out.") :
    (⟨.runtimeError, runText text⟩ : Exception) ≠ timedOut := by
  intro heq
  have htext := List.append_cancel_left (congrArg Exception.what heq)
  exact h (String.toList_injective htext)

lemma readFailed_ne_timedOut (size : ℤ) : readFailed size ≠ timedOut := fun h =>
  absurd (congrArg Exception.cls h) (by simp [readFailed, timedOut])

lemma pollFailed_ne_timedOut (errno : ℕ) (text : Str) (softLimit hardLimit : ℕ) :
    pollFailed errno text softLimit hardLimit ≠ timedOut := by
  rw [pollFailed]
  split_ifs
  · exact runText_ne_timedOut (by simp)
  · exact runText_ne_timedOut (by simp)
  · exact fun h => absurd (congrArg Exception.cls h) (by simp [timedOut])
  · exact runText_ne_timedOut (by simp)
  · exact fun h => absurd (congrArg Exception.cls h) (by simp [timedOut])

lemma unrelated_called {c : Callback} (hc : c ≠ .timeout) : Event.Unrelated (.called c) := hc

lemma callback_unrelated {event : Event} (hevent : event.Unrelated)
    {next : Client → Client × List Event} (hnext : ∀ s, ∀ e ∈ (next s).2, e.Unrelated) :
    ∀ e ∈ (s.callback t event next).2, e.Unrelated := by
  rw [callback]
  cases t.escapes with
  | some x => simpa using ⟨hevent, trivial⟩
  | none => simpa using ⟨hevent, hnext _⟩

/-- What follows `poll()` has nothing to do with the timeout. -/
lemma serve_unrelated (s : Client) (t : Turn) (revents : UInt16) :
    ∀ e ∈ (s.serve t revents).2, e.Unrelated := by
  have hcalled {c : Callback} (hc : c ≠ .timeout) (s : Client) :
      ∀ e ∈ (s.callback t (.called c) fun s => (s.stop, [])).2, e.Unrelated :=
    callback_unrelated (unrelated_called hc) fun _ e he => absurd he List.not_mem_nil
  rw [serve]
  dsimp only
  split_ifs
  · refine callback_unrelated (unrelated_called (by decide)) fun s e he => ?_
    rw [List.mem_singleton.mp he]
    exact readFailed_ne_timedOut _
  · have hline : Event.Unrelated (.line s.line) := trivial
    exact callback_unrelated hline fun _ e he => absurd he List.not_mem_nil
  all_goals first
    | exact hcalled (by decide) _
    | exact fun e he => absurd he List.not_mem_nil

lemma iterate_of_not_waits (h : ¬ s.Waits) : ∀ e ∈ (s.iterate t).2, e.Unrelated := by
  rw [iterate]
  split_ifs with hrunning hinvalid
  · exact fun e he => absurd he List.not_mem_nil
  · exact callback_unrelated (unrelated_called (by decide)) fun _ e he =>
      absurd he List.not_mem_nil
  all_goals exact absurd ⟨by simpa using hrunning, hinvalid⟩ h

/-- **At the deadline**, as the code computes it, the iteration times out and does not wait. -/
lemma iterate_of_due (h : s.Waits) (hdue : timeout s.connection t.now ≤ 0) :
    .called .timeout ∈ (s.iterate t).2 ∧
      ∀ timeout handed, .polled timeout handed ∉ (s.iterate t).2 := by
  have hrunning : ¬ s.running = false := by simp [h.1]
  rw [iterate, if_neg hrunning, if_neg h.2]
  dsimp only
  rw [if_pos hdue, callback]
  cases t.escapes with
  | some x => simp
  | none =>
    dsimp only
    split_ifs <;> simp

/-- **Before it**, the iteration waits and does not time out. -/
lemma iterate_of_not_due (h : s.Waits) (hdue : ¬ timeout s.connection t.now ≤ 0) :
    ∃ rest, (s.iterate t).2 = .polled (timeout s.connection t.now)
      (timeout s.connection t.now).toInt32 :: rest ∧ ∀ e ∈ rest, e.Unrelated := by
  have hrunning : ¬ s.running = false := by simp [h.1]
  rw [iterate, if_neg hrunning, if_neg h.2]
  dsimp only
  rw [if_neg hdue]
  cases t.poll with
  | ready revents => exact ⟨_, rfl, serve_unrelated _ _ _⟩
  | failed errno text softLimit hardLimit =>
    refine ⟨_, rfl, fun e he => ?_⟩
    rw [List.mem_singleton.mp he]
    exact pollFailed_ne_timedOut _ _ _ _

/-! ### The numbers -/

lemma toInt_timeout (c : Connection) (now : Int64) :
    (timeout c now).toInt = (c.getTimeoutTimestamp - now).toInt.tdiv 1000 :=
  Int64.toInt_div_of_ne_right _ _ (by decide)

lemma timeout_le_zero_iff {c : Connection} {now : Int64} :
    timeout c now ≤ 0 ↔ (c.getTimeoutTimestamp - now).toInt < 1000 := by
  rw [Int64.le_iff_toInt_le, toInt_timeout]
  change (c.getTimeoutTimestamp - now).toInt.tdiv 1000 ≤ 0 ↔ _
  rcases le_or_gt 0 (c.getTimeoutTimestamp - now).toInt with h | h
  · rw [Int.tdiv_eq_ediv_of_nonneg h]
    omega
  · have hneg := Int.neg_tdiv (-(c.getTimeoutTimestamp - now).toInt) 1000
    have hnonneg : 0 ≤ (-(c.getTimeoutTimestamp - now).toInt).tdiv 1000 :=
      Int.tdiv_nonneg (by omega) (by decide)
    rw [neg_neg] at hneg
    exact iff_of_true (by omega) (by omega)

/-- The number is not cut when it is less than `2 ^ 31`. -/
lemma toInt_handed_iff {c : Connection} {now : Int64} (hdue : ¬ timeout c now ≤ 0) :
    (timeout c now).toInt32.toInt = (timeout c now).toInt ↔
      c.getTimeoutTimestamp - now < 2147483648000 := by
  rw [timeout_le_zero_iff, not_lt] at hdue
  have hhigh := (c.getTimeoutTimestamp - now).toInt_lt
  rw [Int64.toInt_toInt32, toInt_timeout, Int.tdiv_eq_ediv_of_nonneg (by omega),
    Int64.lt_iff_toInt_lt, Int.bmod_def]
  change _ ↔ (c.getTimeoutTimestamp - now).toInt < 2147483648000
  omega

/-- The code finds the deadline only where it is, as long as the difference fits in 64 bits. -/
lemma lt_of_due {c : Connection} {now : Int64} (hdue : timeout c now ≤ 0) :
    c.getTimeoutTimestamp.toInt - now.toInt < 1000 ↔
      c.getTimeoutTimestamp.toInt - now.toInt < 2 ^ 63 := by
  rw [timeout_le_zero_iff] at hdue
  have hcases := Communicator.toInt_sub_cases c.getTimeoutTimestamp now
  omega

/-- A wait that the code finds positive is one in 64 bits. -/
lemma lt_of_not_due {c : Connection} {now : Int64} (hdue : ¬ timeout c now ≤ 0) :
    c.getTimeoutTimestamp.toInt - now.toInt < 2 ^ 63 := by
  rw [timeout_le_zero_iff] at hdue
  have hcases := Communicator.toInt_sub_cases c.getTimeoutTimestamp now
  have htimestamp := c.getTimeoutTimestamp.toInt_lt
  have hnow := now.le_toInt
  have hhigh := (c.getTimeoutTimestamp - now).toInt_lt
  omega

/-- Without a timeout, the code computes a number that is not negative, or it times out. -/
lemma not_onTime_of_not_set (h : s.Waits) (hset : ¬ TimeoutSet s.connection) : ¬ s.OnTime t := by
  intro hon
  by_cases hdue : timeout s.connection t.now ≤ 0
  · exact hset (hon.timesOut (Or.inl (iterate_of_due h hdue).1)).1
  · obtain ⟨rest, heq, hrest⟩ := iterate_of_not_due h hdue
    obtain ⟨n, handed, hmem, hneg⟩ := hon.unlimited h hset
    have hwhole := hon.whole n handed hmem
    rw [heq, List.mem_cons] at hmem
    rcases hmem with hmem | hmem
    · cases hmem
      rw [Int64.le_iff_toInt_le] at hdue
      rw [Int32.lt_iff_toInt_lt, hwhole] at hneg
      exact hdue hneg.le
    · exact hrest _ hmem

/-- An iteration that does not get to the timeout has no event of it. -/
lemma onTime_of_not_waits (h : ¬ s.Waits) : s.OnTime t := by
  have hunrelated : ∀ e ∈ (s.iterate t).2, e.Unrelated := iterate_of_not_waits h
  refine ⟨fun hout => ?_, fun hwaits => absurd hwaits h, fun n handed hmem => ?_⟩
  · rcases hout with hout | hout
    · exact absurd rfl (hunrelated _ hout)
    · exact absurd rfl (hunrelated _ hout)
  · exact absurd (hunrelated _ hmem) id

/-- When the code finds the deadline, it is right to if the difference fits in 64 bits. -/
lemma onTime_of_due (h : s.Waits) (hset : TimeoutSet s.connection)
    (hdue : timeout s.connection t.now ≤ 0) :
    s.OnTime t ↔ s.connection.getTimeoutTimestamp.toInt - t.now.toInt < 2 ^ 63 := by
  obtain ⟨hcalled, hpolled⟩ := iterate_of_due h hdue
  rw [← lt_of_due hdue]
  constructor
  · intro hon
    exact (hon.timesOut (Or.inl hcalled)).2
  · intro hlt
    exact ⟨fun _ => ⟨hset, hlt⟩, fun _ hnot => absurd hset hnot,
      fun n handed hmem => absurd hmem (hpolled n handed)⟩

/-- When the code waits, it is right to if the number is not cut. -/
lemma onTime_of_not_due (h : s.Waits) (hset : TimeoutSet s.connection)
    (hdue : ¬ timeout s.connection t.now ≤ 0) :
    s.OnTime t ↔ s.connection.getTimeoutTimestamp - t.now < 2147483648000 := by
  obtain ⟨rest, heq, hrest⟩ := iterate_of_not_due h hdue
  rw [← toInt_handed_iff hdue]
  constructor
  · intro hon
    exact hon.whole _ _ (heq ▸ List.mem_cons_self)
  · intro hwhole
    refine ⟨fun hout => ?_, fun _ hnot => absurd hset hnot, fun n handed hmem => ?_⟩
    · rw [heq] at hout
      rcases hout with hout | hout
      · exact absurd rfl (hrest _ (List.mem_of_ne_of_mem (by simp) hout))
      · exact absurd rfl (hrest _ (List.mem_of_ne_of_mem (by simp) hout))
    · rw [heq, List.mem_cons] at hmem
      rcases hmem with hmem | hmem
      · cases hmem
        exact hwhole
      · exact absurd hmem fun hmem => hrest _ hmem

/-- **One iteration** times out only at the deadline exactly when it is in reach. -/
lemma onTime_iterate_iff : s.OnTime t ↔ s.InReach t := by
  by_cases h : s.Waits
  · rw [InReach, forall_prop_of_true h]
    by_cases hset : TimeoutSet s.connection
    · by_cases hdue : timeout s.connection t.now ≤ 0
      · have hfits : s.connection.getTimeoutTimestamp - t.now < 2147483648000 := by
          rw [timeout_le_zero_iff] at hdue
          exact Int64.lt_iff_toInt_lt.mpr (hdue.trans (by decide))
        rw [onTime_of_due h hset hdue]
        exact ⟨fun hexact => ⟨hset, hexact, hfits⟩, fun hreach => hreach.2.1⟩
      · rw [onTime_of_not_due h hset hdue]
        exact ⟨fun hfits => ⟨hset, lt_of_not_due hdue, hfits⟩, fun hreach => hreach.2.2⟩
    · exact iff_of_false (not_onTime_of_not_set h hset) fun hreach => hset hreach.1
  · exact iff_of_true (onTime_of_not_waits h) fun hwaits => absurd hwaits h

/-! ### Runs -/

/-- **The blocking client times out only at its deadline** exactly when the timeout is in reach in
each of the iterations of `run()`. -/
theorem onTime_iff (s : Client) (turns : List Turn) :
    (∀ p ∈ visited step s.start turns, p.1.OnTime p.2) ↔
      ∀ p ∈ visited step s.start turns, p.1.InReach p.2 :=
  forall₂_congr fun _ _ => onTime_iterate_iff

/-- A client without a timeout times out at once. -/
theorem not_onTime :
    ¬ ∀ (s : Client) (turns : List Turn), ∀ p ∈ visited step s.start turns, p.1.OnTime p.2 := by
  intro h
  have hon := h { connection := { socket := 3 } }
    [⟨1700000000000000, .ready fun _ => 0, 0, 'x', [], none⟩] _ List.mem_cons_self
  have hset := (hon.timesOut (Or.inl (by decide))).1
  exact absurd hset (by decide)

end Client

end EventDispatcher.Deadline
