import EventDispatcher.Communicator.Poll
import EventDispatcher.Communicator.Tick

/-!
# The range of the timer arithmetic

The dates are 64 bit numbers of microseconds, and the setters only bound their argument below.
The values that the timers compute are listed here as integers, beside the code that computes
them in 64 bits: none of them leaves the 64 bits exactly when the delays that are set leave room
after the clock (`TimerCall.Fits`), and then a timestamp is the date that was set, or not before
the clock at which the delay was set.
-/

namespace EventDispatcher

open Lib

/-- The earliest timestamp of the enabled connections, as the setup of an iteration finds it. -/
def nextTimeout (heap : ℕ → Connection) (connections : List ℕ) : Int64 :=
  connections.foldl (fun next c => (heap c).earlier next) Int64.maxValue

/-! ### The values that are computed -/

/-- The sum of `set_timeout_delay()`. -/
def setTimeoutDelayValues (now timeoutUs : Int64) : List ℤ :=
  if timeoutUs < 10 then [] else [now.toInt + timeoutUs.toInt]

/-- The values that `calculate_next_tick()` computes, in order. -/
def Connection.calculateNextTickValues (c : Connection) (now : Int64) : List ℤ :=
  if c.timeoutDelay = -1 ∨ now < c.timeoutNextDate then []
  else
    let elapsed := now.toInt - c.timeoutDelayStartDate.toInt
    let sum := elapsed + c.timeoutDelay.toInt
    let ticks := (sum - 1).tdiv c.timeoutDelay.toInt
    let product := ticks * c.timeoutDelay.toInt
    [elapsed, sum, sum - 1, ticks, product, c.timeoutDelayStartDate.toInt + product]

/-- The values of the computation of the timeout in `run()`. -/
def pollTimeoutValues (nextTimeoutTimestamp now : Int64) : List ℤ :=
  if nextTimeoutTimestamp = Int64.maxValue then []
  else
    let timeout := nextTimeoutTimestamp.toInt - now.toInt
    if timeout < 0 then [timeout] else [timeout, timeout.tdiv 1000]

/-! ### The calls -/

/-- The calls that read or set the timers of the connections. -/
inductive TimerCall where
  /-- `connection::set_enable()` -/
  | setEnable (c : ℕ) (enabled : Bool)
  /-- `connection::set_timeout_delay()` when the clock shows `now` -/
  | setTimeoutDelay (c : ℕ) (now timeoutUs : Int64)
  /-- `connection::set_timeout_date()` -/
  | setTimeoutDate (c : ℕ) (dateUs : Int64)
  /-- `connection::calculate_next_tick()` when the clock shows `now` -/
  | calculateNextTick (c : ℕ) (now : Int64)
  /-- The loop finds that a connection timed out: the clock shows `now` when the timestamp is
  tested, and `tickNow` in `calculate_next_tick()`. -/
  | tick (c : ℕ) (now tickNow : Int64)
  /-- The loop computes the timeout for a list of connections when the clock shows `now`. -/
  | pollTimeout (connections : List ℕ) (now : Int64)

namespace TimerCall

/-- The readings of the clock. -/
def readings : TimerCall → List Int64
  | .setEnable _ _ => []
  | .setTimeoutDelay _ now _ => [now]
  | .setTimeoutDate _ _ => []
  | .calculateNextTick _ now => [now]
  | .tick _ now tickNow => [now, tickNow]
  | .pollTimeout _ now => [now]

/-- A connection after a setter, or as it was when the setter throws. -/
def updateOk (heap : ℕ → Connection) (c : ℕ) : Except Exception Connection → ℕ → Connection
  | .ok o => Function.update heap c o
  | .error _ => heap

/-- The connections after a call. -/
def step (heap : ℕ → Connection) : TimerCall → ℕ → Connection
  | .setEnable c enabled => Function.update heap c { heap c with enabled := enabled }
  | .setTimeoutDelay c now timeoutUs => updateOk heap c ((heap c).setTimeoutDelay now timeoutUs)
  | .setTimeoutDate c dateUs => updateOk heap c ((heap c).setTimeoutDate dateUs)
  | .calculateNextTick c now => Function.update heap c ((heap c).calculateNextTick now)
  | .tick c now tickNow => Function.update heap c ((heap c).tick now tickNow)
  | .pollTimeout _ _ => heap

/-- The values that a call computes. -/
def values (heap : ℕ → Connection) : TimerCall → List ℤ
  | .setEnable _ _ => []
  | .setTimeoutDelay _ now timeoutUs => setTimeoutDelayValues now timeoutUs
  | .setTimeoutDate _ _ => []
  | .calculateNextTick c now => (heap c).calculateNextTickValues now
  | .tick c _ tickNow => (heap c).calculateNextTickValues tickNow
  | .pollTimeout connections now => pollTimeoutValues (nextTimeout heap connections) now

/-- The date at which each connection was given its delay, after a call: what the caller of
`set_timeout_delay()` saw on the clock. -/
def delaySetAt (dates : ℕ → Option Int64) : TimerCall → ℕ → Option Int64
  | .setTimeoutDelay c now timeoutUs =>
    if timeoutUs = -1 then Function.update dates c none
    else if timeoutUs < 10 then dates
    else Function.update dates c (some now)
  | _ => dates

/-- The clock shows a date between 0 and 2^62 microseconds. -/
def ClockInRange (call : TimerCall) : Prop :=
  ∀ t ∈ call.readings, 0 ≤ t.toInt ∧ t.toInt ≤ 2 ^ 62

instance (call : TimerCall) : Decidable call.ClockInRange := by
  rw [ClockInRange]
  infer_instance

end TimerCall

/-- A tick at the last date of the clock, with a delay that was set at the epoch and ends there: the
one tick of an accepted delay for which the time since the start with one delay more is `2^63`. -/
def Connection.LastTick (c : Connection) (now : Int64) : Prop :=
  c.timeoutDelayStartDate.toInt = 0 ∧ c.timeoutDelay.toInt = 2 ^ 62 ∧ now.toInt = 2 ^ 62 ∧
    c.timeoutNextDate ≤ now

/-- There is room for the dates of a call: a delay that is set ends before the last 64 bit date,
and the tick is not the last one. -/
def TimerCall.Fits (heap : ℕ → Connection) : TimerCall → Prop
  | .setTimeoutDelay _ now timeoutUs => 10 ≤ timeoutUs → now.toInt + timeoutUs.toInt < 2 ^ 63
  | .calculateNextTick c now => ¬ (heap c).LastTick now
  | .tick c _ tickNow => ¬ (heap c).LastTick tickNow
  | _ => True

/-! ### The values are the ones of the code -/

/-- The next date of a tick is the first date of the grid that is not before the clock. -/
def Connection.ExactTick (c : Connection) (now : Int64) : Prop :=
  c.timeoutDelay ≠ -1 → c.timeoutNextDate ≤ now →
    (c.calculateNextTick now).timeoutNextDate.toInt = c.timeoutDelayStartDate.toInt +
      (now.toInt - c.timeoutDelayStartDate.toInt + c.timeoutDelay.toInt - 1).tdiv
        c.timeoutDelay.toInt * c.timeoutDelay.toInt

/-- The call stores the integer that its values make, and not the integer modulo `2^64`: the next
date of a delay, the next date of a tick, and the timeout before it is cut to an `int`. -/
def TimerCall.Exact (heap : ℕ → Connection) : TimerCall → Prop
  | .setTimeoutDelay c now timeoutUs => 10 ≤ timeoutUs →
    (step heap (.setTimeoutDelay c now timeoutUs) c).timeoutNextDate.toInt =
      now.toInt + timeoutUs.toInt
  | .calculateNextTick c now => (heap c).ExactTick now
  | .tick c _ tickNow => (heap c).ExactTick tickNow
  | .pollTimeout connections now => ∀ nothingToPoll timeout,
    nextTimeout heap connections ≠ Int64.maxValue →
    Communicator.pollTimeout (nextTimeout heap connections) nothingToPoll now = some timeout →
    timeout.toInt =
      if (nextTimeout heap connections).toInt < now.toInt then 0
      else max 1 (((nextTimeout heap connections).toInt - now.toInt) / 1000)
  | _ => True

/-- The date that `set_timeout_delay()` stores. -/
lemma TimerCall.setTimeoutDelay_exact {heap : ℕ → Connection} {c : ℕ} {now timeoutUs : Int64}
    (hten : 10 ≤ timeoutUs) (h : ∀ v ∈ setTimeoutDelayValues now timeoutUs, InRange v) :
    (step heap (.setTimeoutDelay c now timeoutUs) c).timeoutNextDate.toInt =
      now.toInt + timeoutUs.toInt := by
  have hne : timeoutUs ≠ -1 := by
    rintro rfl
    exact absurd hten (by decide)
  rw [step, (Connection.setTimeoutDelay_eq_ok_iff hne).mpr ⟨hten, rfl⟩, updateOk,
    Function.update_self]
  rw [setTimeoutDelayValues, if_neg (Int64.not_lt.mpr hten)] at h
  exact toInt_add_of_inRange (h _ (List.mem_singleton_self _))

/-- The date that `calculate_next_tick()` stores. -/
lemma Connection.calculateNextTick_exact {c : Connection} {now : Int64}
    (h : ∀ v ∈ c.calculateNextTickValues now, InRange v) : c.ExactTick now := by
  intro hdelay hreached
  have hnow : ¬ now < c.timeoutNextDate := Int64.not_lt.mpr hreached
  rw [calculateNextTickValues, if_neg (by simp [hdelay, hnow])] at h
  simp only [List.forall_mem_cons] at h
  obtain ⟨helapsed, hsum, hless, -, hproduct, hdate, -⟩ := h
  exact toInt_calculateNextTick hdelay hreached helapsed hsum hless hproduct hdate

/-- The timeout of `run()`, before it is cut to an `int`. -/
lemma Communicator.pollTimeout_exact {next now timeout : Int64} {nothingToPoll : Bool}
    (hnext : next ≠ Int64.maxValue) (h : ∀ v ∈ pollTimeoutValues next now, InRange v)
    (htimeout : pollTimeout next nothingToPoll now = some timeout) :
    timeout.toInt =
      if next.toInt < now.toInt then 0 else max 1 ((next.toInt - now.toInt) / 1000) := by
  have hsub : (next - now).toInt = next.toInt - now.toInt := by
    refine toInt_sub_of_inRange (h _ ?_)
    rw [pollTimeoutValues, if_neg hnext]
    simp only
    split_ifs <;> exact List.mem_cons_self
  have hneg : next - now < 0 ↔ next.toInt < now.toInt := by
    rw [Int64.lt_iff_toInt_lt, hsub]
    exact sub_neg
  rw [pollTimeout, if_pos hnext] at htimeout
  simp only [hneg] at htimeout
  by_cases hpast : next.toInt < now.toInt
  · rw [if_pos hpast] at htimeout
    cases htimeout
    rw [if_pos hpast]
    rfl
  · have hdiv : ((next - now) / 1000).toInt = (next.toInt - now.toInt) / 1000 := by
      rw [Int64.toInt_div_of_ne_right _ _ (by decide), hsub,
        Int.tdiv_eq_ediv_of_nonneg (by omega)]
      rfl
    have hzero : (next - now) / 1000 = 0 ↔ (next.toInt - now.toInt) / 1000 = 0 := by
      rw [← Int64.toInt_inj, hdiv]
      rfl
    rw [if_neg hpast] at htimeout
    rw [if_neg hpast]
    simp only [hzero] at htimeout
    split_ifs at htimeout with hms
    · rw [hms, ← Option.some.inj htimeout]
      rfl
    · rw [← Option.some.inj htimeout, hdiv, max_eq_right (by omega)]

/-- A call whose values are 64 bit numbers is exact. -/
lemma TimerCall.exact_of_inRange {heap : ℕ → Connection} {call : TimerCall}
    (h : ∀ v ∈ call.values heap, InRange v) : call.Exact heap := by
  cases call with
  | setEnable c enabled => trivial
  | setTimeoutDelay c now timeoutUs => exact fun hten => setTimeoutDelay_exact hten h
  | setTimeoutDate c dateUs => trivial
  | calculateNextTick c now => exact Connection.calculateNextTick_exact h
  | tick c now tickNow => exact Connection.calculateNextTick_exact h
  | pollTimeout connections now =>
    exact fun _ _ hnext htimeout => Communicator.pollTimeout_exact hnext h htimeout

/-! ### What a call needs -/

namespace Connection

/-- What holds of the timers of a connection as long as the calls fit. -/
structure WellTimed (c : Connection) : Prop where
  /-- The date was accepted. -/
  date : -1 ≤ c.timeoutDate.toInt
  /-- The delay was accepted. -/
  delay : c.timeoutDelay ≠ -1 → 10 ≤ c.timeoutDelay.toInt
  /-- The start is a date that the clock showed. -/
  start : c.timeoutDelay ≠ -1 →
    0 ≤ c.timeoutDelayStartDate.toInt ∧ c.timeoutDelayStartDate.toInt ≤ 2 ^ 62
  /-- The next date is at least one delay after the start. -/
  next : c.timeoutDelay ≠ -1 →
    c.timeoutDelayStartDate.toInt + c.timeoutDelay.toInt ≤ c.timeoutNextDate.toInt

variable {c : Connection} {now : Int64}

/-- The values of `calculate_next_tick()` are 64 bit numbers unless the tick is the last one. -/
lemma WellTimed.inRange_calculateNextTickValues_iff (h : c.WellTimed)
    (hclock : 0 ≤ now.toInt ∧ now.toInt ≤ 2 ^ 62) :
    (∀ v ∈ c.calculateNextTickValues now, InRange v) ↔ ¬ c.LastTick now := by
  rw [calculateNextTickValues, LastTick]
  by_cases hdelay : c.timeoutDelay = -1
  · simp [hdelay]
  by_cases hearly : now < c.timeoutNextDate
  · have hnot : ¬ c.timeoutNextDate ≤ now := Int64.not_le.mpr hearly
    simp [hearly, hnot]
  have hreached : c.timeoutNextDate ≤ now := Int64.not_lt.mp hearly
  have hreached' := Int64.le_iff_toInt_le.mp hreached
  have hten := h.delay hdelay
  obtain ⟨hstart, hstart'⟩ := h.start hdelay
  have hnext := h.next hdelay
  obtain ⟨hone, hle, hless⟩ := tdiv_ceil (e := now.toInt - c.timeoutDelayStartDate.toInt)
    (d := c.timeoutDelay.toInt) (by omega) (by omega)
  have hticks := mul_le_mul_of_nonneg_left hten (by omega : 0 ≤
    (now.toInt - c.timeoutDelayStartDate.toInt + c.timeoutDelay.toInt - 1).tdiv
      c.timeoutDelay.toInt)
  rw [if_neg (by simp [hdelay, hearly])]
  simp only [List.forall_mem_cons, List.not_mem_nil, false_implies, implies_true, and_true, InRange,
    hreached]
  constructor
  · rintro ⟨-, hsum, -⟩
    omega
  · -- the delay ended before the clock, and so the sum is at most twice the time since the start
    intro hlast
    omega

/-- A timestamp is not before the epoch, unless there is none. -/
lemma WellTimed.nonneg_getTimeoutTimestamp (h : c.WellTimed)
    (hset : c.timeoutDate ≠ -1 ∨ c.timeoutDelay ≠ -1) : 0 ≤ c.getTimeoutTimestamp := by
  rw [Int64.le_iff_toInt_le, getTimeoutTimestamp, show (0 : Int64).toInt = 0 from rfl]
  split_ifs with hdate hdelay
  · have hlow := h.date
    have hne : c.timeoutDate.toInt ≠ -1 := fun h => hdate (Int64.toInt_inj.mp h)
    omega
  · have hten := h.delay hdelay
    have hstart := h.start hdelay
    have hnext := h.next hdelay
    omega
  · exact absurd hset (by simp [hdate, hdelay])

lemma WellTimed.le_getTimeoutTimestamp (h : c.WellTimed) : -1 ≤ c.getTimeoutTimestamp.toInt := by
  by_cases hset : c.timeoutDate ≠ -1 ∨ c.timeoutDelay ≠ -1
  · have hnonneg := Int64.le_iff_toInt_le.mp (h.nonneg_getTimeoutTimestamp hset)
    rw [show (0 : Int64).toInt = 0 from rfl] at hnonneg
    omega
  · obtain ⟨hdate, hdelay⟩ := not_or.mp hset
    rw [getTimeoutTimestamp, if_neg hdate, if_neg hdelay]
    decide

/-- A date that is set has priority over the delay, also when it is past. -/
lemma WellTimed.start_le_getTimeoutTimestamp_iff (h : c.WellTimed) (hdelay : c.timeoutDelay ≠ -1) :
    c.timeoutDelayStartDate ≤ c.getTimeoutTimestamp ↔
      (c.timeoutDate ≠ -1 → c.timeoutDelayStartDate ≤ c.timeoutDate) := by
  rw [getTimeoutTimestamp]
  split_ifs with hdate
  · exact ⟨fun hle _ => hle, fun hle => hle hdate⟩
  · refine iff_of_true (Int64.le_iff_toInt_le.mpr ?_) fun hne => absurd hne hdate
    have hten := h.delay hdelay
    have hnext := h.next hdelay
    omega

/-- The timeout of `run()` is always a 64 bit number. -/
lemma inRange_pollTimeoutValues {heap : ℕ → Connection} {connections : List ℕ}
    (h : ∀ c, (heap c).WellTimed) (hclock : 0 ≤ now.toInt ∧ now.toInt ≤ 2 ^ 62) :
    ∀ v ∈ pollTimeoutValues (nextTimeout heap connections) now, InRange v := by
  have hnext : -1 ≤ (nextTimeout heap connections).toInt := by
    obtain ⟨-, -, heq | ⟨c, -, -, -, heq⟩⟩ :=
      Communicator.earlier_foldl heap connections Int64.maxValue
    · rw [nextTimeout, heq]
      decide
    · rw [nextTimeout, heq]
      exact (h c).le_getTimeoutTimestamp
  have hlt := (nextTimeout heap connections).toInt_lt
  rw [pollTimeoutValues]
  by_cases hmax : nextTimeout heap connections = Int64.maxValue
  · simp [hmax]
  rw [if_neg hmax]
  by_cases hpast : (nextTimeout heap connections).toInt - now.toInt < 0
  · simp only [if_pos hpast, List.mem_singleton, forall_eq, InRange]
    omega
  · have hdiv := Int.tdiv_eq_ediv_of_nonneg (b := 1000) (Int.not_lt.mp hpast)
    simp only [if_neg hpast, List.forall_mem_cons, List.not_mem_nil, false_implies, implies_true,
      and_true, InRange, hdiv]
    omega

/-! ### What a call keeps -/

/-- A new connection. -/
lemma WellTimed.of_new (hdelay : c.timeoutDelay = -1) (hdate : c.timeoutDate = -1) :
    c.WellTimed := by
  refine ⟨?_, fun h => absurd hdelay h, fun h => absurd hdelay h, fun h => absurd hdelay h⟩
  rw [hdate]
  decide

lemma WellTimed.setTimeoutDelay {c' : Connection} {timeoutUs : Int64} (h : c.WellTimed)
    (hclock : 0 ≤ now.toInt ∧ now.toInt ≤ 2 ^ 62)
    (hfit : 10 ≤ timeoutUs → now.toInt + timeoutUs.toInt < 2 ^ 63)
    (hset : c.setTimeoutDelay now timeoutUs = .ok c') : c'.WellTimed := by
  by_cases hne : timeoutUs = -1
  · subst hne
    cases hset
    exact ⟨h.date, fun h => absurd rfl h, fun h => absurd rfl h, fun h => absurd rfl h⟩
  · obtain ⟨hten, rfl⟩ := (setTimeoutDelay_eq_ok_iff hne).mp hset
    have hten' : 10 ≤ timeoutUs.toInt := Int64.le_iff_toInt_le.mp hten
    have hroom := hfit hten
    have hnext := toInt_add_of_inRange (a := now) (b := timeoutUs) ⟨by omega, hroom⟩
    exact ⟨h.date, fun _ => hten', fun _ => hclock, fun _ => hnext.ge⟩

lemma WellTimed.setTimeoutDate {c' : Connection} {dateUs : Int64} (h : c.WellTimed)
    (hset : c.setTimeoutDate dateUs = .ok c') : c'.WellTimed := by
  unfold Connection.setTimeoutDate at hset
  split_ifs at hset with hlow
  cases hset
  exact ⟨Int64.le_iff_toInt_le.mp (Int64.not_lt.mp hlow), h.delay, h.start, h.next⟩

/-- The next date that is computed is not before the clock, which reached the old one. -/
lemma WellTimed.calculateNextTick (h : c.WellTimed)
    (hclock : 0 ≤ now.toInt ∧ now.toInt ≤ 2 ^ 62) (hfit : ¬ c.LastTick now) :
    (c.calculateNextTick now).WellTimed := by
  by_cases hidle : c.timeoutDelay = -1 ∨ now < c.timeoutNextDate
  · have hsame : c.calculateNextTick now = c := by
      rw [Connection.calculateNextTick]
      split_ifs with hdelay hearly
      · rfl
      · rfl
      · exact absurd hidle (not_or.mpr ⟨hdelay, hearly⟩)
    rw [hsame]
    exact h
  obtain ⟨hdelay, hearly⟩ := not_or.mp hidle
  have hreached : c.timeoutNextDate ≤ now := Int64.not_lt.mp hearly
  have hreached' := Int64.le_iff_toInt_le.mp hreached
  have hvalues := (h.inRange_calculateNextTickValues_iff hclock).mpr hfit
  have hexact := calculateNextTick_exact hvalues hdelay hreached
  have hten := h.delay hdelay
  have hstart := h.start hdelay
  have hnext := h.next hdelay
  obtain ⟨-, hle, -⟩ := tdiv_ceil (e := now.toInt - c.timeoutDelayStartDate.toInt)
    (d := c.timeoutDelay.toInt) (by omega) (by omega)
  obtain ⟨next, heq⟩ := c.exists_calculateNextTick now
  rw [heq] at hexact ⊢
  simp only at hexact
  refine ⟨h.date, h.delay, h.start, fun _ => ?_⟩
  simp only
  omega

lemma WellTimed.tick {tickNow : Int64} (h : c.WellTimed)
    (hclock : 0 ≤ tickNow.toInt ∧ tickNow.toInt ≤ 2 ^ 62) (hfit : ¬ c.LastTick tickNow) :
    (c.tick now tickNow).WellTimed := by
  have hnext := h.calculateNextTick hclock hfit
  unfold Connection.tick
  simp only
  split_ifs
  · exact ⟨le_of_eq rfl, hnext.delay, hnext.start, hnext.next⟩
  · exact hnext

end Connection

namespace TimerCall

variable {heap : ℕ → Connection} {call : TimerCall}

lemma wellTimed_update (h : ∀ c, (heap c).WellTimed) {c : ℕ} {o : Connection}
    (ho : o.WellTimed) : ∀ a, (Function.update heap c o a).WellTimed :=
  Function.forall_update_iff heap (p := fun _ o => o.WellTimed) |>.mpr ⟨ho, fun a _ => h a⟩

lemma wellTimed_updateOk (h : ∀ c, (heap c).WellTimed) {c : ℕ} {r : Except Exception Connection}
    (hr : ∀ o, r = .ok o → o.WellTimed) : ∀ a, (updateOk heap c r a).WellTimed := by
  cases r with
  | error e => exact h
  | ok o => exact wellTimed_update h (hr o rfl)

/-- A call that fits keeps the timers. -/
lemma wellTimed_step (h : ∀ c, (heap c).WellTimed) (hclock : call.ClockInRange)
    (hfit : call.Fits heap) : ∀ c, (call.step heap c).WellTimed := by
  cases call with
  | setEnable c enabled =>
    exact wellTimed_update h ⟨(h c).date, (h c).delay, (h c).start, (h c).next⟩
  | setTimeoutDelay c now timeoutUs =>
    have hnow := hclock now (List.mem_singleton_self now)
    exact wellTimed_updateOk h fun o ho => (h c).setTimeoutDelay hnow hfit ho
  | setTimeoutDate c dateUs => exact wellTimed_updateOk h fun o ho => (h c).setTimeoutDate ho
  | calculateNextTick c now =>
    have hnow := hclock now (List.mem_singleton_self now)
    exact wellTimed_update h ((h c).calculateNextTick hnow hfit)
  | tick c now tickNow =>
    have htick := hclock tickNow (List.mem_cons_of_mem _ (List.mem_singleton_self tickNow))
    exact wellTimed_update h ((h c).tick htick hfit)
  | pollTimeout connections now => exact h

/-- The values of a call are 64 bit numbers exactly when the call fits. -/
lemma inRange_values_iff (h : ∀ c, (heap c).WellTimed) (hclock : call.ClockInRange) :
    (∀ v ∈ call.values heap, InRange v) ↔ call.Fits heap := by
  cases call with
  | setEnable c enabled => exact iff_of_true (by simp [values]) trivial
  | setTimeoutDelay c now timeoutUs =>
    have hnow := hclock now (List.mem_singleton_self now)
    rw [values, setTimeoutDelayValues, Fits]
    by_cases hten : timeoutUs < 10
    · have hnot : ¬ 10 ≤ timeoutUs := Int64.not_le.mpr hten
      simp [hten, hnot]
    · have hten' : 10 ≤ timeoutUs := Int64.not_lt.mp hten
      have hten'' : 10 ≤ timeoutUs.toInt := Int64.le_iff_toInt_le.mp hten'
      simp only [if_neg hten, List.mem_singleton, forall_eq, InRange, hten', true_implies]
      omega
  | setTimeoutDate c dateUs => exact iff_of_true (by simp [values]) trivial
  | calculateNextTick c now =>
    exact (h c).inRange_calculateNextTickValues_iff (hclock now (List.mem_singleton_self now))
  | tick c now tickNow =>
    exact (h c).inRange_calculateNextTickValues_iff
      (hclock tickNow (List.mem_cons_of_mem _ (List.mem_singleton_self tickNow)))
  | pollTimeout connections now =>
    have hnow := hclock now (List.mem_singleton_self now)
    exact iff_of_true (Connection.inRange_pollTimeoutValues h hnow) trivial

/-! ### Runs -/

/-- The start of a delay is the date at which the caller set it. -/
def SetAt (heap : ℕ → Connection) (dates : ℕ → Option Int64) : Prop :=
  ∀ c, (heap c).timeoutDelay ≠ -1 → dates c = some (heap c).timeoutDelayStartDate

lemma SetAt.update {dates : ℕ → Option Int64} (h : SetAt heap dates) {c : ℕ} {o : Connection}
    (hdelay : o.timeoutDelay = (heap c).timeoutDelay)
    (hstart : o.timeoutDelayStartDate = (heap c).timeoutDelayStartDate) :
    SetAt (Function.update heap c o) dates := by
  intro a
  by_cases ha : a = c
  · subst ha
    rw [Function.update_self, hdelay, hstart]
    exact h a
  · rw [Function.update_of_ne ha]
    exact h a

lemma SetAt.set {dates : ℕ → Option Int64} (h : SetAt heap dates) {c : ℕ} {o : Connection}
    {t : Option Int64} (ho : o.timeoutDelay ≠ -1 → t = some o.timeoutDelayStartDate) :
    SetAt (Function.update heap c o) (Function.update dates c t) := by
  intro a
  by_cases ha : a = c
  · subst ha
    rw [Function.update_self, Function.update_self]
    exact ho
  · rw [Function.update_of_ne ha, Function.update_of_ne ha]
    exact h a

lemma setAt_step (heap : ℕ → Connection) (dates : ℕ → Option Int64) (call : TimerCall)
    (h : SetAt heap dates) : SetAt (call.step heap) (call.delaySetAt dates) := by
  cases call with
  | setEnable c enabled => exact h.update rfl rfl
  | setTimeoutDelay c now timeoutUs =>
    show SetAt (updateOk heap c ((heap c).setTimeoutDelay now timeoutUs))
      (if timeoutUs = -1 then Function.update dates c none
        else if timeoutUs < 10 then dates else Function.update dates c (some now))
    by_cases hne : timeoutUs = -1
    · subst hne
      exact h.set fun h => absurd rfl h
    · rw [if_neg hne]
      by_cases hten : timeoutUs < 10
      · rw [if_pos hten, Connection.setTimeoutDelay, if_pos ⟨hne, hten⟩]
        exact h
      · rw [if_neg hten,
          (Connection.setTimeoutDelay_eq_ok_iff hne).mpr ⟨Int64.not_lt.mp hten, rfl⟩]
        exact h.set fun _ => rfl
  | setTimeoutDate c dateUs =>
    show SetAt (updateOk heap c ((heap c).setTimeoutDate dateUs)) dates
    cases ho : (heap c).setTimeoutDate dateUs with
    | error e => exact h
    | ok o =>
      rw [Connection.eq_of_setTimeoutDate ho]
      exact h.update rfl rfl
  | calculateNextTick c now =>
    obtain ⟨next, hnext⟩ := (heap c).exists_calculateNextTick now
    show SetAt (Function.update heap c ((heap c).calculateNextTick now)) dates
    rw [hnext]
    exact h.update rfl rfl
  | tick c now tickNow =>
    obtain ⟨next, date, htick⟩ := (heap c).exists_tick now tickNow
    show SetAt (Function.update heap c ((heap c).tick now tickNow)) dates
    rw [htick]
    exact h.update rfl rfl
  | pollTimeout connections now => exact h

/-- The dates at which the connections were given their delays, after the calls. -/
def delaysSetAt (calls : List TimerCall) : ℕ → Option Int64 :=
  runFrom delaySetAt (fun _ => none) calls

/-- **The timer arithmetic overflows exactly when a delay leaves no room**: the values that the
calls compute are all 64 bit numbers if and only if the calls all fit, and then what the calls store
is exact, and the timestamp of a connection with a delay or a date is a date.  It is not before the
date that the clock showed when the delay was set, except when a date is set that is. -/
theorem timers_inRange (hnew : ∀ c, (heap c).timeoutDelay = -1 ∧ (heap c).timeoutDate = -1)
    (calls : List TimerCall) (hclock : ∀ call ∈ calls, call.ClockInRange) :
    ((∀ p ∈ visited step heap calls, ∀ v ∈ p.2.values p.1, InRange v) ↔
        ∀ p ∈ visited step heap calls, p.2.Fits p.1) ∧
      ((∀ p ∈ visited step heap calls, p.2.Fits p.1) →
        (∀ p ∈ visited step heap calls, p.2.Exact p.1) ∧
          ∀ c, let o := runFrom step heap calls c
            o.timeoutDate ≠ -1 ∨ o.timeoutDelay ≠ -1 →
            0 ≤ o.getTimeoutTimestamp ∧
              (o.timeoutDelay ≠ -1 → ∃ t, delaysSetAt calls c = some t ∧
                (t ≤ o.getTimeoutTimestamp ↔ (o.timeoutDate ≠ -1 → t ≤ o.timeoutDate)))) := by
  have hwell : ∀ c, (heap c).WellTimed := fun c => .of_new (hnew c).1 (hnew c).2
  have hiff : ∀ (heap : ℕ → Connection) (call : TimerCall), (∀ c, (heap c).WellTimed) →
      call.ClockInRange → ((∀ v ∈ call.values heap, InRange v) ↔ call.Fits heap) :=
    fun _ _ h hclock => inRange_values_iff h hclock
  have hkeep : ∀ (heap : ℕ → Connection) (call : TimerCall), (∀ c, (heap c).WellTimed) →
      call.ClockInRange ∧ call.Fits heap → ∀ c, (call.step heap c).WellTimed :=
    fun _ _ h hok => wellTimed_step h hok.1 hok.2
  have hall := holds_each_iff hiff (fun heap call h hclock hfit => hkeep heap call h ⟨hclock, hfit⟩)
    hwell calls hclock
  refine ⟨hall, fun hfit => ⟨fun p hp => exact_of_inRange (hall.mpr hfit p hp), fun c hset => ?_⟩⟩
  have hend := (invariant_of_visited hkeep hwell
    fun p hp => ⟨hclock _ (mem_of_mem_visited hp), hfit p hp⟩).2 c
  have hstart : SetAt (runFrom step heap calls) (delaysSetAt calls) :=
    related_of_runFrom setAt_step (fun c h => absurd (hnew c).1 h) calls
  exact ⟨hend.nonneg_getTimeoutTimestamp hset, fun hdelay =>
    ⟨_, hstart c hdelay, hend.start_le_getTimeoutTimestamp_iff hdelay⟩⟩

/-- A delay of 10 microseconds, a tick that is late, and the timeout that is computed then. -/
theorem timers_inRange_late :
    let calls := [.setTimeoutDelay 0 5 10, .calculateNextTick 0 21, .pollTimeout [0] 21]
    ((∀ p ∈ visited step (fun _ => {}) calls, ∀ v ∈ p.2.values p.1, InRange v) ↔
        ∀ p ∈ visited step (fun _ => {}) calls, p.2.Fits p.1) ∧
      ((∀ p ∈ visited step (fun _ => {}) calls, p.2.Fits p.1) →
        (∀ p ∈ visited step (fun _ => {}) calls, p.2.Exact p.1) ∧
          ∀ c, let o := runFrom step (fun _ => {}) calls c
            o.timeoutDate ≠ -1 ∨ o.timeoutDelay ≠ -1 →
            0 ≤ o.getTimeoutTimestamp ∧
              (o.timeoutDelay ≠ -1 → ∃ t, delaysSetAt calls c = some t ∧
                (t ≤ o.getTimeoutTimestamp ↔ (o.timeoutDate ≠ -1 → t ≤ o.timeoutDate)))) :=
  timers_inRange (fun _ => ⟨rfl, rfl⟩) _ (by decide)

/-- The longest delay that is accepted ends after the last 64 bit date; and a date has priority
over the delay, also a date that is past. -/
theorem not_timers_inRange :
    (¬ ∀ (heap : ℕ → Connection) (calls : List TimerCall),
      (∀ c, (heap c).timeoutDelay = -1 ∧ (heap c).timeoutDate = -1) →
      (∀ call ∈ calls, call.ClockInRange) →
      ∀ p ∈ visited step heap calls, ∀ v ∈ p.2.values p.1, InRange v) ∧
    ¬ ∀ (heap : ℕ → Connection) (calls : List TimerCall),
      (∀ c, (heap c).timeoutDelay = -1 ∧ (heap c).timeoutDate = -1) →
      (∀ call ∈ calls, call.ClockInRange) →
      ∀ c, let o := runFrom step heap calls c
        (o.timeoutDate ≠ -1 ∨ o.timeoutDelay ≠ -1) →
        ∀ t, delaysSetAt calls c = some t → t ≤ o.getTimeoutTimestamp := by
  constructor
  · intro h
    have hsum := h (fun _ => {}) [.setTimeoutDelay 0 1 Int64.maxValue] (fun _ => ⟨rfl, rfl⟩)
      (by decide) _ (List.mem_singleton_self _) (2 ^ 63) (by decide)
    exact absurd hsum (by decide)
  · intro h
    have hdate := h (fun _ => {}) [.setTimeoutDelay 0 100 10, .setTimeoutDate 0 5]
      (fun _ => ⟨rfl, rfl⟩) (by decide) 0 (by decide) 100 (by decide)
    exact absurd hdate (by decide)

end TimerCall

end EventDispatcher
