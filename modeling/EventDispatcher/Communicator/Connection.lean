import EventDispatcher.Base
import Mathlib.Data.UInt

/-!
# Connections and their timers

A connection is the fields of the class `connection` and the answers of its virtual functions,
which the code of the derived classes can change.  Dates and delays are 64 bit numbers of
microseconds; an operation that overflows wraps around.
-/

namespace EventDispatcher

open Lib

/-! ### The events of `poll()` -/

/-- `POLLIN` -/
def pollIn : UInt16 := 0x0001

/-- `POLLPRI` -/
def pollPri : UInt16 := 0x0002

/-- `POLLOUT` -/
def pollOut : UInt16 := 0x0004

/-- `POLLERR` -/
def pollErr : UInt16 := 0x0008

/-- `POLLHUP` -/
def pollHup : UInt16 := 0x0010

/-- `POLLNVAL` -/
def pollNval : UInt16 := 0x0020

/-- `POLLRDHUP` -/
def pollRdHup : UInt16 := 0x2000

/-- The callbacks that the loop runs. -/
inductive Callback where
  /-- `process()` of a Unix signal -/
  | signal
  /-- `process_accept()` -/
  | accept
  /-- `process_read()` -/
  | read
  /-- `process_write()` -/
  | write
  /-- `process_error()` -/
  | error
  /-- `process_hup()` -/
  | hup
  /-- `process_invalid()` -/
  | invalid
  /-- `process_timeout()` -/
  | timeout
deriving DecidableEq, Repr

/-! ### The connection -/

/-- The answers of the virtual functions of a connection. -/
structure EventSource where
  /-- `is_listener()` -/
  listener : Bool := false
  /-- `is_signal()` -/
  signal : Bool := false
  /-- Whether the object is of the class `signal`. -/
  signalObject : Bool := false
  /-- `is_reader()` -/
  reader : Bool := false
  /-- `is_writer()` -/
  writer : Bool := false
  /-- `get_socket()` -/
  socket : ℤ := -1
  /-- `valid_socket()` -/
  validSocket : Bool := true
deriving DecidableEq

/-- A connection. -/
structure Connection extends EventSource where
  /-- `f_enabled` -/
  enabled : Bool := true
  /-- `f_priority` -/
  priority : ℤ := 100
  /-- `f_timeout_delay_start_date` -/
  timeoutDelayStartDate : Int64 := 0
  /-- `f_timeout_delay` -/
  timeoutDelay : Int64 := -1
  /-- `f_timeout_next_date` -/
  timeoutNextDate : Int64 := -1
  /-- `f_timeout_date` -/
  timeoutDate : Int64 := -1
  /-- `f_saved_timeout_stamp` -/
  savedTimeoutStamp : Int64 := -1
  /-- `f_fds_position`, when it is not negative -/
  fdsPosition : Option ℕ := none
deriving DecidableEq

namespace Connection

/-- The text for a priority out of range. -/
def priorityText : Str :=
  ("connection::set_priority(): priority out of range, this instance of connection accepts"
    ++ " priorities between 0 and 255.").toList

/-- The field part of `connection::set_priority()`, for priorities from `EVENT_MIN_PRIORITY` to
`EVENT_MAX_PRIORITY`. -/
def setPriority (c : Connection) (priority : ℤ) : Except Exception Connection :=
  if priority < 0 ∨ priority > 255 then .error ⟨.parameterError, priorityText⟩
  else .ok { c with priority := priority }

/-- The events the loop waits for. -/
def pollEvents (c : EventSource) : UInt16 :=
  (if c.listener || c.signal then pollIn else 0)
    ||| (if c.reader then pollIn ||| pollPri ||| pollRdHup else 0)
    ||| (if c.writer then pollOut ||| pollRdHup else 0)

/-! ### The timers -/

/-- The text for a delay that is too small. -/
def timeoutDelayText (timeoutUs : Int64) : Str :=
  ("connection::set_timeout_delay(): timeout_us parameter cannot be less than 10 unless it is"
    ++ " exactly -1, ").toList ++ (toString timeoutUs.toInt).toList ++ " is not valid.".toList

/-- `connection::set_timeout_delay()` when the clock shows `now` -/
def setTimeoutDelay (c : Connection) (now timeoutUs : Int64) : Except Exception Connection :=
  if timeoutUs ≠ -1 ∧ timeoutUs < 10 then
    .error ⟨.parameterError, timeoutDelayText timeoutUs⟩
  else if timeoutUs ≠ -1 then
    .ok { c with
      timeoutDelay := timeoutUs
      timeoutDelayStartDate := now
      timeoutNextDate := now + timeoutUs }
  else
    .ok { c with timeoutDelay := timeoutUs, timeoutNextDate := -1 }

/-- `connection::calculate_next_tick()` when the clock shows `now` -/
def calculateNextTick (c : Connection) (now : Int64) : Connection :=
  if c.timeoutDelay = -1 then c
  else if now < c.timeoutNextDate then c
  else
    -- the number of ticks since the start, rounded up
    let ticks := (now - c.timeoutDelayStartDate + c.timeoutDelay - 1) / c.timeoutDelay
    { c with timeoutNextDate := c.timeoutDelayStartDate + ticks * c.timeoutDelay }

/-- The text for a date that is too small. -/
def timeoutDateText (dateUs : Int64) : Str :=
  "connection::set_timeout_date(): date_us parameter cannot be less than -1, ".toList
    ++ (toString dateUs.toInt).toList ++ " is not valid.".toList

/-- `connection::set_timeout_date()` -/
def setTimeoutDate (c : Connection) (dateUs : Int64) : Except Exception Connection :=
  if dateUs < -1 then .error ⟨.parameterError, timeoutDateText dateUs⟩
  else .ok { c with timeoutDate := dateUs }

/-- `connection::get_timeout_timestamp()` -/
def getTimeoutTimestamp (c : Connection) : Int64 :=
  if c.timeoutDate ≠ -1 then c.timeoutDate
  else if c.timeoutDelay ≠ -1 then c.timeoutNextDate
  else -1

/-- `connection::save_timeout_timestamp()` -/
def saveTimeoutTimestamp (c : Connection) : Connection :=
  { c with savedTimeoutStamp := c.getTimeoutTimestamp }

/-- Whether the loop finds that the saved timestamp is reached, when the clock shows `now`. -/
def timedOut (c : Connection) (now : Int64) : Bool :=
  c.savedTimeoutStamp ≠ -1 && c.savedTimeoutStamp ≤ now

/-- What the loop does to a connection that timed out, before it runs `process_timeout()`.  The
clock shows `now` when the timestamp is tested and `tickNow` when the next tick is computed. -/
def tick (c : Connection) (now tickNow : Int64) : Connection :=
  let c := c.calculateNextTick tickNow
  if c.timeoutDate ≥ 0 ∧ now ≥ c.timeoutDate then { c with timeoutDate := -1 } else c

/-! ### What the timers change -/

lemma exists_calculateNextTick (c : Connection) (now : Int64) :
    ∃ next, c.calculateNextTick now = { c with timeoutNextDate := next } := by
  rw [calculateNextTick]
  split_ifs
  · exact ⟨c.timeoutNextDate, rfl⟩
  · exact ⟨c.timeoutNextDate, rfl⟩
  · exact ⟨_, rfl⟩

lemma exists_tick (c : Connection) (now tickNow : Int64) :
    ∃ next date, c.tick now tickNow = { c with timeoutNextDate := next, timeoutDate := date } := by
  obtain ⟨next, hnext⟩ := c.exists_calculateNextTick tickNow
  rw [tick]
  rw [hnext]
  simp only
  split_ifs
  · exact ⟨next, -1, rfl⟩
  · exact ⟨next, c.timeoutDate, rfl⟩

lemma exists_of_setTimeoutDelay {c o : Connection} {now timeoutUs : Int64}
    (h : c.setTimeoutDelay now timeoutUs = .ok o) :
    ∃ start next, o = { c with
      timeoutDelay := timeoutUs, timeoutDelayStartDate := start, timeoutNextDate := next } := by
  unfold setTimeoutDelay at h
  split_ifs at h
  · cases h
    exact ⟨_, _, rfl⟩
  · cases h
    exact ⟨_, _, rfl⟩

lemma eq_of_setTimeoutDate {c o : Connection} {dateUs : Int64}
    (h : c.setTimeoutDate dateUs = .ok o) : o = { c with timeoutDate := dateUs } := by
  unfold setTimeoutDate at h
  split_ifs at h
  cases h
  rfl

end Connection

end EventDispatcher
