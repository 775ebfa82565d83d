import EventDispatcher.Communicator.Connection
import Mathlib.Algebra.Order.Ring.Int

/-!
# The timeout of a thread's `poll()`

`inter_thread_message_connection::poll()` serves events in a loop until nothing more comes.  The
loop converts the timeout of its caller from microseconds to milliseconds each time it waits, so
its `k`-th wait is a thousand times shorter than the one before (`toInt_wait`).
-/

namespace EventDispatcher.InterThread

open Lib

/-- How `::poll()` ends. -/
inductive PollReturn where
  /-- The number of sockets with events, and the events. -/
  | ready (r : ℕ) (revents : UInt16)
  /-- An error, with its number, its text, and the two limits of the number of files. -/
  | failed (errno : ℕ) (text : Str) (softLimit hardLimit : ℕ)

/-- What one iteration of the loop finds. -/
structure Turn where
  /-- `get_socket()` -/
  socket : ℤ
  /-- `is_enabled()` -/
  enabled : Bool
  /-- `::poll()` -/
  result : PollReturn
  /-- The exceptions that the callbacks let out. -/
  throws : Callback → Option Exception := fun _ => none

/-- What `poll()` does. -/
structure PollRun where
  /-- The timeouts that `::poll()` is given, in order. -/
  waits : List Int32 := []
  /-- The callbacks, in order. -/
  calls : List Callback := []
  /-- How `poll()` ends; `none` as long as it has not. -/
  result : Option (Except Exception ℤ) := none

/-- The conversion of the timeout, in each iteration. -/
def convertTimeout (timeout : Int32) : Int32 :=
  if 0 < timeout then if timeout / 1000 = 0 then 1 else timeout / 1000 else 0

/-- The exception for an error of `::poll()`. -/
def pollException (errno : ℕ) (text : Str) (softLimit hardLimit : ℕ) : Exception :=
  if errno = 4 then
    ⟨.runtimeError,
      "EINTR occurred while in poll() -- interrupts are not supported yet though".toList⟩
  else if errno = 14 then
    ⟨.parameterError, "buffer was moved out of our address space?".toList⟩
  else if errno = 22 then
    ⟨.parameterError, "too many file fds for poll, limit is currently ".toList
      ++ (toString softLimit).toList ++ ", your kernel top limit is ".toList
      ++ (toString hardLimit).toList⟩
  else if errno = 12 then
    ⟨.runtimeError, "poll() failed because of memory".toList⟩
  else
    ⟨.runtimeError, "poll() failed with error: ".toList ++ (toString errno).toList
      ++ " -- ".toList ++ text⟩

/-- The callbacks for some events. -/
def callbacks (revents : UInt16) : List Callback :=
  (if revents &&& (pollIn ||| pollPri) ≠ 0 then [.read] else [])
    ++ (if revents &&& pollErr ≠ 0 then [.error] else [])
    ++ (if revents &&& (pollHup ||| pollRdHup) ≠ 0 then [.hup] else [])
    ++ (if revents &&& pollNval ≠ 0 then [.invalid] else [])

/-- The callbacks one after the other, up to the first one that throws. -/
def runCallbacks (throws : Callback → Option Exception) :
    List Callback → List Callback × Option Exception
  | [] => ([], none)
  | callback :: l =>
    match throws callback with
    | some e => ([callback], some e)
    | none =>
      let (calls, thrown) := runCallbacks throws l
      (callback :: calls, thrown)

/-- `inter_thread_message_connection::poll()`; it still waits when the turns end. -/
def poll : Int32 → List Turn → PollRun
  | _, [] => {}
  | timeout, t :: turns =>
    if t.socket < 0 ∨ t.enabled = false then { result := some (.ok (-1)) }
    else
      let timeout := convertTimeout timeout
      match t.result with
      | .failed errno text softLimit hardLimit =>
        { waits := [timeout]
          result := some (.error (pollException errno text softLimit hardLimit)) }
      | .ready r revents =>
        if r = 0 then { waits := [timeout], result := some (.ok 0) }
        else
          match runCallbacks t.throws (callbacks revents) with
          | (calls, some e) => { waits := [timeout], calls := calls, result := some (.error e) }
          | (calls, none) =>
            let rest := poll timeout turns
            { rest with waits := timeout :: rest.waits, calls := calls ++ rest.calls }

/-! ### The waits -/

/-- The iteration comes to `::poll()`. -/
def Turn.Waits (t : Turn) : Prop := 0 ≤ t.socket ∧ t.enabled = true

/-- The iteration serves events, and the loop goes on. -/
def Turn.Serves (t : Turn) : Prop :=
  t.Waits ∧ ∃ r revents, t.result = .ready r revents ∧ r ≠ 0 ∧
    (runCallbacks t.throws (callbacks revents)).2 = none

/-- An iteration that waits, and what follows. -/
lemma waits_poll_cons (timeout : Int32) (t : Turn) (turns : List Turn) :
    (t.Serves ∧ (poll timeout (t :: turns)).waits =
        convertTimeout timeout :: (poll (convertTimeout timeout) turns).waits) ∨
      (¬ t.Serves ∧ t.Waits ∧ (poll timeout (t :: turns)).waits = [convertTimeout timeout]) ∨
      (¬ t.Waits ∧ (poll timeout (t :: turns)).waits = []) := by
  rw [poll]
  split_ifs with hclosed
  · refine .inr (.inr ⟨fun h => ?_, rfl⟩)
    rcases hclosed with hsocket | henabled
    · exact absurd h.1 (not_le.mpr hsocket)
    · rw [h.2] at henabled
      cases henabled
  · have hwaits : t.Waits := by
      rw [not_or, not_lt] at hclosed
      exact ⟨hclosed.1, by simpa using hclosed.2⟩
    cases hresult : t.result with
    | failed errno text softLimit hardLimit =>
      refine .inr (.inl ⟨?_, hwaits, rfl⟩)
      rintro ⟨-, r, revents, h, -⟩
      rw [hresult] at h
      cases h
    | ready r revents =>
      simp only
      split_ifs with hzero
      · refine .inr (.inl ⟨?_, hwaits, rfl⟩)
        rintro ⟨-, r', revents', h, hne, -⟩
        rw [hresult] at h
        cases h
        exact hne hzero
      · cases hcalls : runCallbacks t.throws (callbacks revents) with
        | mk calls thrown =>
          cases thrown with
          | some e =>
            refine .inr (.inl ⟨?_, hwaits, rfl⟩)
            rintro ⟨-, r', revents', h, -, hnone⟩
            rw [hresult] at h
            cases h
            rw [hcalls] at hnone
            cases hnone
          | none => exact .inl ⟨⟨hwaits, r, revents, hresult, hzero, by rw [hcalls]⟩, rfl⟩

/-- The conversion of a positive timeout. -/
lemma toInt_convertTimeout {timeout : Int32} (h : 0 < timeout) :
    (convertTimeout timeout).toInt = max 1 (timeout.toInt / 1000) := by
  have hpos : 0 < timeout.toInt := Int32.lt_iff_toInt_lt.mp h
  have hdiv : (timeout / 1000).toInt = timeout.toInt / 1000 := by
    rw [Int32.toInt_div_of_ne_right _ _ (by decide), Int.tdiv_eq_ediv_of_nonneg hpos.le]
    rfl
  rw [convertTimeout, if_pos h]
  split_ifs with hzero
  · have : timeout.toInt / 1000 = 0 := by
      rw [← hdiv, hzero]
      rfl
    rw [this]
    rfl
  · have hne : timeout.toInt / 1000 ≠ 0 := by
      rw [← hdiv]
      exact fun h' => hzero (Int32.toInt_inj.mp h')
    rw [hdiv]
    omega

lemma convertTimeout_pos {timeout : Int32} (h : 0 < timeout) : 0 < convertTimeout timeout := by
  rw [Int32.lt_iff_toInt_lt, toInt_convertTimeout h]
  exact lt_of_lt_of_le (by decide) (le_max_left _ _)

/-- Converting twice is dividing once more. -/
lemma max_ediv_pow {n : ℤ} (hn : 0 < n) (k : ℕ) :
    max 1 (max 1 (n / 1000) / 1000 ^ (k + 1)) = max 1 (n / 1000 ^ (k + 2)) := by
  have hpow : (1000 : ℤ) ^ (k + 2) = 1000 * 1000 ^ (k + 1) := by rw [pow_succ']
  have hone : (1 : ℤ) ≤ 1000 ^ k := one_le_pow₀ (by decide)
  have hbig : (1000 : ℤ) ≤ 1000 ^ (k + 1) := by rw [pow_succ']; omega
  by_cases hsmall : n < 1000
  · have hzero : n / 1000 = 0 := Int.ediv_eq_zero_of_lt hn.le hsmall
    rw [hzero, Int.ediv_eq_zero_of_lt hn.le (by omega)]
    change max 1 (1 / _) = _
    rw [Int.ediv_eq_zero_of_lt (by decide) (by omega)]
  · rw [hpow, ← Int.ediv_ediv_of_nonneg (by decide), max_eq_right (b := n / 1000) (by omega)]

/-- **The wait of each iteration** is that of the iteration before, converted again. -/
lemma toInt_wait {timeout : Int32} (h : 0 < timeout) {turns : List Turn} {k : ℕ} {w : Int32}
    (hw : (poll timeout turns).waits[k]? = some w) :
    w.toInt = max 1 (timeout.toInt / 1000 ^ (k + 1)) := by
  induction turns generalizing timeout k with
  | nil => cases hw
  | cons t turns ih =>
    rcases waits_poll_cons timeout t turns with ⟨-, hwaits⟩ | ⟨-, -, hwaits⟩ | ⟨-, hwaits⟩
    · rw [hwaits] at hw
      cases k with
      | zero =>
        cases hw
        rw [toInt_convertTimeout h]
        rfl
      | succ k =>
        rw [List.getElem?_cons_succ] at hw
        rw [ih (convertTimeout_pos h) hw, toInt_convertTimeout h]
        exact max_ediv_pow (Int32.lt_iff_toInt_lt.mp h) k
    · rw [hwaits] at hw
      cases k with
      | zero =>
        cases hw
        rw [toInt_convertTimeout h]
        rfl
      | succ k => cases hw
    · rw [hwaits] at hw
      cases hw

/-- There is a second wait when the first iteration serves events and the second one waits. -/
lemma exists_second_iff {timeout : Int32} {turns : List Turn} :
    (∃ w, (poll timeout turns).waits[1]? = some w) ↔
      ∃ t₁ t₂ rest, turns = t₁ :: t₂ :: rest ∧ t₁.Serves ∧ t₂.Waits := by
  constructor
  · rintro ⟨w, hw⟩
    cases turns with
    | nil => cases hw
    | cons t₁ turns =>
      rcases waits_poll_cons timeout t₁ turns with ⟨hserves, hwaits⟩ | ⟨-, -, hwaits⟩ | ⟨-, hwaits⟩
      · rw [hwaits, List.getElem?_cons_succ] at hw
        cases turns with
        | nil => cases hw
        | cons t₂ rest =>
          refine ⟨t₁, t₂, rest, rfl, hserves, ?_⟩
          rcases waits_poll_cons (convertTimeout timeout) t₂ rest with
            ⟨h, -⟩ | ⟨-, h, -⟩ | ⟨-, hwaits⟩
          · exact h.1
          · exact h
          · rw [hwaits] at hw
            cases hw
      · rw [hwaits] at hw
        cases hw
      · rw [hwaits] at hw
        cases hw
  · rintro ⟨t₁, t₂, rest, rfl, hserves, hsecond⟩
    rcases waits_poll_cons timeout t₁ (t₂ :: rest) with ⟨-, hwaits⟩ | ⟨h, -⟩ | ⟨h, -⟩
    · rw [hwaits]
      rcases waits_poll_cons (convertTimeout timeout) t₂ rest with
        ⟨-, hwaits'⟩ | ⟨-, -, hwaits'⟩ | ⟨h, -⟩
      · exact ⟨_, by rw [hwaits']; rfl⟩
      · exact ⟨_, by rw [hwaits']; rfl⟩
      · exact absurd hsecond h
    · exact absurd hserves h
    · exact absurd hserves.1 h

/-- The condition: the timeout is less than two milliseconds, or only one wait is made, because the
first iteration does not serve events or the second one finds a connection that is closed or
disabled. -/
def Condition (timeout : Int32) (turns : List Turn) : Prop :=
  timeout.toInt < 2000 ∨
    ∀ t₁ t₂ rest, turns = t₁ :: t₂ :: rest → t₁.Serves → ¬ t₂.Waits

/-- **Each wait** is the timeout of the caller in milliseconds, at least one, exactly when the
timeout is less than two milliseconds or there is only one wait. -/
theorem waits_iff (timeout : Int32) (h : 0 < timeout) (turns : List Turn) :
    (∀ w ∈ (poll timeout turns).waits, w.toInt = max 1 (timeout.toInt / 1000)) ↔
      Condition timeout turns := by
  have hpos : 0 < timeout.toInt := Int32.lt_iff_toInt_lt.mp h
  constructor
  · intro hall
    by_contra hnot
    rw [Condition, not_or, not_lt] at hnot
    obtain ⟨hlarge, hsecond⟩ := hnot
    obtain ⟨w, hw⟩ : ∃ w, (poll timeout turns).waits[1]? = some w := by
      by_contra hnone
      exact hsecond fun t₁ t₂ rest heq hserves hwaits =>
        hnone (exists_second_iff.mpr ⟨t₁, t₂, rest, heq, hserves, hwaits⟩)
    have hwait := toInt_wait h hw
    rw [hall w (List.mem_of_getElem? hw), show (1000 : ℤ) ^ (1 + 1) = 1000000 from rfl] at hwait
    omega
  · rintro hcondition w hw
    obtain ⟨k, hk⟩ := List.mem_iff_getElem?.mp hw
    rw [toInt_wait h hk]
    cases k with
    | zero => rfl
    | succ k =>
      rcases hcondition with hsmall | honly
      · -- both are one millisecond
        have hone : (1 : ℤ) ≤ 1000 ^ k := one_le_pow₀ (by decide)
        have hbig : (1000000 : ℤ) ≤ 1000 ^ (k + 2) := by
          rw [pow_succ', pow_succ']
          omega
        rw [Int.ediv_eq_zero_of_lt hpos.le (by omega)]
        omega
      · have hlength := (List.getElem?_eq_some_iff.mp hk).1
        obtain ⟨t₁, t₂, rest, heq, hserves, hwaits⟩ := exists_second_iff.mp
          ⟨_, List.getElem?_eq_getElem (show 1 < (poll timeout turns).waits.length by omega)⟩
        exact absurd hwaits (honly t₁ t₂ rest heq hserves)

/-- Turns that serve a message. -/
def oneMessage : Turn := { socket := 0, enabled := true, result := .ready 1 pollIn }

/-- A turn in which nothing comes. -/
def nothing : Turn := { socket := 0, enabled := true, result := .ready 0 0 }

/-- Nothing comes in ten milliseconds. -/
theorem waits_iff_ten :
    (∀ w ∈ (poll 10000 [nothing]).waits, w.toInt = max 1 ((10000 : Int32).toInt / 1000)) ↔
      Condition 10000 [nothing] :=
  waits_iff 10000 (by decide) [nothing]

/-- After one message, ten seconds are ten milliseconds. -/
theorem not_waits_afterMessage :
    (poll 10000000 [oneMessage, nothing]).waits = [10000, 10] ∧
      ¬ ∀ w ∈ (poll 10000000 [oneMessage, nothing]).waits,
        w.toInt = max 1 ((10000000 : Int32).toInt / 1000) := by
  have hwaits : (poll 10000000 [oneMessage, nothing]).waits = [10000, 10] := by decide
  refine ⟨hwaits, fun h => ?_⟩
  rw [hwaits] at h
  exact absurd (h 10 (by decide)) (by decide)

end EventDispatcher.InterThread
