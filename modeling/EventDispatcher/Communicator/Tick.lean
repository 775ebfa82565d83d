import EventDispatcher.Communicator.Communicator
import Mathlib.Tactic.Ring
import Mathlib.Tactic.Linarith

/-!
# The grid of the ticks

A delay `d` that is set at the date `s` asks for ticks at the dates `s + k * d`.  Each call of
`calculateNextTick` that finds the next date reached moves it to the first date of the grid that
is not before the clock.  When the clock shows exactly that date the next date does not move, so
a date of the grid can only tick again when the clock showed exactly that date.  The loop moves
the timer of a connection as an iteration of `afterTimer` does (`processTimer_spec`).
-/

namespace EventDispatcher

open Lib

/-! ### 64 bit arithmetic -/

/-- A number that is a 64 bit number is what is left of it in 64 bits. -/
lemma bmod64_eq {x : ℤ} (hlow : -2 ^ 63 ≤ x) (hhigh : x < 2 ^ 63) : x.bmod (2 ^ 64) = x :=
  Int.bmod_eq_of_le (by omega) (by omega)

/-- An integer that is a signed 64 bit number. -/
def InRange (v : ℤ) : Prop := -2 ^ 63 ≤ v ∧ v < 2 ^ 63

instance (v : ℤ) : Decidable (InRange v) := by
  rw [InRange]
  infer_instance

lemma toInt_add_of_inRange {a b : Int64} (h : InRange (a.toInt + b.toInt)) :
    (a + b).toInt = a.toInt + b.toInt := by
  rw [Int64.toInt_add, bmod64_eq h.1 h.2]

lemma toInt_sub_of_inRange {a b : Int64} (h : InRange (a.toInt - b.toInt)) :
    (a - b).toInt = a.toInt - b.toInt := by
  rw [Int64.toInt_sub, bmod64_eq h.1 h.2]

lemma toInt_mul_of_inRange {a b : Int64} (h : InRange (a.toInt * b.toInt)) :
    (a * b).toInt = a.toInt * b.toInt := by
  rw [Int64.toInt_mul, bmod64_eq h.1 h.2]

/-- The number of ticks that takes a whole number of delays not before a time, and less than one
delay after it. -/
lemma tdiv_ceil {e d : ℤ} (hd : 0 < d) (he : 1 ≤ e) :
    1 ≤ (e + d - 1).tdiv d ∧ e ≤ (e + d - 1).tdiv d * d ∧
      (e + d - 1).tdiv d * d ≤ e + d - 1 := by
  rw [Int.tdiv_eq_ediv_of_nonneg (by omega)]
  have hdiv := Int.emod_add_mul_ediv (e + d - 1) d
  rw [mul_comm] at hdiv
  have hnonneg := Int.emod_nonneg (e + d - 1) (by omega : d ≠ 0)
  have hlt := Int.emod_lt_of_pos (e + d - 1) hd
  refine ⟨?_, by omega, by omega⟩
  rw [Int.le_ediv_iff_mul_le hd]
  omega

/-! ### The dates of the grid -/

/-- The date is the first one of the grid that is not before a reading of the clock. -/
structure IsFirstGridDate (s d t date : Int64) : Prop where
  /-- It is a date of the grid, after the start. -/
  grid : ∃ k : ℤ, 1 ≤ k ∧ date.toInt = s.toInt + k * d.toInt
  /-- It is not before the reading. -/
  le : t ≤ date
  /-- The date of the grid before it is. -/
  lt : date.toInt - d.toInt < t.toInt

/-- The computations for a reading of the clock fit in 64 bits. -/
structure FitsTimer (s d t : Int64) : Prop where
  /-- A delay after the reading. -/
  date : t.toInt + d.toInt < 2 ^ 63
  /-- A delay after the time since the start. -/
  elapsed : t.toInt - s.toInt + d.toInt < 2 ^ 63

instance (s d t : Int64) : Decidable (FitsTimer s d t) :=
  decidable_of_iff (t.toInt + d.toInt < 2 ^ 63 ∧ t.toInt - s.toInt + d.toInt < 2 ^ 63)
    ⟨fun h => ⟨h.1, h.2⟩, fun h => ⟨h.date, h.elapsed⟩⟩

namespace Connection

/-- A connection whose delay `d` was set at the date `s`, without a timeout date. -/
structure OnGrid (s d : Int64) (c : Connection) : Prop where
  /-- The start. -/
  start : c.timeoutDelayStartDate = s
  /-- The delay. -/
  delay : c.timeoutDelay = d
  /-- No date is set. -/
  noDate : c.timeoutDate = -1
  /-- The next date is a date of the grid. -/
  next : ∃ k : ℤ, 1 ≤ k ∧ c.timeoutNextDate.toInt = s.toInt + k * d.toInt

variable {c c₀ : Connection} {s d t now : Int64}

/-- The delays that are accepted. -/
lemma setTimeoutDelay_eq_ok_iff (hd : d ≠ -1) :
    c₀.setTimeoutDelay s d = .ok c ↔ 10 ≤ d ∧
      c = { c₀ with timeoutDelay := d, timeoutDelayStartDate := s, timeoutNextDate := s + d } := by
  rw [setTimeoutDelay]
  by_cases h : d < 10
  · rw [if_pos ⟨hd, h⟩]
    exact ⟨fun h => (nomatch h), fun h' => absurd h (Int64.not_lt.mpr h'.1)⟩
  · rw [if_neg fun h' => h h'.2, if_pos hd, Except.ok.injEq]
    exact ⟨fun h' => ⟨Int64.not_lt.mp h, h'.symm⟩, fun h' => h'.2.symm⟩

lemma OnGrid.of_setTimeoutDelay (hd : d ≠ -1) (hdate : c₀.timeoutDate = -1)
    (hset : c₀.setTimeoutDelay s d = .ok c) (hfit : FitsTimer s d s) :
    10 ≤ d.toInt ∧ c.OnGrid s d := by
  obtain ⟨hten, rfl⟩ := (setTimeoutDelay_eq_ok_iff hd).mp hset
  have hten' : 10 ≤ d.toInt := Int64.le_iff_toInt_le.mp hten
  refine ⟨hten', rfl, rfl, hdate, 1, le_rfl, ?_⟩
  have hdate := hfit.date
  have hlow := s.le_toInt
  rw [Int64.toInt_add, bmod64_eq (by omega) (by omega), one_mul]

/-! ### One call -/

/-- The next date that is computed, when the values on the way are 64 bit numbers. -/
lemma toInt_calculateNextTick (hdelay : c.timeoutDelay ≠ -1) (hreached : c.timeoutNextDate ≤ t)
    (helapsed : InRange (t.toInt - c.timeoutDelayStartDate.toInt))
    (hsum : InRange (t.toInt - c.timeoutDelayStartDate.toInt + c.timeoutDelay.toInt))
    (hless : InRange (t.toInt - c.timeoutDelayStartDate.toInt + c.timeoutDelay.toInt - 1))
    (hproduct : InRange ((t.toInt - c.timeoutDelayStartDate.toInt + c.timeoutDelay.toInt - 1).tdiv
      c.timeoutDelay.toInt * c.timeoutDelay.toInt))
    (hdate : InRange (c.timeoutDelayStartDate.toInt +
      (t.toInt - c.timeoutDelayStartDate.toInt + c.timeoutDelay.toInt - 1).tdiv
        c.timeoutDelay.toInt * c.timeoutDelay.toInt)) :
    (c.calculateNextTick t).timeoutNextDate.toInt = c.timeoutDelayStartDate.toInt +
      (t.toInt - c.timeoutDelayStartDate.toInt + c.timeoutDelay.toInt - 1).tdiv
        c.timeoutDelay.toInt * c.timeoutDelay.toInt := by
  have h₁ := toInt_sub_of_inRange helapsed
  rw [← h₁] at hsum
  have h₂ := (toInt_add_of_inRange hsum).trans (by rw [h₁])
  have h₃ : (t - c.timeoutDelayStartDate + c.timeoutDelay - 1).toInt =
      t.toInt - c.timeoutDelayStartDate.toInt + c.timeoutDelay.toInt - 1 := by
    rw [toInt_sub_of_inRange (by rw [h₂]; exact hless), h₂]
    rfl
  have h₄ := (Int64.toInt_div_of_ne_right _ _ hdelay).trans (by rw [h₃])
  rw [← h₄] at hproduct hdate ⊢
  rw [← toInt_mul_of_inRange hproduct] at hdate ⊢
  rw [calculateNextTick, if_neg hdelay, if_neg (Int64.not_lt.mpr hreached)]
  exact toInt_add_of_inRange hdate

/-- The next date of a call that finds it reached is the first date of the grid that is not
before the clock. -/
lemma OnGrid.isFirstGridDate (h : c.OnGrid s d) (hd : 10 ≤ d.toInt) (hfit : FitsTimer s d t)
    (hreached : c.timeoutNextDate ≤ t) :
    IsFirstGridDate s d t (c.calculateNextTick t).timeoutNextDate := by
  obtain ⟨k, hk, hnext⟩ := h.next
  have hlow := s.le_toInt
  have hfitdate := hfit.date
  have hfitelapsed := hfit.elapsed
  have hreached' := Int64.le_iff_toInt_le.mp hreached
  -- the first tick is already due
  have hkd : d.toInt ≤ k * d.toInt := by nlinarith
  obtain ⟨hone, hle, hless⟩ := tdiv_ceil (e := t.toInt - s.toInt) (d := d.toInt) (by omega)
    (by omega)
  have hmul : d.toInt ≤ (t.toInt - s.toInt + d.toInt - 1).tdiv d.toInt * d.toInt := by nlinarith
  have hdelay : c.timeoutDelay ≠ -1 := by
    rw [h.delay]
    rintro rfl
    exact absurd hd (by decide)
  have hvalue := toInt_calculateNextTick hdelay hreached
  rw [h.delay, h.start] at hvalue
  have hdate := hvalue ⟨by omega, by omega⟩ ⟨by omega, by omega⟩ ⟨by omega, by omega⟩
    ⟨by omega, by omega⟩ ⟨by omega, by omega⟩
  refine ⟨⟨_, hone, hdate⟩, Int64.le_iff_toInt_le.mpr ?_, ?_⟩
  · rw [hdate]
    omega
  · rw [hdate]
    omega

/-- A call keeps the grid, and the next date is neither before the old one nor before the
clock. -/
lemma OnGrid.calculateNextTick (h : c.OnGrid s d) (hd : 10 ≤ d.toInt) (hfit : FitsTimer s d t) :
    (c.calculateNextTick t).OnGrid s d ∧
      c.timeoutNextDate ≤ (c.calculateNextTick t).timeoutNextDate ∧
      t ≤ (c.calculateNextTick t).timeoutNextDate := by
  by_cases hreached : c.timeoutNextDate ≤ t
  · have hfirst := h.isFirstGridDate hd hfit hreached
    obtain ⟨next, hnext⟩ := c.exists_calculateNextTick t
    rw [hnext] at hfirst ⊢
    exact ⟨⟨h.start, h.delay, h.noDate, hfirst.grid⟩, Int64.le_trans hreached hfirst.le,
      hfirst.le⟩
  · have hearly : t < c.timeoutNextDate := Int64.not_le.mp hreached
    have hsame : c.calculateNextTick t = c := by
      rw [Connection.calculateNextTick]
      split_ifs <;> rfl
    rw [hsame]
    exact ⟨h, Int64.le_refl _, Int64.le_of_lt hearly⟩

lemma OnGrid.getTimeoutTimestamp (h : c.OnGrid s d) (hd : 10 ≤ d.toInt) :
    c.getTimeoutTimestamp = c.timeoutNextDate := by
  rw [Connection.getTimeoutTimestamp]
  rw [h.noDate, h.delay, if_neg (by simp), if_pos]
  rintro rfl
  exact absurd hd (by decide)

lemma OnGrid.saveTimeoutTimestamp (h : c.OnGrid s d) : c.saveTimeoutTimestamp.OnGrid s d :=
  ⟨h.start, h.delay, h.noDate, h.next⟩

/-- Calls in a row keep the grid, and do not move the next date back. -/
lemma OnGrid.ticks {readings : List Int64} (h : c.OnGrid s d) (hd : 10 ≤ d.toInt)
    (hfit : ∀ t ∈ readings, FitsTimer s d t) :
    (readings.foldl Connection.calculateNextTick c).OnGrid s d ∧
      c.timeoutNextDate ≤ (readings.foldl Connection.calculateNextTick c).timeoutNextDate := by
  induction readings generalizing c with
  | nil => exact ⟨h, Int64.le_refl _⟩
  | cons t readings ih =>
    obtain ⟨hgrid, hle, -⟩ := h.calculateNextTick hd (hfit t List.mem_cons_self)
    obtain ⟨hgrid', hle'⟩ := ih hgrid fun t' ht' => hfit t' (List.mem_cons_of_mem _ ht')
    exact ⟨hgrid', Int64.le_trans hle hle'⟩

/-- The calls leave the saved timestamp alone. -/
lemma savedTimeoutStamp_ticks (c : Connection) (readings : List Int64) :
    (readings.foldl Connection.calculateNextTick c).savedTimeoutStamp = c.savedTimeoutStamp := by
  induction readings generalizing c with
  | nil => rfl
  | cons t readings ih =>
    obtain ⟨next, hnext⟩ := c.exists_calculateNextTick t
    rw [List.foldl_cons, ih, hnext]

/-- Without a date, a tick is a call of `calculate_next_tick()`. -/
lemma OnGrid.tick (h : c.OnGrid s d) (hd : 10 ≤ d.toInt) (hfit : FitsTimer s d t) :
    c.tick now t = c.calculateNextTick t := by
  rw [Connection.tick]
  rw [if_neg]
  rw [(h.calculateNextTick hd hfit).1.noDate]
  exact fun hneg => absurd hneg.1 (by decide)

end Connection

/-! ### The life of a timer -/

/-- What can happen to the timer of an enabled connection. -/
inductive TimerAction where
  /-- An iteration of the loop: callbacks that run between the setup and the test of the timestamp
  call `calculate_next_tick()` when the clock shows the dates `early`; it shows `now` when the
  timestamp is tested and `tickNow` when the next tick is computed. -/
  | iteration (early : List Int64) (now tickNow : Int64)
  /-- A call of `calculate_next_tick()` from elsewhere. -/
  | tick (now : Int64)

/-- The readings of the clock, in order. -/
def TimerAction.readings : TimerAction → List Int64
  | .iteration early now tickNow => early ++ [now, tickNow]
  | .tick now => [now]

/-- A call of `process_timeout()`: the date it is for, and the reading of the clock the next tick
was computed with. -/
structure Firing where
  /-- The saved timestamp. -/
  date : Int64
  /-- The reading. -/
  reading : Int64
deriving DecidableEq

namespace Connection

/-- The connection after an action. -/
def afterTimer (c : Connection) : TimerAction → Connection
  | .iteration early now tickNow =>
    let c := early.foldl calculateNextTick c.saveTimeoutTimestamp
    if c.timedOut now then c.tick now tickNow else c
  | .tick now => c.calculateNextTick now

/-- The calls of `process_timeout()` of an action. -/
def firings (c : Connection) : TimerAction → List Firing
  | .iteration early now tickNow =>
    let c := early.foldl calculateNextTick c.saveTimeoutTimestamp
    if c.timedOut now then [⟨c.savedTimeoutStamp, tickNow⟩] else []
  | .tick _ => []

/-- The calls of `process_timeout()` of a run. -/
def allFirings (c : Connection) (actions : List TimerAction) : List Firing :=
  (visited afterTimer c actions).flatMap fun p => p.1.firings p.2

variable {c c₀ : Connection} {s d : Int64}

/-- One action: the grid is kept, the next date does not move back, and a date that fires is
passed unless the clock showed exactly that date. -/
lemma OnGrid.afterTimer (h : c.OnGrid s d) (hd : 10 ≤ d.toInt) {a : TimerAction}
    (hfit : ∀ t ∈ a.readings, FitsTimer s d t) (hmono : a.readings.Pairwise (· ≤ ·)) :
    (c.afterTimer a).OnGrid s d ∧ c.timeoutNextDate ≤ (c.afterTimer a).timeoutNextDate ∧
      ∀ e ∈ c.firings a, e.date = c.timeoutNextDate ∧
        (e.date < (c.afterTimer a).timeoutNextDate ∨ e.reading = e.date) := by
  cases a with
  | tick now =>
    obtain ⟨hgrid, hle, -⟩ := h.calculateNextTick hd (hfit now (by simp [TimerAction.readings]))
    exact ⟨hgrid, hle, by simp [firings]⟩
  | iteration early now tickNow =>
    simp only [TimerAction.readings, List.mem_append, List.pairwise_append] at hfit hmono
    obtain ⟨hsave, hearly⟩ := h.saveTimeoutTimestamp.ticks hd fun t ht => hfit t (Or.inl ht)
    have hstamp := (c.saveTimeoutTimestamp.savedTimeoutStamp_ticks early).trans
      (h.getTimeoutTimestamp hd)
    have hfit' : FitsTimer s d tickNow := hfit tickNow (by simp)
    obtain ⟨hgrid, hle, hclock⟩ := hsave.calculateNextTick hd hfit'
    have hnow : now ≤ tickNow := by simpa using hmono.2.1
    unfold Connection.afterTimer firings
    simp only
    set c' := early.foldl Connection.calculateNextTick c.saveTimeoutTimestamp with hc'
    have hlater : c.timeoutNextDate ≤ (c'.calculateNextTick tickNow).timeoutNextDate :=
      Int64.le_trans hearly hle
    by_cases hout : c'.timedOut now = true
    · simp only [if_pos hout, hsave.tick hd hfit', List.mem_singleton]
      refine ⟨hgrid, hlater, ?_⟩
      rintro e rfl
      refine ⟨hstamp, ?_⟩
      rcases Int64.lt_or_eq_of_le hlater with hlt | heq
      · left
        rw [hstamp]
        exact hlt
      · right
        -- the clock is between the date and the next date, which did not move
        have hreached : c.timeoutNextDate ≤ now := by
          rw [timedOut, hstamp, Bool.and_eq_true, decide_eq_true_eq, decide_eq_true_eq] at hout
          exact hout.2
        rw [← heq] at hclock
        rw [hstamp]
        exact Int64.le_antisymm hclock (Int64.le_trans hreached hnow)
    · simp only [if_neg hout, List.not_mem_nil]
      exact ⟨hsave, hearly, fun e he => he.elim⟩

lemma allFirings_cons (c : Connection) (a : TimerAction) (actions : List TimerAction) :
    c.allFirings (a :: actions) = c.firings a ++ (c.afterTimer a).allFirings actions := rfl

/-- One action fires at most once. -/
lemma firings_pairwise (c : Connection) (a : TimerAction) (R : Firing → Firing → Prop) :
    (c.firings a).Pairwise R := by
  cases a with
  | tick now => exact List.Pairwise.nil
  | iteration early now tickNow =>
    unfold firings
    simp only
    split
    · exact List.pairwise_singleton _ _
    · exact List.Pairwise.nil

/-- A run keeps the grid; its firings are not before the next date, and in order. -/
lemma OnGrid.run {actions : List TimerAction} (h : c.OnGrid s d) (hd : 10 ≤ d.toInt)
    (hfit : ∀ a ∈ actions, ∀ t ∈ a.readings, FitsTimer s d t)
    (hmono : ∀ a ∈ actions, a.readings.Pairwise (· ≤ ·)) :
    (∀ p ∈ visited Connection.afterTimer c actions, p.1.OnGrid s d) ∧
      (∀ e ∈ c.allFirings actions, c.timeoutNextDate ≤ e.date) ∧
      (c.allFirings actions).Pairwise fun e e' =>
        e.date < e'.date ∨ (e'.date = e.date ∧ e.reading = e.date) := by
  induction actions generalizing c with
  | nil => exact ⟨by simp, by simp [allFirings], List.Pairwise.nil⟩
  | cons a actions ih =>
    obtain ⟨hgrid, hle, hfires⟩ := h.afterTimer hd (hfit a List.mem_cons_self)
      (hmono a List.mem_cons_self)
    obtain ⟨hvisited, hlater, hpairwise⟩ := ih hgrid
      (fun a' ha' => hfit a' (List.mem_cons_of_mem _ ha'))
      (fun a' ha' => hmono a' (List.mem_cons_of_mem _ ha'))
    refine ⟨fun p hp => ?_, fun e he => ?_, ?_⟩
    · rcases List.mem_cons.mp hp with rfl | hp
      · exact h
      · exact hvisited p hp
    · rw [allFirings_cons] at he
      rcases List.mem_append.mp he with he | he
      · rw [(hfires e he).1]
        exact Int64.le_refl _
      · exact Int64.le_trans hle (hlater e he)
    · rw [allFirings_cons, List.pairwise_append]
      refine ⟨c.firings_pairwise a _, hpairwise, fun e he e' he' => ?_⟩
      obtain ⟨hdate, hpassed⟩ := hfires e he
      have hnext := hlater e' he'
      rcases hpassed with hlt | hexact
      · exact Or.inl (Int64.lt_of_lt_of_le hlt hnext)
      · have hle' : e.date ≤ e'.date := by
          rw [hdate]
          exact Int64.le_trans hle hnext
        rcases Int64.lt_or_eq_of_le hle' with hlt | heq
        · exact Or.inl hlt
        · exact Or.inr ⟨heq.symm, hexact⟩

/-- **The ticks follow the grid.**  The next date is always a date of the grid.  A call that
finds it reached moves it to the first date of the grid that is not before the clock, which is
after the old one unless the clock shows exactly the old one.  A date fires again only when the
clock showed exactly that date as its tick was computed. -/
theorem ticks_follow_grid (hd : d ≠ -1) (hdate : c₀.timeoutDate = -1)
    (hset : c₀.setTimeoutDelay s d = .ok c) (actions : List TimerAction)
    (hmono : (s :: actions.flatMap TimerAction.readings).Pairwise (· ≤ ·))
    (hfit : ∀ t ∈ s :: actions.flatMap TimerAction.readings, FitsTimer s d t) :
    (∀ p ∈ visited afterTimer c actions,
      (∃ k : ℤ, 1 ≤ k ∧ p.1.timeoutNextDate.toInt = s.toInt + k * d.toInt) ∧
      ∀ t, FitsTimer s d t → p.1.timeoutNextDate ≤ t →
        IsFirstGridDate s d t (p.1.calculateNextTick t).timeoutNextDate ∧
        (p.1.timeoutNextDate < (p.1.calculateNextTick t).timeoutNextDate ∨
          t = p.1.timeoutNextDate)) ∧
      (c.allFirings actions).Pairwise fun e e' =>
        e.date < e'.date ∨ (e'.date = e.date ∧ e.reading = e.date) := by
  obtain ⟨hten, hgrid⟩ := OnGrid.of_setTimeoutDelay hd hdate hset (hfit s List.mem_cons_self)
  obtain ⟨hvisited, -, hpairwise⟩ := hgrid.run hten
    (fun a (ha : a ∈ actions) t ht =>
      hfit t (List.mem_cons_of_mem _ (List.mem_flatMap.mpr ⟨a, ha, ht⟩)))
    (fun a ha => (List.pairwise_cons.mp hmono).2.sublist
      (List.sublist_flatten_of_mem (List.mem_map.mpr ⟨a, ha, rfl⟩)))
  refine ⟨fun p hp => ⟨(hvisited p hp).next, fun t ht hreached => ?_⟩, hpairwise⟩
  have hfirst := (hvisited p hp).isFirstGridDate hten ht hreached
  refine ⟨hfirst, ?_⟩
  rcases Int64.lt_or_eq_of_le hreached with hlt | heq
  · exact Or.inl (Int64.lt_of_lt_of_le hlt hfirst.le)
  · exact Or.inr heq.symm

/-- A timer of 10 microseconds that is set at the date 5. -/
def everyTen : Connection :=
  { timeoutDelay := 10, timeoutDelayStartDate := 5, timeoutNextDate := 15 }

/-- A tick that is late, two calls in between, and a tick after a date that was skipped. -/
theorem ticks_follow_grid_late :
    (∀ p ∈ visited afterTimer everyTen [.iteration [] 16 17, .tick 20, .iteration [30] 41 42],
      (∃ k : ℤ, 1 ≤ k ∧ p.1.timeoutNextDate.toInt = (5 : Int64).toInt + k * (10 : Int64).toInt) ∧
      ∀ t, FitsTimer 5 10 t → p.1.timeoutNextDate ≤ t →
        IsFirstGridDate 5 10 t (p.1.calculateNextTick t).timeoutNextDate ∧
        (p.1.timeoutNextDate < (p.1.calculateNextTick t).timeoutNextDate ∨
          t = p.1.timeoutNextDate)) ∧
      (everyTen.allFirings [.iteration [] 16 17, .tick 20, .iteration [30] 41 42]).Pairwise
        fun e e' => e.date < e'.date ∨ (e'.date = e.date ∧ e.reading = e.date) :=
  ticks_follow_grid (by decide) (rfl : ({} : Connection).timeoutDate = -1) rfl _ (by decide)
    (by decide)

/-- When the clock shows exactly the date of a tick, the next date does not move, and the same
date fires again. -/
theorem not_ticks_strict :
    ¬ ∀ (c₀ c : Connection) (s d : Int64) (actions : List TimerAction), d ≠ -1 →
      c₀.timeoutDate = -1 → c₀.setTimeoutDelay s d = .ok c →
      (s :: actions.flatMap TimerAction.readings).Pairwise (· ≤ ·) →
      (∀ t ∈ s :: actions.flatMap TimerAction.readings, FitsTimer s d t) →
      (∀ p ∈ visited afterTimer c actions,
        (∃ k : ℤ, 1 ≤ k ∧ p.1.timeoutNextDate.toInt = s.toInt + k * d.toInt) ∧
        ∀ t, FitsTimer s d t → p.1.timeoutNextDate ≤ t →
          p.1.timeoutNextDate < (p.1.calculateNextTick t).timeoutNextDate ∧
          t < (p.1.calculateNextTick t).timeoutNextDate ∧
          (p.1.calculateNextTick t).timeoutNextDate.toInt - d.toInt ≤ t.toInt) ∧
      (c.allFirings actions).Pairwise fun e e' => e.date < e'.date := by
  intro h
  obtain ⟨-, hfirings⟩ := h {} _ 0 10 [.iteration [] 10 10, .iteration [] 10 10] (by decide) rfl rfl
    (by decide) (by decide)
  exact absurd hfirings (by decide)

end Connection

/-! ### The timer in the loop -/

namespace Communicator

variable {E : Type} {H : Host E} {c : ℕ} {p : Progress E}

variable (H c) in
/-- The readings of the clock that the loop makes for the timer of a connection, after the ones
of the callbacks. -/
def timerIteration (early : List Int64) (s : Communicator E) : TimerAction :=
  .iteration early (H.clock s.outside).1
    (readClock H ((s.heap c).timeoutDelay ≠ -1) (H.clock s.outside).2).1

/-- What the loop does to the timer of a connection is an iteration of it, the setup and the
calls of the callbacks included; `process_timeout()` runs in the state `s` after it, once for
each firing. -/
theorem processTimer_spec {o : Connection} {early : List Int64} (hthrown : p.thrown = none)
    (hearly : p.state.heap c = early.foldl Connection.calculateNextTick o.saveTimeoutTimestamp) :
    ∃ s, s.heap = Function.update p.state.heap c
          (o.afterTimer (timerIteration H c early p.state)) ∧
      (processTimer H c p).calls = p.calls ++
        (o.firings (timerIteration H c early p.state)).map (fun _ => ⟨c, .timeout, s⟩) ∧
      (o.firings (timerIteration H c early p.state) = [] →
        (processTimer H c p).state.heap = s.heap) := by
  refine ⟨{ p.state.update c (o.afterTimer (timerIteration H c early p.state)) with
    outside := (readClock H ((p.state.heap c).timeoutDelay ≠ -1) (H.clock p.state.outside).2).2 },
    rfl, ?_⟩
  rw [processTimer]
  rw [hthrown]
  simp only [timerIteration, Connection.afterTimer, Connection.firings, ← hearly]
  by_cases hstamp : (p.state.heap c).savedTimeoutStamp = -1
  · have hout : (p.state.heap c).timedOut (H.clock p.state.outside).1 = false := by
      simp [Connection.timedOut, hstamp]
    simp [hstamp, hout, update]
  · rw [if_neg hstamp]
    split
    · simp [Progress.call]
    · simp [update]

end Communicator
end EventDispatcher
