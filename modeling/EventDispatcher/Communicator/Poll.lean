import EventDispatcher.Communicator.Order

/-!
# The timeout that `poll()` is given

An iteration waits for the earliest timestamp of the enabled connections.  The wait is computed
in 64 bits, in milliseconds, and passed on as a 32 bit number: it is right as long as the number
of milliseconds is not cut to something else (`PollSafe`).
-/

namespace EventDispatcher

open Lib

namespace Communicator

variable {E : Type} {H : Host E}

/-- The earliest timestamp of the enabled connections of the list. -/
structure IsEarliest (s : Communicator E) (T : Int64) : Prop where
  /-- It is a timestamp. -/
  ne : T ≠ -1
  /-- It is the one of an enabled connection. -/
  exists_eq : ∃ c ∈ s.connections.list, (s.heap c).enabled = true ∧
    (s.heap c).getTimeoutTimestamp = T
  /-- No other one is earlier. -/
  le : ∀ c ∈ s.connections.list, (s.heap c).enabled = true →
    (s.heap c).getTimeoutTimestamp ≠ -1 → T ≤ (s.heap c).getTimeoutTimestamp

/-- The milliseconds until a timestamp, at least one, when the clock shows `now`. -/
def waitMilliseconds (T now : Int64) : ℤ := max 1 ((T - now).toInt / 1000)

/-- The wait for the timestamp `T` fits in an `int`, or its last 32 bits are not more than a
wait of the right length. -/
def PollSafe (T now : Int64) : Prop :=
  T ≠ Int64.maxValue ∧
    (T - now < 0 ∨
      (waitMilliseconds T now % 2 ^ 32 < 2 ^ 31 ∧
        (now ≤ T ∨ waitMilliseconds T now % 2 ^ 32 ≤ 1)))

instance (T now : Int64) : Decidable (PollSafe T now) := by
  rw [PollSafe]
  infer_instance

/-! ### The earliest timestamp -/

lemma next_foldl {l : List ℕ} (hl : l.Nodup) (u : Setup) :
    (l.foldl Setup.add u).nextTimeoutTimestamp =
      l.foldl (fun next c => (u.heap c).earlier next) u.nextTimeoutTimestamp := by
  induction l generalizing u with
  | nil => rfl
  | cons c l ih =>
    obtain ⟨hc, hl⟩ := List.nodup_cons.mp hl
    rw [List.foldl_cons, List.foldl_cons, ih hl, Setup.add_eq]
    refine List.foldl_ext _ _ _ fun next a ha => ?_
    have hne : a ≠ c := by
      rintro rfl
      exact hc ha
    simp only [Function.update_of_ne hne]

/-- The fold of the timestamps is the start or a timestamp, and not after any of them. -/
lemma earlier_foldl (heap : ℕ → Connection) (l : List ℕ) (next : Int64) :
    let r := l.foldl (fun next c => (heap c).earlier next) next
    r ≤ next ∧
      (∀ c ∈ l, (heap c).enabled = true → (heap c).getTimeoutTimestamp ≠ -1 →
        r ≤ (heap c).getTimeoutTimestamp) ∧
      (r = next ∨ ∃ c ∈ l, (heap c).enabled = true ∧ (heap c).getTimeoutTimestamp ≠ -1 ∧
        r = (heap c).getTimeoutTimestamp) := by
  induction l generalizing next with
  | nil => exact ⟨Int64.le_refl _, by simp, Or.inl rfl⟩
  | cons c l ih =>
    obtain ⟨hle, hall, hmem⟩ := ih ((heap c).earlier next)
    simp only [List.foldl_cons] at hle hall hmem ⊢
    have hearlier : (heap c).earlier next ≤ next ∧
        ((heap c).enabled = true → (heap c).getTimeoutTimestamp ≠ -1 →
          (heap c).earlier next ≤ (heap c).getTimeoutTimestamp) := by
      rw [Connection.earlier]
      split_ifs with h
      · exact ⟨Int64.le_of_lt h.2.2, fun _ _ => Int64.le_refl _⟩
      · exact ⟨Int64.le_refl _, fun h₁ h₂ => Int64.not_lt.mp fun h₃ => h ⟨h₁, h₂, h₃⟩⟩
    refine ⟨Int64.le_trans hle hearlier.1, fun a ha h₁ h₂ => ?_, ?_⟩
    · rcases List.mem_cons.mp ha with rfl | ha
      · exact Int64.le_trans hle (hearlier.2 h₁ h₂)
      · exact hall a ha h₁ h₂
    · rcases hmem with heq | ⟨a, ha, h⟩
      · rw [heq]
        rw [Connection.earlier]
        split_ifs with h
        · exact Or.inr ⟨c, List.mem_cons_self, h.1, h.2.1, rfl⟩
        · exact Or.inl rfl
      · exact Or.inr ⟨a, List.mem_cons_of_mem _ ha, h⟩

/-- The setup finds the earliest timestamp. -/
lemma IsEarliest.next_setup {s : Communicator E} {T : Int64} (h : s.IsEarliest T) :
    s.setup.nextTimeoutTimestamp = T := by
  rw [setup]
  rw [next_foldl s.connections.nodup]
  obtain ⟨-, hall, hmem⟩ := earlier_foldl s.heap s.connections.list Int64.maxValue
  obtain ⟨c, hc, henabled, rfl⟩ := h.exists_eq
  refine Int64.le_antisymm (hall c hc henabled h.ne) ?_
  rcases hmem with heq | ⟨a, ha, h₁, h₂, heq⟩
  · rw [heq]
    exact Int64.le_iff_toInt_le.mpr (by
      have := (s.heap c).getTimeoutTimestamp.toInt_lt
      rw [Int64.toInt_maxValue]
      omega)
  · rw [heq]
    exact h.le a ha h₁ h₂

/-- The sort does not change the timestamps. -/
lemma IsEarliest.sortConnections {s : Communicator E} {T : Int64} (h : s.IsEarliest T) :
    s.sortConnections.IsEarliest T := by
  rw [Communicator.sortConnections]
  split
  · obtain ⟨c, hc, heq⟩ := h.exists_eq
    exact ⟨h.ne, ⟨c, mem_stableSort.mpr hc, heq⟩,
      fun a ha => h.le a (mem_stableSort.mp ha)⟩
  · exact h

/-! ### The timeout -/

/-- What an iteration hands to `poll()`. -/
lemma handed_iteration {s : Communicator E} {T : Int64} (h : s.IsEarliest T) {v : Int32}
    (hv : (s.iteration H).handed = some v) :
    ∃ nothingToPoll timeout, pollTimeout T nothingToPoll
        (readClock H (T ≠ Int64.maxValue) s.outside).1 = some timeout ∧ v = timeout.toInt32 := by
  have houtside : s.sortConnections.outside = s.outside := by
    rw [Communicator.sortConnections]
    split <;> rfl
  rw [iteration_eq] at hv
  split at hv
  · cases hv
  · simp only [h.sortConnections.next_setup, houtside] at hv
    split at hv
    · cases hv
    · rename_i timeout htimeout
      refine ⟨_, timeout, htimeout, ?_⟩
      unfold pollAndServe at hv
      simp only at hv
      split at hv
      · exact (Option.some.inj hv).symm
      · split at hv
        · exact (Option.some.inj hv).symm
        · exact (Option.some.inj hv).symm

/-- The difference of two dates, in 64 bits. -/
lemma toInt_sub_cases (T now : Int64) :
    (T - now).toInt = T.toInt - now.toInt ∨
      (2 ^ 63 ≤ T.toInt - now.toInt ∧ (T - now).toInt = T.toInt - now.toInt - 2 ^ 64) ∨
      (T.toInt - now.toInt < -2 ^ 63 ∧ (T - now).toInt = T.toInt - now.toInt + 2 ^ 64) := by
  have h₁ := T.toInt_lt
  have h₂ := T.le_toInt
  have h₃ := now.toInt_lt
  have h₄ := now.le_toInt
  rw [Int64.toInt_sub, Int.bmod_def]
  omega

/-- A wait that is cut to 32 bits. -/
lemma toInt_wait {T now : Int64} (hwait : ¬ T - now < 0) :
    ((if (T - now) / 1000 = 0 then 1 else (T - now) / 1000 : Int64).toInt32).toInt =
      (waitMilliseconds T now).bmod (2 ^ 32) := by
  have hnonneg : 0 ≤ (T - now).toInt := Int64.le_iff_toInt_le.mp (Int64.not_lt.mp hwait)
  have hdiv : ((T - now) / 1000).toInt = (T - now).toInt / 1000 := by
    rw [Int64.toInt_div_of_ne_right _ _ (by decide), Int.tdiv_eq_ediv_of_nonneg hnonneg]
    rfl
  rw [waitMilliseconds]
  rw [Int64.toInt_toInt32]
  congr 1
  split_ifs with h
  · have hzero : (T - now).toInt / 1000 = 0 := by rw [← hdiv, h]; rfl
    rw [hzero]
    rfl
  · have hne : (T - now).toInt / 1000 ≠ 0 := by
      rw [← hdiv]
      exact fun h' => h (Int64.toInt_inj.mp h')
    rw [hdiv, max_eq_right (by omega)]

/-- **The loop does not sleep past a deadline** exactly when the wait for the earliest timestamp
is safe: the value that `poll()` is given is then not negative and not more than the wait. -/
theorem poll_timeout_iff {s : Communicator E} {T : Int64} (hT : s.IsEarliest T) {v : Int32}
    (hv : (s.iteration H).handed = some v) :
    (0 ≤ v ∧ 1000 * v.toInt ≤ max 1000 (T.toInt - (H.clock s.outside).1.toInt)) ↔
      PollSafe T (H.clock s.outside).1 := by
  obtain ⟨nothingToPoll, timeout, htimeout, rfl⟩ := handed_iteration hT hv
  rw [PollSafe]
  by_cases hmax : T = Int64.maxValue
  · -- the date is taken for no timestamp at all
    rw [pollTimeout, if_neg (not_not.mpr hmax)] at htimeout
    split at htimeout
    · cases htimeout
    · cases htimeout
      exact ⟨fun h => absurd h.1 (by decide), fun h => absurd hmax h.1⟩
  · rw [readClock, if_pos (decide_eq_true hmax), pollTimeout, if_pos hmax] at htimeout
    generalize (H.clock s.outside).1 = now at htimeout ⊢
    simp only at htimeout
    by_cases hpast : T - now < 0
    · rw [if_pos hpast] at htimeout
      cases htimeout
      refine ⟨fun _ => ⟨hmax, Or.inl hpast⟩, fun _ => ⟨by decide, ?_⟩⟩
      exact le_trans (by decide) (le_max_left (1000 : ℤ) _)
    · have hvalue : timeout.toInt32.toInt = (waitMilliseconds T now).bmod (2 ^ 32) := by
        rw [← toInt_wait hpast]
        rw [if_neg hpast] at htimeout
        split_ifs at htimeout with hzero
        · rw [if_pos hzero, Option.some.inj htimeout]
        · rw [if_neg hzero, Option.some.inj htimeout]
      have hnonneg : 0 ≤ (T - now).toInt := Int64.le_iff_toInt_le.mp (Int64.not_lt.mp hpast)
      have hsub := toInt_sub_cases T now
      have h₁ := T.toInt_lt
      have h₂ := T.le_toInt
      have h₃ := now.toInt_lt
      have h₄ := now.le_toInt
      rw [Int32.le_iff_toInt_le, hvalue, Int.bmod_def, Int64.le_iff_toInt_le]
      simp only [ne_eq, hmax, not_false_eq_true, true_and, hpast, false_or]
      rw [waitMilliseconds]
      rw [show (0 : Int32).toInt = 0 from rfl]
      omega

/-- A timer with a date. -/
def oneTimer (date : Int64) : Communicator Unit where
  heap _ := { timeoutDate := date }
  connections := ConnectionList.push {} 0
  forceSort := true
  outside := ()

/-- A host whose clock shows a date, and in which nothing else happens. -/
def clockAt (now : Int64) : Host Unit where
  clock outside := (now, outside)
  poll _ _ outside := (.ready fun _ => 0, outside)
  callback _ _ _ := { calls := [], outside := () }

lemma isEarliest_oneTimer {date : Int64} (h : date ≠ -1) : (oneTimer date).IsEarliest date := by
  have htimestamp : ∀ c, ((oneTimer date).heap c).getTimeoutTimestamp = date := fun c => if_pos h
  exact ⟨h, ⟨0, List.mem_singleton_self 0, rfl, htimestamp 0⟩,
    fun c _ _ _ => Int64.le_of_eq (htimestamp c).symm⟩

/-- A wait of four milliseconds. -/
theorem poll_timeout_iff_short :
    (0 ≤ (4 : Int32) ∧ 1000 * (4 : Int32).toInt ≤
      max 1000 ((5000 : Int64).toInt - ((clockAt 1000).clock ()).1.toInt)) ↔
      PollSafe 5000 ((clockAt 1000).clock ()).1 :=
  poll_timeout_iff (H := clockAt 1000) (isEarliest_oneTimer (by decide)) (by decide)

/-- A date in 30 days: `poll()` is given a negative timeout, which never ends. -/
theorem not_poll_timeout :
    ¬ ∀ (H : Host Unit) (s : Communicator Unit) (T : Int64), s.IsEarliest T →
      ∀ v, (s.iteration H).handed = some v →
        0 ≤ v ∧ 1000 * v.toInt ≤ max 1000 (T.toInt - (H.clock s.outside).1.toInt) := by
  intro h
  have hwait := h (clockAt 0) (oneTimer 2592000000000) 2592000000000
    (isEarliest_oneTimer (by decide)) (-1702967296) (by decide)
  exact absurd hwait.1 (by decide)

end Communicator

end EventDispatcher
