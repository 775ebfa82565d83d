import EventDispatcher.Reporter.Operators

/-!
# Packed timestamps

A timestamp is an integer of 128 bits in an expression: the seconds, which may be negative, in the
upper half and the nanoseconds in the lower half.  The packing keeps the timestamp and the order of
the instants, and the operators are those of the instants, in nanoseconds, as long as the seconds
of the result fit in 64 bits.
-/

namespace EventDispatcher.Reporter

open Lib

namespace TimespecEx

/-- The nanoseconds make less than a second, and are not negative. -/
def Normal (t : TimespecEx) : Prop := 0 ≤ t.2.toInt ∧ t.2.toInt < 10 ^ 9

instance decidableNormal (t : TimespecEx) : Decidable t.Normal :=
  inferInstanceAs (Decidable (_ ∧ _))

/-- The instant, in nanoseconds. -/
def nanos (t : TimespecEx) : ℤ := t.1.toInt * 10 ^ 9 + t.2.toInt

variable {a b t : TimespecEx}

/-- An instant is only one normalized timestamp. -/
lemma eq_of_nanos (ha : a.Normal) (hb : b.Normal) (h : a.nanos = b.nanos) : a = b := by
  obtain ⟨ha0, ha1⟩ := ha
  obtain ⟨hb0, hb1⟩ := hb
  rw [nanos, nanos] at h
  exact Prod.ext (Int64.toInt_inj.mp (by omega)) (Int64.toInt_inj.mp (by omega))

end TimespecEx

/-! ## Packing -/

section Pack

variable {a b t : TimespecEx}

lemma msb_of_nonneg {x : Int64} (hx : 0 ≤ x.toInt) : x.toBitVec.msb = false := by
  rw [BitVec.msb_eq_toInt, decide_eq_false_iff_not, not_lt]
  exact hx

/-- The nanoseconds take the lower half, their sign being a zero. -/
lemma timestampInteger_eq_append (ht : 0 ≤ t.2.toInt) :
    timestampInteger t = t.1.toBitVec ++ t.2.toBitVec := by
  apply BitVec.eq_of_getLsbD_eq
  intro i hi
  rw [timestampInteger, BitVec.getLsbD_append, BitVec.getLsbD_or, BitVec.getLsbD_shiftLeft,
    BitVec.getLsbD_signExtend, BitVec.getLsbD_signExtend, msb_of_nonneg ht]
  by_cases hlow : i < 64
  · simp [hlow, hi]
  · simp [hlow, hi, show i - 64 < 128 by omega, show i - 64 < 64 by omega]

/-- **Unpacking** gives the timestamp back, whatever the sign of the seconds. -/
lemma unpackTimestamp_timestampInteger (ht : 0 ≤ t.2.toInt) :
    unpackTimestamp (timestampInteger t) = t := by
  have hseconds : ((t.1.toBitVec ++ t.2.toBitVec).sshiftRight 64).setWidth 64 = t.1.toBitVec := by
    apply BitVec.eq_of_getLsbD_eq
    intro i hi
    rw [BitVec.getLsbD_setWidth, BitVec.getLsbD_sshiftRight, BitVec.getLsbD_append]
    simp [hi, show i < 128 by omega, show 64 + i < 128 by omega]
  have hnanoseconds : ((t.1.toBitVec ++ t.2.toBitVec) &&& 0xffffffffffffffff#128).setWidth 64
      = t.2.toBitVec := by
    apply BitVec.eq_of_getLsbD_eq
    intro i hi
    have hmask : (0xffffffffffffffff#128).getLsbD i = true := by
      change ((BitVec.allOnes 64).setWidth 128).getLsbD i = true
      rw [BitVec.getLsbD_setWidth, BitVec.getLsbD_allOnes]
      simp [hi, show i < 128 by omega]
    rw [BitVec.getLsbD_setWidth, BitVec.getLsbD_and, BitVec.getLsbD_append, if_pos hi, hmask]
    simp [hi]
  rw [timestampInteger_eq_append ht, unpackTimestamp, hseconds, hnanoseconds]
  rfl

lemma toInt_timestampInteger (ht : 0 ≤ t.2.toInt) :
    (timestampInteger t).toInt = t.1.toInt * 2 ^ 64 + t.2.toInt := by
  have hnanoseconds : (t.2.toBitVec.toNat : ℤ) = t.2.toInt :=
    (BitVec.toInt_eq_toNat_of_msb (msb_of_nonneg ht)).symm
  rw [timestampInteger_eq_append ht, BitVec.toInt_append, if_neg (by decide), hnanoseconds,
    mul_comm]
  rfl

/-- **The order** of the integers is the order of the instants. -/
lemma timestampInteger_lt_iff (ha : a.Normal) (hb : b.Normal) :
    (timestampInteger a).slt (timestampInteger b) = decide (a.nanos < b.nanos) := by
  obtain ⟨ha0, ha1⟩ := ha
  obtain ⟨hb0, hb1⟩ := hb
  rw [BitVec.slt, toInt_timestampInteger ha0, toInt_timestampInteger hb0, TimespecEx.nanos,
    TimespecEx.nanos, decide_eq_decide]
  omega

end Pack

/-! ## The library -/

/-- The seconds of an instant fit in a `time_t`. -/
def FitsSeconds (n : ℤ) : Prop := -2 ^ 63 * 10 ^ 9 ≤ n ∧ n < 2 ^ 63 * 10 ^ 9

instance (n : ℤ) : Decidable (FitsSeconds n) := inferInstanceAs (Decidable (_ ∧ _))

/-- The timestamp is the normalized one of the instant. -/
def TimespecEx.Is (t : TimespecEx) (n : ℤ) : Prop := t.Normal ∧ t.nanos = n

/-- The operators of `timespec_ex` give the normalized timestamp of the exact sum and of the exact
difference, when its seconds fit. -/
structure Arithmetic.Exact (A : Arithmetic) : Prop where
  plus : ∀ a b : TimespecEx, a.Normal → b.Normal → FitsSeconds (a.nanos + b.nanos) →
    (A.plus a b).Is (a.nanos + b.nanos)
  minus : ∀ a b : TimespecEx, a.Normal → b.Normal → FitsSeconds (a.nanos - b.nanos) →
    (A.minus a b).Is (a.nanos - b.nanos)

/-! ## The operators -/

/-- An evaluation gives a normalized timestamp, packed. -/
def Gives (x : Except Stop Value) (n : ℤ) : Prop :=
  ∃ v t, x = .ok v ∧ v.IsTimestamp t ∧ t.Is n

/-- The timestamp that an operand stands for, an integer being a number of seconds. -/
def Value.instant (v : Value) : TimespecEx :=
  if v.token = .integer then secondsOf v.integer else unpackTimestamp v.integer

/-- The operands of the branches for timestamps: a timestamp, and a timestamp or an integer. -/
def WithTimestamp (l r : Value) : Prop :=
  l.token = .timespec ∧ r.token = .timespec ∨ l.token = .timespec ∧ r.token = .integer ∨
    l.token = .integer ∧ r.token = .timespec

section Branches

variable {A : Arithmetic} {s : ScriptState} {l r : Value} {x y : ℤ}

lemma Value.IsTimestamp.instant {t : TimespecEx} (h : l.IsTimestamp t) (ht : t.Normal) :
    l.instant = t := by
  rw [Value.instant, if_neg (by rw [h.1]; decide), h.2, unpackTimestamp_timestampInteger ht.1]

lemma Value.IsTimestamp.instant_is {t : TimespecEx} (h : l.IsTimestamp t) (ht : t.Normal) :
    l.instant.Is t.nanos := by
  rw [h.instant ht]
  exact ⟨ht, rfl⟩

/-- What is given is an operand again. -/
lemma Gives.instant {e : Except Stop Value} (h : Gives e x) :
    ∃ v, e = .ok v ∧ v.token = .timespec ∧ v.instant.Is x := by
  obtain ⟨v, t, hv, hvt, hnormal, rfl⟩ := h
  exact ⟨v, hv, hvt.1, hvt.instant_is hnormal⟩

lemma Value.IsInteger.instant {n : ℤ} (h : l.IsInteger n) (hn : -2 ^ 63 ≤ n ∧ n < 2 ^ 63) :
    l.instant.Is (n * 10 ^ 9) := by
  have hseconds : (secondsOf l.integer).1.toInt = n := by
    change (l.integer.setWidth 64).toInt = n
    rw [toInt_setWidth_of_le (by decide), h.2]
    exact Int.bmod_eq_of_le (by omega) (by omega)
  rw [Value.instant, if_pos h.1]
  refine ⟨⟨le_rfl, (by decide : (0 : ℤ) < 10 ^ 9)⟩, ?_⟩
  rw [TimespecEx.nanos, hseconds]
  exact add_zero _

lemma operation_subtract (h : WithTimestamp l r) :
    Expression.operation (s.surroundings A) .subtract l r
      = .ok (timestampValue (A.minus l.instant r.instant)) := by
  rcases h with ⟨hl, hr⟩ | ⟨hl, hr⟩ | ⟨hl, hr⟩ <;>
    simp [Expression.operation, ScriptState.surroundings, Arithmetic.others,
      Arithmetic.floatingOperands, Arithmetic.subtract, Value.instant, hl, hr, lift]

lemma operation_add (h : WithTimestamp l r) :
    Expression.operation (s.surroundings A) .add l r
      = .ok (timestampValue (if l.token = .integer then A.plus r.instant l.instant
        else A.plus l.instant r.instant)) := by
  rcases h with ⟨hl, hr⟩ | ⟨hl, hr⟩ | ⟨hl, hr⟩ <;>
    simp [Expression.operation, ScriptState.surroundings, Arithmetic.others,
      Arithmetic.floatingOperands, Arithmetic.add, Value.instant, hl, hr, lift]

lemma negation_timestamp (h : l.token = .timespec) :
    Expression.negation (s.surroundings A) l
      = .ok (timestampValue (A.minus (0, 0) l.instant)) := by
  simp [Expression.negation, ScriptState.surroundings, Arithmetic.otherNegation, Value.instant, h,
    lift]

lemma gives_timestampValue {t : TimespecEx} (ht : t.Is x) :
    Gives (.ok (timestampValue t)) x :=
  ⟨_, t, rfl, ⟨rfl, rfl⟩, ht⟩

/-- **The sum** is the sum of the instants, in either order. -/
lemma gives_add (hA : A.Exact) (h : WithTimestamp l r) (hl : l.instant.Is x) (hr : r.instant.Is y)
    (hfits : FitsSeconds (x + y)) :
    Gives (Expression.operation (s.surroundings A) .add l r) (x + y) := by
  obtain ⟨hlnormal, rfl⟩ := hl
  obtain ⟨hrnormal, rfl⟩ := hr
  rw [operation_add h]
  split
  · rw [add_comm] at hfits ⊢
    exact gives_timestampValue (hA.plus _ _ hrnormal hlnormal hfits)
  · exact gives_timestampValue (hA.plus _ _ hlnormal hrnormal hfits)

/-- **The difference** is the difference of the instants. -/
lemma gives_subtract (hA : A.Exact) (h : WithTimestamp l r) (hl : l.instant.Is x)
    (hr : r.instant.Is y) (hfits : FitsSeconds (x - y)) :
    Gives (Expression.operation (s.surroundings A) .subtract l r) (x - y) := by
  obtain ⟨hlnormal, rfl⟩ := hl
  obtain ⟨hrnormal, rfl⟩ := hr
  rw [operation_subtract h]
  exact gives_timestampValue (hA.minus _ _ hlnormal hrnormal hfits)

/-- **The negation** is the difference with the origin of the instants. -/
lemma gives_negation (hA : A.Exact) (h : l.token = .timespec) (hl : l.instant.Is x)
    (hfits : FitsSeconds (-x)) :
    Gives (Expression.negation (s.surroundings A) l) (-x) := by
  obtain ⟨hlnormal, rfl⟩ := hl
  have horigin : TimespecEx.Is (0, 0) 0 := ⟨⟨le_rfl, by decide⟩, rfl⟩
  rw [negation_timestamp h]
  have hminus := hA.minus (0, 0) l.instant horigin.1 hlnormal
  rw [horigin.2, zero_sub] at hminus
  exact gives_timestampValue (hminus hfits)

/-- **The comparison** is the one of the instants. -/
lemma compare_timestamps {a b : TimespecEx} (hl : l.IsTimestamp a) (hr : r.IsTimestamp b)
    (ha : a.Normal) (hb : b.Normal) :
    ∃ v, Expression.operation (s.surroundings A) .compare l r = .ok v ∧
      v.IsInteger (Operator.compare.exact a.nanos b.nanos) := by
  have hcompare : Expression.operation (s.surroundings A) .compare l r
      = .ok (compared (l.integer.slt r.integer) (r.integer.slt l.integer)) := by
    simp [Expression.operation, ScriptState.surroundings, Arithmetic.others,
      Arithmetic.floatingOperands, Arithmetic.compare, hl.1, hr.1, lift]
  rw [hl.2, hr.2, timestampInteger_lt_iff ha hb, timestampInteger_lt_iff hb ha] at hcompare
  refine ⟨_, hcompare, rfl, ?_⟩
  rw [Operator.exact, compared]
  by_cases hlt : a.nanos < b.nanos
  · simp [hlt]
  · by_cases hgt : b.nanos < a.nanos
    · simp [hlt, hgt]
    · simp [hlt, hgt]

end Branches

/-! ## Instants -/

/-- The seconds are between `-2 ^ 62` and `2 ^ 62`. -/
def TimespecEx.InBounds (t : TimespecEx) : Prop :=
  (-2 ^ 62 ≤ t.1.toInt ∧ t.1.toInt ≤ 2 ^ 62) ∧ t.Normal

/-- The values `l` and `r` of timestamps and `m` of an integer behave as the instants and the
number of seconds that they stand for, when the seconds of the results fit. -/
structure Instants (A : Arithmetic) (s : ScriptState) (a b : TimespecEx) (n : ℤ) (l r m : Value) :
    Prop where
  unpack : unpackTimestamp l.integer = a
  toVariable : s.primaryToVariable A.toConversions l = .ok (.timestamp a)
  compare : ∃ v, Expression.operation (s.surroundings A) .compare l r = .ok v ∧
    v.IsInteger (Operator.compare.exact a.nanos b.nanos)
  addInteger : FitsSeconds (a.nanos + n * 10 ^ 9) →
    Gives (Expression.operation (s.surroundings A) .add l m) (a.nanos + n * 10 ^ 9) ∧
      Gives (Expression.operation (s.surroundings A) .add m l) (a.nanos + n * 10 ^ 9)
  subtractInteger : FitsSeconds (a.nanos - n * 10 ^ 9) →
    Gives (Expression.operation (s.surroundings A) .subtract l m) (a.nanos - n * 10 ^ 9)
  add : FitsSeconds (a.nanos + b.nanos) →
    Gives (Expression.operation (s.surroundings A) .add l r) (a.nanos + b.nanos)
  subtract : FitsSeconds (a.nanos - b.nanos) →
    Gives (Expression.operation (s.surroundings A) .subtract l r) (a.nanos - b.nanos)
  negate : Gives (Expression.negation (s.surroundings A) l) (-a.nanos)
  /-- `(a + n) - n` -/
  addSubtract : FitsSeconds (a.nanos + n * 10 ^ 9) →
    ∃ v w, Expression.operation (s.surroundings A) .add l m = .ok v ∧
      Expression.operation (s.surroundings A) .subtract v m = .ok w ∧ w.IsTimestamp a
  /-- `(a - b) + b` -/
  subtractAdd : FitsSeconds (a.nanos - b.nanos) →
    ∃ v w, Expression.operation (s.surroundings A) .subtract l r = .ok v ∧
      Expression.operation (s.surroundings A) .add v r = .ok w ∧ w.IsTimestamp a
  /-- Below the upper bound the results fit. -/
  fits : a.1.toInt < 2 ^ 62 → b.1.toInt < 2 ^ 62 → n < 2 ^ 62 →
    (FitsSeconds (a.nanos + n * 10 ^ 9) ∧ FitsSeconds (a.nanos - n * 10 ^ 9)) ∧
      FitsSeconds (a.nanos + b.nanos) ∧ FitsSeconds (a.nanos - b.nanos)

lemma TimespecEx.InBounds.fits {t : TimespecEx} (h : t.InBounds) :
    FitsSeconds t.nanos ∧ FitsSeconds (-t.nanos) := by
  obtain ⟨⟨hlow, hhigh⟩, h0, h1⟩ := h
  rw [FitsSeconds, FitsSeconds, TimespecEx.nanos]
  omega

/-- What gives back the instant of a timestamp gives back the timestamp. -/
lemma isTimestamp_of_gives {x : Except Stop Value} {a : TimespecEx} (ha : a.Normal)
    (h : Gives x a.nanos) : ∃ w, x = .ok w ∧ w.IsTimestamp a := by
  obtain ⟨w, t, hx, hw, hnormal, hnanos⟩ := h
  exact ⟨w, hx, TimespecEx.eq_of_nanos hnormal ha hnanos ▸ hw⟩

/-- **Packed timestamps behave as instants**, for all timestamps within the bounds, where the
seconds of the results fit in 64 bits. -/
theorem packed_instants {A : Arithmetic} (hA : A.Exact) {s : ScriptState} {a b : TimespecEx} {n : ℤ}
    (ha : a.InBounds) (hb : b.InBounds) (hn : -2 ^ 62 ≤ n ∧ n ≤ 2 ^ 62) {l r m : Value}
    (hl : l.IsTimestamp a) (hr : r.IsTimestamp b) (hm : m.IsInteger n) :
    Instants A s a b n l r m := by
  have hla : l.instant.Is a.nanos := hl.instant_is ha.2
  have hrb : r.instant.Is b.nanos := hr.instant_is hb.2
  have hmn : m.instant.Is (n * 10 ^ 9) := hm.instant ⟨by omega, by omega⟩
  have hunpack : unpackTimestamp l.integer = a := by
    rw [hl.2, unpackTimestamp_timestampInteger ha.2.1]
  have hlr : WithTimestamp l r := .inl ⟨hl.1, hr.1⟩
  have hlm : WithTimestamp l m := .inr (.inl ⟨hl.1, hm.1⟩)
  have hml : WithTimestamp m l := .inr (.inr ⟨hm.1, hl.1⟩)
  refine ⟨hunpack, ?_, compare_timestamps hl hr ha.2 hb.2,
    fun h => ⟨gives_add hA hlm hla hmn h, ?_⟩,
    gives_subtract hA hlm hla hmn, gives_add hA hlr hla hrb, gives_subtract hA hlr hla hrb,
    gives_negation hA hl.1 hla ha.fits.2, fun h => ?_, fun h => ?_, fun halt hblt hnlt => ?_⟩
  · rw [ScriptState.primaryToVariable, hl.1]
    simp only [hunpack]
  · rw [add_comm] at h ⊢
    exact gives_add hA hml hmn hla h
  · obtain ⟨v, hv, htoken, hvx⟩ := (gives_add (s := s) hA hlm hla hmn h).instant
    have hback := gives_subtract (s := s) hA (.inr (.inl ⟨htoken, hm.1⟩)) hvx hmn
    rw [add_sub_cancel_right] at hback
    obtain ⟨w, hw, hwa⟩ := isTimestamp_of_gives ha.2 (hback ha.fits.1)
    exact ⟨v, w, hv, hw, hwa⟩
  · obtain ⟨v, hv, htoken, hvx⟩ := (gives_subtract (s := s) hA hlr hla hrb h).instant
    have hback := gives_add (s := s) hA (.inl ⟨htoken, hr.1⟩) hvx hrb
    rw [sub_add_cancel] at hback
    obtain ⟨w, hw, hwa⟩ := isTimestamp_of_gives ha.2 (hback ha.fits.1)
    exact ⟨v, w, hv, hw, hwa⟩
  · obtain ⟨⟨halow, -⟩, ha0, ha1⟩ := ha
    obtain ⟨⟨hblow, -⟩, hb0, hb1⟩ := hb
    simp only [FitsSeconds, TimespecEx.nanos]
    omega

/-- The normalized timestamp of an instant. -/
def ofNanos (n : ℤ) : TimespecEx := (.ofInt (n / 10 ^ 9), .ofInt (n % 10 ^ 9))

lemma is_ofNanos {n : ℤ} (h : FitsSeconds n) : (ofNanos n).Is n := by
  obtain ⟨hlow, hhigh⟩ := h
  have hseconds : (Int64.ofInt (n / 10 ^ 9)).toInt = n / 10 ^ 9 :=
    Int64.toInt_ofInt_of_le (by omega) (by omega)
  have hnanoseconds : (Int64.ofInt (n % 10 ^ 9)).toInt = n % 10 ^ 9 :=
    Int64.toInt_ofInt_of_le (by omega) (by omega)
  rw [TimespecEx.Is, TimespecEx.Normal, TimespecEx.nanos, ofNanos, hseconds, hnanoseconds]
  omega

/-- A library that adds and subtracts instants, and computes nothing else. -/
def Arithmetic.instants : Arithmetic :=
  { Arithmetic.blank with
    plus := fun a b => ofNanos (a.nanos + b.nanos)
    minus := fun a b => ofNanos (a.nanos - b.nanos) }

lemma Arithmetic.exact_instants : Arithmetic.instants.Exact :=
  ⟨fun _ _ _ _ => is_ofNanos, fun _ _ _ _ => is_ofNanos⟩

/-- A nanosecond before the epoch, five seconds after it and three seconds. -/
theorem packed_instants_before_epoch : Instants .instants {} (-1, 999999999) (5, 0) 3
    (timestampValue (-1, 999999999)) (timestampValue (5, 0)) (integerValue 3) :=
  packed_instants Arithmetic.exact_instants ⟨by decide, by decide⟩ ⟨by decide, by decide⟩
    (by decide) ⟨rfl, rfl⟩ ⟨rfl, rfl⟩ ⟨rfl, rfl⟩

/-- Whatever the library does, the sum of `2 ^ 62` and `2 ^ 62` seconds is not given: its seconds
do not fit. -/
theorem sum_not_gives : ¬ ∃ (A : Arithmetic) (s : ScriptState) (l : Value),
    l.IsTimestamp (4611686018427387904, 0) ∧
      Gives (Expression.operation (s.surroundings A) .add l l)
        (TimespecEx.nanos (4611686018427387904, 0)
          + TimespecEx.nanos (4611686018427387904, 0)) := by
  rintro ⟨A, s, l, -, v, t, -, -, ⟨h0, h1⟩, hnanos⟩
  have hseconds : TimespecEx.nanos (4611686018427387904, 0) = 2 ^ 62 * 10 ^ 9 := by decide
  have hlt := t.1.toInt_lt
  rw [hseconds, TimespecEx.nanos] at hnanos
  omega

end EventDispatcher.Reporter
