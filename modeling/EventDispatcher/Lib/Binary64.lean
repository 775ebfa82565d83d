import Mathlib.Algebra.Order.Field.Power
import Mathlib.Data.Int.Log
import Mathlib.Data.Rat.Floor
import Mathlib.Tactic.Linarith
import Mathlib.Tactic.Positivity
import Mathlib.Tactic.NormNum

/-!
# Double precision numbers

A double precision number is a rational with a significand of 53 bits, or an infinity; the two
zeros are not told apart.  `nearest` is the rounding of a rational to such a number, a tie going
to the even significand, and a number that is representable is its own rounding
(`nearest_of_representable`).
-/

namespace Lib

/-- The nearest integer, the even one of the two when there is a tie. -/
def roundHalfEven (q : ℚ) : ℤ :=
  if q - ⌊q⌋ < 1 / 2 then ⌊q⌋
  else if 1 / 2 < q - ⌊q⌋ then ⌊q⌋ + 1
  else if ⌊q⌋ % 2 = 0 then ⌊q⌋
  else ⌊q⌋ + 1

lemma roundHalfEven_intCast (n : ℤ) : roundHalfEven (n : ℚ) = n := by
  simp [roundHalfEven]

lemma roundHalfEven_nonneg {q : ℚ} (hq : 0 ≤ q) : 0 ≤ roundHalfEven q := by
  have hfloor : 0 ≤ ⌊q⌋ := Int.floor_nonneg.mpr hq
  rw [roundHalfEven]
  split_ifs <;> omega

/-- A double precision number. -/
inductive Binary64 where
  /-- A finite number. -/
  | finite (q : ℚ)
  /-- An infinity, the negative one or the positive one. -/
  | infinite (negative : Bool)
deriving DecidableEq

namespace Binary64

/-- The exponent of the last bit of the significand for a positive number. -/
def unitExponent (q : ℚ) : ℤ := max (Int.log 2 q - 52) (-1074)

/-- A positive number with its significand rounded. -/
def roundedMagnitude (q : ℚ) : ℚ :=
  roundHalfEven (q / 2 ^ unitExponent q) * 2 ^ unitExponent q

/-- The double precision number nearest to a rational. -/
def nearest (q : ℚ) : Binary64 :=
  if roundedMagnitude |q| < 2 ^ (1024 : ℤ) then
    .finite (if q < 0 then -roundedMagnitude |q| else roundedMagnitude |q|)
  else .infinite (decide (q < 0))

/-- The unit of a number with a significand of 53 bits is at most its last bit. -/
lemma unitExponent_le {m : ℕ} {e : ℤ} (hm : m < 2 ^ 53) (hm0 : 0 < m) (he : -1074 ≤ e) :
    unitExponent ((m : ℚ) * 2 ^ e) ≤ e := by
  have hpos : (0 : ℚ) < (m : ℚ) * 2 ^ e := by positivity
  have hlt : (m : ℚ) * 2 ^ e < ((2 : ℕ) : ℚ) ^ (e + 53) := by
    have hm' : (m : ℚ) < 2 ^ (53 : ℕ) := by exact_mod_cast hm
    have h2 : (0 : ℚ) < 2 ^ e := by positivity
    calc (m : ℚ) * 2 ^ e < 2 ^ (53 : ℕ) * 2 ^ e := mul_lt_mul_of_pos_right hm' h2
      _ = ((2 : ℕ) : ℚ) ^ (e + 53) := by
        rw [Nat.cast_ofNat, zpow_add₀ (by norm_num), mul_comm]
        rfl
  have hlog := (Int.lt_zpow_iff_log_lt (b := 2) (by norm_num) hpos).mp hlt
  rw [unitExponent]
  omega

/-- A significand of 53 bits is kept. -/
lemma roundedMagnitude_of_representable {m : ℕ} {e : ℤ} (hm : m < 2 ^ 53) (he : -1074 ≤ e) :
    roundedMagnitude ((m : ℚ) * 2 ^ e) = (m : ℚ) * 2 ^ e := by
  by_cases hm0 : m = 0
  · subst hm0
    have := roundHalfEven_intCast 0
    simp only [Int.cast_zero] at this
    simp [roundedMagnitude, this]
  · have hle := unitExponent_le hm (Nat.pos_of_ne_zero hm0) he
    set u := unitExponent ((m : ℚ) * 2 ^ e) with hu
    have hdiv : (m : ℚ) * 2 ^ e / 2 ^ u = ((m * 2 ^ (e - u).toNat : ℤ) : ℚ) := by
      have hsplit : (2 : ℚ) ^ e = 2 ^ ((e - u).toNat : ℤ) * 2 ^ u := by
        rw [← zpow_add₀ (by norm_num), Int.toNat_of_nonneg (by omega)]
        congr 1
        omega
      rw [hsplit, ← mul_assoc, mul_div_assoc, div_self (by positivity), mul_one]
      push_cast
      rw [zpow_natCast]
    rw [roundedMagnitude]
    rw [← hu, hdiv, roundHalfEven_intCast, ← hdiv, div_mul_cancel₀ _ (by positivity)]

/-- A representable number is its own rounding. -/
theorem nearest_of_representable {q : ℚ} {m : ℕ} {e : ℤ} (hq : |q| = (m : ℚ) * 2 ^ e)
    (hm : m < 2 ^ 53) (he : -1074 ≤ e) (hmax : |q| < 2 ^ (1024 : ℤ)) :
    nearest q = .finite q := by
  have hround : roundedMagnitude |q| = |q| := by
    rw [hq]
    exact roundedMagnitude_of_representable hm he
  rw [nearest]
  rw [hround, if_pos hmax]
  congr 1
  split_ifs with h
  · rw [abs_of_neg h, neg_neg]
  · exact abs_of_nonneg (not_lt.mp h)

/-- The integers with at most 53 bits are representable. -/
lemma nearest_intCast {n : ℤ} (hn : n.natAbs ≤ 2 ^ 53) : nearest (n : ℚ) = .finite n := by
  have habs : |(n : ℚ)| = (n.natAbs : ℚ) := by
    rw [Nat.cast_natAbs, Int.cast_abs]
  have hlt : ((n.natAbs : ℚ)) < 2 ^ (1024 : ℤ) := by
    have h₁ : (n.natAbs : ℚ) ≤ 2 ^ (53 : ℕ) := by exact_mod_cast hn
    have h₂ : (2 : ℚ) ^ (53 : ℤ) < 2 ^ (1024 : ℤ) :=
      zpow_lt_zpow_right₀ (by norm_num) (by norm_num)
    exact lt_of_le_of_lt h₁ h₂
  rcases Nat.lt_or_eq_of_le hn with h | h
  · have hrep : |(n : ℚ)| = (n.natAbs : ℚ) * 2 ^ (0 : ℤ) := by rw [zpow_zero, mul_one, habs]
    exact nearest_of_representable hrep h (by norm_num) (habs ▸ hlt)
  · have hrep : |(n : ℚ)| = ((1 : ℕ) : ℚ) * 2 ^ (53 : ℤ) := by
      rw [habs, h]
      norm_num
    exact nearest_of_representable hrep (by norm_num) (by norm_num) (habs ▸ hlt)

/-- The rounding of a number that is not negative is not negative. -/
lemma nearest_nonneg {q x : ℚ} (hq : 0 ≤ q) (h : nearest q = .finite x) : 0 ≤ x := by
  unfold nearest at h
  split at h
  · simp only [if_neg (not_lt.mpr hq), Binary64.finite.injEq] at h
    rw [← h]
    have : 0 ≤ roundHalfEven (|q| / 2 ^ unitExponent |q|) := roundHalfEven_nonneg (by positivity)
    rw [roundedMagnitude]
    positivity
  · cases h

/-- The rounding of a negative number is not positive. -/
lemma nearest_nonpos {q x : ℚ} (hq : q < 0) (h : nearest q = .finite x) : x ≤ 0 := by
  unfold nearest at h
  split at h
  · simp only [Binary64.finite.injEq] at h
    rw [← h]
    have : 0 ≤ roundHalfEven (|q| / 2 ^ unitExponent |q|) := roundHalfEven_nonneg (by positivity)
    rw [roundedMagnitude]
    rw [neg_nonpos]
    positivity
  · cases h

end Binary64

end Lib
