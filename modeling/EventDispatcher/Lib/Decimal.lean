import EventDispatcher.Lib.Json
import EventDispatcher.Lib.Binary64
import Mathlib.Data.List.DropRight
import Mathlib.Tactic.Ring
import Mathlib.Tactic.FieldSimp

/-!
# Decimal texts

The texts that integers (`intText`) and numbers with six decimals (`fixedText`) are printed as.
Both are numbers of JSON, with the value they were printed from.
-/

namespace Lib

open Json

/-- The digits of a natural number. -/
def natText (n : ℕ) : List Char := Nat.toDigits 10 n

/-- An integer. -/
def intText (n : ℤ) : List Char := if n < 0 then '-' :: natText n.natAbs else natText n.natAbs

/-- The last `w` digits of a number. -/
def lastDigits : ℕ → ℕ → List Char
  | 0, _ => []
  | w + 1, r => lastDigits w (r / 10) ++ [(r % 10).digitChar]

/-- The number `k / 10 ^ 6`, with six decimals and a sign. -/
def fixedText (negative : Bool) (k : ℕ) : List Char :=
  (if negative then ['-'] else []) ++ (natText (k / 10 ^ 6) ++ '.' :: lastDigits 6 (k % 10 ^ 6))

/-- The value of `fixedText`. -/
def fixedValue (negative : Bool) (k : ℕ) : ℚ :=
  if negative then -((k : ℚ) / 10 ^ 6) else (k : ℚ) / 10 ^ 6

/-- A number with six decimals, the last one rounded. -/
def roundedText (x : ℚ) : List Char :=
  fixedText (decide (x < 0)) (roundHalfEven (|x| * 10 ^ 6)).toNat

lemma natText_digits (n : ℕ) : ∀ c ∈ natText n, c.isDigit = true := fun _ hc =>
  Nat.isDigit_of_mem_toDigits (by decide) (by decide) hc

lemma natText_ne_nil (n : ℕ) : natText n ≠ [] := Nat.toDigits_ne_nil

/-- Only zero is printed with a leading zero. -/
lemma natText_head {n : ℕ} (h : (natText n).head? = some '0') : (natText n).length = 1 := by
  induction n using Nat.strong_induction_on with
  | _ n ih =>
    unfold natText at h ⊢
    by_cases hn : n < 10
    · rw [Nat.toDigits_of_lt_base hn]
      rfl
    · rw [Nat.toDigits_of_base_le (by decide) (not_lt.mp hn),
        List.head?_append_of_ne_nil _ Nat.toDigits_ne_nil] at h
      -- the quotient would be printed as a zero
      exfalso
      have hone := ih (n / 10) (by omega) h
      have hlt : n / 10 < 10 := by
        by_contra hge
        rw [natText, Nat.toDigits_of_base_le (by decide) (not_lt.mp hge), List.length_append,
          List.length_singleton] at hone
        have := Nat.length_toDigits_pos (b := 10) (n := n / 10 / 10)
        omega
      rw [Nat.toDigits_of_lt_base hlt, List.head?_cons, Option.some.injEq,
        Nat.digitChar_eq_zero] at h
      omega

lemma length_lastDigits (w r : ℕ) : (lastDigits w r).length = w := by
  induction w generalizing r with
  | zero => rfl
  | succ w ih => simp [lastDigits, ih]

lemma lastDigits_digits (w r : ℕ) : ∀ c ∈ lastDigits w r, c.isDigit = true := by
  induction w generalizing r with
  | zero => simp [lastDigits]
  | succ w ih =>
    intro c hc
    rw [lastDigits, List.mem_append, List.mem_singleton] at hc
    rcases hc with hc | rfl
    · exact ih _ c hc
    · rw [Nat.isDigit_digitChar, decide_eq_true_eq]
      omega

lemma ofDigitChars_lastDigits (w r : ℕ) : Nat.ofDigitChars 10 (lastDigits w r) 0 = r % 10 ^ w := by
  induction w generalizing r with
  | zero => simp [lastDigits, Nat.mod_one]
  | succ w ih =>
    have hlt : r % 10 < 10 := Nat.mod_lt _ (by decide)
    rw [lastDigits, Nat.ofDigitChars_append, ih, Nat.ofDigitChars_cons_digitChar_of_lt_ten hlt,
      Nat.ofDigitChars_nil, pow_succ, mul_comm (10 ^ w), Nat.mod_mul]
    ring

lemma lastDigits_eq_zeros_iff (w r : ℕ) : (∀ c ∈ lastDigits w r, c = '0') ↔ 10 ^ w ∣ r := by
  induction w generalizing r with
  | zero => simp [lastDigits]
  | succ w ih =>
    have hdigit : (r % 10).digitChar = '0' ↔ r % 10 = 0 := by
      rw [Nat.digitChar_eq_zero]
    have hmod : r % 10 ^ (w + 1) = r % 10 + 10 * (r / 10 % 10 ^ w) := by
      rw [pow_succ, mul_comm, Nat.mod_mul]
    have ih' := ih (r / 10)
    rw [Nat.dvd_iff_mod_eq_zero] at ih' ⊢
    rw [lastDigits, List.forall_mem_append, ih', List.forall_mem_singleton, hdigit, hmod]
    omega

/-- Without the zeros at the end, decimals end with their period when they are all zeros. -/
lemma getLast?_rdropWhile_zeros (u : List Char) {d : List Char}
    (hd : ∀ c ∈ d, c.isDigit = true) :
    ((u ++ '.' :: d).rdropWhile fun c => c = '0').getLast? = some '.' ↔ ∀ c ∈ d, c = '0' := by
  induction d using List.reverseRecOn with
  | nil => rw [List.rdropWhile_concat_neg _ _ _ (by decide)]; simp
  | append_singleton d c ih =>
    rw [← List.cons_append, ← List.append_assoc]
    by_cases h0 : c = '0'
    · rw [List.rdropWhile_concat_pos _ _ _ (by simpa using h0),
        ih fun c hc => hd c (List.mem_append_left _ hc), List.forall_mem_append,
        List.forall_mem_singleton]
      exact (and_iff_left h0).symm
    · have hdigit := hd c (by simp)
      have hne : c ≠ '.' := by
        rintro rfl
        cases hdigit
      rw [List.rdropWhile_concat_neg _ _ _ (by simpa using h0), List.getLast?_concat,
        List.forall_mem_append, List.forall_mem_singleton]
      exact iff_of_false (fun h => hne (Option.some.inj h)) fun h => h0 h.2

/-- A number printed with six decimals ends with its period, without the zeros at the end, when it
is an integer. -/
lemma getLast?_rdropWhile_fixedText (negative : Bool) (k : ℕ) :
    ((fixedText negative k).rdropWhile fun c => c = '0').getLast? = some '.' ↔ 10 ^ 6 ∣ k := by
  rw [fixedText, ← List.append_assoc, getLast?_rdropWhile_zeros _ (lastDigits_digits _ _),
    lastDigits_eq_zeros_iff, Nat.dvd_iff_mod_eq_zero, Nat.dvd_iff_mod_eq_zero, Nat.mod_mod]

lemma ofDigitChars_natText (n : ℕ) : Nat.ofDigitChars 10 (natText n) 0 = n :=
  Nat.ofDigitChars_ten_toDigits

/-- The value of printed digits and decimals. -/
lemma magnitude?_natText (n : ℕ) {s d : List Char} (hd : ∀ c, s.head? = some c → c.isDigit = false)
    (hs : fraction? s = some (d, [])) :
    magnitude? (natText n ++ s) =
      some ((Nat.ofDigitChars 10 (natText n ++ d) 0 : ℚ) * 10 ^ (-(d.length : ℤ))) := by
  have htake : (natText n ++ s).takeWhile Char.isDigit = natText n := by
    rw [List.takeWhile_append_of_pos (natText_digits n)]
    cases s with
    | nil => simp
    | cons c s => simp [hd c rfl]
  have hdrop : (natText n ++ s).dropWhile Char.isDigit = s := by
    rw [List.dropWhile_append_of_pos (natText_digits n)]
    cases s with
    | nil => simp
    | cons c s => simp [hd c rfl]
  have hzero : ¬ (natText n = [] ∨ ((natText n).head? = some '0' ∧ (natText n).length ≠ 1)) := by
    rintro (h | ⟨h, hlen⟩)
    · exact natText_ne_nil n h
    · exact hlen (natText_head h)
  unfold magnitude?
  simp only [htake, hdrop, if_neg hzero, hs, Option.bind_eq_bind, Option.bind_some, exponent?,
    zero_sub]
  rfl

lemma magnitude?_natText_nil (n : ℕ) : magnitude? (natText n) = some (n : ℚ) := by
  have h := magnitude?_natText n (s := []) (d := []) (by simp) rfl
  simpa [ofDigitChars_natText] using h

/-- A digit is not a minus, so the value of a text that starts with one is its magnitude. -/
lemma numberValue?_of_isDigit {s : List Char} {c : Char} (hc : s.head? = some c)
    (hdigit : c.isDigit = true) : numberValue? s = magnitude? s := by
  unfold numberValue?
  split
  · cases hc
    exact absurd hdigit (by decide)
  · rfl

lemma head?_natText_append (n : ℕ) (s : List Char) :
    ∃ c, (natText n ++ s).head? = some c ∧ c.isDigit = true := by
  obtain ⟨c, t, ht⟩ := List.exists_cons_of_ne_nil (natText_ne_nil n)
  exact ⟨c, by rw [ht]; rfl, natText_digits n c (by simp [ht])⟩

/-- The value of a printed integer. -/
theorem numberValue?_intText (n : ℤ) : numberValue? (intText n) = some (n : ℚ) := by
  rw [intText]
  split
  · rename_i hn
    rw [numberValue?, magnitude?_natText_nil, Option.map_some, Nat.cast_natAbs, Int.cast_abs,
      abs_of_neg (by exact_mod_cast hn), neg_neg]
  · rename_i hn
    obtain ⟨c, hc, hdigit⟩ := head?_natText_append n.natAbs []
    rw [List.append_nil] at hc
    rw [numberValue?_of_isDigit hc hdigit, magnitude?_natText_nil, Nat.cast_natAbs, Int.cast_abs,
      abs_of_nonneg (by exact_mod_cast not_lt.mp hn)]

/-- The value of a number printed with six decimals. -/
theorem numberValue?_fixedText (negative : Bool) (k : ℕ) :
    numberValue? (fixedText negative k) = some (fixedValue negative k) := by
  have hfrac : fraction? ('.' :: lastDigits 6 (k % 10 ^ 6)) =
      some (lastDigits 6 (k % 10 ^ 6), []) := by
    have hall := lastDigits_digits 6 (k % 10 ^ 6)
    have hne : lastDigits 6 (k % 10 ^ 6) ≠ [] := by
      intro h
      have := length_lastDigits 6 (k % 10 ^ 6)
      rw [h] at this
      cases this
    simp only [fraction?, List.takeWhile_eq_self_iff.mpr hall,
      List.dropWhile_eq_nil_iff.mpr hall, if_neg hne]
  have hvalue : Nat.ofDigitChars 10 (natText (k / 10 ^ 6) ++ lastDigits 6 (k % 10 ^ 6)) 0 = k := by
    rw [Nat.ofDigitChars_append, ofDigitChars_natText, Nat.ofDigitChars_eq_ofDigitChars_zero,
      ofDigitChars_lastDigits, length_lastDigits]
    omega
  have hmag : magnitude? (natText (k / 10 ^ 6) ++ '.' :: lastDigits 6 (k % 10 ^ 6)) =
      some ((k : ℚ) / 10 ^ 6) := by
    rw [magnitude?_natText (k / 10 ^ 6) (by
      intro c hc
      cases hc
      rfl) hfrac, hvalue, length_lastDigits]
    rw [div_eq_mul_inv]
    norm_num
  rw [fixedText, fixedValue]
  cases negative with
  | true =>
    rw [if_pos rfl, if_pos rfl, List.singleton_append, numberValue?, hmag, Option.map_some]
  | false =>
    obtain ⟨c, hc, hdigit⟩ := head?_natText_append (k / 10 ^ 6) ('.' :: lastDigits 6 (k % 10 ^ 6))
    rw [if_neg Bool.false_ne_true, if_neg Bool.false_ne_true, List.nil_append,
      numberValue?_of_isDigit hc hdigit, hmag]

/-! ### Floating point texts -/

/-- The text without its sign. -/
def dropSign : List Char → List Char
  | '+' :: s => s
  | '-' :: s => s
  | s => s

/-- The digits after a point, when there is one, and the rest. -/
def decimals : List Char → List Char × List Char
  | '.' :: s => (s.takeWhile Char.isDigit, s.dropWhile Char.isDigit)
  | s => ([], s)

/-- A decimal floating point number: a sign, digits with or without a point, at least one of
them, and an exponent; the sign and the exponent can be missing. -/
def isDecimalFloat (v : List Char) : Bool :=
  let s := dropSign v
  let (fraction, rest) := decimals (s.dropWhile Char.isDigit)
  (!(s.takeWhile Char.isDigit ++ fraction).isEmpty) && (exponent? rest).isSome

lemma decimals_chars {s d r : List Char} (h : decimals s = (d, r))
    (hr : ∀ c ∈ r, isNumberChar c = true) : ∀ c ∈ s, isNumberChar c = true := by
  unfold decimals at h
  split at h
  · rename_i s
    cases h
    intro c hc
    rcases List.mem_cons.mp hc with rfl | hc
    · rfl
    · exact isNumberChar_of_dropWhile hr c hc
  · cases h
    exact hr

/-- Without its sign, a floating point number is not empty and is spelled with the characters of
numbers. -/
lemma isDecimalFloat_chars {v : List Char} (h : isDecimalFloat v = true) :
    dropSign v ≠ [] ∧ ∀ c ∈ dropSign v, isNumberChar c = true := by
  unfold isDecimalFloat at h
  simp only [Bool.and_eq_true, Bool.not_eq_true', List.isEmpty_eq_false_iff, ne_eq] at h
  obtain ⟨hne, hexp⟩ := h
  obtain ⟨e, he⟩ := Option.isSome_iff_exists.mp hexp
  exact ⟨fun hnil => hne (by simp [hnil, decimals]),
    isNumberChar_of_dropWhile (decimals_chars rfl (exponent?_chars he))⟩

end Lib
