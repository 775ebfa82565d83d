import EventDispatcher.Message.JsonRoundTrip

/-!
# The JSON format: the values that come back

A value comes back from JSON in one of three ways: it is one of the two words, it is a string in
which `from_json()` finds nothing to replace, or it is a number that is printed from the nearest
double as it was (`NumberKept`).
-/

namespace EventDispatcher

open Lib Lib.Json

variable {S : Snapdev} {V : ValidatorDouble} {J : JsonTokens}

/-! ### Numbers -/

/-- The numbers that are printed as they were: an integer of 64 bits that a double holds, or six
decimals that the nearest double, which is not an integer, rounds to. -/
def NumberKept (t : Str) : Prop :=
  (∃ n : ℤ, t = intText n ∧ -2 ^ 63 ≤ n ∧ n < 2 ^ 63 ∧
      Binary64.nearest (n : ℚ) = .finite n) ∨
    ∃ negative k x, t = fixedText negative k ∧
      Binary64.nearest (fixedValue negative k) = .finite x ∧ x ≠ ⌊x⌋ ∧
        roundHalfEven (|x| * 10 ^ 6) = k

lemma castInt64_intCast {n : ℤ} (hlow : -2 ^ 63 ≤ n) (hhigh : n < 2 ^ 63) :
    castInt64 (.finite n) = n := by
  have hlow' : (-2 ^ 63 : ℚ) ≤ n := by exact_mod_cast hlow
  have hhigh' : (n : ℚ) < 2 ^ 63 := by exact_mod_cast hhigh
  rw [castInt64, if_pos ⟨hlow', hhigh'⟩]
  simp

/-- The conversion gives the integer, or the smallest one of 64 bits when it does not fit. -/
lemma castInt64_cases {x : ℚ} (hx : x = ⌊x⌋) :
    (castInt64 (.finite x) = ⌊x⌋ ∧ -2 ^ 63 ≤ ⌊x⌋ ∧ ⌊x⌋ < 2 ^ 63) ∨
      (castInt64 (.finite x) = -2 ^ 63 ∧ ¬ (-2 ^ 63 ≤ x ∧ x < 2 ^ 63)) := by
  by_cases hrange : -2 ^ 63 ≤ x ∧ x < 2 ^ 63
  · rw [hx] at hrange
    have hlow : -2 ^ 63 ≤ ⌊x⌋ := by exact_mod_cast hrange.1
    have hhigh : ⌊x⌋ < 2 ^ 63 := by exact_mod_cast hrange.2
    refine Or.inl ⟨?_, hlow, hhigh⟩
    conv_lhs => rw [hx]
    exact castInt64_intCast hlow hhigh
  · exact Or.inr ⟨by rw [castInt64, if_neg hrange], hrange⟩

/-- The smallest integer of 64 bits is a double. -/
lemma nearest_minInt64 : Binary64.nearest ((-2 ^ 63 : ℤ) : ℚ) = .finite (-2 ^ 63) := by
  have habs : |((-2 ^ 63 : ℤ) : ℚ)| = ((1 : ℕ) : ℚ) * 2 ^ (63 : ℤ) := by norm_num
  have hmax : |((-2 ^ 63 : ℤ) : ℚ)| < 2 ^ (1024 : ℤ) := by
    rw [habs, Nat.cast_one, one_mul]
    exact zpow_lt_zpow_right₀ (by norm_num) (by norm_num)
  rw [Binary64.nearest_of_representable habs (by norm_num) (by norm_num) hmax]
  norm_num

/-- The sign of a double is the sign of the text it is read from. -/
lemma neg_iff_of_nearest_fixedValue {negative : Bool} {k : ℕ} {x : ℚ} (hx : x ≠ 0)
    (h : Binary64.nearest (fixedValue negative k) = .finite x) : x < 0 ↔ negative = true := by
  have hmagnitude : (0 : ℚ) ≤ (k : ℚ) / 10 ^ 6 := by positivity
  cases negative with
  | true =>
    simp only [fixedValue, if_true] at h
    rcases hmagnitude.lt_or_eq with hlt | heq
    · have hneg : -((k : ℚ) / 10 ^ 6) < 0 := by linarith
      simpa using lt_of_le_of_ne (Binary64.nearest_nonpos hneg h) hx
    · have hzero := Binary64.nearest_intCast (n := 0) (by norm_num)
      rw [← heq, neg_zero, ← Int.cast_zero, hzero, Binary64.finite.injEq] at h
      exact absurd (by simpa using h.symm) hx
  | false =>
    simp only [fixedValue, Bool.false_eq_true, if_false] at h
    simpa using Binary64.nearest_nonneg hmagnitude h

/-- A number that is printed as it was is kept. -/
lemma numberKept_of_numberText {t : Str} {q : ℚ} (hq : numberValue? t = some q)
    (h : numberText (Binary64.nearest q) = t) : NumberKept t := by
  have hvalue : ∀ {n : ℤ}, intText n = t → q = n := by
    rintro n rfl
    rw [numberValue?_intText, Option.some.injEq] at hq
    exact hq.symm
  -- the text for a number out of range is the one of a number in range
  have hmin : intText (-2 ^ 63) = t → Binary64.nearest q = .finite (-2 ^ 63) := by
    intro h
    rw [hvalue h]
    exact nearest_minInt64
  cases hx : Binary64.nearest q with
  | infinite negative =>
    rw [hx] at h
    have := hmin h
    rw [hx] at this
    cases this
  | finite x =>
    rw [hx, numberText] at h
    split at h
    · rename_i hint
      left
      rcases castInt64_cases hint with ⟨hcast, hlow, hhigh⟩ | ⟨hcast, hrange⟩
      · rw [hcast] at h
        refine ⟨⌊x⌋, h.symm, hlow, hhigh, ?_⟩
        rw [← hvalue h, hx]
        congr 1
        rw [hvalue h]
        exact hint
      · exfalso
        rw [hcast] at h
        have := hmin h
        rw [hx, Binary64.finite.injEq] at this
        exact hrange ⟨this.ge, by rw [this]; norm_num⟩
    · rename_i hint
      right
      have hround : 0 ≤ roundHalfEven (|x| * 10 ^ 6) := roundHalfEven_nonneg (by positivity)
      refine ⟨_, _, x, h.symm, ?_, hint, (Int.toNat_of_nonneg hround).symm⟩
      rw [← h, roundedText, numberValue?_fixedText, Option.some.injEq] at hq
      rw [hq, hx]

/-- The numbers that are kept are the ones that are printed as they were. -/
theorem numberText_eq_iff {t : Str} {q : ℚ} (hq : numberValue? t = some q) :
    numberText (Binary64.nearest q) = t ↔ NumberKept t := by
  refine ⟨numberKept_of_numberText hq, ?_⟩
  rintro (⟨n, rfl, hlow, hhigh, hn⟩ | ⟨negative, k, x, rfl, hx, hint, hround⟩)
  · rw [numberValue?_intText, Option.some.injEq] at hq
    rw [← hq, hn, numberText, if_pos (by simp), castInt64_intCast hlow hhigh]
  · rw [numberValue?_fixedText, Option.some.injEq] at hq
    rw [← hq, hx, numberText, if_neg hint, roundedText, hround, Int.toNat_natCast]
    have hzero : x ≠ 0 := by
      rintro rfl
      simp at hint
    congr 1
    rw [Bool.eq_iff_iff, decide_eq_true_eq]
    exact neg_iff_of_nearest_fixedValue hzero hx

/-- The integers with at most 53 bits are kept. -/
lemma numberKept_intText {n : ℤ} (hn : n.natAbs ≤ 2 ^ 53) : NumberKept (intText n) :=
  Or.inl ⟨n, rfl, by omega, by omega, Binary64.nearest_intCast hn⟩

lemma natText_head_ne_plus (n : ℕ) (s : Str) : (natText n ++ s).head? ≠ some '+' := by
  obtain ⟨c, hc, hdigit⟩ := head?_natText_append n s
  rw [hc, ne_eq, Option.some.injEq]
  rintro rfl
  exact absurd hdigit (by decide)

/-- A number is printed without a plus sign. -/
lemma numberText_head (x : Binary64) : (numberText x).head? ≠ some '+' := by
  have hint : ∀ n, (intText n).head? ≠ some '+' := by
    intro n
    rw [intText]
    split
    · simp
    · have := natText_head_ne_plus n.natAbs []
      rwa [List.append_nil] at this
  unfold numberText
  split
  · split
    · exact hint _
    · rw [roundedText, fixedText]
      split
      · simp
      · exact natText_head_ne_plus _ _
  · exact hint _

lemma dropPlus_eq_iff {v w : Str} (hw : w.head? ≠ some '+') :
    w = dropPlus v ↔ w = v ∨ v = '+' :: w := by
  unfold dropPlus
  split
  · rename_i s
    constructor
    · rintro rfl
      exact Or.inr rfl
    · rintro (rfl | h)
      · exact absurd rfl hw
      · exact (List.cons.inj h).2.symm
  · rename_i hplus
    exact ⟨Or.inl, fun h => h.elim id fun h => absurd h (hplus w)⟩

/-! ### Values -/

/-- The values that come back: the two words, the numbers that are kept, and the strings without
a backslash before a quote, a backslash, an `n` or an `r`. -/
def ValueKept (V : ValidatorDouble) (v : Str) : Prop :=
  v = booleanText true ∨ v = booleanText false ∨
    (V.convertString v = true ∧ NumberKept (dropPlus v)) ∨
    (V.convertString v = false ∧ ∀ p ∈ jsonUnescapes, ¬ p.1 <:+: v)

/-- The replacement leaves a string as it is when no escape occurs in it. -/
lemma replaceMany_jsonUnescapes_eq_self_iff {v : Str} :
    replaceMany jsonUnescapes v = v ↔ ∀ p ∈ jsonUnescapes, ¬ p.1 <:+: v := by
  rw [replaceMany_eq_self_iff (by unfold KeysNonempty; decide) (by decide)]
  simp only [firstMatch_eq_none_iff]
  constructor
  · intro h p hp hinfix
    obtain ⟨t, hpre, hsuf⟩ := List.infix_iff_prefix_suffix.mp hinfix
    exact h t hsuf p hp hpre
  · intro h t hsuf p hp hpre
    exact h p hp (List.infix_iff_prefix_suffix.mpr ⟨t, hpre, hsuf⟩)

/-- The values that come back are the ones that are kept. -/
theorem backValue_eq_iff {v : Str} (hsafe : JsonSafe V v) :
    (backValue S V v = v ∨ (V.convertString v = true ∧ v = '+' :: backValue S V v)) ↔
      ValueKept V v := by
  rw [ValueKept]
  by_cases htrue : v = booleanText true
  · have hback : backValue S V v = v := by
      rw [backValue, valueToken, if_pos htrue, htrue]
      rfl
    exact ⟨fun _ => Or.inl htrue, fun _ => Or.inl hback⟩
  by_cases hfalse : v = booleanText false
  · have hback : backValue S V v = v := by
      rw [backValue, valueToken, if_neg htrue, if_pos hfalse, hfalse]
      rfl
    exact ⟨fun _ => Or.inr (Or.inl hfalse), fun _ => Or.inl hback⟩
  rw [JsonSafe, or_iff_right htrue, or_iff_right hfalse] at hsafe
  rw [or_iff_right htrue, or_iff_right hfalse]
  rcases hsafe with ⟨hnum, hsome⟩ | ⟨hnum, -⟩
  · obtain ⟨q, hq⟩ := Option.isSome_iff_exists.mp hsome
    have hback : backValue S V v = numberText (Binary64.nearest q) := by
      rw [backValue, valueToken, if_neg htrue, if_neg hfalse, if_pos hnum, hq]
      rfl
    have hkept : backValue S V v = v ∨ v = '+' :: backValue S V v ↔ NumberKept (dropPlus v) := by
      rw [hback, ← dropPlus_eq_iff (numberText_head _), numberText_eq_iff hq]
    simp only [hnum, true_and, Bool.true_eq_false, false_and, or_false, hkept]
  · have hback : backValue S V v = replaceMany jsonUnescapes v := by
      rw [backValue, valueToken, if_neg htrue, if_neg hfalse, if_neg (by simp [hnum])]
      exact S.stringReplaceMany_eq (by unfold KeysNonempty; decide) v
    simp only [hnum, Bool.false_eq_true, false_and, false_or, or_false, true_and, hback,
      replaceMany_jsonUnescapes_eq_self_iff]

/-- The two words are not numbers. -/
lemma convertString_booleanText (b : Bool) : V.convertString (booleanText b) = false := by
  rw [Bool.eq_false_iff]
  intro h
  have := V.convertString_sound _ h
  cases b <;> exact absurd this (by decide)

/-- A value that can be written in a string is safe unless it is a number that JSON does not
have. -/
lemma jsonSafe_iff {v : Str} (hv : StringText v) :
    JsonSafe V v ↔ (V.convertString v = true → (numberValue? (dropPlus v)).isSome = true) := by
  constructor
  · rintro (rfl | rfl | ⟨-, h⟩ | ⟨h, -⟩) hnum
    · rw [convertString_booleanText] at hnum
      cases hnum
    · rw [convertString_booleanText] at hnum
      cases hnum
    · exact h
    · rw [h] at hnum
      cases hnum
  · intro h
    by_cases hnum : V.convertString v = true
    · exact Or.inr (Or.inr (Or.inl ⟨hnum, h hnum⟩))
    · exact Or.inr (Or.inr (Or.inr ⟨Bool.eq_false_iff.mpr hnum, hv⟩))

/-- **A value comes back from JSON** exactly when the numbers of the message are numbers of JSON
and this value is kept. -/
theorem fromJson_toJson_value_iff {m : Message} (hm : Message.Built S m) (hcmd : m.command ≠ [])
    (hservice : m.service = []) (htext : ∀ p ∈ m.parameters.entries, StringText p.2)
    {p : Str × Str} (hp : p ∈ m.parameters.entries) (r : Message) :
    (∃ text m₁ r₁, m.toJson S V = .ok (text, m₁) ∧ r.fromJson S J text = (true, r₁) ∧
      ∃ w, r₁.parameters.find? p.1 = some w ∧
        (w = p.2 ∨ (V.convertString p.2 = true ∧ p.2 = '+' :: w))) ↔
      (∀ q ∈ m.parameters.entries, V.convertString q.2 = true →
        (numberValue? (dropPlus q.2)).isSome = true) ∧ ValueKept V p.2 := by
  have hsafe : (∀ q ∈ m.parameters.entries, JsonSafe V q.2) ↔
      ∀ q ∈ m.parameters.entries, V.convertString q.2 = true →
        (numberValue? (dropPlus q.2)).isSome = true :=
    forall₂_congr fun q hq => jsonSafe_iff (htext q hq)
  have hfind : (m.parameters.mapValues (backValue S V)).find? p.1 = some (backValue S V p.2) := by
    rw [SortedMap.find?_mapValues, SortedMap.find?_eq_some_iff.mpr hp]
    rfl
  rw [fromJson_toJson_cases hm hcmd r, ← hsafe]
  constructor
  · rintro ⟨-, hall, w, hw, hvalue⟩
    obtain rfl : backValue S V p.2 = w := Option.some.inj (hfind.symm.trans hw)
    exact ⟨hall, (backValue_eq_iff (hall p hp)).mp hvalue⟩
  · rintro ⟨hall, hkept⟩
    exact ⟨hservice, hall, _, hfind, (backValue_eq_iff (hall p hp)).mpr hkept⟩

/-- The value `-35` comes back. -/
theorem fromJson_toJson_value_integer :
    ∃ text m₁ r₁, (Message.oneParameter [] ['G'] ['p'] ['-', '3', '5']).toJson
        .standard .standard = .ok (text, m₁) ∧
      Message.fromJson .standard .standard {} text = (true, r₁) ∧
      ∃ w, r₁.parameters.find? ['p'] = some w ∧
        (w = ['-', '3', '5'] ∨ (ValidatorDouble.standard.convertString ['-', '3', '5'] = true ∧
          ['-', '3', '5'] = '+' :: w)) := by
  have hbuilt : Message.Built .standard (Message.oneParameter [] ['G'] ['p'] ['-', '3', '5']) :=
    Message.built_oneParameter (by decide) (by decide) (by decide)
  have hentry : (['p'], ['-', '3', '5']) ∈
      (Message.oneParameter [] ['G'] ['p'] ['-', '3', '5']).parameters.entries :=
    List.mem_singleton_self _
  have hplain : StringText ['-', '3', '5'] :=
    (PlainName.flatMap (by unfold PlainName; decide)).2
  refine (fromJson_toJson_value_iff hbuilt (by decide) rfl (fun q hq => ?_) hentry {}).mpr
    ⟨fun q hq _ => ?_, Or.inr (Or.inr (Or.inl ⟨by decide, ?_⟩))⟩
  · rw [List.mem_singleton.mp hq]
    exact hplain
  · rw [List.mem_singleton.mp hq]
    decide
  · exact numberKept_intText (n := -35) (by decide)

/-- A string with a backslash and an `n` comes back with a line end. -/
theorem not_fromJson_toJson_value :
    ¬ ∀ (S : Snapdev) (V : ValidatorDouble) (J : JsonTokens) (m r : Message),
      Message.Built S m → m.command ≠ [] → m.server = [] → m.service = [] →
      (∀ p ∈ m.parameters.entries, StringText p.2) → ∀ p ∈ m.parameters.entries,
      ∃ text m₁ r₁, m.toJson S V = .ok (text, m₁) ∧ r.fromJson S J text = (true, r₁) ∧
        ∃ w, r₁.parameters.find? p.1 = some w ∧
          (w = p.2 ∨ (V.convertString p.2 = true ∧ p.2 = '+' :: w)) := by
  intro h
  have hm : Message.Built .standard (Message.oneParameter [] ['G'] ['p'] ['\\', 'n']) :=
    Message.built_oneParameter (by decide) (by decide) (by decide)
  have hstring : StringText ['\\', 'n'] :=
    ⟨Utf8.ascii (by decide) (Utf8.ascii (by decide) Utf8.nil), by decide⟩
  have hback := h .standard .standard .standard _ {} hm (by decide) rfl rfl
    (fun p hp => by rw [List.mem_singleton.mp hp]; exact hstring) _ (List.mem_singleton_self _)
  rw [fromJson_toJson_cases hm (by decide)] at hback
  obtain ⟨-, -, w, hw, hvalue⟩ := hback
  have hread : (Fields.readBack .standard .standard (Message.oneParameter [] ['G'] ['p']
      ['\\', 'n']).toFields).parameters.find? ['p'] = some ['\n'] := by decide
  obtain rfl : ['\n'] = w := Option.some.inj (hread.symm.trans hw)
  exact absurd hvalue (by decide)

end EventDispatcher
