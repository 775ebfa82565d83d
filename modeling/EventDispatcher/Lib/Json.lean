import Mathlib.Data.List.Basic
import Mathlib.Data.List.TakeWhile
import Mathlib.Data.Rat.Defs
import Mathlib.Algebra.Order.Ring.Rat
import Mathlib.Algebra.Field.Rat
import Mathlib.Tactic.Linarith

/-!
# The tokens of JSON

A JSON text is a word of bytes, written as characters.  `Lexeme` says how each token is spelled
and `Lexes` which sequence of tokens a text holds; `lex` computes it (`lexes_iff`).  The strings
are UTF-8 with the escapes of the standard, the numbers have the value `numberValue?` gives
them, and `num` turns that value into what the token carries.
-/

namespace Lib.Json

/-! ### UTF-8 -/

/-- The byte lies between two bounds. -/
def within (lo hi : ℕ) (c : Char) : Bool := lo ≤ c.toNat && c.toNat ≤ hi

/-- A continuation byte. -/
def isTail (c : Char) : Bool := within 0x80 0xBF c

/-- The first two bytes of a character of two bytes. -/
def starts2 (a b : Char) : Bool := within 0xC2 0xDF a && isTail b

/-- The first two bytes of a character of three bytes. -/
def starts3 (a b : Char) : Bool :=
  (within 0xE0 0xE0 a && within 0xA0 0xBF b) || (within 0xE1 0xEC a && isTail b) ||
    (within 0xED 0xED a && within 0x80 0x9F b) || (within 0xEE 0xEF a && isTail b)

/-- The first two bytes of a character of four bytes. -/
def starts4 (a b : Char) : Bool :=
  (within 0xF0 0xF0 a && within 0x90 0xBF b) || (within 0xF1 0xF3 a && isTail b) ||
    (within 0xF4 0xF4 a && within 0x80 0x8F b)

/-- The bytes of one character outside ASCII. -/
inductive MultiByte : List Char → Prop
  | two {a b : Char} : starts2 a b = true → MultiByte [a, b]
  | three {a b c : Char} : starts3 a b = true → isTail c = true → MultiByte [a, b, c]
  | four {a b c d : Char} : starts4 a b = true → isTail c = true → isTail d = true →
      MultiByte [a, b, c, d]

/-- The texts in UTF-8. -/
inductive Utf8 : List Char → Prop
  /-- The empty text. -/
  | nil : Utf8 []
  /-- An ASCII character. -/
  | ascii {c : Char} {s : List Char} : c.toNat < 0x80 → Utf8 s → Utf8 (c :: s)
  /-- A character of several bytes. -/
  | multi {u s : List Char} : MultiByte u → Utf8 s → Utf8 (u ++ s)

/-- The character of several bytes at the start of a text, and the rest. -/
def splitMultiByte : List Char → Option (List Char × List Char)
  | a :: b :: s =>
      if starts2 a b then some ([a, b], s)
      else
        match s with
        | [] => none
        | c :: s =>
          if starts3 a b && isTail c then some ([a, b, c], s)
          else
            match s with
            | [] => none
            | d :: s => if starts4 a b && isTail c && isTail d then some ([a, b, c, d], s) else none
  | _ => none

lemma MultiByte.high {u : List Char} (h : MultiByte u) : ∀ c ∈ u, 0x80 ≤ c.toNat := by
  cases h with
  | two h =>
    simp only [starts2, isTail, within, Bool.and_eq_true, decide_eq_true_eq] at h
    simp only [List.mem_cons, List.not_mem_nil, or_false, forall_eq_or_imp, forall_eq]
    omega
  | three h hc =>
    simp only [starts3, isTail, within, Bool.and_eq_true, Bool.or_eq_true,
      decide_eq_true_eq] at h hc
    simp only [List.mem_cons, List.not_mem_nil, or_false, forall_eq_or_imp, forall_eq]
    omega
  | four h hc hd =>
    simp only [starts4, isTail, within, Bool.and_eq_true, Bool.or_eq_true,
      decide_eq_true_eq] at h hc hd
    simp only [List.mem_cons, List.not_mem_nil, or_false, forall_eq_or_imp, forall_eq]
    omega

lemma MultiByte.ne_nil {u : List Char} (h : MultiByte u) : u ≠ [] := by
  cases h <;> simp

lemma starts2_eq_false {a b : Char} (h : starts3 a b = true ∨ starts4 a b = true) :
    starts2 a b = false := by
  simp only [starts2, starts3, starts4, isTail, within, Bool.and_eq_true, Bool.or_eq_true,
    decide_eq_true_eq, Bool.and_eq_false_iff, decide_eq_false_iff_not] at h ⊢
  omega

lemma starts3_eq_false {a b : Char} (h : starts4 a b = true) : starts3 a b = false := by
  rw [Bool.eq_false_iff]
  simp only [starts3, starts4, isTail, within, Bool.and_eq_true, Bool.or_eq_true,
    decide_eq_true_eq, ne_eq] at h ⊢
  omega

lemma splitMultiByte_eq_some_iff {s u r : List Char} :
    splitMultiByte s = some (u, r) ↔ MultiByte u ∧ s = u ++ r := by
  constructor
  · intro h
    unfold splitMultiByte at h
    split at h
    · split at h
      · rename_i h₂
        cases h
        exact ⟨MultiByte.two h₂, rfl⟩
      · split at h
        · cases h
        · split at h
          · rename_i h₃
            cases h
            rw [Bool.and_eq_true] at h₃
            exact ⟨MultiByte.three h₃.1 h₃.2, rfl⟩
          · split at h
            · cases h
            · split at h
              · rename_i h₄
                cases h
                simp only [Bool.and_eq_true] at h₄
                exact ⟨MultiByte.four h₄.1.1 h₄.1.2 h₄.2, rfl⟩
              · cases h
    · cases h
  · rintro ⟨h, rfl⟩
    cases h with
    | two h => simp [splitMultiByte, h]
    | three h hc => simp [splitMultiByte, starts2_eq_false (Or.inl h), h, hc]
    | four h hc hd =>
      simp [splitMultiByte, starts2_eq_false (Or.inr h), starts3_eq_false h, h, hc, hd]

/-- The bytes of a code point. -/
@[irreducible]
def utf8 (n : ℕ) : List Char :=
  if n < 0x80 then [Char.ofNat n]
  else if n < 0x800 then [Char.ofNat (0xC0 + n / 0x40), Char.ofNat (0x80 + n % 0x40)]
  else if n < 0x10000 then
    [Char.ofNat (0xE0 + n / 0x1000), Char.ofNat (0x80 + n / 0x40 % 0x40),
      Char.ofNat (0x80 + n % 0x40)]
  else
    [Char.ofNat (0xF0 + n / 0x40000), Char.ofNat (0x80 + n / 0x1000 % 0x40),
      Char.ofNat (0x80 + n / 0x40 % 0x40), Char.ofNat (0x80 + n % 0x40)]

/-! ### Strings -/

/-- What the character after a backslash stands for. -/
def simpleEscape (e : Char) : Option Char :=
  if e = '"' then some '"'
  else if e = '\\' then some '\\'
  else if e = '/' then some '/'
  else if e = 'b' then some '\x08'
  else if e = 'f' then some '\x0c'
  else if e = 'n' then some '\n'
  else if e = 'r' then some '\r'
  else if e = 't' then some '\t'
  else none

/-- The value of a hexadecimal digit. -/
def hexDigit (c : Char) : Option ℕ :=
  if within 0x30 0x39 c then some (c.toNat - 0x30)
  else if within 0x41 0x46 c then some (c.toNat - 0x37)
  else if within 0x61 0x66 c then some (c.toNat - 0x57)
  else none

/-- The value of four hexadecimal digits. -/
def hex4 (a b c d : Char) : Option ℕ := do
  let a ← hexDigit a
  let b ← hexDigit b
  let c ← hexDigit c
  let d ← hexDigit d
  return ((a * 16 + b) * 16 + c) * 16 + d

/-- The code units of the first and of the second half of a pair. -/
def isHigh (n : ℕ) : Bool := 0xD800 ≤ n && n < 0xDC00

/-- See `isHigh`. -/
def isLow (n : ℕ) : Bool := 0xDC00 ≤ n && n < 0xE000

/-- The code point of a pair. -/
@[irreducible]
def pairValue (n n' : ℕ) : ℕ := 0x10000 + (n - 0xD800) * 0x400 + (n' - 0xDC00)

/-- `StringChar u w`: inside a string, `u` spells one character, whose bytes are `w`. -/
inductive StringChar : List Char → List Char → Prop
  /-- An ASCII character that is not a control character. -/
  | ascii {c : Char} : 0x20 ≤ c.toNat → c.toNat < 0x80 → c ≠ '"' → c ≠ '\\' → StringChar [c] [c]
  /-- A character of several bytes. -/
  | multi {u : List Char} : MultiByte u → StringChar u u
  /-- An escape of one letter. -/
  | escape {e d : Char} : simpleEscape e = some d → StringChar ['\\', e] [d]
  /-- An escape with the number of the character. -/
  | unicode {a b c d : Char} {n : ℕ} : hex4 a b c d = some n → isHigh n = false → isLow n = false →
      StringChar ['\\', 'u', a, b, c, d] (utf8 n)
  /-- An escape with the two halves of the number of the character. -/
  | pair {a b c d a' b' c' d' : Char} {n n' : ℕ} : hex4 a b c d = some n → isHigh n = true →
      hex4 a' b' c' d' = some n' → isLow n' = true →
      StringChar ['\\', 'u', a, b, c, d, '\\', 'u', a', b', c', d'] (utf8 (pairValue n n'))

/-- `StringBody r v`: between quotes, `r` spells the string `v`. -/
inductive StringBody : List Char → List Char → Prop
  /-- The empty string. -/
  | nil : StringBody [] []
  /-- A character and the rest of the string. -/
  | cons {u w r v : List Char} : StringChar u w → StringBody r v → StringBody (u ++ r) (w ++ v)

/-- The second half of a pair, after the first one. -/
def scanLow (n : ℕ) : List Char → Option (List Char × List Char)
  | '\\' :: 'u' :: a :: b :: c :: d :: s =>
      match hex4 a b c d with
      | some n' => if isLow n' then some (utf8 (pairValue n n'), s) else none
      | none => none
  | _ => none

/-- The character whose number follows, in four digits or in two halves, and the rest. -/
def scanUnicode : List Char → Option (List Char × List Char)
  | a :: b :: c :: d :: s =>
      match hex4 a b c d with
      | some n =>
        if isHigh n then scanLow n s
        else if isLow n then none
        else some (utf8 n, s)
      | none => none
  | _ => none

/-- The character of an escape, after its backslash, and the rest. -/
def scanEscape : List Char → Option (List Char × List Char)
  | [] => none
  | e :: s =>
      match simpleEscape e with
      | some d => some ([d], s)
      | none => if e = 'u' then scanUnicode s else none

/-- The character that starts the text inside a string, and the rest. -/
def scanChar : List Char → Option (List Char × List Char)
  | [] => none
  | c :: s =>
      if c = '\\' then scanEscape s
      else if c = '"' then none
      else if 0x80 ≤ c.toNat then splitMultiByte (c :: s)
      else if 0x20 ≤ c.toNat then some ([c], s)
      else none

/-- The string that starts the text, after its opening quote, and what follows its closing
quote. -/
def scanString : ℕ → List Char → Option (List Char × List Char)
  | n, s =>
      if s.head? = some '"' then some ([], s.tail)
      else
        match n with
        | 0 => none
        | n + 1 =>
          match scanChar s with
          | none => none
          | some (w, s) => (scanString n s).map fun p => (w ++ p.1, p.2)

lemma StringChar.ne_nil {u w : List Char} (h : StringChar u w) : u ≠ [] := by
  cases h with
  | multi hu => exact hu.ne_nil
  | _ => simp

/-- A character in a string does not start with a quote. -/
lemma StringChar.head? {u w : List Char} (h : StringChar u w) : u.head? ≠ some '"' := by
  cases h with
  | multi hu =>
    intro hq
    have hmem := List.mem_of_mem_head? (Option.mem_def.mpr hq)
    exact absurd (hu.high _ hmem) (by decide)
  | ascii _ _ hc _ => simpa using hc
  | _ => simp

lemma scanLow_eq_some_iff {n : ℕ} {s w r : List Char} :
    scanLow n s = some (w, r) ↔ ∃ a b c d n', hex4 a b c d = some n' ∧ isLow n' = true ∧
      w = utf8 (pairValue n n') ∧ s = ['\\', 'u', a, b, c, d] ++ r := by
  constructor
  · intro h
    unfold scanLow at h
    split at h
    · split at h
      · rename_i hhex
        split at h
        · rename_i hlow
          cases h
          exact ⟨_, _, _, _, _, hhex, hlow, rfl, rfl⟩
        · cases h
      · cases h
    · cases h
  · rintro ⟨a, b, c, d, n', hhex, hlow, rfl, rfl⟩
    simp [scanLow, hhex, hlow]

lemma scanUnicode_eq_some_iff {s w r : List Char} :
    scanUnicode s = some (w, r) ↔ ∃ u, StringChar ('\\' :: 'u' :: u) w ∧ s = u ++ r := by
  constructor
  · intro h
    unfold scanUnicode at h
    split at h
    · split at h
      · rename_i n hhex
        split at h
        · rename_i hhigh
          obtain ⟨a', b', c', d', n', hhex', hlow, rfl, rfl⟩ := scanLow_eq_some_iff.mp h
          exact ⟨_, StringChar.pair hhex hhigh hhex' hlow, rfl⟩
        · rename_i hhigh
          split at h
          · cases h
          · rename_i hlow
            cases h
            exact ⟨_, StringChar.unicode hhex (Bool.eq_false_iff.mpr hhigh)
              (Bool.eq_false_iff.mpr hlow), rfl⟩
      · cases h
    · cases h
  · rintro ⟨u, hu, rfl⟩
    cases hu with
    | multi hw => exact absurd (hw.high '\\' (by simp)) (by decide)
    | escape hd => cases hd
    | unicode hhex hhigh hlow => simp [scanUnicode, hhex, hhigh, hlow]
    | @pair a b c d a' b' c' d' n n' hhex hhigh hhex' hlow =>
      have hscan : scanLow n (['\\', 'u', a', b', c', d'] ++ r) =
          some (utf8 (pairValue n n'), r) :=
        scanLow_eq_some_iff.mpr ⟨_, _, _, _, _, hhex', hlow, rfl, rfl⟩
      simpa [scanUnicode, hhex, hhigh] using hscan

lemma scanEscape_eq_some_iff {s w r : List Char} :
    scanEscape s = some (w, r) ↔ ∃ u, StringChar ('\\' :: u) w ∧ s = u ++ r := by
  constructor
  · intro h
    unfold scanEscape at h
    split at h
    · cases h
    · rename_i e s
      split at h
      · rename_i d hd
        cases h
        exact ⟨_, StringChar.escape hd, rfl⟩
      · split at h
        · rename_i he
          subst he
          obtain ⟨u, hu, rfl⟩ := scanUnicode_eq_some_iff.mp h
          exact ⟨_, hu, rfl⟩
        · cases h
  · rintro ⟨u, hu, rfl⟩
    cases hu with
    | ascii _ _ _ hbackslash => exact absurd rfl hbackslash
    | multi hw => exact absurd (hw.high '\\' (by simp)) (by decide)
    | escape hd => simp [scanEscape, hd]
    | unicode hhex hhigh hlow =>
      exact scanUnicode_eq_some_iff.mpr ⟨_, StringChar.unicode hhex hhigh hlow, rfl⟩
    | pair hhex hhigh hhex' hlow =>
      exact scanUnicode_eq_some_iff.mpr ⟨_, StringChar.pair hhex hhigh hhex' hlow, rfl⟩

/-- One step of the loop over a string reads one character. -/
lemma scanChar_eq_some_iff {s w r : List Char} :
    scanChar s = some (w, r) ↔ ∃ u, StringChar u w ∧ s = u ++ r := by
  constructor
  · intro h
    unfold scanChar at h
    split at h
    · cases h
    · rename_i c s
      split at h
      · rename_i hc
        subst hc
        obtain ⟨u, hu, rfl⟩ := scanEscape_eq_some_iff.mp h
        exact ⟨_, hu, rfl⟩
      · rename_i hbackslash
        split at h
        · cases h
        · rename_i hquote
          split at h
          · obtain ⟨hu, hs⟩ := splitMultiByte_eq_some_iff.mp h
            exact ⟨w, StringChar.multi hu, hs⟩
          · rename_i hhigh
            split at h
            · rename_i hlow
              cases h
              exact ⟨_, StringChar.ascii hlow (not_le.mp hhigh) hquote hbackslash, rfl⟩
            · cases h
  · rintro ⟨u, hu, rfl⟩
    cases hu with
    | @ascii c hlow hhigh hquote hbackslash =>
      simp [scanChar, hbackslash, hquote, not_le.mpr hhigh, hlow]
    | multi hw =>
      obtain ⟨c, u, rfl⟩ := List.exists_cons_of_ne_nil hw.ne_nil
      have hc := hw.high c (by simp)
      have hbackslash : c ≠ '\\' := by
        rintro rfl
        exact absurd hc (by decide)
      have hquote : c ≠ '"' := by
        rintro rfl
        exact absurd hc (by decide)
      rw [List.cons_append, scanChar]
      simp only [if_neg hbackslash, if_neg hquote, if_pos hc]
      exact splitMultiByte_eq_some_iff.mpr ⟨hw, rfl⟩
    | escape hd => exact scanEscape_eq_some_iff.mpr ⟨_, StringChar.escape hd, rfl⟩
    | unicode hhex hhigh hlow =>
      exact scanEscape_eq_some_iff.mpr ⟨_, StringChar.unicode hhex hhigh hlow, rfl⟩
    | pair hhex hhigh hhex' hlow =>
      exact scanEscape_eq_some_iff.mpr ⟨_, StringChar.pair hhex hhigh hhex' hlow, rfl⟩

/-- A string ends at its closing quote. -/
lemma stringBody_quote_iff {s v rest : List Char} :
    (∃ raw, StringBody raw v ∧ '"' :: s = raw ++ '"' :: rest) ↔ v = [] ∧ s = rest := by
  constructor
  · rintro ⟨raw, hraw, heq⟩
    cases hraw with
    | nil => exact ⟨rfl, (List.cons.inj heq).2⟩
    | @cons u w r v hu _ =>
      -- a character of the string does not start with a quote
      obtain ⟨d, u', rfl⟩ := List.exists_cons_of_ne_nil hu.ne_nil
      simp only [List.cons_append, List.cons.injEq] at heq
      exact absurd (congrArg some heq.1.symm) hu.head?
  · rintro ⟨rfl, rfl⟩
    exact ⟨[], StringBody.nil, rfl⟩

/-- A text in front of a closing quote that starts with no character is no string. -/
lemma not_stringBody_of_scanChar {s v rest : List Char} (hq : s.head? ≠ some '"')
    (hc : scanChar s = none) : ¬ ∃ raw, StringBody raw v ∧ s = raw ++ '"' :: rest := by
  rintro ⟨raw, hraw, rfl⟩
  cases hraw with
  | nil => simp at hq
  | @cons u w r v hu _ =>
    have hscan := scanChar_eq_some_iff.mpr ⟨u, hu, List.append_assoc u r ('"' :: rest)⟩
    rw [hc] at hscan
    cases hscan

/-- The first character of a string, and the others. -/
lemma stringBody_iff_of_scanChar {s s' w v rest : List Char} (hq : s.head? ≠ some '"')
    (hc : scanChar s = some (w, s')) :
    (∃ raw, StringBody raw v ∧ s = raw ++ '"' :: rest) ↔
      ∃ v', v = w ++ v' ∧ ∃ raw, StringBody raw v' ∧ s' = raw ++ '"' :: rest := by
  constructor
  · rintro ⟨raw, hraw, heq⟩
    cases hraw with
    | nil =>
      rw [heq] at hq
      simp at hq
    | @cons u w' r v hu hr =>
      have hscan := scanChar_eq_some_iff.mpr ⟨u, hu, heq.trans (List.append_assoc _ _ _)⟩
      rw [hc, Option.some.injEq, Prod.mk.injEq] at hscan
      obtain ⟨rfl, rfl⟩ := hscan
      exact ⟨v, rfl, r, hr, rfl⟩
  · rintro ⟨v', rfl, raw, hraw, rfl⟩
    obtain ⟨u, hu, rfl⟩ := scanChar_eq_some_iff.mp hc
    exact ⟨u ++ raw, StringBody.cons hu hraw, (List.append_assoc _ _ _).symm⟩

/-- The loop over a string accepts exactly what stands before its closing quote. -/
theorem scanString_eq_some_iff {n : ℕ} {s v rest : List Char} (hn : s.length ≤ n) :
    scanString n s = some (v, rest) ↔ ∃ raw, StringBody raw v ∧ s = raw ++ '"' :: rest := by
  induction n generalizing s v with
  | zero =>
    obtain rfl : s = [] := List.length_eq_zero_iff.mp (Nat.le_zero.mp hn)
    simp [scanString]
  | succ n ih =>
    rw [scanString]
    by_cases hq : s.head? = some '"'
    · obtain ⟨s, rfl⟩ := List.head?_eq_some_iff.mp hq
      rw [if_pos hq, stringBody_quote_iff, List.tail_cons, Option.some.injEq, Prod.mk.injEq]
      exact and_congr_left' eq_comm
    · rw [if_neg hq]
      cases hc : scanChar s with
      | none => exact iff_of_false (by simp) (not_stringBody_of_scanChar hq hc)
      | some p =>
        obtain ⟨w, s'⟩ := p
        have hlen : s'.length ≤ n := by
          obtain ⟨u, hu, rfl⟩ := scanChar_eq_some_iff.mp hc
          have := List.length_pos_iff.mpr hu.ne_nil
          rw [List.length_append] at hn
          omega
        rw [stringBody_iff_of_scanChar hq hc]
        simp only [Option.map_eq_some_iff, Prod.mk.injEq, Prod.exists]
        constructor
        · rintro ⟨v', rest', hv, rfl, rfl⟩
          exact ⟨v', rfl, (ih hlen).mp hv⟩
        · rintro ⟨v', rfl, hv⟩
          exact ⟨v', rest, (ih hlen).mpr hv, rfl, rfl⟩

/-! ### Numbers -/

/-- The characters a number is spelled with. -/
def isNumberChar (c : Char) : Bool :=
  c.isDigit || c == '-' || c == '+' || c == '.' || c == 'e' || c == 'E'

/-- The digits of a fraction, when there is one, and the rest. -/
def fraction? : List Char → Option (List Char × List Char)
  | '.' :: s =>
      let digits := s.takeWhile Char.isDigit
      if digits = [] then none else some (digits, s.dropWhile Char.isDigit)
  | s => some ([], s)

/-- The value of the digits of an exponent, which end the text. -/
def exponentDigits? (s : List Char) : Option ℕ :=
  if s ≠ [] ∧ s.all Char.isDigit then some (Nat.ofDigitChars 10 s 0) else none

/-- The value of an exponent, when there is one. -/
def exponent? : List Char → Option ℤ
  | [] => some 0
  | c :: s =>
      if c = 'e' ∨ c = 'E' then
        match s with
        | '-' :: s => (exponentDigits? s).map fun n : ℕ => -(n : ℤ)
        | '+' :: s => (exponentDigits? s).map fun n : ℕ => (n : ℤ)
        | s => (exponentDigits? s).map fun n : ℕ => (n : ℤ)
      else none

/-- The value of a number without its sign: digits that do not start with a useless zero, a
fraction and an exponent. -/
def magnitude? (s : List Char) : Option ℚ :=
  let digits := s.takeWhile Char.isDigit
  if digits = [] ∨ (digits.head? = some '0' ∧ digits.length ≠ 1) then none
  else do
    let (decimals, s) ← fraction? (s.dropWhile Char.isDigit)
    let exponent ← exponent? s
    return (Nat.ofDigitChars 10 (digits ++ decimals) 0 : ℚ) * 10 ^ (exponent - decimals.length)

/-- The value of a number. -/
def numberValue? : List Char → Option ℚ
  | '-' :: s => (magnitude? s).map fun q => -q
  | s => magnitude? s

lemma isNumberChar_of_isDigit {c : Char} (h : c.isDigit = true) : isNumberChar c = true := by
  simp [isNumberChar, h]

/-- Digits, and then characters of numbers. -/
lemma isNumberChar_of_dropWhile {s : List Char}
    (h : ∀ c ∈ s.dropWhile Char.isDigit, isNumberChar c = true) :
    ∀ c ∈ s, isNumberChar c = true := by
  intro c hc
  rw [← List.takeWhile_append_dropWhile (p := Char.isDigit) (l := s)] at hc
  rcases List.mem_append.mp hc with hc | hc
  · exact isNumberChar_of_isDigit (List.mem_takeWhile_imp hc)
  · exact h c hc

lemma exponentDigits?_chars {s : List Char} {n : ℕ} (h : exponentDigits? s = some n) :
    ∀ c ∈ s, isNumberChar c = true := by
  unfold exponentDigits? at h
  split at h
  · rename_i hs
    exact fun c hc => isNumberChar_of_isDigit (List.all_eq_true.mp hs.2 c hc)
  · cases h

lemma exponent?_chars {s : List Char} {e : ℤ} (h : exponent? s = some e) :
    ∀ c ∈ s, isNumberChar c = true := by
  unfold exponent? at h
  split at h
  · simp
  · rename_i c s
    split at h
    · rename_i hc
      have hhead : isNumberChar c = true := by
        rcases hc with rfl | rfl <;> rfl
      intro d hd
      rcases List.mem_cons.mp hd with rfl | hd
      · exact hhead
      · split at h
        · obtain ⟨n, hn, -⟩ := Option.map_eq_some_iff.mp h
          rcases List.mem_cons.mp hd with rfl | hd
          · rfl
          · exact exponentDigits?_chars hn d hd
        · obtain ⟨n, hn, -⟩ := Option.map_eq_some_iff.mp h
          rcases List.mem_cons.mp hd with rfl | hd
          · rfl
          · exact exponentDigits?_chars hn d hd
        · obtain ⟨n, hn, -⟩ := Option.map_eq_some_iff.mp h
          exact exponentDigits?_chars hn d hd
    · cases h

lemma fraction?_chars {s d r : List Char} (h : fraction? s = some (d, r))
    (hr : ∀ c ∈ r, isNumberChar c = true) : ∀ c ∈ s, isNumberChar c = true := by
  unfold fraction? at h
  split at h
  · rename_i s
    simp only at h
    split at h
    · cases h
    · cases h
      intro c hc
      rcases List.mem_cons.mp hc with rfl | hc
      · rfl
      · exact isNumberChar_of_dropWhile hr c hc
  · cases h
    exact hr

lemma magnitude?_chars {s : List Char} {q : ℚ} (h : magnitude? s = some q) :
    (∀ c ∈ s, isNumberChar c = true) ∧ ∃ c, s.head? = some c ∧ c.isDigit = true := by
  unfold magnitude? at h
  simp only at h
  split at h
  · cases h
  · rename_i hdigits
    simp only [Option.bind_eq_bind, Option.bind_eq_some_iff, Prod.exists] at h
    obtain ⟨d, r, hfrac, e, hexp, -⟩ := h
    constructor
    · exact isNumberChar_of_dropWhile (fraction?_chars hfrac (exponent?_chars hexp))
    · have hs := List.takeWhile_append_dropWhile (p := Char.isDigit) (l := s)
      rw [not_or] at hdigits
      obtain ⟨c, t, ht⟩ := List.exists_cons_of_ne_nil hdigits.1
      have hc : c.isDigit = true :=
        List.mem_takeWhile_imp (p := Char.isDigit) (l := s) (by simp [ht])
      exact ⟨c, by rw [← hs, ht]; rfl, hc⟩

/-- A number is spelled with the characters of numbers, and starts with a digit or a minus. -/
lemma numberValue?_chars {t : List Char} {q : ℚ} (h : numberValue? t = some q) :
    (∀ c ∈ t, isNumberChar c = true) ∧ ∃ c, t.head? = some c ∧ (c = '-' ∨ c.isDigit = true) := by
  unfold numberValue? at h
  split at h
  · obtain ⟨q', hq, -⟩ := Option.map_eq_some_iff.mp h
    refine ⟨fun c hc => ?_, '-', rfl, Or.inl rfl⟩
    rcases List.mem_cons.mp hc with rfl | hc
    · rfl
    · exact (magnitude?_chars hq).1 c hc
  · obtain ⟨hchars, c, hc, hdigit⟩ := magnitude?_chars h
    exact ⟨hchars, c, hc, Or.inr hdigit⟩

/-! ### Tokens -/

/-- The tokens of JSON, and the one for a text that is not JSON. -/
inductive Token (ν : Type*) where
  | openObject
  | closeObject
  | openArray
  | closeArray
  | colon
  | comma
  | string (v : List Char)
  | number (x : ν)
  | boolean (b : Bool)
  | null
  | invalid
deriving DecidableEq, Repr

/-- A blank between tokens. -/
def isSpace (c : Char) : Bool := c == ' ' || c == '\t' || c == '\n' || c == '\r'

variable {ν : Type*}

/-- The tokens that are one character. -/
def punctuation (c : Char) : Option (Token ν) :=
  if c = '\x7b' then some .openObject
  else if c = '\x7d' then some .closeObject
  else if c = '[' then some .openArray
  else if c = ']' then some .closeArray
  else if c = ':' then some .colon
  else if c = ',' then some .comma
  else none

/-- The tokens that are words. -/
def literals : List (List Char × Token ν) :=
  [(['t', 'r', 'u', 'e'], .boolean true), (['f', 'a', 'l', 's', 'e'], .boolean false),
    (['n', 'u', 'l', 'l'], .null)]

/-- `Lexeme num t u`: the token `t` is spelled `u`. -/
inductive Lexeme (num : ℚ → ν) : Token ν → List Char → Prop
  /-- A token of one character. -/
  | punctuation {c : Char} {t : Token ν} : punctuation c = some t → Lexeme num t [c]
  /-- A string between its quotes. -/
  | string {raw v : List Char} : StringBody raw v → Lexeme num (.string v) ('"' :: (raw ++ ['"']))
  /-- A number. -/
  | number {u : List Char} {q : ℚ} : numberValue? u = some q → Lexeme num (.number (num q)) u
  /-- One of the three words. -/
  | literal {u : List Char} {t : Token ν} : (u, t) ∈ literals → Lexeme num t u

/-- What can follow a token: a number is not cut short. -/
def Boundary (t : Token ν) (rest : List Char) : Prop :=
  match t with
  | .number _ => ∀ c, rest.head? = some c → isNumberChar c = false
  | _ => True

/-- `Lexes num s l`: the text `s` is the tokens `l`, with blanks between them. -/
inductive Lexes (num : ℚ → ν) : List Char → List (Token ν) → Prop
  /-- The end of the text. -/
  | nil : Lexes num [] []
  /-- A blank. -/
  | space {c : Char} {s : List Char} {l : List (Token ν)} :
      isSpace c = true → Lexes num s l → Lexes num (c :: s) l
  /-- A token. -/
  | token {t : Token ν} {u s : List Char} {l : List (Token ν)} :
      Lexeme num t u → Boundary t s → Lexes num s l → Lexes num (u ++ s) (t :: l)

/-- The token that starts the text, and the rest. -/
def scanToken (num : ℚ → ν) (s : List Char) : Option (Token ν × List Char) :=
  match s with
  | [] => none
  | c :: s =>
    match punctuation c with
    | some t => some (t, s)
    | none =>
      if c = '"' then (scanString s.length s).map fun p => (.string p.1, p.2)
      else if c = '-' ∨ c.isDigit = true then
        (numberValue? ((c :: s).takeWhile isNumberChar)).map fun q =>
          (.number (num q), (c :: s).dropWhile isNumberChar)
      else
        (literals.find? fun p => p.1.isPrefixOf (c :: s)).map fun p =>
          (p.2, (c :: s).drop p.1.length)

lemma punctuation_notNumber {c : Char} {t : Token ν} (h : punctuation c = some t) :
    c ∈ ['\x7b', '\x7d', '[', ']', ':', ','] := by
  unfold punctuation at h
  split_ifs at h with h₁ h₂ h₃ h₄ h₅ h₆ <;> simp [*]

lemma Lexeme.ne_nil {num : ℚ → ν} {t : Token ν} {u : List Char} (h : Lexeme num t u) : u ≠ [] := by
  cases h with
  | number hq =>
    rintro rfl
    obtain ⟨-, c, hc, -⟩ := numberValue?_chars hq
    cases hc
  | literal hmem =>
    simp only [literals, List.mem_cons, Prod.mk.injEq, List.not_mem_nil, or_false] at hmem
    rcases hmem with ⟨rfl, -⟩ | ⟨rfl, -⟩ | ⟨rfl, -⟩ <;> simp
  | _ => simp

/-- A token does not start with a blank. -/
lemma Lexeme.head {num : ℚ → ν} {t : Token ν} {u : List Char} (h : Lexeme num t u) {c : Char}
    (hc : u.head? = some c) : isSpace c = false := by
  cases h with
  | punctuation hp =>
    cases hc
    have hmem := punctuation_notNumber hp
    simp only [List.mem_cons, List.not_mem_nil, or_false] at hmem
    rcases hmem with rfl | rfl | rfl | rfl | rfl | rfl <;> rfl
  | string => cases hc; rfl
  | number hq =>
    obtain ⟨-, d, hd, hdigit⟩ := numberValue?_chars hq
    rw [hd, Option.some.injEq] at hc
    subst hc
    rcases hdigit with rfl | hdigit
    · rfl
    · rw [isSpace, Bool.eq_false_iff]
      simp only [ne_eq, Bool.or_eq_true, beq_iff_eq]
      rintro (((rfl | rfl) | rfl) | rfl) <;> exact absurd hdigit (by decide)
  | literal hmem =>
    simp only [literals, List.mem_cons, Prod.mk.injEq, List.not_mem_nil, or_false] at hmem
    rcases hmem with ⟨rfl, -⟩ | ⟨rfl, -⟩ | ⟨rfl, -⟩ <;> (cases hc; rfl)

/-- The head of a number starts no other token. -/
lemma head_number {c : Char} (h : c = '-' ∨ c.isDigit = true) :
    (punctuation c : Option (Token ν)) = none ∧ c ≠ '"' := by
  constructor
  · cases hp : (punctuation c : Option (Token ν)) with
    | none => rfl
    | some t =>
      have hmem := punctuation_notNumber hp
      simp only [List.mem_cons, List.not_mem_nil, or_false] at hmem
      rcases hmem with rfl | rfl | rfl | rfl | rfl | rfl <;> exact absurd h (by decide)
  · rintro rfl
    exact absurd h (by decide)

/-- Cutting a text at the end of a run of number characters. -/
lemma takeWhile_number {u rest : List Char} (hu : ∀ c ∈ u, isNumberChar c = true)
    (hrest : ∀ c, rest.head? = some c → isNumberChar c = false) :
    (u ++ rest).takeWhile isNumberChar = u ∧ (u ++ rest).dropWhile isNumberChar = rest := by
  rw [List.takeWhile_append_of_pos hu, List.dropWhile_append_of_pos hu]
  cases rest with
  | nil => simp
  | cons c rest => simp [hrest c rfl]

lemma isNumberChar_head_dropWhile (s : List Char) :
    ∀ c, (s.dropWhile isNumberChar).head? = some c → isNumberChar c = false := by
  intro c hc
  have hne : s.dropWhile isNumberChar ≠ [] := by
    intro hnil
    rw [hnil] at hc
    cases hc
  rw [List.head?_eq_some_head hne, Option.some.injEq] at hc
  rw [← hc]
  simpa using List.head_dropWhile_not isNumberChar hne

lemma boundary_of_punctuation {c : Char} {t : Token ν} (h : punctuation c = some t)
    (rest : List Char) : Boundary t rest := by
  unfold punctuation at h
  split_ifs at h <;> (cases h; exact trivial)

lemma boundary_of_literal {u : List Char} {t : Token ν} (h : (u, t) ∈ literals)
    (rest : List Char) : Boundary t rest := by
  simp only [literals, List.mem_cons, Prod.mk.injEq, List.not_mem_nil, or_false] at h
  rcases h with ⟨-, rfl⟩ | ⟨-, rfl⟩ | ⟨-, rfl⟩ <;> exact trivial

/-- What is read as a token is a lexeme of the token. -/
lemma lexeme_of_scanToken {num : ℚ → ν} {s rest : List Char} {t : Token ν}
    (h : scanToken num s = some (t, rest)) :
    ∃ u, Lexeme num t u ∧ Boundary t rest ∧ s = u ++ rest := by
  unfold scanToken at h
  split at h
  · cases h
  · rename_i c s
    split at h
    · rename_i t' hp
      cases h
      exact ⟨[c], Lexeme.punctuation hp, boundary_of_punctuation hp _, rfl⟩
    · split at h
      · rename_i hquote
        subst hquote
        obtain ⟨⟨v, r⟩, hv, heq⟩ := Option.map_eq_some_iff.mp h
        cases heq
        obtain ⟨raw, hraw, rfl⟩ := (scanString_eq_some_iff le_rfl).mp hv
        exact ⟨_, Lexeme.string hraw, trivial, by simp⟩
      · split at h
        · obtain ⟨q, hq, heq⟩ := Option.map_eq_some_iff.mp h
          cases heq
          exact ⟨_, Lexeme.number hq, isNumberChar_head_dropWhile _,
            List.takeWhile_append_dropWhile.symm⟩
        · obtain ⟨⟨u, t'⟩, hfind, heq⟩ := Option.map_eq_some_iff.mp h
          cases heq
          have hmem := List.mem_of_find?_eq_some hfind
          have hpre := List.find?_some hfind
          simp only [List.isPrefixOf_iff_prefix] at hpre
          obtain ⟨r, hr⟩ := hpre
          exact ⟨u, Lexeme.literal hmem, boundary_of_literal hmem _, by simp [← hr]⟩

/-- A lexeme is read as its token, when the text may go on behind it. -/
lemma Lexeme.scanToken {num : ℚ → ν} {t : Token ν} {u rest : List Char} (hu : Lexeme num t u)
    (hb : Boundary t rest) : Json.scanToken num (u ++ rest) = some (t, rest) := by
  cases hu with
  | punctuation hp => simp [Json.scanToken, hp]
  | @string raw v hraw =>
    have hscan : scanString (raw ++ ['"'] ++ rest).length (raw ++ ['"'] ++ rest) =
        some (v, rest) := (scanString_eq_some_iff le_rfl).mpr ⟨raw, hraw, by simp⟩
    have hpunct : (Json.punctuation '"' : Option (Token ν)) = none := rfl
    rw [List.cons_append, Json.scanToken]
    simp only [hscan, hpunct, if_true, Option.map_some]
  | number hq =>
    obtain ⟨hchars, c, hc, hhead⟩ := numberValue?_chars hq
    obtain ⟨hpunct, hquote⟩ := head_number (ν := ν) hhead
    obtain ⟨htake, hdrop⟩ := takeWhile_number hchars hb
    cases u with
    | nil => cases hc
    | cons d u =>
      cases hc
      rw [List.cons_append] at htake hdrop ⊢
      rw [Json.scanToken]
      simp only [hpunct, if_neg hquote, if_pos hhead, htake, hdrop, hq, Option.map_some]
  | literal hmem =>
    simp only [literals, List.mem_cons, Prod.mk.injEq, List.not_mem_nil, or_false] at hmem
    rcases hmem with ⟨rfl, rfl⟩ | ⟨rfl, rfl⟩ | ⟨rfl, rfl⟩ <;> rfl

/-- Reading one token. -/
theorem scanToken_eq_some_iff {num : ℚ → ν} {s rest : List Char} {t : Token ν} :
    scanToken num s = some (t, rest) ↔
      ∃ u, Lexeme num t u ∧ Boundary t rest ∧ s = u ++ rest := by
  constructor
  · exact lexeme_of_scanToken
  · rintro ⟨u, hu, hb, rfl⟩
    exact hu.scanToken hb

/-- Reading a run of number characters: a number or nothing. -/
lemma scanToken_number {num : ℚ → ν} {u rest : List Char} (hne : u ≠ [])
    (hu : ∀ c ∈ u, isNumberChar c = true)
    (hrest : ∀ c, rest.head? = some c → isNumberChar c = false) :
    scanToken num (u ++ rest) = (numberValue? u).map fun q => (.number (num q), rest) := by
  obtain ⟨htake, hdrop⟩ := takeWhile_number hu hrest
  obtain ⟨c, u, rfl⟩ := List.exists_cons_of_ne_nil hne
  rw [List.cons_append] at htake hdrop ⊢
  by_cases hhead : c = '-' ∨ c.isDigit = true
  · obtain ⟨hpunct, hquote⟩ := head_number (ν := ν) hhead
    rw [scanToken]
    simp only [hpunct, if_neg hquote, if_pos hhead, htake, hdrop]
  · -- a sign, a point or an exponent comes first
    have hnone : numberValue? (c :: u) = none := by
      cases hq : numberValue? (c :: u) with
      | none => rfl
      | some q =>
        obtain ⟨-, d, hd, hd'⟩ := numberValue?_chars hq
        cases hd
        exact absurd hd' hhead
    have hc := hu c (by simp)
    simp only [isNumberChar, Bool.or_eq_true, beq_iff_eq] at hc
    rw [not_or] at hhead
    rw [hnone, Option.map_none]
    rcases hc with ((((hc | rfl) | rfl) | rfl) | rfl) | rfl
    · exact absurd hc hhead.2
    · exact absurd rfl hhead.1
    all_goals rfl

/-- A letter that starts no token. -/
lemma scanToken_letter {num : ℚ → ν} {c : Char} {s : List Char}
    (h : c ∈ ['a', 'b', 'c', 'd', 'e']) : scanToken num (c :: s) = none := by
  simp only [List.mem_cons, List.not_mem_nil, or_false] at h
  rcases h with rfl | rfl | rfl | rfl | rfl <;> rfl

/-- The tokens of a text, for as many steps as there are characters. -/
def lexFrom (num : ℚ → ν) : ℕ → List Char → Option (List (Token ν))
  | _, [] => some []
  | 0, _ :: _ => none
  | n + 1, c :: s =>
      if isSpace c then lexFrom num n s
      else
        match scanToken num (c :: s) with
        | none => none
        | some (t, s) => (lexFrom num n s).map fun l => t :: l

/-- The tokens of a text. -/
def lex (num : ℚ → ν) (s : List Char) : Option (List (Token ν)) := lexFrom num s.length s

variable {num : ℚ → ν}

lemma lexes_nil_iff {l : List (Token ν)} : Lexes num [] l ↔ l = [] := by
  constructor
  · intro h
    generalize hm : ([] : List Char) = m at h
    cases h with
    | nil => rfl
    | space => cases hm
    | token hu => exact absurd (List.append_eq_nil_iff.mp hm.symm).1 hu.ne_nil
  · rintro rfl
    exact Lexes.nil

lemma lexes_space_iff {c : Char} {s : List Char} {l : List (Token ν)} (hc : isSpace c = true) :
    Lexes num (c :: s) l ↔ Lexes num s l := by
  constructor
  · intro h
    generalize hm : c :: s = m at h
    cases h with
    | nil => cases hm
    | space _ h => cases hm; exact h
    | @token t u s' l hu _ _ =>
      exfalso
      obtain ⟨d, u', rfl⟩ := List.exists_cons_of_ne_nil hu.ne_nil
      obtain ⟨rfl, -⟩ := List.cons.inj hm
      rw [hu.head rfl] at hc
      cases hc
  · exact Lexes.space hc

lemma lexes_token_iff {c : Char} {s : List Char} {l : List (Token ν)} (hc : isSpace c = false) :
    Lexes num (c :: s) l ↔
      ∃ t r l', scanToken num (c :: s) = some (t, r) ∧ l = t :: l' ∧ Lexes num r l' := by
  constructor
  · intro h
    generalize hm : c :: s = m at h
    cases h with
    | nil => cases hm
    | space hd _ =>
      cases hm
      rw [hd] at hc
      cases hc
    | token hu hb h => exact ⟨_, _, _, scanToken_eq_some_iff.mpr ⟨_, hu, hb, rfl⟩, rfl, h⟩
  · rintro ⟨t, r, l', hscan, rfl, h⟩
    obtain ⟨u, hu, hb, hs⟩ := scanToken_eq_some_iff.mp hscan
    rw [hs]
    exact Lexes.token hu hb h

/-- The tokens that follow a token that was read. -/
lemma lexes_of_scanToken {s r : List Char} {t : Token ν} {l : List (Token ν)}
    (h : scanToken num s = some (t, r)) :
    Lexes num s l ↔ ∃ l', l = t :: l' ∧ Lexes num r l' := by
  obtain ⟨u, hu, hb, rfl⟩ := scanToken_eq_some_iff.mp h
  obtain ⟨c, u', rfl⟩ := List.exists_cons_of_ne_nil hu.ne_nil
  rw [List.cons_append] at h ⊢
  rw [lexes_token_iff (hu.head rfl), h]
  simp

/-- Reading a token shortens the text. -/
lemma length_of_scanToken {s r : List Char} {t : Token ν} (h : scanToken num s = some (t, r)) :
    r.length < s.length := by
  obtain ⟨u, hu, -, rfl⟩ := scanToken_eq_some_iff.mp h
  have := List.length_pos_iff.mpr hu.ne_nil
  rw [List.length_append]
  omega

/-- As many steps as there are characters are enough. -/
lemma lexes_iff_lexFrom {n : ℕ} {s : List Char} (hn : s.length ≤ n) (l : List (Token ν)) :
    Lexes num s l ↔ lexFrom num n s = some l := by
  induction n generalizing s l with
  | zero =>
    obtain rfl : s = [] := List.length_eq_zero_iff.mp (Nat.le_zero.mp hn)
    rw [lexFrom, Option.some.injEq, lexes_nil_iff, eq_comm]
  | succ n ih =>
    cases s with
    | nil => rw [lexFrom, Option.some.injEq, lexes_nil_iff, eq_comm]
    | cons c s =>
      have hs : s.length ≤ n := by simpa using hn
      rw [lexFrom]
      by_cases hc : isSpace c = true
      · rw [if_pos hc, lexes_space_iff hc, ih hs]
      · rw [if_neg hc, lexes_token_iff (Bool.not_eq_true _ ▸ hc)]
        cases hscan : scanToken num (c :: s) with
        | none => simp
        | some p =>
          obtain ⟨t, r⟩ := p
          have hlt := length_of_scanToken hscan
          have hr : r.length ≤ n := by
            rw [List.length_cons] at hlt
            omega
          simp only [Option.some.injEq, Prod.mk.injEq, Option.map_eq_some_iff]
          constructor
          · rintro ⟨t', r', l', ⟨rfl, rfl⟩, rfl, h⟩
            exact ⟨l', (ih hr l').mp h, rfl⟩
          · rintro ⟨l', h, rfl⟩
            exact ⟨t, r, l', ⟨rfl, rfl⟩, rfl, (ih hr l').mpr h⟩

/-- **`lex` computes the tokens of a text.** -/
theorem lexes_iff {s : List Char} {l : List (Token ν)} : Lexes num s l ↔ lex num s = some l :=
  lexes_iff_lexFrom le_rfl l

/-- The tokens of a text are all valid. -/
lemma Lexes.invalid_notMem {s : List Char} {l : List (Token ν)} (h : Lexes num s l) :
    Token.invalid ∉ l := by
  induction h with
  | nil => simp
  | space _ _ ih => exact ih
  | token hu _ _ ih =>
    rw [List.mem_cons, not_or]
    refine ⟨?_, ih⟩
    rintro rfl
    cases hu with
    | punctuation hp =>
      unfold punctuation at hp
      split_ifs at hp <;> cases hp
    | literal hmem => simp [literals] at hmem

end Lib.Json
