import EventDispatcher.Reporter.Lexeme

/-!
# Numbers and operators

The branch of the numbers reads signs as well as digits before it looks at what it read: of two
integers with `+` or `-` between them and no blanks it makes one text, while the other operators
end the first number.  The hexadecimal branch shifts each digit in a number of 64 bits, with no
bound: the value is right exactly when it is below 2^63 (`literal_iff`).
-/

namespace EventDispatcher.Reporter

open Lib

/-- The operators between two numbers. -/
inductive NumberOperator where
  | plus
  | minus
  | multiply
  | divide
  | modulo
deriving DecidableEq, Repr

namespace NumberOperator

/-- The character of the operator. -/
def char : NumberOperator → Char
  | plus => '+'
  | minus => '-'
  | multiply => '*'
  | divide => '/'
  | modulo => '%'

/-- The token of the operator. -/
def token : NumberOperator → TokenType
  | plus => .plus
  | minus => .minus
  | multiply => .multiply
  | divide => .divide
  | modulo => .modulo

end NumberOperator

/-- An unsigned decimal integer that fits in 64 bits. -/
structure DecimalLiteral where
  /-- The digits. -/
  digits : Str
  /-- There is a digit. -/
  ne_nil : digits ≠ []
  /-- They are decimal digits. -/
  isDigit : ∀ c ∈ digits, isDigit c = true
  /-- The value is one of a signed number of 64 bits. -/
  fits : Nat.ofDigitChars 10 digits 0 < 2 ^ 63

/-- The value of the digits. -/
def DecimalLiteral.value (a : DecimalLiteral) : ℕ := Nat.ofDigitChars 10 a.digits 0

/-- The digits of a hexadecimal number. -/
structure HexadecimalLiteral where
  /-- The digits. -/
  digits : Str
  /-- There is a digit. -/
  ne_nil : digits ≠ []
  /-- They are hexadecimal digits. -/
  isHexdigit : ∀ c ∈ digits, isHexdigit c = true

/-- The value of hexadecimal digits. -/
def hexValue (s : Str) : ℕ := s.foldl (fun n c => 16 * n + (hexdigitToNumber c).toNat) 0

/-- The library reads the decimal integers of 64 bits. -/
def Library.ReadsDecimals (L : Library) : Prop :=
  ∀ a : DecimalLiteral, L.convertInteger a.digits = some (Int64.ofNat a.value)

/-- The token of an integer. -/
def literalToken (n : ℕ) : Value := { token := .integer, integer := BitVec.ofNat 128 n }

/-- The text `a o b` is read as three tokens, with and without blanks. -/
structure NeedsNoBlanks (L : Library) (filename : Str) (a : DecimalLiteral) (o : NumberOperator)
    (b : DecimalLiteral) : Prop where
  tight : results L 4 (.ofProgram filename (a.digits ++ o.char :: b.digits))
    = [.ok (literalToken a.value), .ok { token := o.token }, .ok (literalToken b.value),
      .ok { token := .eof }]
  spaced : results L 4 (.ofProgram filename (a.digits ++ ' ' :: o.char :: ' ' :: b.digits))
    = [.ok (literalToken a.value), .ok { token := o.token }, .ok (literalToken b.value),
      .ok { token := .eof }]

/-- A hexadecimal number is its value when it fits in 64 bits, and an error otherwise. -/
structure ReadsHexadecimal (L : Library) (filename : Str) (s : HexadecimalLiteral) : Prop where
  value : hexValue s.digits < 2 ^ 63 →
    results L 2 (.ofProgram filename ('0' :: 'x' :: s.digits))
      = [.ok (literalToken (hexValue s.digits)), .ok { token := .eof }]
  error : 2 ^ 63 ≤ hexValue s.digits →
    (∃ e, results L 1 (.ofProgram filename ('0' :: 'x' :: s.digits)) = [.error e]) ∨
      ∃ v, v.token = .error ∧ results L 1 (.ofProgram filename ('0' :: 'x' :: s.digits)) = [.ok v]

/-! ## The characters -/

lemma isDigit_iff {c : Char} : isDigit c = true ↔ '0' ≤ c ∧ c ≤ '9' := by
  rw [isDigit, Bool.and_eq_true, decide_eq_true_eq, decide_eq_true_eq]

lemma ne_of_isDigit {c d : Char} (hc : isDigit c = true) (hd : isDigit d = false) : c ≠ d := by
  rintro rfl
  rw [hc] at hd
  cases hd

lemma isNumberChar_of_isDigit {c : Char} (hc : isDigit c = true) : isNumberChar c = true := by
  simp [isNumberChar, hc]

lemma isFloatChar_of_isDigit {c : Char} (hc : isDigit c = true) : isFloatChar c = false := by
  have hdot := ne_of_isDigit hc (d := '.') (by decide)
  have hlower := ne_of_isDigit hc (d := 'e') (by decide)
  have hupper := ne_of_isDigit hc (d := 'E') (by decide)
  simp [isFloatChar, hdot, hlower, hupper]

lemma isBlank_of_isDigit {c : Char} (hc : isDigit c = true) : isBlank c = false := by
  have h₁ := ne_of_isDigit hc (d := '\n') (by decide)
  have h₂ := ne_of_isDigit hc (d := ' ') (by decide)
  have h₃ := ne_of_isDigit hc (d := '\t') (by decide)
  have h₄ := ne_of_isDigit hc (d := '\x0c') (by decide)
  simp [isBlank, h₁, h₂, h₃, h₄]

/-- A digit that starts a text starts a number. -/
lemma scan_of_isDigit (L : Library) {c : Char} (hc : isDigit c = true) (r : Str) :
    scan L (c :: r) = scanNumber L c r := by
  rw [scan_cons L (isBlank_of_isDigit hc) fun h => absurd h (ne_of_isDigit hc (by decide)),
    scanToken, if_neg (ne_of_isDigit hc (by decide)), if_neg (ne_of_isDigit hc (by decide)),
    if_neg (ne_of_isDigit hc (by decide)), if_neg (ne_of_isDigit hc (by decide)),
    if_pos (by simp [hc])]

/-! ## Decimal numbers -/

section Decimal

variable {L : Library} {filename : Str}

/-- A number of 64 bits that is not negative, as the integer of a token. -/
lemma signExtend_ofNat {n : ℕ} (hn : n < 2 ^ 63) :
    (Int64.ofNat n).toBitVec.signExtend 128 = BitVec.ofNat 128 n := by
  apply BitVec.eq_of_toInt_eq
  have h64 : (Int64.ofNat n).toBitVec.toInt = n := Int64.toInt_ofNat_of_lt hn
  rw [BitVec.toInt_signExtend_of_le (by decide), h64, BitVec.toInt_ofNat', Int.bmod_def]
  split_ifs <;> omega

/-- The number branch reads the digits, and what follows them as far as it goes on a number. -/
lemma scan_digits (a : DecimalLiteral) {r : Str} (hr : r.head? ≠ some 'x' ∧ r.head? ≠ some 'X') :
    scan L (a.digits ++ r) = .ok (scanDecimal L (a.digits ++ r.takeWhile isNumberChar)
      (r.dropWhile isNumberChar)) := by
  obtain ⟨digits, hne, hdigit, -⟩ := a
  cases digits with
  | nil => exact absurd rfl hne
  | cons c s =>
    obtain ⟨hc, hs⟩ := List.forall_mem_cons.mp hdigit
    have hnumber : ∀ d ∈ s, isNumberChar d = true := fun d hd => isNumberChar_of_isDigit (hs d hd)
    have hhead : (s ++ r).head? ≠ some 'x' ∧ (s ++ r).head? ≠ some 'X' := by
      cases s with
      | nil => exact hr
      | cons d s =>
        have hd := hs d List.mem_cons_self
        exact ⟨fun h => ne_of_isDigit hd (by decide) (Option.some.inj h),
          fun h => ne_of_isDigit hd (by decide) (Option.some.inj h)⟩
    have hdecimal : ¬ ((c = '0' && ((s ++ r).head? = some 'x' || (s ++ r).head? = some 'X'))
        = true) := by
      rw [Bool.and_eq_true, Bool.or_eq_true, decide_eq_true_eq, decide_eq_true_eq,
        decide_eq_true_eq]
      exact fun h => h.2.elim hhead.1 hhead.2
    change scan L (c :: (s ++ r)) = _
    rw [scan_of_isDigit L hc, scanNumber, if_neg hdecimal,
      List.takeWhile_append_of_pos hnumber, List.dropWhile_append_of_pos hnumber]
    rfl

/-- A number that ends where its digits end. -/
lemma scan_literal (hL : L.ReadsDecimals) (a : DecimalLiteral) {r : Str}
    (hr : ∀ c ∈ r.head?, isNumberChar c = false ∧ c ≠ 'x' ∧ c ≠ 'X') :
    scan L (a.digits ++ r) = .ok (literalToken a.value, r) := by
  have hx : r.head? ≠ some 'x' ∧ r.head? ≠ some 'X' :=
    ⟨fun h => (hr _ h).2.1 rfl, fun h => (hr _ h).2.2 rfl⟩
  have hend : r.takeWhile isNumberChar = [] ∧ r.dropWhile isNumberChar = r := by
    cases r with
    | nil => exact ⟨rfl, rfl⟩
    | cons c r => simp [(hr c rfl).1]
  have hfloat : ¬ (a.digits.any isFloatChar = true) := by
    rw [List.any_eq_true]
    rintro ⟨c, hc, hfloat⟩
    rw [isFloatChar_of_isDigit (a.isDigit c hc)] at hfloat
    cases hfloat
  rw [scan_digits a hx, hend.1, hend.2, List.append_nil, scanDecimal, if_neg hfloat, hL a]
  have hfits : a.value < 2 ^ 63 := a.fits
  simp only [signExtend_ofNat hfits, literalToken]

/-- The operators that end a number. -/
def NumberOperator.EndsNumber (o : NumberOperator) : Prop := o ≠ .plus ∧ o ≠ .minus

instance (o : NumberOperator) : Decidable o.EndsNumber :=
  inferInstanceAs (Decidable (_ ∧ _))

lemma NumberOperator.endsNumber_iff (o : NumberOperator) :
    o.EndsNumber ↔ isNumberChar o.char = false := by
  cases o <;> decide

/-- An operator in front of a digit or a blank. -/
lemma scan_operator (o : NumberOperator) {r : Str} (hr : r.head? ≠ some '/') :
    scan L (o.char :: r) = .ok ({ token := o.token }, r) := by
  cases o with
  | divide => rw [NumberOperator.char, scan_cons L (by decide) fun _ => hr]; rfl
  | _ => rw [NumberOperator.char, scan_cons L (by decide) fun h => absurd h (by decide)]; rfl

/-- The tokens of the text with the operator between the two numbers. -/
lemma scans_eq (hL : L.ReadsDecimals) {o : NumberOperator} (ho : o.EndsNumber)
    (a b : DecimalLiteral) :
    scans L 4 (a.digits ++ o.char :: b.digits)
      = [.ok (literalToken a.value), .ok { token := o.token }, .ok (literalToken b.value),
        .ok { token := .eof }] := by
  have ha : scan L (a.digits ++ o.char :: b.digits)
      = .ok (literalToken a.value, o.char :: b.digits) := by
    refine scan_literal hL a fun c hc => ?_
    obtain rfl : o.char = c := Option.some.inj hc
    exact ⟨o.endsNumber_iff.mp ho, by cases o <;> decide, by cases o <;> decide⟩
  have hb : scan L b.digits = .ok (literalToken b.value, []) := by
    simpa using scan_literal hL b (r := []) (by simp)
  have hslash : b.digits.head? ≠ some '/' := fun h =>
    ne_of_isDigit (b.isDigit _ (List.mem_of_head? h)) (by decide) rfl
  simp only [scans, ha, scan_operator o hslash, hb]
  rfl

/-- The tokens of the same text with blanks. -/
lemma scans_blanks (hL : L.ReadsDecimals) (a : DecimalLiteral) (o : NumberOperator)
    (b : DecimalLiteral) :
    scans L 4 (a.digits ++ ' ' :: o.char :: ' ' :: b.digits)
      = [.ok (literalToken a.value), .ok { token := o.token }, .ok (literalToken b.value),
        .ok { token := .eof }] := by
  have ha : scan L (a.digits ++ ' ' :: o.char :: ' ' :: b.digits)
      = .ok (literalToken a.value, ' ' :: o.char :: ' ' :: b.digits) := by
    refine scan_literal hL a fun c hc => ?_
    obtain rfl : ' ' = c := Option.some.inj hc
    decide
  have ho : scan L (o.char :: ' ' :: b.digits) = .ok ({ token := o.token }, ' ' :: b.digits) :=
    scan_operator o (by simp)
  have hb : scan L b.digits = .ok (literalToken b.value, []) := by
    simpa using scan_literal hL b (r := []) (by simp)
  have hblank (r : Str) : scan L (' ' :: r) = scan L r := scan_cons_of_isBlank L (by decide) r
  simp only [scans, ha, hblank, ho, hb]
  rfl

/-- A sign between two numbers is read with them: there is one token. -/
lemma scans_sign {o : NumberOperator} (ho : ¬ o.EndsNumber) (a b : DecimalLiteral) :
    ∃ v, scans L 4 (a.digits ++ o.char :: b.digits)
      = [.ok v, .ok { token := .eof }, .ok { token := .eof }, .ok { token := .eof }] := by
  have hall : ∀ c ∈ o.char :: b.digits, isNumberChar c = true := by
    rw [o.endsNumber_iff, Bool.not_eq_false] at ho
    exact List.forall_mem_cons.mpr ⟨ho, fun c hc => isNumberChar_of_isDigit (b.isDigit c hc)⟩
  have hr : (o.char :: b.digits).head? ≠ some 'x' ∧ (o.char :: b.digits).head? ≠ some 'X' := by
    rw [List.head?_cons]
    cases o <;> decide
  have hdrop : (o.char :: b.digits).dropWhile isNumberChar = [] :=
    List.dropWhile_eq_nil_iff.mpr hall
  have hrest (s : Str) : (scanDecimal L s []).2 = [] := by
    rw [scanDecimal]
    split
    · split <;> rfl
    · split <;> rfl
  refine ⟨(scanDecimal L (a.digits ++ (o.char :: b.digits).takeWhile isNumberChar) []).1, ?_⟩
  rw [scans, scan_digits a hr, hdrop]
  simp only [hrest]
  rfl

/-- There are no line ends in the text. -/
lemma results_ofProgram {text : Str} (htext : ∀ c ∈ text, c ≠ '\r') (k : ℕ) :
    results L k (.ofProgram filename text) = scans L k text := by
  have hline := lineEnds_append htext []
  rw [List.append_nil] at hline
  rw [results_eq_scans (at_ofProgram ..), hline, lineEnds, List.append_nil]

/-- **Two integers and an operator** need no blanks exactly when the operator is not a sign. -/
lemma needsNoBlanks_iff (hL : L.ReadsDecimals) (a : DecimalLiteral) (o : NumberOperator)
    (b : DecimalLiteral) : NeedsNoBlanks L filename a o b ↔ o.EndsNumber := by
  have hdigits (a : DecimalLiteral) : ∀ c ∈ a.digits, c ≠ '\r' :=
    fun c hc => ne_of_isDigit (a.isDigit c hc) (by decide)
  have ho : o.char ≠ '\r' := by cases o <;> decide
  have htight : ∀ c ∈ a.digits ++ o.char :: b.digits, c ≠ '\r' :=
    List.forall_mem_append.mpr ⟨hdigits a, List.forall_mem_cons.mpr ⟨ho, hdigits b⟩⟩
  have hspaced : ∀ c ∈ a.digits ++ ' ' :: o.char :: ' ' :: b.digits, c ≠ '\r' :=
    List.forall_mem_append.mpr ⟨hdigits a, List.forall_mem_cons.mpr ⟨by decide,
      List.forall_mem_cons.mpr ⟨ho, List.forall_mem_cons.mpr ⟨by decide, hdigits b⟩⟩⟩⟩
  constructor
  · intro h
    by_contra hsign
    obtain ⟨v, hv⟩ := scans_sign (L := L) hsign a b
    have h := h.tight
    rw [results_ofProgram htight, hv] at h
    cases o <;> cases h
  · intro h
    exact ⟨by rw [results_ofProgram htight, scans_eq hL h],
      by rw [results_ofProgram hspaced, scans_blanks hL]⟩

end Decimal

/-! ## Hexadecimal numbers -/

lemma hexdigitToNumber_lt {c : Char} (hc : isHexdigit c = true) :
    (hexdigitToNumber c).toNat < 16 := by
  have hchar (a b : Char) : a ≤ b ↔ a.toNat ≤ b.toNat := Iff.rfl
  simp only [isHexdigit, isDigit, Bool.or_eq_true, Bool.and_eq_true, decide_eq_true_eq, hchar]
    at hc
  have h0 : '0'.toNat = 48 := rfl
  have h9 : '9'.toNat = 57 := rfl
  have ha : 'a'.toNat = 97 := rfl
  have hf : 'f'.toNat = 102 := rfl
  have hA : 'A'.toNat = 65 := rfl
  have hF : 'F'.toNat = 70 := rfl
  rw [hexdigitToNumber]
  simp only [isDigit, Bool.and_eq_true, decide_eq_true_eq, hchar]
  split_ifs <;> rw [BitVec.toNat_ofNat] <;> omega

/-- A digit that is shifted in a number of 64 bits. -/
lemma shift_or_digit (n : ℕ) {d : BitVec 64} (hd : d.toNat < 16) :
    (BitVec.ofNat 64 n <<< 4) ||| d = BitVec.ofNat 64 (16 * n + d.toNat) := by
  apply BitVec.eq_of_toNat_eq
  have hshift : (n % 2 ^ 64) <<< 4 % 2 ^ 64 = (n % 2 ^ 60) <<< 4 := by
    rw [Nat.shiftLeft_eq, Nat.shiftLeft_eq]
    omega
  rw [BitVec.toNat_or, BitVec.toNat_shiftLeft, BitVec.toNat_ofNat, BitVec.toNat_ofNat, hshift,
    ← Nat.shiftLeft_add_eq_or_of_lt hd, Nat.shiftLeft_eq]
  omega

/-- The digits are shifted in 64 bits without a bound. -/
lemma hexadecimalValue_eq {s : Str} (hs : ∀ c ∈ s, isHexdigit c = true) :
    Lexer.hexadecimalValue s = BitVec.ofNat 64 (hexValue s) := by
  have hfold : ∀ (s : Str) (n : ℕ), (∀ c ∈ s, isHexdigit c = true) →
      s.foldl (fun (value : BitVec 64) c => (value <<< 4) ||| hexdigitToNumber c)
          (BitVec.ofNat 64 n)
        = BitVec.ofNat 64 (s.foldl (fun n c => 16 * n + (hexdigitToNumber c).toNat) n) := by
    intro s
    induction s with
    | nil => exact fun _ _ => rfl
    | cons c s ih =>
      intro n hs
      obtain ⟨hc, hs⟩ := List.forall_mem_cons.mp hs
      rw [List.foldl_cons, List.foldl_cons, shift_or_digit n (hexdigitToNumber_lt hc), ih _ hs]
  exact hfold s 0 hs

section Hexadecimal

variable {L : Library} {filename : Str}

/-- The token of a hexadecimal number. -/
def hexToken (s : Str) : Value :=
  { token := .integer, integer := (BitVec.ofNat 64 (hexValue s)).signExtend 128 }

lemma scan_hexadecimal (s : HexadecimalLiteral) :
    scan L ('0' :: 'x' :: s.digits) = .ok (hexToken s.digits, []) := by
  have htake : s.digits.takeWhile isHexdigit = s.digits :=
    List.takeWhile_eq_self_iff.mpr s.isHexdigit
  have hdrop : s.digits.dropWhile isHexdigit = [] := List.dropWhile_eq_nil_iff.mpr s.isHexdigit
  rw [scan_of_isDigit L (by decide), scanNumber, if_pos (by simp), List.tail_cons, htake, hdrop]
  simp only [s.ne_nil, if_false, hexadecimalValue_eq s.isHexdigit]
  rfl

lemma hexToken_eq {s : Str} (hs : hexValue s < 2 ^ 63) : hexToken s = literalToken (hexValue s) :=
  congrArg (fun n => ({ token := .integer, integer := n } : Value)) (signExtend_ofNat hs)

/-- **A hexadecimal number** is read as its value or as an error exactly when it fits in 64 bits:
there is no error. -/
lemma readsHexadecimal_iff (s : HexadecimalLiteral) :
    ReadsHexadecimal L filename s ↔ hexValue s.digits < 2 ^ 63 := by
  have htext : ∀ c ∈ '0' :: 'x' :: s.digits, c ≠ '\r' := by
    refine List.forall_mem_cons.mpr ⟨by decide, List.forall_mem_cons.mpr ⟨by decide, ?_⟩⟩
    rintro c hc rfl
    exact absurd (s.isHexdigit _ hc) (by decide)
  have hresults (k : ℕ) : results L (k + 1) (.ofProgram filename ('0' :: 'x' :: s.digits))
      = .ok (hexToken s.digits) :: scans L k [] := by
    rw [results_ofProgram htext, scans, scan_hexadecimal]
  constructor
  · intro h
    by_contra hlarge
    rcases h.error (not_lt.mp hlarge) with ⟨e, he⟩ | ⟨v, hv, he⟩
    · rw [hresults] at he
      cases he
    · rw [hresults] at he
      cases he
      cases hv
  · intro h
    refine ⟨fun _ => ?_, fun hlarge => absurd h (not_lt.mpr hlarge)⟩
    rw [hresults, hexToken_eq h]
    rfl

end Hexadecimal

/-- **Numbers and operators**: two integers with an operator between them need no blanks exactly
when the operator is no sign, and a hexadecimal number is right exactly when it fits in 64 bits. -/
theorem literal_iff (L : Library) (hL : L.ReadsDecimals) (filename : Str) (a b : DecimalLiteral)
    (o : NumberOperator) (s : HexadecimalLiteral) :
    (NeedsNoBlanks L filename a o b ↔ o ≠ .plus ∧ o ≠ .minus) ∧
      (ReadsHexadecimal L filename s ↔ hexValue s.digits < 2 ^ 63) :=
  ⟨needsNoBlanks_iff hL a o b, readsHexadecimal_iff s⟩

/-- The library of the examples reads the decimal integers. -/
lemma readsDecimals_integers : Library.integers.ReadsDecimals := by
  intro a
  have hdigit : a.digits.all Char.isDigit = true := by
    rw [List.all_eq_true]
    intro c hc
    obtain ⟨hmin, hmax⟩ := isDigit_iff.mp (a.isDigit c hc)
    rw [Char.isDigit, Bool.and_eq_true, decide_eq_true_eq, decide_eq_true_eq]
    exact ⟨hmin, hmax⟩
  have hstep (n : ℕ) (c : Char) : 10 * Int64.ofNat n + Int64.ofNat (c.toNat - 48)
      = Int64.ofNat (10 * n + (c.toNat - '0'.toNat)) := by
    rw [Int64.ofNat_add, Int64.ofNat_mul]
    rfl
  have hvalue : a.digits.foldl (fun n c => 10 * n + Int64.ofNat (c.toNat - 48)) (Int64.ofNat 0)
      = Int64.ofNat a.value := List.foldl_hom Int64.ofNat hstep
  change (if a.digits.all Char.isDigit = true then _ else _) = _
  rw [if_pos hdigit]
  exact congrArg some hvalue

/-- The number 1. -/
def oneLiteral : DecimalLiteral := ⟨['1'], by decide, by decide, by decide⟩

/-- The 64 bit number with the sign bit only. -/
def signBit : HexadecimalLiteral := ⟨"8000000000000000".toList, by decide, by decide⟩

/-- The hexadecimal number 1f. -/
def thirtyOne : HexadecimalLiteral := ⟨"1f".toList, by decide, by decide⟩

/-- `1+1` is one token, and 0x8000000000000000 is negative. -/
theorem not_literal_sign :
    ¬ NeedsNoBlanks .integers [] oneLiteral .plus oneLiteral ∧
      ¬ ReadsHexadecimal .integers [] signBit := by
  refine ⟨fun h => ?_, fun h => ?_⟩
  · have := (needsNoBlanks_iff readsDecimals_integers oneLiteral .plus oneLiteral).mp h
    exact absurd this (by decide)
  · have := (readsHexadecimal_iff signBit).mp h
    exact absurd this (by decide)

/-- `1*1` and 0x1f. -/
theorem literal_iff_multiply :
    (NeedsNoBlanks .integers [] oneLiteral .multiply oneLiteral ↔ NumberOperator.multiply ≠ .plus ∧
      NumberOperator.multiply ≠ .minus) ∧
      (ReadsHexadecimal .integers [] thirtyOne ↔ hexValue thirtyOne.digits < 2 ^ 63) :=
  literal_iff .integers readsDecimals_integers [] oneLiteral oneLiteral .multiply thirtyOne

end EventDispatcher.Reporter
