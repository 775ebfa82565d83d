import EventDispatcher.Reporter.Expression

/-!
# The evaluation of expressions

`compute` is the evaluation of an expression by `background_executor::compute()`.  The integers
are signed numbers of 128 bits; the code makes no check of its own, so what the language leaves
undefined (an overflow, a division by zero) is an outcome here.  On integers the result is the
exact one when the exact value of each part fits in 128 bits and no divisor is zero, and otherwise
the evaluation is undefined (`exactOrThrows_iff`).
-/

namespace EventDispatcher.Reporter

open Lib

/-- What the language does not define. -/
inductive Undefined where
  /-- The result of an operation on `__int128` does not fit. -/
  | overflow
  | divisionByZero
deriving DecidableEq, Repr

/-- Why an evaluation has no value. -/
inductive Stop where
  | thrown (e : Thrown)
  | undefined (u : Undefined)
deriving DecidableEq, Repr

/-- What an evaluation takes from its surroundings. -/
structure Surroundings where
  /-- `f_state->get_variable()`: the value of a variable as a token -/
  getVariable : Str → Except Thrown (Option Value)
  /-- `replace_variables()` -/
  replaceVariables : Str → Except Thrown Str
  /-- The branches of the operators when the operands are not two integers. -/
  others : Operator → Value → Value → Except Thrown Value
  /-- The branches of the negation when the operand is not an integer. -/
  otherNegation : Value → Except Thrown Value

/-- An `__int128` holds the number. -/
def InRange (n : ℤ) : Prop := -2 ^ 127 ≤ n ∧ n < 2 ^ 127

instance (n : ℤ) : Decidable (InRange n) := inferInstanceAs (Decidable (_ ∧ _))

/-- An integer token with the result of an operation on `__int128`. -/
def int128 (n : ℤ) : Except Stop Value :=
  if InRange n then .ok { token := .integer, integer := BitVec.ofInt 128 n }
  else .error (.undefined .overflow)

/-- The branches of the operators for two integers. -/
def integers (op : Operator) (l r : ℤ) : Except Stop Value :=
  match op with
  | .compare => int128 (if l < r then -1 else if r < l then 1 else 0)
  | .add => int128 (l + r)
  | .subtract => int128 (l - r)
  | .multiply => int128 (l * r)
  | .divide => if r = 0 then .error (.undefined .divisionByZero) else int128 (l.tdiv r)
  | .modulo =>
    if r = 0 then .error (.undefined .divisionByZero)
    -- the remainder is not defined when the quotient does not fit
    else if InRange (l.tdiv r) then int128 (l.tmod r)
    else .error (.undefined .overflow)

/-- A failure of another branch. -/
def lift {α : Type} : Except Thrown α → Except Stop α
  | .ok a => .ok a
  | .error e => .error (.thrown e)

namespace Expression

/-- The value of a primary expression. -/
def primaryValue (env : Surroundings) (t : Value) : Except Thrown Value :=
  match t.token with
  | .variable => do
    let value ← env.getVariable t.string
    return value.getD { token := .singleString }
  | .doubleString => do
    let text ← env.replaceVariables t.string
    return { token := .singleString, string := text }
  | _ => .ok t

/-- `OPERATOR_NEGATE` -/
def negation (env : Surroundings) (l : Value) : Except Stop Value :=
  if l.token = .integer then int128 (-l.integer.toInt) else lift (env.otherNegation l)

/-- The operators of two operands. -/
def operation (env : Surroundings) (op : Operator) (l r : Value) : Except Stop Value :=
  if l.token = .integer ∧ r.token = .integer then integers op l.integer.toInt r.integer.toInt
  else lift (env.others op l r)

/-- The value of an expression. -/
def compute (env : Surroundings) : Expression → Except Stop Value
  | primary t => lift (primaryValue env t.1.toValue)
  | unary .identity e => compute env e
  | unary .negate e => do
    let l ← compute env e
    negation env l
  | binary op a b => do
    let l ← compute env a
    let r ← compute env b
    operation env op l r

end Expression

/-! ## The exact result -/

/-- The exact result of an operation; the quotients are truncated. -/
def Operator.exact : Operator → ℤ → ℤ → ℤ
  | compare, m, n => if m < n then -1 else if n < m then 1 else 0
  | add, m, n => m + n
  | subtract, m, n => m - n
  | multiply, m, n => m * n
  | divide, m, n => m.tdiv n
  | modulo, m, n => m.tmod n

/-- The divisor is not zero, and the exact result fits; for a remainder the quotient fits. -/
def Operator.Fits : Operator → ℤ → ℤ → Prop
  | compare, _, _ => True
  | add, m, n => InRange (m + n)
  | subtract, m, n => InRange (m - n)
  | multiply, m, n => InRange (m * n)
  | divide, m, n | modulo, m, n => n ≠ 0 ∧ InRange (m.tdiv n)

/-- A 64 bit integer as a token. -/
def integerValue (n : Int64) : Value :=
  { token := .integer, integer := n.toBitVec.signExtend 128 }

namespace Expression

/-- The literals are integers of 64 bits, and the other primary expressions are variables. -/
def OnIntegers : Expression → Prop
  | primary t => (t.1.token = .integer ∧ ∃ n : Int64, t.1.integer.toInt = n.toInt) ∨
      t.1.token = .variable
  | unary _ e => OnIntegers e
  | binary _ a b => OnIntegers a ∧ OnIntegers b

/-- The exact value of an expression on integers. -/
def exact (binding : Str → Int64) : Expression → ℤ
  | primary t => if t.1.token = .variable then (binding t.1.string).toInt else t.1.integer.toInt
  | unary .identity e => exact binding e
  | unary .negate e => -exact binding e
  | binary op a b => op.exact (exact binding a) (exact binding b)

/-- No divisor is zero, and the exact value of each part fits in 128 bits. -/
def Fits (binding : Str → Int64) : Expression → Prop
  | primary _ => True
  | unary .identity e => Fits binding e
  | unary .negate e => Fits binding e ∧ InRange (-exact binding e)
  | binary op a b =>
    Fits binding a ∧ Fits binding b ∧ op.Fits (exact binding a) (exact binding b)

/-- The evaluation gives the exact result, or raises an error. -/
def ExactOrThrows (env : Surroundings) (binding : Str → Int64) (e : Expression) : Prop :=
  (∃ v, e.compute env = .ok v ∧ v.token = .integer ∧ v.integer.toInt = e.exact binding) ∨
    ∃ t, e.compute env = .error (.thrown t)

end Expression

/-- A computation gives the number when a condition holds, and is undefined otherwise. -/
def Computes (x : Except Stop Value) (fits : Prop) (n : ℤ) : Prop :=
  (fits ∧ ∃ v, x = .ok v ∧ v.token = .integer ∧ v.integer.toInt = n) ∨
    (¬ fits ∧ ∃ u, x = .error (.undefined u))

lemma computes_int128 (n : ℤ) : Computes (int128 n) (InRange n) n := by
  rw [int128]
  by_cases h : InRange n
  · rw [if_pos h]
    refine .inl ⟨h, _, rfl, rfl, BitVec.toInt_ofInt_eq_self (by decide) ?_ ?_⟩
    · exact h.1
    · exact h.2
  · rw [if_neg h]
    exact .inr ⟨h, _, rfl⟩

/-- A condition that holds can be added. -/
lemma Computes.and {x : Except Stop Value} {p q : Prop} {n : ℤ} (h : Computes x p n) (hq : q) :
    Computes x (q ∧ p) n :=
  h.imp (fun h => ⟨⟨hq, h.1⟩, h.2⟩) fun h => ⟨fun h' => h.1 h'.2, h.2⟩

/-- A remainder of numbers that fit also fits. -/
lemma inRange_tmod {m n : ℤ} (hm : InRange m) : InRange (m.tmod n) := by
  have habs : (m.tmod n).natAbs ≤ m.natAbs := by
    rw [Int.natAbs_tmod]
    exact Nat.mod_le _ _
  have hpos : 0 ≤ m → 0 ≤ m.tmod n := fun h => Int.tmod_nonneg n h
  have hneg : m ≤ 0 → m.tmod n ≤ 0 := fun h => by
    have h' := Int.tmod_nonneg n (Int.neg_nonneg_of_nonpos h)
    rw [Int.neg_tmod] at h'
    omega
  unfold InRange at *
  omega

lemma computes_integers {op : Operator} {m n : ℤ} (hm : InRange m) :
    Computes (integers op m n) (op.Fits m n) (op.exact m n) := by
  have hdiv (x : Except Stop Value) (k : ℤ)
      (hx : n ≠ 0 → Computes x (InRange (m.tdiv n)) k) :
      Computes (if n = 0 then .error (.undefined .divisionByZero) else x)
        (n ≠ 0 ∧ InRange (m.tdiv n)) k := by
    by_cases hn : n = 0
    · rw [if_pos hn]
      exact .inr ⟨fun h => h.1 hn, _, rfl⟩
    · rw [if_neg hn]
      exact (hx hn).and hn
  cases op with
  | compare =>
    have hfits : InRange (if m < n then -1 else if n < m then 1 else 0) := by
      split_ifs <;> decide
    exact (computes_int128 _).imp (fun h => ⟨trivial, h.2⟩) fun h => absurd hfits h.1
  | add => exact computes_int128 _
  | subtract => exact computes_int128 _
  | multiply => exact computes_int128 _
  | divide => exact hdiv _ _ fun _ => computes_int128 _
  | modulo =>
    refine hdiv _ _ fun _ => ?_
    by_cases hq : InRange (m.tdiv n)
    · rw [if_pos hq]
      exact (computes_int128 _).imp (fun h => ⟨hq, h.2⟩) fun h => absurd (inRange_tmod hm) h.1
    · rw [if_neg hq]
      exact .inr ⟨hq, _, rfl⟩

lemma inRange_toInt (x : BitVec 128) : InRange x.toInt :=
  ⟨BitVec.le_toInt x, BitVec.toInt_lt⟩

namespace Expression

variable {env : Surroundings} {binding : Str → Int64}

/-- An integer, or a variable, which is an integer. -/
lemma computes_primary
    (henv : ∀ name, env.getVariable name = .ok (some (integerValue (binding name))))
    {t : ValueToken} (he : (primary t).OnIntegers) :
    Computes ((primary t).compute env) ((primary t).Fits binding) ((primary t).exact binding) := by
  left
  rw [compute]
  rcases he with ⟨ht, -⟩ | ht
  · have hne : t.1.token ≠ .variable := by rw [ht]; decide
    have hvalue : primaryValue env t.1.toValue = .ok t.1.toValue := by
      rw [primaryValue, ht]
    rw [hvalue, exact, if_neg hne]
    exact ⟨trivial, _, rfl, ht, rfl⟩
  · have hvalue : primaryValue env t.1.toValue = .ok (integerValue (binding t.1.string)) := by
      rw [primaryValue, ht]
      dsimp only
      rw [henv]
      rfl
    rw [hvalue, exact, if_pos ht]
    exact ⟨trivial, _, rfl, rfl, BitVec.toInt_signExtend_of_le (by decide)⟩

/-- A negated expression, from what is known of the expression. -/
lemma computes_negate {e : Expression}
    (ih : Computes (e.compute env) (e.Fits binding) (e.exact binding)) :
    Computes ((unary .negate e).compute env) ((unary .negate e).Fits binding)
      ((unary .negate e).exact binding) := by
  rcases ih with ⟨hfits, l, hl, htoken, hvalue⟩ | ⟨hfits, u, hu⟩
  · have hcompute : (unary .negate e).compute env = int128 (-e.exact binding) := by
      rw [compute, hl]
      change negation env l = _
      rw [negation, if_pos htoken, hvalue]
    rw [hcompute]
    exact (computes_int128 _).and hfits
  · refine .inr ⟨fun h => hfits h.1, u, ?_⟩
    rw [compute, hu]
    rfl

/-- **The evaluation** of an expression on integers, by its form: the exact value where it fits,
and nothing that is defined where it does not. -/
lemma computes_compute
    (henv : ∀ name, env.getVariable name = .ok (some (integerValue (binding name))))
    {e : Expression} (he : e.OnIntegers) :
    Computes (e.compute env) (e.Fits binding) (e.exact binding) := by
  induction e with
  | primary t => exact computes_primary henv he
  | unary s e ih =>
    cases s with
    | identity => exact ih he
    | negate => exact computes_negate (ih he)
  | binary op a b iha ihb =>
    rcases iha he.1 with ⟨hafits, l, hl, hltoken, hlvalue⟩ | ⟨hafits, u, hu⟩
    · rcases ihb he.2 with ⟨hbfits, r, hr, hrtoken, hrvalue⟩ | ⟨hbfits, u, hu⟩
      · have hcompute : (binary op a b).compute env
            = integers op (a.exact binding) (b.exact binding) := by
          rw [compute, hl, hr]
          change operation env op l r = _
          rw [operation, if_pos ⟨hltoken, hrtoken⟩, hlvalue, hrvalue]
        rw [hcompute]
        have hrange : InRange (a.exact binding) := hlvalue ▸ inRange_toInt _
        exact ((computes_integers hrange).and hbfits).and hafits
      · refine .inr ⟨fun h => hbfits h.2.1, u, ?_⟩
        rw [compute, hl, hu]
        rfl
    · refine .inr ⟨fun h => hafits h.1, u, ?_⟩
      rw [compute, hu]
      rfl

/-- **Evaluation on integers** is exact, or raises an error, exactly when no divisor is zero and
the exact value of each part fits in 128 bits: no branch protects itself. -/
theorem exactOrThrows_iff
    (henv : ∀ name, env.getVariable name = .ok (some (integerValue (binding name))))
    {e : Expression} (he : e.OnIntegers) : e.ExactOrThrows env binding ↔ e.Fits binding := by
  rcases computes_compute henv he with ⟨hfits, v, hv, htoken, hvalue⟩ | ⟨hfits, u, hu⟩
  · exact iff_of_true (.inl ⟨v, hv, htoken, hvalue⟩) hfits
  · refine iff_of_false ?_ hfits
    rintro (⟨v, hv, -⟩ | ⟨t, ht⟩)
    · rw [hu] at hv
      cases hv
    · rw [hu] at ht
      cases ht

end Expression

/-- Surroundings with variables that are integers. -/
def Surroundings.ofBinding (binding : Str → Int64) : Surroundings where
  getVariable name := .ok (some (integerValue (binding name)))
  replaceVariables s := .ok s
  others _ _ _ := .error (.runtimeError "unsupported operation.".toList)
  otherNegation _ := .error (.runtimeError "unsupported negation.".toList)

/-- A quotient of two literals. -/
def quotient (m n : ℕ) : Expression :=
  .binary .divide (.primary (integerToken m)) (.primary (integerToken n))

/-- `7 / 2` -/
theorem exactOrThrows_seven_halves :
    (quotient 7 2).ExactOrThrows (.ofBinding fun _ => 0) fun _ => 0 := by
  have he : (quotient 7 2).OnIntegers := ⟨.inl ⟨rfl, 7, by decide⟩, .inl ⟨rfl, 2, by decide⟩⟩
  exact (Expression.exactOrThrows_iff (fun _ => rfl) he).mpr
    ⟨trivial, trivial, by decide, by decide⟩

/-- `1 / 0` is not defined. -/
theorem not_exactOrThrows_one_zero :
    ¬ (quotient 1 0).ExactOrThrows (.ofBinding fun _ => 0) fun _ => 0 := by
  have hcompute : (quotient 1 0).compute (.ofBinding fun _ => 0)
      = .error (.undefined .divisionByZero) := by decide
  rintro (⟨v, hv, -⟩ | ⟨t, ht⟩)
  · rw [hcompute] at hv
    cases hv
  · rw [hcompute] at ht
    cases ht

end EventDispatcher.Reporter
