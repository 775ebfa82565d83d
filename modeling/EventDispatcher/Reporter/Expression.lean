import EventDispatcher.Reporter.Lexer
import EventDispatcher.Lib.Descent

/-!
# The expressions of the reporter language

The trees that the parser builds, the grammar of their texts (`Derives`), and their text with as
few parentheses as possible (`Expression.print`): the operators associate to the left, `*`, `/`
and `%` bind stronger than `+` and `-`, which bind stronger than `<=>`, and a sign applies to a
primary expression.
-/

namespace EventDispatcher.Reporter

open Lib

/-- The tokens that are an expression by themselves. -/
def TokenType.isValue : TokenType → Bool
  | .identifier | .floatingPoint | .integer | .address | .timespec | .variable
  | .doubleString | .singleString | .regex => true
  | _ => false

/-- A token that is an expression by itself. -/
abbrev ValueToken := { t : Token // t.token.isValue = true }

/-- An integer of a program. -/
def integerToken (n : ℕ) : ValueToken := ⟨{ token := .integer, integer := BitVec.ofNat 128 n }, rfl⟩

/-- The operators of one operand. -/
inductive Sign where
  /-- `OPERATOR_IDENTITY` -/
  | identity
  /-- `OPERATOR_NEGATE` -/
  | negate
deriving DecidableEq, Repr

/-- The operators of two operands. -/
inductive Operator where
  /-- `OPERATOR_COMPARE` -/
  | compare
  /-- `OPERATOR_ADD` -/
  | add
  /-- `OPERATOR_SUBTRACT` -/
  | subtract
  /-- `OPERATOR_MULTIPLY` -/
  | multiply
  /-- `OPERATOR_DIVIDE` -/
  | divide
  /-- `OPERATOR_MODULO` -/
  | modulo
deriving DecidableEq, Repr

/-- An expression, lists and arrays apart. -/
inductive Expression where
  /-- `OPERATOR_PRIMARY` -/
  | primary (token : ValueToken)
  | unary (sign : Sign) (operand : Expression)
  | binary (op : Operator) (left right : Expression)
deriving DecidableEq

/-- The operator that a sign stands for in front of an expression. -/
def TokenType.sign : TokenType → Option Sign
  | .plus => some .identity
  | .minus => some .negate
  | _ => none

/-- The levels of the grammar, one for each function of the parser. -/
inductive Level where
  | primary
  | multiplicative
  | additive
  | comparative
deriving DecidableEq, Repr

namespace Level

/-- The level of the operands. -/
def operand : Level → Option Level
  | primary => none
  | multiplicative => some primary
  | additive => some multiplicative
  | comparative => some additive

/-- The operators of a level, by their token. -/
def operator : Level → TokenType → Option Operator
  | multiplicative, .multiply => some .multiply
  | multiplicative, .divide => some .divide
  | multiplicative, .modulo => some .modulo
  | additive, .plus => some .add
  | additive, .minus => some .subtract
  | comparative, .compare => some .compare
  | _, _ => none

/-- A level includes the levels of a smaller rank. -/
def rank : Level → ℕ
  | primary => 0
  | multiplicative => 1
  | additive => 2
  | comparative => 3

end Level

/-- The grammar of expressions: the texts of a level and what they say. -/
inductive Derives : Level → List Token → Expression → Prop
  | token (t : ValueToken) : Derives .primary [t.1] (.primary t)
  | sign {t : Token} {s : Sign} {w : List Token} {e : Expression} (ht : t.token.sign = some s)
      (h : Derives .primary w e) : Derives .primary (t :: w) (.unary s e)
  | parentheses {t t' : Token} {w : List Token} {e : Expression}
      (ht : t.token = .openParenthesis) (h : Derives .comparative w e)
      (ht' : t'.token = .closeParenthesis) : Derives .primary (t :: (w ++ [t'])) e
  | operand {l l' : Level} {w : List Token} {e : Expression} (hl : l.operand = some l')
      (h : Derives l' w e) : Derives l w e
  | binary {l l' : Level} {u v : List Token} {t : Token} {op : Operator} {a b : Expression}
      (hl : l.operand = some l') (hu : Derives l u a) (ht : l.operator t.token = some op)
      (hv : Derives l' v b) : Derives l (u ++ t :: v) (.binary op a b)

namespace Derives

variable {l : Level} {w : List Token} {e : Expression}

/-- A text starts with a value, a sign or a parenthesis. -/
lemma exists_cons (h : Derives l w e) : ∃ t w', w = t :: w' ∧
    (t.token.isValue = true ∨ t.token.sign ≠ none ∨ t.token = .openParenthesis) := by
  induction h with
  | token t => exact ⟨t.1, [], rfl, .inl t.2⟩
  | sign ht h => exact ⟨_, _, rfl, .inr (.inl (by simp [ht]))⟩
  | parentheses ht h ht' => exact ⟨_, _, rfl, .inr (.inr ht)⟩
  | operand hl h ih => exact ih
  | binary hl hu ht hv ihu ihv =>
    obtain ⟨t, w', rfl, ht⟩ := ihu
    exact ⟨t, _, rfl, ht⟩

/-- A level includes the levels below it. -/
lemma mono {l' : Level} (h : Derives l w e) (hl : l.rank ≤ l'.rank) : Derives l' w e := by
  have hm : Derives .primary w e → Derives .multiplicative w e := .operand rfl
  have ha : Derives .multiplicative w e → Derives .additive w e := .operand rfl
  have hc : Derives .additive w e → Derives .comparative w e := .operand rfl
  cases l <;> cases l' <;> first
    | exact h
    | exact absurd hl (by decide)
    | exact hm h
    | exact ha h
    | exact hc h
    | exact ha (hm h)
    | exact hc (ha h)
    | exact hc (ha (hm h))

end Derives

/-! ## Printing -/

/-- The token of an operator. -/
def Operator.token : Operator → TokenType
  | compare => .compare
  | add => .plus
  | subtract => .minus
  | multiply => .multiply
  | divide => .divide
  | modulo => .modulo

/-- The level of an operator. -/
def Operator.level : Operator → Level
  | compare => .comparative
  | add | subtract => .additive
  | multiply | divide | modulo => .multiplicative

/-- The level of the right operand of an operator. -/
def Operator.rightLevel : Operator → Level
  | compare => .additive
  | add | subtract => .multiplicative
  | multiply | divide | modulo => .primary

lemma Level.of_operator_eq_some {l l' : Level} {type : TokenType} {op : Operator}
    (hl : l.operand = some l') (ht : l.operator type = some op) :
    op.level = l ∧ op.rightLevel = l' := by
  cases l <;> cases hl <;> cases type <;> cases ht <;> exact ⟨rfl, rfl⟩

/-- The token of a sign. -/
def Sign.token : Sign → TokenType
  | identity => .plus
  | negate => .minus

/-- A token that says no more than its type. -/
def punctuation (type : TokenType) : Token := { token := type }

namespace Expression

/-- The text of an expression where a text of a level is expected.  An operator of a weaker level
is put between parentheses. -/
def print : Expression → Level → List Token
  | primary t, _ => [t.1]
  | unary s e, _ => punctuation s.token :: print e .primary
  | binary op a b, l =>
    let w := print a op.level ++ punctuation op.token :: print b op.rightLevel
    if op.level.rank ≤ l.rank then w
    else punctuation .openParenthesis :: (w ++ [punctuation .closeParenthesis])

/-- The text of an expression is in the grammar. -/
theorem derives_print (e : Expression) (l : Level) : Derives l (e.print l) e := by
  induction e generalizing l with
  | primary t => exact (Derives.token t).mono (Nat.zero_le _)
  | unary s e ih =>
    refine (Derives.sign ?_ (ih .primary)).mono (Nat.zero_le _)
    cases s <;> rfl
  | binary op a b iha ihb =>
    have hw : Derives op.level
        (a.print op.level ++ punctuation op.token :: b.print op.rightLevel)
        (.binary op a b) := by
      refine .binary ?_ (iha op.level) ?_ (ihb op.rightLevel)
      · cases op <;> rfl
      · cases op <;> rfl
    rw [print]
    split
    · rename_i hl
      exact hw.mono hl
    · refine (Derives.parentheses rfl (hw.mono ?_) rfl).mono (Nat.zero_le _)
      cases op <;> decide

lemma length_print_le {e : Expression} {l l' : Level} (hl : l.rank ≤ l'.rank) :
    (e.print l').length ≤ (e.print l).length := by
  cases e with
  | primary t => exact le_rfl
  | unary s e => exact le_rfl
  | binary op a b =>
    simp only [print]
    split_ifs with h h' h'
    · exact le_rfl
    · simp only [List.length_cons, List.length_append]
      omega
    · exact absurd (h'.trans hl) h
    · exact le_rfl

/-- Between parentheses two tokens are added at most. -/
lemma length_print_primary (e : Expression) :
    (e.print .primary).length ≤ (e.print .comparative).length + 2 := by
  cases e with
  | primary t => exact Nat.le_add_right _ _
  | unary s e => exact Nat.le_add_right _ _
  | binary op a b =>
    have hcomparative : op.level.rank ≤ Level.comparative.rank := by cases op <;> decide
    simp only [print, if_pos hcomparative]
    split
    · exact Nat.le_add_right _ _
    · simp only [List.length_cons, List.length_append, List.length_nil]
      omega

/-- **The parentheses are needed.**  No text of the grammar that says the same is shorter. -/
theorem length_print_le_of_derives {l : Level} {w : List Token} {e : Expression}
    (h : Derives l w e) : (e.print l).length ≤ w.length := by
  induction h with
  | token t => exact le_rfl
  | sign ht h ih => exact Nat.succ_le_succ ih
  | @parentheses t t' w e ht h ht' ih =>
    have := e.length_print_primary
    simp only [List.length_cons, List.length_append, List.length_nil]
    omega
  | @operand l l' w e hl h ih =>
    refine (length_print_le ?_).trans ih
    cases l <;> cases hl <;> decide
  | @binary l l' u v t op a b hl hu ht hv ihu ihv =>
    obtain ⟨hlevel, hright⟩ := Level.of_operator_eq_some hl ht
    rw [print, hlevel, hright, if_pos le_rfl]
    simp only [List.length_append, List.length_cons]
    omega

end Expression

end EventDispatcher.Reporter
