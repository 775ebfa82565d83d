import EventDispatcher.Reporter.Variables

/-!
# The operators on values of any type

The branches of `compute()` for operands that are not two integers: floating point numbers,
timestamps, strings, regular expressions and addresses.  `Arithmetic` lists what other libraries
compute, and `ScriptState.surroundings` are the surroundings that an expression is evaluated in.
-/

namespace EventDispatcher.Reporter

open Lib

/-- The functions of other libraries that the operators call. -/
structure Arithmetic extends Conversions where
  /-- The operators of two `double` numbers; the remainder is `fmod()`. -/
  floating : Operator → Double → Double → Double
  /-- The comparison `<` of two `double` numbers. -/
  less : Double → Double → Bool
  /-- The opposite of a `double`. -/
  opposite : Double → Double
  /-- The conversion of an `__int128`. -/
  toDouble : BitVec 128 → Double
  /-- The operator `+=` of `timespec_ex`. -/
  plus : TimespecEx → TimespecEx → TimespecEx
  /-- The operator `-=` of `timespec_ex`. -/
  minus : TimespecEx → TimespecEx → TimespecEx
  /-- `escape_special_regex_characters()` -/
  escape : Str → Str
  /-- The comparison `<` of the ranges that two texts are parsed to. -/
  lessAddresses : Str → Str → Bool
  /-- The operator `+` of an address and a number. -/
  plusAddress : Addr → BitVec 128 → Addr
  /-- The operator `-` of an address and a number. -/
  minusAddress : Addr → BitVec 128 → Addr
  /-- The operator `-` of two addresses. -/
  distance : Addr → Addr → BitVec 128

/-- A library that computes nothing. -/
def Arithmetic.blank : Arithmetic where
  toConversions := .blank
  floating _ _ _ := none
  less _ _ := false
  opposite d := d
  toDouble _ := none
  plus a _ := a
  minus a _ := a
  escape text := text
  lessAddresses _ _ := false
  plusAddress a _ := a
  minusAddress a _ := a
  distance _ _ := 0

/-! ## Values -/

/-- The result of `<=>`. -/
def compared (less greater : Bool) : Value :=
  { token := .integer, integer := if less then -1 else if greater then 1 else 0 }

/-- A timestamp as the result of an operation. -/
def timestampValue (t : TimespecEx) : Value :=
  { token := .timespec, integer := timestampInteger t }

/-- A timestamp as an operand. -/
def Value.IsTimestamp (v : Value) (t : TimespecEx) : Prop :=
  v.token = .timespec ∧ v.integer = timestampInteger t

/-- An integer as an operand. -/
def Value.IsInteger (v : Value) (n : ℤ) : Prop := v.token = .integer ∧ v.integer.toInt = n

/-- A number of seconds, which `timespec_ex` takes as a `time_t`. -/
def secondsOf (n : BitVec 128) : TimespecEx := (.ofBitVec (n.setWidth 64), 0)

/-- An integer as a text, after a cast to `std::int64_t`. -/
def integerText (n : BitVec 128) : Str := intText (n.setWidth 64).toInt

/-- Narrowing to fewer bits keeps the value modulo a power of two. -/
lemma toInt_setWidth_of_le {v w : ℕ} (h : v ≤ w) (n : BitVec w) :
    (n.setWidth v).toInt = n.toInt.bmod (2 ^ v) := by
  rw [← BitVec.signExtend_eq_setWidth_of_le n h, BitVec.toInt_signExtend, Nat.min_eq_left h]

/-- The types of the operands in a message. -/
def operandTypes (l r : Value) (between : String) : Str :=
  intText l.token.code ++ between.toList ++ intText r.token.code

/-- An `ed::runtime_error` -/
def unsupported (what : Str) : Except Thrown Value := .error (.runtimeError what)

/-! ## Repetition -/

/-- The loop `*d++ = *s++` of `n` characters, in one buffer. -/
def copyForward : ℕ → Str → ℕ → ℕ → Str
  | 0, str, _, _ => str
  | n + 1, str, s, d => copyForward n (str.set d (str.getD s nul)) (s + 1) (d + 1)

/-- A text several times.  The count is an `int`, which is checked after the conversion. -/
def repeatText (text : Str) (n : BitVec 128) : Except Thrown Str :=
  let count := (n.setWidth 32).toInt
  if count < 0 ∨ 1000 < count then
    .error (.runtimeError "string repeat needs to be positive and under 1001.".toList)
  else
    let len := text.length
    let size := len * count.toNat
    let str := (text ++ List.replicate (size - len) nul).take size
    .ok (copyForward (size - len) str 0 len)

/-! ## The branches -/

namespace Arithmetic

variable (A : Arithmetic)

/-- An address as the result of an operation. -/
def addressValue (a : Addr) : Value := { token := .address, string := A.toIpv4or6String a true }

/-- The operands as `double` numbers, when one is and the other is too or is an integer. -/
def floatingOperands (l r : Value) : Option (Double × Double) :=
  match l.token, r.token with
  | .floatingPoint, .floatingPoint => some (l.floatingPoint, r.floatingPoint)
  | .floatingPoint, .integer => some (l.floatingPoint, A.toDouble r.integer)
  | .integer, .floatingPoint => some (A.toDouble l.integer, r.floatingPoint)
  | _, _ => none

/-- `OPERATOR_COMPARE` -/
def compare (location : Str) (l r : Value) : Except Thrown Value :=
  match l.token, r.token with
  -- the timestamps are compared as integers
  | .timespec, .timespec => .ok (compared (l.integer.slt r.integer) (r.integer.slt l.integer))
  | .identifier, .identifier | .singleString, .singleString | .singleString, .doubleString
  | .doubleString, .singleString | .doubleString, .doubleString =>
    .ok (compared (l.string < r.string) (r.string < l.string))
  | .address, .address =>
    .ok (compared (A.lessAddresses l.string r.string) (A.lessAddresses r.string l.string))
  | _, _ => unsupported (location ++ "unsupported compare (token types: ".toList
      ++ operandTypes l r " <=> " ++ ").".toList)

/-- `OPERATOR_ADD` -/
def add (l r : Value) : Except Thrown Value :=
  match l.token, r.token with
  | .timespec, .integer =>
    .ok (timestampValue (A.plus (unpackTimestamp l.integer) (secondsOf r.integer)))
  | .integer, .timespec =>
    .ok (timestampValue (A.plus (unpackTimestamp r.integer) (secondsOf l.integer)))
  | .timespec, .floatingPoint =>
    .ok (timestampValue (A.plus (unpackTimestamp l.integer) (A.timespecEx r.floatingPoint)))
  | .floatingPoint, .timespec =>
    .ok (timestampValue (A.plus (unpackTimestamp r.integer) (A.timespecEx l.floatingPoint)))
  | .timespec, .timespec =>
    .ok (timestampValue (A.plus (unpackTimestamp l.integer) (unpackTimestamp r.integer)))
  | .identifier, .identifier => .ok { token := .identifier, string := l.string ++ r.string }
  | .singleString, .singleString => .ok { token := .singleString, string := l.string ++ r.string }
  | .singleString, .regex => .ok { token := .regex, string := A.escape l.string ++ r.string }
  | .regex, .singleString => .ok { token := .regex, string := l.string ++ A.escape r.string }
  | .regex, .regex => .ok { token := .regex, string := l.string ++ r.string }
  | .singleString, .integer =>
    .ok { token := .singleString, string := l.string ++ integerText r.integer }
  | .integer, .singleString =>
    .ok { token := .singleString, string := integerText l.integer ++ r.string }
  | .address, .integer => .ok (A.addressValue (A.plusAddress (A.parse l.string) r.integer))
  | .integer, .address => .ok (A.addressValue (A.plusAddress (A.parse r.string) l.integer))
  | _, _ => unsupported ("unsupported addition (token types: ".toList
      ++ operandTypes l r " + " ++ ").".toList)

/-- `OPERATOR_SUBTRACT` -/
def subtract (l r : Value) : Except Thrown Value :=
  match l.token, r.token with
  | .timespec, .integer =>
    .ok (timestampValue (A.minus (unpackTimestamp l.integer) (secondsOf r.integer)))
  | .integer, .timespec =>
    .ok (timestampValue (A.minus (secondsOf l.integer) (unpackTimestamp r.integer)))
  | .timespec, .floatingPoint =>
    .ok (timestampValue (A.minus (unpackTimestamp l.integer) (A.timespecEx r.floatingPoint)))
  | .floatingPoint, .timespec =>
    .ok (timestampValue (A.minus (A.timespecEx l.floatingPoint) (unpackTimestamp r.integer)))
  | .timespec, .timespec =>
    .ok (timestampValue (A.minus (unpackTimestamp l.integer) (unpackTimestamp r.integer)))
  | .address, .address =>
    .ok { token := .integer, integer := A.distance (A.parse l.string) (A.parse r.string) }
  | .address, .integer => .ok (A.addressValue (A.minusAddress (A.parse l.string) r.integer))
  | _, _ => unsupported "unsupported subtraction.".toList

/-- `OPERATOR_MULTIPLY` -/
def multiply (l r : Value) : Except Thrown Value :=
  match l.token, r.token with
  | .singleString, .integer | .doubleString, .integer => do
    let text ← repeatText l.string r.integer
    return { token := l.token, string := text }
  | _, _ => unsupported "unsupported multiplication.".toList

/-- The operators on operands that are not two integers. -/
def others (location : Str) (op : Operator) (l r : Value) : Except Thrown Value :=
  match A.floatingOperands l r with
  | some (x, y) =>
    if op = .compare then .ok (compared (A.less x y) (A.less y x))
    else .ok { token := .floatingPoint, floatingPoint := A.floating op x y }
  | none =>
    match op with
    | .compare => A.compare location l r
    | .add => A.add l r
    | .subtract => A.subtract l r
    | .multiply => multiply l r
    | .divide => unsupported "unsupported division.".toList
    | .modulo => unsupported ("unsupported modulo (types: ".toList ++ operandTypes l r " and "
        ++ ").".toList)

/-- `OPERATOR_NEGATE` of an operand that is not an integer. -/
def otherNegation (l : Value) : Except Thrown Value :=
  match l.token with
  | .floatingPoint =>
    .ok { token := .floatingPoint, floatingPoint := A.opposite l.floatingPoint }
  | .timespec => .ok (timestampValue (A.minus (0, 0) (unpackTimestamp l.integer)))
  | _ => unsupported "unsupported negation.".toList

end Arithmetic

/-! ## The surroundings -/

namespace ScriptState

variable (A : Arithmetic) (s : ScriptState)

/-- What the evaluation of an expression takes from the state. -/
def surroundings : Surroundings where
  getVariable name :=
    match s.getVariable name with
    | none => .ok none
    | some v => (v.toValue A.toConversions).map some
  replaceVariables := s.replaceVariables A.toConversions
  others := A.others s.location
  otherNegation := A.otherNegation

variable {A s}

/-- The value of a primary expression in these surroundings is the one of the state. -/
lemma primaryValue_surroundings (t : Value) :
    Expression.primaryValue (s.surroundings A) t = s.primary A.toConversions t := by
  rw [Expression.primaryValue, primary]
  by_cases hvariable : t.token = .variable
  · rw [hvariable]
    dsimp only [surroundings]
    cases s.getVariable t.string with
    | none => rfl
    | some v =>
      dsimp only
      cases v.toValue A.toConversions <;> rfl
  · cases htoken : t.token <;> first | rfl | exact absurd htoken hvariable

end ScriptState

end EventDispatcher.Reporter
