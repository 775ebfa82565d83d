import EventDispatcher.Reporter.Compute
import EventDispatcher.Lib.Decimal
import EventDispatcher.Lib.SortedMap

/-!
# The variables of a script

How the executor goes from variables to tokens and back: `primary` is the value of a primary
expression, `primaryToVariable` makes a variable of a value, `replaceVariables` writes the
variables that a text refers to, and `setVariable` is the execution of `set_variable()`.  The
timestamps and the addresses are those of other libraries (`Conversions`).
-/

namespace EventDispatcher.Reporter

open Lib

/-- A `timespec_ex`: the seconds and the nanoseconds. -/
abbrev TimespecEx := Int64 × Int64

/-- An `addr::addr`. -/
structure Addr where
  address : BitVec 128
  mask : BitVec 128
  port : UInt16
deriving DecidableEq

/-- The functions of other libraries that convert values. -/
structure Conversions where
  /-- `timespec_ex::to_timestamp()` -/
  toTimestamp : TimespecEx → Str
  /-- The constructor of `timespec_ex` from a number of seconds. -/
  timespecEx : Double → TimespecEx
  /-- `to_ipv4or6_string()` with the brackets and the mask if needed; the port is optional. -/
  toIpv4or6String : Addr → Bool → Str
  /-- The start of the first range that `addr_parser::parse()` returns. -/
  parse : Str → Addr
  /-- `validator_double::convert_string()` -/
  convertDouble : Str → Option Double

/-- A library that knows no timestamp and no address. -/
def Conversions.blank : Conversions where
  toTimestamp _ := []
  timespecEx _ := (0, 0)
  toIpv4or6String _ _ := []
  parse _ := { address := 0, mask := 0, port := 0 }
  convertDouble _ := none

/-- The number of a token type, after the cast to `int`. -/
def TokenType.code : TokenType → ℤ
  | .eof => -1
  | .error => 0
  | .identifier => 1
  | .floatingPoint => 2
  | .integer => 3
  | .timespec => 4
  | .address => 5
  | .variable => 6
  | .compare => 7
  | .openParenthesis => 40
  | .closeParenthesis => 41
  | .openCurlyBrace => 123
  | .closeCurlyBrace => 125
  | .openSquareBrace => 91
  | .closeSquareBrace => 93
  | .comma => 44
  | .colon => 58
  | .doubleString => 34
  | .singleString => 39
  | .regex => 96
  | .plus => 43
  | .minus => 45
  | .multiply => 42
  | .divide => 47
  | .modulo => 37

/-- The seconds and nanoseconds of a token; both are narrowed to 64 bits. -/
def unpackTimestamp (n : BitVec 128) : TimespecEx :=
  (.ofBitVec ((n.sshiftRight 64).setWidth 64),
    .ofBitVec ((n &&& 0xffffffffffffffff#128).setWidth 64))

/-- The variables by their class and type, their name apart. -/
inductive VariableValue where
  /-- A `variable_string` of the type `string`. -/
  | string (s : Str)
  /-- A `variable_string` of the type `identifier`. -/
  | identifier (s : Str)
  | integer (n : Int64)
  | floatingPoint (d : Double)
  | regex (s : Str)
  | timestamp (t : TimespecEx)
  | address (a : Addr)
  /-- A list, an array or a void. -/
  | other (type : Str)
deriving DecidableEq

/-- The state of a script, as far as its variables go. -/
structure ScriptState where
  /-- `f_variables` -/
  values : SortedMap Str VariableValue := ∅
  /-- The location of the running statement. -/
  location : Str := []

namespace ScriptState

/-- `get_variable()` -/
def getVariable (s : ScriptState) (name : Str) : Option VariableValue := s.values.find? name

/-- `set_variable()` of the state -/
def setVariable (s : ScriptState) (name : Str) (v : VariableValue) : ScriptState :=
  { s with values := s.values.insert name v }

@[simp] lemma getVariable_setVariable_self (s : ScriptState) (name : Str) (v : VariableValue) :
    (s.setVariable name v).getVariable name = some v :=
  SortedMap.find?_insert_self _ _ _

lemma getVariable_setVariable_of_ne (s : ScriptState) {name name' : Str} (v : VariableValue)
    (h : name ≠ name') : (s.setVariable name v).getVariable name' = s.getVariable name' := by
  rw [getVariable, setVariable, SortedMap.find?_insert, if_neg h]
  rfl

end ScriptState

/-! ## The texts of variables -/

/-- `std::to_string()` of a `double`, the sign of a NaN apart -/
def doubleText : Double → Str
  | none => "nan".toList
  | some (.infinite negative) => if negative then "-inf".toList else "inf".toList
  | some (.finite q) => roundedText q

/-- `std::string::find()` of a character -/
def findFrom (s : Str) (c : Char) (pos : ℕ) : Option ℕ :=
  ((s.drop pos).findIdx? fun d => d = c).map (pos + ·)

lemma findFrom_bounds {s : Str} {c : Char} {pos d : ℕ} (h : findFrom s c pos = some d) :
    pos ≤ d ∧ d < s.length := by
  obtain ⟨i, hi, rfl⟩ := Option.map_eq_some_iff.mp h
  have hlt := (List.findIdx?_eq_some_iff_getElem.mp hi).1
  rw [List.length_drop] at hlt
  omega

/-- The loop that goes back over the zeros of a text with a period: the value of `zero_pos`. -/
def zeroPos (s : Str) (decimalPoint : ℕ) : ℕ → ℕ
  | 0 => 0
  | z + 1 =>
    if decimalPoint < z + 1 then
      if s[z]? ≠ some '0' then z else zeroPos s decimalPoint z
    else z + 1

/-- The text of a floating point variable, from what `std::to_string()` writes. -/
def floatingPointText (s : Str) : Str :=
  match findFrom s '.' 0 with
  | none => s
  | some decimalPoint =>
    let z := zeroPos s decimalPoint s.length
    -- the position itself is compared with the period
    if z ≠ '.'.toNat then s.take (z + 1) else s.take z

namespace VariableValue

/-- `variable::get_type()` -/
def type : VariableValue → Str
  | string _ => "string".toList
  | identifier _ => "identifier".toList
  | integer _ => "integer".toList
  | floatingPoint _ => "floating_point".toList
  | regex _ => "regex".toList
  | timestamp _ => "timestamp".toList
  | address _ => "address".toList
  | other type => type

/-- What a reference to the variable is replaced by. -/
def replacement (C : Conversions) : VariableValue → Except Thrown Str
  | string s => .ok s
  | integer n => .ok (intText n.toInt)
  | floatingPoint d => .ok (floatingPointText (doubleText d))
  | timestamp t => .ok (C.toTimestamp t)
  | address a => .ok (C.toIpv4or6String a (a.port != 0))
  | v => .error (.runtimeError ("found variable of type \"".toList ++ v.type
      ++ "\" which is not yet supported in $\x7b...\x7d.".toList))

/-- The token of a variable in an expression. -/
def toValue (C : Conversions) : VariableValue → Except Thrown Value
  | integer n => .ok (integerValue n)
  | floatingPoint d => .ok { token := .floatingPoint, floatingPoint := d }
  | string s => .ok { token := .singleString, string := s }
  | identifier s => .ok { token := .identifier, string := s }
  | regex s => .ok { token := .regex, string := s }
  | address a => .ok { token := .address, string := C.toIpv4or6String a true }
  | timestamp t =>
    .ok { token := .timespec, integer := timestampInteger t, string := C.toTimestamp t }
  | other type => .error (.runtimeError ("primary variable of type \"".toList ++ type
      ++ "\" not yet supported.".toList))

end VariableValue

namespace ScriptState

/-- The loop of `replace_variables()`, from a position on. -/
def replaceLoop (C : Conversions) (s : ScriptState) (original : Str) (pos : ℕ) (replaced : Str) :
    Except Thrown Str :=
  if pos < original.length then
    match _hdollar : findFrom original '$' pos with
    | none => .ok (replaced ++ original.drop pos)
    | some dollar =>
      let replaced := replaced ++ (original.drop pos).take (dollar - pos)
      if original.length ≤ dollar + 1 then .ok (replaced ++ ['$'])
      else if original[dollar + 1]? = some '\x7b' then
        match _hlast : findFrom original '\x7d' (dollar + 2) with
        | none => .error (.runtimeError (s.location ++ "found unclosed variable in \"".toList
            ++ original ++ "\".".toList))
        | some last =>
          let name := (original.drop (dollar + 2)).take (last - (dollar + 2))
          if name = [] then
            .error (.runtimeError (s.location ++ "found variable without a name in \"".toList
              ++ original ++ "\".".toList))
          else
            match s.getVariable name with
            | none => replaceLoop C s original (last + 1) replaced
            | some var =>
              match var.replacement C with
              | .error e => .error e
              | .ok text => replaceLoop C s original (last + 1) (replaced ++ text)
      else replaceLoop C s original (dollar + 1) (replaced ++ ['$'])
  else .ok replaced
termination_by original.length - pos
decreasing_by
  all_goals have := (findFrom_bounds _hdollar).1
  · have := (findFrom_bounds _hlast).1
    omega
  · have := (findFrom_bounds _hlast).1
    omega
  · omega

/-- `replace_variables()` -/
def replaceVariables (C : Conversions) (s : ScriptState) (original : Str) : Except Thrown Str :=
  replaceLoop C s original 0 []

/-- The value of a primary expression. -/
def primary (C : Conversions) (s : ScriptState) (t : Value) : Except Thrown Value :=
  match t.token with
  | .variable =>
    match s.getVariable t.string with
    | some param => param.toValue C
    | none => .ok { token := .singleString }
  | .doubleString => do
    let text ← s.replaceVariables C t.string
    return { token := .singleString, string := text }
  | _ => .ok t

/-- `primary_to_variable()` -/
def primaryToVariable (C : Conversions) (s : ScriptState) (t : Value) :
    Except Thrown VariableValue :=
  match t.token with
  | .identifier => .ok (.identifier t.string)
  | .floatingPoint => .ok (.floatingPoint t.floatingPoint)
  -- an `std::int64_t` takes the value
  | .integer => .ok (.integer (.ofBitVec (t.integer.setWidth 64)))
  | .regex => do
    let text ← s.replaceVariables C t.string
    return .regex text
  | .singleString => .ok (.string t.string)
  | .address => .ok (.address (C.parse t.string))
  | .timespec => .ok (.timestamp (unpackTimestamp t.integer))
  | token => .error (.runtimeError ("support for primary \"".toList ++ intText token.code
      ++ "\" not yet implemented.".toList))

/-- The value of a variable cast to a type, if there is one. -/
def castVariable (C : Conversions) (value : VariableValue) (cast : Str) :
    Except Thrown VariableValue :=
  let notConverted : Except Thrown VariableValue :=
    .error (.runtimeError ("casting from \"".toList ++ value.type ++ "\" to \"".toList ++ cast
      ++ "\" is not yet implemented.".toList))
  if cast = [] then .ok value
  else
    match value with
    | .string s =>
      if cast = "string".toList then .ok value
      else if cast = "timestamp".toList then
        match C.convertDouble s with
        | none => .error (.runtimeError
            ("invalid timestamp, a valid floating point was expected (".toList ++ s
              ++ ").".toList))
        | some d => .ok (.timestamp (C.timespecEx d))
      else notConverted
    | .timestamp _ => if cast = "timestamp".toList then .ok value else notConverted
    | _ => notConverted

/-- The instruction `set_variable()`, the type being optional. -/
def instSetVariable (C : Conversions) (s : ScriptState) (name : Str) (value : VariableValue)
    (type : Option Str) : Except Thrown ScriptState := do
  let var ← castVariable C value (type.getD [])
  return s.setVariable name var

/-- The statement `set_variable(name: name, value: t)`. -/
def setVariableTo (C : Conversions) (s : ScriptState) (name : Str) (t : Value) :
    Except Thrown ScriptState := do
  let value ← s.primary C t
  let param ← s.primaryToVariable C value
  s.instSetVariable C name param none

lemma setVariableTo_eq {C : Conversions} {s : ScriptState} {name : Str} {t value : Value}
    {param : VariableValue} (hvalue : s.primary C t = .ok value)
    (hparam : s.primaryToVariable C value = .ok param) :
    s.setVariableTo C name t = .ok (s.setVariable name param) := by
  rw [setVariableTo, hvalue]
  change (do let param ← s.primaryToVariable C value; s.instSetVariable C name param none) = _
  rw [hparam]
  rfl

lemma setVariableTo_eq_error {C : Conversions} {s : ScriptState} {name : Str} {t value : Value}
    {e : Thrown} (hvalue : s.primary C t = .ok value)
    (hparam : s.primaryToVariable C value = .error e) :
    s.setVariableTo C name t = .error e := by
  rw [setVariableTo, hvalue]
  change (do let param ← s.primaryToVariable C value; s.instSetVariable C name param none) = _
  rw [hparam]
  rfl

/-- A regular expression is substituted again each time that it becomes a variable. -/
lemma primaryToVariable_regex (C : Conversions) (s : ScriptState) (u : Str) :
    s.primaryToVariable C { token := .regex, string := u }
      = (s.replaceVariables C u).map .regex := by
  rw [primaryToVariable]
  cases s.replaceVariables C u <;> rfl

lemma primary_doubleString (C : Conversions) (s : ScriptState) (u : Str) :
    s.primary C { token := .doubleString, string := u }
      = (s.replaceVariables C u).map fun t => { token := .singleString, string := t } := by
  rw [primary]
  cases s.replaceVariables C u <;> rfl

end ScriptState

end EventDispatcher.Reporter
