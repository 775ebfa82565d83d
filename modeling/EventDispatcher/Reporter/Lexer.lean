import EventDispatcher.Base
import EventDispatcher.Lib.Binary64

/-!
# The lexer of the reporter language

`Lexer.nextToken` reads the next token of a test program.  The characters come from `getc()`,
which gives back first what `ungetc()` took and turns the line ends into newlines.  The program
is the list of its characters: the UTF-8 decoding, the dates, the addresses and the conversions
of numbers are the work of other libraries (`Library`).
-/

namespace EventDispatcher.Reporter

/-- The exceptions that leave the lexer. -/
inductive Thrown where
  /-- `std::logic_error` -/
  | logicError (what : Str)
  /-- `libexcept::fixme` -/
  | fixme (what : Str)
  /-- `ed::runtime_error` -/
  | runtimeError (what : Str)
  /-- An exception of another library. -/
  | library (what : Str)
deriving DecidableEq, Repr

/-- The type of a token, `token_t`. -/
inductive TokenType where
  | eof
  | error
  | identifier
  | floatingPoint
  | integer
  | timespec
  | address
  | variable
  | compare
  | openParenthesis
  | closeParenthesis
  | openCurlyBrace
  | closeCurlyBrace
  | openSquareBrace
  | closeSquareBrace
  | comma
  | colon
  | doubleString
  | singleString
  | regex
  | plus
  | minus
  | multiply
  | divide
  | modulo
deriving DecidableEq, Repr

namespace TokenType

/-- The tokens of one character that `next_token()` returns at once. -/
def single : Char → Option TokenType
  | '(' => some .openParenthesis
  | ')' => some .closeParenthesis
  | '[' => some .openSquareBrace
  | ']' => some .closeSquareBrace
  | '\x7b' => some .openCurlyBrace
  | '\x7d' => some .closeCurlyBrace
  | ',' => some .comma
  | ':' => some .colon
  | '+' => some .plus
  | '-' => some .minus
  | '*' => some .multiply
  | '%' => some .modulo
  | _ => none

/-- The strings, by their quote. -/
def quoted : Char → Option TokenType
  | '"' => some .doubleString
  | '\'' => some .singleString
  | '`' => some .regex
  | _ => none

end TokenType

/-- A `double`; `none` is `quiet_NaN()`. -/
abbrev Double := Option Lib.Binary64

/-- What a token says, its position apart. -/
structure Value where
  /-- The field `f_token`. -/
  token : TokenType := .eof
  /-- The field `f_integer`, an `__int128`. -/
  integer : BitVec 128 := 0
  /-- The field `f_floating_point`. -/
  floatingPoint : Double := some (.finite 0)
  /-- The field `f_string`. -/
  string : Str := []
deriving DecidableEq

/-- A token of the program. -/
structure Token extends Value where
  /-- The field `f_line`. -/
  line : UInt32 := 0
  /-- The field `f_column`. -/
  column : UInt32 := 0
deriving DecidableEq

/-- What `addr_parser::parse()` returns, as far as the lexer looks. -/
inductive Addresses where
  /-- The parser has errors. -/
  | errors
  /-- The first address is a range, or has no start. -/
  | range
  /-- The start of the first address, as `to_ipv4or6_string()` writes it. -/
  | address (text : Str)
deriving DecidableEq, Repr

/-- The functions of other libraries that the lexer calls. -/
structure Library where
  /-- `libutf8::to_u8string()` of the end of string marker -/
  endOfString : Except Thrown Str
  /-- `timespec_ex::from_string()` with the format `%m/%d/%Y %T`: the seconds and nanoseconds -/
  fromString : Str → Except Thrown (Int64 × Int64)
  /-- The constructor of `timespec_ex` from a string. -/
  timespec : Str → Except Thrown (Int64 × Int64)
  /-- `addr_parser::parse()` for TCP addresses with a mask -/
  parseAddress : Str → Addresses
  /-- `validator_double::convert_string()` -/
  convertDouble : Str → Option Double
  /-- `validator_integer::convert_string()` -/
  convertInteger : Str → Option Int64

/-- A library that reads decimal integers, and nothing else. -/
def Library.integers : Library where
  endOfString := .error (.library "not a character".toList)
  fromString _ := .error (.library "not a date".toList)
  timespec _ := .error (.library "not a timestamp".toList)
  parseAddress _ := .errors
  convertDouble _ := none
  convertInteger s :=
    if s.all Char.isDigit then
      some (s.foldl (fun n c => 10 * n + Int64.ofNat (c.toNat - 48)) 0)
    else none

/-- The characters that are skipped between the tokens. -/
def isBlank (c : Char) : Bool := c = '\n' || c = ' ' || c = '\t' || c = '\x0c'

/-- A decimal digit. -/
def isDigit (c : Char) : Bool := '0' ≤ c && c ≤ '9'

/-- The characters of names. -/
def isNameChar (c : Char) : Bool :=
  ('A' ≤ c && c ≤ 'Z') || ('a' ≤ c && c ≤ 'z') || isDigit c || c = '_'

/-- The first characters of identifiers. -/
def isNameStart (c : Char) : Bool :=
  ('A' ≤ c && c ≤ 'Z') || ('a' ≤ c && c ≤ 'z') || c = '_'

/-- The characters that go on a decimal number. -/
def isNumberChar (c : Char) : Bool :=
  isDigit c || c = '+' || c = '-' || c = '.' || c = 'e' || c = 'E'

/-- The characters that make a number a floating point number. -/
def isFloatChar (c : Char) : Bool := c = '.' || c = 'e' || c = 'E'

/-- The characters that go on a timestamp. -/
def isTimestampChar (c : Char) : Bool := isDigit c || c = '.' || c = 's'

/-- `snapdev::is_hexdigit()` -/
def isHexdigit (c : Char) : Bool :=
  isDigit c || ('a' ≤ c && c ≤ 'f') || ('A' ≤ c && c ≤ 'F')

/-- `snapdev::hexdigit_to_number()` -/
def hexdigitToNumber (c : Char) : BitVec 64 :=
  if isDigit c then BitVec.ofNat 64 (c.toNat - 48)
  else if 'a' ≤ c then BitVec.ofNat 64 (c.toNat - 87)
  else BitVec.ofNat 64 (c.toNat - 55)

/-- The seconds shifted to the upper half, with the nanoseconds. -/
def timestampInteger (t : Int64 × Int64) : BitVec 128 :=
  (t.1.toBitVec.signExtend 128 <<< 64) ||| t.2.toBitVec.signExtend 128

/-- The state of the lexer. -/
structure Lexer where
  /-- The field `f_filename`. -/
  filename : Str := []
  /-- The characters of the program that `f_iterator` has not read. -/
  iterator : Str
  /-- The first `f_unget_pos` elements of `f_unget`, the last one first. -/
  unget : Str := []
  /-- The field `f_line`. -/
  line : UInt32 := 1
  /-- The field `f_column`. -/
  column : UInt32 := 1
  /-- What was written to `std::cerr`. -/
  cerr : Str := []
deriving DecidableEq

/-- The constructor of the lexer. -/
def Lexer.ofProgram (filename program : Str) : Lexer := { filename, iterator := program }

/-- Decimal digits of a line or column number. -/
def decimal (n : UInt32) : Str := (toString n.toNat).toList

namespace Lexer

/-- The number of characters that are still to come, at most. -/
def pending (l : Lexer) : ℕ := l.unget.length + l.iterator.length

/-- `lexer::getc()` -/
def getc (l : Lexer) : Option Char × Lexer :=
  match l.unget with
  | c :: unget => (some c, { l with unget })
  | [] =>
    match l.iterator with
    | [] => (none, { l with column := l.column + 1 })
    | c :: rest =>
      let (c, rest) := if c = '\r' then ('\n', if rest.head? = some '\n' then rest.tail else rest)
        else (c, rest)
      if c = '\n' then (some c, { l with iterator := rest, line := l.line + 1, column := 1 })
      else (some c, { l with iterator := rest, column := l.column + 1 })

/-- `lexer::ungetc()`; the limit is `sizeof(f_unget)`, in bytes. -/
def ungetc (l : Lexer) : Option Char → Except Thrown Lexer
  | none => .ok l
  | some c =>
    if 64 ≤ l.unget.length then .error (.logicError "too many ungetc() calls.".toList)
    else .ok { l with unget := c :: l.unget }

/-- `lexer::error()` -/
def error (l : Lexer) (t : Token) (msg : Str) : Token × Lexer :=
  ({ t with token := .error },
    { l with
      cerr := l.cerr ++ "error:".toList ++ l.filename ++ ":".toList ++ decimal t.line ++
        ":".toList ++ decimal t.column ++ ": ".toList ++ msg ++ "\n".toList })

lemma pending_getc (l : Lexer) : (l.getc).2.pending = l.pending - 1 ∨
    (l.getc).2.pending = l.pending - 2 := by
  unfold getc pending
  rcases l.unget with _ | ⟨c, unget⟩
  · rcases l.iterator with _ | ⟨c, rest⟩
    · simp
    · by_cases hc : c = '\r'
      · rcases rest with _ | ⟨d, rest⟩
        · simp [hc]
        · by_cases hd : d = '\n' <;> simp [hc, hd]
      · by_cases hn : c = '\n' <;> simp [hc, hn]
  · left
    simp

lemma pending_pos_of_getc {l : Lexer} {c : Char} (h : (l.getc).1 = some c) : 0 < l.pending := by
  unfold getc pending at *
  rcases hu : l.unget with _ | ⟨d, unget⟩
  · rcases hi : l.iterator with _ | ⟨d, rest⟩
    · simp [hu, hi] at h
    · simp
  · simp

/-- A character that is read is gone. -/
lemma pending_getc_lt {l : Lexer} {c : Char} (h : (l.getc).1 = some c) :
    (l.getc).2.pending < l.pending := by
  have hpos := pending_pos_of_getc h
  rcases l.pending_getc with h | h <;> omega

lemma pending_getc_le (l : Lexer) : (l.getc).2.pending ≤ l.pending := by
  rcases l.pending_getc with h | h <;> omega

/-- The loops that read from the character `c` on while the characters meet `p`; the result is
what they read and the character they end on. -/
def readWhile (p : Char → Bool) (c : Option Char) (l : Lexer) : Str × Option Char × Lexer :=
  match c with
  | none => ([], none, l)
  | some d =>
    if p d then
      let (s, stop, l') := readWhile p (l.getc).1 (l.getc).2
      (d :: s, stop, l')
    else ([], some d, l)
termination_by l.pending + if c.isSome then 1 else 0
decreasing_by
  have hle := l.pending_getc_le
  cases h : (l.getc).1 with
  | none => simp; omega
  | some c => have := pending_getc_lt h; simp; omega

/-- The loops that read up to the character `stop`; `none` is the end of the program. -/
def readUntil (stop : Char) (l : Lexer) : Option Str × Lexer :=
  match _h : l.getc with
  | (none, l') => (none, l')
  | (some c, l') =>
    if c = stop then (some [], l')
    else
      let (s, l'') := readUntil stop l'
      (s.map (c :: ·), l'')
termination_by l.pending
decreasing_by
  have := pending_getc_lt (congrArg Prod.fst _h)
  rwa [_h] at this

/-- The character that a backslash and `c` stand for in a string. -/
def escape (c : Char) : Except Thrown Char :=
  if c ∈ ['\\', '\'', '"', '`'] then .ok c
  else if c = 'a' then .ok '\x07'
  else if c = 'b' then .ok '\x08'
  else if c = 'f' then .ok '\x0c'
  else if c = 'n' then .ok '\n'
  else if c = 'r' then .ok '\r'
  else if c = 't' then .ok '\t'
  else if c = 'v' then .ok '\x0b'
  else if c = 'x' || c = 'u' || c = 'U' || isDigit c then
    .error (.fixme
      "sorry, the \\... with a number to define a character are not yet supported.".toList)
  else .error (.runtimeError ("invalid escape character '".toList ++ [c] ++ "'.".toList))

/-- The loop over the characters of a string: the string, or the message of an error. -/
def readString (quote : Char) (l : Lexer) : Except Thrown (Except Str Str × Lexer) :=
  match _h : l.getc with
  | (none, l') => .ok (.error "unterminated string.".toList, l')
  | (some c, l') =>
    if c = '\n' then .ok (.error "strings cannot be written on multiple lines.".toList, l')
    else if c = quote then .ok (.ok [], l')
    else if c = '\\' then
      match _h' : l'.getc with
      | (none, l'') => .ok (.error "unterminated backslash sequence in string.".toList, l'')
      | (some d, l'') => do
        let c ← escape d
        let (s, l''') ← readString quote l''
        return (s.map (c :: ·), l''')
    else do
      let (s, l'') ← readString quote l'
      return (s.map (c :: ·), l'')
termination_by l.pending
decreasing_by
  · have h₁ := pending_getc_lt (congrArg Prod.fst _h)
    have h₂ := pending_getc_lt (congrArg Prod.fst _h')
    rw [_h] at h₁
    rw [_h'] at h₂
    exact h₂.trans h₁
  · have := pending_getc_lt (congrArg Prod.fst _h)
    rwa [_h] at this

/-! ### The branches of the switch, after their first character -/

/-- The branch of `'$'`. -/
def variableToken (t : Token) (l : Lexer) : Token × Lexer :=
  let named (s : Str) (l : Lexer) : Token × Lexer :=
    match s with
    | [] => l.error t "unexpected '$' without a variable name.".toList
    | c :: _ =>
      if c ≤ '9' then l.error t "variable name cannot start with a digit.".toList
      else ({ t with token := .variable, string := s }, l)
  match l.getc with
  | (some '\x7b', l') =>
    let (s, stop, l'') := readWhile isNameChar (l'.getc).1 (l'.getc).2
    if stop = some '\x7d' then named s l''
    else l''.error t "unexpected character to close variable; expected '\x7d'.".toList
  | (c, l') =>
    -- the character after the name is read, and not given back
    let (s, _, l'') := readWhile isNameChar c l'
    named s l''

/-- The branch of `'@'`. -/
def timespecToken (L : Library) (t : Token) (l : Lexer) : Except Thrown (Token × Lexer) := do
  let named (s : Str) (timestamp : Int64 × Int64) (l : Lexer) : Token × Lexer :=
    let t := { t with integer := timestampInteger timestamp }
    if s = [] then l.error t "unexpected '@' without a timestamp.".toList
    else ({ t with token := .timespec, string := s }, l)
  let (c, l') := l.getc
  if c = some '\'' || c = some '"' then
    let (s, l'') := readUntil (c.getD '"') l'
    match s with
    | none => return l''.error t "unterminated date.".toList
    | some s => return named s (← L.fromString s) l''
  else
    let first ← (c.map fun c => Except.ok [c]).getD L.endOfString
    let (s, stop, l'') := readWhile isTimestampChar (l'.getc).1 (l'.getc).2
    let l''' ← l''.ungetc stop
    return named (first ++ s) (← L.timespec (first ++ s)) l'''

/-- The branch of `'<'`. -/
def addressToken (L : Library) (t : Token) (l : Lexer) : Except Thrown (Token × Lexer) :=
  let (s, l') := readUntil '>' l
  match s with
  | none => .ok (l'.error t "unterminated IP address.".toList)
  | some s =>
    if s = [] then .ok (l'.error t "an empty IP address is not a valid address.".toList)
    else if s = ['='] then .ok ({ t with token := .compare }, l')
    else
      match L.parseAddress s with
      | .errors => .ok (l'.error t ("error parsing IP address ".toList ++ s ++ ".".toList))
      | .range =>
        .error (.logicError "parsing of address did not fail with a range.".toList)
      | .address text => .ok ({ t with token := .address, string := text }, l')

/-- The branch of the quotes. -/
def stringToken (t : Token) (kind : TokenType) (quote : Char) (l : Lexer) :
    Except Thrown (Token × Lexer) := do
  let (s, l') ← readString quote l
  match s with
  | .error msg => return l'.error t msg
  | .ok s => return ({ t with token := kind, string := s }, l')

/-- The branch of the decimal numbers, from their first character on. -/
def decimalToken (L : Library) (t : Token) (c : Char) (l : Lexer) :
    Except Thrown (Token × Lexer) := do
  let (s, stop, l') := readWhile isNumberChar (some c) l
  let l'' ← l'.ungetc stop
  if s.any isFloatChar then
    let s := if s.head? = some '.' then '0' :: s else s
    match L.convertDouble s with
    | none => return l''.error t ("invalid floating point (".toList ++ s ++ ").".toList)
    | some value => return ({ t with token := .floatingPoint, floatingPoint := value }, l'')
  else
    match L.convertInteger s with
    | none => return l''.error t ("invalid integer (".toList ++ s ++ ").".toList)
    | some value =>
      return ({ t with token := .integer, integer := value.toBitVec.signExtend 128 }, l'')

/-- The value of hexadecimal digits, in 64 bits. -/
def hexadecimalValue (s : Str) : BitVec 64 :=
  s.foldl (fun value c => (value <<< 4) ||| hexdigitToNumber c) 0

/-- The branch of the numbers. -/
def numberToken (L : Library) (t : Token) (c : Char) (l : Lexer) :
    Except Thrown (Token × Lexer) :=
  if c = '0' then
    let (x, l') := l.getc
    if x = some 'x' || x = some 'X' then
      let (s, stop, l'') := readWhile isHexdigit (l'.getc).1 (l'.getc).2
      if s = [] then
        .error (.runtimeError
          "invalid hexadecimal number, at least one digits was expected.".toList)
      else do
        let l''' ← l''.ungetc stop
        return ({ t with
          token := .integer, integer := (hexadecimalValue s).signExtend 128 }, l''')
    else do
      let l'' ← l'.ungetc x
      decimalToken L t '0' l''
  else decimalToken L t c l

/-- The branch of the identifiers, from their first character on. -/
def identifierToken (t : Token) (c : Char) (l : Lexer) : Except Thrown (Token × Lexer) := do
  let (s, stop, l') := readWhile isNameChar (some c) l
  let l'' ← l'.ungetc stop
  if s = "NaN".toList then
    return ({ t with token := .floatingPoint, floatingPoint := none }, l'')
  else return ({ t with token := .identifier, string := s }, l'')

lemma pending_readUntil_le (stop : Char) (l : Lexer) :
    (l.readUntil stop).2.pending ≤ l.pending := by
  fun_induction readUntil stop l with
  | case1 l l' h => simpa [h] using l.pending_getc_le
  | case2 l l' h => simpa [h] using l.pending_getc_le
  | case3 l c l' h hc s l'' hr ih =>
    have hle := l.pending_getc_le
    rw [h] at hle
    rw [hr] at ih
    exact ih.trans hle

/-- `lexer::next_token()` -/
def nextToken (L : Library) (l : Lexer) : Except Thrown (Token × Lexer) :=
  let t : Token := { line := l.line, column := l.column }
  match _h : l.getc with
  | (none, l') => .ok ({ t with token := .eof }, l')
  | (some c, l') =>
    if isBlank c then nextToken L l'
    else if c = '/' then
      match _h' : l'.getc with
      | (some '/', l'') => nextToken L (l''.readUntil '\n').2
      | (c, l'') => do
        let l''' ← l''.ungetc c
        return ({ t with token := .divide }, l''')
    else if c = '$' then .ok (l'.variableToken t)
    else if c = '@' then l'.timespecToken L t
    else if c = '<' then l'.addressToken L t
    else if isDigit c || c = '.' then l'.numberToken L t c
    else if isNameStart c then l'.identifierToken t c
    else
      match TokenType.single c, TokenType.quoted c with
      | some kind, _ => .ok ({ t with token := kind }, l')
      | none, some kind => l'.stringToken t kind c
      | none, none => .ok (l'.error t ("unexpected character (".toList ++ [c] ++ ").".toList))
termination_by l.pending
decreasing_by
  · have := pending_getc_lt (congrArg Prod.fst _h)
    rwa [_h] at this
  · have h₁ := pending_getc_lt (congrArg Prod.fst _h)
    have h₂ := pending_getc_lt (congrArg Prod.fst _h')
    rw [_h] at h₁
    rw [_h'] at h₂
    exact (pending_readUntil_le _ _).trans_lt (h₂.trans h₁)

end Lexer

end EventDispatcher.Reporter
