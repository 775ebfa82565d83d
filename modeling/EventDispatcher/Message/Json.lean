import EventDispatcher.Message.Text
import EventDispatcher.Lib.Decimal

/-!
# The JSON format of a message

`Message.toJson` writes a message as a JSON object and `Message.fromJson` reads one.  The
tokenizer comes from *libutf8* and the test whether a value is a number from *advgetopt*:
`JsonTokens` and `ValidatorDouble` list what the code relies on.  The reader is a machine over
the tokens, whose `Point`s are the calls of `next_token()`.
-/

namespace EventDispatcher

open Lib Lib.Json

/-- A token of *libutf8*; the numbers are doubles. -/
abbrev JsonToken := Token Binary64

/-- The tokenizer of *libutf8*. -/
structure JsonTokens where
  /-- What the calls of `json_tokens::next_token()` return before `TOKEN_END`. -/
  tokens : Str → List JsonToken
  /-- Without an error, the tokens are those of the text in standard JSON. -/
  tokens_eq_iff : ∀ s l, Token.invalid ∉ l → (tokens s = l ↔ Lexes Binary64.nearest s l)

namespace JsonTokens

/-- The tokenizer that gives one error for a text that is not JSON. -/
def standard : JsonTokens where
  tokens s := (lex Binary64.nearest s).getD [.invalid]
  tokens_eq_iff s l hl := by
    rw [lexes_iff]
    cases lex Binary64.nearest s with
    | some l' => simp
    | none =>
      simp only [Option.getD_none, reduceCtorEq, iff_false]
      rintro rfl
      exact hl (by simp)

instance : Inhabited JsonTokens := ⟨standard⟩

end JsonTokens

/-- The floating point validator of *advgetopt*. -/
structure ValidatorDouble where
  /-- Whether `validator_double::convert_string()` converts the text. -/
  convertString : Str → Bool
  /-- Only decimal floating point numbers are converted. -/
  convertString_sound : ∀ v, convertString v = true → isDecimalFloat v = true

/-- The validator that converts every decimal floating point number. -/
def ValidatorDouble.standard : ValidatorDouble := ⟨isDecimalFloat, fun _ h => h⟩

instance : Inhabited ValidatorDouble := ⟨.standard⟩

/-! ### Writing -/

/-- The names of the members of the object. -/
def NameField.key : NameField → Str
  | sentFromServer => "sent-from-server".toList
  | sentFromService => "sent-from-service".toList
  | server => "server".toList
  | service => "service".toList

/-- The name of the member that holds the command. -/
def commandKey : Str := "command".toList

/-- The name of the member that holds the parameters. -/
def parametersKey : Str := "parameters".toList

/-- The texts of the two values that are written as words. -/
def booleanText (b : Bool) : Str := if b then "true".toList else "false".toList

/-- The pairs `to_json()` replaces in a string. -/
def jsonEscapes : Pairs Char :=
  [(['\\'], ['\\', '\\']), (['"'], ['\\', '"']), (['\n'], ['\\', 'n']), (['\r'], ['\\', 'r'])]

/-- The pairs `from_json()` replaces in a string. -/
def jsonUnescapes : Pairs Char :=
  [(['\\', '"'], ['"']), (['\\', '\\'], ['\\']), (['\\', 'n'], ['\n']), (['\\', 'r'], ['\r'])]

/-- A number without its plus sign. -/
def dropPlus : Str → Str
  | '+' :: s => s
  | s => s

/-- A value as `to_json()` writes it. -/
def valueJson (S : Snapdev) (V : ValidatorDouble) (value : Str) : Str :=
  if value = booleanText true then booleanText true
  else if value = booleanText false then booleanText false
  else if V.convertString value then dropPlus value
  else '"' :: (S.stringReplaceMany value jsonEscapes ++ ['"'])

/-- The parameters as `to_json()` writes them, a comma before each one but the first. -/
def parametersJson (S : Snapdev) (V : ValidatorDouble) : Bool → List (Str × Str) → Str
  | _, [] => []
  | first, p :: ps =>
      (if first then [] else [',']) ++
        '"' :: (p.1 ++ '"' :: ':' :: (valueJson S V p.2 ++ parametersJson S V false ps))

/-- The start of a member whose value is a string, up to the opening quote of the value. -/
def openMember (key : Str) : Str := '"' :: (key ++ ['"', ':', '"'])

namespace Fields

/-- One of the two sent-from members, with its comma. -/
def memberJson (f : Fields) (field : NameField) : Str :=
  if f.name field ≠ [] then openMember field.key ++ (f.name field ++ ['"', ',']) else []

/-- The destination; the source writes neither the closing quote nor the comma after the
service. -/
def destinationJson (f : Fields) : Str :=
  if f.service ≠ [] then
    f.memberJson .server ++ (openMember NameField.service.key ++ f.service)
  else []

/-- The text that `to_json()` computes from the fields. -/
def json (S : Snapdev) (V : ValidatorDouble) (f : Fields) : Str :=
  '\x7b' :: (f.memberJson .sentFromServer ++ (f.memberJson .sentFromService ++
    (f.destinationJson ++ (openMember commandKey ++ (f.command ++ '"' ::
      ((if f.parameters.entries ≠ [] then
          ',' :: '"' :: (parametersKey ++ '"' :: ':' :: '\x7b' ::
            (parametersJson S V true f.parameters.entries ++ ['\x7d']))
        else []) ++ ['\x7d']))))))

end Fields

/-- The text of the exception of `to_json()`. -/
def noJsonCommandText : Str :=
  ("message::to_json(): cannot build a valid JSON message without at least a "
    ++ "command.").toList

/-- `message::to_json()`: the text, and the message with its cache filled. -/
def Message.toJson (S : Snapdev) (V : ValidatorDouble) (m : Message) :
    Except Exception (Str × Message) :=
  if m.cachedJson = [] then
    if m.command = [] then .error ⟨.invalidMessage, noJsonCommandText⟩
    else .ok (m.json S V, { m with cachedJson := m.json S V })
  else .ok (m.cachedJson, m)

/-! ### Reading -/

/-- The conversion of a double to `std::int64_t`; out of its range, what x86-64 gives. -/
def castInt64 : Binary64 → ℤ
  | .finite q => if -2 ^ 63 ≤ q ∧ q < 2 ^ 63 then q.num.tdiv q.den else -2 ^ 63
  | .infinite _ => -2 ^ 63

/-- The value of a number: an integer without decimals, or six decimals. -/
def numberText : Binary64 → Str
  | .finite q => if q = ⌊q⌋ then intText (castInt64 (.finite q)) else roundedText q
  | .infinite negative => intText (castInt64 (.infinite negative))

/-- The value of a parameter. -/
def tokenValue (S : Snapdev) : JsonToken → Option Str
  | .string v => some (S.stringReplaceMany v jsonUnescapes)
  | .number x => some (numberText x)
  | .boolean b => some (booleanText b)
  | .null => some []
  | _ => none

/-- A member whose value is a string; the unknown ones are ignored. -/
def Fields.setMember (f : Fields) (name value : Str) : Fields :=
  if name = NameField.sentFromServer.key then f.putName .sentFromServer value
  else if name = NameField.sentFromService.key then f.putName .sentFromService value
  else if name = NameField.server.key then f.putName .server value
  else if name = NameField.service.key then f.putName .service value
  else if name = commandKey then { f with command := value }
  else f

namespace Fields

lemma setMember_key (f : Fields) (field : NameField) (x : Str) :
    f.setMember field.key x = f.putName field x := by
  cases field <;> rfl

lemma setMember_commandKey (f : Fields) (x : Str) :
    f.setMember commandKey x = { f with command := x } := rfl

/-- A member that is unknown changes nothing. -/
lemma setMember_unknown (f : Fields) {name : Str} (x : Str)
    (hkey : ∀ field, name ≠ NameField.key field) (hcommand : name ≠ commandKey) :
    f.setMember name x = f := by
  rw [setMember, if_neg (hkey _), if_neg (hkey _), if_neg (hkey _), if_neg (hkey _),
    if_neg hcommand]

end Fields

lemma NameField.key_inj {a b : NameField} (h : a.key = b.key) : a = b := by
  revert h
  cases a <;> cases b <;> decide

lemma NameField.key_ne_commandKey (a : NameField) : a.key ≠ commandKey := by
  cases a <;> decide

/-- The calls of `next_token()` in `from_json()`. -/
inductive Point where
  /-- The first token. -/
  | start
  /-- The name of a member. -/
  | memberName
  /-- The colon after the name of a member. -/
  | memberColon (name : Str)
  /-- The value of a member. -/
  | memberValue (name : Str)
  /-- The first token in the object of the parameters. -/
  | firstParameter
  /-- The name of a parameter after a comma. -/
  | parameterName
  /-- The colon after the name of a parameter. -/
  | parameterColon (name : Str)
  /-- The value of a parameter. -/
  | parameterValue (name : Str)
  /-- What follows a parameter. -/
  | afterParameter
  /-- What follows a member. -/
  | afterMember
  /-- The end of the text. -/
  | closed
deriving DecidableEq

/-- The reader: the next call of `next_token()`, and the local variables. -/
structure Reader where
  /-- The call. -/
  point : Point
  /-- The names, the command and the parameters read so far. -/
  fields : Fields
deriving DecidableEq

namespace Reader

/-- What the reader does with one token; `none` where `from_json()` returns false. -/
def next (S : Snapdev) (r : Reader) (t : JsonToken) : Option Reader :=
  match r.point, t with
  | .start, .openObject => some { r with point := .memberName }
  | .memberName, .string name => some { r with point := .memberColon name }
  | .memberColon name, .colon => some { r with point := .memberValue name }
  | .memberValue name, .openObject =>
      -- a member that is an object has to be the one of the parameters
      if name = parametersKey then some { r with point := .firstParameter } else none
  | .memberValue name, .string v => some ⟨.afterMember, r.fields.setMember name v⟩
  | .firstParameter, .closeObject => some { r with point := .afterMember }
  | .firstParameter, .string name => some { r with point := .parameterColon name }
  | .parameterName, .string name => some { r with point := .parameterColon name }
  | .parameterColon name, .colon => some { r with point := .parameterValue name }
  | .parameterValue name, t =>
      (tokenValue S t).map fun v =>
        ⟨.afterParameter, { r.fields with parameters := r.fields.parameters.insert name v }⟩
  | .afterParameter, .closeObject => some { r with point := .afterMember }
  | .afterParameter, .comma => some { r with point := .parameterName }
  | .afterMember, .closeObject => some { r with point := .closed }
  | .afterMember, .comma => some { r with point := .memberName }
  | _, _ => none

/-- The reader after a list of tokens. -/
def run (S : Snapdev) : Reader → List JsonToken → Option Reader
  | r, [] => some r
  | r, t :: l =>
      match r.next S t with
      | none => none
      | some r => run S r l

/-- The reader at its first token. -/
def initial : Reader := ⟨.start, {}⟩

end Reader

/-- The fields that the tokens of a message hold. -/
def parseTokens (S : Snapdev) (l : List JsonToken) : Option Fields :=
  match Reader.initial.run S l with
  | some ⟨.closed, f⟩ => some f
  | _ => none

/-- The fields that `message::from_json()` reads from a text. -/
def parseJson (S : Snapdev) (J : JsonTokens) (msg : Str) : Option Fields :=
  parseTokens S (J.tokens msg)

/-- `message::from_json()`: whether the text was accepted, and the message after the call. -/
def Message.fromJson (S : Snapdev) (J : JsonTokens) (m : Message) (msg : Str) : Bool × Message :=
  match parseJson S J msg with
  | none => (false, m)
  -- the cached JSON text stays
  | some f => (true, { m with toFields := f, cachedMessage := [] })

/-! ### The reader over lists of tokens -/

namespace Reader

variable {S : Snapdev}

lemma run_cons {r r' : Reader} {t : JsonToken} {l : List JsonToken} (h : r.next S t = some r') :
    r.run S (t :: l) = r'.run S l := by
  rw [run, h]

/-- An error is never read. -/
lemma next_invalid (r : Reader) : r.next S .invalid = none := by
  obtain ⟨point, f⟩ := r
  cases point <;> rfl

lemma invalid_notMem_of_run {r r' : Reader} {l : List JsonToken} (h : r.run S l = some r') :
    Token.invalid ∉ l := by
  induction l generalizing r with
  | nil => simp
  | cons t l ih =>
    rw [run] at h
    split at h
    · cases h
    · rename_i r₁ hr₁
      rw [List.mem_cons, not_or]
      refine ⟨?_, ih h⟩
      rintro rfl
      rw [next_invalid] at hr₁
      cases hr₁

end Reader

/-- **What `from_json()` accepts** is standard JSON whose tokens the reader follows to the end. -/
theorem parseJson_eq_some_iff {S : Snapdev} {J : JsonTokens} {msg : Str} {f : Fields} :
    parseJson S J msg = some f ↔
      ∃ l, Lexes Binary64.nearest msg l ∧ parseTokens S l = some f := by
  constructor
  · intro h
    have hvalid : Token.invalid ∉ J.tokens msg := by
      unfold parseJson parseTokens at h
      split at h
      · rename_i hrun
        exact Reader.invalid_notMem_of_run hrun
      · cases h
    exact ⟨J.tokens msg, (J.tokens_eq_iff msg _ hvalid).mp rfl, h⟩
  · rintro ⟨l, hl, hf⟩
    rw [parseJson, (J.tokens_eq_iff msg l hl.invalid_notMem).mpr hl, hf]

end EventDispatcher
