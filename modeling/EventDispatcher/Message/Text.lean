import EventDispatcher.Message.Message

/-!
# The string format of a message

`Message.toString` writes a message on one line and `Message.fromString` reads it back.  The
reader is written as the source has it, a pointer walking over a C string being the list of the
characters from that pointer to the end: `parseSentFrom`, `scanRouting` and `parseParameters`
are its three parts, and `parseString` the function that fills the six fields.
-/

namespace EventDispatcher

open Lib

/-! ### Writing -/

/-- The pairs `to_string()` replaces in every value. -/
def textEscapes : Pairs Char :=
  [(['\\'], ['\\', '\\']), (['\n'], ['\\', 'n']), (['\r'], ['\\', 'r'])]

/-- The pairs `to_string()` replaces in a value it puts between quotes. -/
def quotedEscapes : Pairs Char := textEscapes ++ [(['"'], ['\\', '"'])]

/-- The pairs `from_string()` replaces in every value. -/
def textUnescapes : Pairs Char :=
  [(['\\', '\\'], ['\\']), (['\\', 'n'], ['\n']), (['\\', 'r'], ['\r'])]

/-- Whether a value is written between quotes. -/
def needsQuotes (value : Str) : Bool := value.contains ';' || value.head? == some '"'

/-- A value as `to_string()` writes it. -/
def valueText (S : Snapdev) (value : Str) : Str :=
  if needsQuotes value then '"' :: (S.stringReplaceMany value quotedEscapes ++ ['"'])
  else S.stringReplaceMany value textEscapes

/-- The parameters as `to_string()` writes them, `sep` before the first one and a semicolon
before each other one. -/
def parametersText (S : Snapdev) : Char → List (Str × Str) → Str
  | _, [] => []
  | sep, p :: ps => sep :: (p.1 ++ '=' :: (valueText S p.2 ++ parametersText S ';' ps))

namespace Fields

/-- `'<' <sent-from-server> ':' <sent-from-service> ' '` -/
def sentFromText (f : Fields) : Str :=
  if f.sentFromServer ≠ [] ∨ f.sentFromService ≠ [] then
    '<' :: (f.sentFromServer ++ ':' :: (f.sentFromService ++ [' ']))
  else []

/-- `[<server> ':'] <service> '/'` -/
def destinationText (f : Fields) : Str :=
  if f.service ≠ [] then
    (if f.server ≠ [] then f.server ++ [':'] else []) ++ (f.service ++ ['/'])
  else []

/-- The text that `to_string()` computes from the fields. -/
def text (S : Snapdev) (f : Fields) : Str :=
  f.sentFromText ++ (f.destinationText ++
    (f.command ++ parametersText S ' ' f.parameters.entries))

end Fields

/-- The text of the exception of `to_string()`. -/
def noCommandText : Str :=
  "message::to_message(): cannot build a valid message without at least a command.".toList

/-- `message::to_string()`: the text, and the message with its cache filled. -/
def Message.toString (S : Snapdev) (m : Message) : Except Exception (Str × Message) :=
  if m.cachedMessage = [] then
    if m.command = [] then .error ⟨.invalidMessage, noCommandText⟩
    else .ok (m.text S, { m with cachedMessage := m.text S })
  else .ok (m.cachedMessage, m)

/-! ### Reading -/

/-- The sent-from server, up to the colon; a space in it is an error. -/
def scanSentFromServer : Str → Option (Str × Str)
  | [] => some ([], [])
  | c :: m =>
      if c = ':' then some ([], c :: m)
      else if c = ' ' then none
      else (scanSentFromServer m).map fun r => (c :: r.1, r.2)

/-- The sent-from names when the text starts with `'<'`, and the rest of the text. -/
def parseSentFrom (m : Str) : Option ((Str × Str) × Str) :=
  match m with
  | '<' :: m =>
    match scanSentFromServer m with
    | some (server, _ :: m) =>
      match m.dropWhile fun c => c != ' ' with
      | [] => none
      | _ :: rest => some ((server, m.takeWhile fun c => c != ' '), rest)
    | _ => none
  | m => some (([], []), m)

/-- What the loop over the destination and the command has read so far. -/
structure Routing where
  /-- A colon was read. -/
  hasServer : Bool := false
  /-- A slash was read. -/
  hasService : Bool := false
  /-- The name before the colon. -/
  server : Str := []
  /-- The name before the slash. -/
  service : Str := []
  /-- The name being read. -/
  command : Str := []
deriving DecidableEq

/-- The loop over the destination and the command, up to a space. -/
def scanRouting : Routing → Str → Option (Routing × Str)
  | r, [] => some (r, [])
  | r, c :: m =>
      if c = ' ' then some (r, c :: m)
      else if c = ':' then
        -- no second server, and none after the service
        if r.hasServer || r.hasService || r.command.isEmpty then none
        else scanRouting { r with hasServer := true, server := r.command, command := [] } m
      else if c = '/' then
        if r.hasService || r.command.isEmpty then none
        else scanRouting { r with hasService := true, service := r.command, command := [] } m
      else scanRouting { r with command := r.command ++ [c] } m

/-- A quoted value, after its opening quote: the characters up to the closing quote, the
backslash of an escaped quote being dropped. -/
def scanQuoted : Str → Option (Str × Str)
  | [] => none
  | '"' :: m => some ([], m)
  | '\\' :: '"' :: m => (scanQuoted m).map fun r => ('"' :: r.1, r.2)
  | c :: m => (scanQuoted m).map fun r => (c :: r.1, r.2)

/-- A value, quoted or up to the semicolon. -/
def scanValue : Str → Option (Str × Str)
  | '"' :: m => scanQuoted m
  | m => some (m.takeWhile fun c => c != ';', m.dropWhile fun c => c != ';')

/-- One parameter: its name and value, and the rest of the text. -/
def parseParameter (S : Snapdev) (m : Str) : Option ((Str × Str) × Str) :=
  let name := m.takeWhile fun c => c != '='
  if name = [] then none
  else
    match verifyMessageName S name with
    | .error _ => none
    | .ok () =>
      match m.dropWhile fun c => c != '=' with
      | [] => none
      | _ :: m =>
        match scanValue m with
        | none => none
        | some (value, m) =>
          let original := S.stringReplaceMany value textUnescapes
          match m with
          | [] => some ((name, original), [])
          -- only a closing quote can be followed by something else
          | c :: m => if c = ';' then some ((name, original), m) else none

/-- The loop over the parameters; each turn reads at least one character, so as many turns as
there are characters are enough. -/
def parseParameters (S : Snapdev) : ℕ → SortedMap Str Str → Str → Option (SortedMap Str Str)
  | _, ps, [] => some ps
  | 0, _, _ :: _ => none
  | n + 1, ps, c :: m =>
      match parseParameter S (c :: m) with
      | none => none
      | some (p, m) => parseParameters S n (ps.insert p.1 p.2) m

/-- The fields that `message::from_string()` reads from a text. -/
def parseString (S : Snapdev) (originalMessage : Str) : Option Fields :=
  match parseSentFrom (cStr (S.trimString originalMessage)) with
  | none => none
  | some (sentFrom, m) =>
    match scanRouting {} m with
    | none => none
    | some (r, m) =>
      if r.command = [] then none
      else
        match m with
        | [] => some ⟨sentFrom.1, sentFrom.2, r.server, r.service, r.command, ∅⟩
        | _ :: m =>
          (parseParameters S m.length ∅ m).map fun ps =>
            ⟨sentFrom.1, sentFrom.2, r.server, r.service, r.command, ps⟩

/-- `message::from_string()`: whether the text was accepted, and the message after the call. -/
def Message.fromString (S : Snapdev) (m : Message) (originalMessage : Str) : Bool × Message :=
  match parseString S originalMessage with
  | none => (false, m)
  | some f => (true, { m with toFields := f, cachedMessage := [] })

/-! ### The escapings as codes -/

/-- The word a character is written as. -/
def textCode (c : Char) : Str :=
  if c = '\\' then ['\\', '\\'] else if c = '\n' then ['\\', 'n'] else if c = '\r' then ['\\', 'r']
  else [c]

/-- The word a character is written as between quotes. -/
def quotedCode (c : Char) : Str := if c = '"' then ['\\', '"'] else textCode c

lemma textUnescapes_keys : KeysNonempty textUnescapes := by
  rw [KeysNonempty]
  decide

lemma textUnescapes_values : ValuesNonempty textUnescapes := by
  rw [ValuesNonempty]
  decide

lemma stringReplaceMany_textEscapes (S : Snapdev) (v : Str) :
    S.stringReplaceMany v textEscapes = v.flatMap textCode := by
  rw [S.stringReplaceMany_eq (by unfold KeysNonempty; decide),
    replaceMany_letterwise (by decide)]
  congr 1
  ext1 c
  simp only [textEscapes, letterCode_cons, letterCode_nil, textCode]

lemma stringReplaceMany_quotedEscapes (S : Snapdev) (v : Str) :
    S.stringReplaceMany v quotedEscapes = v.flatMap quotedCode := by
  rw [S.stringReplaceMany_eq (by unfold KeysNonempty; decide),
    replaceMany_letterwise (by decide)]
  congr 1
  ext1 c
  by_cases h : c = '"'
  · subst h
    rfl
  · simp only [quotedEscapes, textEscapes, List.cons_append, List.nil_append, letterCode_cons,
      letterCode_nil, quotedCode, textCode, h, if_false]

lemma valueText_eq (S : Snapdev) (v : Str) :
    valueText S v =
      if needsQuotes v then '"' :: (v.flatMap quotedCode ++ ['"']) else v.flatMap textCode := by
  rw [valueText, stringReplaceMany_textEscapes, stringReplaceMany_quotedEscapes]

/-- The unescaping reads the word of a character back, whatever follows. -/
lemma replaceMany_textUnescapes_textCode (c : Char) (s : Str) :
    replaceMany textUnescapes (textCode c ++ s) = c :: replaceMany textUnescapes s := by
  rw [textCode]
  by_cases h₁ : c = '\\'
  · subst h₁
    exact replaceMany_hit (k := ['\\', '\\']) (v := ['\\']) (by simp) rfl
  · by_cases h₂ : c = '\n'
    · subst h₂
      exact replaceMany_hit (k := ['\\', 'n']) (v := ['\n']) (by simp) rfl
    · by_cases h₃ : c = '\r'
      · subst h₃
        exact replaceMany_hit (k := ['\\', 'r']) (v := ['\r']) (by simp) rfl
      · rw [if_neg h₁, if_neg h₂, if_neg h₃]
        refine replaceMany_skip ?_
        simp [firstMatch, textUnescapes, List.isPrefixOf, Ne.symm h₁]

/-- Unescaping what was escaped gives the value back. -/
lemma stringReplaceMany_textUnescapes (S : Snapdev) (v : Str) :
    S.stringReplaceMany (v.flatMap textCode) textUnescapes = v := by
  rw [S.stringReplaceMany_eq textUnescapes_keys]
  simpa using replaceMany_flatMap replaceMany_textUnescapes_textCode v []

end EventDispatcher
