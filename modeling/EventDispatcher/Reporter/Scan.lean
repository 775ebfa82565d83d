import EventDispatcher.Reporter.Lexer

/-!
# What the lexer reads

The text that `getc()` still returns is `Lexer.remaining`.  `scan` says which token starts such a
text and which text is left after it, without positions and without the buffer of `ungetc()`,
and `next_token()` computes it (`agree_nextToken`).  So the tokens depend on the characters only.
-/

namespace EventDispatcher.Reporter

/-- The line ends as `getc()` reads them. -/
def lineEnds : Str → Str
  | [] => []
  | '\r' :: '\n' :: s => '\n' :: lineEnds s
  | c :: s => (if c = '\r' then '\n' else c) :: lineEnds s

namespace Lexer

/-- The characters that `getc()` returns from now on. -/
def remaining (l : Lexer) : Str := l.unget ++ lineEnds l.iterator

/-- The text `r` remains, and at most `n` of its characters were given back. -/
structure At (l : Lexer) (n : ℕ) (r : Str) : Prop where
  remaining : l.remaining = r
  unget : l.unget.length ≤ n

lemma At.mono {l : Lexer} {n m : ℕ} {r : Str} (h : l.At n r) (hnm : n ≤ m) : l.At m r :=
  ⟨h.remaining, h.unget.trans hnm⟩

/-- `getc()` takes the first character that remains. -/
lemma getc_spec (l : Lexer) :
    (l.getc).1 = l.remaining.head? ∧ (l.getc).2.remaining = l.remaining.tail := by
  unfold getc remaining
  rcases l.unget with _ | ⟨c, unget⟩
  · rcases l.iterator with _ | ⟨c, _ | ⟨d, rest⟩⟩
    · exact ⟨rfl, rfl⟩
    · by_cases hc : c = '\r' <;> by_cases hn : c = '\n' <;> simp [hc, hn, lineEnds]
    · by_cases hc : c = '\r'
      · by_cases hd : d = '\n' <;> simp [hc, hd, lineEnds]
      · by_cases hn : c = '\n' <;> simp [hc, hn, lineEnds]
  · exact ⟨rfl, rfl⟩

lemma getc_fst (l : Lexer) : (l.getc).1 = l.remaining.head? := l.getc_spec.1

lemma remaining_getc (l : Lexer) : (l.getc).2.remaining = l.remaining.tail := l.getc_spec.2

lemma unget_getc (l : Lexer) : (l.getc).2.unget = l.unget.tail := by
  rw [getc]
  rcases hu : l.unget with _ | ⟨c, unget⟩
  · rcases l.iterator with _ | ⟨c, rest⟩
    · simp
    · by_cases hc : c = '\r' <;> by_cases hn : c = '\n' <;> simp [hc, hn]
  · rfl

/-- The text that remains starts with the character that is read. -/
lemma remaining_of_getc {l l' : Lexer} {c : Char} (hget : l.getc = (some c, l')) :
    l.remaining = c :: l'.remaining := by
  obtain ⟨hhead, htail⟩ := l.getc_spec
  rw [hget] at hhead htail
  rw [htail]
  exact (List.cons_head?_tail hhead.symm).symm

lemma remaining_of_getc_none {l l' : Lexer} (hget : l.getc = (none, l')) : l.remaining = [] := by
  rw [← List.head?_eq_none_iff, ← l.getc_fst, hget]

/-- After a character was read, nothing is given back. -/
lemma at_of_getc {l l' : Lexer} {c : Option Char} (hunget : l.unget.length ≤ 1)
    (hget : l.getc = (c, l')) : l'.At 0 l'.remaining := by
  have htail := l.unget_getc
  rw [hget] at htail
  refine ⟨rfl, ?_⟩
  rw [htail, List.length_tail]
  omega

namespace At

variable {l : Lexer} {n : ℕ} {r : Str}

lemma unget_eq_nil (h : l.At 0 r) : l.unget = [] :=
  List.length_eq_zero_iff.mp (Nat.le_zero.mp h.unget)

lemma getc_fst (h : l.At n r) : (l.getc).1 = r.head? := by
  rw [l.getc_fst, h.remaining]

lemma getc_snd (h : l.At (n + 1) r) : (l.getc).2.At n r.tail :=
  ⟨by rw [remaining_getc, h.remaining], by
    rw [unget_getc, List.length_tail]
    have := h.unget
    omega⟩

/-- After the last character of the buffer of `ungetc()` the program is read. -/
lemma getc_zero (h : l.At 0 r) : (l.getc).2.At 0 r.tail :=
  (h.mono (Nat.zero_le 1)).getc_snd

/-- One character can always be given back. -/
lemma ungetc (h : l.At 0 r) (c : Option Char) :
    ∃ l' : Lexer, l.ungetc c = .ok l' ∧ l'.At 1 (c.toList ++ r) := by
  have hempty := h.unget_eq_nil
  cases c with
  | none => exact ⟨l, rfl, h.mono (Nat.zero_le 1)⟩
  | some c =>
    refine ⟨{ l with unget := c :: l.unget }, by simp [Lexer.ungetc, hempty], ?_, by simp [hempty]⟩
    rw [← h.remaining]
    rfl

lemma error (h : l.At n r) (t : Token) (msg : Str) : (l.error t msg).2.At n r :=
  ⟨h.remaining, h.unget⟩

end At

end Lexer

/-- The loops read the longest start of the text. -/
lemma Lexer.At.readWhile {l : Lexer} {r : Str} (p : Char → Bool) (h : l.At 1 r) :
    (l.getc.2.readWhile p l.getc.1).1 = r.takeWhile p ∧
      (l.getc.2.readWhile p l.getc.1).2.1 = (r.dropWhile p).head? ∧
      (l.getc.2.readWhile p l.getc.1).2.2.At 0 (r.dropWhile p).tail := by
  induction r generalizing l with
  | nil =>
    rw [h.getc_fst, List.head?_nil, Lexer.readWhile]
    exact ⟨rfl, rfl, h.getc_snd⟩
  | cons c r ih =>
    rw [h.getc_fst, List.head?_cons, Lexer.readWhile]
    by_cases hc : p c = true
    · obtain ⟨h₁, h₂, h₃⟩ := ih (h.getc_snd.mono (Nat.zero_le 1))
      simpa [hc, h₁, h₂] using h₃
    · simpa [hc] using h.getc_snd

/-- The character that ends a loop can be given back. -/
lemma Lexer.At.ungetc_readWhile {l : Lexer} {r : Str} (p : Char → Bool) (h : l.At 1 r) :
    ∃ l' : Lexer, (l.getc.2.readWhile p l.getc.1).2.2.ungetc (l.getc.2.readWhile p l.getc.1).2.1 =
      .ok l' ∧ l'.At 1 (r.dropWhile p) := by
  obtain ⟨-, hstop, hrest⟩ := h.readWhile p
  obtain ⟨l', hunget, hat⟩ := hrest.ungetc ((r.dropWhile p).head?)
  refine ⟨l', hstop ▸ hunget, ?_⟩
  cases hdrop : r.dropWhile p with
  | nil => simpa [hdrop] using hat
  | cons c r' => simpa [hdrop] using hat

/-- A loop that starts on a character it accepts. -/
lemma Lexer.readWhile_some {l : Lexer} {p : Char → Bool} {c : Char} (hc : p c = true) :
    l.readWhile p (some c) =
      (c :: (l.getc.2.readWhile p l.getc.1).1, (l.getc.2.readWhile p l.getc.1).2) := by
  rw [Lexer.readWhile, if_pos hc]

/-- The text up to a character, and what follows the character. -/
def upTo (stop : Char) : Str → Option Str × Str
  | [] => (none, [])
  | c :: r => if c = stop then (some [], r) else ((upTo stop r).1.map (c :: ·), (upTo stop r).2)

lemma Lexer.At.readUntil {l : Lexer} {r : Str} (stop : Char) (h : l.At 0 r) :
    (l.readUntil stop).1 = (upTo stop r).1 ∧ (l.readUntil stop).2.At 0 (upTo stop r).2 := by
  induction r generalizing l with
  | nil =>
    have hget := h.getc_zero
    have hfst := h.getc_fst
    rw [Lexer.readUntil]
    split
    next l' heq =>
      rw [heq] at hget
      exact ⟨rfl, hget⟩
    next c l' heq =>
      rw [heq] at hfst
      cases hfst
  | cons c r ih =>
    have hget := h.getc_zero
    have hfst := h.getc_fst
    rw [Lexer.readUntil]
    split
    next l' heq =>
      rw [heq] at hfst
      cases hfst
    next d l' heq =>
      rw [heq] at hget hfst
      cases hfst
      by_cases hc : c = stop
      · simpa [hc, upTo] using hget
      · obtain ⟨h₁, h₂⟩ := ih hget
        simpa [hc, upTo, h₁] using h₂

/-- The characters of a string and what follows its closing quote, or the message of an error. -/
def scanString (quote : Char) : Str → Except Thrown (Except Str Str × Str)
  | [] => .ok (.error "unterminated string.".toList, [])
  | '\\' :: [] => .ok (.error "unterminated backslash sequence in string.".toList, [])
  | '\\' :: d :: r => do
    let c ← Lexer.escape d
    let (s, r) ← scanString quote r
    return (s.map (c :: ·), r)
  | c :: r =>
    if c = '\n' then .ok (.error "strings cannot be written on multiple lines.".toList, r)
    else if c = quote then .ok (.ok [], r)
    else do
      let (s, r) ← scanString quote r
      return (s.map (c :: ·), r)

/-- A character of a string that starts no escape. -/
lemma scanString_cons {quote c : Char} (hb : c ≠ '\\') (r : Str) :
    scanString quote (c :: r) =
      if c = '\n' then .ok (.error "strings cannot be written on multiple lines.".toList, r)
      else if c = quote then .ok (.ok [], r)
      else (scanString quote r).map fun (s, r) => (s.map (c :: ·), r) := by
  rw [scanString]
  · split_ifs
    · rfl
    · rfl
    · cases scanString quote r <;> rfl
  · exact fun h _ => hb h
  · exact fun _ _ h _ => hb h

/-- The cases of `scanString` come with this in two parts. -/
lemma ne_backslash {c : Char} {r : Str} (hnil : c = '\\' → r = [] → False)
    (hcons : ∀ d r', c = '\\' → r = d :: r' → False) : c ≠ '\\' := by
  rintro rfl
  cases r with
  | nil => exact hnil rfl rfl
  | cons d r => exact hcons d r rfl rfl

/-- A result of the lexer and a result of a scan say the same: the token apart from its position,
and the text that is left. -/
def Agree : Except Thrown (Token × Lexer) → Except Thrown (Value × Str) → Prop
  | .ok (t, l), .ok (v, r) => t.toValue = v ∧ l.At 1 r
  | .error e, .error e' => e = e'
  | _, _ => False

lemma agree_ok {t : Token} {l : Lexer} {n : ℕ} {v : Value} {r : Str} (hv : t.toValue = v)
    (h : l.At n r) (hn : n ≤ 1) : Agree (.ok (t, l)) (.ok (v, r)) :=
  ⟨hv, h.mono hn⟩

lemma agree_error {t : Token} {l : Lexer} {n : ℕ} {v : Value} {r : Str} (msg : Str)
    (hv : { t.toValue with token := .error } = v) (h : l.At n r) (hn : n ≤ 1) :
    Agree (.ok (l.error t msg)) (.ok (v, r)) :=
  ⟨hv, (h.error t msg).mono hn⟩

/-- The same for the loop over a string. -/
def AgreeString :
    Except Thrown (Except Str Str × Lexer) → Except Thrown (Except Str Str × Str) → Prop
  | .ok (s, l), .ok (s', r) => s = s' ∧ l.At 0 r
  | .error e, .error e' => e = e'
  | _, _ => False

lemma AgreeString.cons {x : Except Thrown (Except Str Str × Lexer)}
    {y : Except Thrown (Except Str Str × Str)} (h : AgreeString x y) (c : Char) :
    AgreeString (x.map fun (s, l) => (s.map (c :: ·), l))
      (y.map fun (s, r) => (s.map (c :: ·), r)) := by
  cases x <;> cases y
  · exact h
  · exact h
  · exact h
  · exact ⟨by rw [h.1], h.2⟩

/-- Reading the next character: what `getc()` returns, and the lexer after it. -/
lemma Lexer.At.getc_eq {l : Lexer} {r : Str} (h : l.At 0 r) :
    ∃ l' : Lexer, l.getc = (r.head?, l') ∧ l'.At 0 r.tail :=
  ⟨(l.getc).2, Prod.ext h.getc_fst rfl, h.getc_zero⟩

/-- The end of the program in a string. -/
lemma Lexer.readString_of_none {l l' : Lexer} {quote : Char} (h : l.getc = (none, l')) :
    l.readString quote = .ok (.error "unterminated string.".toList, l') := by
  rw [Lexer.readString]
  split
  next heq =>
    cases h.symm.trans heq
    rfl
  next heq => cases h.symm.trans heq

/-- A character of a string that starts no escape. -/
lemma Lexer.readString_of_some {l l' : Lexer} {quote c : Char} (h : l.getc = (some c, l'))
    (hb : c ≠ '\\') :
    l.readString quote =
      if c = '\n' then .ok (.error "strings cannot be written on multiple lines.".toList, l')
      else if c = quote then .ok (.ok [], l')
      else (l'.readString quote).map fun (s, l) => (s.map (c :: ·), l) := by
  rw [Lexer.readString]
  split
  next heq => cases h.symm.trans heq
  next heq =>
    cases h.symm.trans heq
    rw [if_neg hb]
    cases l'.readString quote <;> rfl

/-- A backslash at the end of the program. -/
lemma Lexer.readString_of_backslash {l l' l'' : Lexer} {quote : Char}
    (h : l.getc = (some '\\', l')) (h' : l'.getc = (none, l'')) (hq : quote ≠ '\\') :
    l.readString quote =
      .ok (.error "unterminated backslash sequence in string.".toList, l'') := by
  rw [Lexer.readString]
  split
  next heq => cases h.symm.trans heq
  next heq =>
    cases h.symm.trans heq
    rw [if_neg (by decide), if_neg hq.symm, if_pos rfl]
    split
    next heq' =>
      cases h'.symm.trans heq'
      rfl
    next heq' => cases h'.symm.trans heq'

/-- A backslash in a string, and the character after it. -/
lemma Lexer.readString_of_escape {l l' l'' : Lexer} {quote d : Char}
    (h : l.getc = (some '\\', l')) (h' : l'.getc = (some d, l'')) (hq : quote ≠ '\\') :
    l.readString quote = Lexer.escape d >>= fun c =>
      (l''.readString quote).map fun (s, l) => (s.map (c :: ·), l) := by
  rw [Lexer.readString]
  split
  next heq => cases h.symm.trans heq
  next heq =>
    cases h.symm.trans heq
    rw [if_neg (by decide), if_neg hq.symm, if_pos rfl]
    split
    next heq' => cases h'.symm.trans heq'
    next heq' =>
      cases h'.symm.trans heq'
      cases Lexer.escape d with
      | error e => rfl
      | ok c => cases l''.readString quote <;> rfl

lemma Lexer.At.readString {l : Lexer} {r : Str} {quote : Char} (hq : quote ≠ '\\')
    (h : l.At 0 r) : AgreeString (l.readString quote) (scanString quote r) := by
  induction r using scanString.induct quote generalizing l with
  | case1 =>
    obtain ⟨l', hget, hat⟩ := h.getc_eq
    rw [Lexer.readString_of_none hget, scanString]
    exact ⟨rfl, hat⟩
  | case2 =>
    obtain ⟨l', hget, hat⟩ := h.getc_eq
    obtain ⟨l'', hget', hat'⟩ := hat.getc_eq
    rw [Lexer.readString_of_backslash hget hget' hq, scanString]
    exact ⟨rfl, hat'⟩
  | case3 d r ih =>
    obtain ⟨l', hget, hat⟩ := h.getc_eq
    obtain ⟨l'', hget', hat'⟩ := hat.getc_eq
    rw [Lexer.readString_of_escape hget hget' hq, scanString]
    cases Lexer.escape d with
    | error e => exact rfl
    | ok c => exact (ih hat').cons c
  | case4 r hnil hcons =>
    obtain ⟨l', hget, hat⟩ := h.getc_eq
    have hb := ne_backslash hnil hcons
    rw [Lexer.readString_of_some hget hb, scanString_cons hb, if_pos rfl, if_pos rfl]
    exact ⟨rfl, hat⟩
  | case5 r hnil hcons hn =>
    obtain ⟨l', hget, hat⟩ := h.getc_eq
    have hb := ne_backslash hnil hcons
    rw [Lexer.readString_of_some hget hb, scanString_cons hb, if_neg hn, if_neg hn, if_pos rfl,
      if_pos rfl]
    exact ⟨rfl, hat⟩
  | case6 c r hnil hcons hn hc ih =>
    obtain ⟨l', hget, hat⟩ := h.getc_eq
    have hb := ne_backslash hnil hcons
    rw [Lexer.readString_of_some hget hb, scanString_cons hb, if_neg hn, if_neg hn, if_neg hc,
      if_neg hc]
    exact (ih hat).cons c

/-! ### The branches -/

/-- A variable of a text without digits at the start. -/
def scanName (s r : Str) : Value × Str :=
  match s with
  | [] => ({ token := .error }, r)
  | c :: _ => if c ≤ '9' then ({ token := .error }, r) else ({ token := .variable, string := s }, r)

/-- What `'$'` starts. -/
def scanVariable : Str → Value × Str
  | '\x7b' :: r =>
    if (r.dropWhile isNameChar).head? = some '\x7d' then
      scanName (r.takeWhile isNameChar) (r.dropWhile isNameChar).tail
    else ({ token := .error }, (r.dropWhile isNameChar).tail)
  | r => scanName (r.takeWhile isNameChar) (r.dropWhile isNameChar).tail

/-- The token of a timestamp that was read. -/
def scanTimestamp (s : Str) (timestamp : Int64 × Int64) (r : Str) : Value × Str :=
  if s = [] then ({ token := .error, integer := timestampInteger timestamp }, r)
  else ({ token := .timespec, integer := timestampInteger timestamp, string := s }, r)

/-- What `'@'` starts. -/
def scanTimespec (L : Library) (r : Str) : Except Thrown (Value × Str) :=
  match r with
  | [] => do
    let s ← L.endOfString
    return scanTimestamp s (← L.timespec s) []
  | c :: r =>
    if c = '\'' || c = '"' then
      match upTo c r with
      | (none, r) => .ok ({ token := .error }, r)
      | (some s, r) => do return scanTimestamp s (← L.fromString s) r
    else do
      let s := c :: r.takeWhile isTimestampChar
      return scanTimestamp s (← L.timespec s) (r.dropWhile isTimestampChar)

/-- What `'<'` starts. -/
def scanAddress (L : Library) (r : Str) : Except Thrown (Value × Str) :=
  match upTo '>' r with
  | (none, r) => .ok ({ token := .error }, r)
  | (some s, r) =>
    if s = [] then .ok ({ token := .error }, r)
    else if s = ['='] then .ok ({ token := .compare }, r)
    else
      match L.parseAddress s with
      | .errors => .ok ({ token := .error }, r)
      | .range =>
        .error (.logicError "parsing of address did not fail with a range.".toList)
      | .address text => .ok ({ token := .address, string := text }, r)

/-- What a quote starts. -/
def scanQuoted (kind : TokenType) (quote : Char) (r : Str) : Except Thrown (Value × Str) := do
  let (s, r) ← scanString quote r
  match s with
  | .error _ => return ({ token := .error }, r)
  | .ok s => return ({ token := kind, string := s }, r)

/-- A decimal number with the characters `s`. -/
def scanDecimal (L : Library) (s r : Str) : Value × Str :=
  if s.any isFloatChar then
    match L.convertDouble (if s.head? = some '.' then '0' :: s else s) with
    | none => ({ token := .error }, r)
    | some value => ({ token := .floatingPoint, floatingPoint := value }, r)
  else
    match L.convertInteger s with
    | none => ({ token := .error }, r)
    | some value => ({ token := .integer, integer := value.toBitVec.signExtend 128 }, r)

/-- What a digit or a period starts. -/
def scanNumber (L : Library) (c : Char) (r : Str) : Except Thrown (Value × Str) :=
  if c = '0' && (r.head? = some 'x' || r.head? = some 'X') then
    let s := r.tail.takeWhile isHexdigit
    if s = [] then
      .error (.runtimeError
        "invalid hexadecimal number, at least one digits was expected.".toList)
    else .ok ({ token := .integer, integer := (Lexer.hexadecimalValue s).signExtend 128 },
      r.tail.dropWhile isHexdigit)
  else .ok (scanDecimal L (c :: r.takeWhile isNumberChar) (r.dropWhile isNumberChar))

/-- What a letter or an underscore starts. -/
def scanIdentifier (c : Char) (r : Str) : Value × Str :=
  let s := c :: r.takeWhile isNameChar
  if s = "NaN".toList then
    ({ token := .floatingPoint, floatingPoint := none }, r.dropWhile isNameChar)
  else ({ token := .identifier, string := s }, r.dropWhile isNameChar)

section Branches

variable {L : Library} {t : Token} {l : Lexer} {r : Str}

lemma agree_variableToken (ht : t.toValue = {}) (h : l.At 0 r) :
    Agree (.ok (l.variableToken t)) (.ok (scanVariable r)) := by
  have named : ∀ (s : Str) (l : Lexer) (r : Str), l.At 0 r →
      Agree (.ok (match s with
        | [] => l.error t "unexpected '$' without a variable name.".toList
        | c :: _ =>
          if c ≤ '9' then l.error t "variable name cannot start with a digit.".toList
          else ({ t with token := .variable, string := s }, l))) (.ok (scanName s r)) := by
    intro s l r h
    unfold scanName
    cases s with
    | nil => exact agree_error _ (by rw [ht]) h (Nat.zero_le 1)
    | cons c s =>
      dsimp only
      split_ifs
      · exact agree_error _ (by rw [ht]) h (Nat.zero_le 1)
      · exact agree_ok (by rw [ht]) h (Nat.zero_le 1)
  obtain ⟨l', hget, hat⟩ := h.getc_eq
  rw [Lexer.variableToken]
  -- the character behind the name is the closing brace, or it is lost
  by_cases hbrace : r.head? = some '\x7b'
  · obtain ⟨r', rfl⟩ := List.head?_eq_some_iff.mp hbrace
    obtain ⟨hs, hstop, hrest⟩ := (hat.mono (Nat.zero_le 1)).readWhile isNameChar
    simp only [hget, List.head?_cons, scanVariable, List.tail_cons] at hs hstop hrest ⊢
    rw [hs, hstop]
    split_ifs
    · exact named _ _ _ hrest
    · exact agree_error _ (by rw [ht]) hrest (Nat.zero_le 1)
  · have hscan : scanVariable r =
        scanName (r.takeWhile isNameChar) (r.dropWhile isNameChar).tail := by
      unfold scanVariable
      split
      · simp at hbrace
      · rfl
    obtain ⟨hs, hstop, hrest⟩ := (h.mono (Nat.zero_le 1)).readWhile isNameChar
    rw [hget] at hs hrest
    rw [hscan, hget]
    split
    next heq => exact absurd (congrArg Prod.fst heq) hbrace
    next heq =>
      cases heq
      rw [← hs]
      exact named _ _ _ hrest

/-- A result that depends on the value another library computes. -/
lemma agree_bind {α : Type} (x : Except Thrown α) {f : α → Except Thrown (Token × Lexer)}
    {g : α → Except Thrown (Value × Str)} (h : ∀ a, Agree (f a) (g a)) :
    Agree (x >>= f) (x >>= g) := by
  cases x with
  | error e => exact rfl
  | ok a => exact h a

lemma agree_timespecToken (ht : t.toValue = {}) (h : l.At 0 r) :
    Agree (l.timespecToken L t) (scanTimespec L r) := by
  have named : ∀ (s : Str) (timestamp : Int64 × Int64) (l : Lexer) (r : Str) (n : ℕ),
      l.At n r → n ≤ 1 →
      Agree (.ok (if s = [] then
          l.error { t with integer := timestampInteger timestamp }
            "unexpected '@' without a timestamp.".toList
        else ({ t with
          integer := timestampInteger timestamp, token := .timespec, string := s }, l)))
        (.ok (scanTimestamp s timestamp r)) := by
    intro s timestamp l r n h hn
    rw [scanTimestamp]
    split_ifs
    · exact agree_error _ (by simp [ht]) h hn
    · exact agree_ok (by simp [ht]) h hn
  obtain ⟨l', hget, hat⟩ := h.getc_eq
  obtain ⟨hs, -, -⟩ := (hat.mono (Nat.zero_le 1)).readWhile isTimestampChar
  obtain ⟨l'', hunget, hat'⟩ := (hat.mono (Nat.zero_le 1)).ungetc_readWhile isTimestampChar
  unfold Lexer.timespecToken scanTimespec
  cases r with
  | nil =>
    simp only [hget, List.head?_nil, hs, hunget]
    refine agree_bind L.endOfString fun s => ?_
    simp only [List.tail_nil, List.takeWhile_nil, List.append_nil]
    exact agree_bind (L.timespec s) fun timestamp => named s timestamp l'' [] 1 hat' le_rfl
  | cons c r =>
    simp only [hget, List.head?_cons, Option.some.injEq, Option.getD_some, hs, hunget]
    split_ifs
    · obtain ⟨hsome, hrest⟩ := hat.readUntil c
      rw [List.tail_cons] at hsome hrest
      rw [hsome]
      rcases hu : upTo c r with ⟨s, r'⟩
      rw [hu] at hrest
      cases s with
      | none => exact agree_error _ (by rw [ht]) hrest (Nat.zero_le 1)
      | some s =>
        exact agree_bind (L.fromString s) fun timestamp =>
          named s timestamp _ r' 0 hrest (Nat.zero_le 1)
    · exact agree_bind (L.timespec (c :: r.takeWhile isTimestampChar)) fun timestamp =>
        named _ timestamp l'' _ 1 hat' le_rfl

lemma agree_addressToken (ht : t.toValue = {}) (h : l.At 0 r) :
    Agree (l.addressToken L t) (scanAddress L r) := by
  obtain ⟨hs, hat⟩ := h.readUntil '>'
  rw [Lexer.addressToken, scanAddress]
  rcases hu : upTo '>' r with ⟨s, r'⟩
  rcases hr : l.readUntil '>' with ⟨s', l'⟩
  rw [hu, hr] at hs hat
  obtain rfl : s' = s := hs
  cases s' with
  | none => exact agree_error _ (by rw [ht]) hat (Nat.zero_le 1)
  | some s =>
    dsimp only
    split_ifs with hnil heq
    · exact agree_error _ (by rw [ht]) hat (Nat.zero_le 1)
    · exact agree_ok (by rw [ht]) hat (Nat.zero_le 1)
    · cases L.parseAddress s with
      | errors => exact agree_error _ (by rw [ht]) hat (Nat.zero_le 1)
      | range => exact rfl
      | address text => exact agree_ok (by rw [ht]) hat (Nat.zero_le 1)

lemma agree_stringToken {kind : TokenType} {quote : Char} (hq : quote ≠ '\\')
    (ht : t.toValue = {}) (h : l.At 0 r) :
    Agree (l.stringToken t kind quote) (scanQuoted kind quote r) := by
  have hstring := h.readString hq
  rw [Lexer.stringToken, scanQuoted]
  rcases hx : l.readString quote with e | ⟨s, l'⟩ <;>
    rcases hy : scanString quote r with e' | ⟨s', r'⟩ <;> rw [hx, hy] at hstring
  · exact hstring
  · exact False.elim hstring
  · exact False.elim hstring
  · obtain ⟨rfl, hat⟩ := hstring
    cases s with
    | error msg => exact agree_error _ (by rw [ht]) hat (Nat.zero_le 1)
    | ok s => exact agree_ok (by rw [ht]) hat (Nat.zero_le 1)

/-- A name starts with a character of names that is not a digit. -/
lemma isNameStart_iff {c : Char} : isNameStart c = true ↔ isNameChar c = true ∧ ¬ c ≤ '9' := by
  have hupper : 'A' ≤ c → ¬ c ≤ '9' := fun h h' => absurd (h.trans h') (by decide)
  have hlower : 'a' ≤ c → ¬ c ≤ '9' := fun h h' => absurd (h.trans h') (by decide)
  have hunderscore : c = '_' → ¬ c ≤ '9' := by
    rintro rfl
    decide
  simp only [isNameStart, isNameChar, isDigit, Bool.or_eq_true, Bool.and_eq_true,
    decide_eq_true_eq]
  constructor
  · rintro ((h | h) | h)
    · exact ⟨Or.inl (Or.inl (Or.inl h)), hupper h.1⟩
    · exact ⟨Or.inl (Or.inl (Or.inr h)), hlower h.1⟩
    · exact ⟨Or.inr h, hunderscore h⟩
  · rintro ⟨((h | h) | h) | h, hdigit⟩
    · exact Or.inl (Or.inl h)
    · exact Or.inl (Or.inr h)
    · exact absurd h.2 hdigit
    · exact Or.inr h

/-- A number starts with a character that goes on one. -/
lemma isNumberChar_of_start {c : Char} (h : (isDigit c || c = '.') = true) :
    isNumberChar c = true := by
  rw [Bool.or_eq_true, decide_eq_true_eq] at h
  rcases h with hdigit | hdot
  · simp [isNumberChar, hdigit]
  · simp [isNumberChar, hdot]

lemma agree_decimalToken {c : Char} (hc : isNumberChar c = true) (ht : t.toValue = {})
    (h : l.At 1 r) : Agree (l.decimalToken L t c)
      (.ok (scanDecimal L (c :: r.takeWhile isNumberChar) (r.dropWhile isNumberChar))) := by
  obtain ⟨hs, -, -⟩ := h.readWhile isNumberChar
  obtain ⟨l', hunget, hat⟩ := h.ungetc_readWhile isNumberChar
  rw [Lexer.decimalToken, scanDecimal]
  simp only [Lexer.readWhile_some hc, hs, hunget]
  by_cases hfloat : (c :: r.takeWhile isNumberChar).any isFloatChar = true
  · simp only [hfloat, if_true]
    cases L.convertDouble (if (c :: r.takeWhile isNumberChar).head? = some '.' then
        '0' :: c :: r.takeWhile isNumberChar else c :: r.takeWhile isNumberChar) with
    | none => exact agree_error _ (by rw [ht]) hat le_rfl
    | some value => exact agree_ok (by rw [ht]) hat le_rfl
  · simp only [hfloat, if_false, Bool.false_eq_true]
    cases L.convertInteger (c :: r.takeWhile isNumberChar) with
    | none => exact agree_error _ (by rw [ht]) hat le_rfl
    | some value => exact agree_ok (by rw [ht]) hat le_rfl

lemma agree_numberToken {c : Char} (hc : isNumberChar c = true) (ht : t.toValue = {})
    (h : l.At 0 r) : Agree (l.numberToken L t c) (scanNumber L c r) := by
  rw [Lexer.numberToken, scanNumber]
  by_cases hzero : c = '0'
  · subst hzero
    obtain ⟨l', hget, hat⟩ := h.getc_eq
    simp only [hget, if_true, decide_true, Bool.true_and]
    by_cases hx : (decide (r.head? = some 'x') || decide (r.head? = some 'X')) = true
    · obtain ⟨hs, -, -⟩ := (hat.mono (Nat.zero_le 1)).readWhile isHexdigit
      obtain ⟨l'', hunget, hat'⟩ := (hat.mono (Nat.zero_le 1)).ungetc_readWhile isHexdigit
      simp only [hx, if_true, hs, hunget]
      split_ifs
      · exact rfl
      · exact agree_ok (by rw [ht]) hat' le_rfl
    · obtain ⟨l'', hunget, hat'⟩ := hat.ungetc r.head?
      have hr : r.head?.toList ++ r.tail = r := by cases r <;> rfl
      rw [hr] at hat'
      simp only [hx, hunget]
      exact agree_decimalToken (by decide) ht hat'
  · simp only [hzero, if_false, decide_false, Bool.false_and, Bool.false_eq_true]
    exact agree_decimalToken hc ht (h.mono (Nat.zero_le 1))

lemma agree_identifierToken {c : Char} (hc : isNameChar c = true) (ht : t.toValue = {})
    (h : l.At 0 r) : Agree (l.identifierToken t c) (.ok (scanIdentifier c r)) := by
  obtain ⟨hs, -, -⟩ := (h.mono (Nat.zero_le 1)).readWhile isNameChar
  obtain ⟨l', hunget, hat⟩ := (h.mono (Nat.zero_le 1)).ungetc_readWhile isNameChar
  rw [Lexer.identifierToken, scanIdentifier]
  simp only [Lexer.readWhile_some hc, hs, hunget]
  change Agree (ite _ _ _) _
  split_ifs
  · exact agree_ok (by rw [ht]) hat le_rfl
  · exact agree_ok (by rw [ht]) hat le_rfl

end Branches

/-! ### The next token -/

/-- The text after the blanks and the comments at its start; the flag tells that it starts
within a comment. -/
def skip : Bool → Str → Str
  | _, [] => []
  | true, c :: r => if c = '\n' then skip false r else skip true r
  | false, c :: r =>
    if isBlank c then skip false r
    else if c = '/' && r.head? = some '/' then skip true r
    else c :: r

lemma skip_true (r : Str) : skip true r = skip false (upTo '\n' r).2 := by
  induction r with
  | nil => rfl
  | cons c r ih =>
    by_cases hc : c = '\n'
    · simp [skip, upTo, hc]
    · simpa [skip, upTo, hc] using ih

/-- A blank is skipped. -/
lemma skip_cons_of_isBlank {c : Char} (hc : isBlank c = true) (r : Str) :
    skip false (c :: r) = skip false r := by
  rw [skip, if_pos hc]

/-- A comment is skipped, with the end of its line. -/
lemma skip_comment (r : Str) :
    skip false ('/' :: '/' :: r) = skip false (upTo '\n' r).2 := by
  rw [← skip_true]
  rfl

lemma length_upTo_le (stop : Char) (r : Str) : (upTo stop r).2.length ≤ r.length := by
  induction r with
  | nil => exact le_rfl
  | cons c r ih =>
    by_cases hc : c = stop
    · simp [upTo, hc]
    · simp only [upTo, hc, if_false, List.length_cons]
      omega

/-- The token that starts with the character `c`, and the text after it. -/
def scanToken (L : Library) (c : Char) (r : Str) : Except Thrown (Value × Str) :=
  if c = '/' then .ok ({ token := .divide }, r)
  else if c = '$' then .ok (scanVariable r)
  else if c = '@' then scanTimespec L r
  else if c = '<' then scanAddress L r
  else if isDigit c || c = '.' then scanNumber L c r
  else if isNameStart c then .ok (scanIdentifier c r)
  else
    match TokenType.single c, TokenType.quoted c with
    | some kind, _ => .ok ({ token := kind }, r)
    | none, some kind => scanQuoted kind c r
    | none, none => .ok ({ token := .error }, r)

/-- The first token of a text, and the text after it. -/
def scan (L : Library) (r : Str) : Except Thrown (Value × Str) :=
  match skip false r with
  | [] => .ok ({ token := .eof }, [])
  | c :: r => scanToken L c r

/-- A blank does not change the tokens. -/
lemma scan_cons_of_isBlank (L : Library) {c : Char} (hc : isBlank c = true) (r : Str) :
    scan L (c :: r) = scan L r := by
  rw [scan, scan, skip_cons_of_isBlank hc]

lemma scan_comment (L : Library) (r : Str) :
    scan L ('/' :: '/' :: r) = scan L (upTo '\n' r).2 := by
  rw [scan, scan, skip_comment]

lemma skip_cons_self {c : Char} {r : Str} (hc : isBlank c = false)
    (hslash : c = '/' → r.head? ≠ some '/') : skip false (c :: r) = c :: r := by
  rw [skip, hc, if_neg Bool.false_ne_true, if_neg]
  rw [Bool.and_eq_true, decide_eq_true_eq, decide_eq_true_eq]
  exact fun ⟨h, h'⟩ => hslash h h'

lemma scan_cons (L : Library) {c : Char} {r : Str} (hc : isBlank c = false)
    (hslash : c = '/' → r.head? ≠ some '/') : scan L (c :: r) = scanToken L c r := by
  rw [scan, skip_cons_self hc hslash]

lemma quoted_ne_backslash {c : Char} {kind : TokenType} (h : TokenType.quoted c = some kind) :
    c ≠ '\\' := by
  rintro rfl
  cases h

/-- A branch that starts on a character other than a slash. -/
lemma scan_cons_token (L : Library) {c : Char} {r : Str} (hblank : ¬ isBlank c = true)
    (hslash : ¬ c = '/') : scan L (c :: r) = scanToken L c r :=
  scan_cons L (Bool.not_eq_true _ ▸ hblank) fun h => absurd h hslash

/-- **`next_token()` computes the scan.** -/
theorem agree_nextToken (L : Library) {l : Lexer} {r : Str} (h : l.At 1 r) :
    Agree (l.nextToken L) (scan L r) := by
  obtain ⟨rfl, hunget⟩ := h
  fun_induction Lexer.nextToken L l with
  | case1 l t l' hget =>
    have hnil : l'.remaining = [] := by
      have htail := l.remaining_getc
      rw [hget, Lexer.remaining_of_getc_none hget] at htail
      exact htail
    rw [Lexer.remaining_of_getc_none hget]
    exact agree_ok rfl (hnil ▸ Lexer.at_of_getc hunget hget) (Nat.zero_le 1)
  | case2 l c l' hget hblank ih =>
    have hat := Lexer.at_of_getc hunget hget
    rw [Lexer.remaining_of_getc hget, scan_cons_of_isBlank L hblank]
    exact ih (hat.unget.trans (Nat.zero_le 1))
  | case3 l l' l'' hget' hget hblank ih =>
    -- a comment, up to the end of its line
    have hat := Lexer.at_of_getc hunget hget
    have hat' := Lexer.at_of_getc (hat.unget.trans (Nat.zero_le 1)) hget'
    obtain ⟨-, hafter⟩ := hat'.readUntil '\n'
    rw [Lexer.remaining_of_getc hget, Lexer.remaining_of_getc hget', scan_comment,
      ← hafter.remaining]
    exact ih (hafter.unget.trans (Nat.zero_le 1))
  | case4 l t l' c l'' hne hget' hget hblank =>
    -- a division, whose next character is given back
    have hat := Lexer.at_of_getc hunget hget
    obtain ⟨l₂, hnext, hat'⟩ := hat.getc_eq
    cases hnext.symm.trans hget'
    obtain ⟨l₃, hgive, hat''⟩ := hat'.ungetc l'.remaining.head?
    have hr : l'.remaining.head?.toList ++ l'.remaining.tail = l'.remaining := by
      cases l'.remaining <;> rfl
    rw [hr] at hat''
    rw [Lexer.remaining_of_getc hget, scan_cons L (Bool.not_eq_true _ ▸ hblank) fun _ => hne, hgive]
    exact agree_ok rfl hat'' le_rfl
  | case5 l t l' hget hblank hslash =>
    rw [Lexer.remaining_of_getc hget, scan_cons_token L hblank hslash]
    exact agree_variableToken rfl (Lexer.at_of_getc hunget hget)
  | case6 l t l' hget hblank hslash hvariable =>
    rw [Lexer.remaining_of_getc hget, scan_cons_token L hblank hslash]
    exact agree_timespecToken rfl (Lexer.at_of_getc hunget hget)
  | case7 l t l' hget hblank hslash hvariable htimespec =>
    rw [Lexer.remaining_of_getc hget, scan_cons_token L hblank hslash]
    exact agree_addressToken rfl (Lexer.at_of_getc hunget hget)
  | case8 l t c l' hget hblank hslash hvariable htimespec haddress hnumber =>
    rw [Lexer.remaining_of_getc hget, scan_cons_token L hblank hslash, scanToken, if_neg hslash,
      if_neg hvariable, if_neg htimespec, if_neg haddress, if_pos hnumber]
    exact agree_numberToken (isNumberChar_of_start hnumber) rfl (Lexer.at_of_getc hunget hget)
  | case9 l t c l' hget hblank hslash hvariable htimespec haddress hnumber hname =>
    have hc := (isNameStart_iff.mp hname).1
    rw [Lexer.remaining_of_getc hget, scan_cons_token L hblank hslash, scanToken, if_neg hslash,
      if_neg hvariable, if_neg htimespec, if_neg haddress, if_neg hnumber, if_pos hname]
    exact agree_identifierToken hc rfl (Lexer.at_of_getc hunget hget)
  | case10 l t c l' hget hblank hslash hvariable htimespec haddress hnumber hname kind hkind =>
    rw [Lexer.remaining_of_getc hget, scan_cons_token L hblank hslash, scanToken, if_neg hslash,
      if_neg hvariable, if_neg htimespec, if_neg haddress, if_neg hnumber, if_neg hname, hkind]
    exact agree_ok rfl (Lexer.at_of_getc hunget hget) (Nat.zero_le 1)
  | case11 l t c l' hget hblank hslash hvariable htimespec haddress hnumber hname kind hquoted
      hkind =>
    rw [Lexer.remaining_of_getc hget, scan_cons_token L hblank hslash, scanToken, if_neg hslash,
      if_neg hvariable, if_neg htimespec, if_neg haddress, if_neg hnumber, if_neg hname, hkind,
      hquoted]
    exact agree_stringToken (quoted_ne_backslash hquoted) rfl (Lexer.at_of_getc hunget hget)
  | case12 l t c l' hget hblank hslash hvariable htimespec haddress hnumber hname hquoted hkind =>
    rw [Lexer.remaining_of_getc hget, scan_cons_token L hblank hslash, scanToken, if_neg hslash,
      if_neg hvariable, if_neg htimespec, if_neg haddress, if_neg hnumber, if_neg hname, hkind,
      hquoted]
    exact agree_error _ rfl (Lexer.at_of_getc hunget hget) (Nat.zero_le 1)

end EventDispatcher.Reporter
