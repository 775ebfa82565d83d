import EventDispatcher.Reporter.Scan
import EventDispatcher.Lib.Run

/-!
# The lexemes of a program

A token is written by a lexeme, and lexemes are separated by white space and comments (`Gap`).
A call of `next_token()` reads a gap, the lexeme of the token it returns and, behind a variable
written without braces, the character that ends the name (`scan_covers`).  That character is not
given back, so the lexemes cover a program exactly when it is always white space
(`neverLoses_iff`).
-/

namespace EventDispatcher.Reporter

open Lib

/-! ### Gaps and lexemes -/

/-- White space and comments, each comment with the newline that ends it. -/
inductive Gap : Str → Prop
  /-- Nothing. -/
  | nil : Gap []
  /-- A white space. -/
  | blank {c : Char} {s : Str} : isBlank c = true → Gap s → Gap (c :: s)
  /-- A comment. -/
  | comment {body s : Str} : '\n' ∉ body → Gap s → Gap ('/' :: '/' :: (body ++ '\n' :: s))

/-- What may stand at the very end of a program: a comment without a newline. -/
inductive LastComment : Str → Prop
  /-- Nothing. -/
  | nil : LastComment []
  /-- A comment. -/
  | comment {body : Str} : '\n' ∉ body → LastComment ('/' :: '/' :: body)

/-- The name of a variable. -/
inductive IsName : Str → Prop
  /-- The first character and the others. -/
  | mk {c : Char} {s : Str} :
    isNameStart c = true → (∀ d ∈ s, isNameChar d = true) → IsName (c :: s)

/-- The string that is written between quotes. -/
inductive Unescapes (quote : Char) : Str → Str → Prop
  /-- Nothing. -/
  | nil : Unescapes quote [] []
  /-- A character that stands for itself. -/
  | char {c : Char} {body s : Str} : c ≠ '\n' → c ≠ quote → c ≠ '\\' →
      Unescapes quote body s → Unescapes quote (c :: body) (c :: s)
  /-- A character behind a backslash. -/
  | escape {d c : Char} {body s : Str} : Lexer.escape d = .ok c →
      Unescapes quote body s → Unescapes quote ('\\' :: d :: body) (c :: s)

/-- The texts that write a token.  An error stands for any text, and the end of the program for
the comment it may close. -/
inductive Lexeme (L : Library) : Value → Str → Prop
  /-- The end of the program. -/
  | eof {x : Str} : LastComment x → Lexeme L { token := .eof } x
  /-- An error. -/
  | error {v : Value} {x : Str} : v.token = .error → Lexeme L v x
  /-- A token of one character. -/
  | single {c : Char} {kind : TokenType} : TokenType.single c = some kind →
      Lexeme L { token := kind } [c]
  /-- A slash. -/
  | divide : Lexeme L { token := .divide } ['/']
  /-- A variable. -/
  | variable {n : Str} : IsName n → Lexeme L { token := .variable, string := n } ('$' :: n)
  /-- A variable between braces. -/
  | bracedVariable {n : Str} : IsName n →
      Lexeme L { token := .variable, string := n } ('$' :: '\x7b' :: (n ++ ['\x7d']))
  /-- A date between quotes. -/
  | date {q : Char} {s : Str} {time : Int64 × Int64} : q = '\'' ∨ q = '"' → q ∉ s → s ≠ [] →
      L.fromString s = .ok time →
      Lexeme L { token := .timespec, integer := timestampInteger time, string := s }
        ('@' :: q :: (s ++ [q]))
  /-- A timestamp in seconds. -/
  | timestamp {c : Char} {s : Str} {time : Int64 × Int64} : c ≠ '\'' → c ≠ '"' →
      (∀ d ∈ s, isTimestampChar d = true) → L.timespec (c :: s) = .ok time →
      Lexeme L { token := .timespec, integer := timestampInteger time, string := c :: s }
        ('@' :: c :: s)
  /-- A timestamp at the end of the program. -/
  | lastTimestamp {s : Str} {time : Int64 × Int64} : L.endOfString = .ok s → s ≠ [] →
      L.timespec s = .ok time →
      Lexeme L { token := .timespec, integer := timestampInteger time, string := s } ['@']
  /-- The comparison. -/
  | compare : Lexeme L { token := .compare } ['<', '=', '>']
  /-- An address. -/
  | address {s text : Str} : '>' ∉ s → L.parseAddress s = .address text →
      Lexeme L { token := .address, string := text } ('<' :: (s ++ ['>']))
  /-- A string. -/
  | string {q : Char} {kind : TokenType} {body s : Str} : TokenType.quoted q = some kind →
      Unescapes q body s → Lexeme L { token := kind, string := s } (q :: (body ++ [q]))
  /-- A hexadecimal number. -/
  | hexadecimal {x : Char} {s : Str} : x = 'x' ∨ x = 'X' → s ≠ [] →
      (∀ d ∈ s, isHexdigit d = true) →
      Lexeme L { token := .integer, integer := (Lexer.hexadecimalValue s).signExtend 128 }
        ('0' :: x :: s)
  /-- A decimal number. -/
  | integer {s : Str} {value : Int64} : s ≠ [] → (∀ d ∈ s, isNumberChar d = true) →
      s.any isFloatChar = false → L.convertInteger s = some value →
      Lexeme L { token := .integer, integer := value.toBitVec.signExtend 128 } s
  /-- A floating point number. -/
  | floatingPoint {s : Str} {value : Double} : (∀ d ∈ s, isNumberChar d = true) →
      s.any isFloatChar = true →
      L.convertDouble (if s.head? = some '.' then '0' :: s else s) = some value →
      Lexeme L { token := .floatingPoint, floatingPoint := value } s
  /-- The number that is not one. -/
  | nan : Lexeme L { token := .floatingPoint, floatingPoint := none } "NaN".toList
  /-- An identifier. -/
  | identifier {n : Str} : IsName n → Lexeme L { token := .identifier, string := n } n

/-- The character behind the name at the start of a text. -/
def afterName : Str → Option Char
  | c :: r => if isNameStart c then (r.dropWhile isNameChar).head? else none
  | [] => none

/-- The character behind the name of a variable without braces, when the first token of the text
is such a variable. -/
def afterVariable (r : Str) : Option Char :=
  match skip false r with
  | '$' :: r => afterName r
  | _ => none

lemma afterVariable_of_skip {r s : Str} (h : skip false r = '$' :: s) :
    afterVariable r = afterName s := by
  rw [afterVariable, h]
  rfl

lemma afterVariable_eq_none {r s : Str} {c : Char} (h : skip false r = c :: s) (hc : c ≠ '$') :
    afterVariable r = none := by
  rw [afterVariable, h]
  split
  next heq => exact absurd (List.cons.inj heq).1 hc
  next => rfl

/-! ### What the parts of a scan read -/

lemma forall_mem_takeWhile {p : Char → Bool} {r : Str} : ∀ d ∈ r.takeWhile p, p d = true :=
  fun _ hd => List.mem_takeWhile_imp hd

lemma upTo_some {stop : Char} {r s r' : Str} (h : upTo stop r = (some s, r')) :
    r = s ++ stop :: r' ∧ stop ∉ s := by
  induction r generalizing s with
  | nil => cases h
  | cons c r ih =>
    rw [upTo] at h
    split_ifs at h with hc
    · cases h
      exact ⟨by rw [hc, List.nil_append], List.not_mem_nil⟩
    · rcases hu : upTo stop r with ⟨_ | s', r''⟩ <;> rw [hu] at h
      · cases h
      · cases h
        obtain ⟨hr, hmem⟩ := ih hu
        refine ⟨by rw [hr, List.cons_append], ?_⟩
        rw [List.mem_cons, not_or]
        exact ⟨fun heq => hc heq.symm, hmem⟩

lemma upTo_none {stop : Char} {r r' : Str} (h : upTo stop r = (none, r')) :
    r' = [] ∧ stop ∉ r := by
  induction r with
  | nil => exact ⟨(congrArg Prod.snd h).symm, List.not_mem_nil⟩
  | cons c r ih =>
    rw [upTo] at h
    split_ifs at h with hc
    · cases h
    rcases hu : upTo stop r with ⟨_ | s', r''⟩ <;> rw [hu] at h
    · cases h
      obtain ⟨hr, hmem⟩ := ih hu
      refine ⟨hr, ?_⟩
      rw [List.mem_cons, not_or]
      exact ⟨fun heq => hc heq.symm, hmem⟩
    · cases h

/-- The blanks and comments that are skipped are a gap, and at the end of the program perhaps a
comment. -/
lemma skip_spec (r : Str) : ∃ g x, Gap g ∧ LastComment x ∧ r = g ++ x ++ skip false r ∧
    (x ≠ [] → skip false r = []) := by
  -- a comment takes many characters at once
  induction hn : r.length using Nat.strong_induction_on generalizing r with
  | _ n ih =>
  subst hn
  cases r with
  | nil => exact ⟨[], [], .nil, .nil, rfl, fun _ => rfl⟩
  | cons c r =>
    by_cases hblank : isBlank c = true
    · obtain ⟨g, x, hg, hx, hr, hlast⟩ := ih r.length (by simp) r rfl
      have hskip := skip_cons_of_isBlank hblank r
      refine ⟨c :: g, x, .blank hblank hg, hx, ?_, by rwa [hskip]⟩
      rw [hskip, List.cons_append, List.cons_append, ← hr]
    rw [Bool.not_eq_true] at hblank
    by_cases hslash : c = '/' ∧ r.head? = some '/'
    · obtain ⟨rfl, hhead⟩ := hslash
      obtain ⟨r', rfl⟩ := List.head?_eq_some_iff.mp hhead
      rw [skip_comment]
      rcases hu : upTo '\n' r' with ⟨_ | body, r''⟩
      · obtain ⟨rfl, hmem⟩ := upTo_none hu
        exact ⟨[], _, .nil, .comment hmem, (List.append_nil _).symm, fun _ => rfl⟩
      · obtain ⟨rfl, hmem⟩ := upTo_some hu
        obtain ⟨g, x, hg, hx, hr, hlast⟩ := ih r''.length (by simp; omega) r'' rfl
        refine ⟨_, x, .comment hmem hg, hx, ?_, hlast⟩
        conv_lhs => rw [hr]
        simp
    · refine ⟨[], [], .nil, .nil, ?_, fun h => absurd rfl h⟩
      rw [skip_cons_self hblank fun h h' => hslash ⟨h, h'⟩]
      rfl

/-- The gap in front of a variable is skipped. -/
lemma Gap.skip_append {g : Str} (hg : Gap g) (r : Str) : skip false (g ++ r) = skip false r := by
  induction hg with
  | nil => rfl
  | blank hc _ ih => rw [List.cons_append, skip_cons_of_isBlank hc, ih]
  | @comment body s hbody _ ih =>
    have hclose : skip true (body ++ '\n' :: (s ++ r)) = skip false (s ++ r) := by
      induction body with
      | nil => rfl
      | cons c body ih =>
        rw [List.mem_cons, not_or] at hbody
        rw [List.cons_append, skip, if_neg fun h => hbody.1 h.symm]
        exact ih hbody.2
    rw [← ih, ← hclose]
    simp [skip, isBlank]

lemma scanString_ok {q : Char} {r r' s : Str} (h : scanString q r = .ok (.ok s, r')) :
    ∃ body, r = body ++ q :: r' ∧ Unescapes q body s := by
  induction r using scanString.induct q generalizing s with
  | case1 => cases h
  | case2 => cases h
  | case3 d r ih =>
    rw [scanString] at h
    rcases hd : Lexer.escape d with e | c
    · rw [hd] at h
      cases h
    rcases hs : scanString q r with e | ⟨e | s', r''⟩ <;> rw [hd, hs] at h <;> cases h
    obtain ⟨body, rfl, hbody⟩ := ih hs
    exact ⟨'\\' :: d :: body, rfl, .escape hd hbody⟩
  | case4 r hnil hcons =>
    rw [scanString_cons (ne_backslash hnil hcons), if_pos rfl] at h
    cases h
  | case5 r hnil hcons hn =>
    rw [scanString_cons (ne_backslash hnil hcons), if_neg hn, if_pos rfl] at h
    cases h
    exact ⟨[], rfl, .nil⟩
  | case6 c r hnil hcons hn hc ih =>
    have hb := ne_backslash hnil hcons
    rw [scanString_cons hb, if_neg hn, if_neg hc] at h
    rcases hs : scanString q r with e | ⟨e | s', r''⟩ <;> rw [hs] at h <;> cases h
    obtain ⟨body, rfl, hbody⟩ := ih hs
    exact ⟨c :: body, rfl, .char hn hc hb hbody⟩

/-- What is left of a string is the end of the text. -/
lemma scanString_suffix {q : Char} {r r' : Str} {s : Except Str Str}
    (h : scanString q r = .ok (s, r')) : ∃ x, r = x ++ r' := by
  induction r using scanString.induct q generalizing s with
  | case1 =>
    cases h
    exact ⟨[], rfl⟩
  | case2 =>
    cases h
    exact ⟨['\\'], rfl⟩
  | case3 d r ih =>
    rw [scanString] at h
    rcases hd : Lexer.escape d with e | c
    · rw [hd] at h
      cases h
    rcases hs : scanString q r with e | ⟨s', r''⟩ <;> rw [hd, hs] at h <;> cases h
    obtain ⟨x, rfl⟩ := ih hs
    exact ⟨'\\' :: d :: x, rfl⟩
  | case4 r hnil hcons =>
    rw [scanString_cons (ne_backslash hnil hcons), if_pos rfl] at h
    cases h
    exact ⟨['\n'], rfl⟩
  | case5 r hnil hcons hn =>
    rw [scanString_cons (ne_backslash hnil hcons), if_neg hn, if_pos rfl] at h
    cases h
    exact ⟨[q], rfl⟩
  | case6 c r hnil hcons hn hc ih =>
    rw [scanString_cons (ne_backslash hnil hcons), if_neg hn, if_neg hc] at h
    rcases hs : scanString q r with e | ⟨s', r''⟩ <;> rw [hs] at h <;> cases h
    obtain ⟨x, rfl⟩ := ih hs
    exact ⟨c :: x, rfl⟩

/-! ### What the branches read -/

section Branches

variable {L : Library} {c : Char} {r r' : Str} {v : Value}

/-- The text is a lexeme of the token and the rest, and the token is not the end of the program. -/
def Reads (L : Library) (v : Value) (r r' : Str) : Prop :=
  ∃ x, Lexeme L v x ∧ v.token ≠ .eof ∧ r = x ++ r'

lemma Reads.error (hv : v.token = .error) {x : Str} (h : r = x ++ r') : Reads L v r r' :=
  ⟨x, .error hv, by rw [hv]; exact nofun, h⟩

lemma TokenType.single_ne_eof {kind : TokenType} (h : TokenType.single c = some kind) :
    kind ≠ .eof := by
  rintro rfl
  unfold TokenType.single at h
  split at h <;> cases h

lemma TokenType.quoted_ne_eof {kind : TokenType} (h : TokenType.quoted c = some kind) :
    kind ≠ .eof := by
  rintro rfl
  unfold TokenType.quoted at h
  split at h <;> cases h

lemma reads_scanIdentifier (hc : isNameStart c = true) (h : scanIdentifier c r = (v, r')) :
    Reads L v (c :: r) r' := by
  unfold scanIdentifier at h
  dsimp only at h
  split_ifs at h with hnan
  · cases h
    refine ⟨"NaN".toList, .nan, nofun, ?_⟩
    rw [← hnan, List.cons_append, List.takeWhile_append_dropWhile]
  · cases h
    refine ⟨_, .identifier (.mk hc forall_mem_takeWhile), nofun, ?_⟩
    rw [List.cons_append, List.takeWhile_append_dropWhile]

lemma reads_scanDecimal (hc : isNumberChar c = true)
    (h : scanDecimal L (c :: r.takeWhile isNumberChar) (r.dropWhile isNumberChar) = (v, r')) :
    Reads L v (c :: r) r' := by
  have hr : c :: r = (c :: r.takeWhile isNumberChar) ++ r.dropWhile isNumberChar := by
    rw [List.cons_append, List.takeWhile_append_dropWhile]
  have hall : ∀ d ∈ c :: r.takeWhile isNumberChar, isNumberChar d = true := by
    intro d hd
    rcases List.mem_cons.mp hd with rfl | hd
    · exact hc
    · exact forall_mem_takeWhile d hd
  rw [hr]
  have hne : c :: r.takeWhile isNumberChar ≠ [] := List.cons_ne_nil _ _
  generalize c :: r.takeWhile isNumberChar = s at h hall hne
  unfold scanDecimal at h
  by_cases hfloat : s.any isFloatChar = true
  · rw [if_pos hfloat] at h
    rcases hvalue : L.convertDouble (if s.head? = some '.' then '0' :: s else s) with _ | value <;>
      rw [hvalue] at h <;> cases h
    · exact .error rfl rfl
    · exact ⟨s, .floatingPoint hall hfloat hvalue, nofun, rfl⟩
  · rw [if_neg hfloat] at h
    rw [Bool.not_eq_true] at hfloat
    rcases hvalue : L.convertInteger s with _ | value <;> rw [hvalue] at h <;> cases h
    · exact .error rfl rfl
    · exact ⟨s, .integer hne hall hfloat hvalue, nofun, rfl⟩

lemma reads_scanNumber (hc : isNumberChar c = true) (h : scanNumber L c r = .ok (v, r')) :
    Reads L v (c :: r) r' := by
  unfold scanNumber at h
  split_ifs at h with hhex
  · rw [Bool.and_eq_true, Bool.or_eq_true, decide_eq_true_eq, decide_eq_true_eq,
      decide_eq_true_eq] at hhex
    obtain ⟨rfl, hx⟩ := hhex
    dsimp only at h
    split_ifs at h with hnil
    cases h
    rcases r with _ | ⟨x, r⟩
    · simp at hx
    rw [List.head?_cons, Option.some.injEq, Option.some.injEq] at hx
    refine ⟨_, .hexadecimal hx hnil forall_mem_takeWhile, nofun, ?_⟩
    rw [List.tail_cons, List.cons_append, List.cons_append, List.takeWhile_append_dropWhile]
  · exact reads_scanDecimal hc (Except.ok.inj h)

lemma reads_scanQuoted {kind : TokenType} (hkind : TokenType.quoted c = some kind)
    (h : scanQuoted kind c r = .ok (v, r')) : Reads L v (c :: r) r' := by
  unfold scanQuoted at h
  rcases hs : scanString c r with e | ⟨msg | s, r''⟩ <;> rw [hs] at h <;> cases h
  · obtain ⟨x, rfl⟩ := scanString_suffix hs
    exact .error rfl (List.cons_append ..).symm
  · obtain ⟨body, rfl, hbody⟩ := scanString_ok hs
    exact ⟨_, .string hkind hbody, TokenType.quoted_ne_eof hkind, by simp⟩

lemma reads_scanAddress (h : scanAddress L r = .ok (v, r')) : Reads L v ('<' :: r) r' := by
  unfold scanAddress at h
  rcases hs : upTo '>' r with ⟨_ | s, r''⟩ <;> rw [hs] at h
  · cases h
    obtain ⟨rfl, -⟩ := upTo_none hs
    exact .error rfl (List.append_nil _).symm
  · obtain ⟨rfl, hmem⟩ := upTo_some hs
    have hr : '<' :: (s ++ '>' :: r'') = '<' :: (s ++ ['>']) ++ r'' := by simp
    rw [hr]
    dsimp only at h
    split_ifs at h with hnil heq
    · cases h
      exact .error rfl rfl
    · cases h
      rw [heq]
      exact ⟨_, .compare, nofun, rfl⟩
    · rcases haddress : L.parseAddress s with _ | _ | text <;> rw [haddress] at h <;> cases h
      · exact .error rfl rfl
      · exact ⟨_, .address hmem haddress, nofun, rfl⟩

/-- A timestamp that was read is an error, or has a text. -/
lemma reads_scanTimestamp {s x : Str} {time : Int64 × Int64} (h : scanTimestamp s time r = (v, r'))
    (hx : s ≠ [] →
      Lexeme L { token := .timespec, integer := timestampInteger time, string := s } x) :
    Reads L v (x ++ r) r' := by
  unfold scanTimestamp at h
  split_ifs at h with hs
  · cases h
    exact .error rfl rfl
  · cases h
    exact ⟨x, hx hs, nofun, rfl⟩

lemma reads_scanTimespec (h : scanTimespec L r = .ok (v, r')) : Reads L v ('@' :: r) r' := by
  unfold scanTimespec at h
  rcases r with _ | ⟨c, r⟩
  · obtain ⟨s, hs, h⟩ := exists_of_bind_eq_ok h
    obtain ⟨time, htime, h⟩ := exists_of_bind_eq_ok h
    exact reads_scanTimestamp (Except.ok.inj h) fun hne => .lastTimestamp hs hne htime
  dsimp only at h
  split_ifs at h with hquote
  · rcases hs : upTo c r with ⟨_ | s, r''⟩ <;> rw [hs] at h
    · cases h
      obtain ⟨rfl, -⟩ := upTo_none hs
      exact .error rfl (List.append_nil _).symm
    · obtain ⟨rfl, hmem⟩ := upTo_some hs
      rw [Bool.or_eq_true, decide_eq_true_eq, decide_eq_true_eq] at hquote
      obtain ⟨time, htime, h⟩ := exists_of_bind_eq_ok h
      have hr : '@' :: c :: (s ++ c :: r'') = '@' :: c :: (s ++ [c]) ++ r'' := by simp
      rw [hr]
      exact reads_scanTimestamp (Except.ok.inj h) fun hne => .date hquote hmem hne htime
  · rw [Bool.or_eq_true, decide_eq_true_eq, decide_eq_true_eq, not_or] at hquote
    obtain ⟨time, htime, h⟩ := exists_of_bind_eq_ok h
    have hr : '@' :: c :: r = '@' :: c :: r.takeWhile isTimestampChar ++
        r.dropWhile isTimestampChar := by
      rw [List.cons_append, List.cons_append, List.takeWhile_append_dropWhile]
    rw [hr]
    exact reads_scanTimestamp (Except.ok.inj h) fun _ =>
      .timestamp hquote.1 hquote.2 forall_mem_takeWhile htime

/-- What is left after the first character that fails `p` is the end of the text. -/
lemma exists_append_tail_dropWhile (p : Char → Bool) (r : Str) :
    ∃ x, r = x ++ (r.dropWhile p).tail := by
  obtain ⟨x, hx⟩ := (List.tail_suffix (r.dropWhile p)).trans (List.dropWhile_suffix p)
  exact ⟨x, hx.symm⟩

/-- A name is the longest start of a text, and is a variable when it starts like one. -/
lemma scanName_eq {n : Str} (hall : ∀ d ∈ n, isNameChar d = true) (h : scanName n r = (v, r')) :
    r' = r ∧ (v.token = .error ∨ IsName n ∧ v = { token := .variable, string := n }) := by
  unfold scanName at h
  cases n with
  | nil =>
    cases h
    exact ⟨rfl, .inl rfl⟩
  | cons c n =>
    dsimp only at h
    split_ifs at h with hdigit
    · cases h
      exact ⟨rfl, .inl rfl⟩
    · cases h
      have hstart := isNameStart_iff.mpr ⟨hall c List.mem_cons_self, hdigit⟩
      exact ⟨rfl, .inr ⟨.mk hstart fun d hd => hall d (List.mem_cons_of_mem _ hd), rfl⟩⟩

/-- The character behind a name. -/
lemma afterName_append {n : Str} (hn : IsName n) :
    afterName (n ++ r) = (r.dropWhile isNameChar).head? := by
  obtain ⟨hc, hall⟩ := hn
  rw [List.cons_append, afterName, if_pos hc, List.dropWhile_append_of_pos hall]

lemma afterName_of_not_isName (h : ¬ IsName (r.takeWhile isNameChar)) : afterName r = none := by
  cases r with
  | nil => rfl
  | cons c r =>
    rw [afterName, if_neg]
    intro hc
    rw [List.takeWhile_cons, if_pos (isNameStart_iff.mp hc).1] at h
    exact h (.mk hc forall_mem_takeWhile)

lemma reads_scanVariable (h : scanVariable r = (v, r')) :
    Reads L v ('$' :: r) ((afterName r).toList ++ r') := by
  unfold scanVariable at h
  split at h
  next r =>
    obtain ⟨x, hx⟩ := exists_append_tail_dropWhile isNameChar r
    have hnone : afterName ('\x7b' :: r) = none := by
      rw [afterName, if_neg (by decide)]
    have herror : v.token = .error → r' = (r.dropWhile isNameChar).tail →
        Reads L v ('$' :: '\x7b' :: r) r' := by
      rintro hv rfl
      exact .error hv (x := '$' :: '\x7b' :: x) (by rw [List.cons_append, List.cons_append, ← hx])
    rw [hnone]
    split_ifs at h with hclose
    · obtain ⟨hr', hv | ⟨hn, rfl⟩⟩ := scanName_eq forall_mem_takeWhile h
      · exact herror hv hr'
      · obtain ⟨rest, hrest⟩ := List.head?_eq_some_iff.mp hclose
        have hr := List.takeWhile_append_dropWhile (p := isNameChar) (l := r)
        rw [hrest] at hr
        rw [hr', hrest]
        refine ⟨_, .bracedVariable hn, nofun, ?_⟩
        conv_lhs => rw [← hr]
        simp
    · cases h
      exact herror rfl rfl
  next =>
    obtain ⟨rfl, hv⟩ := scanName_eq forall_mem_takeWhile h
    -- the character behind the name is read, and not given back
    by_cases hn : IsName (r.takeWhile isNameChar)
    · have hr := List.takeWhile_append_dropWhile (p := isNameChar) (l := r)
      have hafter : afterName r = (r.dropWhile isNameChar).head? := by
        have := afterName_append (r := r.dropWhile isNameChar) hn
        rwa [hr, List.dropWhile_idempotent] at this
      have hlex : Lexeme L v ('$' :: r.takeWhile isNameChar) ∧ v.token ≠ .eof := by
        rcases hv with hv | ⟨-, rfl⟩
        · exact ⟨.error hv, by rw [hv]; exact nofun⟩
        · exact ⟨.variable hn, nofun⟩
      refine ⟨_, hlex.1, hlex.2, ?_⟩
      conv_lhs => rw [← hr]
      rw [hafter, List.cons_append]
      cases r.dropWhile isNameChar <;> rfl
    · obtain ⟨x, hx⟩ := exists_append_tail_dropWhile isNameChar r
      rcases hv with hv | ⟨hn', -⟩
      · rw [afterName_of_not_isName hn]
        exact .error hv (x := '$' :: x)
          (by rw [List.cons_append, Option.toList_none, List.nil_append, ← hx])
      · exact absurd hn' hn

lemma reads_scanToken (hne : c ≠ '$') (h : scanToken L c r = .ok (v, r')) :
    Reads L v (c :: r) r' := by
  unfold scanToken at h
  split_ifs at h with hslash htimespec haddress hnumber hname
  · cases h
    rw [hslash]
    exact ⟨_, .divide, nofun, rfl⟩
  · rw [htimespec]
    exact reads_scanTimespec h
  · rw [haddress]
    exact reads_scanAddress h
  · exact reads_scanNumber (isNumberChar_of_start hnumber) h
  · exact reads_scanIdentifier hname (Except.ok.inj h)
  · rcases hsingle : TokenType.single c with _ | kind
    · rcases hquoted : TokenType.quoted c with _ | kind <;> rw [hsingle, hquoted] at h
      · cases h
        exact .error rfl (x := [c]) rfl
      · exact reads_scanQuoted hquoted h
    · rw [hsingle] at h
      cases h
      exact ⟨_, .single hsingle, TokenType.single_ne_eof hsingle, rfl⟩

end Branches

/-! ### What a call reads -/

variable {L : Library}

/-- **What one call reads**: a gap, the lexeme of the token, and the character behind a variable
without braces; at the end of the program, all of the text. -/
theorem scan_covers {r r' : Str} {v : Value} (h : scan L r = .ok (v, r')) :
    ∃ g x, Gap g ∧ Lexeme L v x ∧ r = g ++ x ++ (afterVariable r).toList ++ r' ∧
      (v.token = .eof → LastComment x ∧ r = g ++ x) := by
  obtain ⟨g, y, hg, hy, hr, hlast⟩ := skip_spec r
  unfold scan at h
  rcases hskip : skip false r with _ | ⟨c, s⟩
  · rw [hskip] at h
    cases h
    refine ⟨g, y, hg, .eof hy, ?_⟩
    rw [hskip, List.append_nil] at hr
    rw [afterVariable, hskip]
    exact ⟨by simpa using hr, fun _ => ⟨hy, hr⟩⟩
  · have hyempty : y = [] := by
      by_contra hne
      rw [hlast hne] at hskip
      cases hskip
    subst hyempty
    rw [hskip, List.append_nil] at hr
    rw [hskip] at h
    have hreads : Reads L v (c :: s) ((afterVariable r).toList ++ r') := by
      by_cases hc : c = '$'
      · subst hc
        rw [afterVariable_of_skip hskip]
        exact reads_scanVariable (Except.ok.inj (show Except.ok (scanVariable s) = _ from h))
      · rw [afterVariable_eq_none hskip hc]
        exact reads_scanToken hc h
    obtain ⟨x, hx, hne, hcover⟩ := hreads
    refine ⟨g, x, hg, hx, ?_, fun heof => absurd heof hne⟩
    conv_lhs => rw [hr, hcover]
    simp

/-- A text that the tokens write, with gaps between the lexemes. -/
inductive Written (L : Library) : List Value → Str → Prop
  /-- No token. -/
  | nil {g : Str} : Gap g → Written L [] g
  /-- The first token. -/
  | cons {g x s : Str} {v : Value} {vs : List Value} : Gap g → Lexeme L v x → Written L vs s →
      Written L (v :: vs) (g ++ x ++ s)

lemma Gap.append {g s : Str} (hg : Gap g) (hs : Gap s) : Gap (g ++ s) := by
  induction hg with
  | nil => exact hs
  | blank hc _ ih => exact .blank hc ih
  | comment hbody _ ih => simpa using Gap.comment hbody ih

lemma Written.gap_append {g s : Str} {vs : List Value} (hg : Gap g) (h : Written L vs s) :
    Written L vs (g ++ s) := by
  cases h with
  | nil hs => exact .nil (hg.append hs)
  | @cons g' x s v vs hg' hx hs =>
    rw [← List.append_assoc, ← List.append_assoc]
    exact .cons (hg.append hg') hx hs

/-! ### The calls on a program -/

/-- Calls of `next_token()` one after the other, with the tokens they return. -/
inductive Calls (L : Library) : Lexer → List Token → Lexer → Prop
  /-- No call. -/
  | nil (l : Lexer) : Calls L l [] l
  /-- The first call. -/
  | cons {l l' l'' : Lexer} {t : Token} {ts : List Token} : l.nextToken L = .ok (t, l') →
      Calls L l' ts l'' → Calls L l (t :: ts) l''

/-- What the next `k` calls give, positions apart. -/
def results (L : Library) : ℕ → Lexer → List (Except Thrown Value)
  | 0, _ => []
  | k + 1, l =>
    match l.nextToken L with
    | .error e => [.error e]
    | .ok (t, l') => .ok t.toValue :: results L k l'

/-- The same for a text. -/
def scans (L : Library) : ℕ → Str → List (Except Thrown Value)
  | 0, _ => []
  | k + 1, r =>
    match scan L r with
    | .error e => [.error e]
    | .ok (v, r') => .ok v :: scans L k r'

lemma agree_ok_left {L : Library} {l l' : Lexer} {r : Str} {t : Token} (h : l.At 1 r)
    (hnext : l.nextToken L = .ok (t, l')) :
    ∃ r', scan L r = .ok (t.toValue, r') ∧ l'.At 1 r' := by
  have hagree := agree_nextToken L h
  rw [hnext] at hagree
  rcases hscan : scan L r with e | ⟨v, r'⟩ <;> rw [hscan] at hagree
  · exact False.elim hagree
  · exact ⟨r', by rw [hagree.1], hagree.2⟩

lemma results_eq_scans {l : Lexer} {r : Str} (h : l.At 1 r) (k : ℕ) :
    results L k l = scans L k r := by
  induction k generalizing l r with
  | zero => rfl
  | succ k ih =>
    have hagree := agree_nextToken L h
    rw [results, scans]
    rcases hnext : l.nextToken L with e | ⟨t, l'⟩ <;> rcases hscan : scan L r with e' | ⟨v, r'⟩ <;>
      rw [hnext, hscan] at hagree
    · exact congrArg (fun e => [Except.error e]) hagree
    · exact False.elim hagree
    · exact False.elim hagree
    · obtain ⟨rfl, hat⟩ := hagree
      exact congrArg (Except.ok t.toValue :: ·) (ih hat)

lemma at_ofProgram (filename program : Str) :
    (Lexer.ofProgram filename program).At 1 (lineEnds program) :=
  ⟨rfl, Nat.zero_le 1⟩

/-- After some calls at most one character was given back. -/
lemma Calls.at {l l' : Lexer} {ts : List Token} (h : Calls L l ts l') (hl : l.At 1 l.remaining) :
    l'.At 1 l'.remaining := by
  induction h with
  | nil => exact hl
  | cons hnext _ ih =>
    obtain ⟨r', -, hat⟩ := agree_ok_left hl hnext
    exact ih ⟨rfl, hat.unget⟩

/-- The next call reads a gap, the lexeme of its token and a gap. -/
def Covers (L : Library) (l : Lexer) : Prop :=
  ∀ t l', l.nextToken L = .ok (t, l') → ∃ g x g', Gap g ∧ Lexeme L t.toValue x ∧ Gap g' ∧
    l.remaining = g ++ x ++ g' ++ l'.remaining

/-- The lexer does not lose a character of the program. -/
structure NeverLoses (L : Library) (filename program : Str) : Prop where
  /-- Each call reads white space, comments and its lexeme. -/
  call : ∀ ts l, Calls L (.ofProgram filename program) ts l → Covers L l
  /-- The end of the program is only returned when nothing but white space and comments is left. -/
  eof : ∀ ts l, Calls L (.ofProgram filename program) ts l → ∀ t l', l.nextToken L = .ok (t, l') →
    t.token = .eof → ∃ g x, Gap g ∧ LastComment x ∧ l.remaining = g ++ x
  /-- What was read is written by the tokens. -/
  text : ∀ ts l, Calls L (.ofProgram filename program) ts l →
    ∃ s, Written L (ts.map Token.toValue) s ∧ lineEnds program = s ++ l.remaining
  /-- The two ways to write a variable give the same tokens. -/
  braces : ∀ n r, IsName n → (∀ c ∈ r.head?, isNameChar c = false) → program = '$' :: (n ++ r) →
    ∀ k, results L k (.ofProgram filename program) =
      results L k (.ofProgram filename ('$' :: '\x7b' :: (n ++ '\x7d' :: r)))

/-! ### The character behind a variable -/

section Program

variable {filename program : Str}

/-- A call on a state of the lexer, as a scan of the text that remains. -/
lemma Calls.scan_eq {ts : List Token} {l l' : Lexer} {t : Token}
    (h : Calls L (.ofProgram filename program) ts l) (hnext : l.nextToken L = .ok (t, l')) :
    scan L l.remaining = .ok (t.toValue, l'.remaining) := by
  obtain ⟨r', hscan, hat⟩ := agree_ok_left (h.at (at_ofProgram filename program)) hnext
  rw [hscan, hat.remaining]

/-- A call whose variable is followed by a white space, if anything, reads a gap, a lexeme and
a gap. -/
lemma covers_of_afterVariable {ts : List Token} {l : Lexer}
    (h : Calls L (.ofProgram filename program) ts l)
    (hblank : ∀ c ∈ afterVariable l.remaining, isBlank c = true) : Covers L l := by
  intro t l' hnext
  obtain ⟨g, x, hg, hx, hr, -⟩ := scan_covers (h.scan_eq hnext)
  refine ⟨g, x, (afterVariable l.remaining).toList, hg, hx, ?_, hr⟩
  cases hafter : afterVariable l.remaining with
  | none => exact .nil
  | some c => exact .blank (hblank c hafter) .nil

/-- Two gaps in front of a variable are the same. -/
lemma Gap.eq_of_append_dollar {g g' r r' : Str} (hg : Gap g) (hg' : Gap g')
    (h : g ++ '$' :: r = g' ++ '$' :: r') : r = r' := by
  have hskip := congrArg (skip false) h
  rw [hg.skip_append, hg'.skip_append] at hskip
  exact (List.cons.inj hskip).2

/-- A gap of one character is a white space. -/
lemma Gap.isBlank_of_singleton {c : Char} (h : Gap [c]) : isBlank c = true := by
  cases h with
  | blank hc _ => exact hc

/-- The lexemes of a variable. -/
lemma Lexeme.variable_cases {n x : Str} (h : Lexeme L { token := .variable, string := n } x) :
    x = '$' :: n ∨ x = '$' :: '\x7b' :: (n ++ ['\x7d']) := by
  cases h with
  | error h => cases h
  | «variable» _ => exact .inl rfl
  | bracedVariable _ => exact .inr rfl
  | @single c kind h =>
    unfold TokenType.single at h
    split at h <;> cases h
  | @string q kind body s h =>
    unfold TokenType.quoted at h
    split at h <;> cases h

/-- A name ends where the text goes on with another character. -/
lemma IsName.span {n s : Str} (hn : IsName n) (hs : ∀ c ∈ s.head?, isNameChar c = false) :
    (n ++ s).takeWhile isNameChar = n ∧ (n ++ s).dropWhile isNameChar = s := by
  have hall : ∀ d ∈ n, isNameChar d = true := by
    obtain ⟨hc, hall⟩ := hn
    intro d hd
    rcases List.mem_cons.mp hd with rfl | hd
    · exact (isNameStart_iff.mp hc).1
    · exact hall d hd
  rw [List.takeWhile_append_of_pos hall, List.dropWhile_append_of_pos hall]
  cases s with
  | nil => simp
  | cons c s => simp [hs c rfl]

lemma IsName.scanName_eq {n : Str} (hn : IsName n) (r : Str) :
    scanName n r = ({ token := .variable, string := n }, r) := by
  obtain ⟨hc, -⟩ := hn
  exact if_neg (isNameStart_iff.mp hc).2

lemma scan_dollar (r : Str) : scan L ('$' :: r) = .ok (scanVariable r) :=
  scan_cons L (by decide) fun h => absurd h (by decide)

/-- A variable without braces that starts a text; the next character is read as well. -/
lemma scan_variable {n s : Str} (hn : IsName n) (hs : ∀ c ∈ s.head?, isNameChar c = false) :
    scan L ('$' :: (n ++ s)) = .ok ({ token := .variable, string := n }, s.tail) := by
  obtain ⟨htake, hdrop⟩ := hn.span hs
  rw [scan_dollar, scanVariable, htake, hdrop, hn.scanName_eq]
  rintro r' hr'
  obtain ⟨hstart, -⟩ := hn
  rw [(List.cons.inj hr').1] at hstart
  exact absurd hstart (by decide)

/-- The same variable between braces. -/
lemma scan_bracedVariable {n : Str} (hn : IsName n) (s : Str) :
    scan L ('$' :: '\x7b' :: (n ++ '\x7d' :: s)) =
      .ok ({ token := .variable, string := n }, s) := by
  obtain ⟨htake, hdrop⟩ := hn.span (s := '\x7d' :: s) fun c hc => by
    obtain rfl : '\x7d' = c := Option.some.inj hc
    decide
  rw [scan_dollar, scanVariable, htake, hdrop, List.head?_cons, if_pos rfl, hn.scanName_eq,
    List.tail_cons]

/-- The text of a call that reads a character behind a variable. -/
lemma exists_of_afterVariable {r : Str} {c : Char} (h : afterVariable r = some c) :
    ∃ g n s, Gap g ∧ IsName n ∧ r = g ++ '$' :: (n ++ c :: s) ∧
      scan L r = .ok ({ token := .variable, string := n }, s) := by
  obtain ⟨g, y, hg, -, hr, hlast⟩ := skip_spec r
  rcases hskip : skip false r with _ | ⟨d, t⟩
  · rw [afterVariable, hskip] at h
    cases h
  by_cases hd : d = '$'
  · subst hd
    have hyempty : y = [] := by
      by_contra hne
      rw [hlast hne] at hskip
      cases hskip
    rw [afterVariable_of_skip hskip] at h
    cases t with
    | nil => cases h
    | cons d t =>
      rw [afterName] at h
      split_ifs at h with hstart
      obtain ⟨s, hs⟩ := List.head?_eq_some_iff.mp h
      have hname : isNameChar c = false := by
        have := List.head?_dropWhile_not isNameChar t
        rw [hs] at this
        simpa using this
      have hn : IsName (d :: t.takeWhile isNameChar) := .mk hstart forall_mem_takeWhile
      have ht : d :: t = d :: t.takeWhile isNameChar ++ c :: s := by
        rw [List.cons_append, ← hs, List.takeWhile_append_dropWhile]
      refine ⟨g, _, s, hg, hn, ?_, ?_⟩
      · rw [← ht]
        simpa [hskip, hyempty] using hr
      · have hscan : scan L r = scan L ('$' :: (d :: t)) := by
          rw [scan, scan, hskip, skip_cons_self (by decide) fun h => absurd h (by decide)]
        rw [hscan, ht]
        exact scan_variable hn fun e he => by
          obtain rfl : c = e := Option.some.inj he
          exact hname
  · rw [afterVariable_eq_none hskip hd] at h
    cases h

/-- A call that covers what it reads has white space behind a variable. -/
lemma Covers.isBlank {ts : List Token} {l : Lexer}
    (h : Calls L (.ofProgram filename program) ts l) (hcovers : Covers L l) {c : Char}
    (hc : afterVariable l.remaining = some c) : isBlank c = true := by
  obtain ⟨g, n, s, hg, hn, hr, hscan⟩ := exists_of_afterVariable (L := L) hc
  have hagree := agree_nextToken L (h.at (at_ofProgram filename program))
  rw [hscan] at hagree
  rcases hnext : l.nextToken L with e | ⟨t, l'⟩ <;> rw [hnext] at hagree
  · exact False.elim hagree
  obtain ⟨hvalue, hat⟩ := hagree
  obtain ⟨g₁, x, g₂, hg₁, hx, hg₂, hr'⟩ := hcovers t l' hnext
  rw [hvalue] at hx
  rw [hat.remaining, hr] at hr'
  -- the call read the name and `c`, so that `c` is in the gap behind the lexeme
  rcases hx.variable_cases with rfl | rfl
  · have heq : _ = n ++ (g₂ ++ s) := hg.eq_of_append_dollar hg₁ (by simpa using hr')
    have hgap : [c] ++ s = g₂ ++ s := List.append_cancel_left heq
    have hg₂' : [c] = g₂ := List.append_cancel_right hgap
    exact Gap.isBlank_of_singleton (hg₂' ▸ hg₂)
  · have heq : _ = '\x7b' :: (n ++ '\x7d' :: (g₂ ++ s)) :=
      hg.eq_of_append_dollar hg₁ (by simpa using hr')
    obtain ⟨hstart, -⟩ := hn
    rw [List.cons_append] at heq
    rw [(List.cons.inj heq).1] at hstart
    exact absurd hstart (by decide)

/-- The calls of a run that all cover what they read have read a text that the tokens write. -/
lemma Calls.exists_written {l l' : Lexer} {ts : List Token} (h : Calls L l ts l')
    (hcovers : ∀ us m, Calls L l us m → Covers L m) :
    ∃ s, Written L (ts.map Token.toValue) s ∧ l.remaining = s ++ l'.remaining := by
  induction h with
  | nil => exact ⟨[], .nil .nil, rfl⟩
  | @cons l m l'' t ts hnext _ ih =>
    obtain ⟨g, x, g', hg, hx, hg', hr⟩ := hcovers [] l (.nil l) t m hnext
    obtain ⟨s, hs, hm⟩ := ih fun us k hk => hcovers (t :: us) k (.cons hnext hk)
    refine ⟨g ++ x ++ (g' ++ s), .cons hg hx (hs.gap_append hg'), ?_⟩
    rw [hr, hm]
    simp

lemma lineEnds_cons {c : Char} (hc : c ≠ '\r') (s : Str) : lineEnds (c :: s) = c :: lineEnds s := by
  rw [lineEnds, if_neg hc]
  rintro r rfl
  exact absurd rfl hc

lemma lineEnds_append {n : Str} (hn : ∀ c ∈ n, c ≠ '\r') (s : Str) :
    lineEnds (n ++ s) = n ++ lineEnds s := by
  induction n with
  | nil => rfl
  | cons c n ih =>
    rw [List.cons_append, lineEnds_cons (hn c List.mem_cons_self),
      ih fun d hd => hn d (List.mem_cons_of_mem _ hd), List.cons_append]

/-- The line ends do not make a name longer. -/
lemma isNameChar_head?_lineEnds {s : Str} (hs : ∀ c ∈ s.head?, isNameChar c = false) :
    ∀ c ∈ (lineEnds s).head?, isNameChar c = false := by
  cases s with
  | nil => exact hs
  | cons d s =>
    intro c hc
    by_cases hd : d = '\r'
    · have hhead : (lineEnds (d :: s)).head? = some '\n' := by
        rcases s with _ | ⟨e, s⟩
        · simp [hd, lineEnds]
        · by_cases he : e = '\n' <;> simp [hd, he, lineEnds]
      rw [hhead] at hc
      obtain rfl : '\n' = c := Option.some.inj hc
      decide
    · rw [lineEnds_cons hd] at hc
      exact hs c hc

lemma IsName.ne_carriageReturn {n : Str} (hn : IsName n) : ∀ c ∈ n, c ≠ '\r' := by
  obtain ⟨hc, hall⟩ := hn
  rintro d hd rfl
  rcases List.mem_cons.mp hd with rfl | hd
  · exact absurd hc (by decide)
  · exact absurd (hall _ hd) (by decide)

/-- The first token of the program apart, white space behind a variable is not missed. -/
lemma scans_tail {r : Str} (h : ∀ c ∈ r.head?, isBlank c = true) (k : ℕ) :
    scans L k r.tail = scans L k r := by
  cases r with
  | nil => rfl
  | cons c r =>
    cases k with
    | zero => rfl
    | succ k => rw [List.tail_cons, scans, scans, scan_cons_of_isBlank L (h c rfl)]

/-- The two ways to write a variable in front of white space. -/
lemma results_variable_eq {n r : Str} (hn : IsName n) (hr : ∀ c ∈ r.head?, isNameChar c = false)
    (hblank : ∀ c ∈ afterVariable (lineEnds ('$' :: (n ++ r))), isBlank c = true) (k : ℕ) :
    results L k (.ofProgram filename ('$' :: (n ++ r))) =
      results L k (.ofProgram filename ('$' :: '\x7b' :: (n ++ '\x7d' :: r))) := by
  have htext : lineEnds ('$' :: (n ++ r)) = '$' :: (n ++ lineEnds r) := by
    rw [lineEnds_cons (by decide), lineEnds_append hn.ne_carriageReturn]
  have hbraced : lineEnds ('$' :: '\x7b' :: (n ++ '\x7d' :: r)) =
      '$' :: '\x7b' :: (n ++ '\x7d' :: lineEnds r) := by
    rw [lineEnds_cons (by decide), lineEnds_cons (by decide),
      lineEnds_append hn.ne_carriageReturn, lineEnds_cons (by decide)]
  have hr' := isNameChar_head?_lineEnds hr
  rw [results_eq_scans (at_ofProgram ..), results_eq_scans (at_ofProgram ..), htext, hbraced]
  cases k with
  | zero => rfl
  | succ k =>
    rw [scans, scans, scan_variable hn hr', scan_bracedVariable hn]
    have hafter : afterVariable ('$' :: (n ++ lineEnds r)) = (lineEnds r).head? := by
      rw [afterVariable_of_skip (skip_cons_self (by decide) fun h => absurd h (by decide)),
        afterName_append hn]
      cases hline : lineEnds r with
      | nil => rfl
      | cons c s =>
        rw [hline] at hr'
        rw [List.dropWhile_cons, hr' c rfl, if_neg Bool.false_ne_true]
    exact congrArg (_ :: ·) (scans_tail (fun c hc => hblank c (by rw [htext, hafter]; exact hc)) k)

/-- **The lexer and white space behind variables.**  The lexer loses no character of a program
exactly when the character that each call reads behind a variable without braces is a white
space. -/
theorem neverLoses_iff (L : Library) (filename program : Str) :
    NeverLoses L filename program ↔
      ∀ ts l, Calls L (.ofProgram filename program) ts l →
        ∀ c ∈ afterVariable l.remaining, isBlank c = true := by
  constructor
  · intro h ts l hcalls c hc
    exact (h.call ts l hcalls).isBlank hcalls hc
  · intro h
    have hcall : ∀ ts l, Calls L (.ofProgram filename program) ts l → Covers L l :=
      fun ts l hcalls => covers_of_afterVariable hcalls (h ts l hcalls)
    refine ⟨hcall, fun ts l hcalls t l' hnext heof => ?_,
      fun ts l hcalls => hcalls.exists_written hcall, ?_⟩
    · obtain ⟨g, x, hg, -, -, hend⟩ := scan_covers (hcalls.scan_eq hnext)
      exact ⟨g, x, hg, (hend heof).1, (hend heof).2⟩
    rintro n r hn hr rfl k
    exact results_variable_eq hn hr (h [] _ (.nil _)) k

end Program

/-- The plus sign behind `$a` is lost; behind the same variable between braces it is not. -/
theorem not_neverLoses_variable :
    ¬ NeverLoses .integers [] "$a+1".toList ∧
      results .integers 3 (.ofProgram [] "$a+1".toList) =
        [.ok { token := .variable, string := ['a'] }, .ok { token := .integer, integer := 1 },
          .ok { token := .eof }] ∧
      results .integers 4 (.ofProgram [] "$\x7ba\x7d+1".toList) =
        [.ok { token := .variable, string := ['a'] }, .ok { token := .plus },
          .ok { token := .integer, integer := 1 }, .ok { token := .eof }] := by
  refine ⟨fun h => ?_, ?_, ?_⟩
  · have hcovers := h.call [] _ (.nil _)
    have hafter : afterVariable (Lexer.ofProgram [] "$a+1".toList).remaining = some '+' := by decide
    exact absurd (hcovers.isBlank (.nil _) hafter) (by decide)
  · rw [results_eq_scans (at_ofProgram ..)]
    rfl
  · rw [results_eq_scans (at_ofProgram ..)]
    rfl

end EventDispatcher.Reporter
