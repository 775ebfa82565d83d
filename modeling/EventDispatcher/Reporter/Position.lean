import EventDispatcher.Lib.Lines
import EventDispatcher.Reporter.Lexeme

/-!
# The positions of the tokens

`getc()` counts the lines and the columns of the characters that it takes from the program, and
`ungetc()` leaves the counters where they are.  So the counters follow the iterator and not the
text that remains (`Counts`, `Counted`), and a token that starts on the character that the call
before gave back is reported one column too far (`positionsExact_iff`).
-/

namespace EventDispatcher.Reporter

open Lib

/-- The counters are the line and the column of the place in the text that the iterator stands
at. -/
def Counts (text : Str) (l : Lexer) : Prop :=
  ∃ read, text = read ++ lineEnds l.iterator ∧ l.line = UInt32.ofNat (lineAt '\n' read) ∧
    l.column = UInt32.ofNat (columnAt '\n' read)

/-- The counters are right as long as there is something to read; reading the end of the program
moves the column. -/
def Counted (text : Str) (l : Lexer) : Prop := l.remaining = [] ∨ Counts text l

/-- What holds after `getc()` returned `c`. -/
def CountsRead (text : Str) : Option Char → Lexer → Prop
  | none, l => l.remaining = []
  | some _, l => Counts text l

variable {text : Str} {l : Lexer}

/-- How `getc()` moves the counters with a character of the program. -/
lemma getc_counters {c : Char} (hunget : l.unget = []) (hget : (l.getc).1 = some c) :
    (l.getc).2.line = (if c = '\n' then l.line + 1 else l.line) ∧
      (l.getc).2.column = (if c = '\n' then 1 else l.column + 1) := by
  obtain ⟨_, iterator, _, line, column, _⟩ := l
  obtain rfl := hunget
  rcases iterator with _ | ⟨d, rest⟩
  · cases hget
  · by_cases hd : d = '\r'
    · subst hd
      obtain rfl : '\n' = c := Option.some.inj hget
      exact ⟨rfl, rfl⟩
    · by_cases hn : d = '\n'
      · subst hn
        obtain rfl : '\n' = c := Option.some.inj hget
        exact ⟨rfl, rfl⟩
      · simp only [Lexer.getc, hd, hn, if_false, Option.some.injEq] at hget ⊢
        subst hget
        rw [if_neg hn, if_neg hn]
        exact ⟨rfl, rfl⟩

/-- The buffer of `ungetc()` is read without moving the counters. -/
lemma getc_of_unget {c : Char} {unget : Str} (hunget : l.unget = c :: unget) :
    l.getc = (some c, { l with unget }) := by
  rw [Lexer.getc, hunget]

lemma Counts.getc {c : Char} (h : Counts text l) (hget : (l.getc).1 = some c) :
    Counts text (l.getc).2 := by
  obtain ⟨read, htext, hline, hcolumn⟩ := h
  rcases hunget : l.unget with _ | ⟨d, unget⟩
  · obtain ⟨hline', hcolumn'⟩ := getc_counters hunget hget
    have hremaining : l.remaining = lineEnds l.iterator := by
      rw [Lexer.remaining, hunget]
      rfl
    have hrest : (l.getc).2.remaining = lineEnds (l.getc).2.iterator := by
      rw [Lexer.remaining, Lexer.unget_getc, hunget]
      rfl
    obtain ⟨hhead, htail⟩ := l.getc_spec
    rw [hget, hremaining] at hhead
    rw [hrest, hremaining] at htail
    have hcons : lineEnds l.iterator = c :: lineEnds (l.getc).2.iterator := by
      rw [htail]
      exact (List.cons_head?_tail hhead.symm).symm
    refine ⟨read ++ [c], ?_, ?_, ?_⟩
    · rw [htext, hcons, List.append_assoc]
      rfl
    · rw [hline', hline, lineAt_append_singleton, apply_ite UInt32.ofNat, UInt32.ofNat_add]
      rfl
    · rw [hcolumn', hcolumn, columnAt_append_singleton, apply_ite UInt32.ofNat, UInt32.ofNat_add]
      rfl
  · rw [getc_of_unget hunget]
    exact ⟨read, htext, hline, hcolumn⟩

lemma CountsRead.counted {c : Option Char} (h : CountsRead text c l) : Counted text l := by
  cases c with
  | none => exact .inl h
  | some c => exact .inr h

lemma Counted.counts (h : Counted text l) (hne : l.remaining ≠ []) : Counts text l :=
  h.resolve_left hne

lemma Counted.getc (h : Counted text l) : CountsRead text (l.getc).1 (l.getc).2 := by
  rcases hget : (l.getc).1 with _ | c
  · rw [l.getc_fst, List.head?_eq_none_iff] at hget
    change (l.getc).2.remaining = []
    rw [l.remaining_getc, hget]
    rfl
  · have hne : l.remaining ≠ [] := by
      intro hnil
      rw [l.getc_fst, hnil] at hget
      cases hget
    exact (h.counts hne).getc hget

lemma Counted.of_getc {c : Option Char} {l' : Lexer} (h : Counted text l)
    (hget : l.getc = (c, l')) : CountsRead text c l' := by
  have hnext := h.getc
  rwa [hget] at hnext

lemma CountsRead.readWhile {c : Option Char} (p : Char → Bool) (h : CountsRead text c l) :
    CountsRead text (l.readWhile p c).2.1 (l.readWhile p c).2.2 := by
  fun_induction Lexer.readWhile p c l with
  | case1 l => exact h
  | case2 l d hd s stop l' hread ih =>
    rw [hread] at ih
    exact ih h.counted.getc
  | case3 l d hd => exact h

/-- Giving back the character that was read last leaves the counters. -/
lemma CountsRead.ungetc {c : Option Char} {l' : Lexer} (h : CountsRead text c l)
    (hunget : l.ungetc c = .ok l') : Counted text l' := by
  cases c with
  | none =>
    obtain rfl : l = l' := Except.ok.inj hunget
    exact .inl h
  | some c =>
    rw [Lexer.ungetc] at hunget
    split_ifs at hunget
    obtain rfl := Except.ok.inj hunget
    exact .inr h

/-- The loops that start on a character that they accept. -/
lemma Counted.readWhile_some {p : Char → Bool} {c : Char} (hc : p c = true) (h : Counted text l) :
    CountsRead text (l.readWhile p (some c)).2.1 (l.readWhile p (some c)).2.2 := by
  rw [Lexer.readWhile_some hc]
  exact h.getc.readWhile p

lemma Counted.readUntil (stop : Char) (h : Counted text l) :
    Counted text (l.readUntil stop).2 := by
  fun_induction Lexer.readUntil stop l with
  | case1 l l' hget => exact (h.of_getc hget).counted
  | case2 l l' hget => exact (h.of_getc hget).counted
  | case3 l c l' hget hc s l'' hread ih =>
    rw [hread] at ih
    exact ih (h.of_getc hget).counted

lemma Counted.readString {quote : Char} (h : Counted text l) {s : Except Str Str} {l' : Lexer}
    (hread : l.readString quote = .ok (s, l')) : Counted text l' := by
  fun_induction Lexer.readString quote l generalizing s l' with
  | case1 l l₁ hget =>
    obtain ⟨-, rfl⟩ := Prod.ext_iff.mp (Except.ok.inj hread)
    exact (h.of_getc hget).counted
  | case2 l l₁ hget =>
    obtain ⟨-, rfl⟩ := Prod.ext_iff.mp (Except.ok.inj hread)
    exact (h.of_getc hget).counted
  | case3 l l₁ hget =>
    obtain ⟨-, rfl⟩ := Prod.ext_iff.mp (Except.ok.inj hread)
    exact (h.of_getc hget).counted
  | case4 l l₁ l₂ hget' hget =>
    -- a backslash at the end of the program
    obtain ⟨-, rfl⟩ := Prod.ext_iff.mp (Except.ok.inj hread)
    exact ((h.of_getc hget).counted.of_getc hget').counted
  | case5 l l₁ d l₂ hget' hget _ _ ih =>
    obtain ⟨c, -, hread⟩ := exists_of_bind_eq_ok hread
    obtain ⟨⟨s', l₃⟩, hrest, hread⟩ := exists_of_bind_eq_ok hread
    obtain ⟨-, rfl⟩ := Prod.ext_iff.mp (Except.ok.inj hread)
    exact ih ((h.of_getc hget).counted.of_getc hget').counted hrest
  | case6 l c l₁ hget _ _ _ ih =>
    obtain ⟨⟨s', l₂⟩, hrest, hread⟩ := exists_of_bind_eq_ok hread
    obtain ⟨-, rfl⟩ := Prod.ext_iff.mp (Except.ok.inj hread)
    exact ih (h.of_getc hget).counted hrest

/-! ### The branches -/

/-- What a branch returns has the position of `t`, and the counters are right after it. -/
def Keeps (text : Str) (t : Token) : Except Thrown (Token × Lexer) → Prop
  | .ok (t', l') => t'.line = t.line ∧ t'.column = t.column ∧ Counted text l'
  | .error _ => True

lemma keeps_bind {α : Type} {t : Token} {x : Except Thrown α}
    {f : α → Except Thrown (Token × Lexer)} (h : ∀ a, x = .ok a → Keeps text t (f a)) :
    Keeps text t (x >>= f) := by
  cases x with
  | error e => trivial
  | ok a => exact h a rfl

section Branches

variable {L : Library} {t : Token}

lemma keeps_variableToken (h : Counted text l) : Keeps text t (.ok (l.variableToken t)) := by
  have hget := h.getc
  rw [Lexer.variableToken]
  split
  next l' heq =>
    rw [heq] at hget
    have hcounted := (hget.counted.getc.readWhile isNameChar).counted
    dsimp only
    split_ifs
    · split
      · exact ⟨rfl, rfl, hcounted⟩
      · split_ifs
        · exact ⟨rfl, rfl, hcounted⟩
        · exact ⟨rfl, rfl, hcounted⟩
    · exact ⟨rfl, rfl, hcounted⟩
  next c l' hne heq =>
    rw [heq] at hget
    have hcounted := (hget.readWhile isNameChar).counted
    dsimp only
    split
    · exact ⟨rfl, rfl, hcounted⟩
    · split_ifs
      · exact ⟨rfl, rfl, hcounted⟩
      · exact ⟨rfl, rfl, hcounted⟩

lemma keeps_timespecToken (h : Counted text l) : Keeps text t (l.timespecToken L t) := by
  have hnamed : ∀ (s : Str) (timestamp : Int64 × Int64) (l : Lexer), Counted text l →
      Keeps text t (.ok (if s = [] then
          l.error { t with integer := timestampInteger timestamp }
            "unexpected '@' without a timestamp.".toList
        else ({ t with
          integer := timestampInteger timestamp, token := .timespec, string := s }, l))) := by
    intro s timestamp l h
    split_ifs
    · exact ⟨rfl, rfl, h⟩
    · exact ⟨rfl, rfl, h⟩
  have hget := h.getc
  rw [Lexer.timespecToken]
  dsimp only
  split_ifs
  · have hread := hget.counted.readUntil ((l.getc).1.getD '"')
    rcases hs : (l.getc.2.readUntil ((l.getc).1.getD '"')).1 with _ | s
    · exact ⟨rfl, rfl, hread⟩
    · exact keeps_bind fun timestamp _ => hnamed s timestamp _ hread
  · refine keeps_bind fun first _ => keeps_bind fun l₃ hunget => keeps_bind fun timestamp _ => ?_
    exact hnamed _ timestamp l₃ ((hget.counted.getc.readWhile isTimestampChar).ungetc hunget)

lemma keeps_addressToken (h : Counted text l) : Keeps text t (l.addressToken L t) := by
  have hread := h.readUntil '>'
  rw [Lexer.addressToken]
  generalize l.readUntil '>' = read at hread ⊢
  obtain ⟨_ | s, l'⟩ := read
  · exact ⟨rfl, rfl, hread⟩
  · dsimp only
    split_ifs
    · exact ⟨rfl, rfl, hread⟩
    · exact ⟨rfl, rfl, hread⟩
    · cases L.parseAddress s with
      | errors => exact ⟨rfl, rfl, hread⟩
      | range => trivial
      | address text => exact ⟨rfl, rfl, hread⟩

lemma keeps_stringToken {kind : TokenType} {quote : Char} (h : Counted text l) :
    Keeps text t (l.stringToken t kind quote) := by
  refine keeps_bind fun ⟨s, l'⟩ hread => ?_
  have hcounted := h.readString hread
  cases s with
  | error msg => exact ⟨rfl, rfl, hcounted⟩
  | ok s => exact ⟨rfl, rfl, hcounted⟩

lemma keeps_decimalToken {c : Char} (hc : isNumberChar c = true) (h : Counted text l) :
    Keeps text t (l.decimalToken L t c) := by
  have hread := h.readWhile_some hc
  refine keeps_bind fun l' hunget => ?_
  have hcounted := hread.ungetc hunget
  dsimp only
  split_ifs
  all_goals
    split
    · exact ⟨rfl, rfl, hcounted⟩
    · exact ⟨rfl, rfl, hcounted⟩

lemma keeps_numberToken {c : Char} (hc : isNumberChar c = true) (h : Counted text l) :
    Keeps text t (l.numberToken L t c) := by
  rw [Lexer.numberToken]
  split_ifs with hzero
  · dsimp only
    split_ifs
    · trivial
    · have hread := h.getc.counted.getc.readWhile isHexdigit
      exact keeps_bind fun l' hunget => ⟨rfl, rfl, hread.ungetc hunget⟩
    · exact keeps_bind fun l' hunget => keeps_decimalToken (by decide) (h.getc.ungetc hunget)
  · exact keeps_decimalToken hc h

lemma keeps_identifierToken {c : Char} (hc : isNameChar c = true) (h : Counted text l) :
    Keeps text t (l.identifierToken t c) := by
  have hread := h.readWhile_some hc
  refine keeps_bind fun l' hunget => ?_
  have hcounted := hread.ungetc hunget
  change Keeps text t (ite _ _ _)
  split_ifs
  · exact ⟨rfl, rfl, hcounted⟩
  · exact ⟨rfl, rfl, hcounted⟩

end Branches

/-! ### The next token -/

/-- The lexer `l₀` stands in front of the token that the call on `l` returns. -/
structure StartsAt (text : Str) (l : Lexer) (t : Token) (l₀ : Lexer) : Prop where
  remaining : l₀.remaining = skip false l.remaining
  counts : Counts text l₀
  line : t.line = l₀.line
  column : t.column = l₀.column
  /-- The character that was given back is read again, when something is skipped. -/
  unget : l₀ = l ∨ (l₀.unget = [] ∧ skip false l.remaining ≠ l.remaining)

/-- The counters are right after the call, and were so in front of its token. -/
def Placed (text : Str) (l : Lexer) : Except Thrown (Token × Lexer) → Prop
  | .ok (t, l') => Counted text l' ∧ (skip false l.remaining ≠ [] → ∃ l₀, StartsAt text l t l₀)
  | .error _ => True

/-- The branches start their token where the lexer is. -/
lemma Keeps.placed {x : Except Thrown (Token × Lexer)}
    (hkeeps : Keeps text { line := l.line, column := l.column } x) (h : Counted text l)
    (hskip : skip false l.remaining = l.remaining) : Placed text l x := by
  rcases x with e | ⟨t, l'⟩
  · trivial
  · obtain ⟨hline, hcolumn, hcounted⟩ := hkeeps
    refine ⟨hcounted, fun hne => ⟨l, hskip.symm, h.counts (hskip ▸ hne), hline, hcolumn, .inl rfl⟩⟩

/-- What is skipped does not count for the token. -/
lemma Placed.of_skip {l' : Lexer} {x : Except Thrown (Token × Lexer)} (h : Placed text l' x)
    (hskip : skip false l.remaining = skip false l'.remaining)
    (hne : skip false l.remaining ≠ l.remaining) (hunget : l'.unget = []) : Placed text l x := by
  rcases x with e | ⟨t, l''⟩
  · trivial
  · refine ⟨h.1, fun hnil => ?_⟩
    obtain ⟨l₀, hstart⟩ := h.2 (hskip ▸ hnil)
    have hunget₀ : l₀.unget = [] := by
      rcases hstart.unget with rfl | ⟨hunget₀, -⟩
      · exact hunget
      · exact hunget₀
    exact ⟨l₀, hstart.remaining.trans hskip.symm, hstart.counts, hstart.line, hstart.column,
      .inr ⟨hunget₀, hne⟩⟩

lemma skip_suffix (r : Str) : skip false r <:+ r := by
  obtain ⟨g, x, -, -, hr, -⟩ := skip_spec r
  exact ⟨g ++ x, hr.symm⟩

/-- A blank moves the start of the token. -/
lemma skip_blank_ne {c : Char} {r : Str} (hc : isBlank c = true) :
    skip false (c :: r) ≠ c :: r := by
  intro heq
  have hle := (skip_suffix r).length_le
  rw [← skip_cons_of_isBlank hc, heq, List.length_cons] at hle
  omega

/-- A comment moves the start of the token. -/
lemma skip_comment_ne (r : Str) : skip false ('/' :: '/' :: r) ≠ '/' :: '/' :: r := by
  intro heq
  have hle := (skip_suffix (upTo '\n' r).2).length_le.trans (length_upTo_le '\n' r)
  rw [← skip_comment, heq, List.length_cons, List.length_cons] at hle
  omega

/-- A branch starts its token on the first character that is read. -/
lemma Keeps.placed_of_getc {c : Char} {l' : Lexer} {x : Except Thrown (Token × Lexer)}
    (hkeeps : Keeps text { line := l.line, column := l.column } x) (h : Counted text l)
    (hget : l.getc = (some c, l')) (hblank : ¬ isBlank c = true)
    (hslash : c = '/' → l'.remaining.head? ≠ some '/') : Placed text l x := by
  apply hkeeps.placed h
  rw [Lexer.remaining_of_getc hget]
  exact skip_cons_self (Bool.not_eq_true _ ▸ hblank) hslash

/-- **Where `next_token()` counts.** -/
theorem placed_nextToken (L : Library) (h : Counted text l) (hunget : l.unget.length ≤ 1) :
    Placed text l (l.nextToken L) := by
  fun_induction Lexer.nextToken L l with
  | case1 l t l' hget =>
    refine ⟨(h.of_getc hget).counted, fun hne => absurd ?_ hne⟩
    rw [Lexer.remaining_of_getc_none hget]
    rfl
  | case2 l c l' hget hblank ih =>
    have hat := Lexer.at_of_getc hunget hget
    have hplaced := ih (h.of_getc hget).counted (hat.unget.trans (Nat.zero_le 1))
    have hremaining := Lexer.remaining_of_getc hget
    have hskip : skip false l.remaining = skip false l'.remaining := by
      rw [hremaining, skip_cons_of_isBlank hblank]
    exact hplaced.of_skip hskip (hremaining ▸ skip_blank_ne hblank) hat.unget_eq_nil
  | case3 l l' l'' hget' hget hblank ih =>
    have hat := Lexer.at_of_getc hunget hget
    have hat' := Lexer.at_of_getc (hat.unget.trans (Nat.zero_le 1)) hget'
    obtain ⟨-, hafter⟩ := hat'.readUntil '\n'
    have hplaced := ih (((h.of_getc hget).counted.of_getc hget').counted.readUntil '\n')
      (hafter.unget.trans (Nat.zero_le 1))
    have hremaining : l.remaining = '/' :: '/' :: l''.remaining := by
      rw [Lexer.remaining_of_getc hget, Lexer.remaining_of_getc hget']
    have hskip : skip false l.remaining = skip false (l''.readUntil '\n').2.remaining := by
      rw [hremaining, skip_comment, hafter.remaining]
    exact hplaced.of_skip hskip (hremaining ▸ skip_comment_ne _) hafter.unget_eq_nil
  | case4 l t l' c l'' hne hget' hget hblank =>
    -- a division, whose next character is given back
    have hkeeps : Keeps text t (l''.ungetc c >>= fun l₃ =>
        pure ({ t with token := .divide }, l₃)) :=
      keeps_bind fun l₃ hgive =>
        ⟨rfl, rfl, ((h.of_getc hget).counted.of_getc hget').ungetc hgive⟩
    refine hkeeps.placed_of_getc h hget hblank fun _ => ?_
    rw [← l'.getc_fst, hget']
    exact hne
  | case5 l t l' hget hblank hslash =>
    exact (keeps_variableToken (h.of_getc hget).counted).placed_of_getc h hget hblank
      fun heq => absurd heq hslash
  | case6 l t l' hget hblank hslash =>
    exact (keeps_timespecToken (h.of_getc hget).counted).placed_of_getc h hget hblank
      fun heq => absurd heq hslash
  | case7 l t l' hget hblank hslash =>
    exact (keeps_addressToken (h.of_getc hget).counted).placed_of_getc h hget hblank
      fun heq => absurd heq hslash
  | case8 l t c l' hget hblank hslash _ _ _ hnumber =>
    have hc := isNumberChar_of_start hnumber
    exact (keeps_numberToken hc (h.of_getc hget).counted).placed_of_getc h hget hblank
      fun heq => absurd heq hslash
  | case9 l t c l' hget hblank hslash _ _ _ _ hname =>
    have hc := (isNameStart_iff.mp hname).1
    exact (keeps_identifierToken hc (h.of_getc hget).counted).placed_of_getc h hget hblank
      fun heq => absurd heq hslash
  | case10 l t c l' hget hblank hslash _ _ _ _ _ kind =>
    have hkeeps : Keeps text t (.ok ({ t with token := kind }, l')) :=
      ⟨rfl, rfl, (h.of_getc hget).counted⟩
    exact hkeeps.placed_of_getc h hget hblank fun heq => absurd heq hslash
  | case11 l t c l' hget hblank hslash =>
    exact (keeps_stringToken (h.of_getc hget).counted).placed_of_getc h hget hblank
      fun heq => absurd heq hslash
  | case12 l t c l' hget hblank hslash =>
    have hkeeps : Keeps text t (.ok (l'.error t
        ("unexpected character (".toList ++ [c] ++ ").".toList))) :=
      ⟨rfl, rfl, (h.of_getc hget).counted⟩
    exact hkeeps.placed_of_getc h hget hblank fun heq => absurd heq hslash

/-! ### The calls on a program -/

/-- The text in front of the next token. -/
def inFront (program : Str) (l : Lexer) : Str :=
  (lineEnds program).take ((lineEnds program).length - (skip false l.remaining).length)

/-- The token of a call has the line and the column of its first character.  The end of the program
has no first character. -/
def HasPosition (program : Str) (l : Lexer) (t : Token) : Prop :=
  skip false l.remaining ≠ [] → t.line.toNat = lineAt '\n' (inFront program l) ∧
    t.column.toNat = columnAt '\n' (inFront program l)

/-- All the tokens of a program have the position of their first character. -/
def PositionsExact (L : Library) (filename program : Str) : Prop :=
  ∀ ts l t l', Calls L (.ofProgram filename program) ts l → l.nextToken L = .ok (t, l') →
    HasPosition program l t

/-- The next token starts on the character that the call before gave back. -/
def GivenBack (l : Lexer) : Prop := l.unget ≠ [] ∧ skip false l.remaining = l.remaining

/-- The line and the column of the next token fit in their fields of 32 bits. -/
def PositionFits (program : Str) (l : Lexer) : Prop :=
  skip false l.remaining ≠ [] → lineAt '\n' (inFront program l) < 2 ^ 32 ∧
    columnAt '\n' (inFront program l) < 2 ^ 32

/-- What holds between the calls. -/
structure Reading (text : Str) (l : Lexer) : Prop where
  counted : Counted text l
  /-- At most one character was given back. -/
  unget : l.unget.length ≤ 1
  /-- The end of the text remains. -/
  suffix : l.remaining <:+ text

lemma reading_ofProgram (filename program : Str) :
    Reading (lineEnds program) (.ofProgram filename program) :=
  ⟨.inr ⟨[], rfl, rfl, rfl⟩, Nat.zero_le 1, List.suffix_refl _⟩

lemma Reading.nextToken {L : Library} {t : Token} {l' : Lexer} (h : Reading text l)
    (hnext : l.nextToken L = .ok (t, l')) : Reading text l' := by
  have hplaced := placed_nextToken L h.counted h.unget
  rw [hnext] at hplaced
  obtain ⟨r, hscan, hat⟩ := agree_ok_left ⟨rfl, h.unget⟩ hnext
  obtain ⟨g, x, -, -, hr, -⟩ := scan_covers hscan
  refine ⟨hplaced.1, hat.unget, List.IsSuffix.trans ?_ h.suffix⟩
  rw [hat.remaining]
  exact ⟨_, hr.symm⟩

lemma Calls.reading {L : Library} {ts : List Token} {l' : Lexer} (h : Calls L l ts l')
    (hl : Reading text l) : Reading text l' := by
  induction h with
  | nil => exact hl
  | cons hnext _ ih => exact ih (hl.nextToken hnext)

lemma inFront_eq {program p : Str} (h : lineEnds program = p ++ skip false l.remaining) :
    inFront program l = p := by
  rw [inFront, h, List.length_append, Nat.add_sub_cancel]
  exact List.take_left' rfl

/-- A number is the value of a counter of 32 bits when it fits. -/
lemma toNat_counter_iff (n : ℕ) : (UInt32.ofNat n).toNat = n ↔ n < 2 ^ 32 := by
  rw [UInt32.toNat_ofNat']
  omega

/-- The counters stand in front of the token, or behind its first character. -/
lemma StartsAt.read_eq {t : Token} {l₀ : Lexer} {p read : Str} (h : StartsAt text l t l₀)
    (hunget : l.unget.length ≤ 1) (hp : p ++ skip false l.remaining = text)
    (hread : text = read ++ lineEnds l₀.iterator) :
    (¬ GivenBack l ∧ read = p) ∨ (GivenBack l ∧ ∃ c, c ≠ '\n' ∧ read = p ++ [c]) := by
  have hboth : p ++ (l₀.unget ++ lineEnds l₀.iterator) = read ++ lineEnds l₀.iterator := by
    rw [← hread, ← hp, ← h.remaining]
    rfl
  rw [← List.append_assoc, List.append_cancel_right_eq] at hboth
  rcases h.unget with rfl | ⟨hempty, hne⟩
  · rcases hgiven : l₀.unget with _ | ⟨c, rest⟩
    · rw [hgiven, List.append_nil] at hboth
      exact .inl ⟨fun hg => hg.1 hgiven, hboth.symm⟩
    · obtain rfl : rest = [] := by
        rw [hgiven, List.length_cons] at hunget
        exact List.length_eq_zero_iff.mp (by omega)
      rw [hgiven] at hboth
      have hne : l₀.unget ≠ [] := by
        rw [hgiven]
        exact List.cons_ne_nil _ _
      refine .inr ⟨⟨hne, h.remaining.symm⟩, c, ?_, hboth.symm⟩
      rintro rfl
      have hskip := h.remaining.symm
      rw [Lexer.remaining, hgiven] at hskip
      exact skip_blank_ne (by decide) hskip
  · rw [hempty, List.append_nil] at hboth
    exact .inl ⟨fun hg => hne hg.2, hboth.symm⟩

/-- **The position of one token** is right exactly when the token does not start on the character
that was given back, and the position fits. -/
theorem hasPosition_iff {L : Library} {program : Str} {t : Token} {l' : Lexer}
    (h : Reading (lineEnds program) l) (hnext : l.nextToken L = .ok (t, l')) :
    HasPosition program l t ↔ ¬ GivenBack l ∧ PositionFits program l := by
  have hplaced := placed_nextToken L h.counted h.unget
  rw [hnext] at hplaced
  by_cases hnil : skip false l.remaining = []
  · -- the end of the program
    refine iff_of_true (fun hne => absurd hnil hne) ⟨?_, fun hne => absurd hnil hne⟩
    rintro ⟨hunget, hskip⟩
    rw [hnil] at hskip
    exact hunget (List.append_eq_nil_iff.mp hskip.symm).1
  obtain ⟨l₀, hstart⟩ := hplaced.2 hnil
  obtain ⟨read, hread, hline, hcolumn⟩ := hstart.counts
  obtain ⟨p, hp⟩ := (skip_suffix l.remaining).trans h.suffix
  rw [HasPosition, PositionFits, inFront_eq hp.symm, hstart.line, hstart.column, hline, hcolumn]
  rcases hstart.read_eq h.unget hp hread with ⟨hfresh, rfl⟩ | ⟨hgiven, c, hc, rfl⟩
  · rw [toNat_counter_iff, toNat_counter_iff]
    exact (and_iff_right hfresh).symm
  · -- the column is the next one
    refine iff_of_false (fun hexact => ?_) fun hcond => hcond.1 hgiven
    have hcolumn' := (hexact hnil).2
    rw [columnAt_append_singleton, if_neg hc, UInt32.toNat_ofNat'] at hcolumn'
    omega

/-- **The positions of the tokens are exact** when no token starts on the character that the call
before gave back, and every position fits in 32 bits; and only then. -/
theorem positionsExact_iff (L : Library) (filename program : Str) :
    PositionsExact L filename program ↔
      ∀ ts l t l', Calls L (.ofProgram filename program) ts l → l.nextToken L = .ok (t, l') →
        ¬ GivenBack l ∧ PositionFits program l := by
  constructor
  · intro hexact ts l t l' hcalls hnext
    have hreading := hcalls.reading (reading_ofProgram filename program)
    exact (hasPosition_iff hreading hnext).mp (hexact ts l t l' hcalls hnext)
  · intro hcond ts l t l' hcalls hnext
    have hreading := hcalls.reading (reading_ofProgram filename program)
    exact (hasPosition_iff hreading hnext).mpr (hcond ts l t l' hcalls hnext)

/-- The lexer between the two tokens of `a(`. -/
def betweenTokens : Lexer := { iterator := [], unget := ['('], line := 1, column := 3 }

/-- The name is read with the parenthesis, which is given back. -/
lemma nextToken_name :
    (Lexer.ofProgram [] ['a', '(']).nextToken .integers =
      .ok ({ token := .identifier, string := ['a'], line := 1, column := 1 }, betweenTokens) := by
  have hstop : (Lexer.mk [] [] [] 1 3 []).readWhile isNameChar (some '(')
      = ([], some '(', .mk [] [] [] 1 3 []) := by
    rw [Lexer.readWhile, if_neg (by decide)]
  have hloop : (Lexer.mk [] ['('] [] 1 2 []).readWhile isNameChar (some 'a')
      = (['a'], some '(', .mk [] [] [] 1 3 []) := by
    rw [Lexer.readWhile_some (by decide)]
    exact congrArg (fun x => ('a' :: x.1, x.2)) hstop
  rw [Lexer.nextToken]
  split
  next heq => cases heq
  next heq =>
    cases heq
    change Lexer.identifierToken _ 'a' (.mk [] ['('] [] 1 2 []) = _
    rw [Lexer.identifierToken, hloop]
    rfl

/-- The parenthesis of `a(` is reported at the column 3. -/
theorem not_positionsExact_call :
    ¬ ∀ (L : Library) (filename program : Str), PositionsExact L filename program := by
  intro h
  have hsecond : betweenTokens.nextToken .integers =
      .ok ({ token := .openParenthesis, line := 1, column := 3 }, .mk [] [] [] 1 3 []) := by
    rw [Lexer.nextToken]
    split
    next heq => cases heq
    next heq =>
      cases heq
      rfl
  have hposition := h .integers [] ['a', '('] _ _ _ _ (.cons nextToken_name (.nil _)) hsecond
  exact absurd (hposition (by decide)).2 (by decide)

end EventDispatcher.Reporter
