import EventDispatcher.Reporter.Statement

/-!
# The parser of the reporter language

The parser is a recursive descent over the tokens, of which the first one is `f_token`; when
there are no more the lexer returns `TOKEN_EOF`.  It accepts the phrases of its grammar
(`DerivesProgram`) whose statements pass the checks, and builds the trees that the grammar gives
them (`parseProgram_eq_ok`); what `Expression.print` writes is read back as it was
(`comparative_print`).
-/

namespace EventDispatcher.Reporter

open Lib

/-- `f_token` -/
def current (toks : List Token) : Token := toks.headD {}

/-- `lexer::error()` about the current token, and the exception. -/
def fail {α : Type} (message what : String) (toks : List Token) : Except Failure α :=
  .error (.error (current toks) message.toList what.toList)

/-- `next_token()` -/
def nextToken (toks : List Token) : Except Failure (List Token) :=
  if (current toks.tail).token = .error then
    fail "a statement includes an unexpected token." "invalid token." toks.tail
  else .ok toks.tail

/-- `next_token()`, with an error at the end of the file -/
def nextTokenNotEof (message what : String) (toks : List Token) : Except Failure (List Token) := do
  let toks ← nextToken toks
  if (current toks).token = .eof then fail message what toks else .ok toks

/-- The check of the type of the current token. -/
def expect (type : TokenType) (message what : String) (toks : List Token) :
    Except Failure Unit :=
  if (current toks).token = type then .ok () else fail message what toks

/-! ## The functions of the parser -/

/-- The operators of a level, as they put two expressions together. -/
def binaryOperator (l : Level) (t : Token) : Option (Expression → Expression → Expression) :=
  (l.operator t.token).map Expression.binary

/-- `multiplicative()`, on the function for its operands -/
def multiplicative (primary : Parser Token Failure Expression) : Parser Token Failure Expression :=
  chain .outOfFuel nextToken (binaryOperator .multiplicative) primary

/-- `additive()` -/
def additive (primary : Parser Token Failure Expression) : Parser Token Failure Expression :=
  chain .outOfFuel nextToken (binaryOperator .additive) (multiplicative primary)

/-- `comparative()` -/
def comparative (primary : Parser Token Failure Expression) : Parser Token Failure Expression :=
  chain .outOfFuel nextToken (binaryOperator .comparative) (additive primary)

/-- `primary()` -/
def primary : ℕ → Parser Token Failure Expression
  | 0, _ => .error .outOfFuel
  | fuel + 1, toks =>
    if h : (current toks).token.isValue = true then do
      let rest ← nextToken toks
      return (.primary ⟨current toks, h⟩, rest)
    else
      match (current toks).token.sign with
      | some sign => do
        let rest ← nextToken toks
        let (e, rest) ← primary fuel rest
        return (.unary sign e, rest)
      | none =>
        if (current toks).token = .openParenthesis then do
          let message :=
            "an expression between parenthesis must include at least one primary expression."
          let rest ← nextTokenNotEof message message toks
          let (e, rest) ← comparative (primary fuel) rest
          let message := "an expression between parenthesis must include the ')' at the end."
          expect .closeParenthesis message message rest
          let rest ← nextToken rest
          return (e, rest)
        else fail "expected a primary token for expression."
          "expected a primary token for expression." toks

/-- `list_item()` -/
def listItem (fuel : ℕ) : Parser Token Failure ListItem := fun toks => do
  let message := "a list item must be named using an identifier."
  expect .identifier message message toks
  let name := current toks
  let rest ← nextTokenNotEof "a list must end with a '\x7d'." "a list must end with a '\x7d'." toks
  if (current rest).token = .colon then do
    let message := "a list item with a colon (:) must be followed by an expression."
    let rest ← nextTokenNotEof message message rest
    let (e, rest) ← comparative (primary fuel) rest
    return (⟨name, some e⟩, rest)
  else return (⟨name, none⟩, rest)

/-- The commas between the items of a list. -/
def isComma (t : Token) : Bool := t.token = .comma

/-- The items of a list or an array, from after the opening brace to after the closing one. -/
def enclosed {α : Type} (close : TokenType) (mustEnd eof : String)
    (item : Parser Token Failure α) : Parser Token Failure (List α) := fun toks =>
  if (current toks).token = close then do
    let rest ← nextToken toks
    return ([], rest)
  else do
    let (items, rest) ← sepBy .outOfFuel (nextTokenNotEof eof eof) isComma item
      (fun items a => .ok (items ++ [a])) [] toks
    expect close mustEnd mustEnd rest
    let rest ← nextToken rest
    return (items, rest)

/-- `expression_list()` -/
def expressionList (fuel : ℕ) : Parser Token Failure (List ListItem) :=
  enclosed .closeCurlyBrace "a list of parameter values must end with '\x7d'."
    "end of file found before end of list ('\x7d' missing)." (listItem fuel)

/-- `expression_array()` -/
def expressionArray (fuel : ℕ) : Parser Token Failure (List Expression) :=
  enclosed .closeSquareBrace "an array of values must end with ']'."
    "end of file found before end of array (']' missing)." (comparative (primary fuel))

/-- The value in `one_parameter()`. -/
def argument (fuel : ℕ) : Parser Token Failure Argument := fun toks =>
  if (current toks).token = .openCurlyBrace then do
    let rest ← nextToken toks
    let (items, rest) ← expressionList fuel rest
    return (.list items, rest)
  else if (current toks).token = .openSquareBrace then do
    let rest ← nextToken toks
    let (items, rest) ← expressionArray fuel rest
    return (.array items, rest)
  else do
    let (e, rest) ← comparative (primary fuel) toks
    return (.expression e, rest)

/-- `one_parameter()`, up to its call of `add_parameter()` -/
def oneParameter (fuel : ℕ) : Parser Token Failure (Str × Argument) := fun toks => do
  expect .identifier "an instruction parameter must be named using an identifier."
    "expected identifier to name parameter." toks
  let name := (current toks).string
  let rest ← nextTokenNotEof "expected ':' after parameter name, not EOF."
    "expected ':' after parameter name, not EOF." toks
  expect .colon "an instruction parameter must be followed by a ':'."
    "expected ':' after parameter name." rest
  let rest ← nextTokenNotEof
    "an instruction parameter must be followed by ':' and then an expression; expression missing."
    "expected expression." rest
  let (value, rest) ← argument fuel rest
  return ((name, value), rest)

/-- `parameters()` -/
def parameters (fuel : ℕ) : Statement → Parser Token Failure Statement :=
  sepBy .outOfFuel nextToken isComma (oneParameter fuel) Statement.addParameter

/-- The parameters between the parentheses, when there are some. -/
def optionalParameters (fuel : ℕ) (stmt : Statement) : Parser Token Failure Statement :=
  fun toks =>
    if (current toks).token ≠ .closeParenthesis then parameters fuel stmt toks
    else .ok (stmt, toks)

section Program

variable (instructions : List Instruction) (filename : Str)

/-- `one_statement()`; it ends on the closing parenthesis. -/
def oneStatement (fuel : ℕ) (s : Program) : Parser Token Failure Program := fun toks => do
  expect .identifier
    ("a statement is expected to start with the name of an instruction "
      ++ "(a.k.a. an identifier).") "expected identifier." toks
  match getInstruction instructions (current toks).string with
  | none => .error (.error (current toks) ("unknown instruction \"".toList
      ++ (current toks).string ++ "\".".toList) "unknown instruction.".toList)
  | some inst => do
    let rest ← nextToken toks
    if (current rest).token = .eof then
      .error (.error (current rest) ("an instruction (\"".toList ++ (current toks).string
        ++ "\" here) must include parenthesis, end of file found.".toList)
        "expected '(' parenthesis instead of EOF.".toList)
    else do
      expect .openParenthesis "an instruction name must be followed by '('."
        "expected '(' parenthesis." rest
      let rest ← nextTokenNotEof
        "an instruction must end with a closing parenthesis, end of file found."
        "expected ')' parenthesis instead of EOF." rest
      let (stmt, rest) ← optionalParameters fuel
        { instruction := inst, filename := filename, line := (current toks).line } rest
      expect .closeParenthesis
        "an instruction parameter list must end with a closing parenthesis."
        "expected ')' parenthesis to end parameter list." rest
      stmt.verifyParameters
      let s ← s.addStatement stmt
      return (s, rest)

/-- The loop of `parse_program()`. -/
def parseStatements (fuel : ℕ) : ℕ → Program → List Token → Except Failure Program
  | 0, _, _ => .error .outOfFuel
  | n + 1, s, toks => do
    let rest ← nextToken toks
    if (current rest).token = .eof then return s
    else do
      let (s, rest) ← oneStatement instructions filename fuel s rest
      parseStatements fuel n s rest

/-- `parse_program()`; before the first call of `next_token()` the current token is an empty one. -/
def parseProgram (s : Program) (toks : List Token) : Except Failure Program :=
  parseStatements instructions filename (toks.length + 1) (toks.length + 1) s ({} :: toks)

end Program

/-! ## The look-ahead -/

/-- The look-ahead is not an error of the lexer. -/
def NotError (rest : List Token) : Prop := (current rest).token ≠ .error

/-- The look-ahead is a token of the program. -/
def NotErrorNotEof (rest : List Token) : Prop := NotError rest ∧ (current rest).token ≠ .eof

lemma fail_ne_ok {α : Type} {message what : String} {toks : List Token} {a : α} :
    fail message what toks ≠ .ok a := nofun

lemma fail_ne_outOfFuel {α : Type} (message what : String) (toks : List Token) :
    (fail message what toks : Except Failure α) ≠ .error .outOfFuel := nofun

lemma advances_nextToken : Advances .outOfFuel NotError nextToken where
  tail h := by
    rw [nextToken] at h
    split at h
    · exact absurd h fail_ne_ok
    · exact (Except.ok.inj h).symm
  ne_out toks := by
    rw [nextToken]
    split
    · exact fail_ne_outOfFuel _ _ _
    · nofun
  ok h := by rw [nextToken, if_neg h]

lemma advances_nextTokenNotEof (message what : String) :
    Advances .outOfFuel NotErrorNotEof (nextTokenNotEof message what) where
  tail h := by
    obtain ⟨toks', hnext, h⟩ := exists_of_bind_eq_ok h
    split at h
    · exact absurd h fail_ne_ok
    · rw [← Except.ok.inj h]
      exact advances_nextToken.tail hnext
  ne_out toks := by
    refine bind_ne_error (advances_nextToken.ne_out _) fun toks' _ => ?_
    split
    · exact fail_ne_outOfFuel _ _ _
    · nofun
  ok {toks} h := by
    have hnext : nextToken toks = .ok toks.tail := advances_nextToken.ok h.1
    rw [nextTokenNotEof, hnext]
    exact if_neg h.2

lemma expect_eq_ok {type : TokenType} {message what : String} {toks : List Token} {u : Unit} :
    expect type message what toks = .ok u ↔ (current toks).token = type := by
  rw [expect]
  split
  · rename_i h
    exact iff_of_true rfl h
  · rename_i h
    exact iff_of_false fail_ne_ok h

lemma expect_ne_outOfFuel (type : TokenType) (message what : String) (toks : List Token) :
    expect type message what toks ≠ .error .outOfFuel := by
  rw [expect]
  split
  · nofun
  · exact fail_ne_outOfFuel _ _ _

/-- A current token that is not the end is the first token of the list. -/
lemma eq_cons_of_current {toks : List Token} (h : (current toks).token ≠ .eof) :
    toks = current toks :: toks.tail := by
  cases toks with
  | nil => exact absurd rfl h
  | cons t toks => rfl

/-- The tokens that are a value, a sign or a parenthesis are tokens of the program. -/
lemma phrases_derives (l : Level) : Phrases NotErrorNotEof (Derives l) where
  ne_nil h := by
    obtain ⟨t, w, rfl, -⟩ := h.exists_cons
    exact List.cons_ne_nil _ _
  good h rest := by
    obtain ⟨t, w, rfl, ht⟩ := h.exists_cons
    change t.token ≠ .error ∧ t.token ≠ .eof
    constructor <;> intro heq <;> rw [heq] at ht <;> revert ht <;> decide

lemma phrases_notError {α : Type} {R : List Token → α → Prop} (h : Phrases NotErrorNotEof R) :
    Phrases NotError R :=
  ⟨h.ne_nil, fun hw rest => (h.good hw rest).1⟩

/-! ## Expressions -/

/-- The look-ahead cannot go on with an expression of a level. -/
def Ends (l : Level) (rest : List Token) : Prop :=
  NotError rest ∧ ∀ l' : Level, l'.rank ≤ l.rank → l'.operator (current rest).token = none

lemma chain_iff_derives {l l' : Level} (hl : l.operand = some l') {w : List Token}
    {e : Expression} : Chain (binaryOperator l) (Derives l') w e ↔ Derives l w e := by
  constructor
  · intro h
    induction h with
    | operand h => exact .operand hl h
    | step hu ht hv ih =>
      obtain ⟨op, hop, rfl⟩ := Option.map_eq_some_iff.mp ht
      exact .binary hl ih hop hv
  · intro h
    induction h with
    | token | sign | parentheses => cases hl
    | operand hl' h => exact .operand (Option.some.inj (hl'.symm.trans hl) ▸ h)
    | binary hl' hu ht hv ihu ihv =>
      obtain rfl := Option.some.inj (hl'.symm.trans hl)
      exact .step (ihu hl) (by rw [binaryOperator, ht]; rfl) hv

lemma head?_bind_binaryOperator {l : Level} {rest : List Token} :
    rest.head?.bind (binaryOperator l) = none ↔ l.operator (current rest).token = none := by
  cases rest with
  | nil => cases l <;> exact iff_of_true rfl rfl
  | cons t rest => exact Option.map_eq_none_iff

/-- A function of the parser for a level of operators reads the phrases of the level. -/
lemma parses_level {n : ℕ} {l l' : Level} (hl : l.operand = some l')
    {p : Parser Token Failure Expression} (hp : Parses .outOfFuel n p (Derives l') (Ends l')) :
    Parses .outOfFuel n (chain .outOfFuel nextToken (binaryOperator l) p) (Derives l) (Ends l) := by
  have hop : ∀ t f rest, binaryOperator l t = some f → Ends l' (t :: rest) := by
    intro t f rest ht
    obtain ⟨op, hop, -⟩ := Option.map_eq_some_iff.mp ht
    -- an operator of this level is no operator of a level below it
    change t.token ≠ .error ∧ ∀ l'' : Level, l''.rank ≤ l'.rank → l''.operator t.token = none
    revert hop
    generalize t.token = type
    intro hop
    refine ⟨?_, fun l'' hrank => ?_⟩
    · rintro rfl
      cases l <;> cases hop
    · cases l <;> cases hl <;> cases type <;> cases hop <;> cases l'' <;>
        first | rfl | exact absurd hrank (by decide)
  have h := parses_chain advances_nextToken (phrases_notError (phrases_derives l')) hp hop
  refine ⟨fun hok => ?_, h.total, fun hw hn hrest => ?_⟩
  · obtain ⟨w, hw, hchain⟩ := h.sound hok
    exact ⟨w, hw, (chain_iff_derives hl).mp hchain⟩
  · refine h.complete ((chain_iff_derives hl).mpr hw) hn
      ⟨⟨hrest.1, fun l'' hrank => hrest.2 l'' (hrank.trans ?_)⟩,
        head?_bind_binaryOperator.mpr (hrest.2 l le_rfl)⟩
    revert hl
    cases l <;> cases l' <;> decide

lemma parses_comparative_of_primary {n : ℕ} {p : Parser Token Failure Expression}
    (hp : Parses .outOfFuel n p (Derives .primary) (Ends .primary)) :
    Parses .outOfFuel n (comparative p) (Derives .comparative) (Ends .comparative) :=
  parses_level rfl (parses_level rfl (parses_level rfl hp))

lemma sign_of_isValue {type : TokenType} (h : type.isValue = true) : type.sign = none := by
  cases type <;> first | rfl | exact absurd h (by decide)

lemma primary_sound (n : ℕ) {toks rest : List Token} {e : Expression}
    (hp : Parses .outOfFuel n (primary n) (Derives .primary) (Ends .primary))
    (h : primary (n + 1) toks = .ok (e, rest)) : ∃ w, toks = w ++ rest ∧ Derives .primary w e := by
  rw [primary] at h
  split at h
  · rename_i hvalue
    obtain ⟨toks', hnext, hok⟩ := exists_of_bind_eq_ok h
    cases hok
    have htoks := eq_cons_of_current fun heof => absurd hvalue (by rw [heof]; decide)
    rw [advances_nextToken.tail hnext]
    exact ⟨[current toks], htoks, .token ⟨current toks, hvalue⟩⟩
  · split at h
    · rename_i sign hsign
      obtain ⟨toks', hnext, hrest⟩ := exists_of_bind_eq_ok h
      obtain ⟨⟨e', rest'⟩, hprimary, hok⟩ := exists_of_bind_eq_ok hrest
      cases hok
      have htoks := eq_cons_of_current fun heof => absurd hsign (by rw [heof]; nofun)
      obtain ⟨w, hw, hderives⟩ := hp.sound hprimary
      rw [advances_nextToken.tail hnext] at hw
      exact ⟨current toks :: w, by rw [htoks, hw]; rfl, .sign hsign hderives⟩
    · split at h
      · rename_i hopen
        obtain ⟨toks', hnext, hrest⟩ := exists_of_bind_eq_ok h
        obtain ⟨⟨e', toks₁⟩, hcomparative, hclose⟩ := exists_of_bind_eq_ok hrest
        obtain ⟨_, hexpect, hlast⟩ := exists_of_bind_eq_ok hclose
        obtain ⟨toks₂, hnext₂, hok⟩ := exists_of_bind_eq_ok hlast
        cases hok
        have htoks := eq_cons_of_current fun heof => absurd hopen (by rw [heof]; nofun)
        have hclose := expect_eq_ok.mp hexpect
        have htoks₁ := eq_cons_of_current fun heof => absurd hclose (by rw [heof]; nofun)
        obtain ⟨w, hw, hderives⟩ := (parses_comparative_of_primary hp).sound hcomparative
        rw [(advances_nextTokenNotEof _ _).tail hnext] at hw
        refine ⟨current toks :: (w ++ [current toks₁]), ?_, .parentheses hopen hderives hclose⟩
        rw [htoks, hw, advances_nextToken.tail hnext₂, List.cons_append, List.append_assoc,
          List.singleton_append, ← htoks₁]
        rfl
      · exact absurd h fail_ne_ok

lemma primary_total (n : ℕ) {toks : List Token}
    (hp : Parses .outOfFuel n (primary n) (Derives .primary) (Ends .primary))
    (hn : toks.length < n + 1) : primary (n + 1) toks ≠ .error .outOfFuel := by
  have hlt (h : (current toks).token ≠ .eof) : toks.tail.length < n := by
    rw [eq_cons_of_current h, List.length_cons] at hn
    omega
  rw [primary]
  split
  · exact bind_ne_error (advances_nextToken.ne_out _) nofun
  · split
    · rename_i sign hsign
      refine bind_ne_error (advances_nextToken.ne_out _) fun toks' hnext => ?_
      rw [advances_nextToken.tail hnext]
      exact bind_ne_error (hp.total (hlt fun heof => absurd hsign (by rw [heof]; nofun))) nofun
    · split
      · rename_i hopen
        refine bind_ne_error ((advances_nextTokenNotEof _ _).ne_out _) fun toks' hnext => ?_
        rw [(advances_nextTokenNotEof _ _).tail hnext]
        refine bind_ne_error ((parses_comparative_of_primary hp).total
          (hlt fun heof => absurd hopen (by rw [heof]; nofun))) fun r _ => ?_
        refine bind_ne_error (expect_ne_outOfFuel _ _ _ _) fun _ _ => ?_
        exact bind_ne_error (advances_nextToken.ne_out _) nofun
      · exact fail_ne_outOfFuel _ _ _

/-- A closing parenthesis ends an expression. -/
lemma ends_closeParenthesis {t : Token} (ht : t.token = .closeParenthesis) (rest : List Token) :
    Ends .comparative (t :: rest) := by
  refine ⟨?_, fun l _ => ?_⟩
  · change t.token ≠ .error
    rw [ht]
    decide
  · change l.operator t.token = none
    rw [ht]
    cases l <;> rfl

lemma primary_complete (n : ℕ) {w rest : List Token} {e : Expression}
    (hp : Parses .outOfFuel n (primary n) (Derives .primary) (Ends .primary))
    (hw : Derives .primary w e) (hn : w.length < n + 1) (hrest : Ends .primary rest) :
    primary (n + 1) (w ++ rest) = .ok (e, rest) := by
  cases hw with
  | token t =>
    have hnext : nextToken (t.1 :: rest) = .ok rest := advances_nextToken.ok hrest.1
    have hvalue : (current (t.1 :: rest)).token.isValue = true := t.2
    rw [List.singleton_append, primary, dif_pos hvalue, hnext]
    rfl
  | @sign t s w e ht h =>
    have hnext : nextToken (t :: (w ++ rest)) = .ok (w ++ rest) :=
      advances_nextToken.ok ((phrases_notError (phrases_derives _)).good h rest)
    have hvalue : ¬ (current (t :: (w ++ rest))).token.isValue = true := fun hv => by
      rw [sign_of_isValue (show t.token.isValue = true from hv)] at ht
      cases ht
    have hsign : (current (t :: (w ++ rest))).token.sign = some s := ht
    rw [List.length_cons] at hn
    rw [List.cons_append, primary, dif_neg hvalue, hsign, hnext]
    change (primary n (w ++ rest)).bind _ = _
    rw [hp.complete h (by omega) hrest]
    rfl
  | @parentheses t t' w e ht h ht' =>
    simp only [List.length_cons, List.length_append, List.length_nil] at hn
    have hends : Ends .comparative (t' :: rest) := ends_closeParenthesis ht' rest
    have hnext : nextTokenNotEof
        "an expression between parenthesis must include at least one primary expression."
        "an expression between parenthesis must include at least one primary expression."
        (t :: (w ++ t' :: rest)) = .ok (w ++ t' :: rest) :=
      (advances_nextTokenNotEof _ _).ok ((phrases_derives _).good h _)
    have hlast : nextToken (t' :: rest) = .ok rest := advances_nextToken.ok hrest.1
    have htoken : (current (t :: (w ++ t' :: rest))).token = .openParenthesis := ht
    have hvalue : ¬ (current (t :: (w ++ t' :: rest))).token.isValue = true := by
      rw [htoken]
      decide
    have hsign : (current (t :: (w ++ t' :: rest))).token.sign = none := by
      rw [htoken]
      rfl
    have hclose : (current (t' :: rest)).token = .closeParenthesis := ht'
    rw [List.cons_append, List.append_assoc, List.singleton_append, primary, dif_neg hvalue,
      hsign]
    change (if _ then (nextTokenNotEof _ _ _).bind _ else _) = _
    rw [if_pos htoken, hnext]
    change (comparative (primary n) (w ++ t' :: rest)).bind _ = _
    rw [(parses_comparative_of_primary hp).complete h (by omega) hends]
    change (expect _ _ _ (t' :: rest)).bind _ = _
    rw [expect, if_pos hclose]
    change (nextToken (t' :: rest)).bind _ = _
    rw [hlast]
    rfl
  | operand hl => cases hl
  | binary hl => cases hl

/-- **Primary expressions.**  With fuel for its tokens `primary()` reads its phrases. -/
theorem parses_primary (n : ℕ) :
    Parses .outOfFuel n (primary n) (Derives .primary) (Ends .primary) := by
  induction n with
  | zero => exact ⟨nofun, nofun, nofun⟩
  | succ n ih =>
    exact ⟨primary_sound n ih, primary_total n ih, primary_complete n ih⟩

/-- **Expressions.**  So does `comparative()`. -/
theorem parses_comparative (n : ℕ) :
    Parses .outOfFuel n (comparative (primary n)) (Derives .comparative) (Ends .comparative) :=
  parses_comparative_of_primary (parses_primary n)

/-- What is printed is read back. -/
lemma comparative_print (e : Expression) {rest : List Token} (hrest : Ends .comparative rest)
    {n : ℕ} (hn : (e.print .comparative).length < n) :
    comparative (primary n) (e.print .comparative ++ rest) = .ok (e, rest) :=
  (parses_comparative n).complete (e.derives_print .comparative) hn hrest

end EventDispatcher.Reporter
