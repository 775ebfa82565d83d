import EventDispatcher.Reporter.Parser

/-!
# What the parser accepts

The grammar of programs, from the values of the parameters to the statements, and the checks that
the parser makes of a statement (`Checked`).  `parse_program()` ends for all sequences of tokens;
it succeeds exactly for the phrases whose statements pass the checks and whose labels are new, and
the program it builds is the one that the grammar gives.
-/

namespace EventDispatcher.Reporter

open Lib

/-! ## The grammar -/

/-- An item of a list: a name, or a name with a value. -/
inductive DerivesItem : List Token → ListItem → Prop
  | name {t : Token} (ht : t.token = .identifier) : DerivesItem [t] ⟨t, none⟩
  | value {t t' : Token} {w : List Token} {e : Expression} (ht : t.token = .identifier)
      (ht' : t'.token = .colon) (h : Derives .comparative w e) :
      DerivesItem (t :: t' :: w) ⟨t, some e⟩

/-- What is between parentheses or braces: nothing, or items with commas between them. -/
inductive Enclosed {α : Type} (R : List Token → α → Prop) : List Token → List α → Prop
  | nil : Enclosed R [] []
  | items {w : List Token} {l : List α} (h : Separated isComma R w l) : Enclosed R w l

/-- The value of a parameter. -/
inductive DerivesArgument : List Token → Argument → Prop
  | expression {w : List Token} {e : Expression} (h : Derives .comparative w e) :
      DerivesArgument w (.expression e)
  | list {t t' : Token} {w : List Token} {l : List ListItem} (ht : t.token = .openCurlyBrace)
      (h : Enclosed DerivesItem w l) (ht' : t'.token = .closeCurlyBrace) :
      DerivesArgument (t :: (w ++ [t'])) (.list l)
  | array {t t' : Token} {w : List Token} {l : List Expression}
      (ht : t.token = .openSquareBrace) (h : Enclosed (Derives .comparative) w l)
      (ht' : t'.token = .closeSquareBrace) : DerivesArgument (t :: (w ++ [t'])) (.array l)

/-- A parameter. -/
inductive DerivesParameter : List Token → Str × Argument → Prop
  | mk {t t' : Token} {w : List Token} {a : Argument} (ht : t.token = .identifier)
      (ht' : t'.token = .colon) (h : DerivesArgument w a) :
      DerivesParameter (t :: t' :: w) (t.string, a)

/-- A statement as it is written: the name of its instruction, and its parameters. -/
structure Call where
  name : Token
  parameters : List (Str × Argument)

/-- A statement. -/
inductive DerivesStatement : List Token → Call → Prop
  | mk {t t₁ t₂ : Token} {w : List Token} {l : List (Str × Argument)}
      (ht : t.token = .identifier) (ht₁ : t₁.token = .openParenthesis)
      (h : Enclosed DerivesParameter w l) (ht₂ : t₂.token = .closeParenthesis) :
      DerivesStatement (t :: t₁ :: (w ++ [t₂])) ⟨t, l⟩

/-- A program. -/
inductive DerivesProgram : List Token → List Call → Prop
  | nil : DerivesProgram [] []
  | cons {w v : List Token} {c : Call} {l : List Call} (h : DerivesStatement w c)
      (hl : DerivesProgram v l) : DerivesProgram (w ++ v) (c :: l)

/-- The statement that is made of a call, when the call passes the checks. -/
structure Checked (instructions : List Instruction) (filename : Str) (c : Call)
    (stmt : Statement) : Prop where
  known : getInstruction instructions c.name.string = some stmt.instruction
  accepted : ∀ p ∈ c.parameters, ∃ d ∈ stmt.instruction.parameterDeclarations, d.name = p.1
  distinct : (c.parameters.map Prod.fst).Nodup
  complete : ∀ d ∈ stmt.instruction.parameterDeclarations, d.required →
    d.name ∈ c.parameters.map Prod.fst
  filename : stmt.filename = filename
  line : stmt.line = c.name.line
  parameters : stmt.parameters = (∅ : SortedMap Str Argument).insertAll c.parameters

/-! ## Items -/

/-- The look-ahead after an item: a comma or a closing parenthesis or brace. -/
def Closes (rest : List Token) : Prop :=
  (current rest).token ∈ [TokenType.comma, .closeParenthesis, .closeCurlyBrace, .closeSquareBrace]

lemma ends_of_closes {rest : List Token} (h : Closes rest) : Ends .comparative rest := by
  rw [Closes] at h
  rw [Ends, NotError]
  generalize (current rest).token = type at h ⊢
  refine ⟨?_, fun l _ => ?_⟩
  · rintro rfl
    exact absurd h (by decide)
  · cases type <;> first | exact absurd h (by decide) | (cases l <;> rfl)

lemma notErrorNotEof_of_closes {rest : List Token} (h : Closes rest) : NotErrorNotEof rest := by
  refine ⟨(ends_of_closes h).1, fun heof => ?_⟩
  rw [Closes, heof] at h
  exact absurd h (by decide)

lemma closes_cons {t : Token} {rest : List Token} {type : TokenType} (ht : t.token = type)
    (htype : type ∈ [TokenType.comma, .closeParenthesis, .closeCurlyBrace, .closeSquareBrace]) :
    Closes (t :: rest) := by
  rw [← ht] at htype
  exact htype

lemma closes_of_isComma (t : Token) (rest : List Token) (h : isComma t = true) :
    Closes (t :: rest) := by
  have ht : t.token = .comma := by simpa [isComma] using h
  exact closes_cons ht (by decide)

lemma notErrorNotEof_cons {t : Token} {rest : List Token} {type : TokenType}
    (ht : t.token = type) (hne : type ≠ .error ∧ type ≠ .eof) : NotErrorNotEof (t :: rest) := by
  rw [← ht] at hne
  exact hne

/-- Phrases that start with an identifier. -/
lemma phrases_of_identifier {α : Type} {R : List Token → α → Prop}
    (h : ∀ w a, R w a → ∃ t w', w = t :: w' ∧ t.token = .identifier) :
    Phrases NotErrorNotEof R where
  ne_nil hw := by
    obtain ⟨t, w', rfl, -⟩ := h _ _ hw
    exact List.cons_ne_nil _ _
  good hw rest := by
    obtain ⟨t, w', rfl, ht⟩ := h _ _ hw
    exact notErrorNotEof_cons ht (by decide)

lemma DerivesItem.exists_cons {w : List Token} {i : ListItem} (h : DerivesItem w i) :
    ∃ t w', w = t :: w' ∧ t.token = .identifier := by
  cases h with
  | name ht => exact ⟨_, _, rfl, ht⟩
  | value ht => exact ⟨_, _, rfl, ht⟩

lemma DerivesParameter.exists_cons {w : List Token} {p : Str × Argument}
    (h : DerivesParameter w p) : ∃ t w', w = t :: w' ∧ t.token = .identifier := by
  cases h with
  | mk ht => exact ⟨_, _, rfl, ht⟩

/-- The check of the current token, passed. -/
lemma expect_cons {t : Token} {rest : List Token} {type : TokenType} {message what : String}
    (ht : t.token = type) : expect type message what (t :: rest) = .ok () :=
  expect_eq_ok.mpr ht

/-- The next token, when it is not an error. -/
lemma nextToken_cons {t : Token} {rest : List Token} (h : NotError rest) :
    nextToken (t :: rest) = .ok rest :=
  advances_nextToken.ok h

lemma nextTokenNotEof_cons {t : Token} {rest : List Token} {message what : String}
    (h : NotErrorNotEof rest) : nextTokenNotEof message what (t :: rest) = .ok rest :=
  (advances_nextTokenNotEof message what).ok h

/-- The current token has the type that was checked. -/
lemma eq_cons_of_expect {type : TokenType} {message what : String} {toks : List Token} {u : Unit}
    (h : expect type message what toks = .ok u) (htype : type ≠ .eof) :
    ∃ t, toks = t :: toks.tail ∧ t.token = type := by
  have ht := expect_eq_ok.mp h
  exact ⟨current toks, eq_cons_of_current (ht ▸ htype), ht⟩

lemma listItem_sound (n : ℕ) {toks rest : List Token} {i : ListItem}
    (h : listItem n toks = .ok (i, rest)) : ∃ w, toks = w ++ rest ∧ DerivesItem w i := by
  obtain ⟨_, hexpect, hnext⟩ := exists_of_bind_eq_ok h
  obtain ⟨toks₁, hnext₁, hvalue⟩ := exists_of_bind_eq_ok hnext
  obtain ⟨t, htoks, ht⟩ := eq_cons_of_expect hexpect nofun
  have htail := (advances_nextTokenNotEof _ _).tail hnext₁
  have hname : current toks = t := by rw [htoks]; rfl
  split at hvalue
  · rename_i hcolon
    obtain ⟨toks₂, hnext₂, hcomparative⟩ := exists_of_bind_eq_ok hvalue
    obtain ⟨⟨e, toks₃⟩, he, hok⟩ := exists_of_bind_eq_ok hcomparative
    cases hok
    obtain ⟨w, hw, hderives⟩ := (parses_comparative n).sound he
    have htoks₁ := eq_cons_of_current fun heof => absurd hcolon (by rw [heof]; nofun)
    rw [(advances_nextTokenNotEof _ _).tail hnext₂] at hw
    refine ⟨t :: current toks₁ :: w, ?_, ?_⟩
    · rw [htoks, ← htail, List.cons_append, List.cons_append, ← hw, ← htoks₁]
    · rw [hname]
      exact .value ht hcolon hderives
  · cases hvalue
    refine ⟨[t], ?_, ?_⟩
    · rw [htail, List.singleton_append]
      exact htoks
    · rw [hname]
      exact .name ht

lemma listItem_total (n : ℕ) {toks : List Token} (hn : toks.length < n) :
    listItem n toks ≠ .error .outOfFuel := by
  refine bind_ne_error (expect_ne_outOfFuel _ _ _ _) fun _ _ => ?_
  refine bind_ne_error ((advances_nextTokenNotEof _ _).ne_out _) fun toks₁ hnext₁ => ?_
  split
  · refine bind_ne_error ((advances_nextTokenNotEof _ _).ne_out _) fun toks₂ hnext₂ => ?_
    refine bind_ne_error ((parses_comparative n).total ?_) nofun
    rw [(advances_nextTokenNotEof _ _).tail hnext₂, (advances_nextTokenNotEof _ _).tail hnext₁,
      List.length_tail, List.length_tail]
    omega
  · nofun

lemma listItem_complete (n : ℕ) {w rest : List Token} {i : ListItem} (h : DerivesItem w i)
    (hn : w.length < n) (hrest : Closes rest) : listItem n (w ++ rest) = .ok (i, rest) := by
  cases h with
  | @name t ht =>
    have hcolon : (current rest).token ≠ .colon := fun heq => by
      rw [Closes, heq] at hrest
      exact absurd hrest (by decide)
    rw [List.singleton_append, listItem, expect_cons ht]
    change (nextTokenNotEof _ _ (t :: rest)).bind _ = _
    rw [nextTokenNotEof_cons (notErrorNotEof_of_closes hrest)]
    exact if_neg hcolon
  | @value t t' w e ht ht' h =>
    simp only [List.length_cons] at hn
    rw [List.cons_append, List.cons_append, listItem, expect_cons ht]
    change (nextTokenNotEof _ _ (t :: t' :: (w ++ rest))).bind _ = _
    rw [nextTokenNotEof_cons (notErrorNotEof_cons ht' (by decide))]
    change (if (current (t' :: (w ++ rest))).token = .colon then
      (nextTokenNotEof _ _ (t' :: (w ++ rest))).bind _ else _) = _
    rw [if_pos (show (current (t' :: (w ++ rest))).token = .colon from ht'),
      nextTokenNotEof_cons ((phrases_derives _).good h rest)]
    change (comparative (primary n) (w ++ rest)).bind _ = _
    rw [(parses_comparative n).complete h (by omega) (ends_of_closes hrest)]
    rfl

lemma parses_listItem (n : ℕ) : Parses .outOfFuel n (listItem n) DerivesItem Closes :=
  ⟨listItem_sound n, listItem_total n, listItem_complete n⟩

/-! ## Lists and arrays -/

lemma foldlM_append_item {α : Type} (l items : List α) :
    l.foldlM (fun items a => Except.ok (ε := Failure) (items ++ [a])) items
      = .ok (items ++ l) := by
  induction l generalizing items with
  | nil => rw [List.append_nil]; rfl
  | cons a l ih =>
    rw [List.foldlM_cons]
    change List.foldlM _ (items ++ [a]) l = _
    rw [ih, List.append_assoc, List.singleton_append]

/-- What `enclosed` reads: the items and the closing brace. -/
def Closed {α : Type} (close : TokenType) (R : List Token → α → Prop) (w : List Token)
    (l : List α) : Prop :=
  ∃ v t, w = v ++ [t] ∧ t.token = close ∧ Enclosed R v l

section Enclosed

variable {α : Type} {close : TokenType} {mustEnd eof : String} {item : Parser Token Failure α}
  {n : ℕ} {R : List Token → α → Prop}

lemma parses_items (hp : Parses .outOfFuel n item R Closes) (hR : Phrases NotErrorNotEof R) :
    Parses .outOfFuel n (sepBy .outOfFuel (nextTokenNotEof eof eof) isComma item
      (fun items a => .ok (items ++ [a])) []) (Separated isComma R)
      (fun rest => Closes rest ∧ rest.head?.any isComma = false) := by
  have h : Parses .outOfFuel n (sepBy .outOfFuel (nextTokenNotEof eof eof) isComma item
      (fun items a => .ok (items ++ [a])) []) _ _ :=
    parses_sepBy (advances_nextTokenNotEof eof eof) hR hp nofun closes_of_isComma []
  refine ⟨fun hok => ?_, h.total, fun hw hn hrest => h.complete ⟨_, hw, ?_⟩ hn hrest⟩
  · obtain ⟨w, hw, l, hl, hfold⟩ := h.sound hok
    rw [foldlM_append_item] at hfold
    exact ⟨w, hw, Except.ok.inj hfold ▸ hl⟩
  · exact foldlM_append_item _ _

lemma enclosed_sound (hp : Parses .outOfFuel n item R Closes) (hR : Phrases NotErrorNotEof R)
    (hclose : close ≠ .eof) {toks rest : List Token} {l : List α}
    (h : enclosed close mustEnd eof item toks = .ok (l, rest)) :
    ∃ w, toks = w ++ rest ∧ Closed close R w l := by
  rw [enclosed] at h
  split at h
  · rename_i ht
    obtain ⟨toks₁, hnext, hok⟩ := exists_of_bind_eq_ok h
    cases hok
    have htoks := eq_cons_of_current (ht ▸ hclose)
    rw [advances_nextToken.tail hnext]
    exact ⟨[current toks], htoks, [], current toks, rfl, ht, .nil⟩
  · obtain ⟨⟨items, toks₁⟩, hitems, hend⟩ := exists_of_bind_eq_ok h
    obtain ⟨_, hexpect, hlast⟩ := exists_of_bind_eq_ok hend
    obtain ⟨toks₂, hnext, hok⟩ := exists_of_bind_eq_ok hlast
    cases hok
    obtain ⟨v, rfl, hv⟩ := (parses_items hp hR).sound hitems
    obtain ⟨t, htoks₁, ht⟩ := eq_cons_of_expect hexpect hclose
    rw [advances_nextToken.tail hnext]
    exact ⟨v ++ [t], by rw [List.append_assoc, List.singleton_append, ← htoks₁],
      v, t, rfl, ht, .items hv⟩

lemma enclosed_total (hp : Parses .outOfFuel n item R Closes) (hR : Phrases NotErrorNotEof R)
    {toks : List Token} (hn : toks.length < n) :
    enclosed close mustEnd eof item toks ≠ .error .outOfFuel := by
  rw [enclosed]
  split
  · exact bind_ne_error (advances_nextToken.ne_out _) nofun
  · refine bind_ne_error ((parses_items hp hR).total hn) fun _ _ => ?_
    refine bind_ne_error (expect_ne_outOfFuel _ _ _ _) fun _ _ => ?_
    exact bind_ne_error (advances_nextToken.ne_out _) nofun

lemma enclosed_complete (hp : Parses .outOfFuel n item R Closes) (hR : Phrases NotErrorNotEof R)
    (hclose : close ∈ [TokenType.closeCurlyBrace, .closeSquareBrace])
    (hstart : ∀ w a rest, R w a → (current (w ++ rest)).token ≠ close) {w rest : List Token}
    {l : List α} (h : Closed close R w l) (hn : w.length < n) (hrest : NotError rest) :
    enclosed close mustEnd eof item (w ++ rest) = .ok (l, rest) := by
  obtain ⟨v, t, rfl, ht, h⟩ := h
  rw [List.append_assoc, List.singleton_append]
  cases h with
  | nil =>
    rw [List.nil_append, enclosed, if_pos (show (current (t :: rest)).token = close from ht),
      nextToken_cons hrest]
    rfl
  | items h =>
    rw [List.length_append] at hn
    have hne : (current (v ++ t :: rest)).token ≠ close := by
      cases h with
      | one h => exact hstart _ _ _ h
      | more h =>
        rw [List.append_assoc]
        exact hstart _ _ _ h
    have hcloses : Closes (t :: rest) ∧ (t :: rest).head?.any isComma = false := by
      refine ⟨closes_cons ht ?_, ?_⟩
      · revert hclose
        cases close <;> decide
      · change isComma t = false
        rw [isComma, ht]
        revert hclose
        cases close <;> decide
    rw [enclosed, if_neg hne, (parses_items hp hR).complete h (by omega) hcloses]
    change (expect close _ _ (t :: rest)).bind _ = _
    rw [expect_cons ht]
    change (nextToken (t :: rest)).bind _ = _
    rw [nextToken_cons hrest]
    rfl

lemma parses_enclosed (hp : Parses .outOfFuel n item R Closes) (hR : Phrases NotErrorNotEof R)
    (hclose : close ∈ [TokenType.closeCurlyBrace, .closeSquareBrace])
    (hstart : ∀ w a rest, R w a → (current (w ++ rest)).token ≠ close) :
    Parses .outOfFuel n (enclosed close mustEnd eof item) (Closed close R) NotError :=
  ⟨enclosed_sound hp hR (by rintro rfl; exact absurd hclose (by decide)), enclosed_total hp hR,
    enclosed_complete hp hR hclose hstart⟩

end Enclosed

/-! ## Parameters -/

/-- An expression does not start with a brace. -/
lemma current_ne_brace {w : List Token} {e : Expression} (h : Derives .comparative w e)
    (rest : List Token) : (current (w ++ rest)).token ≠ .openCurlyBrace ∧
      (current (w ++ rest)).token ≠ .openSquareBrace ∧
      (current (w ++ rest)).token ≠ .closeSquareBrace := by
  obtain ⟨t, w', rfl, ht⟩ := h.exists_cons
  change t.token ≠ _ ∧ t.token ≠ _ ∧ t.token ≠ _
  refine ⟨?_, ?_, ?_⟩ <;> intro heq <;> rw [heq] at ht <;> revert ht <;> decide

lemma parses_expressionList (n : ℕ) :
    Parses .outOfFuel n (expressionList n) (Closed .closeCurlyBrace DerivesItem) NotError := by
  refine parses_enclosed (parses_listItem n) (phrases_of_identifier fun _ _ h => h.exists_cons)
    (by decide) fun w i rest h => ?_
  obtain ⟨t, w', rfl, ht⟩ := h.exists_cons
  change t.token ≠ _
  rw [ht]
  decide

lemma parses_expressionArray (n : ℕ) : Parses .outOfFuel n (expressionArray n)
    (Closed .closeSquareBrace (Derives .comparative)) NotError :=
  parses_enclosed ((parses_comparative n).imp_follow fun _ => ends_of_closes) (phrases_derives _)
    (by decide) fun _ _ rest h => (current_ne_brace h rest).2.2

lemma argument_sound (n : ℕ) {toks rest : List Token} {a : Argument}
    (h : argument n toks = .ok (a, rest)) : ∃ w, toks = w ++ rest ∧ DerivesArgument w a := by
  rw [argument] at h
  split at h
  · rename_i hopen
    obtain ⟨toks₁, hnext, hlist⟩ := exists_of_bind_eq_ok h
    obtain ⟨⟨items, toks₂⟩, hitems, hok⟩ := exists_of_bind_eq_ok hlist
    cases hok
    have htoks := eq_cons_of_current fun heof => absurd hopen (by rw [heof]; nofun)
    obtain ⟨w, hw, v, t, rfl, ht, hv⟩ := (parses_expressionList n).sound hitems
    rw [advances_nextToken.tail hnext] at hw
    exact ⟨current toks :: (v ++ [t]), by rw [htoks, hw]; rfl, .list hopen hv ht⟩
  · split at h
    · rename_i hopen
      obtain ⟨toks₁, hnext, harray⟩ := exists_of_bind_eq_ok h
      obtain ⟨⟨items, toks₂⟩, hitems, hok⟩ := exists_of_bind_eq_ok harray
      cases hok
      have htoks := eq_cons_of_current fun heof => absurd hopen (by rw [heof]; nofun)
      obtain ⟨w, hw, v, t, rfl, ht, hv⟩ := (parses_expressionArray n).sound hitems
      rw [advances_nextToken.tail hnext] at hw
      exact ⟨current toks :: (v ++ [t]), by rw [htoks, hw]; rfl, .array hopen hv ht⟩
    · obtain ⟨⟨e, toks₁⟩, he, hok⟩ := exists_of_bind_eq_ok h
      cases hok
      obtain ⟨w, hw, hderives⟩ := (parses_comparative n).sound he
      exact ⟨w, hw, .expression hderives⟩

lemma argument_total (n : ℕ) {toks : List Token} (hn : toks.length < n) :
    argument n toks ≠ .error .outOfFuel := by
  have hlt {toks₁ : List Token} (hnext : nextToken toks = .ok toks₁) : toks₁.length < n := by
    rw [advances_nextToken.tail hnext, List.length_tail]
    omega
  rw [argument]
  split
  · refine bind_ne_error (advances_nextToken.ne_out _) fun toks₁ hnext => ?_
    exact bind_ne_error ((parses_expressionList n).total (hlt hnext)) nofun
  · split
    · refine bind_ne_error (advances_nextToken.ne_out _) fun toks₁ hnext => ?_
      exact bind_ne_error ((parses_expressionArray n).total (hlt hnext)) nofun
    · exact bind_ne_error ((parses_comparative n).total hn) nofun

/-- The look-ahead after the brace that opens a list or an array is a token of the program. -/
lemma Closed.notError {α : Type} {close : TokenType} {R : List Token → α → Prop}
    {w : List Token} {l : List α} (hclose : close ≠ .error) (hR : Phrases NotErrorNotEof R)
    (h : Closed close R w l) (rest : List Token) : NotError (w ++ rest) := by
  obtain ⟨v, t, rfl, ht, h⟩ := h
  rw [List.append_assoc, List.singleton_append]
  cases h with
  | nil => exact fun herror => hclose (ht.symm.trans herror)
  | items h => exact (hR.separated.good h _).1

lemma argument_complete (n : ℕ) {w rest : List Token} {a : Argument} (h : DerivesArgument w a)
    (hn : w.length < n) (hrest : Closes rest) : argument n (w ++ rest) = .ok (a, rest) := by
  have hnoterror := (notErrorNotEof_of_closes hrest).1
  cases h with
  | expression h =>
    obtain ⟨hcurly, hsquare, -⟩ := current_ne_brace h rest
    rw [argument, if_neg hcurly, if_neg hsquare,
      (parses_comparative n).complete h hn (ends_of_closes hrest)]
    rfl
  | @list t t' w l ht h ht' =>
    have hclosed : Closed .closeCurlyBrace DerivesItem (w ++ [t']) l := ⟨w, t', rfl, ht', h⟩
    have hnext := nextToken_cons (t := t) (hclosed.notError (by decide)
      (phrases_of_identifier fun _ _ h => h.exists_cons) rest)
    rw [List.length_cons] at hn
    rw [List.cons_append, argument,
      if_pos (show (current (t :: (w ++ [t'] ++ rest))).token = .openCurlyBrace from ht), hnext]
    change (expressionList n (w ++ [t'] ++ rest)).bind _ = _
    rw [(parses_expressionList n).complete hclosed (by omega) hnoterror]
    rfl
  | @array t t' w l ht h ht' =>
    have hclosed : Closed .closeSquareBrace (Derives .comparative) (w ++ [t']) l :=
      ⟨w, t', rfl, ht', h⟩
    have hnext := nextToken_cons (t := t) (hclosed.notError (by decide)
      (phrases_derives _) rest)
    have hcurly : (current (t :: (w ++ [t'] ++ rest))).token ≠ .openCurlyBrace := by
      change t.token ≠ _
      rw [ht]
      decide
    rw [List.length_cons] at hn
    rw [List.cons_append, argument, if_neg hcurly,
      if_pos (show (current (t :: (w ++ [t'] ++ rest))).token = .openSquareBrace from ht), hnext]
    change (expressionArray n (w ++ [t'] ++ rest)).bind _ = _
    rw [(parses_expressionArray n).complete hclosed (by omega) hnoterror]
    rfl

lemma DerivesArgument.notErrorNotEof {w : List Token} {a : Argument} (h : DerivesArgument w a)
    (rest : List Token) : NotErrorNotEof (w ++ rest) := by
  cases h with
  | expression h => exact (phrases_derives _).good h rest
  | list ht => exact notErrorNotEof_cons ht (by decide)
  | array ht => exact notErrorNotEof_cons ht (by decide)

lemma oneParameter_sound (n : ℕ) {toks rest : List Token} {p : Str × Argument}
    (h : oneParameter n toks = .ok (p, rest)) : ∃ w, toks = w ++ rest ∧ DerivesParameter w p := by
  obtain ⟨_, hname, hafterName⟩ := exists_of_bind_eq_ok h
  obtain ⟨toks₁, hnext₁, hatColon⟩ := exists_of_bind_eq_ok hafterName
  obtain ⟨_, hcolon, hafterColon⟩ := exists_of_bind_eq_ok hatColon
  obtain ⟨toks₂, hnext₂, hvalue⟩ := exists_of_bind_eq_ok hafterColon
  obtain ⟨⟨a, toks₃⟩, ha, hok⟩ := exists_of_bind_eq_ok hvalue
  cases hok
  obtain ⟨t, htoks, ht⟩ := eq_cons_of_expect hname nofun
  obtain ⟨t', htoks₁, ht'⟩ := eq_cons_of_expect hcolon nofun
  obtain ⟨w, hw, hderives⟩ := argument_sound n ha
  rw [(advances_nextTokenNotEof _ _).tail hnext₂] at hw
  have hcurrent : current toks = t := by rw [htoks]; rfl
  refine ⟨t :: t' :: w, ?_, ?_⟩
  · rw [htoks, ← (advances_nextTokenNotEof _ _).tail hnext₁, htoks₁, hw]
    rfl
  · rw [hcurrent]
    exact .mk ht ht' hderives

lemma oneParameter_total (n : ℕ) {toks : List Token} (hn : toks.length < n) :
    oneParameter n toks ≠ .error .outOfFuel := by
  refine bind_ne_error (expect_ne_outOfFuel _ _ _ _) fun _ _ => ?_
  refine bind_ne_error ((advances_nextTokenNotEof _ _).ne_out _) fun toks₁ hnext₁ => ?_
  refine bind_ne_error (expect_ne_outOfFuel _ _ _ _) fun _ _ => ?_
  refine bind_ne_error ((advances_nextTokenNotEof _ _).ne_out _) fun toks₂ hnext₂ => ?_
  refine bind_ne_error (argument_total n ?_) nofun
  rw [(advances_nextTokenNotEof _ _).tail hnext₂, (advances_nextTokenNotEof _ _).tail hnext₁,
    List.length_tail, List.length_tail]
  omega

lemma oneParameter_complete (n : ℕ) {w rest : List Token} {p : Str × Argument}
    (h : DerivesParameter w p) (hn : w.length < n) (hrest : Closes rest) :
    oneParameter n (w ++ rest) = .ok (p, rest) := by
  obtain @⟨t, t', w, a, ht, ht', h⟩ := h
  simp only [List.length_cons] at hn
  rw [List.cons_append, List.cons_append, oneParameter, expect_cons ht]
  change (nextTokenNotEof _ _ (t :: t' :: (w ++ rest))).bind _ = _
  rw [nextTokenNotEof_cons (notErrorNotEof_cons ht' (by decide))]
  change (expect _ _ _ (t' :: (w ++ rest))).bind _ = _
  rw [expect_cons ht']
  change (nextTokenNotEof _ _ (t' :: (w ++ rest))).bind _ = _
  rw [nextTokenNotEof_cons (h.notErrorNotEof rest)]
  change (argument n (w ++ rest)).bind _ = _
  rw [argument_complete n h (by omega) hrest]
  rfl

lemma parses_oneParameter (n : ℕ) :
    Parses .outOfFuel n (oneParameter n) DerivesParameter Closes :=
  ⟨oneParameter_sound n, oneParameter_total n, oneParameter_complete n⟩

lemma parses_parameters (n : ℕ) (stmt : Statement) :
    Parses .outOfFuel n (parameters n stmt)
      (fun w stmt' => ∃ l, Separated isComma DerivesParameter w l ∧
        l.foldlM Statement.addParameter stmt = .ok stmt')
      (fun rest => Closes rest ∧ rest.head?.any isComma = false) :=
  parses_sepBy advances_nextToken
    (phrases_notError (phrases_of_identifier fun _ _ h => h.exists_cons)) (parses_oneParameter n)
    Statement.addParameter_ne_outOfFuel closes_of_isComma stmt

/-! ## Statements -/

section Statements

variable {instructions : List Instruction} {filename : Str}

/-- The checks of a call, as the parser makes them. -/
lemma checked_iff {c : Call} {stmt : Statement} :
    Checked instructions filename c stmt ↔
      ∃ inst, getInstruction instructions c.name.string = some inst ∧
        c.parameters.foldlM Statement.addParameter
          { instruction := inst, filename := filename, line := c.name.line } = .ok stmt ∧
        stmt.verifyParameters = .ok () := by
  have hkeys (k : Str) : k ∈ ((∅ : SortedMap Str Argument).insertAll c.parameters).keys ↔
      k ∈ c.parameters.map Prod.fst := by
    rw [SortedMap.mem_keys_insertAll]
    exact or_iff_right (by simp [SortedMap.keys])
  constructor
  · intro h
    refine ⟨stmt.instruction, h.known, Statement.foldlM_addParameter.mpr
      ⟨⟨h.distinct, fun p hp => ⟨by simp [SortedMap.keys], h.accepted p hp⟩⟩, ?_⟩,
      Statement.verifyParameters_eq_ok.mpr fun d hd hrequired => ?_⟩
    · rw [← h.filename, ← h.line, ← h.parameters]
    · rw [h.parameters, hkeys]
      exact h.complete d hd hrequired
  · rintro ⟨inst, hknown, hfold, hverify⟩
    obtain ⟨⟨hdistinct, haccepted⟩, rfl⟩ := Statement.foldlM_addParameter.mp hfold
    refine ⟨hknown, fun p hp => (haccepted p hp).2, hdistinct, fun d hd hrequired => ?_, rfl, rfl,
      rfl⟩
    exact (hkeys _).mp (Statement.verifyParameters_eq_ok.mp hverify d hd hrequired)

lemma optionalParameters_sound {n : ℕ} {stmt stmt' : Statement} {toks rest : List Token}
    (h : optionalParameters n stmt toks = .ok (stmt', rest)) :
    ∃ w l, toks = w ++ rest ∧ Enclosed DerivesParameter w l ∧
      l.foldlM Statement.addParameter stmt = .ok stmt' := by
  rw [optionalParameters] at h
  split at h
  · obtain ⟨w, hw, l, hl, hfold⟩ := (parses_parameters n stmt).sound h
    exact ⟨w, l, hw, .items hl, hfold⟩
  · cases h
    exact ⟨[], [], rfl, .nil, rfl⟩

lemma optionalParameters_total {n : ℕ} (stmt : Statement) {toks : List Token}
    (hn : toks.length < n) : optionalParameters n stmt toks ≠ .error .outOfFuel := by
  rw [optionalParameters]
  split
  · exact (parses_parameters n stmt).total hn
  · nofun

lemma optionalParameters_complete {n : ℕ} {stmt stmt' : Statement} {w rest : List Token}
    {l : List (Str × Argument)} {t : Token} (h : Enclosed DerivesParameter w l)
    (hl : l.foldlM Statement.addParameter stmt = .ok stmt') (ht : t.token = .closeParenthesis)
    (hn : w.length < n) :
    optionalParameters n stmt (w ++ t :: rest) = .ok (stmt', t :: rest) := by
  rw [optionalParameters]
  cases h with
  | nil =>
    cases hl
    exact if_neg (not_not_intro ht)
  | items h =>
    have hne : (current (w ++ t :: rest)).token ≠ .closeParenthesis := by
      have hidentifier : ∃ t' w', w = t' :: w' ∧ t'.token = .identifier := by
        cases h with
        | one h => exact h.exists_cons
        | more h =>
          obtain ⟨t', w', rfl, ht'⟩ := h.exists_cons
          exact ⟨t', _, rfl, ht'⟩
      obtain ⟨t', w', rfl, ht'⟩ := hidentifier
      change t'.token ≠ _
      rw [ht']
      decide
    have hcomma : (t :: rest).head?.any isComma = false := by
      change isComma t = false
      rw [isComma, ht]
      decide
    rw [if_pos hne]
    exact (parses_parameters n stmt).complete ⟨l, h, hl⟩ hn ⟨closes_cons ht (by decide), hcomma⟩

lemma oneStatement_sound {n : ℕ} {s s' : Program} {toks rest : List Token}
    (h : oneStatement instructions filename n s toks = .ok (s', rest)) :
    ∃ w c stmt, toks = w ++ rest.tail ∧ DerivesStatement w c ∧
      Checked instructions filename c stmt ∧ s.addStatement stmt = .ok s' := by
  obtain ⟨_, hname, hinstruction⟩ := exists_of_bind_eq_ok h
  obtain ⟨t, htoks, ht⟩ := eq_cons_of_expect hname nofun
  have hcurrent : current toks = t := by rw [htoks]; rfl
  rw [hcurrent] at hinstruction
  split at hinstruction
  · cases hinstruction
  · rename_i inst hknown
    obtain ⟨toks₁, hnext₁, hparenthesis⟩ := exists_of_bind_eq_ok hinstruction
    split at hparenthesis
    · cases hparenthesis
    · obtain ⟨_, hopen, hafterOpen⟩ := exists_of_bind_eq_ok hparenthesis
      obtain ⟨toks₂, hnext₂, hparameters⟩ := exists_of_bind_eq_ok hafterOpen
      obtain ⟨⟨stmt, toks₃⟩, hoptional, hatClose⟩ := exists_of_bind_eq_ok hparameters
      obtain ⟨_, hclose, hverify⟩ := exists_of_bind_eq_ok hatClose
      obtain ⟨_, hverified, hadd⟩ := exists_of_bind_eq_ok hverify
      obtain ⟨s₁, hs₁, hok⟩ := exists_of_bind_eq_ok hadd
      cases hok
      obtain ⟨t₁, htoks₁, ht₁⟩ := eq_cons_of_expect hopen nofun
      obtain ⟨t₂, htoks₃, ht₂⟩ := eq_cons_of_expect hclose nofun
      obtain ⟨w, l, hw, hl, hfold⟩ := optionalParameters_sound hoptional
      refine ⟨t :: t₁ :: (w ++ [t₂]), ⟨t, l⟩, stmt, ?_, .mk ht ht₁ hl ht₂,
        checked_iff.mpr ⟨inst, hknown, hfold, hverified⟩, hs₁⟩
      rw [htoks, ← advances_nextToken.tail hnext₁, htoks₁,
        ← (advances_nextTokenNotEof _ _).tail hnext₂, hw, List.cons_append, List.cons_append,
        List.append_assoc, List.singleton_append]
      congr 3

lemma oneStatement_total {n : ℕ} (s : Program) {toks : List Token} (hn : toks.length < n) :
    oneStatement instructions filename n s toks ≠ .error .outOfFuel := by
  refine bind_ne_error (expect_ne_outOfFuel _ _ _ _) fun _ _ => ?_
  split
  · nofun
  · refine bind_ne_error (advances_nextToken.ne_out _) fun toks₁ hnext₁ => ?_
    split
    · nofun
    · refine bind_ne_error (expect_ne_outOfFuel _ _ _ _) fun _ _ => ?_
      refine bind_ne_error ((advances_nextTokenNotEof _ _).ne_out _) fun toks₂ hnext₂ => ?_
      have hlt : toks₂.length < n := by
        rw [(advances_nextTokenNotEof _ _).tail hnext₂, advances_nextToken.tail hnext₁,
          List.length_tail, List.length_tail]
        omega
      refine bind_ne_error (optionalParameters_total _ hlt) fun _ _ => ?_
      refine bind_ne_error (expect_ne_outOfFuel _ _ _ _) fun _ _ => ?_
      refine bind_ne_error (Statement.verifyParameters_ne_outOfFuel _) fun _ _ => ?_
      exact bind_ne_error (Program.addStatement_ne_outOfFuel _ _) nofun

lemma oneStatement_complete {n : ℕ} {s s' : Program} {w rest : List Token} {c : Call}
    {stmt : Statement} (h : DerivesStatement w c) (hc : Checked instructions filename c stmt)
    (hs : s.addStatement stmt = .ok s') (hn : w.length < n) :
    ∃ t, oneStatement instructions filename n s (w ++ rest) = .ok (s', t :: rest) := by
  obtain @⟨t, t₁, t₂, w, l, ht, ht₁, h, ht₂⟩ := h
  obtain ⟨inst, hknown, hfold, hverify⟩ := checked_iff.mp hc
  simp only [List.length_cons, List.length_append, List.length_nil] at hn
  have hopen : NotErrorNotEof (t₁ :: (w ++ t₂ :: rest)) := notErrorNotEof_cons ht₁ (by decide)
  have hafterOpen : NotErrorNotEof (w ++ t₂ :: rest) := by
    cases h with
    | nil => exact notErrorNotEof_cons ht₂ (by decide)
    | items h =>
      exact (phrases_of_identifier fun _ _ h => h.exists_cons).separated.good h _
  refine ⟨t₂, ?_⟩
  rw [List.cons_append, List.cons_append, List.append_assoc, List.singleton_append, oneStatement,
    expect_cons ht]
  have hget : getInstruction instructions (current (t :: t₁ :: (w ++ t₂ :: rest))).string =
      some inst := hknown
  simp only [hget]
  change (nextToken (t :: t₁ :: (w ++ t₂ :: rest))).bind _ = _
  rw [nextToken_cons hopen.1]
  change (if (current (t₁ :: (w ++ t₂ :: rest))).token = .eof then _ else _) = _
  rw [if_neg hopen.2, expect_cons ht₁]
  change (nextTokenNotEof _ _ (t₁ :: (w ++ t₂ :: rest))).bind _ = _
  rw [nextTokenNotEof_cons hafterOpen]
  have hoptional : optionalParameters n
      { instruction := inst, filename := filename, line := t.line } (w ++ t₂ :: rest)
      = .ok (stmt, t₂ :: rest) := optionalParameters_complete h hfold ht₂ (by omega)
  change (optionalParameters n
    { instruction := inst, filename := filename, line := t.line } (w ++ t₂ :: rest)).bind _ = _
  rw [hoptional]
  change (expect _ _ _ (t₂ :: rest)).bind _ = _
  rw [expect_cons ht₂]
  change stmt.verifyParameters.bind _ = _
  rw [hverify]
  change (s.addStatement stmt).bind _ = _
  rw [hs]
  rfl

/-! ## Programs -/

lemma DerivesStatement.exists_cons {w : List Token} {c : Call} (h : DerivesStatement w c) :
    ∃ t w', w = t :: w' ∧ t.token = .identifier := by
  obtain ⟨ht⟩ := h
  exact ⟨_, _, rfl, ht⟩

lemma parseStatements_sound {n : ℕ} (k : ℕ) {s s' : Program} {toks : List Token}
    (h : parseStatements instructions filename n k s toks = .ok s') :
    ∃ w rest calls stmts, toks.tail = w ++ rest ∧ (current rest).token = .eof ∧
      DerivesProgram w calls ∧ List.Forall₂ (Checked instructions filename) calls stmts ∧
      stmts.foldlM Program.addStatement s = .ok s' := by
  induction k generalizing s toks with
  | zero => cases h
  | succ k ih =>
    obtain ⟨toks₁, hnext, hstatement⟩ := exists_of_bind_eq_ok h
    rw [← advances_nextToken.tail hnext]
    split at hstatement
    · rename_i heof
      cases hstatement
      exact ⟨[], toks₁, [], [], rfl, heof, .nil, .nil, rfl⟩
    · obtain ⟨⟨s₁, toks₂⟩, hone, hloop⟩ := exists_of_bind_eq_ok hstatement
      obtain ⟨u, c, stmt, rfl, hu, hc, hs₁⟩ := oneStatement_sound hone
      obtain ⟨w, rest, calls, stmts, htail, heof, hw, hcalls, hfold⟩ := ih hloop
      exact ⟨u ++ w, rest, c :: calls, stmt :: stmts, by rw [htail, List.append_assoc], heof,
        .cons hu hw, .cons hc hcalls, foldlM_cons_eq_ok.mpr ⟨s₁, hs₁, hfold⟩⟩

lemma parseStatements_total {n : ℕ} (k : ℕ) (s : Program) {toks : List Token}
    (hk : toks.tail.length < k) (hn : toks.tail.length < n) :
    parseStatements instructions filename n k s toks ≠ .error .outOfFuel := by
  induction k generalizing s toks with
  | zero => omega
  | succ k ih =>
    refine bind_ne_error (advances_nextToken.ne_out _) fun toks₁ hnext => ?_
    rw [← advances_nextToken.tail hnext] at hk hn
    split
    · nofun
    · refine bind_ne_error (oneStatement_total s hn) ?_
      rintro ⟨s₁, toks₂⟩ hone
      obtain ⟨u, c, stmt, rfl, hu, -, -⟩ := oneStatement_sound hone
      obtain ⟨t, u, rfl, -⟩ := hu.exists_cons
      rw [List.length_append, List.length_cons] at hk hn
      exact ih s₁ (by omega) (by omega)

lemma parseStatements_complete {n : ℕ} {w rest : List Token} {calls : List Call}
    (h : DerivesProgram w calls) (hrest : (current rest).token = .eof) (hn : w.length < n)
    {stmts : List Statement} (hcalls : List.Forall₂ (Checked instructions filename) calls stmts)
    (k : ℕ) (hk : w.length < k) {s s' : Program}
    (hfold : stmts.foldlM Program.addStatement s = .ok s') (t : Token) :
    parseStatements instructions filename n k s (t :: (w ++ rest)) = .ok s' := by
  induction h generalizing stmts k s t with
  | nil =>
    cases hcalls
    cases k with
    | zero => omega
    | succ k =>
      have hnext : nextToken (t :: rest) = .ok rest := nextToken_cons (by
        rw [NotError, hrest]
        decide)
      rw [List.nil_append, parseStatements, hnext]
      change (if (current rest).token = .eof then Except.ok s else _) = _
      rw [if_pos hrest]
      exact hfold
  | @cons u v c calls hu hv ih =>
    cases hcalls with
    | @cons _ stmt _ stmts hc hcalls =>
      obtain ⟨s₁, hs₁, hfold⟩ := foldlM_cons_eq_ok.mp hfold
      obtain ⟨t', u', rfl, ht'⟩ := hu.exists_cons
      rw [List.length_append, List.length_cons] at hn hk
      cases k with
      | zero => omega
      | succ k =>
        have hgood : NotErrorNotEof (t' :: u' ++ (v ++ rest)) :=
          notErrorNotEof_cons ht' (by decide)
        have hone : ∃ t₂, oneStatement instructions filename n s (t' :: u' ++ (v ++ rest))
            = .ok (s₁, t₂ :: (v ++ rest)) :=
          oneStatement_complete hu hc hs₁ (by rw [List.length_cons]; omega)
        obtain ⟨t₂, hone⟩ := hone
        rw [List.append_assoc, parseStatements, nextToken_cons hgood.1]
        change (if (current (t' :: u' ++ (v ++ rest))).token = .eof then _ else _) = _
        rw [if_neg hgood.2, hone]
        exact ih (by omega) hcalls k (by omega) hfold t₂

/-- `parse_program()` ends. -/
theorem parseProgram_ne_outOfFuel (s : Program) (toks : List Token) :
    parseProgram instructions filename s toks ≠ .error .outOfFuel :=
  parseStatements_total _ _ (Nat.lt_succ_self _) (Nat.lt_succ_self _)

/-- **What the parser accepts**: the phrases of the grammar up to the end of the file, whose
statements pass the checks and whose labels are new; and it builds their program. -/
theorem parseProgram_eq_ok {s s' : Program} {toks : List Token} :
    parseProgram instructions filename s toks = .ok s' ↔
      ∃ w rest calls stmts, toks = w ++ rest ∧ (current rest).token = .eof ∧
        DerivesProgram w calls ∧ List.Forall₂ (Checked instructions filename) calls stmts ∧
        s.NewLabels stmts ∧ stmts.foldl Program.push s = s' := by
  constructor
  · intro h
    obtain ⟨w, rest, calls, stmts, hw, heof, hderives, hcalls, hfold⟩ :=
      parseStatements_sound _ h
    exact ⟨w, rest, calls, stmts, hw, heof, hderives, hcalls,
      Program.foldlM_addStatement.mp hfold⟩
  · rintro ⟨w, rest, calls, stmts, rfl, heof, hderives, hcalls, hlabels⟩
    rw [parseProgram, List.length_append]
    exact parseStatements_complete hderives heof (by omega) hcalls _ (by omega)
      (Program.foldlM_addStatement.mpr hlabels) {}

end Statements

/-- **The parser is the parser of its grammar.**  It ends for every sequence of tokens; it
succeeds exactly for the phrases that pass the checks and whose labels are new plain identifiers,
with the program that the grammar gives; what is printed is read back, and no text that says the
same is shorter than what is printed. -/
theorem parser_spec (instructions : List Instruction) (filename : Str) (s : Program)
    (toks : List Token) :
    parseProgram instructions filename s toks ≠ .error .outOfFuel ∧
    (∀ s', parseProgram instructions filename s toks = .ok s' ↔
      ∃ w rest calls stmts, toks = w ++ rest ∧ (current rest).token = .eof ∧
        DerivesProgram w calls ∧ List.Forall₂ (Checked instructions filename) calls stmts ∧
        s.NewLabels stmts ∧ stmts.foldl Program.push s = s') ∧
    (∀ (e : Expression) (rest : List Token) (n : ℕ), Ends .comparative rest →
      (e.print .comparative).length < n →
      comparative (primary n) (e.print .comparative ++ rest) = .ok (e, rest)) ∧
    ∀ (e : Expression) (l : Level) (w : List Token), Derives l w e →
      (e.print l).length ≤ w.length :=
  ⟨parseProgram_ne_outOfFuel s toks, fun _ => parseProgram_eq_ok,
    fun e _ _ hrest hn => comparative_print e hrest hn,
    fun _ _ _ h => Expression.length_print_le_of_derives h⟩

/-- `1 - (2 - 3)` keeps its parentheses. -/
theorem parser_spec_subtract :
    comparative (primary 8) ((Expression.binary .subtract (.primary (integerToken 1))
        (.binary .subtract (.primary (integerToken 2)) (.primary (integerToken 3)))).print
          .comparative ++ [punctuation .closeParenthesis])
      = .ok (.binary .subtract (.primary (integerToken 1))
          (.binary .subtract (.primary (integerToken 2)) (.primary (integerToken 3))),
        [punctuation .closeParenthesis]) := by
  refine (parser_spec [] [] {} []).2.2.1 _ _ 8 (ends_of_closes ?_) (by decide)
  exact closes_cons rfl (by decide)

/-- The instruction `label`. -/
def labelInstruction : Instruction :=
  { name := "label".toList
    parameterDeclarations := [{ name := "name".toList, type := "identifier".toList }] }

/-- The tokens of `label(name: 3)`. -/
def labelThree : List Token :=
  [{ token := .identifier, string := "label".toList }, punctuation .openParenthesis,
    { token := .identifier, string := "name".toList }, punctuation .colon, (integerToken 3).1,
    punctuation .closeParenthesis]

/-- `label(name: 3)` is a phrase of the grammar that passes the checks of its parameters, and its
label is the only one, but the parser refuses it: the name has to be an identifier. -/
theorem parseProgram_labelThree :
    (∃ calls stmts, DerivesProgram labelThree calls ∧
      List.Forall₂ (Checked [labelInstruction] []) calls stmts ∧ calls.length = 1) ∧
    ∀ s', parseProgram [labelInstruction] [] {} labelThree ≠ .ok s' := by
  constructor
  · let p : Str × Argument := ("name".toList, .expression (.primary (integerToken 3)))
    let name : Token := { token := .identifier, string := "label".toList }
    refine ⟨[⟨name, [p]⟩], [⟨labelInstruction, [], 0, (∅ : SortedMap Str Argument).insertAll [p]⟩],
      ?_, .cons ⟨by decide, by decide, by decide, by decide, rfl, rfl, rfl⟩ .nil, rfl⟩
    have hvalue : Derives .comparative [(integerToken 3).1] (.primary (integerToken 3)) :=
      (Derives.token (integerToken 3)).mono (by decide)
    have hparameter : DerivesParameter
        [{ token := .identifier, string := "name".toList }, punctuation .colon,
          (integerToken 3).1] p := .mk rfl rfl (.expression hvalue)
    exact .cons (.mk rfl rfl (.items (.one hparameter)) rfl) .nil
  · have hrefused : parseProgram [labelInstruction] [] {} labelThree
        = .error (.runtimeError ("the value of the \"name\" parameter of the \"label\" ".toList
          ++ "statement must be an identifier.".toList)) := by decide +kernel
    rw [hrefused]
    nofun

end EventDispatcher.Reporter
