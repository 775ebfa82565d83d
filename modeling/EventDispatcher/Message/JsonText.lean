import EventDispatcher.Message.Json

/-!
# The tokens of the text of a message

The text `to_json()` writes is standard JSON exactly when the message has no service and its
values are `JsonSafe`, and then its tokens are the ones `Fields.tokens` lists
(`lexes_json_iff`).
-/

namespace EventDispatcher

open Lib Lib.Json

variable {S : Snapdev} {V : ValidatorDouble}

/-! ### Escaped strings -/

/-- The word a character is written as in a JSON string. -/
def jsonCode (c : Char) : Str :=
  if c = '\\' then ['\\', '\\'] else if c = '"' then ['\\', '"'] else if c = '\n' then ['\\', 'n']
  else if c = '\r' then ['\\', 'r'] else [c]

lemma stringReplaceMany_jsonEscapes (S : Snapdev) (v : Str) :
    S.stringReplaceMany v jsonEscapes = v.flatMap jsonCode := by
  rw [S.stringReplaceMany_eq (by unfold KeysNonempty; decide),
    replaceMany_letterwise (by decide)]
  congr 1
  ext1 c
  simp only [jsonEscapes, letterCode_cons, letterCode_nil, jsonCode]

/-- A character is written as an escape, or as it is. -/
lemma jsonCode_cases (c : Char) :
    (∃ e, jsonCode c = ['\\', e] ∧ simpleEscape e = some c ∧ e ≠ 'u' ∧
        (c = '\\' ∨ c = '"' ∨ c = '\n' ∨ c = '\r')) ∨
      (jsonCode c = [c] ∧ c ≠ '\\' ∧ c ≠ '"' ∧ c ≠ '\n' ∧ c ≠ '\r') := by
  rw [jsonCode]
  by_cases h₁ : c = '\\'
  · exact Or.inl ⟨'\\', by simp [h₁], by rw [h₁]; decide, by decide, Or.inl h₁⟩
  by_cases h₂ : c = '"'
  · exact Or.inl ⟨'"', by simp [h₂], by rw [h₂]; decide, by decide, Or.inr (Or.inl h₂)⟩
  by_cases h₃ : c = '\n'
  · exact Or.inl ⟨'n', by simp [h₃], by rw [h₃]; decide, by decide, Or.inr (Or.inr (Or.inl h₃))⟩
  by_cases h₄ : c = '\r'
  · exact Or.inl ⟨'r', by simp [h₄], by rw [h₄]; decide, by decide, Or.inr (Or.inr (Or.inr h₄))⟩
  · exact Or.inr ⟨by simp [h₁, h₂, h₃, h₄], h₁, h₂, h₃, h₄⟩

/-- The texts that can be written in a JSON string: UTF-8 without control characters other than
the line ends. -/
structure StringText (v : Str) : Prop where
  /-- The text is in UTF-8. -/
  utf8 : Utf8 v
  /-- The control characters are the two that are escaped. -/
  control : ∀ c ∈ v, 0x20 ≤ c.toNat ∨ c = '\n' ∨ c = '\r'

/-- A character outside ASCII is written as it is. -/
lemma flatMap_jsonCode_high {u : Str} (hu : ∀ c ∈ u, 0x80 ≤ c.toNat) :
    u.flatMap jsonCode = u := by
  induction u with
  | nil => rfl
  | cons c u ih =>
    have hc := hu c (by simp)
    have hcode : jsonCode c = [c] := by
      rcases jsonCode_cases c with ⟨e, -, -, -, h⟩ | ⟨h, -⟩
      · rcases h with rfl | rfl | rfl | rfl <;> exact absurd hc (by decide)
      · exact h
    rw [List.flatMap_cons, hcode, ih fun d hd => hu d (by simp [hd])]
    rfl

/-- A text that can be written is written as it should be. -/
lemma stringBody_flatMap {v : Str} (h : StringText v) : StringBody (v.flatMap jsonCode) v := by
  obtain ⟨hutf8, hcontrol⟩ := h
  induction hutf8 with
  | nil => exact StringBody.nil
  | @ascii c s hc _ ih =>
    have hs := ih fun d hd => hcontrol d (by simp [hd])
    rw [List.flatMap_cons]
    refine StringBody.cons (w := [c]) ?_ hs
    rcases jsonCode_cases c with ⟨e, hcode, he, -⟩ | ⟨hcode, h₁, h₂, h₃, h₄⟩
    · rw [hcode]
      exact StringChar.escape he
    · rw [hcode]
      refine StringChar.ascii ?_ hc h₂ h₁
      rcases hcontrol c (by simp) with h | h | h
      · exact h
      · exact absurd h h₃
      · exact absurd h h₄
  | @multi u s hu _ ih =>
    have hs := ih fun d hd => hcontrol d (by simp [hd])
    rw [List.flatMap_append, flatMap_jsonCode_high hu.high]
    exact StringBody.cons (StringChar.multi hu) hs

lemma StringText.cons {c : Char} {v : Str} (hv : StringText v) (hc : c.toNat < 0x80)
    (hcontrol : 0x20 ≤ c.toNat ∨ c = '\n' ∨ c = '\r') : StringText (c :: v) := by
  refine ⟨Utf8.ascii hc hv.utf8, fun x hx => ?_⟩
  rcases List.mem_cons.mp hx with rfl | hx
  · exact hcontrol
  · exact hv.control x hx

lemma StringText.multi {u v : Str} (hv : StringText v) (hu : MultiByte u) :
    StringText (u ++ v) := by
  refine ⟨Utf8.multi hu hv.utf8, fun x hx => ?_⟩
  rcases List.mem_append.mp hx with hx | hx
  · have := hu.high x hx
    exact Or.inl (by omega)
  · exact hv.control x hx

/-- An escaped text starts with a character as it is, or with the backslash of an escape. -/
lemma flatMap_jsonCode_eq_cons {d : Char} {s v rest : Str}
    (h : d :: s = v.flatMap jsonCode ++ '"' :: rest) (hd : d ≠ '"') :
    ∃ c v', v = c :: v' ∧ ((d ≠ '\\' ∧ c = d ∧ s = v'.flatMap jsonCode ++ '"' :: rest) ∨
      ∃ e, d = '\\' ∧ simpleEscape e = some c ∧ e ≠ 'u' ∧
        (c = '\\' ∨ c = '"' ∨ c = '\n' ∨ c = '\r') ∧
        s = e :: (v'.flatMap jsonCode ++ '"' :: rest)) := by
  cases v with
  | nil => exact absurd (List.cons.inj h).1 hd
  | cons c v =>
    refine ⟨c, v, rfl, ?_⟩
    rw [List.flatMap_cons] at h
    rcases jsonCode_cases c with ⟨e, hcode, he, hu, hc⟩ | ⟨hcode, hbackslash, -⟩
    · rw [hcode] at h
      exact Or.inr ⟨e, (List.cons.inj h).1, he, hu, hc, (List.cons.inj h).2⟩
    · rw [hcode] at h
      have hdc : d = c := (List.cons.inj h).1
      exact Or.inl ⟨hdc ▸ hbackslash, hdc.symm, (List.cons.inj h).2⟩

/-- Splitting the bytes of a character off an escaped text. -/
lemma flatMap_jsonCode_split : ∀ {u : Str}, (∀ c ∈ u, 0x80 ≤ c.toNat) → ∀ {v r rest : Str},
    u ++ r = v.flatMap jsonCode ++ '"' :: rest →
    ∃ v', v = u ++ v' ∧ r = v'.flatMap jsonCode ++ '"' :: rest
  | [], _, v, r, rest, h => ⟨v, rfl, h⟩
  | c :: u, hu, v, r, rest, h => by
    have hc := hu c (by simp)
    have hquote : c ≠ '"' := by
      rintro rfl
      exact absurd hc (by decide)
    obtain ⟨c, v', rfl, ⟨-, rfl, htail⟩ | ⟨e, rfl, -⟩⟩ := flatMap_jsonCode_eq_cons h hquote
    · obtain ⟨v', rfl, hr⟩ :=
        flatMap_jsonCode_split (fun x hx => hu x (List.mem_cons_of_mem _ hx)) htail
      exact ⟨v', rfl, hr⟩
    · exact absurd hc (by decide)

/-- A character of a string at the start of an escaped text is one that can be written, and the
rest is an escaped text. -/
lemma stringChar_split {u w : Str} (hu : StringChar u w) {v r rest : Str}
    (h : u ++ r = v.flatMap jsonCode ++ '"' :: rest) :
    ∃ v', v = w ++ v' ∧ r = v'.flatMap jsonCode ++ '"' :: rest ∧
      (StringText v' → StringText v) := by
  cases hu with
  | @ascii d hlow hhigh hquote hbackslash =>
    obtain ⟨c, v', rfl, ⟨-, rfl, htail⟩ | ⟨e, rfl, -⟩⟩ := flatMap_jsonCode_eq_cons h hquote
    · exact ⟨v', rfl, htail, fun hv => hv.cons hhigh (Or.inl hlow)⟩
    · exact absurd rfl hbackslash
  | multi hm =>
    obtain ⟨v', rfl, htail⟩ := flatMap_jsonCode_split hm.high h
    exact ⟨v', rfl, htail, fun hv => hv.multi hm⟩
  | @escape e d he =>
    obtain ⟨c, v', rfl, ⟨hd, -⟩ | ⟨e', -, he', -, hc, htail⟩⟩ :=
      flatMap_jsonCode_eq_cons h (by decide)
    · exact absurd rfl hd
    · obtain ⟨rfl, rfl⟩ := List.cons.inj htail
      obtain rfl : c = d := Option.some.inj (he'.symm.trans he)
      refine ⟨v', rfl, rfl, fun hv => hv.cons ?_ ?_⟩
      · rcases hc with rfl | rfl | rfl | rfl <;> decide
      · rcases hc with rfl | rfl | rfl | rfl <;> decide
  | _ =>
    -- no escape that is written has a number
    exfalso
    obtain ⟨c, v', rfl, ⟨hd, -⟩ | ⟨e, -, -, hu, -, htail⟩⟩ :=
      flatMap_jsonCode_eq_cons h (by decide)
    · exact hd rfl
    · exact hu (List.cons.inj htail).1.symm

/-- A text whose escaped form is read as a string is one that can be written, and it is read
back. -/
lemma stringText_of_stringBody {raw w : Str} (h : StringBody raw w) : ∀ {v s rest : Str},
    raw ++ '"' :: s = v.flatMap jsonCode ++ '"' :: rest → StringText v ∧ w = v ∧ s = rest := by
  induction h with
  | nil =>
    intro v s rest heq
    cases v with
    | nil => exact ⟨⟨Utf8.nil, by simp⟩, rfl, (List.cons.inj heq).2⟩
    | cons c v =>
      -- a quote in the value is written with a backslash before it
      exfalso
      rw [List.flatMap_cons] at heq
      rcases jsonCode_cases c with ⟨e, hcode, -⟩ | ⟨hcode, -, hquote, -⟩
      · rw [hcode] at heq
        exact absurd (List.cons.inj heq).1 (by decide)
      · rw [hcode] at heq
        exact hquote (List.cons.inj heq).1.symm
  | cons hu _ ih =>
    intro v s rest heq
    rw [List.append_assoc] at heq
    obtain ⟨v', rfl, htail, htext⟩ := stringChar_split hu heq
    obtain ⟨hv, rfl, hs⟩ := ih htail
    exact ⟨htext hv, rfl, hs⟩

/-- Reading a string that was written. -/
lemma scanToken_string {v rest r : Str} {t : JsonToken} :
    scanToken Binary64.nearest ('"' :: (v.flatMap jsonCode ++ '"' :: rest)) = some (t, r) ↔
      StringText v ∧ t = .string v ∧ r = rest := by
  rw [scanToken_eq_some_iff]
  constructor
  · rintro ⟨u, hu, -, heq⟩
    cases hu with
    | punctuation hp =>
      obtain ⟨rfl, -⟩ := List.cons.inj heq
      cases hp
    | @string raw w hraw =>
      have heq' : raw ++ '"' :: r = v.flatMap jsonCode ++ '"' :: rest := by
        simpa using (List.cons.inj heq).2.symm
      obtain ⟨hv, rfl, rfl⟩ := stringText_of_stringBody hraw heq'
      exact ⟨hv, rfl, rfl⟩
    | number hq =>
      obtain ⟨-, c, hc, hhead⟩ := numberValue?_chars hq
      cases u with
      | nil => cases hc
      | cons d u =>
        cases hc
        obtain ⟨rfl, -⟩ := List.cons.inj heq
        exact absurd hhead (by decide)
    | literal hmem =>
      simp only [literals, List.mem_cons, Prod.mk.injEq, List.not_mem_nil, or_false] at hmem
      rcases hmem with ⟨rfl, -⟩ | ⟨rfl, -⟩ | ⟨rfl, -⟩ <;>
        exact absurd (List.cons.inj heq).1 (by decide)
  · rintro ⟨hv, rfl, rfl⟩
    exact ⟨_, Lexeme.string (stringBody_flatMap hv), trivial, by simp⟩

/-! ### Names and values -/

/-- A name that stands in a JSON string as it is. -/
def PlainName (name : Str) : Prop :=
  ∀ c ∈ name, '!' ≤ c ∧ c ≤ '~' ∧ c ≠ '"' ∧ c ≠ '\\'

lemma ValidName.plainName {canBeEmpty canBeLowercase : Bool} {name : Str}
    (h : ValidName canBeEmpty canBeLowercase name) : PlainName name := by
  intro c hc
  have hn := h.chars c hc
  refine ⟨(isNameChar_graphic hn).1, (isNameChar_graphic hn).2, ?_, ?_⟩ <;> rintro rfl
  · cases canBeLowercase <;> exact absurd hn (by decide)
  · cases canBeLowercase <;> exact absurd hn (by decide)

lemma ValidDestination.plainName {name : Str} (h : ValidDestination name) : PlainName name := by
  intro c hc
  obtain ⟨h₁, h₂, -, -, -, h₃, h₄⟩ := h.mem_graphic hc
  exact ⟨h₁, h₂, h₃, h₄⟩

lemma PlainName.flatMap {name : Str} (h : PlainName name) :
    name.flatMap jsonCode = name ∧ StringText name := by
  induction name with
  | nil => exact ⟨rfl, Utf8.nil, by simp⟩
  | cons c name ih =>
    obtain ⟨hcode, htext⟩ := ih fun d hd => h d (List.mem_cons_of_mem _ hd)
    obtain ⟨h₁, h₂, h₃, h₄⟩ := h c List.mem_cons_self
    have hlow : 0x20 ≤ c.toNat := le_trans (by decide : 0x20 ≤ ('!').toNat) h₁
    have hhigh : c.toNat < 0x80 := lt_of_le_of_lt h₂ (by decide : ('~').toNat < 0x80)
    refine ⟨?_, htext.cons hhigh (Or.inl hlow)⟩
    rw [List.flatMap_cons, hcode]
    rcases jsonCode_cases c with ⟨e, -, -, -, hc⟩ | ⟨hc, -⟩
    · rcases hc with rfl | rfl | rfl | rfl
      · exact absurd rfl h₄
      · exact absurd rfl h₃
      · exact absurd hlow (by decide)
      · exact absurd hlow (by decide)
    · rw [hc]
      rfl

lemma scanToken_plainName {name : Str} (h : PlainName name) (rest : Str) :
    scanToken Binary64.nearest ('"' :: (name ++ '"' :: rest)) = some (.string name, rest) := by
  have hs : scanToken Binary64.nearest ('"' :: (name.flatMap jsonCode ++ '"' :: rest)) =
      some (.string name, rest) ↔ StringText name ∧ _ := scanToken_string
  rw [h.flatMap.1] at hs
  exact hs.mpr ⟨h.flatMap.2, rfl, rfl⟩

/-- The values that are written in standard JSON: the two words, the numbers whose text is also
a number of JSON, and the strings that can be written. -/
def JsonSafe (V : ValidatorDouble) (v : Str) : Prop :=
  v = booleanText true ∨ v = booleanText false ∨
    (V.convertString v = true ∧ (numberValue? (dropPlus v)).isSome = true) ∨
    (V.convertString v = false ∧ StringText v)

/-- The token that a value is written as. -/
def valueToken (V : ValidatorDouble) (v : Str) : JsonToken :=
  if v = booleanText true then .boolean true
  else if v = booleanText false then .boolean false
  else if V.convertString v then .number (Binary64.nearest ((numberValue? (dropPlus v)).getD 0))
  else .string v

lemma scanToken_booleanText (b : Bool) (rest : Str) :
    scanToken Binary64.nearest (booleanText b ++ rest) = some (.boolean b, rest) := by
  cases b <;> rfl

/-- Without its plus sign, a floating point number is not empty and is spelled with the
characters of numbers. -/
lemma dropPlus_chars {v : Str} (h : isDecimalFloat v = true) :
    dropPlus v ≠ [] ∧ ∀ c ∈ dropPlus v, isNumberChar c = true := by
  obtain ⟨hne, hchars⟩ := isDecimalFloat_chars h
  unfold dropPlus
  split
  · exact ⟨hne, hchars⟩
  · rename_i hplus
    unfold dropSign at hne hchars
    split at hne
    · exact absurd rfl (hplus _)
    · refine ⟨by simp, fun c hc => ?_⟩
      rcases List.mem_cons.mp hc with rfl | hc
      · rfl
      · exact hchars c hc
    · rename_i hplus' hminus
      split at hchars
      · exact absurd rfl (hplus _)
      · exact absurd rfl (hminus _)
      · exact ⟨hne, hchars⟩

/-- Reading a value that was written. -/
lemma scanToken_valueJson {v rest r : Str} {t : JsonToken}
    (hrest : ∀ c, rest.head? = some c → isNumberChar c = false) :
    scanToken Binary64.nearest (valueJson S V v ++ rest) = some (t, r) ↔
      JsonSafe V v ∧ t = valueToken V v ∧ r = rest := by
  rw [valueJson, valueToken, JsonSafe]
  by_cases htrue : v = booleanText true
  · rw [if_pos htrue, if_pos htrue, scanToken_booleanText, Option.some.injEq, Prod.mk.injEq]
    exact ⟨fun h => ⟨Or.inl htrue, h.1.symm, h.2.symm⟩, fun h => ⟨h.2.1.symm, h.2.2.symm⟩⟩
  by_cases hfalse : v = booleanText false
  · rw [if_neg htrue, if_pos hfalse, if_neg htrue, if_pos hfalse, scanToken_booleanText,
      Option.some.injEq, Prod.mk.injEq]
    exact ⟨fun h => ⟨Or.inr (Or.inl hfalse), h.1.symm, h.2.symm⟩,
      fun h => ⟨h.2.1.symm, h.2.2.symm⟩⟩
  rw [if_neg htrue, if_neg hfalse, if_neg htrue, if_neg hfalse]
  by_cases hnum : V.convertString v = true
  · obtain ⟨hne, hchars⟩ := dropPlus_chars (V.convertString_sound v hnum)
    rw [if_pos hnum, if_pos hnum, scanToken_number hne hchars hrest]
    cases hq : numberValue? (dropPlus v) with
    | none => simp [htrue, hfalse, hnum]
    | some q => simp [htrue, hfalse, hnum, eq_comm]
  · rw [if_neg hnum, if_neg hnum, stringReplaceMany_jsonEscapes, List.cons_append,
      List.append_assoc, List.singleton_append, scanToken_string]
    simp [htrue, hfalse, hnum]

/-! ### Members and parameters -/

/-- A text whose first token is known. -/
lemma lexes_punctuation {c : Char} {t : JsonToken} {rest : Str} {l : List JsonToken}
    (h : punctuation c = some t) :
    Lexes Binary64.nearest (c :: rest) l ↔ ∃ l', l = t :: l' ∧ Lexes Binary64.nearest rest l' := by
  refine lexes_of_scanToken ?_
  rw [scanToken, h]

lemma lexes_plainName {name rest : Str} {l : List JsonToken} (h : PlainName name) :
    Lexes Binary64.nearest ('"' :: (name ++ '"' :: rest)) l ↔
      ∃ l', l = .string name :: l' ∧ Lexes Binary64.nearest rest l' :=
  lexes_of_scanToken (scanToken_plainName h rest)

/-- The tokens of a member whose value is a string. -/
def memberTokens (key value : Str) : List JsonToken := [.string key, .colon, .string value]

lemma lexes_openMember {key value rest : Str} {l : List JsonToken} (hkey : PlainName key)
    (hvalue : PlainName value) :
    Lexes Binary64.nearest (openMember key ++ (value ++ '"' :: rest)) l ↔
      ∃ l', l = memberTokens key value ++ l' ∧ Lexes Binary64.nearest rest l' := by
  have htext : openMember key ++ (value ++ '"' :: rest) =
      '"' :: (key ++ '"' :: ':' :: '"' :: (value ++ '"' :: rest)) := by simp [openMember]
  rw [htext, lexes_plainName hkey]
  simp only [lexes_punctuation (show punctuation ':' = some (Token.colon : JsonToken) from rfl),
    lexes_plainName hvalue]
  constructor
  · rintro ⟨_, rfl, _, rfl, l', rfl, h⟩
    exact ⟨l', rfl, h⟩
  · rintro ⟨l', rfl, h⟩
    exact ⟨_, rfl, _, rfl, l', rfl, h⟩

/-- The tokens of the parameters. -/
def parametersTokens (V : ValidatorDouble) : Bool → List (Str × Str) → List JsonToken
  | _, [] => []
  | first, p :: ps =>
      (if first then [] else [.comma]) ++
        .string p.1 :: .colon :: valueToken V p.2 :: parametersTokens V false ps

/-- What follows a value is a comma or a brace. -/
lemma parametersJson_head (ps : List (Str × Str)) (rest : Str) {c : Char}
    (h : (parametersJson S V false ps ++ '\x7d' :: rest).head? = some c) :
    isNumberChar c = false := by
  cases ps with
  | nil => cases h; rfl
  | cons p ps => cases h; rfl

lemma valueJson_head (v : Str) : ∃ c s, valueJson S V v = c :: s ∧ isSpace c = false := by
  rw [valueJson]
  split
  · exact ⟨'t', ['r', 'u', 'e'], rfl, rfl⟩
  · split
    · exact ⟨'f', ['a', 'l', 's', 'e'], rfl, rfl⟩
    · split
      · rename_i hnum
        obtain ⟨hne, hchars⟩ := dropPlus_chars (V.convertString_sound v hnum)
        obtain ⟨c, s, hc⟩ := List.exists_cons_of_ne_nil hne
        refine ⟨c, s, hc, ?_⟩
        have hnumber := hchars c (by simp [hc])
        rw [Bool.eq_false_iff]
        simp only [isSpace, ne_eq, Bool.or_eq_true, beq_iff_eq]
        rintro (((rfl | rfl) | rfl) | rfl) <;> exact absurd hnumber (by decide)
      · exact ⟨'"', _, rfl, rfl⟩

/-- The tokens of a value that is written, and of what follows it. -/
lemma lexes_valueJson {v rest : Str} {l : List JsonToken}
    (hrest : ∀ c, rest.head? = some c → isNumberChar c = false) :
    Lexes Binary64.nearest (valueJson S V v ++ rest) l ↔
      JsonSafe V v ∧ ∃ l', l = valueToken V v :: l' ∧ Lexes Binary64.nearest rest l' := by
  obtain ⟨c, s, hv, hc⟩ := valueJson_head (S := S) (V := V) v
  have hscan := fun t r => scanToken_valueJson (S := S) (V := V) (v := v) (t := t) (r := r) hrest
  rw [hv, List.cons_append] at hscan ⊢
  rw [lexes_token_iff hc]
  constructor
  · rintro ⟨t, r, l', h, rfl, hl⟩
    obtain ⟨hsafe, rfl, rfl⟩ := (hscan t r).mp h
    exact ⟨hsafe, l', rfl, hl⟩
  · rintro ⟨hsafe, l', rfl, hl⟩
    exact ⟨_, _, l', (hscan _ _).mpr ⟨hsafe, rfl, rfl⟩, rfl, hl⟩

lemma lexes_parametersJson : ∀ {ps : List (Str × Str)}, (∀ p ∈ ps, PlainName p.1) →
    ∀ {first : Bool} {rest : Str} {l : List JsonToken},
    Lexes Binary64.nearest (parametersJson S V first ps ++ '\x7d' :: rest) l ↔
      (∀ p ∈ ps, JsonSafe V p.2) ∧ ∃ l', l = parametersTokens V first ps ++ .closeObject :: l' ∧
        Lexes Binary64.nearest rest l'
  | [], _, first, rest, l => by
    rw [parametersJson, parametersTokens, List.nil_append, lexes_punctuation rfl]
    simp
  | p :: ps, hname, first, rest, l => by
    have hp := hname p List.mem_cons_self
    have ih : ∀ l, Lexes Binary64.nearest (parametersJson S V false ps ++ '\x7d' :: rest) l ↔ _ :=
      fun l => lexes_parametersJson fun q hq => hname q (List.mem_cons_of_mem _ hq)
    have hpair : ∀ l, Lexes Binary64.nearest ('"' :: (p.1 ++ '"' :: ':' ::
        (valueJson S V p.2 ++ (parametersJson S V false ps ++ '\x7d' :: rest)))) l ↔
        (∀ q ∈ p :: ps, JsonSafe V q.2) ∧ ∃ l', l = .string p.1 :: .colon :: valueToken V p.2 ::
          (parametersTokens V false ps ++ .closeObject :: l') ∧
            Lexes Binary64.nearest rest l' := by
      intro l
      rw [lexes_plainName hp]
      simp only [lexes_punctuation (show punctuation ':' = some (Token.colon : JsonToken) from rfl),
        lexes_valueJson fun c => parametersJson_head ps rest, ih, List.forall_mem_cons]
      constructor
      · rintro ⟨_, rfl, _, rfl, hv, _, rfl, hps, l', rfl, h⟩
        exact ⟨⟨hv, hps⟩, l', rfl, h⟩
      · rintro ⟨⟨hv, hps⟩, l', rfl, h⟩
        exact ⟨_, rfl, _, rfl, hv, _, rfl, hps, l', rfl, h⟩
    cases first with
    | true =>
      have := hpair l
      simpa [parametersJson, parametersTokens] using this
    | false =>
      -- the comma before the pair
      have htext : parametersJson S V false (p :: ps) ++ '\x7d' :: rest =
          ',' :: '"' :: (p.1 ++ '"' :: ':' ::
            (valueJson S V p.2 ++ (parametersJson S V false ps ++ '\x7d' :: rest))) := by
        simp [parametersJson]
      rw [htext, lexes_punctuation (t := .comma) rfl]
      simp only [hpair]
      constructor
      · rintro ⟨_, rfl, hps, l', rfl, h⟩
        exact ⟨hps, l', by simp [parametersTokens], h⟩
      · rintro ⟨hps, l', rfl, h⟩
        exact ⟨_, by simp [parametersTokens], hps, l', rfl, h⟩

/-! ### The whole text -/

lemma NameField.plainName_key (field : NameField) : PlainName field.key := by
  cases field <;> (unfold PlainName; decide)

lemma plainName_commandKey : PlainName commandKey := by
  rw [PlainName]
  decide

lemma plainName_parametersKey : PlainName parametersKey := by
  rw [PlainName]
  decide

namespace Fields

/-- The tokens of a member that is written when its name is not empty. -/
def memberTokens (f : Fields) (field : NameField) : List JsonToken :=
  if f.name field ≠ [] then EventDispatcher.memberTokens field.key (f.name field) ++ [.comma]
  else []

/-- The tokens after the command. -/
def tailTokens (V : ValidatorDouble) (f : Fields) : List JsonToken :=
  (if f.parameters.entries ≠ [] then
    .comma :: .string parametersKey :: .colon :: .openObject ::
      (parametersTokens V true f.parameters.entries ++ [.closeObject])
  else []) ++ [.closeObject]

/-- The tokens of a message without a service. -/
def tokens (V : ValidatorDouble) (f : Fields) : List JsonToken :=
  .openObject :: (f.memberTokens .sentFromServer ++ (f.memberTokens .sentFromService ++
    (EventDispatcher.memberTokens commandKey f.command ++ f.tailTokens V)))

lemma lexes_memberJson {f : Fields} {field : NameField} (hf : PlainName (f.name field))
    {rest : Str} {l : List JsonToken} :
    Lexes Binary64.nearest (f.memberJson field ++ rest) l ↔
      ∃ l', l = f.memberTokens field ++ l' ∧ Lexes Binary64.nearest rest l' := by
  rw [memberJson, memberTokens]
  split
  · have htext : openMember field.key ++ (f.name field ++ ['"', ',']) ++ rest =
        openMember field.key ++ (f.name field ++ '"' :: ',' :: rest) := by simp
    rw [htext, lexes_openMember field.plainName_key hf]
    simp only [lexes_punctuation (show punctuation ',' = some (Token.comma : JsonToken) from rfl)]
    constructor
    · rintro ⟨_, rfl, l', rfl, h⟩
      exact ⟨l', by simp, h⟩
    · rintro ⟨l', rfl, h⟩
      exact ⟨.comma :: l', by simp, l', rfl, h⟩
  · simp

/-- The text after the command. -/
def tailJson (S : Snapdev) (V : ValidatorDouble) (f : Fields) : Str :=
  (if f.parameters.entries ≠ [] then
    ',' :: '"' :: (parametersKey ++ '"' :: ':' :: '\x7b' ::
      (parametersJson S V true f.parameters.entries ++ ['\x7d']))
  else []) ++ ['\x7d']

lemma lexes_tailJson {f : Fields} (hf : f.ValidNames) {l : List JsonToken} :
    Lexes Binary64.nearest (f.tailJson S V) l ↔
      (∀ p ∈ f.parameters.entries, JsonSafe V p.2) ∧ l = f.tailTokens V := by
  have hclose : ∀ l, Lexes Binary64.nearest ['\x7d'] l ↔ l = [(Token.closeObject : JsonToken)] := by
    intro l
    rw [lexes_punctuation (t := .closeObject) rfl]
    simp [lexes_nil_iff]
  have hplain : ∀ p ∈ f.parameters.entries, PlainName p.1 := fun p hp =>
    (hf.parameters p.1 (List.mem_map_of_mem hp)).plainName
  rw [tailJson, tailTokens]
  by_cases hps : f.parameters.entries = []
  · rw [if_neg (not_not.mpr hps), if_neg (not_not.mpr hps), List.nil_append, hclose, hps]
    simp
  · rw [if_pos hps, if_pos hps]
    have htext : ',' :: '"' :: (parametersKey ++ '"' :: ':' :: '\x7b' ::
        (parametersJson S V true f.parameters.entries ++ ['\x7d'])) ++ ['\x7d'] =
        ',' :: '"' :: (parametersKey ++ '"' :: ':' :: '\x7b' ::
          (parametersJson S V true f.parameters.entries ++ '\x7d' :: ['\x7d'])) := by simp
    rw [htext, lexes_punctuation (t := .comma) rfl]
    simp only [lexes_plainName plainName_parametersKey,
      lexes_punctuation (show punctuation ':' = some (Token.colon : JsonToken) from rfl),
      lexes_punctuation (show punctuation '\x7b' = some (Token.openObject : JsonToken) from rfl),
      lexes_parametersJson hplain, hclose]
    constructor
    · rintro ⟨_, rfl, _, rfl, _, rfl, _, rfl, hsafe, _, rfl, rfl⟩
      exact ⟨hsafe, by simp⟩
    · rintro ⟨hsafe, rfl⟩
      exact ⟨_, rfl, _, rfl, _, rfl, _, rfl, hsafe, _, by simp, rfl⟩

/-- **The text of a message is standard JSON exactly when it has no service and its values are
safe**, and then its tokens are known. -/
theorem lexes_json_iff {f : Fields} (hf : f.ValidNames) {l : List JsonToken} :
    Lexes Binary64.nearest (f.json S V) l ↔
      f.service = [] ∧ (∀ p ∈ f.parameters.entries, JsonSafe V p.2) ∧ l = f.tokens V := by
  have hname : ∀ field, PlainName (f.name field) := fun field => (hf.names field).plainName
  have htail : f.json S V = '\x7b' :: (f.memberJson .sentFromServer ++
      (f.memberJson .sentFromService ++ (f.destinationJson ++
        (openMember commandKey ++ (f.command ++ '"' :: f.tailJson S V))))) := rfl
  rw [htail, lexes_punctuation (t := .openObject) rfl]
  simp only [lexes_memberJson (hname _)]
  by_cases hservice : f.service = []
  · have hdest : f.destinationJson = [] := if_neg (not_not.mpr hservice)
    simp only [hdest, List.nil_append,
      lexes_openMember plainName_commandKey hf.command.plainName, lexes_tailJson hf]
    constructor
    · rintro ⟨_, rfl, _, rfl, _, rfl, _, rfl, hsafe, rfl⟩
      exact ⟨hservice, hsafe, rfl⟩
    · rintro ⟨-, hsafe, rfl⟩
      exact ⟨_, rfl, _, rfl, _, rfl, _, rfl, hsafe, rfl⟩
  · -- the quote that opens the next member closes the service, and a bare word follows
    have hbare : ∀ rest l, ¬ Lexes Binary64.nearest
        ('c' :: rest) (l : List JsonToken) := by
      intro rest l h
      obtain ⟨t, r, l', hscan, -⟩ := (lexes_token_iff (by decide)).mp h
      rw [scanToken_letter (by decide)] at hscan
      cases hscan
    have hdest : f.destinationJson ++ (openMember commandKey ++ (f.command ++ '"' ::
        f.tailJson S V)) = f.memberJson .server ++ (openMember NameField.service.key ++
          (f.name .service ++ '"' :: (commandKey ++ (['"', ':', '"'] ++ (f.command ++ '"' ::
            f.tailJson S V))))) := by
      rw [destinationJson]
      rw [if_pos hservice]
      simp [openMember, Fields.name]
    have hcommand : ∀ rest : Str, commandKey ++ rest = 'c' :: ("ommand".toList ++ rest) :=
      fun _ => rfl
    simp only [hdest, lexes_memberJson (hname _),
      lexes_openMember (NameField.plainName_key _) (hname _), hcommand, hbare]
    simp [hservice]

end Fields

end EventDispatcher
