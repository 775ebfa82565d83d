import EventDispatcher.Message.TextGrammar

/-!
# The string format: what comes back

A message that the setters built is written by `to_string()` and read back by
`from_string()`.  It comes back as it was exactly when two kinds of values are absent
(`TextSafe`): a value that is written between quotes and ends with a backslash, since the
reader takes the last backslash and the closing quote for an escaped quote, and a last value
that is written without quotes and ends with a blank, since the reader trims the text.
-/

namespace EventDispatcher

open Lib

variable {S : Snapdev}

/-! ### The characters of the text -/

/-- The characters that stand in a name stand in the text as they are. -/
lemma Snapdev.not_blank_of_graphic' {c : Char} (h : '!' ≤ c ∧ c ≤ '~') : S.blank c = false :=
  S.not_blank_of_graphic c h.1 h.2

lemma mem_textCode {c d : Char} (h : d ∈ textCode c) :
    d ∈ ['\\', 'n', 'r'] ∨ (d = c ∧ c ≠ '\n' ∧ c ≠ '\r') := by
  unfold textCode at h
  split at h
  · simp only [List.mem_cons, List.not_mem_nil, or_false, or_self] at h ⊢
    exact Or.inl (Or.inl h)
  · split at h
    · simp only [List.mem_cons, List.not_mem_nil, or_false] at h ⊢
      tauto
    · split at h
      · simp only [List.mem_cons, List.not_mem_nil, or_false] at h ⊢
        tauto
      · simp_all

lemma mem_quotedCode {c d : Char} (h : d ∈ quotedCode c) :
    d ∈ ['"', '\\', 'n', 'r'] ∨ (d = c ∧ c ≠ '\n' ∧ c ≠ '\r') := by
  unfold quotedCode at h
  split at h
  · simp only [List.mem_cons, List.not_mem_nil, or_false] at h ⊢
    tauto
  · rcases mem_textCode h with h | h
    · exact Or.inl (List.mem_cons_of_mem _ h)
    · exact Or.inr h

/-- A value is written with its own characters, but the line ends, and with those of the
escapes. -/
lemma mem_valueText {v : Str} {d : Char} (h : d ∈ valueText S v) :
    d ∈ ['"', '\\', 'n', 'r'] ∨ (d ∈ v ∧ d ≠ '\n' ∧ d ≠ '\r') := by
  have lift : ∀ {code : Char → Str}, (∀ c, ∀ d ∈ code c,
      d ∈ ['"', '\\', 'n', 'r'] ∨ (d = c ∧ c ≠ '\n' ∧ c ≠ '\r')) → d ∈ v.flatMap code →
      d ∈ ['"', '\\', 'n', 'r'] ∨ (d ∈ v ∧ d ≠ '\n' ∧ d ≠ '\r') := by
    intro code hcode hd
    obtain ⟨c, hc, hd⟩ := List.mem_flatMap.mp hd
    rcases hcode c d hd with h | ⟨rfl, hn⟩
    · exact Or.inl h
    · exact Or.inr ⟨hc, hn⟩
  rw [valueText_eq] at h
  split at h
  · rcases List.mem_cons.mp h with rfl | h
    · exact Or.inl (by simp)
    · rcases List.mem_append.mp h with h | h
      · exact lift (fun c d => mem_quotedCode) h
      · exact Or.inl (by simp_all)
  · exact lift (fun c d hd => (mem_textCode hd).imp (fun h => List.mem_cons_of_mem _ h) id) h

lemma mem_parametersText {d sep : Char} : ∀ {l : List (Str × Str)},
    d ∈ parametersText S sep l → d ∈ [sep, ';', '='] ∨ ∃ p ∈ l, d ∈ p.1 ∨ d ∈ valueText S p.2
  | [], h => by simp [parametersText] at h
  | p :: l, h => by
    rw [parametersText] at h
    rcases List.mem_cons.mp h with rfl | h
    · exact Or.inl (by simp)
    · rcases List.mem_append.mp h with h | h
      · exact Or.inr ⟨p, by simp, Or.inl h⟩
      · rcases List.mem_cons.mp h with rfl | h
        · exact Or.inl (by simp)
        · rcases List.mem_append.mp h with h | h
          · exact Or.inr ⟨p, by simp, Or.inr h⟩
          · rcases mem_parametersText h with h | ⟨q, hq, h⟩
            · exact Or.inl (by simp only [List.mem_cons] at h ⊢; tauto)
            · exact Or.inr ⟨q, by simp [hq], h⟩

/-- The characters of the sent-from part. -/
lemma Fields.mem_sentFromText {f : Fields} (hf : f.ValidNames) {d : Char}
    (h : d ∈ f.sentFromText) : ('!' ≤ d ∧ d ≤ '~') ∨ d = ' ' := by
  have hss : d ∈ f.sentFromServer → '!' ≤ d ∧ d ≤ '~' := fun hd =>
    ((hf.names .sentFromServer).mem_graphic hd).imp_right And.left
  have hsv : d ∈ f.sentFromService → '!' ≤ d ∧ d ≤ '~' := fun hd =>
    ((hf.names .sentFromService).mem_graphic hd).imp_right And.left
  unfold Fields.sentFromText at h
  split at h
  · simp only [List.mem_cons, List.mem_append, List.not_mem_nil, or_false] at h
    rcases h with rfl | h | rfl | h | rfl
    · exact Or.inl (by decide)
    · exact Or.inl (hss h)
    · exact Or.inl (by decide)
    · exact Or.inl (hsv h)
    · exact Or.inr rfl
  · simp at h

/-- The characters of the destination. -/
lemma Fields.mem_destinationText {f : Fields} (hf : f.ValidNames) {d : Char}
    (h : d ∈ f.destinationText) : '!' ≤ d ∧ d ≤ '~' := by
  have hs : d ∈ f.server → '!' ≤ d ∧ d ≤ '~' := fun hd =>
    ((hf.names .server).mem_graphic hd).imp_right And.left
  have hv : d ∈ f.service → '!' ≤ d ∧ d ≤ '~' := fun hd =>
    ((hf.names .service).mem_graphic hd).imp_right And.left
  unfold Fields.destinationText at h
  split at h
  · rcases List.mem_append.mp h with h | h
    · split at h
      · rcases List.mem_append.mp h with h | h
        · exact hs h
        · rw [List.mem_singleton.mp h]
          decide
      · simp at h
    · rcases List.mem_append.mp h with h | h
      · exact hv h
      · rw [List.mem_singleton.mp h]
        decide
  · simp at h

/-- The characters of the text of a message. -/
lemma Fields.mem_text {f : Fields} (hf : f.ValidNames) {d : Char} (h : d ∈ f.text S) :
    ('!' ≤ d ∧ d ≤ '~') ∨ d = ' ' ∨
      ∃ p ∈ f.parameters.entries, d ∈ p.2 ∧ d ≠ '\n' ∧ d ≠ '\r' := by
  rw [Fields.text] at h
  rcases List.mem_append.mp h with h | h
  · exact (mem_sentFromText hf h).imp_right Or.inl
  rcases List.mem_append.mp h with h | h
  · exact Or.inl (mem_destinationText hf h)
  rcases List.mem_append.mp h with h | h
  · exact Or.inl (isNameChar_graphic (hf.command.chars d h))
  rcases mem_parametersText h with h | ⟨p, hp, h | h⟩
  · simp only [List.mem_cons, List.not_mem_nil, or_false] at h
    rcases h with rfl | rfl | rfl
    · exact Or.inr (Or.inl rfl)
    · exact Or.inl (by decide)
    · exact Or.inl (by decide)
  · have hkey : p.1 ∈ f.parameters.keys := List.mem_map_of_mem hp
    exact Or.inl (isNameChar_graphic ((hf.parameters _ hkey).chars d h))
  · rcases mem_valueText h with h | h
    · simp only [List.mem_cons, List.not_mem_nil, or_false] at h
      rcases h with rfl | rfl | rfl | rfl <;> exact Or.inl (by decide)
    · exact Or.inr (Or.inr ⟨p, hp, h⟩)

/-- The text is on one line. -/
theorem Fields.text_single_line {f : Fields} (hf : f.ValidNames) :
    '\n' ∉ f.text S ∧ '\r' ∉ f.text S := by
  constructor
  · intro h
    rcases f.mem_text hf h with h | h | ⟨p, -, -, h, -⟩
    · exact absurd h (by decide)
    · exact absurd h (by decide)
    · exact h rfl
  · intro h
    rcases f.mem_text hf h with h | h | ⟨p, -, -, -, h⟩
    · exact absurd h (by decide)
    · exact absurd h (by decide)
    · exact h rfl

/-- The text of a message without NUL in its values has none. -/
lemma Fields.nul_notMem_text {f : Fields} (hf : f.ValidNames)
    (hnul : ∀ p ∈ f.parameters.entries, nul ∉ p.2) : nul ∉ f.text S := by
  intro h
  rcases f.mem_text hf h with h | h | ⟨p, hp, h, -⟩
  · exact absurd h (by decide)
  · exact absurd h (by decide)
  · exact hnul p hp h

/-! ### The text is in the format -/

/-- A code word is not empty and does not start with a quote. -/
lemma quotedCode_append_head (c : Char) (t : Str) :
    quotedCode c ++ t ≠ [] ∧ (quotedCode c ++ t).head? ≠ some '"' := by
  rw [quotedCode, textCode]
  by_cases h₁ : c = '"'
  · simp [h₁]
  · by_cases h₂ : c = '\\'
    · simp [h₂]
    · by_cases h₃ : c = '\n'
      · simp [h₃]
      · by_cases h₄ : c = '\r' <;> simp [h₁, h₂, h₃, h₄]

/-- The codes of one character between quotes, and not. -/
lemma QuotedForm.code {c : Char} {q v : Str} (hq : QuotedForm q v)
    (hc : c = '\\' → q ≠ [] ∧ q.head? ≠ some '"') :
    QuotedForm (quotedCode c ++ q) (textCode c ++ v) := by
  rw [quotedCode, textCode]
  by_cases h₁ : c = '"'
  · subst h₁
    exact QuotedForm.quote hq
  rw [if_neg h₁]
  by_cases h₂ : c = '\\'
  · subst h₂
    exact QuotedForm.char (by decide) (fun _ => ⟨by simp, by simp⟩)
      (QuotedForm.char (by decide) hc hq)
  rw [if_neg h₂]
  by_cases h₃ : c = '\n'
  · subst h₃
    exact QuotedForm.char (by decide) (fun _ => ⟨by simp, by simp⟩)
      (QuotedForm.char (by decide) (fun h => absurd h (by decide)) hq)
  rw [if_neg h₃]
  by_cases h₄ : c = '\r'
  · subst h₄
    exact QuotedForm.char (by decide) (fun _ => ⟨by simp, by simp⟩)
      (QuotedForm.char (by decide) (fun h => absurd h (by decide)) hq)
  rw [if_neg h₄]
  exact QuotedForm.char h₁ (fun h => absurd h h₂) hq

/-- What is written between quotes is read back, unless it ends with a backslash. -/
lemma quotedForm_flatMap {v : Str} (h : v.getLast? ≠ some '\\') :
    QuotedForm (v.flatMap quotedCode) (v.flatMap textCode) := by
  induction v with
  | nil => exact QuotedForm.nil
  | cons c v ih =>
    rw [List.flatMap_cons, List.flatMap_cons]
    cases v with
    | nil =>
      refine QuotedForm.nil.code fun hc => ?_
      exact absurd (congrArg some hc) h
    | cons d v =>
      refine (ih (by simpa [List.getLast?_cons] using h)).code fun _ => ?_
      rw [List.flatMap_cons]
      exact quotedCode_append_head d _

/-- The first character of a code is the character or a backslash. -/
lemma head?_flatMap_textCode {v : Str} {d : Char} (h : (v.flatMap textCode).head? = some d) :
    v.head? = some d ∨ d = '\\' := by
  cases v with
  | nil => cases h
  | cons c v =>
    rw [List.flatMap_cons] at h
    unfold textCode at h
    by_cases h₁ : c = '\\'
    · rw [if_pos h₁] at h
      exact Or.inr (Option.some.inj h).symm
    rw [if_neg h₁] at h
    by_cases h₂ : c = '\n'
    · rw [if_pos h₂] at h
      exact Or.inr (Option.some.inj h).symm
    rw [if_neg h₂] at h
    by_cases h₃ : c = '\r'
    · rw [if_pos h₃] at h
      exact Or.inr (Option.some.inj h).symm
    · rw [if_neg h₃] at h
      exact Or.inl h

/-- A value is written in a form that holds its escaped text. -/
lemma valueForm_valueText {v : Str} (h : needsQuotes v = true → v.getLast? ≠ some '\\') :
    ValueForm (valueText S v) (v.flatMap textCode) := by
  rw [valueText_eq]
  split
  · rename_i hq
    exact ValueForm.quoted (quotedForm_flatMap (h hq))
  · rename_i hq
    simp only [needsQuotes, Bool.or_eq_true, not_or, List.contains_iff_mem, beq_iff_eq] at hq
    refine ValueForm.plain (fun d hd => ?_) fun hhead => ?_
    · rw [List.mem_singleton]
      rintro rfl
      obtain ⟨c, hc, hd⟩ := List.mem_flatMap.mp hd
      rcases mem_textCode hd with hd | ⟨rfl, -⟩
      · exact absurd hd (by decide)
      · exact hq.1 hc
    · rcases head?_flatMap_textCode hhead with h | h
      · exact hq.2 h
      · exact absurd h (by decide)

/-- The values that the reader finds whole: a value that is written between quotes does not end
with a backslash. -/
def QuotesClosed (v : Str) : Prop := needsQuotes v = true → v.getLast? ≠ some '\\'

/-- The parameters are written in the format. -/
lemma parametersForm_parametersText : ∀ {l : List (Str × Str)} {p : Str × Str},
    (∀ e ∈ p :: l, ValidName false true e.1) → (∀ e ∈ p :: l, QuotesClosed e.2) →
    ParametersForm S (p.1 ++ '=' :: (valueText S p.2 ++ parametersText S ';' l)) (p :: l)
  | [], (name, v), hname, hq => by
    have hform := ParametersForm.last (S := S) (hname (name, v) List.mem_cons_self)
      (valueForm_valueText (S := S) (hq (name, v) List.mem_cons_self))
    rw [stringReplaceMany_textUnescapes] at hform
    simpa [parametersText] using hform
  | q :: l, (name, v), hname, hq => by
    have hrest : ParametersForm S (q.1 ++ '=' :: (valueText S q.2 ++ parametersText S ';' l))
        (q :: l) :=
      parametersForm_parametersText (fun e he => hname e (List.mem_cons_of_mem _ he))
        (fun e he => hq e (List.mem_cons_of_mem _ he))
    have hform := ParametersForm.cons (S := S) (hname (name, v) List.mem_cons_self)
      (valueForm_valueText (S := S) (hq (name, v) List.mem_cons_self)) hrest
    rw [stringReplaceMany_textUnescapes] at hform
    simpa [parametersText] using hform

/-- A destination has none of the characters that separate the parts of the text. -/
lemma ValidDestination.avoids {name : Str} (h : ValidDestination name) :
    Avoids name routingSeparators := by
  intro c hc hmem
  obtain ⟨h₁, -, h₂, h₃, -⟩ := h.mem_graphic hc
  simp only [routingSeparators, List.mem_cons, List.not_mem_nil, or_false] at hmem
  rcases hmem with rfl | rfl | rfl
  · exact h₂ rfl
  · exact h₃ rfl
  · exact absurd h₁ (by decide)

namespace Fields

variable {f : Fields}

/-- What the loop over the destination and the command reads in the text of a message. -/
def routing (f : Fields) : Routing :=
  ⟨decide (f.server ≠ []), decide (f.service ≠ []), f.server, f.service, f.command⟩

lemma text_routing (hdest : f.server ≠ [] → f.service ≠ []) :
    f.routing.text = f.destinationText ++ f.command := by
  rw [Routing.text, destinationText]
  by_cases h₁ : f.service = []
  · have h₂ : f.server = [] := by
      by_contra h
      exact hdest h h₁
    simp [routing, h₁, h₂]
  · by_cases h₂ : f.server = [] <;> simp [routing, h₁, h₂]

lemma ValidNames.avoids (hf : f.ValidNames) (field : NameField) :
    Avoids (f.name field) routingSeparators :=
  (hf.names field).avoids

lemma ValidNames.formed_routing (hf : f.ValidNames) : f.routing.Formed := by
  refine ⟨⟨hf.avoids .server, by simp [routing]⟩, ⟨hf.avoids .service, by simp [routing]⟩, ?_⟩
  intro c hc hmem
  have hchar := hf.command.chars c hc
  simp only [routingSeparators, List.mem_cons, List.not_mem_nil, or_false] at hmem
  rcases hmem with rfl | rfl | rfl <;> exact absurd hchar (by decide)

/-- Neither the destination nor the command starts with `<`. -/
lemma ValidNames.head_destinationText (hf : f.ValidNames) (hcmd : f.command ≠ []) (s : Str) :
    (f.destinationText ++ (f.command ++ s)).head? ≠ some '<' := by
  have hname : ∀ {x : Str} (r : Str), x ≠ [] → '<' ∉ x → (x ++ r).head? ≠ some '<' := by
    intro x r hx hmem hhead
    rw [List.head?_append_of_ne_nil _ hx] at hhead
    exact hmem (List.mem_of_mem_head? hhead)
  have hlt : ∀ field, '<' ∉ f.name field := fun field hmem =>
    ((hf.names field).mem_graphic hmem).2.2.2.2.1 rfl
  rw [destinationText]
  by_cases h₁ : f.service = []
  · simpa [h₁] using hname s hcmd (hf.command.notMem (by decide))
  · by_cases h₂ : f.server = []
    · simpa [h₁, h₂] using hname ('/' :: (f.command ++ s)) h₁ (hlt .service)
    · simpa [h₁, h₂] using
        hname (':' :: (f.service ++ '/' :: (f.command ++ s))) h₂ (hlt .server)

lemma ValidNames.sentFromForm (hf : f.ValidNames) (hcmd : f.command ≠ []) :
    SentFromForm (f.text S) (f.sentFromServer, f.sentFromService)
      (f.destinationText ++ (f.command ++ parametersText S ' ' f.parameters.entries)) := by
  rw [text, sentFromText]
  by_cases h : f.sentFromServer ≠ [] ∨ f.sentFromService ≠ []
  · rw [if_pos h]
    have hform : SentFromForm ('<' :: (f.sentFromServer ++ ':' :: (f.sentFromService ++ ' ' ::
        (f.destinationText ++ (f.command ++ parametersText S ' ' f.parameters.entries)))))
        (f.sentFromServer, f.sentFromService)
        (f.destinationText ++ (f.command ++ parametersText S ' ' f.parameters.entries)) :=
      SentFromForm.present
        (fun c hc hmem =>
          hf.avoids .sentFromServer c hc (by simp [routingSeparators] at hmem ⊢; tauto))
        (fun c hc hmem =>
          hf.avoids .sentFromService c hc (by simp [routingSeparators] at hmem ⊢; tauto))
    simpa using hform
  · rw [if_neg h]
    simp only [ne_eq, not_or, not_not] at h
    rw [h.1, h.2]
    exact SentFromForm.absent (hf.head_destinationText hcmd _)

lemma ValidNames.tailForm (hf : f.ValidNames)
    (hq : ∀ p ∈ f.parameters.entries, QuotesClosed p.2) :
    TailForm S (parametersText S ' ' f.parameters.entries) f.parameters.entries := by
  have hname : ∀ p ∈ f.parameters.entries, ValidName false true p.1 := fun p hp =>
    hf.parameters _ (List.mem_map_of_mem hp)
  revert hname hq
  generalize f.parameters.entries = l
  intro hq hname
  cases l with
  | nil => exact TailForm.none
  | cons p l => exact TailForm.parameters (parametersForm_parametersText hname hq)

/-- The text of a message is in the format and holds the fields of the message. -/
theorem textForm_text (hf : f.ValidNames) (hcmd : f.command ≠ [])
    (hdest : f.server ≠ [] → f.service ≠ [])
    (hq : ∀ p ∈ f.parameters.entries, QuotesClosed p.2) : TextForm S (f.text S) f := by
  have hsent := hf.sentFromForm (S := S) hcmd
  rw [← List.append_assoc, ← text_routing hdest] at hsent
  have hform := TextForm.mk hsent hf.formed_routing hcmd (hf.tailForm hq)
  rw [SortedMap.insertAll_entries] at hform
  exact hform

end Fields

/-! ### What the trimming removes -/

/-- A value that the reader's trimming shortens when it is the last one: the blanks that are
written as they are at its end, when it is not between quotes. -/
def trimmedValue (S : Snapdev) (v : Str) : Str :=
  if needsQuotes v then v else v.rdropWhile fun c => S.blank c && c != '\n' && c != '\r'

lemma needsQuotes_of_prefix {v w : Str} (h : w <+: v) (hv : needsQuotes v = false) :
    needsQuotes w = false := by
  simp only [needsQuotes, Bool.or_eq_false_iff, beq_eq_false_iff_ne] at hv ⊢
  refine ⟨?_, fun hw => hv.2 ?_⟩
  · rw [← Bool.not_eq_true, List.contains_iff_mem] at hv ⊢
    exact fun hmem => hv.1 (h.subset hmem)
  · obtain ⟨t, rfl⟩ := h
    rw [List.head?_append, hw]
    rfl

lemma needsQuotes_trimmedValue (v : Str) : needsQuotes (trimmedValue S v) = needsQuotes v := by
  rw [trimmedValue]
  split
  · rfl
  · rename_i h
    rw [Bool.not_eq_true] at h
    rw [h, needsQuotes_of_prefix (List.rdropWhile_prefix _ _) h]

lemma isPrefix_trimmedValue (v : Str) : trimmedValue S v <+: v := by
  rw [trimmedValue]
  split
  · exact List.prefix_refl v
  · exact List.rdropWhile_prefix _ _

lemma QuotesClosed.trimmedValue {v : Str} (h : QuotesClosed v) :
    QuotesClosed (trimmedValue S v) := by
  intro hq
  rw [needsQuotes_trimmedValue] at hq
  rw [EventDispatcher.trimmedValue, if_pos hq]
  exact h hq

/-- The blanks that are written as they are. -/
lemma textCode_blank {c : Char} (h : (S.blank c && c != '\n' && c != '\r') = true) :
    textCode c = [c] := by
  simp only [Bool.and_eq_true, bne_iff_ne, ne_eq] at h
  have hb : c ≠ '\\' := by
    rintro rfl
    rw [S.not_blank_of_graphic' (by decide)] at h
    exact absurd h.1.1 (by simp)
  rw [textCode, if_neg hb, if_neg h.1.2, if_neg h.2]

lemma flatMap_textCode_blank {b : Str}
    (h : ∀ c ∈ b, (S.blank c && c != '\n' && c != '\r') = true) : b.flatMap textCode = b := by
  induction b with
  | nil => rfl
  | cons c b ih =>
    rw [List.flatMap_cons, textCode_blank (h c (by simp)), ih fun d hd => h d (by simp [hd])]
    rfl

/-- The last character of a code word is not a blank, unless the character is one that is
written as it is. -/
lemma getLast?_textCode {c d : Char} (h : (textCode c).getLast? = some d)
    (hc : (S.blank c && c != '\n' && c != '\r') = false) : S.blank d = false := by
  unfold textCode at h
  by_cases h₁ : c = '\\'
  · rw [if_pos h₁] at h
    cases h
    exact S.not_blank_of_graphic' (by decide)
  rw [if_neg h₁] at h
  by_cases h₂ : c = '\n'
  · rw [if_pos h₂] at h
    cases h
    exact S.not_blank_of_graphic' (by decide)
  rw [if_neg h₂] at h
  by_cases h₃ : c = '\r'
  · rw [if_pos h₃] at h
    cases h
    exact S.not_blank_of_graphic' (by decide)
  · rw [if_neg h₃] at h
    cases h
    simpa [h₂, h₃] using hc

/-- `TrimsTo S s t`: the text `t` is `s` without the blanks at its end, and something is left. -/
def TrimsTo (S : Snapdev) (s t : Str) : Prop :=
  (∃ b, (∀ c ∈ b, S.blank c = true) ∧ s = t ++ b) ∧ ∃ r d, t = r ++ [d] ∧ S.blank d = false

lemma TrimsTo.append_left {s t : Str} (h : TrimsTo S s t) (u : Str) :
    TrimsTo S (u ++ s) (u ++ t) := by
  obtain ⟨⟨b, hb, rfl⟩, r, d, rfl, hd⟩ := h
  exact ⟨⟨b, hb, by simp⟩, u ++ r, d, by simp, hd⟩

lemma TrimsTo.cons {s t : Str} (h : TrimsTo S s t) (c : Char) : TrimsTo S (c :: s) (c :: t) :=
  h.append_left [c]

/-- A text that ends with a character other than a blank. -/
lemma TrimsTo.refl {t : Str} (hne : t ≠ []) (h : ∀ c ∈ t, S.blank c = false) : TrimsTo S t t := by
  rcases List.eq_nil_or_concat t with rfl | ⟨r, d, rfl⟩
  · exact absurd rfl hne
  · exact ⟨⟨[], by simp, by simp⟩, r, d, by simp, h d (by simp)⟩

/-- What `trim_string()` makes of it when the text does not start with a blank. -/
lemma TrimsTo.trimString_eq {s t : Str} (h : TrimsTo S s t)
    (hhead : ∀ c, s.head? = some c → S.blank c = false) : S.trimString s = t := by
  obtain ⟨⟨b, hb, rfl⟩, r, d, rfl, hd⟩ := h
  refine S.trimString_append_blank (by simp) (fun c hc => hhead c ?_) (fun c hc => ?_) hb
  · rw [List.head?_append, hc]
    rfl
  · rw [List.getLast?_append] at hc
    cases hc
    exact hd

/-- A value is written as its trimmed value and then blanks. -/
lemma trimsTo_valueText (v : Str) :
    TrimsTo S ('=' :: valueText S v) ('=' :: valueText S (trimmedValue S v)) := by
  rw [valueText_eq, valueText_eq, needsQuotes_trimmedValue]
  rw [trimmedValue]
  split
  · rw [← List.cons_append, ← List.cons_append]
    exact (TrimsTo.refl (by simp) fun c hc => by
      rw [List.mem_singleton.mp hc]
      exact S.not_blank_of_graphic' (by decide)).append_left _
  · constructor
    · refine ⟨v.rtakeWhile fun c => S.blank c && c != '\n' && c != '\r', fun c hc => ?_, ?_⟩
      · have := List.mem_rtakeWhile_imp hc
        simp only [Bool.and_eq_true] at this
        exact this.1.1
      · have hraw : ∀ c ∈ v.rtakeWhile fun c => S.blank c && c != '\n' && c != '\r',
            (S.blank c && c != '\n' && c != '\r') = true := fun c hc => by
          have := List.mem_rtakeWhile_imp hc
          exact this
        conv_lhs => rw [← List.rdropWhile_append_rtakeWhile
          (p := fun c => S.blank c && c != '\n' && c != '\r') (l := v)]
        rw [List.flatMap_append, flatMap_textCode_blank hraw, List.cons_append]
    · rcases List.eq_nil_or_concat
        (v.rdropWhile fun c => S.blank c && c != '\n' && c != '\r') with h | ⟨w, c, h⟩
      · exact ⟨[], '=', by simp [h], S.not_blank_of_graphic' (by decide)⟩
      · have hlast : ¬ (S.blank c && c != '\n' && c != '\r') = true := by
          have := List.rdropWhile_last_not (fun c => S.blank c && c != '\n' && c != '\r') v
            (by simp [h])
          simpa [h] using this
        rcases List.eq_nil_or_concat (textCode c) with hcode | ⟨u, d, hcode⟩
        · exact absurd hcode (by unfold textCode; split_ifs <;> simp)
        · refine ⟨'=' :: (w.flatMap textCode ++ u), d, by simp [h, hcode], ?_⟩
          exact getLast?_textCode (by simp [hcode]) (Bool.eq_false_iff.mpr hlast)

/-- The parameters are written as the parameters with the last value trimmed and then blanks. -/
lemma trimsTo_parametersText : ∀ (l : List (Str × Str)) (p : Str × Str) (sep : Char),
    TrimsTo S (parametersText S sep (p :: l))
      (parametersText S sep (SortedMap.mapLastEntry (trimmedValue S) (p :: l)))
  | [], (name, v), sep => by
    simpa [parametersText, SortedMap.mapLastEntry] using
      ((trimsTo_valueText v).append_left name).cons sep
  | q :: l, (name, v), sep => by
    have h := trimsTo_parametersText l q ';'
    rw [SortedMap.mapLastEntry, parametersText, parametersText]
    exact (((h.append_left (valueText S v)).cons '=').append_left name).cons sep

namespace Fields

/-- The fields with the last value trimmed. -/
def trimmed (S : Snapdev) (f : Fields) : Fields :=
  { f with parameters := f.parameters.mapLast (trimmedValue S) }

lemma ValidNames.trimmed {f : Fields} (hf : f.ValidNames) : (f.trimmed S).ValidNames where
  names field := by
    have := hf.names field
    cases field <;> exact this
  command := hf.command
  parameters k hk := hf.parameters k (by rwa [← SortedMap.keys_mapLast (g := trimmedValue S)])

/-- The text of a message starts with a visible character. -/
lemma head_text {f : Fields} (hf : f.ValidNames) (hcmd : f.command ≠ []) {c : Char}
    (h : (f.text S).head? = some c) : S.blank c = false := by
  obtain ⟨d, cmd, hd⟩ := List.exists_cons_of_ne_nil hcmd
  have hdcmd : d ∈ f.command := by simp [hd]
  rw [Fields.text] at h
  by_cases hsent : f.sentFromText = []
  · rw [hsent, List.nil_append] at h
    by_cases hdest : f.destinationText = []
    · rw [hdest, hd] at h
      obtain rfl : d = c := by simpa using h
      exact S.not_blank_of_graphic' (isNameChar_graphic (hf.command.chars d hdcmd))
    · obtain ⟨e, t, he⟩ := List.exists_cons_of_ne_nil hdest
      rw [he] at h
      obtain rfl : e = c := by simpa using h
      exact S.not_blank_of_graphic' (mem_destinationText hf (by simp [he]))
  · unfold Fields.sentFromText at h hsent
    split at h
    · cases h
      exact S.not_blank_of_graphic' (by decide)
    · rename_i hno
      exact absurd (if_neg hno) hsent

/-- The reader sees the text of the message with its last value trimmed. -/
theorem trimString_text {f : Fields} (hf : f.ValidNames) (hcmd : f.command ≠ []) :
    S.trimString (f.text S) = (f.trimmed S).text S := by
  refine TrimsTo.trimString_eq ?_ fun c hc => head_text hf hcmd hc
  have hcommand : TrimsTo S f.command f.command :=
    TrimsTo.refl hcmd fun c hc =>
      S.not_blank_of_graphic' (isNameChar_graphic (hf.command.chars c hc))
  have htail : TrimsTo S (f.command ++ parametersText S ' ' f.parameters.entries)
      (f.command ++ parametersText S ' '
        (SortedMap.mapLastEntry (trimmedValue S) f.parameters.entries)) := by
    cases f.parameters.entries with
    | nil => simpa [parametersText, SortedMap.mapLastEntry] using hcommand
    | cons p l => exact (trimsTo_parametersText l p ' ').append_left _
  exact (htail.append_left _).append_left _

/-- **What comes back**: when the values between quotes are found whole, the reader fills the
fields of the message with its last value trimmed. -/
theorem parseString_text {f : Fields} (hf : f.ValidNames) (hcmd : f.command ≠ [])
    (hdest : f.server ≠ [] → f.service ≠ [])
    (hnul : ∀ p ∈ f.parameters.entries, nul ∉ p.2)
    (hq : ∀ p ∈ f.parameters.entries, QuotesClosed p.2) :
    parseString S (f.text S) = some (f.trimmed S) := by
  have hentry : ∀ p ∈ (f.trimmed S).parameters.entries,
      p ∈ f.parameters.entries ∨ ∃ e ∈ f.parameters.entries, p.2 = trimmedValue S e.2 := by
    intro p hp
    rcases SortedMap.mem_mapLastEntry hp with h | ⟨e, he, rfl⟩
    · exact Or.inl h
    · exact Or.inr ⟨e, he, rfl⟩
  have hnul' : nul ∉ (f.trimmed S).text S := by
    refine nul_notMem_text hf.trimmed fun p hp hmem => ?_
    rcases hentry p hp with h | ⟨e, he, h⟩
    · exact hnul p h hmem
    · exact hnul e he ((isPrefix_trimmedValue e.2).subset (h ▸ hmem))
  rw [parseString_eq_some_iff, trimString_text hf hcmd, cStr_of_notMem hnul']
  refine textForm_text hf.trimmed hcmd hdest fun p hp => ?_
  rcases hentry p hp with h | ⟨e, he, h⟩
  · exact hq p h
  · rw [h]
    exact (hq e he).trimmedValue

end Fields

/-! ### The values that can be read -/

lemma QuotedForm.getLast? {q v : Str} (h : QuotedForm q v) : v.getLast? ≠ some '\\' := by
  induction h with
  | nil => simp
  | @quote q v _ ih =>
    cases v with
    | nil => simp
    | cons c v => simpa [List.getLast?_cons] using ih
  | @char c q v hc hb hq ih =>
    cases v with
    | nil =>
      intro hlast
      -- nothing follows the backslash, so the text goes on with a quote or ends
      obtain ⟨hne, -⟩ := hb (by simpa using hlast)
      cases hq
      exact hne rfl
    | cons d v => simpa [List.getLast?_cons] using ih

/-- The unescaping does not make a text end with a backslash. -/
lemma getLast?_replaceMany_textUnescapes {v : Str}
    (h : (replaceMany textUnescapes v).getLast? = some '\\') : v.getLast? = some '\\' := by
  rcases (replaceMany_pass textUnescapes_keys v).getLast? textUnescapes_values h with
    h | ⟨p, hp, ⟨u, rfl⟩, hlast⟩
  · exact h
  · simp only [textUnescapes, List.mem_cons, List.not_mem_nil, or_false] at hp
    rcases hp with rfl | rfl | rfl
    · simp
    · exact absurd hlast (by decide)
    · exact absurd hlast (by decide)

/-- The unescaping does not make a value one that is written between quotes. -/
lemma needsQuotes_replaceMany_textUnescapes {v : Str}
    (h : needsQuotes (replaceMany textUnescapes v) = true) : needsQuotes v = true := by
  simp only [needsQuotes, Bool.or_eq_true, List.contains_iff_mem, beq_iff_eq] at h ⊢
  rcases h with h | h
  · rcases mem_replaceMany textUnescapes_keys h with h | ⟨p, hp, h⟩
    · exact Or.inl h
    · simp only [textUnescapes, List.mem_cons, List.not_mem_nil, or_false] at hp
      rcases hp with rfl | rfl | rfl <;> exact absurd h (by decide)
  · rcases (replaceMany_pass textUnescapes_keys v).head? textUnescapes_values h with
      h | ⟨p, hp, -, h⟩
    · exact Or.inr h
    · simp only [textUnescapes, List.mem_cons, List.not_mem_nil, or_false] at hp
      rcases hp with rfl | rfl | rfl <;> exact absurd h (by decide)

/-- A value that was read is one that is found whole when it is written again. -/
lemma ValueForm.quotesClosed {raw v : Str} (h : ValueForm raw v) :
    QuotesClosed (S.stringReplaceMany v textUnescapes) := by
  rw [S.stringReplaceMany_eq textUnescapes_keys]
  intro hneeds hlast
  have hv := needsQuotes_replaceMany_textUnescapes hneeds
  cases h with
  | quoted hq => exact hq.getLast? (getLast?_replaceMany_textUnescapes hlast)
  | plain hav hhead =>
    simp only [needsQuotes, Bool.or_eq_true, List.contains_iff_mem, beq_iff_eq] at hv
    rcases hv with hv | hv
    · exact hav _ hv (by simp)
    · exact hhead hv

lemma ParametersForm.quotesClosed {m : Str} {l : List (Str × Str)} (h : ParametersForm S m l) :
    ∀ p ∈ l, QuotesClosed p.2 := by
  induction h with
  | nil => simp
  | last _ hraw =>
    intro p hp
    rw [List.mem_singleton.mp hp]
    exact hraw.quotesClosed
  | cons _ hraw _ ih =>
    intro p hp
    rcases List.mem_cons.mp hp with rfl | hp
    · exact hraw.quotesClosed
    · exact ih p hp

/-- The values of a message that was read are found whole when they are written again. -/
theorem TextForm.quotesClosed {t : Str} {f : Fields} (h : TextForm S t f) :
    ∀ p ∈ f.parameters.entries, QuotesClosed p.2 := by
  intro p hp
  cases h with
  | mk _ _ _ htail =>
    rcases SortedMap.mem_insertAll hp with h | h
    · cases h
    · cases htail with
      | none => cases h
      | parameters hl => exact hl.quotesClosed p h

/-! ### The round trip -/

/-- The values that come back: the ones between quotes are found whole, and the last one is not
shortened by the trimming. -/
structure TextSafe (S : Snapdev) (f : Fields) : Prop where
  /-- A value that is written between quotes does not end with a backslash. -/
  closed : ∀ p ∈ f.parameters.entries, needsQuotes p.2 = true → p.2.getLast? ≠ some '\\'
  /-- The last value, when it is not between quotes, does not end with a blank that is written
  as it is. -/
  last : ∀ p, f.parameters.entries.getLast? = some p → needsQuotes p.2 = false →
    ∀ c, p.2.getLast? = some c → S.blank c = true → c = '\n' ∨ c = '\r'

lemma trimmedValue_eq_self_iff {v : Str} :
    trimmedValue S v = v ↔ (needsQuotes v = false →
      ∀ c, v.getLast? = some c → S.blank c = true → c = '\n' ∨ c = '\r') := by
  rw [trimmedValue]
  split
  · simp_all
  · rename_i hq
    rw [Bool.not_eq_true] at hq
    rw [List.rdropWhile_eq_self_iff]
    constructor
    · rintro h - c hc hb
      have hne : v ≠ [] := by
        rintro rfl
        cases hc
      have hl := h hne
      rw [List.getLast?_eq_some_getLast hne, Option.some.injEq] at hc
      rw [hc, hb] at hl
      simpa [or_iff_not_imp_left] using hl
    · intro h hne hl
      simp only [Bool.and_eq_true, bne_iff_ne, ne_eq] at hl
      rcases h hq _ (List.getLast?_eq_some_getLast hne) hl.1.1 with h | h
      · exact hl.1.2 h
      · exact hl.2 h

lemma Fields.trimmed_eq_self_iff {f : Fields} :
    f.trimmed S = f ↔ ∀ p, f.parameters.entries.getLast? = some p → needsQuotes p.2 = false →
      ∀ c, p.2.getLast? = some c → S.blank c = true → c = '\n' ∨ c = '\r' := by
  have h : f.trimmed S = f ↔ f.parameters.mapLast (trimmedValue S) = f.parameters :=
    ⟨fun h => congrArg Fields.parameters h, fun h => by rw [trimmed, h]⟩
  rw [h, SortedMap.mapLast_eq_self_iff]
  simp only [trimmedValue_eq_self_iff]

/-- A text is read back into the fields it was written from exactly when its values are safe. -/
theorem parseString_text_eq_some_iff {f : Fields} (hf : f.ValidNames) (hcmd : f.command ≠ [])
    (hdest : f.server ≠ [] → f.service ≠ [])
    (hnul : ∀ p ∈ f.parameters.entries, nul ∉ p.2) :
    parseString S (f.text S) = some f ↔ TextSafe S f := by
  constructor
  · intro h
    have hq := (parseString_eq_some_iff.mp h).quotesClosed
    rw [Fields.parseString_text hf hcmd hdest hnul hq, Option.some.injEq] at h
    exact ⟨hq, Fields.trimmed_eq_self_iff.mp h⟩
  · rintro ⟨hq, hlast⟩
    rw [Fields.parseString_text hf hcmd hdest hnul hq, Fields.trimmed_eq_self_iff.mpr hlast]

/-- **The string format round trip.**  A message that the setters built, with a command, comes
back with the same fields exactly when its values are safe. -/
theorem fromString_toString_iff {m : Message} (hm : Message.Built S m) (hcmd : m.command ≠ [])
    (hdest : m.server ≠ [] → m.service ≠ [])
    (hnul : ∀ p ∈ m.parameters.entries, nul ∉ p.2) (r : Message) :
    (∃ text m₁ r₁, m.toString S = .ok (text, m₁) ∧ r.fromString S text = (true, r₁) ∧
      r₁.toFields = m.toFields) ↔ TextSafe S m.toFields := by
  rw [← parseString_text_eq_some_iff hm.wellFormed.validNames hcmd hdest hnul]
  have htext : m.toString S = .ok (m.text S, { m with cachedMessage := m.text S }) := by
    rw [Message.toString, if_pos hm.caches.1, if_neg hcmd]
  rw [htext]
  constructor
  · rintro ⟨text, m₁, r₁, h, hr, heq⟩
    cases h
    unfold Message.fromString at hr
    split at hr
    · cases hr
    · rename_i f hf
      cases hr
      rw [hf, ← heq]
  · intro h
    refine ⟨_, _, { r with toFields := m.toFields, cachedMessage := [] }, rfl, ?_, rfl⟩
    rw [Message.fromString, h]

/-- A value with a semicolon, a quote, a backslash, a line end and a blank comes back. -/
theorem fromString_toString_escaped :
    ∃ text m₁ r₁,
      (Message.oneParameter ['v'] ['G'] ['p'] [';', '"', '\\', '\n', ' ']).toString .standard =
        .ok (text, m₁) ∧
      Message.fromString .standard {} text = (true, r₁) ∧
      r₁.toFields = (Message.oneParameter ['v'] ['G'] ['p'] [';', '"', '\\', '\n', ' ']).toFields :=
  (fromString_toString_iff (Message.built_oneParameter (by decide) (by decide) (by decide))
    (by decide) (by decide) (by decide) {}).mpr ⟨by decide, by
      intro p hp hq
      cases hp
      exact absurd hq (by decide)⟩

/-- A value that is written between quotes and ends with a backslash does not come back: what is
written is not accepted. -/
theorem not_fromString_toString :
    ¬ ∀ (S : Snapdev) (m r : Message), Message.Built S m → m.command ≠ [] →
      (m.server ≠ [] → m.service ≠ []) → (∀ p ∈ m.parameters.entries, nul ∉ p.2) →
      ∃ text m₁ r₁, m.toString S = .ok (text, m₁) ∧ r.fromString S text = (true, r₁) ∧
        r₁.toFields = m.toFields := by
  intro h
  obtain ⟨text, m₁, r₁, htext, hr, -⟩ := h .standard
    (Message.oneParameter [] ['G'] ['p'] [';', '\\']) {}
    (Message.built_oneParameter (by decide) (by decide) (by decide))
    (by decide) (by decide) (by decide)
  have hwritten : (Message.oneParameter [] ['G'] ['p'] [';', '\\']).toString .standard =
      .ok ("G p=\";\\\\\"".toList, { Message.oneParameter [] ['G'] ['p'] [';', '\\'] with
        cachedMessage := "G p=\";\\\\\"".toList }) := by decide
  rw [hwritten, Except.ok.injEq, Prod.mk.injEq] at htext
  have hread : Message.fromString .standard {} "G p=\";\\\\\"".toList = (false, {}) := by decide
  rw [← htext.1, hread] at hr
  exact absurd hr (by simp)

end EventDispatcher
