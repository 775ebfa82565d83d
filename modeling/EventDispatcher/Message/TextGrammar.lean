import EventDispatcher.Message.Text

/-!
# The grammar of the string format

The relations of this file say which texts are messages in the string format and what they
hold, without scanning anything: `SentFromForm` for the sent-from names, `Routing.Formed` for
the destination and the command, `ParametersForm` for the parameters, and `TextForm` for the
whole.  The reader accepts exactly these texts and fills the fields they hold
(`parseString_eq_some_iff`).
-/

namespace EventDispatcher

open Lib

/-- None of the characters `cs` occurs in the text. -/
def Avoids (s : Str) (cs : List Char) : Prop := ∀ c ∈ s, c ∉ cs

@[simp] lemma avoids_nil (cs : List Char) : Avoids [] cs := by simp [Avoids]

lemma avoids_cons {c : Char} {s : Str} {cs : List Char} :
    Avoids (c :: s) cs ↔ c ∉ cs ∧ Avoids s cs := by simp [Avoids]

lemma avoids_append {s t : Str} {cs : List Char} :
    Avoids (s ++ t) cs ↔ Avoids s cs ∧ Avoids t cs := by simp [Avoids, or_imp, forall_and]

/-- Cutting a text at the first occurrence of a character. -/
lemma takeWhile_append_cons {s t : Str} {d : Char} (h : Avoids s [d]) :
    (s ++ d :: t).takeWhile (fun c => c != d) = s ∧
      (s ++ d :: t).dropWhile (fun c => c != d) = d :: t := by
  have hs : ∀ c ∈ s, (c != d) = true := fun c hc => by simpa using h c hc
  rw [List.takeWhile_append_of_pos hs, List.dropWhile_append_of_pos hs]
  simp

lemma takeWhile_of_avoids {s : Str} {d : Char} (h : Avoids s [d]) :
    s.takeWhile (fun c => c != d) = s ∧ s.dropWhile (fun c => c != d) = [] := by
  have hs : ∀ c ∈ s, (c != d) = true := fun c hc => by simpa using h c hc
  exact ⟨List.takeWhile_eq_self_iff.mpr hs, List.dropWhile_eq_nil_iff.mpr hs⟩

lemma avoids_takeWhile (s : Str) (d : Char) : Avoids (s.takeWhile fun c => c != d) [d] := by
  intro c hc
  simpa using List.mem_takeWhile_imp hc

/-- What is left at the first occurrence of a character starts with it. -/
lemma dropWhile_ne_cons {s t : Str} {c d : Char} (h : s.dropWhile (fun c => c != d) = c :: t) :
    c = d := by
  have hne : s.dropWhile (fun c => c != d) ≠ [] := by simp [h]
  have := List.head_dropWhile_not (fun c => c != d) hne
  simpa [h] using this

/-! ### The sent-from names -/

/-- `SentFromForm m names rest`: the text `m` is the sent-from part with these names, if any,
and then `rest`. -/
inductive SentFromForm : Str → Str × Str → Str → Prop
  /-- There is no sent-from part. -/
  | absent {m : Str} : m.head? ≠ some '<' → SentFromForm m ([], []) m
  /-- The sent-from part is there. -/
  | present {server service rest : Str} :
      Avoids server [':', ' '] → Avoids service [' '] →
      SentFromForm ('<' :: (server ++ ':' :: (service ++ ' ' :: rest))) (server, service) rest

lemma scanSentFromServer_eq_some {m server rest : Str}
    (h : scanSentFromServer m = some (server, rest)) :
    Avoids server [':', ' '] ∧ m = server ++ rest ∧ (rest = [] ∨ rest.head? = some ':') := by
  induction m generalizing server rest with
  | nil =>
    cases h
    simp
  | cons c m ih =>
    rw [scanSentFromServer] at h
    split at h
    · rename_i hc
      cases h
      simp [hc]
    · rename_i hcolon
      split at h
      · cases h
      · rename_i hspace
        obtain ⟨⟨s, r⟩, hr, heq⟩ := Option.map_eq_some_iff.mp h
        cases heq
        obtain ⟨hav, rfl, hrest⟩ := ih hr
        exact ⟨avoids_cons.mpr ⟨by simp [hcolon, hspace], hav⟩, rfl, hrest⟩

lemma scanSentFromServer_append {server : Str} (h : Avoids server [':', ' ']) (rest : Str) :
    scanSentFromServer (server ++ ':' :: rest) = some (server, ':' :: rest) := by
  induction server with
  | nil => rfl
  | cons c server ih =>
    obtain ⟨hc, hs⟩ := avoids_cons.mp h
    simp only [List.mem_cons, List.not_mem_nil, or_false, not_or] at hc
    rw [List.cons_append, scanSentFromServer, if_neg hc.1, if_neg hc.2, ih hs]
    rfl

/-- The first part of the reader accepts exactly the texts of this form. -/
theorem parseSentFrom_eq_some_iff {m rest : Str} {names : Str × Str} :
    parseSentFrom m = some (names, rest) ↔ SentFromForm m names rest := by
  constructor
  · intro h
    unfold parseSentFrom at h
    split at h
    · rename_i m
      split at h
      · rename_i server c m' hscan
        obtain ⟨hav, rfl, hcolon⟩ := scanSentFromServer_eq_some hscan
        obtain rfl : c = ':' := by simpa using hcolon
        split at h
        · cases h
        · rename_i d r hd
          obtain rfl := dropWhile_ne_cons hd
          cases h
          have hm' := List.takeWhile_append_dropWhile (p := fun c => c != ' ') (l := m')
          rw [hd] at hm'
          have hform : SentFromForm ('<' :: (server ++ ':' :: (m'.takeWhile (fun c => c != ' ')
              ++ ' ' :: rest))) (server, m'.takeWhile fun c => c != ' ') rest :=
            SentFromForm.present hav (avoids_takeWhile m' ' ')
          rwa [hm'] at hform
      · cases h
    · rename_i hne
      cases h
      refine SentFromForm.absent fun hhead => ?_
      cases m with
      | nil => cases hhead
      | cons c m => exact hne m (by simpa using hhead)
  · intro h
    cases h with
    | absent hne =>
      unfold parseSentFrom
      split
      · exact absurd rfl hne
      · rfl
    | @present server service rest hs hv =>
      rw [parseSentFrom]
      simp only [scanSentFromServer_append hs]
      obtain ⟨htake, hdrop⟩ := takeWhile_append_cons (t := rest) hv
      rw [hdrop, htake]

/-! ### The destination and the command -/

/-- The characters that separate the names of the destination and the command. -/
def routingSeparators : List Char := [':', '/', ' ']

namespace Routing

/-- The names were read where they stand: a name before a separator is not empty, and none of
them holds a separator. -/
structure Formed (r : Routing) : Prop where
  /-- The server is set with its colon. -/
  server : Avoids r.server routingSeparators ∧ (r.hasServer = true ↔ r.server ≠ [])
  /-- The service is set with its slash. -/
  service : Avoids r.service routingSeparators ∧ (r.hasService = true ↔ r.service ≠ [])
  /-- The command has no separator. -/
  command : Avoids r.command routingSeparators

/-- The text the names were read from. -/
def text (r : Routing) : Str :=
  (if r.hasServer then r.server ++ [':'] else []) ++
    ((if r.hasService then r.service ++ ['/'] else []) ++ r.command)

/-- What follows the names: nothing, or a space. -/
def Ends (rest : Str) : Prop := rest = [] ∨ rest.head? = some ' '

end Routing

/-- One turn of the loop: it ends at a space, or the names that were read grow by the
character. -/
lemma scanRouting_cons {r₀ r : Routing} {c : Char} {m rest : Str} (hr₀ : r₀.Formed)
    (h : scanRouting r₀ (c :: m) = some (r, rest)) :
    (c = ' ' ∧ r = r₀ ∧ rest = c :: m) ∨
      ∃ r₁ : Routing, r₁.Formed ∧ r₀.text ++ c :: m = r₁.text ++ m ∧
        scanRouting r₁ m = some (r, rest) := by
  rw [scanRouting] at h
  split at h
  · rename_i hc
    cases h
    exact Or.inl ⟨hc, rfl, rfl⟩
  · rename_i hspace
    right
    split at h
    · rename_i hcolon
      split at h
      · cases h
      · -- the colon: what was read is the server
        rename_i hok
        simp only [Bool.or_eq_true, List.isEmpty_iff, not_or, Bool.not_eq_true] at hok
        obtain ⟨⟨hsrv, hsvc⟩, hcmd⟩ := hok
        refine ⟨{ r₀ with hasServer := true, server := r₀.command, command := [] },
          ⟨⟨hr₀.command, by simpa using hcmd⟩, hr₀.service, avoids_nil _⟩, ?_, h⟩
        simp [Routing.text, hsrv, hsvc, hcolon]
    · rename_i hcolon
      split at h
      · rename_i hslash
        split at h
        · cases h
        · -- the slash: what was read is the service
          rename_i hok
          simp only [Bool.or_eq_true, List.isEmpty_iff, not_or, Bool.not_eq_true] at hok
          obtain ⟨hsvc, hcmd⟩ := hok
          refine ⟨{ r₀ with hasService := true, service := r₀.command, command := [] },
            ⟨hr₀.server, ⟨hr₀.command, by simpa using hcmd⟩, avoids_nil _⟩, ?_, h⟩
          simp [Routing.text, hsvc, hslash]
      · rename_i hslash
        have hcommand : Avoids (r₀.command ++ [c]) routingSeparators :=
          avoids_append.mpr ⟨hr₀.command, avoids_cons.mpr
            ⟨by simp [routingSeparators, hspace, hcolon, hslash], avoids_nil _⟩⟩
        exact ⟨{ r₀ with command := r₀.command ++ [c] }, ⟨hr₀.server, hr₀.service, hcommand⟩,
          by simp [Routing.text], h⟩

lemma scanRouting_sound {r₀ r : Routing} {m rest : Str} (hr₀ : r₀.Formed)
    (h : scanRouting r₀ m = some (r, rest)) :
    r.Formed ∧ r₀.text ++ m = r.text ++ rest ∧ Routing.Ends rest := by
  induction m generalizing r₀ with
  | nil =>
    cases h
    exact ⟨hr₀, rfl, Or.inl rfl⟩
  | cons c m ih =>
    rcases scanRouting_cons hr₀ h with ⟨rfl, rfl, rfl⟩ | ⟨r₁, hr₁, htext, hscan⟩
    · exact ⟨hr₀, rfl, Or.inr rfl⟩
    · obtain ⟨hr, htext', hends⟩ := ih hr₁ hscan
      exact ⟨hr, htext.trans htext', hends⟩

lemma scanRouting_append {a : Str} (h : Avoids a routingSeparators) (r : Routing) (m : Str) :
    scanRouting r (a ++ m) = scanRouting { r with command := r.command ++ a } m := by
  induction a generalizing r with
  | nil => simp
  | cons c a ih =>
    obtain ⟨hc, ha⟩ := avoids_cons.mp h
    simp only [routingSeparators, List.mem_cons, List.not_mem_nil, or_false, not_or] at hc
    rw [List.cons_append, scanRouting, if_neg hc.2.2, if_neg hc.1, if_neg hc.2.1, ih ha]
    simp

lemma scanRouting_ends {r : Routing} {rest : Str} (h : Routing.Ends rest) :
    scanRouting r rest = some (r, rest) := by
  cases rest with
  | nil => rfl
  | cons c rest =>
    have hc : c = ' ' := by simpa [Routing.Ends] using h
    rw [scanRouting, if_pos hc]

lemma scanRouting_complete {r : Routing} (hr : r.Formed) (rest : Str) (h : Routing.Ends rest) :
    scanRouting {} (r.text ++ rest) = some (r, rest) := by
  obtain ⟨hasServer, hasService, server, service, command⟩ := r
  obtain ⟨⟨hserver, hserver'⟩, ⟨hservice, hservice'⟩, hcommand⟩ := hr
  simp only at hserver hserver' hservice hservice' hcommand
  cases hasServer with
  | false =>
    have hs : server = [] := by simpa using hserver'
    cases hasService with
    | false =>
      have hv : service = [] := by simpa using hservice'
      subst hs hv
      simp [Routing.text, scanRouting_append hcommand, scanRouting_ends h]
    | true =>
      have hv : service ≠ [] := by simpa using hservice'
      subst hs
      simp [Routing.text, scanRouting_append hservice, scanRouting, hv,
        scanRouting_append hcommand, scanRouting_ends h]
  | true =>
    have hs : server ≠ [] := by simpa using hserver'
    cases hasService with
    | false =>
      have hv : service = [] := by simpa using hservice'
      subst hv
      simp [Routing.text, scanRouting_append hserver, scanRouting, hs,
        scanRouting_append hcommand, scanRouting_ends h]
    | true =>
      have hv : service ≠ [] := by simpa using hservice'
      simp [Routing.text, scanRouting_append hserver, scanRouting, hs,
        scanRouting_append hservice, hv, scanRouting_append hcommand, scanRouting_ends h]

/-- The second part of the reader accepts exactly the texts of formed names. -/
theorem scanRouting_eq_some_iff {m rest : Str} {r : Routing} :
    scanRouting {} m = some (r, rest) ↔
      r.Formed ∧ m = r.text ++ rest ∧ Routing.Ends rest := by
  constructor
  · intro h
    have hempty : ({} : Routing).Formed := ⟨by simp, by simp, by simp⟩
    simpa [Routing.text] using scanRouting_sound hempty h
  · rintro ⟨hr, rfl, hrest⟩
    exact scanRouting_complete hr _ hrest

/-! ### The values -/

/-- `QuotedForm q v`: the text `q` stands between quotes and `v` is what it holds.  A backslash
escapes a quote and nothing else, so it cannot be the last character of `q`. -/
inductive QuotedForm : Str → Str → Prop
  /-- Nothing is between the quotes. -/
  | nil : QuotedForm [] []
  /-- An escaped quote. -/
  | quote {q v : Str} : QuotedForm q v → QuotedForm ('\\' :: '"' :: q) ('"' :: v)
  /-- A character that stands for itself. -/
  | char {c : Char} {q v : Str} : c ≠ '"' → (c = '\\' → q ≠ [] ∧ q.head? ≠ some '"') →
      QuotedForm q v → QuotedForm (c :: q) (c :: v)

lemma scanQuoted_char {c : Char} {m : Str} (hc : c ≠ '"') (hm : c = '\\' → m.head? ≠ some '"') :
    scanQuoted (c :: m) = (scanQuoted m).map fun r => (c :: r.1, r.2) := by
  rw [scanQuoted.eq_def]
  split
  · rename_i heq
    cases heq
  · rename_i heq
    exact absurd (List.cons.inj heq).1 hc
  · rename_i heq
    obtain ⟨rfl, rfl⟩ := List.cons.inj heq
    exact absurd rfl (hm rfl)
  · rename_i heq
    obtain ⟨rfl, rfl⟩ := List.cons.inj heq
    rfl

/-- The loop over a quoted value accepts exactly what stands before its closing quote. -/
theorem scanQuoted_eq_some_iff {m v rest : Str} :
    scanQuoted m = some (v, rest) ↔ ∃ q, QuotedForm q v ∧ m = q ++ '"' :: rest := by
  constructor
  · intro h
    induction hn : m.length using Nat.strong_induction_on generalizing m v with
    | _ n ih =>
      rw [scanQuoted.eq_def] at h
      split at h
      · cases h
      · cases h
        exact ⟨[], QuotedForm.nil, rfl⟩
      · rename_i m
        obtain ⟨⟨v', r⟩, hv, heq⟩ := Option.map_eq_some_iff.mp h
        cases heq
        simp only [List.length_cons] at hn
        obtain ⟨q, hq, rfl⟩ := ih m.length (by omega) hv rfl
        exact ⟨_, QuotedForm.quote hq, rfl⟩
      · rename_i c m hquote hescape
        obtain ⟨⟨v', r⟩, hv, heq⟩ := Option.map_eq_some_iff.mp h
        cases heq
        simp only [List.length_cons] at hn
        obtain ⟨q, hq, rfl⟩ := ih m.length (by omega) hv rfl
        refine ⟨_, QuotedForm.char hquote ?_ hq, rfl⟩
        -- a backslash that is not the start of an escape is followed by something else
        rintro rfl
        cases q with
        | nil => exact (hescape _ rfl rfl).elim
        | cons d q =>
          refine ⟨by simp, fun hd => ?_⟩
          obtain rfl : d = '"' := by simpa using hd
          exact (hescape _ rfl rfl).elim
  · rintro ⟨q, hq, rfl⟩
    induction hq with
    | nil => rfl
    | quote _ ih => rw [List.cons_append, List.cons_append, scanQuoted, ih]; rfl
    | @char c q v hc hb _ ih =>
      rw [List.cons_append, scanQuoted_char hc, ih]
      · rfl
      · intro hbs
        obtain ⟨hne, hhead⟩ := hb hbs
        obtain ⟨d, q', rfl⟩ := List.exists_cons_of_ne_nil hne
        simpa using hhead

/-- `ValueForm raw v`: the text `raw` is a value, quoted or not, and `v` is what it holds before
the unescaping. -/
inductive ValueForm : Str → Str → Prop
  /-- The value stands between quotes. -/
  | quoted {q v : Str} : QuotedForm q v → ValueForm ('"' :: (q ++ ['"'])) v
  /-- The value stands as it is. -/
  | plain {raw : Str} : Avoids raw [';'] → raw.head? ≠ some '"' → ValueForm raw raw

/-- What follows a value: nothing, or a semicolon. -/
def ValueEnds (rest : Str) : Prop := rest = [] ∨ rest.head? = some ';'

lemma scanValue_sound {m v rest : Str} (h : scanValue m = some (v, rest)) :
    ∃ raw, ValueForm raw v ∧ m = raw ++ rest ∧ (raw.head? = some '"' ∨ ValueEnds rest) := by
  unfold scanValue at h
  split at h
  · rename_i m
    obtain ⟨q, hq, rfl⟩ := scanQuoted_eq_some_iff.mp h
    exact ⟨_, ValueForm.quoted hq, by simp, Or.inl rfl⟩
  · rename_i hne
    cases h
    refine ⟨_, ValueForm.plain (avoids_takeWhile m ';') ?_,
      List.takeWhile_append_dropWhile.symm, Or.inr ?_⟩
    · intro hhead
      cases m with
      | nil => cases hhead
      | cons c m =>
        rw [List.takeWhile_cons] at hhead
        split at hhead
        · exact hne m (by simpa using hhead)
        · cases hhead
    · cases hd : m.dropWhile fun c => c != ';' with
      | nil => exact Or.inl rfl
      | cons c r => exact Or.inr (by rw [dropWhile_ne_cons hd]; rfl)

lemma scanValue_complete {raw v rest : Str} (h : ValueForm raw v) (hrest : ValueEnds rest) :
    scanValue (raw ++ rest) = some (v, rest) := by
  cases h with
  | quoted hq =>
    rw [List.cons_append, scanValue]
    exact scanQuoted_eq_some_iff.mpr ⟨_, hq, by simp⟩
  | plain hav hhead =>
    have hcut : (raw ++ rest).takeWhile (fun c => c != ';') = raw ∧
        (raw ++ rest).dropWhile (fun c => c != ';') = rest := by
      cases rest with
      | nil => simpa using takeWhile_of_avoids hav
      | cons c rest =>
        obtain rfl : c = ';' := by simpa [ValueEnds] using hrest
        exact takeWhile_append_cons hav
    unfold scanValue
    split
    · rename_i m hm
      exfalso
      cases raw with
      | nil =>
        rw [List.nil_append] at hm
        subst hm
        simp [ValueEnds] at hrest
      | cons c raw => simp_all
    · rw [hcut.1, hcut.2]

/-! ### The parameters -/

/-- `ParametersForm S m l`: the text `m` lists the parameters `l`, separated by semicolons, the
last of which can be followed by a semicolon too. -/
inductive ParametersForm (S : Snapdev) : Str → List (Str × Str) → Prop
  /-- There is no parameter. -/
  | nil : ParametersForm S [] []
  /-- The last parameter. -/
  | last {name raw v : Str} : ValidName false true name → ValueForm raw v →
      ParametersForm S (name ++ '=' :: raw) [(name, S.stringReplaceMany v textUnescapes)]
  /-- A parameter and its semicolon. -/
  | cons {name raw v rest : Str} {l : List (Str × Str)} : ValidName false true name →
      ValueForm raw v → ParametersForm S rest l →
      ParametersForm S (name ++ '=' :: (raw ++ ';' :: rest))
        ((name, S.stringReplaceMany v textUnescapes) :: l)

variable {S : Snapdev}

lemma ValidName.avoids_equal {name : Str} (h : ValidName false true name) : Avoids name ['='] := by
  intro c hc
  rw [List.mem_singleton]
  rintro rfl
  exact h.notMem (by decide) hc

lemma parseParameter_sound {m rest : Str} {p : Str × Str}
    (h : parseParameter S m = some (p, rest)) :
    ∃ raw v, ValidName false true p.1 ∧ ValueForm raw v ∧
      p.2 = S.stringReplaceMany v textUnescapes ∧
      ((rest = [] ∧ m = p.1 ++ '=' :: raw) ∨ m = p.1 ++ '=' :: (raw ++ ';' :: rest)) := by
  unfold parseParameter at h
  simp only at h
  split at h
  · cases h
  · split at h
    · cases h
    · rename_i hname
      have hval := verifyMessageName_eq_ok_iff.mp hname
      split at h
      · cases h
      · rename_i c m' hd
        obtain rfl := dropWhile_ne_cons hd
        have hm := List.takeWhile_append_dropWhile (p := fun c => c != '=') (l := m)
        rw [hd] at hm
        split at h
        · cases h
        · rename_i v m'' hscan
          obtain ⟨raw, hraw, rfl, -⟩ := scanValue_sound hscan
          split at h
          · cases h
            exact ⟨raw, v, hval, hraw, rfl, Or.inl ⟨rfl, by simpa using hm.symm⟩⟩
          · split at h
            · rename_i hc
              cases h
              exact ⟨raw, v, hval, hraw, rfl, Or.inr (by simpa [hc] using hm.symm)⟩
            · cases h

lemma parseParameter_complete {name raw v : Str} (hname : ValidName false true name)
    (hraw : ValueForm raw v) (rest : Str) (hrest : ValueEnds rest) :
    parseParameter S (name ++ '=' :: (raw ++ rest)) =
      some ((name, S.stringReplaceMany v textUnescapes), rest.tail) := by
  obtain ⟨htake, hdrop⟩ := takeWhile_append_cons (t := raw ++ rest) hname.avoids_equal
  rw [parseParameter]
  simp only [htake, hdrop, if_neg (hname.nonempty rfl), verifyMessageName_eq_ok_iff.mpr hname,
    scanValue_complete hraw hrest]
  cases rest with
  | nil => rfl
  | cons c rest =>
    obtain rfl : c = ';' := by simpa [ValueEnds] using hrest
    rfl

lemma parseParameter_length {m rest : Str} {p : Str × Str}
    (h : parseParameter S m = some (p, rest)) : rest.length < m.length := by
  obtain ⟨raw, v, -, -, -, ⟨rfl, rfl⟩ | rfl⟩ := parseParameter_sound h
  · simp only [List.length_append, List.length_cons, List.length_nil]
    omega
  · simp only [List.length_append, List.length_cons]
    omega

lemma parseParameters_sound {n : ℕ} {ps ps' : SortedMap Str Str} {m : Str}
    (h : parseParameters S n ps m = some ps') :
    ∃ l, ParametersForm S m l ∧ ps' = ps.insertAll l := by
  induction n generalizing ps m with
  | zero =>
    cases m with
    | nil => cases h; exact ⟨[], ParametersForm.nil, rfl⟩
    | cons c m => cases h
  | succ n ih =>
    cases m with
    | nil => cases h; exact ⟨[], ParametersForm.nil, rfl⟩
    | cons c m =>
      rw [parseParameters] at h
      split at h
      · cases h
      · rename_i p rest hp
        obtain ⟨l, hl, rfl⟩ := ih h
        obtain ⟨raw, v, hname, hraw, hv, ⟨rfl, hm⟩ | hm⟩ := parseParameter_sound hp
        · -- nothing is left after the last parameter
          have hnil : l = [] := by
            generalize hr : ([] : Str) = r at hl
            cases hl with
            | nil => rfl
            | last => simp at hr
            | cons => simp at hr
          subst hnil
          obtain ⟨name, x⟩ := p
          obtain rfl : x = S.stringReplaceMany v textUnescapes := hv
          exact ⟨_, hm ▸ ParametersForm.last hname hraw, rfl⟩
        · obtain ⟨name, x⟩ := p
          obtain rfl : x = S.stringReplaceMany v textUnescapes := hv
          exact ⟨_, hm ▸ ParametersForm.cons hname hraw hl, rfl⟩

lemma parseParameters_complete {m : Str} {l : List (Str × Str)} (h : ParametersForm S m l)
    {n : ℕ} (hn : m.length ≤ n) (ps : SortedMap Str Str) :
    parseParameters S n ps m = some (ps.insertAll l) := by
  have turn : ∀ (ps : SortedMap Str Str) {m rest : Str} {p : Str × Str} {n : ℕ},
      m.length ≤ n → parseParameter S m = some (p, rest) →
      ∃ n', rest.length ≤ n' ∧
        parseParameters S n ps m = parseParameters S n' (ps.insert p.1 p.2) rest := by
    intro ps m rest p n hn hp
    have hlt := parseParameter_length hp
    cases n with
    | zero => omega
    | succ n =>
      cases m with
      | nil => simp at hlt
      | cons c m => exact ⟨n, by omega, by rw [parseParameters, hp]⟩
  induction h generalizing n ps with
  | nil => cases n <;> rfl
  | @last name raw v hname hraw =>
    have hp := parseParameter_complete (S := S) hname hraw [] (Or.inl rfl)
    rw [List.append_nil] at hp
    obtain ⟨n', -, heq⟩ := turn ps hn hp
    rw [heq]
    cases n' <;> rfl
  | @cons name raw v rest l hname hraw _ ih =>
    have hp := parseParameter_complete (S := S) hname hraw (';' :: rest) (Or.inr rfl)
    obtain ⟨n', hn', heq⟩ := turn ps hn hp
    rw [heq]
    exact ih hn' _

/-- The third part of the reader accepts exactly the texts of this form; as many turns as there
are characters are enough. -/
theorem parseParameters_eq_some_iff {n : ℕ} {ps ps' : SortedMap Str Str} {m : Str}
    (hn : m.length ≤ n) :
    parseParameters S n ps m = some ps' ↔ ∃ l, ParametersForm S m l ∧ ps' = ps.insertAll l := by
  constructor
  · exact parseParameters_sound
  · rintro ⟨l, hl, rfl⟩
    exact parseParameters_complete hl hn ps

/-! ### The whole text -/

/-- The part of the text after the command. -/
inductive TailForm (S : Snapdev) : Str → List (Str × Str) → Prop
  /-- The command ends the text. -/
  | none : TailForm S [] []
  /-- A space and the parameters follow. -/
  | parameters {m : Str} {l : List (Str × Str)} : ParametersForm S m l → TailForm S (' ' :: m) l

/-- `TextForm S t f`: the text `t` is a message in the string format and holds the fields `f`. -/
inductive TextForm (S : Snapdev) : Str → Fields → Prop
  /-- The three parts follow one another. -/
  | mk {t tail : Str} {names : Str × Str} {r : Routing} {l : List (Str × Str)} :
      SentFromForm t names (r.text ++ tail) → r.Formed → r.command ≠ [] → TailForm S tail l →
      TextForm S t ⟨names.1, names.2, r.server, r.service, r.command,
        (∅ : SortedMap Str Str).insertAll l⟩

/-- **The reader accepts exactly the texts in the string format.** -/
theorem parseString_eq_some_iff {s : Str} {f : Fields} :
    parseString S s = some f ↔ TextForm S (cStr (S.trimString s)) f := by
  constructor
  · intro h
    unfold parseString at h
    split at h
    · cases h
    · rename_i names m hsent
      split at h
      · cases h
      · rename_i r rest hrouting
        have hform := parseSentFrom_eq_some_iff.mp hsent
        obtain ⟨hr, rfl, hends⟩ := scanRouting_eq_some_iff.mp hrouting
        split at h
        · cases h
        · rename_i hcmd
          split at h
          · cases h
            exact TextForm.mk hform hr hcmd TailForm.none
          · rename_i c rest
            obtain rfl : c = ' ' := by simpa [Routing.Ends] using hends
            obtain ⟨ps, hps, rfl⟩ := Option.map_eq_some_iff.mp h
            obtain ⟨l, hl, rfl⟩ := (parseParameters_eq_some_iff le_rfl).mp hps
            exact TextForm.mk hform hr hcmd (TailForm.parameters hl)
  · intro h
    cases h with
    | @mk tail names r l hform hr hcmd htail =>
      rw [parseString]
      rw [parseSentFrom_eq_some_iff.mpr hform]
      cases htail with
      | none =>
        simp only [scanRouting_complete hr [] (Or.inl rfl), if_neg hcmd]
        rfl
      | @parameters m l hl =>
        simp only [scanRouting_complete hr (' ' :: m) (Or.inr rfl), if_neg hcmd,
          (parseParameters_eq_some_iff le_rfl).mpr ⟨l, hl, rfl⟩, Option.map_some]

end EventDispatcher
