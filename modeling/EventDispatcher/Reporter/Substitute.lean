import EventDispatcher.Reporter.Variables
import EventDispatcher.Lib.Reference

/-!
# The substitution of variables

`replace_variables()` is one left to right pass over the text, as `Expands` says
(`replaceVariables_eq_ok_iff`).  A string between double quotes goes through it once, when the
expression is evaluated, and the variables that are made of the value are copied as they are.  A
regular expression goes through it each time that it becomes a variable, so a copy of a copy may
hold another text.  The text of a floating point variable loses its zeros, but not the period that
may be left at its end: the code compares the position of the last character with a period.
-/

namespace EventDispatcher.Reporter

open Lib

variable {C : Conversions} {s : ScriptState}

/-! ## The search of a character -/

lemma findFrom_eq_none_iff {s : Str} {c : Char} {pos : ℕ} :
    findFrom s c pos = none ↔ c ∉ s.drop pos := by
  rw [findFrom, Option.map_eq_none_iff, List.findIdx?_eq_none_iff]
  constructor
  · intro h hc
    simpa using h c hc
  · intro h d hd
    have hne : d ≠ c := fun heq => h (heq ▸ hd)
    simpa using hne

/-- The text is cut at the first character that is found. -/
lemma drop_eq_of_findFrom {s : Str} {c : Char} {pos d : ℕ} (h : findFrom s c pos = some d) :
    s.drop pos = (s.drop pos).take (d - pos) ++ c :: s.drop (d + 1) ∧
      c ∉ (s.drop pos).take (d - pos) := by
  obtain ⟨i, hi, rfl⟩ := Option.map_eq_some_iff.mp h
  obtain ⟨hlt, hc, hbefore⟩ := List.findIdx?_eq_some_iff_getElem.mp hi
  rw [Nat.add_sub_cancel_left]
  constructor
  · have hdrop : (s.drop pos).drop i = c :: s.drop (pos + i + 1) := by
      rw [List.drop_eq_getElem_cons hlt, List.drop_drop, of_decide_eq_true hc, add_assoc]
    rw [← hdrop, List.take_append_drop]
  · intro hmem
    obtain ⟨j, hj, rfl⟩ := List.getElem_of_mem hmem
    rw [List.length_take] at hj
    have hji : j < i := (lt_min_iff.mp hj).1
    have := hbefore j hji
    rw [List.getElem_take] at this
    simp at this

lemma getElem?_of_findFrom {s : Str} {c : Char} {pos d : ℕ} (h : findFrom s c pos = some d) :
    s[d]? = some c := by
  obtain ⟨i, hi, rfl⟩ := Option.map_eq_some_iff.mp h
  obtain ⟨hlt, hc, -⟩ := List.findIdx?_eq_some_iff_getElem.mp hi
  rw [← List.getElem?_drop, List.getElem?_eq_getElem hlt, of_decide_eq_true hc]

/-! ## One pass -/

/-- What a name stands for in a text: nothing when there is no such variable. -/
def ScriptState.binding (C : Conversions) (s : ScriptState) (name : Str) : Option Str :=
  match s.getVariable name with
  | none => some []
  | some var => (var.replacement C).toOption

lemma binding_of_eq_none {name : Str} (h : s.getVariable name = none) :
    s.binding C name = some [] := by
  rw [ScriptState.binding, h]

lemma binding_of_eq_some {name : Str} {var : VariableValue} (h : s.getVariable name = some var) :
    s.binding C name = (var.replacement C).toOption := by
  rw [ScriptState.binding, h]

section Loop

variable {value : Str → Option Str} {original r : Str} {pos dollar last : ℕ}

lemma expands_of_findFrom_eq_some (hdollar : findFrom original '$' pos = some dollar) :
    Expands value (original.drop pos) r ↔
      ∃ t, Expands value ('$' :: original.drop (dollar + 1)) t ∧
        r = (original.drop pos).take (dollar - pos) ++ t := by
  obtain ⟨hdrop, hmem⟩ := drop_eq_of_findFrom hdollar
  conv_lhs => rw [hdrop]
  exact expands_append_iff hmem

/-- The dollar at which no reference starts is kept. -/
lemma expands_of_not_opening (hdollar : findFrom original '$' pos = some dollar)
    (hopen : original[dollar + 1]? ≠ some '\x7b') :
    Expands value (original.drop pos) r ↔
      ∃ t, Expands value (original.drop (dollar + 1)) t ∧
        r = (original.drop pos).take (dollar - pos) ++ ['$'] ++ t := by
  have hc : ¬ opening <+: '$' :: original.drop (dollar + 1) := by
    rw [opening_prefix_cons_iff, List.head?_drop]
    exact fun h => hopen h.2
  rw [expands_of_findFrom_eq_some hdollar]
  constructor
  · rintro ⟨t, h, rfl⟩
    obtain ⟨t', h', rfl⟩ := (expands_keep_iff hc).mp h
    exact ⟨t', h', by simp⟩
  · rintro ⟨t, h, rfl⟩
    exact ⟨'$' :: t, (expands_keep_iff hc).mpr ⟨t, h, rfl⟩, by simp⟩

lemma drop_eq_cons_of_getElem? {c : Char} {i : ℕ} (h : original[i]? = some c) :
    original.drop i = c :: original.drop (i + 1) := by
  obtain ⟨hi, rfl⟩ := List.getElem?_eq_some_iff.mp h
  exact List.drop_eq_getElem_cons hi

/-- The reference that starts at the dollar is replaced. -/
lemma expands_of_opening (hdollar : findFrom original '$' pos = some dollar)
    (hopen : original[dollar + 1]? = some '\x7b')
    (hlast : findFrom original '\x7d' (dollar + 2) = some last) :
    Expands value (original.drop pos) r ↔
      (original.drop (dollar + 2)).take (last - (dollar + 2)) ≠ [] ∧
        ∃ v t, value ((original.drop (dollar + 2)).take (last - (dollar + 2))) = some v ∧
          Expands value (original.drop (last + 1)) t ∧
          r = (original.drop pos).take (dollar - pos) ++ v ++ t := by
  obtain ⟨hdrop, hclosed⟩ := drop_eq_of_findFrom hlast
  rw [expands_of_findFrom_eq_some hdollar, drop_eq_cons_of_getElem? hopen]
  conv_lhs => rw [hdrop]
  simp only [expands_reference_iff hclosed]
  constructor
  · rintro ⟨_, ⟨hname, v, t, hv, h, rfl⟩, rfl⟩
    exact ⟨hname, v, t, hv, h, by simp⟩
  · rintro ⟨hname, v, t, hv, h, rfl⟩
    exact ⟨_, ⟨hname, v, t, hv, h, rfl⟩, by simp⟩

lemma expands_after_reference {replaced v : Str}
    (hdollar : findFrom original '$' pos = some dollar)
    (hopen : original[dollar + 1]? = some '\x7b')
    (hlast : findFrom original '\x7d' (dollar + 2) = some last)
    (hname : (original.drop (dollar + 2)).take (last - (dollar + 2)) ≠ [])
    (hv : value ((original.drop (dollar + 2)).take (last - (dollar + 2))) = some v) :
    (∃ t, Expands value (original.drop (last + 1)) t ∧
        r = replaced ++ (original.drop pos).take (dollar - pos) ++ v ++ t) ↔
      ∃ t, Expands value (original.drop pos) t ∧ r = replaced ++ t := by
  constructor
  · rintro ⟨t, h, rfl⟩
    exact ⟨_, (expands_of_opening hdollar hopen hlast).mpr ⟨hname, v, t, hv, h, rfl⟩, by simp⟩
  · rintro ⟨_, h, rfl⟩
    obtain ⟨-, v', t, hv', h', rfl⟩ := (expands_of_opening hdollar hopen hlast).mp h
    rw [hv, Option.some.injEq] at hv'
    exact ⟨t, h', by simp [hv']⟩

/-- **The loop** writes the expansion of the text that is left. -/
lemma replaceLoop_eq_ok_iff {replaced : Str} :
    s.replaceLoop C original pos replaced = .ok r ↔
      ∃ t, Expands (s.binding C) (original.drop pos) t ∧ r = replaced ++ t := by
  fun_induction ScriptState.replaceLoop C s original pos replaced with
  | case1 pos replaced hpos hdollar =>
    -- no dollar is left
    simp [expands_iff_of_notMem (findFrom_eq_none_iff.mp hdollar), eq_comm]
  | case2 pos replaced hpos dollar hdollar replaced' hend =>
    -- the dollar is the last character
    have hopen : original[dollar + 1]? ≠ some '\x7b' := by
      rw [List.getElem?_eq_none hend]
      exact (Option.some_ne_none _).symm
    have hnil : original.drop (dollar + 1) = [] := List.drop_eq_nil_of_le hend
    simp [expands_of_not_opening hdollar hopen, hnil, expands_nil_iff, replaced', eq_comm]
  | case3 pos replaced hpos dollar hdollar hend hopen hlast =>
    -- the reference is not closed
    have hmem := findFrom_eq_none_iff.mp hlast
    have hcons := drop_eq_cons_of_getElem? hopen
    simp [expands_of_findFrom_eq_some hdollar, hcons, not_expands_of_notMem hmem]
  | case4 pos replaced hpos dollar hdollar hend hopen last hlast name hname =>
    -- the reference has no name
    simp [expands_of_opening hdollar hopen hlast, name, hname]
  | case5 pos replaced hpos dollar hdollar replaced' hend hopen last hlast name hname hvar ih =>
    have hv : s.binding C name = some [] := binding_of_eq_none hvar
    rw [ih, ← expands_after_reference hdollar hopen hlast hname hv, List.append_nil]
  | case6 pos replaced hpos dollar hdollar hend hopen last hlast name hname var hvar e he =>
    -- the variable has no text
    have hv : s.binding C name = none := by rw [binding_of_eq_some hvar, he]; rfl
    simp [expands_of_opening hdollar hopen hlast, name, hv]
  | case7 pos replaced hpos dollar hdollar replaced' hend hopen last hlast name hname var hvar
      text htext ih =>
    have hv : s.binding C name = some text := by rw [binding_of_eq_some hvar, htext]; rfl
    rw [ih, ← expands_after_reference hdollar hopen hlast hname hv]
  | case8 pos replaced hpos dollar hdollar replaced' hend hopen ih =>
    rw [ih]
    constructor
    · rintro ⟨t, h, rfl⟩
      exact ⟨_, (expands_of_not_opening hdollar hopen).mpr ⟨t, h, rfl⟩, by simp [replaced']⟩
    · rintro ⟨_, h, rfl⟩
      obtain ⟨t, h', rfl⟩ := (expands_of_not_opening hdollar hopen).mp h
      exact ⟨t, h', by simp [replaced']⟩
  | case9 pos replaced hpos =>
    have hnil : original.drop pos = [] := List.drop_eq_nil_of_le (not_lt.mp hpos)
    simp [hnil, expands_nil_iff, eq_comm]

end Loop

lemma replaceVariables_eq_ok_iff {original t : Str} :
    s.replaceVariables C original = .ok t ↔ Expands (s.binding C) original t := by
  simp [ScriptState.replaceVariables, replaceLoop_eq_ok_iff]

/-! ## The texts of floating point variables -/

/-- The text without its trailing zeros. -/
def withoutZeros (s : Str) : Str := s.rdropWhile fun c => c = '0'

/-- A number with a period without its trailing zeros and without a trailing period. -/
def withoutTrailing (s : Str) : Str :=
  if '.' ∈ s then
    if (withoutZeros s).getLast? = some '.' then (withoutZeros s).dropLast else withoutZeros s
  else s

/-- The loop stops at the last character that is not a zero. -/
lemma take_zeroPos {s : Str} {point : ℕ} (hpoint : s[point]? = some '.') {n : ℕ} (hlt : point < n)
    (hle : n ≤ s.length) :
    withoutZeros (s.take n) = s.take (zeroPos s point n + 1) ∧ zeroPos s point n < n := by
  induction n with
  | zero => omega
  | succ z ih =>
    have htake : s.take (z + 1) = s.take z ++ [s[z]] := List.take_succ_eq_append_getElem hle
    have hz : s[z]? = some s[z] := List.getElem?_eq_getElem hle
    rw [zeroPos, if_pos hlt]
    by_cases h0 : s[z] = '0'
    · -- the period is further in front
      have hne : point ≠ z := by
        rintro rfl
        rw [hz, h0] at hpoint
        cases hpoint
      obtain ⟨ihtake, ihlt⟩ := ih (by omega) (by omega)
      rw [if_neg (by simp [hz, h0]), htake, withoutZeros,
        List.rdropWhile_concat_pos _ _ _ (by simpa using h0)]
      exact ⟨ihtake, by omega⟩
    · rw [if_pos (by simpa [hz] using h0), htake, withoutZeros,
        List.rdropWhile_concat_neg _ _ _ (by simpa using h0)]
      exact ⟨rfl, by omega⟩

/-- **The trimming** of a text is right exactly when it keeps a period at the end and has 47
characters without its zeros, or neither. -/
lemma floatingPointText_eq_iff {s : Str} : floatingPointText s = withoutTrailing s ↔
    ('.' ∈ s → ((withoutZeros s).getLast? = some '.' ↔ (withoutZeros s).length = 47)) := by
  rw [floatingPointText, withoutTrailing]
  by_cases hmem : '.' ∈ s
  · obtain ⟨point, hpoint⟩ : ∃ point, findFrom s '.' 0 = some point := by
      rw [← Option.ne_none_iff_exists', ne_eq, findFrom_eq_none_iff, List.drop_zero, not_not]
      exact hmem
    have hlt := (findFrom_bounds hpoint).2
    obtain ⟨htake, hz⟩ := take_zeroPos (getElem?_of_findFrom hpoint) hlt le_rfl
    rw [List.take_length] at htake
    simp only [hpoint, hmem, forall_const, if_true]
    set z := zeroPos s point s.length
    have hlength : (withoutZeros s).length = z + 1 := by
      rw [htake, List.length_take]
      omega
    have hdropLast : s.take z = (withoutZeros s).dropLast := by
      rw [List.dropLast_eq_take, hlength, htake, List.take_take]
      simp
    have hne : (withoutZeros s).dropLast ≠ withoutZeros s := fun h => by
      have := congrArg List.length h
      rw [List.length_dropLast] at this
      omega
    rw [hdropLast, ← htake, hlength]
    have hcode : '.'.toNat = 46 := rfl
    by_cases h46 : z = 46
    · rw [if_neg (by simp [h46, hcode])]
      by_cases hlast : (withoutZeros s).getLast? = some '.'
      · simp [hlast, h46]
      · simp [hlast, h46, hne]
    · rw [if_pos (by simpa [hcode] using h46)]
      by_cases hlast : (withoutZeros s).getLast? = some '.'
      · simp [hlast, h46, hne.symm]
      · simp [hlast, h46]
  · have hnone : findFrom s '.' 0 = none := findFrom_eq_none_iff.mpr hmem
    simp [hnone, hmem]

/-- The six decimals of a number are all zeros exactly when its text has 47 characters without
its zeros; a number that is not finite has no decimals. -/
def TrimsExactly : Double → Prop
  | some (.finite q) =>
    10 ^ 6 ∣ (roundHalfEven (|q| * 10 ^ 6)).toNat ↔ (withoutZeros (roundedText q)).length = 47
  | _ => True

lemma floatingPointText_doubleText_iff {d : Double} :
    floatingPointText (doubleText d) = withoutTrailing (doubleText d) ↔ TrimsExactly d := by
  rw [floatingPointText_eq_iff]
  match d with
  | none => simp [doubleText, TrimsExactly]
  | some (.infinite negative) => cases negative <;> simp [doubleText, TrimsExactly]
  | some (.finite q) =>
    have hmem : '.' ∈ doubleText (some (.finite q)) := by simp [doubleText, roundedText, fixedText]
    rw [TrimsExactly, ← getLast?_rdropWhile_fixedText (decide (q < 0))]
    exact ⟨fun h => h hmem, fun h _ => h⟩

/-! ## Copies -/

/-- A literal that may refer to variables. -/
inductive Literal where
  | doubleQuoted (text : Str)
  | regex (text : Str)

namespace Literal

/-- The text of the literal. -/
def text : Literal → Str
  | doubleQuoted text => text
  | regex text => text

/-- The token of the literal. -/
def value : Literal → Value
  | doubleQuoted text => { token := .doubleString, string := text }
  | regex text => { token := .regex, string := text }

/-- The variable that the literal becomes, once its references are replaced. -/
def copied (t : Str) : Literal → VariableValue
  | doubleQuoted _ => .string t
  | regex _ => .regex t

end Literal

/-- The text of a string or of a regular expression. -/
def VariableValue.text? : VariableValue → Option Str
  | string s => some s
  | regex s => some s
  | _ => none

/-- The token of `$name`. -/
def variableToken (name : Str) : Value := { token := .variable, string := name }

namespace ScriptState

/-- The statements `set_variable(name: v1, value: t)`, `set_variable(name: v2, value: $v1)`, and so
on. -/
def copies (C : Conversions) : ScriptState → Value → List Str → Except Thrown ScriptState
  | s, _, [] => .ok s
  | s, t, v :: vs => do
    let s' ← s.setVariableTo C v t
    copies C s' (variableToken v) vs

/-- What the variables stand for: a string is its text, an integer its decimal text, and nothing
stands for a variable that is not set. -/
def contents (s : ScriptState) (name : Str) : Option Str :=
  match s.getVariable name with
  | none => some []
  | some (.string t) => some t
  | some (.integer n) => some (intText n.toInt)
  | some _ => none

/-- The same when the floating point number `d` stands for its text without its trailing zeros and
without a trailing period. -/
def contentsWith (d : Double) (s : ScriptState) (name : Str) : Option Str :=
  if s.getVariable name = some (.floatingPoint d) then some (withoutTrailing (doubleText d))
  else s.contents name

end ScriptState

/-- All the variables of a chain of copies hold the text that the literal stands for. -/
def CopiesOnce (C : Conversions) (s : ScriptState) (l : Literal) : Prop :=
  ∀ t, Expands s.contents l.text t → ∀ v vs, ∃ s', s.copies C l.value (v :: vs) = .ok s' ∧
    ∀ w ∈ v :: vs, (s'.getVariable w).bind VariableValue.text? = some t

/-- The variables are substituted once, in one pass.  A text without expansion has a reference that
is not closed or has no name: it is an error. -/
structure SubstitutesOnce (C : Conversions) (s : ScriptState) (l : Literal) (d : Double) :
    Prop where
  text : ∀ original t, Expands s.contents original t → s.replaceVariables C original = .ok t
  malformed : ∀ original, (∀ t, ¬ Expands (fun _ => some []) original t) →
    ∃ e, s.replaceVariables C original = .error e
  copies : CopiesOnce C s l
  floating : ∀ (s' : ScriptState) original t, Expands (s'.contentsWith d) original t →
    s'.replaceVariables C original = .ok t

/-- A regular expression refers to no variable once its references are replaced. -/
def Settled (s : ScriptState) : Literal → Prop
  | .doubleQuoted _ => True
  | .regex u => ∀ t, Expands s.contents u t → ¬ opening <:+: t

lemma binding_of_contents {name t : Str} (h : s.contents name = some t) :
    s.binding C name = some t := by
  rw [ScriptState.contents] at h
  split at h
  · rename_i hvar
    rw [binding_of_eq_none hvar, ← h]
  · rename_i hvar
    rw [binding_of_eq_some hvar, ← h]
    rfl
  · rename_i hvar
    rw [binding_of_eq_some hvar, ← h]
    rfl
  · cases h

lemma replaceVariables_of_contents {original t : Str} (h : Expands s.contents original t) :
    s.replaceVariables C original = .ok t :=
  replaceVariables_eq_ok_iff.mpr (h.mono fun _ _ => binding_of_contents)

/-- A literal becomes a variable with the text that it stands for. -/
lemma setVariableTo_literal {l : Literal} {t : Str} (h : Expands s.contents l.text t) (v : Str) :
    s.setVariableTo C v l.value = .ok (s.setVariable v (l.copied t)) := by
  have hreplace := replaceVariables_of_contents (C := C) h
  cases l with
  | doubleQuoted u =>
    have hvalue : s.primary C { token := .doubleString, string := u }
        = .ok { token := .singleString, string := t } := by
      rw [ScriptState.primary_doubleString, show s.replaceVariables C u = .ok t from hreplace]
      rfl
    exact ScriptState.setVariableTo_eq hvalue rfl
  | regex u =>
    have hparam : s.primaryToVariable C { token := .regex, string := u } = .ok (.regex t) := by
      rw [ScriptState.primaryToVariable_regex, show s.replaceVariables C u = .ok t from hreplace]
      rfl
    exact ScriptState.setVariableTo_eq rfl hparam

/-- A variable copied from such a literal is copied as it is, when nothing is left to replace. -/
lemma setVariableTo_copied {l : Literal} {t u : Str}
    (ht : ∀ r, l = .regex r → ¬ opening <:+: t) (hu : s.getVariable u = some (l.copied t))
    (v : Str) : s.setVariableTo C v (variableToken u) = .ok (s.setVariable v (l.copied t)) := by
  have hprimary : s.primary C (variableToken u) = (l.copied t).toValue C := by
    rw [ScriptState.primary, variableToken]
    simp only [hu]
  cases l with
  | doubleQuoted r => exact ScriptState.setVariableTo_eq hprimary rfl
  | regex r =>
    refine ScriptState.setVariableTo_eq hprimary ?_
    have hself : s.replaceVariables C t = .ok t :=
      replaceVariables_of_contents (expands_self (ht r rfl))
    rw [ScriptState.primaryToVariable_regex, hself]
    rfl

/-- **The copies**, one after the other: each one keeps the variables that hold the value. -/
lemma copies_spec {x : VariableValue}
    (hx : ∀ (s : ScriptState) u v, s.getVariable u = some x →
      s.setVariableTo C v (variableToken u) = .ok (s.setVariable v x))
    {s : ScriptState} {u : Str} (hu : s.getVariable u = some x) (vs : List Str) :
    ∃ s', s.copies C (variableToken u) vs = .ok s' ∧
      ∀ w, s.getVariable w = some x ∨ w ∈ vs → s'.getVariable w = some x := by
  induction vs generalizing s u with
  | nil => exact ⟨s, rfl, fun w hw => hw.resolve_right List.not_mem_nil⟩
  | cons v vs ih =>
    obtain ⟨s', hs', hkeeps⟩ := ih (s.getVariable_setVariable_self v x)
    refine ⟨s', ?_, fun w hw => hkeeps w ?_⟩
    · rw [ScriptState.copies, hx s u v hu]
      exact hs'
    · by_cases hwv : v = w
      · exact .inl (hwv ▸ s.getVariable_setVariable_self v x)
      · rw [s.getVariable_setVariable_of_ne x hwv]
        exact hw.imp_right fun h => (List.mem_cons.mp h).resolve_left (Ne.symm hwv)

/-- The copy of a regular expression fails when the text has a reference to the variable itself. -/
lemma not_copies_of_needed {t name : Str} (hneeded : ∀ value : Str → Option Str,
    value name = none → ∀ r, ¬ Expands value t r) (s' : ScriptState) :
    (s.setVariable name (.regex t)).copies C (variableToken name) [name] ≠ .ok s' := by
  set s₁ := s.setVariable name (.regex t)
  have hvar : s₁.getVariable name = some (.regex t) := s.getVariable_setVariable_self _ _
  have hprimary : s₁.primary C (variableToken name) = .ok { token := .regex, string := t } := by
    rw [ScriptState.primary, variableToken]
    simp only [hvar]
    rfl
  have hbinding : s₁.binding C name = none := by
    rw [binding_of_eq_some hvar]
    rfl
  cases hreplace : s₁.replaceVariables C t with
  | ok r => exact absurd (replaceVariables_eq_ok_iff.mp hreplace) (hneeded _ hbinding r)
  | error e =>
    have hparam : s₁.primaryToVariable C { token := .regex, string := t } = .error e := by
      rw [ScriptState.primaryToVariable_regex, hreplace]
      rfl
    rw [ScriptState.copies, ScriptState.setVariableTo_eq_error hprimary hparam]
    intro hcopies
    cases hcopies

/-- **The copies** hold the same text, whatever their names, exactly when the literal is a string
or nothing is left to replace in it. -/
lemma copiesOnce_iff {l : Literal} : CopiesOnce C s l ↔ Settled s l := by
  constructor
  · intro h
    cases l with
    | doubleQuoted u => trivial
    | regex u =>
      intro t ht hopening
      -- the name that the text refers to is given to the first variable
      obtain ⟨name, hname⟩ := exists_needed hopening
      obtain ⟨s', hs', -⟩ := h t ht name [name]
      rw [ScriptState.copies, setVariableTo_literal ht] at hs'
      exact not_copies_of_needed hname s' hs'
  · intro hsettled t ht v vs
    have hx (s : ScriptState) (u v : Str) (hu : s.getVariable u = some (l.copied t)) :
        s.setVariableTo C v (variableToken u) = .ok (s.setVariable v (l.copied t)) :=
      setVariableTo_copied (fun r hr => by subst hr; exact hsettled t ht) hu v
    obtain ⟨s', hs', hkeeps⟩ := copies_spec hx (s.getVariable_setVariable_self v (l.copied t)) vs
    refine ⟨s', ?_, fun w hw => ?_⟩
    · rw [ScriptState.copies, setVariableTo_literal ht]
      exact hs'
    · have hw' : s'.getVariable w = some (l.copied t) := by
        refine hkeeps w ((List.mem_cons.mp hw).imp_left ?_)
        rintro rfl
        exact s.getVariable_setVariable_self w _
      rw [hw']
      cases l <;> rfl

/-! ## Once -/

/-- A reference to a name of one character. -/
def referenceTo (c : Char) : Str := ['$', '\x7b', c, '\x7d']

lemma expands_referenceTo {value : Str → Option Str} {c : Char} {t : Str} (hc : c ≠ '\x7d')
    (h : value [c] = some t) : Expands value (referenceTo c) t := by
  have hclosed : '\x7d' ∉ [c] := by simpa using hc.symm
  simpa [referenceTo] using Expands.reference (List.cons_ne_nil c []) hclosed h .nil

/-- The number is written in a text as `floatingPointText` says. -/
lemma binding_floatingPoint {name : Str} {d : Double}
    (hvar : s.getVariable name = some (.floatingPoint d)) :
    s.binding C name = some (floatingPointText (doubleText d)) := by
  rw [binding_of_eq_some hvar]
  rfl

/-- References to the number are written right in every text when its own text is trimmed
right. -/
lemma binding_of_contentsWith {name t : Str} {d : Double}
    (htext : floatingPointText (doubleText d) = withoutTrailing (doubleText d))
    (h : s.contentsWith d name = some t) : s.binding C name = some t := by
  rw [ScriptState.contentsWith] at h
  split_ifs at h with hvar
  · rw [binding_floatingPoint hvar, htext, h]
  · exact binding_of_contents h

/-- **Variables are substituted once** exactly when the literal is a string, or a regular
expression in which nothing is left to replace, and the decimals of the number are not all zeros,
or its period is at the one position that is compared right. -/
theorem substitutesOnce_iff {l : Literal} {d : Double} :
    SubstitutesOnce C s l d ↔ Settled s l ∧ TrimsExactly d := by
  rw [← copiesOnce_iff (C := C), ← floatingPointText_doubleText_iff]
  constructor
  · intro h
    refine ⟨h.copies, ?_⟩
    -- the text is a reference to a variable that holds the number
    set s' := s.setVariable ['x'] (.floatingPoint d)
    have hvar : s'.getVariable ['x'] = some (.floatingPoint d) :=
      s.getVariable_setVariable_self _ _
    have hright := h.floating s' (referenceTo 'x') (withoutTrailing (doubleText d))
      (expands_referenceTo (by decide) (if_pos hvar))
    have hwritten : s'.replaceVariables C (referenceTo 'x') =
        .ok (floatingPointText (doubleText d)) :=
      replaceVariables_eq_ok_iff.mpr (expands_referenceTo (by decide) (binding_floatingPoint hvar))
    rw [hwritten] at hright
    exact Except.ok.inj hright
  · rintro ⟨hcopies, htext⟩
    refine ⟨fun _ _ => replaceVariables_of_contents, fun original hmalformed => ?_, hcopies,
      fun s' _ _ hexpands => ?_⟩
    · cases h : s.replaceVariables C original with
      | error e => exact ⟨e, rfl⟩
      | ok t =>
        have htotal : ∀ name : Str, (fun _ => some []) name ≠ (none : Option Str) :=
          fun _ => Option.some_ne_none _
        obtain ⟨t', ht'⟩ := (replaceVariables_eq_ok_iff.mp h).exists_of_total htotal
        exact absurd ht' (hmalformed t')
    · exact replaceVariables_eq_ok_iff.mpr
        (hexpands.mono fun _ _ => binding_of_contentsWith htext)

/-- A script with the variable `a`, which holds the text of a reference to `b`. -/
def nested : ScriptState where
  values := (∅ : SortedMap Str VariableValue).insert ['a'] (.string (referenceTo 'b'))

/-- The copy of a copy of a regular expression is empty, its text being replaced again. -/
theorem nested_not_substitutesOnce :
    ¬ SubstitutesOnce .blank nested (.regex (referenceTo 'a')) (some (.finite 5)) := by
  intro h
  have ha : Expands nested.contents (referenceTo 'a') (referenceTo 'b') :=
    expands_referenceTo (by decide) rfl
  obtain ⟨s', hs', hw⟩ := h.copies _ ha ['v'] [['w']]
  set s₁ := nested.setVariable ['v'] (.regex (referenceTo 'b'))
  have hb : Expands s₁.contents (referenceTo 'b') [] := expands_referenceTo (by decide) rfl
  have hparam : s₁.primaryToVariable .blank { token := .regex, string := referenceTo 'b' }
      = .ok (.regex []) := by
    rw [ScriptState.primaryToVariable_regex, replaceVariables_of_contents hb]
    rfl
  have hcopy : s₁.setVariableTo .blank ['w'] (variableToken ['v'])
      = .ok (s₁.setVariable ['w'] (.regex [])) := ScriptState.setVariableTo_eq rfl hparam
  have hcopies : nested.copies .blank (Literal.regex (referenceTo 'a')).value [['v'], ['w']]
      = .ok (s₁.setVariable ['w'] (.regex [])) := by
    rw [ScriptState.copies, setVariableTo_literal ha]
    change s₁.copies .blank (variableToken ['v']) [['w']] = _
    rw [ScriptState.copies, hcopy]
    rfl
  rw [hcopies] at hs'
  cases hs'
  have hheld := hw ['w'] (by simp)
  rw [ScriptState.getVariable_setVariable_self] at hheld
  cases hheld

end EventDispatcher.Reporter
