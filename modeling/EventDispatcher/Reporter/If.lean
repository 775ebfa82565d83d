import EventDispatcher.Reporter.Control

/-!
# The conditions of a test program

`if()` jumps to one of ten labels, each for an operator; an operator covers the compare results
that its condition on their number selects.  The value of `if(variable: …)` and the one of
`compare(expression: …)` are numbers of 64 bits that are narrowed to an `int` before they are
tested: the low 32 bits decide.  The label is one of an operator that covers the result, but for
the result `unordered`, for which only the operator `unordered` is looked for (`if_iff`).
-/

namespace EventDispatcher.Reporter

open Lib Control

/-- `compare_t` as a number -/
def Compare.value : Compare → ℤ
  | undefined => -3
  | unordered => -2
  | less => -1
  | equal => 0
  | greater => 1

/-- `static_cast<compare_t>(value)`, for the numbers of the enumeration -/
def Compare.ofValue (value : Int32) : Compare :=
  if value = -2 then unordered
  else if value = -1 then less
  else if value = 0 then equal
  else if value = 1 then greater
  else undefined

/-- The numbers of the enumeration but -3 stay what they are. -/
lemma Compare.value_ofValue {value : Int32} (hmin : -2 ≤ value.toInt) (hmax : value.toInt ≤ 1) :
    (Compare.ofValue value).value = value.toInt := by
  rw [ofValue]
  split_ifs with h₁ h₂ h₃ h₄
  · rw [h₁]; rfl
  · rw [h₂]; rfl
  · rw [h₃]; rfl
  · rw [h₄]; rfl
  · rw [← Int32.toInt_inj] at h₁ h₂ h₃ h₄
    change value.toInt ≠ -2 at h₁
    change value.toInt ≠ -1 at h₂
    change value.toInt ≠ 0 at h₃
    change value.toInt ≠ 1 at h₄
    omega

/-- The number that is tested: the value as an `int`. -/
def narrowed (n : Int64) : ℤ := n.toInt32.toInt

/-- A number of 32 bits is tested as itself. -/
lemma narrowed_eq {n : Int64} (hmin : -2 ^ 31 ≤ n.toInt) (hmax : n.toInt < 2 ^ 31) :
    narrowed n = n.toInt := by
  have h : narrowed n = n.toInt.bmod (2 ^ 32) := Int64.toInt_toInt32 n
  rw [h, Int.bmod_def]
  split_ifs <;> omega

/-! ## `compare()` -/

namespace InstCompare

/-- `state::set_compare()` -/
def setCompare (c : Compare) (s : Control) : Except Halt Control :=
  if c = .undefined then throw "'compare' cannot be set to \"undefined\".".toList
  else .ok { s with compare := c }

/-- `inst_compare::func()` -/
def func (location : Str) (params : List (Str × Variable)) (s : Control) : Except Halt Control :=
  match params.lookup "expression".toList with
  | none => throw "parameter \"expression\" is required.".toList
  | some (.integer n) =>
    -- the value is first converted to an `int`
    let value := n.toInt32
    if value < -2 ∨ 1 < value then
      throw (location
        ++ "unsupported integer in compare(), values are limited to -2 to 1.".toList)
    else setCompare (Compare.ofValue value) s
  | some _ => .error .wrongClass

/-- `compare(expression: e)` accepts the compare results and refuses the other numbers. -/
def Follows (e : Int64) : Prop :=
  ∀ location s, (∃ s', func location [("expression".toList, .integer e)] s = .ok s') ↔
    -2 ≤ e.toInt ∧ e.toInt ≤ 1

/-- The instruction accepts what the narrowed number allows. -/
lemma func_eq_ok_iff {location : Str} {e : Int64} {s : Control} :
    (∃ s', func location [("expression".toList, .integer e)] s = .ok s') ↔
      -2 ≤ narrowed e ∧ narrowed e ≤ 1 := by
  have hrange : ¬ (e.toInt32 < -2 ∨ 1 < e.toInt32) ↔ -2 ≤ narrowed e ∧ narrowed e ≤ 1 := by
    rw [Int32.lt_iff_toInt_lt, Int32.lt_iff_toInt_lt]
    change ¬ (narrowed e < -2 ∨ 1 < narrowed e) ↔ _
    omega
  change (∃ s', (if e.toInt32 < -2 ∨ 1 < e.toInt32 then _ else _) = Except.ok s') ↔ _
  rw [← hrange]
  split
  · rename_i hout
    exact iff_of_false (fun ⟨s', h⟩ => nomatch h) fun h => h hout
  · rename_i hin
    obtain ⟨hmin, hmax⟩ := hrange.mp hin
    have hdefined : Compare.ofValue e.toInt32 ≠ .undefined := fun h => by
      have hvalue := Compare.value_ofValue hmin hmax
      rw [h] at hvalue
      change -3 = narrowed e at hvalue
      omega
    refine iff_of_true ⟨{ s with compare := Compare.ofValue e.toInt32 }, ?_⟩ hin
    rw [setCompare, if_neg hdefined]

/-- `compare()` accepts the right numbers exactly when a number that is tested as one of them is
one of them. -/
lemma follows_iff (e : Int64) :
    Follows e ↔ (-2 ≤ narrowed e ∧ narrowed e ≤ 1 → -2 ≤ e.toInt ∧ e.toInt ≤ 1) := by
  constructor
  · intro h
    exact fun hnarrowed => (h [] {}).mp (func_eq_ok_iff.mpr hnarrowed)
  · intro h location s
    rw [func_eq_ok_iff]
    refine ⟨h, fun ⟨hmin, hmax⟩ => ?_⟩
    rw [narrowed_eq (by omega) (by omega)]
    exact ⟨hmin, hmax⟩

end InstCompare

/-! ## `if()` -/

namespace InstIf

/-- The parameters of `if()` with a label. -/
inductive LabelParameter where
  | unordered
  | ordered
  | less
  | lessOrEqual
  | greater
  | greaterOrEqual
  | equal
  | isFalse
  | notEqual
  | isTrue
deriving DecidableEq, Repr

namespace LabelParameter

/-- The name of the parameter. -/
def name : LabelParameter → String
  | unordered => "unordered"
  | ordered => "ordered"
  | less => "less"
  | lessOrEqual => "less_or_equal"
  | greater => "greater"
  | greaterOrEqual => "greater_or_equal"
  | equal => "equal"
  | isFalse => "false"
  | notEqual => "not_equal"
  | isTrue => "true"

/-- The parameters in the order of their declarations. -/
def all : List LabelParameter :=
  [unordered, ordered, less, lessOrEqual, greater, greaterOrEqual, equal, isFalse, notEqual, isTrue]

/-- The compare results for which the operator goes to its label, as it is documented. -/
def CoversResult : LabelParameter → Compare → Prop
  | less, c => c.value = -1
  | lessOrEqual, c => c.value = -1 ∨ c.value = 0
  | greater, c => c.value = 1
  | greaterOrEqual, c => c.value = 0 ∨ c.value = 1
  | equal, c | isFalse, c => c.value = 0
  | notEqual, c | isTrue, c => c.value ≠ 0
  | ordered, c => c.value ≠ -2
  | unordered, c => c.value = -2

instance (o : LabelParameter) (c : Compare) : Decidable (CoversResult o c) :=
  match o with
  | less => inferInstanceAs (Decidable (c.value = -1))
  | lessOrEqual => inferInstanceAs (Decidable (c.value = -1 ∨ c.value = 0))
  | greater => inferInstanceAs (Decidable (c.value = 1))
  | greaterOrEqual => inferInstanceAs (Decidable (c.value = 0 ∨ c.value = 1))
  | equal | isFalse => inferInstanceAs (Decidable (c.value = 0))
  | notEqual | isTrue => inferInstanceAs (Decidable (c.value ≠ 0))
  | ordered => inferInstanceAs (Decidable (c.value ≠ -2))
  | unordered => inferInstanceAs (Decidable (c.value = -2))

lemma name_injective : Function.Injective name := by
  intro a b h
  cases a <;> cases b <;> first | rfl | exact absurd h (by decide)

lemma mem_all (o : LabelParameter) : o ∈ all := by cases o <;> decide

end LabelParameter

open LabelParameter

/-- The parameters that give the labels. -/
def parameters (labels : LabelParameter → Option Str) : List (Str × Variable) :=
  all.filterMap fun o => (labels o).map fun label => (o.name.toList, .identifier label)

/-- The parameters, with a variable. -/
def parametersWith (name : Str) (labels : LabelParameter → Option Str) : List (Str × Variable) :=
  ("variable".toList, .identifier name) :: parameters labels

/-- The compare result for the sign of a number. -/
def signOf (n : ℤ) : Compare := if n < 0 then .less else if n = 0 then .equal else .greater

/-- `if(variable: v, …)` behaves as `if(…)` with the sign of the value as the compare result. -/
def FollowsSign (v : Int64) : Prop :=
  ∀ p inputs stmt labels name s, stmt.instruction.kind = .ifs →
    s.vars.find? name = some (.integer v) →
    (func p inputs stmt (parametersWith name labels) s).map
        (fun s' => { s' with compare := signOf v.toInt })
      = func p inputs stmt (parameters labels) { s with compare := signOf v.toInt }

/-- With the compare result the instruction jumps to a label of an operator that covers it, when
there is one, and falls through otherwise. -/
structure Chooses (c : Compare) (labels : LabelParameter → Option Str) : Prop where
  jumps : ∀ p inputs stmt s, stmt.instruction.kind = .ifs → s.compare = c →
    (∃ o label, CoversResult o c ∧ labels o = some label) →
    ∃ o label, CoversResult o c ∧ labels o = some label ∧
      func p inputs stmt (parameters labels) s = jump p stmt (some label) s
  falls : ∀ p inputs stmt s, stmt.instruction.kind = .ifs → s.compare = c →
    (∀ o, CoversResult o c → labels o = none) →
    func p inputs stmt (parameters labels) s = .ok s

/-! ### The label -/

/-- The operators whose labels are looked for, the preferred one first. -/
def chosen : Compare → List LabelParameter
  | .undefined => []
  | .unordered => [unordered]
  | .less => [less, lessOrEqual, notEqual, isTrue, ordered]
  | .equal => [equal, lessOrEqual, greaterOrEqual, isFalse, ordered]
  | .greater => [greater, greaterOrEqual, notEqual, isTrue, ordered]

lemma ifLabels_eq (c : Compare) : ifLabels c = (chosen c).map LabelParameter.name := by
  cases c <;> rfl

/-- The operators that are looked for are those that cover the result, but for `unordered`. -/
lemma mem_chosen_iff {c : Compare} (hc : c ≠ .undefined) (o : LabelParameter) :
    o ∈ chosen c ↔ CoversResult o c ∧ (c = .unordered → o = unordered) := by
  cases c
  · exact absurd rfl hc
  all_goals cases o <;> simp [chosen, CoversResult, Compare.value]

lemma lookup_filterMap (labels : LabelParameter → Option Str) (o : LabelParameter) :
    ∀ l : List LabelParameter,
      (l.filterMap fun o => (labels o).map fun label =>
        (o.name.toList, Variable.identifier label)).lookup o.name.toList
        = if o ∈ l then (labels o).map Variable.identifier else none
  | [] => rfl
  | o' :: l => by
    have ih := lookup_filterMap labels o l
    by_cases h : o = o'
    · subst h
      rw [if_pos List.mem_cons_self, List.filterMap_cons]
      cases hlabel : labels o with
      | none => simpa [hlabel] using ih
      | some label => exact List.lookup_cons_self
    · have hname : (o.name.toList == o'.name.toList) = false := by
        rw [beq_eq_false_iff_ne]
        exact fun heq => h (name_injective (String.toList_inj.mp heq))
      rw [List.filterMap_cons]
      cases hlabel : labels o' with
      | none => simpa [h] using ih
      | some label => simpa [h, List.lookup_cons, hname] using ih

lemma lookup_parameters (labels : LabelParameter → Option Str) (o : LabelParameter) :
    (parameters labels).lookup o.name.toList = (labels o).map Variable.identifier := by
  rw [parameters, lookup_filterMap, if_pos (mem_all o)]

lemma variable_ne_name (o : LabelParameter) : "variable".toList ≠ o.name.toList := by
  cases o <;> decide

lemma lookup_parametersWith (name : Str) (labels : LabelParameter → Option Str)
    (o : LabelParameter) :
    (parametersWith name labels).lookup o.name.toList = (labels o).map Variable.identifier := by
  have hname : (o.name.toList == "variable".toList) = false :=
    beq_eq_false_iff_ne.mpr (variable_ne_name o).symm
  rw [parametersWith, List.lookup_cons, hname]
  exact lookup_parameters labels o

/-- There is no parameter `variable` among the labels. -/
lemma lookup_variable (labels : LabelParameter → Option Str) :
    (parameters labels).lookup "variable".toList = none := by
  rw [List.lookup_eq_none_iff]
  intro e he
  obtain ⟨o, -, ho⟩ := List.mem_filterMap.mp he
  obtain ⟨label, -, rfl⟩ := Option.map_eq_some_iff.mp ho
  exact bne_iff_ne.mpr (variable_ne_name o)

/-- The comparison of `if()` is with the narrowed number. -/
lemma compareWithZero_integer (n : Int64) :
    compareWithZero (.integer n) = .ok (signOf (narrowed n)) := by
  have hzero : n.toInt32 = 0 ↔ narrowed n = 0 := Int32.toInt_inj.symm
  have hneg : n.toInt32 < 0 ↔ narrowed n < 0 := Int32.lt_iff_toInt_lt
  rw [compareWithZero, signOf]
  simp only [hzero, hneg]
  split_ifs <;> first | rfl | omega

lemma findSome?_map {labels : LabelParameter → Option Str} (l : List LabelParameter) :
    l.findSome? (fun o => (labels o).map Variable.identifier)
      = (l.findSome? labels).map Variable.identifier := by
  induction l with
  | nil => rfl
  | cons o l ih =>
    rw [List.findSome?_cons, List.findSome?_cons, ih]
    cases labels o <;> rfl

/-- The label that `if()` selects for a compare result. -/
lemma ifLabel_eq {params : List (Str × Variable)} {labels : LabelParameter → Option Str}
    {s : Control} {c : Compare} (hcompare : ifCompare params s = .ok c)
    (hparams : ∀ o : LabelParameter,
      params.lookup o.name.toList = (labels o).map Variable.identifier) :
    ifLabel params s = .ok ((chosen c).findSome? labels) := by
  have hfind : (ifLabels c).findSome? (fun name => params.lookup name.toList)
      = ((chosen c).findSome? labels).map Variable.identifier := by
    rw [ifLabels_eq, List.findSome?_map, ← findSome?_map]
    exact congrArg (fun f => (chosen c).findSome? f) (funext hparams)
  rw [ifLabel, hcompare]
  simp only [hfind]
  cases (chosen c).findSome? labels <;> rfl

lemma func_eq {p : Program} {inputs : Inputs} {stmt : Statement} {params : List (Str × Variable)}
    {s : Control} {label : Option Str} (hkind : stmt.instruction.kind = .ifs)
    (hlabel : ifLabel params s = .ok label) :
    func p inputs stmt params s = jump p stmt label s := by
  rw [func, hkind]
  simp only [target, hlabel]
  rfl

section Labels

variable {p : Program} {inputs : Inputs} {stmt : Statement} {labels : LabelParameter → Option Str}
  {s : Control}

/-- `if()` with the compare result of the state. -/
lemma func_parameters (hkind : stmt.instruction.kind = .ifs) (hc : s.compare ≠ .undefined) :
    func p inputs stmt (parameters labels) s
      = jump p stmt ((chosen s.compare).findSome? labels) s := by
  refine func_eq hkind (ifLabel_eq ?_ (lookup_parameters labels))
  rw [ifCompare, lookup_variable]
  exact if_neg hc

/-- `if()` with an integer variable. -/
lemma func_parametersWith (hkind : stmt.instruction.kind = .ifs) {name : Str} {v : Int64}
    (hfind : s.vars.find? name = some (.integer v)) :
    func p inputs stmt (parametersWith name labels) s
      = jump p stmt ((chosen (signOf (narrowed v))).findSome? labels) s := by
  refine func_eq hkind (ifLabel_eq ?_ (lookup_parametersWith name labels))
  rw [ifCompare, parametersWith, List.lookup_cons_self]
  simp only [hfind]
  exact compareWithZero_integer v

/-- A jump does not look at the compare result. -/
lemma jump_compare (label : Option Str) (c : Compare) :
    (jump p stmt label s).map (fun s' => { s' with compare := c })
      = jump p stmt label { s with compare := c } := by
  cases label with
  | none => rfl
  | some name =>
    rw [jump, jump]
    cases p.labels.find? name with
    | none => rfl
    | some ip =>
      simp only [setIp]
      split <;> rfl

end Labels

/-! ### When the value and the operators are followed -/

lemma signOf_ne_undefined (n : ℤ) : signOf n ≠ .undefined := by
  rw [signOf]
  split_ifs <;> decide

/-- An `if()` in a program without labels. -/
def ifStatement : Statement :=
  { instruction := { name := "if".toList }, filename := [], line := 0 }

/-- A jump in a program without labels throws an exception that names the label. -/
lemma label_of_jump {label label' : Str} {s s' : Control}
    (h : jump {} ifStatement (some label) s = jump {} ifStatement (some label') s') :
    label = label' := by
  have htext (l : Str) (s : Control) : jump {} ifStatement (some l) s
      = throw (ifStatement.location ++ "label \"".toList ++ l ++ "\" not found.".toList) := rfl
  rw [htext, htext] at h
  injection h with h
  injection h with h
  injection h with h
  exact List.append_cancel_left (List.append_cancel_right h)

/-- Three labels, one for each sign. -/
def signLabels : LabelParameter → Option Str
  | less => some ['l']
  | equal => some ['e']
  | greater => some ['g']
  | _ => none

/-- The three labels tell the signs apart. -/
lemma signLabels_injective {a b : ℤ} {s : Control}
    (h : jump {} ifStatement ((chosen (signOf a)).findSome? signLabels) s
      = jump {} ifStatement ((chosen (signOf b)).findSome? signLabels) s) :
    signOf a = signOf b := by
  rw [signOf, signOf] at h ⊢
  split_ifs at h ⊢ <;> first | rfl | exact absurd (label_of_jump h) (by decide)

/-- `if(variable: v, …)` follows the sign exactly when it is the one of the narrowed number. -/
lemma followsSign_iff (v : Int64) :
    FollowsSign v ↔ signOf (narrowed v) = signOf v.toInt := by
  constructor
  · intro h
    have hat := h {} Execution.noInputs ifStatement signLabels ['v']
      { vars := (∅ : SortedMap Str Variable).insert ['v'] (.integer v) } (by decide)
      (SortedMap.find?_insert_self _ _ _)
    rw [func_parametersWith (by decide) (SortedMap.find?_insert_self _ _ _), jump_compare,
      func_parameters (by decide) (signOf_ne_undefined _)] at hat
    exact signLabels_injective hat
  · intro h p inputs stmt labels name s hkind hfind
    rw [func_parametersWith hkind hfind, jump_compare, h,
      func_parameters hkind (signOf_ne_undefined _)]

/-- When no label is found, no operator that covers the result has one. -/
lemma none_of_chosen {c : Compare} (hc : c ≠ .undefined) {labels : LabelParameter → Option Str}
    (h : c = .unordered → labels unordered = none → labels notEqual = none ∧ labels isTrue = none)
    (hfind : (chosen c).findSome? labels = none) (o : LabelParameter) (ho : CoversResult o c) :
    labels o = none := by
  rw [List.findSome?_eq_none_iff] at hfind
  by_cases hunordered : c = .unordered
  · subst hunordered
    have hnone := hfind unordered (by decide)
    obtain ⟨hne, htrue⟩ := h rfl hnone
    cases o <;> first | assumption | exact absurd ho (by decide)
  · exact hfind o ((mem_chosen_iff hc o).mpr ⟨ho, fun h => absurd h hunordered⟩)

/-- The label is one of an operator that covers the result, but for `unordered`. -/
lemma chooses_iff {c : Compare} (hc : c ≠ .undefined) (labels : LabelParameter → Option Str) :
    Chooses c labels ↔
      (c = .unordered → labels unordered = none →
        labels notEqual = none ∧ labels isTrue = none) := by
  constructor
  · rintro h rfl hunordered
    -- a label of another operator that covers the result is not looked for
    have hnone : ∀ o, CoversResult o .unordered → labels o = none := by
      intro o ho
      cases hlabel : labels o with
      | none => rfl
      | some label =>
        obtain ⟨o', label', -, -, hjump⟩ := h.jumps {} Execution.noInputs ifStatement
          { compare := .unordered } (by decide) rfl ⟨o, label, ho, hlabel⟩
        rw [func_parameters (by decide) (by decide)] at hjump
        have hchosen : (chosen .unordered).findSome? labels = none := by
          simp [chosen, hunordered]
        rw [hchosen] at hjump
        cases hjump
    exact ⟨hnone notEqual (by decide), hnone isTrue (by decide)⟩
  · intro h
    refine ⟨fun p inputs stmt s hkind hs ⟨o, label, ho, hlabel⟩ => ?_,
      fun p inputs stmt s hkind hs hnone => ?_⟩
    · subst hs
      rw [func_parameters hkind hc]
      cases hfind : (chosen s.compare).findSome? labels with
      | none => exact absurd hlabel (by rw [none_of_chosen hc h hfind o ho]; nofun)
      | some label' =>
        obtain ⟨o', ho', hlabel'⟩ := List.exists_of_findSome?_eq_some hfind
        exact ⟨o', label', ((mem_chosen_iff hc o').mp ho').1, hlabel', rfl⟩
    · subst hs
      have hfind : (chosen s.compare).findSome? labels = none :=
        List.findSome?_eq_none_iff.mpr fun o ho => hnone o ((mem_chosen_iff hc o).mp ho).1
      rw [func_parameters hkind hc, hfind]
      rfl

/-- **`if()` and `compare()`**: the sign of the value decides exactly when the `int` has the same
one, an operator that covers the compare result decides but for the operators `not_equal` and
`true` of the result `unordered`, and `compare()` accepts the right numbers exactly when the `int`
is not one of them for another number. -/
theorem if_iff (v e : Int64) (c : Compare) (hc : c ≠ .undefined)
    (labels : LabelParameter → Option Str) :
    (FollowsSign v ↔ signOf (narrowed v) = signOf v.toInt) ∧
      (Chooses c labels ↔ (c = .unordered → labels unordered = none →
        labels notEqual = none ∧ labels isTrue = none)) ∧
      (InstCompare.Follows e ↔
        (-2 ≤ narrowed e ∧ narrowed e ≤ 1 → -2 ≤ e.toInt ∧ e.toInt ≤ 1)) :=
  ⟨followsSign_iff v, chooses_iff hc labels, InstCompare.follows_iff e⟩

/-- 2^32 is compared as `equal`, `if(not_equal: l)` falls through for `unordered`, and
`compare(expression: 4294967296)` is accepted. -/
theorem not_if_wide :
    ¬ FollowsSign 4294967296 ∧
      ¬ Chooses .unordered (fun o => if o = notEqual then some ['l'] else none) ∧
      ¬ InstCompare.Follows 4294967296 := by
  refine ⟨?_, ?_, ?_⟩
  · rw [followsSign_iff]
    decide
  · rw [chooses_iff (by decide)]
    decide
  · rw [InstCompare.follows_iff]
    decide

/-- Small numbers, with a label for `unordered`. -/
theorem if_iff_small :
    FollowsSign (-5) ∧ Chooses .unordered (fun o => if o = unordered then some ['l'] else none) ∧
      InstCompare.Follows 2 := by
  obtain ⟨hsign, hlabel, hcompare⟩ := if_iff (-5) 2 .unordered (by decide)
    (fun o => if o = unordered then some ['l'] else none)
  exact ⟨hsign.mpr (by decide), hlabel.mpr (by decide), hcompare.mpr (by decide)⟩

end InstIf

end EventDispatcher.Reporter
