import EventDispatcher.Reporter.Timestamp

/-!
# The width of computed integers

An integer is computed on 128 bits, and what takes it is narrower: a parameter, a variable, a text
or a number of seconds has 64 bits and the count of a repetition 32.  None of them looks at the
bits that are lost.
-/

namespace EventDispatcher.Reporter

open Lib

/-! ## The copy of a text -/

/-- A copy goes on with a period: what it writes is the text again. -/
lemma getElem?_copyForward {text : Str} (hlen : 0 < text.length) {k src : ℕ} {buf : Str}
    (hlength : buf.length = src + text.length + k)
    (hbuf : ∀ j < src + text.length, buf[j]? = text[j % text.length]?) :
    (copyForward k buf src (src + text.length)).length = buf.length ∧
      ∀ j < src + text.length + k,
        (copyForward k buf src (src + text.length))[j]? = text[j % text.length]? := by
  induction k generalizing src buf with
  | zero => exact ⟨rfl, hbuf⟩
  | succ k ih =>
    rw [copyForward, add_right_comm src text.length 1]
    set buf' := buf.set (src + text.length) (buf.getD src nul)
    have hlength' : buf'.length = src + 1 + text.length + k := by
      rw [List.length_set, hlength]
      omega
    have hbuf' : ∀ j < src + 1 + text.length, buf'[j]? = text[j % text.length]? := by
      intro j hj
      by_cases hlast : j = src + text.length
      · -- the character comes from one period before
        have hread : some (buf.getD src nul) = text[src % text.length]? := by
          rw [← hbuf src (by omega), List.getD_eq_getElem?_getD,
            List.getElem?_eq_getElem (by omega)]
          rfl
        rw [hlast, List.getElem?_set_self (by omega), hread, Nat.add_mod_right]
      · rw [List.getElem?_set_ne (Ne.symm hlast)]
        exact hbuf j (by omega)
    obtain ⟨hcopy, hperiod⟩ := ih hlength' hbuf'
    refine ⟨hcopy.trans (by rw [hlength', hlength]; omega), fun j hj => hperiod j (by omega)⟩

/-- The characters of a text that is repeated. -/
lemma getElem?_flatten_replicate {text : Str} {n j : ℕ} (hj : j < n * text.length) :
    (List.replicate n text).flatten[j]? = text[j % text.length]? := by
  induction n generalizing j with
  | zero => omega
  | succ n ih =>
    rw [Nat.succ_mul] at hj
    rw [List.replicate_succ, List.flatten_cons]
    by_cases hlt : j < text.length
    · rw [List.getElem?_append_left hlt, Nat.mod_eq_of_lt hlt]
    · rw [List.getElem?_append_right (by omega), ih (by omega), ← Nat.mod_eq_sub_mod (by omega)]

/-- **The repetition** is the concatenation of the copies, when the count is accepted. -/
lemma repeatText_eq {text : Str} {n : BitVec 128} (hcount : 0 ≤ (n.setWidth 32).toInt)
    (hmax : (n.setWidth 32).toInt ≤ 1000) :
    repeatText text n = .ok (List.replicate (n.setWidth 32).toInt.toNat text).flatten := by
  rw [repeatText]
  dsimp only
  rw [if_neg (by omega), Except.ok.injEq]
  generalize (n.setWidth 32).toInt.toNat = count
  rcases Nat.eq_zero_or_pos count with rfl | hpos
  · simp [copyForward]
  rcases Nat.eq_zero_or_pos text.length with hempty | hlen
  · simp [List.length_eq_zero_iff.mp hempty, copyForward]
  set size := text.length * count with hsize
  have hle : text.length ≤ size := Nat.le_mul_of_pos_right _ hpos
  have hlength : ((text ++ List.replicate (size - text.length) nul).take size).length
      = 0 + text.length + (size - text.length) := by
    rw [List.length_take, List.length_append, List.length_replicate]
    omega
  have hbuf : ∀ j < 0 + text.length,
      ((text ++ List.replicate (size - text.length) nul).take size)[j]?
        = text[j % text.length]? := by
    intro j hj
    rw [zero_add] at hj
    rw [List.getElem?_take_of_lt (by omega), List.getElem?_append_left hj, Nat.mod_eq_of_lt hj]
  obtain ⟨hcopy, hperiod⟩ := getElem?_copyForward hlen hlength hbuf
  rw [zero_add] at hcopy hperiod
  have hflatten : (List.replicate count text).flatten.length = size := by
    simp [hsize, mul_comm]
  refine List.ext_getElem? fun j => ?_
  by_cases hj : j < size
  · rw [hperiod j (by omega), getElem?_flatten_replicate (by rw [mul_comm]; exact hj)]
  · rw [List.getElem?_eq_none (by omega), List.getElem?_eq_none (by omega)]

/-! ## What takes an integer -/

/-- An evaluation raises an error. -/
def Throws {α : Type} (x : Except Stop α) : Prop := ∃ t, x = .error (.thrown t)

/-- The expression `$name`. -/
def variableExpression (name : Str) : Expression :=
  .primary ⟨{ token := .variable, string := name }, rfl⟩

namespace ScriptState

/-- The variable that the value of an expression becomes, as a parameter. -/
def parameterOf (A : Arithmetic) (s : ScriptState) (e : Expression) :
    Except Stop VariableValue := do
  let value ← e.compute (s.surroundings A)
  lift (s.primaryToVariable A.toConversions value)

/-- The statement `set_variable(name: name, value: e)`. -/
def assign (A : Arithmetic) (s : ScriptState) (name : Str) (e : Expression) :
    Except Stop ScriptState := do
  let param ← s.parameterOf A e
  lift (s.instSetVariable A.toConversions name param none)

end ScriptState

/-- A number of seconds is taken as it is. -/
def TakesSeconds (v : ℤ) (x : Except Stop Value) (f : TimespecEx → TimespecEx) : Prop :=
  (∃ offset : TimespecEx, offset.1.toInt = v ∧ offset.2 = 0 ∧ x = .ok (timestampValue (f offset))) ∨
    Throws x

/-- What takes the value of the expression takes exactly `v`, or raises an error. -/
structure NeverNarrowed (A : Arithmetic) (s : ScriptState) (e : Expression) (v : ℤ) : Prop where
  parameter : (∃ n : Int64, s.parameterOf A e = .ok (.integer n) ∧ n.toInt = v) ∨
    Throws (s.parameterOf A e)
  /-- `set_variable(name: x, value: e)` followed by `$x` -/
  readBack : ∀ name, (∃ s' x, s.assign A name e = .ok s' ∧
      (variableExpression name).compute (s'.surroundings A) = .ok x ∧ x.IsInteger v) ∨
    Throws (s.assign A name e)
  concatenation : ∀ a y, a.compute (s.surroundings A) = .ok y → y.token = .singleString →
    ((Expression.binary .add a e).compute (s.surroundings A)
        = .ok { token := .singleString, string := y.string ++ intText v } ∨
      Throws ((Expression.binary .add a e).compute (s.surroundings A))) ∧
    ((Expression.binary .add e a).compute (s.surroundings A)
        = .ok { token := .singleString, string := intText v ++ y.string } ∨
      Throws ((Expression.binary .add e a).compute (s.surroundings A)))
  repetition : ∀ a y, a.compute (s.surroundings A) = .ok y → y.token = .singleString →
    if 0 ≤ v ∧ v ≤ 1000 then
      (Expression.binary .multiply a e).compute (s.surroundings A)
        = .ok { token := .singleString, string := (List.replicate v.toNat y.string).flatten }
    else Throws ((Expression.binary .multiply a e).compute (s.surroundings A))
  seconds : ∀ a y, a.compute (s.surroundings A) = .ok y → y.token = .timespec →
    (TakesSeconds v ((Expression.binary .add a e).compute (s.surroundings A))
        (A.plus (unpackTimestamp y.integer)) ∧
      TakesSeconds v ((Expression.binary .add e a).compute (s.surroundings A))
        (A.plus (unpackTimestamp y.integer))) ∧
    TakesSeconds v ((Expression.binary .subtract a e).compute (s.surroundings A))
        (A.minus (unpackTimestamp y.integer)) ∧
      TakesSeconds v ((Expression.binary .subtract e a).compute (s.surroundings A))
        fun offset => A.minus offset (unpackTimestamp y.integer)

/-- The number fits in 64 bits. -/
def Fits64 (v : ℤ) : Prop := -2 ^ 63 ≤ v ∧ v < 2 ^ 63

/-- The lower 32 bits, with their sign, are accepted as a count only when the number is. -/
def CountsRight (v : ℤ) : Prop :=
  0 ≤ v.bmod (2 ^ 32) ∧ v.bmod (2 ^ 32) ≤ 1000 → 0 ≤ v ∧ v ≤ 1000

section Consumers

variable {A : Arithmetic} {s : ScriptState} {e a : Expression} {x y : Value}

lemma toInt_setWidth_64_iff {n : BitVec 128} :
    (n.setWidth 64).toInt = n.toInt ↔ Fits64 n.toInt := by
  rw [toInt_setWidth_of_le (by decide), Fits64]
  constructor
  · intro h
    rw [← h]
    exact ⟨Int.le_bmod (by decide), Int.bmod_lt (by decide)⟩
  · intro h
    exact Int.bmod_eq_of_le h.1 h.2

/-- The operands are evaluated from left to right. -/
lemma compute_binary {op : Operator} (ha : a.compute (s.surroundings A) = .ok y)
    (he : e.compute (s.surroundings A) = .ok x) :
    (Expression.binary op a e).compute (s.surroundings A)
      = Expression.operation (s.surroundings A) op y x := by
  rw [Expression.compute, ha, he]
  rfl

lemma parameterOf_integer (he : e.compute (s.surroundings A) = .ok x) (hx : x.token = .integer) :
    s.parameterOf A e = .ok (.integer (.ofBitVec (x.integer.setWidth 64))) := by
  rw [ScriptState.parameterOf, he]
  change lift (s.primaryToVariable A.toConversions x) = _
  rw [ScriptState.primaryToVariable, hx]
  rfl

lemma parameter_iff (he : e.compute (s.surroundings A) = .ok x) (hx : x.token = .integer) :
    ((∃ n : Int64, s.parameterOf A e = .ok (.integer n) ∧ n.toInt = x.integer.toInt) ∨
      Throws (s.parameterOf A e)) ↔ Fits64 x.integer.toInt := by
  rw [parameterOf_integer he hx, ← toInt_setWidth_64_iff]
  constructor
  · rintro (⟨n, hn, hvalue⟩ | ⟨t, ht⟩)
    · cases hn
      exact hvalue
    · cases ht
  · intro h
    exact .inl ⟨_, rfl, h⟩

lemma readBack_of_fits (he : e.compute (s.surroundings A) = .ok x) (hx : x.token = .integer)
    (hfits : Fits64 x.integer.toInt) (name : Str) :
    ∃ s' v, s.assign A name e = .ok s' ∧
      (variableExpression name).compute (s'.surroundings A) = .ok v ∧
      v.IsInteger x.integer.toInt := by
  set n : Int64 := .ofBitVec (x.integer.setWidth 64)
  have hn : n.toInt = x.integer.toInt := toInt_setWidth_64_iff.mpr hfits
  have hassign : s.assign A name e = .ok (s.setVariable name (.integer n)) := by
    rw [ScriptState.assign, parameterOf_integer he hx]
    rfl
  have hprimary : (s.setVariable name (.integer n)).primary A.toConversions
      { token := .variable, string := name } = .ok (integerValue n) := by
    rw [ScriptState.primary]
    simp only [ScriptState.getVariable_setVariable_self]
    rfl
  refine ⟨_, integerValue n, hassign, ?_, rfl, ?_⟩
  · rw [variableExpression, Expression.compute, ScriptState.primaryValue_surroundings, hprimary]
    rfl
  · rw [← hn]
    exact BitVec.toInt_signExtend_of_le (by decide)

lemma operation_add_text (hy : y.token = .singleString) (hx : x.token = .integer) :
    Expression.operation (s.surroundings A) .add y x
        = .ok { token := .singleString, string := y.string ++ integerText x.integer } ∧
      Expression.operation (s.surroundings A) .add x y
        = .ok { token := .singleString, string := integerText x.integer ++ y.string } := by
  constructor <;>
    simp [Expression.operation, ScriptState.surroundings, Arithmetic.others,
      Arithmetic.floatingOperands, Arithmetic.add, hx, hy, lift]

lemma operation_multiply_text (hy : y.token = .singleString) (hx : x.token = .integer) :
    Expression.operation (s.surroundings A) .multiply y x
      = lift ((repeatText y.string x.integer).map fun text =>
          { token := .singleString, string := text }) := by
  cases htext : repeatText y.string x.integer <;>
    simp [Expression.operation, ScriptState.surroundings, Arithmetic.others,
      Arithmetic.floatingOperands, Arithmetic.multiply, hx, hy, htext, lift, Except.map]

lemma repetition_iff (he : e.compute (s.surroundings A) = .ok x) (hx : x.token = .integer)
    (ha : a.compute (s.surroundings A) = .ok y) (hy : y.token = .singleString) :
    (if 0 ≤ x.integer.toInt ∧ x.integer.toInt ≤ 1000 then
      (Expression.binary .multiply a e).compute (s.surroundings A)
        = .ok { token := .singleString,
                string := (List.replicate x.integer.toInt.toNat y.string).flatten }
    else Throws ((Expression.binary .multiply a e).compute (s.surroundings A))) ↔
      CountsRight x.integer.toInt := by
  have hcount : (x.integer.setWidth 32).toInt = x.integer.toInt.bmod (2 ^ 32) :=
    toInt_setWidth_of_le (by decide) _
  rw [compute_binary ha he, operation_multiply_text hy hx, CountsRight]
  split
  · rename_i hrange
    have hsame : x.integer.toInt.bmod (2 ^ 32) = x.integer.toInt :=
      Int.bmod_eq_of_le (by omega) (by omega)
    rw [hsame] at hcount
    rw [repeatText_eq (by omega) (by omega), hcount]
    exact iff_of_true rfl fun _ => hrange
  · rename_i hrange
    by_cases haccepted : 0 ≤ x.integer.toInt.bmod (2 ^ 32) ∧ x.integer.toInt.bmod (2 ^ 32) ≤ 1000
    · rw [← hcount] at haccepted
      rw [repeatText_eq haccepted.1 haccepted.2, ← hcount]
      refine iff_of_false ?_ fun h => hrange (h haccepted)
      rintro ⟨t, ht⟩
      cases ht
    · refine iff_of_true ?_ fun h => absurd h haccepted
      rw [repeatText, if_pos (by rw [hcount]; omega)]
      exact ⟨_, rfl⟩

lemma takesSeconds_of_fits (hfits : Fits64 x.integer.toInt) (f : TimespecEx → TimespecEx) :
    TakesSeconds x.integer.toInt (.ok (timestampValue (f (secondsOf x.integer)))) f :=
  .inl ⟨secondsOf x.integer, toInt_setWidth_64_iff.mpr hfits, rfl, rfl⟩

lemma seconds_of_fits (he : e.compute (s.surroundings A) = .ok x) (hx : x.token = .integer)
    (hfits : Fits64 x.integer.toInt) (ha : a.compute (s.surroundings A) = .ok y)
    (hy : y.token = .timespec) :
    (TakesSeconds x.integer.toInt ((Expression.binary .add a e).compute (s.surroundings A))
        (A.plus (unpackTimestamp y.integer)) ∧
      TakesSeconds x.integer.toInt ((Expression.binary .add e a).compute (s.surroundings A))
        (A.plus (unpackTimestamp y.integer))) ∧
    TakesSeconds x.integer.toInt ((Expression.binary .subtract a e).compute (s.surroundings A))
        (A.minus (unpackTimestamp y.integer)) ∧
      TakesSeconds x.integer.toInt ((Expression.binary .subtract e a).compute (s.surroundings A))
        fun offset => A.minus offset (unpackTimestamp y.integer) := by
  have hyx : WithTimestamp y x := .inr (.inl ⟨hy, hx⟩)
  have hxy : WithTimestamp x y := .inr (.inr ⟨hx, hy⟩)
  have hinstant : y.instant = unpackTimestamp y.integer := by
    rw [Value.instant, if_neg (by rw [hy]; decide)]
  have hseconds : x.instant = secondsOf x.integer := by rw [Value.instant, if_pos hx]
  have hyint : y.token ≠ .integer := by
    rw [hy]
    decide
  rw [compute_binary ha he, compute_binary he ha, compute_binary ha he, compute_binary he ha,
    operation_add hyx, operation_add hxy, operation_subtract hyx, operation_subtract hxy,
    if_neg hyint, if_pos hx, hinstant, hseconds]
  exact ⟨⟨takesSeconds_of_fits hfits _, takesSeconds_of_fits hfits _⟩,
    takesSeconds_of_fits hfits _,
    takesSeconds_of_fits hfits fun offset => A.minus offset (unpackTimestamp y.integer)⟩

/-- **Computed integers are never narrowed** exactly when they fit in 64 bits, and their lower 32
bits are not a count that is accepted in the place of another one. -/
theorem neverNarrowed_iff (he : e.compute (s.surroundings A) = .ok x) (hx : x.token = .integer) :
    NeverNarrowed A s e x.integer.toInt ↔
      Fits64 x.integer.toInt ∧ CountsRight x.integer.toInt := by
  constructor
  · intro h
    have hempty : (Expression.primary ⟨{ token := .singleString }, rfl⟩).compute (s.surroundings A)
        = .ok { token := .singleString } := rfl
    exact ⟨(parameter_iff he hx).mp h.parameter,
      (repetition_iff he hx hempty rfl).mp (h.repetition _ _ hempty rfl)⟩
  · rintro ⟨hfits, hcounts⟩
    have htext : integerText x.integer = intText x.integer.toInt := by
      rw [integerText, toInt_setWidth_64_iff.mpr hfits]
    refine ⟨(parameter_iff he hx).mpr hfits, fun name => .inl (readBack_of_fits he hx hfits name),
      fun a y ha hy => ?_, fun a y ha hy => (repetition_iff he hx ha hy).mpr hcounts,
      fun a y => seconds_of_fits he hx hfits⟩
    obtain ⟨hright, hleft⟩ := operation_add_text (A := A) (s := s) hy hx
    rw [compute_binary ha he, compute_binary he ha, hright, hleft, htext]
    exact ⟨.inl rfl, .inl rfl⟩

end Consumers

/-- A sum of two literals. -/
def sumOf (m n : ℕ) : Expression :=
  .binary .add (.primary (integerToken m)) (.primary (integerToken n))

/-- `2 + 1` -/
theorem neverNarrowed_three : NeverNarrowed .blank {} (sumOf 2 1) 3 := by
  have he : (sumOf 2 1).compute (ScriptState.surroundings .blank {})
      = .ok { token := .integer, integer := 3 } := rfl
  have hfits : Fits64 3 := ⟨by decide, by decide⟩
  have hcounts : CountsRight 3 := fun _ => by decide
  exact (neverNarrowed_iff he rfl).mpr ⟨hfits, hcounts⟩

/-- `9223372036854775807 + 1` becomes a variable with a negative value. -/
theorem not_neverNarrowed_sum :
    ¬ NeverNarrowed .blank {} (sumOf 9223372036854775807 1) (2 ^ 63) := by
  intro h
  have he : (sumOf 9223372036854775807 1).compute (ScriptState.surroundings .blank {})
      = .ok { token := .integer, integer := 0x8000000000000000#128 } := rfl
  have hvalue := (parameter_iff he rfl).mp h.parameter
  exact absurd hvalue.2 (by decide)

end EventDispatcher.Reporter
