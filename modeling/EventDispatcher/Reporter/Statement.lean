import EventDispatcher.Reporter.Expression
import EventDispatcher.Lib.SortedMap

/-!
# The statements of a program

A statement is an instruction with its parameters.  The parser adds the parameters to a
statement one by one (`Statement.addParameter`), then the statement to the program
(`Program.addStatement`), which saves where the labels are.
-/

namespace EventDispatcher.Reporter

open Lib

/-- Why the parser stops. -/
inductive Failure where
  /-- `lexer::error()` about a token with the message, then an `ed::runtime_error` -/
  | error (token : Token) (message what : Str)
  /-- An `ed::runtime_error` alone. -/
  | runtimeError (what : Str)
  /-- Not of the source: the recursion went deeper than there are tokens. -/
  | outOfFuel
deriving DecidableEq

/-- A parameter that an instruction accepts. -/
structure ParameterDeclaration where
  /-- `f_name` -/
  name : Str
  /-- `f_type` -/
  type : Str
  /-- `f_required` -/
  required : Bool := true
deriving DecidableEq

/-- An instruction, as the parser sees it. -/
structure Instruction where
  /-- `f_name` -/
  name : Str
  /-- `parameter_declarations()`, up to the entry without a name -/
  parameterDeclarations : List ParameterDeclaration := []
deriving DecidableEq

/-- `get_instruction()`: the instruction that is registered under a name -/
def getInstruction (instructions : List Instruction) (name : Str) : Option Instruction :=
  instructions.find? fun i => i.name = name

/-- `OPERATOR_NAMED`: an item of a list -/
structure ListItem where
  name : Token
  value : Option Expression
deriving DecidableEq

/-- The value of a parameter. -/
inductive Argument where
  | expression (e : Expression)
  /-- `OPERATOR_LIST` -/
  | list (items : List ListItem)
  /-- `OPERATOR_ARRAY` -/
  | array (items : List Expression)
deriving DecidableEq

/-- A statement. -/
structure Statement where
  /-- `f_instruction` -/
  instruction : Instruction
  /-- `f_filename` -/
  filename : Str
  /-- `f_line` -/
  line : UInt32
  /-- `f_parameters` -/
  parameters : SortedMap Str Argument := ∅
deriving DecidableEq

namespace Statement

/-- `get_parameter()` -/
def getParameter (s : Statement) (name : Str) : Option Argument := s.parameters.find? name

/-- Add a parameter. -/
def addParameter (s : Statement) (p : Str × Argument) : Except Failure Statement :=
  if s.parameters.find? p.1 ≠ none then
    .error (.runtimeError ("parameter \"".toList ++ p.1 ++ "\" defined more than once.".toList))
  else if s.instruction.parameterDeclarations.any fun d => d.name = p.1 then
    .ok { s with parameters := s.parameters.insert p.1 p.2 }
  else
    .error (.runtimeError ("parameter \"".toList ++ p.1 ++ "\" not accepted by \"".toList
      ++ s.instruction.name ++ "\".".toList))

/-- Check that the parameters that are required are there. -/
def verifyParameters (s : Statement) : Except Failure Unit :=
  match s.instruction.parameterDeclarations.find? fun d =>
    d.required && s.parameters.find? d.name = none with
  | none => .ok ()
  | some d => .error (.runtimeError ("parameter \"".toList ++ d.name
      ++ "\" is required by \"".toList ++ s.instruction.name ++ "\".".toList))

/-- The instruction that defines a label. -/
def isLabel (s : Statement) : Bool := s.instruction.name = "label".toList

/-- The name of a label, when it is given as an identifier. -/
def labelName (s : Statement) : Except Failure Str :=
  match s.getParameter "name".toList with
  | none => .error (.runtimeError
      "the \"name\" parameter of the \"label\" statement is mandatory.".toList)
  | some (.expression (.primary t)) =>
    if t.1.token = .identifier then .ok t.1.string
    else .error (.runtimeError
      ("the value of the \"name\" parameter of the \"label\" statement ".toList
        ++ "must be an identifier.".toList))
  | some _ => .error (.runtimeError
      ("the value of the \"name\" parameter of the \"label\" statement ".toList
        ++ "cannot be dynamically computed.".toList))

end Statement

/-- The members of the state that hold the program. -/
structure Program where
  /-- `f_program` -/
  statements : List Statement := []
  /-- `f_labels` -/
  labels : SortedMap Str UInt32 := ∅
deriving DecidableEq

namespace Program

/-- Save the label that a statement defines. -/
def addLabel (s : Program) (stmt : Statement) : Except Failure Program :=
  if stmt.isLabel then do
    let name ← stmt.labelName
    match s.labels.find? name with
    | some position => .error (.runtimeError ("label \"".toList ++ name
        ++ "\" already defined at position ".toList ++ decimal position ++ ".".toList))
    | none => .ok { s with labels := s.labels.insert name (UInt32.ofNat s.statements.length) }
  else .ok s

/-- Add a statement at the end. -/
def addStatement (s : Program) (stmt : Statement) : Except Failure Program := do
  let s ← s.addLabel stmt
  return { s with statements := s.statements ++ [stmt] }

end Program

/-! ## The parameters of a statement -/

namespace Statement

variable {s s' : Statement}

lemma find?_ne_none_iff {κ ν : Type*} [LinearOrder κ] {m : SortedMap κ ν} {k : κ} :
    m.find? k ≠ none ↔ k ∈ m.keys := by
  rw [SortedMap.mem_keys_iff, Option.ne_none_iff_exists']
  simp only [SortedMap.find?_eq_some_iff]

/-- The parameters that a statement accepts, in this order. -/
def Accepts (s : Statement) (l : List (Str × Argument)) : Prop :=
  (l.map Prod.fst).Nodup ∧
    ∀ p ∈ l, p.1 ∉ s.parameters.keys ∧ ∃ d ∈ s.instruction.parameterDeclarations, d.name = p.1

lemma addParameter_eq_ok {p : Str × Argument} : s.addParameter p = .ok s' ↔
    (p.1 ∉ s.parameters.keys ∧ ∃ d ∈ s.instruction.parameterDeclarations, d.name = p.1) ∧
      { s with parameters := s.parameters.insert p.1 p.2 } = s' := by
  rw [addParameter, ← find?_ne_none_iff]
  split_ifs with h h'
  · exact iff_of_false (by simp) fun hs => hs.1.1 h
  · have hdecl : ∃ d ∈ s.instruction.parameterDeclarations, d.name = p.1 := by simpa using h'
    simp only [Except.ok.injEq, h, not_false_eq_true, hdecl, and_self, true_and]
  · refine iff_of_false (by simp) fun hs => h' ?_
    simpa using hs.1.2

/-- **Adding parameters** works exactly for new names of the instruction. -/
lemma foldlM_addParameter {l : List (Str × Argument)} : l.foldlM addParameter s = .ok s' ↔
    s.Accepts l ∧ { s with parameters := s.parameters.insertAll l } = s' := by
  induction l generalizing s with
  | nil =>
    change Except.ok s = Except.ok s' ↔ _
    rw [Except.ok.injEq]
    exact (and_iff_right ⟨List.nodup_nil, by simp⟩).symm
  | cons p l ih =>
    rw [foldlM_cons_eq_ok]
    simp only [addParameter_eq_ok, ih]
    constructor
    · rintro ⟨s₁, ⟨hp, rfl⟩, ⟨hnodup, hl⟩, rfl⟩
      refine ⟨⟨List.nodup_cons.mpr ⟨fun hmem => ?_, hnodup⟩, ?_⟩, rfl⟩
      · obtain ⟨q, hq, heq⟩ := List.mem_map.mp hmem
        exact (hl q hq).1 (SortedMap.mem_keys_insert.mpr (.inl heq))
      · rintro q (_ | ⟨_, hq⟩)
        · exact hp
        · exact ⟨fun hmem => (hl q hq).1 (SortedMap.mem_keys_insert.mpr (.inr hmem)),
            (hl q hq).2⟩
    · rintro ⟨⟨hnodup, hall⟩, rfl⟩
      obtain ⟨hnew, hnodup⟩ := List.nodup_cons.mp hnodup
      refine ⟨_, ⟨hall p List.mem_cons_self, rfl⟩, ⟨hnodup, fun q hq => ⟨fun hmem => ?_,
        (hall q (List.mem_cons_of_mem _ hq)).2⟩⟩, rfl⟩
      rcases SortedMap.mem_keys_insert.mp hmem with heq | hmem
      · exact hnew (heq ▸ List.mem_map_of_mem hq)
      · exact (hall q (List.mem_cons_of_mem _ hq)).1 hmem

lemma verifyParameters_eq_ok {u : Unit} : s.verifyParameters = .ok u ↔
    ∀ d ∈ s.instruction.parameterDeclarations, d.required → d.name ∈ s.parameters.keys := by
  have hnone : (s.instruction.parameterDeclarations.find? fun d =>
      d.required && s.parameters.find? d.name = none) = none ↔
      ∀ d ∈ s.instruction.parameterDeclarations, d.required → d.name ∈ s.parameters.keys := by
    simp only [List.find?_eq_none, Bool.and_eq_true, decide_eq_true_eq, not_and,
      ← find?_ne_none_iff, ne_eq]
  rw [← hnone, verifyParameters]
  split
  · rename_i h
    exact iff_of_true rfl h
  · rename_i d h
    exact iff_of_false (by simp) (by simp [h])

lemma addParameter_ne_outOfFuel (s : Statement) (p : Str × Argument) :
    s.addParameter p ≠ .error .outOfFuel := by
  rw [addParameter]
  split_ifs <;> simp

lemma verifyParameters_ne_outOfFuel (s : Statement) :
    s.verifyParameters ≠ .error .outOfFuel := by
  rw [verifyParameters]
  split <;> simp

end Statement

/-! ## The labels of a program -/

/-- The label that a statement defines with a plain identifier. -/
def Statement.plainLabel (s : Statement) : Option Str :=
  match s.getParameter "name".toList with
  | some (.expression (.primary t)) => if t.1.token = .identifier then some t.1.string else none
  | _ => none

lemma Statement.labelName_eq_ok {s : Statement} {name : Str} :
    s.labelName = .ok name ↔ s.plainLabel = some name := by
  rw [labelName, plainLabel]
  rcases s.getParameter "name".toList with _ | ((t | _ | _) | _ | _)
  · exact iff_of_false nofun nofun
  · by_cases ht : t.1.token = .identifier
    · simp only [ht, if_true, Except.ok.injEq, Option.some.injEq]
    · simp only [ht, if_false]
      exact iff_of_false nofun nofun
  all_goals exact iff_of_false nofun nofun

/-- The labels that statements define, in order. -/
def labelsOf (l : List Statement) : List Str :=
  l.filterMap fun s => if s.isLabel then s.plainLabel else none

namespace Program

/-- The program with a statement at the end, and its label. -/
def push (s : Program) (stmt : Statement) : Program where
  statements := s.statements ++ [stmt]
  labels := s.labels.insertAll
    ((labelsOf [stmt]).map fun name => (name, UInt32.ofNat s.statements.length))

/-- The labels of some statements are identifiers, and all different from each other and from
those of the program. -/
def NewLabels (s : Program) (l : List Statement) : Prop :=
  (∀ stmt ∈ l, stmt.isLabel = true → stmt.plainLabel ≠ none) ∧ (labelsOf l).Nodup ∧
    ∀ name ∈ labelsOf l, name ∉ s.labels.keys

lemma mem_keys_push {s : Program} {stmt : Statement} {name : Str} :
    name ∈ (s.push stmt).labels.keys ↔ name ∈ s.labels.keys ∨ name ∈ labelsOf [stmt] := by
  rw [push, SortedMap.mem_keys_insertAll, List.map_map]
  simp

lemma addStatement_eq_ok {s s' : Program} {stmt : Statement} :
    s.addStatement stmt = .ok s' ↔ s.NewLabels [stmt] ∧ s.push stmt = s' := by
  have hlabels : labelsOf [stmt]
      = (if stmt.isLabel then stmt.plainLabel else none).toList := by
    rw [labelsOf, List.filterMap_cons]
    split <;> simp_all
  rw [NewLabels, push, hlabels]
  by_cases hlabel : stmt.isLabel
  · cases hname : stmt.plainLabel with
    | none =>
      refine iff_of_false (fun h => ?_) (by simp [hlabel, hname])
      obtain ⟨s₁, hs₁, -⟩ := exists_of_bind_eq_ok h
      rw [addLabel, if_pos hlabel] at hs₁
      obtain ⟨name, hok, -⟩ := exists_of_bind_eq_ok hs₁
      exact absurd (Statement.labelName_eq_ok.mp hok) (by simp [hname])
    | some name =>
      have hok := Statement.labelName_eq_ok.mpr hname
      have hadd : s.addStatement stmt = (s.addLabel stmt).bind fun s =>
        .ok { s with statements := s.statements ++ [stmt] } := rfl
      have hbind : s.addLabel stmt = stmt.labelName.bind fun name =>
          match s.labels.find? name with
          | some position => .error (.runtimeError ("label \"".toList ++ name
              ++ "\" already defined at position ".toList ++ decimal position
              ++ ".".toList))
          | none => .ok
            { s with labels := s.labels.insert name (UInt32.ofNat s.statements.length) } := by
        rw [addLabel, if_pos hlabel]
        rfl
      rw [hadd, hbind, hok]
      change Except.bind (match s.labels.find? name with | some _ => _ | none => _) _ = _ ↔ _
      cases hfind : s.labels.find? name with
      | none =>
        have hnew : name ∉ s.labels.keys := fun h => Statement.find?_ne_none_iff.mpr h hfind
        change Except.ok _ = Except.ok _ ↔ _
        rw [Except.ok.injEq]
        simp [hlabel, hname, hnew]
      | some position =>
        have hold : name ∈ s.labels.keys := Statement.find?_ne_none_iff.mp (by simp [hfind])
        refine iff_of_false (fun h => by cases h) fun h => ?_
        exact h.1.2.2 name (by simp [hlabel]) hold
  · have hadd : s.addStatement stmt
        = .ok { s with statements := s.statements ++ [stmt] } := by
      rw [addStatement, addLabel, if_neg hlabel]
      rfl
    rw [hadd, Except.ok.injEq]
    simp [hlabel]

lemma labelsOf_cons (stmt : Statement) (l : List Statement) :
    labelsOf (stmt :: l) = labelsOf [stmt] ++ labelsOf l := by
  rw [labelsOf, labelsOf, labelsOf, ← List.filterMap_append]
  rfl

lemma newLabels_cons {s : Program} {stmt : Statement} {l : List Statement} :
    s.NewLabels (stmt :: l) ↔ s.NewLabels [stmt] ∧ (s.push stmt).NewLabels l := by
  simp only [NewLabels, labelsOf_cons stmt l, List.nodup_append, List.mem_append,
    mem_keys_push, List.forall_mem_cons]
  constructor
  · rintro ⟨⟨h₁, h₂⟩, ⟨h₃, h₄, h₅⟩, h₆⟩
    exact ⟨⟨⟨h₁, nofun⟩, h₃, fun name hname => h₆ name (.inl hname)⟩, h₂, h₄,
      fun name hname hor => hor.elim (h₆ name (.inr hname)) fun h => h₅ name h name hname rfl⟩
  · rintro ⟨⟨⟨h₁, -⟩, h₃, h₇⟩, h₂, h₄, h₈⟩
    exact ⟨⟨h₁, h₂⟩, ⟨h₃, h₄, fun a ha b hb hab => h₈ b hb (.inr (hab ▸ ha))⟩,
      fun name hname hkey => hname.elim (fun h => h₇ name h hkey)
        fun h => h₈ name h (.inl hkey)⟩

/-- **Adding statements** works exactly when their labels are new. -/
lemma foldlM_addStatement {s s' : Program} {l : List Statement} :
    l.foldlM addStatement s = .ok s' ↔ s.NewLabels l ∧ l.foldl push s = s' := by
  induction l generalizing s with
  | nil =>
    change Except.ok s = Except.ok s' ↔ _
    rw [Except.ok.injEq]
    exact (and_iff_right ⟨by simp, by simp [labelsOf], by simp [labelsOf]⟩).symm
  | cons stmt l ih =>
    rw [foldlM_cons_eq_ok, newLabels_cons]
    simp only [addStatement_eq_ok, ih]
    constructor
    · rintro ⟨s₁, ⟨hstmt, rfl⟩, hl, rfl⟩
      exact ⟨⟨hstmt, hl⟩, rfl⟩
    · rintro ⟨⟨hstmt, hl⟩, rfl⟩
      exact ⟨_, ⟨hstmt, rfl⟩, hl, rfl⟩

/-! ### Where the labels are -/

/-- The statement at a position defines the label. -/
def LabelAt (p : Program) (name : Str) (i : ℕ) : Prop :=
  ∃ stmt, p.statements[i]? = some stmt ∧ stmt.isLabel = true ∧ stmt.plainLabel = some name

/-- The table of the labels is right: it gives the positions of the labels, which are all
different. -/
structure LabelTable (p : Program) : Prop where
  find?_iff : ∀ name u, p.labels.find? name = some u ↔ ∃ i, p.LabelAt name i ∧ u = UInt32.ofNat i
  unique : ∀ name i j, p.LabelAt name i → p.LabelAt name j → i = j

lemma getElem?_concat {α : Type*} {l : List α} {a x : α} {i : ℕ} :
    (l ++ [a])[i]? = some x ↔ l[i]? = some x ∨ (i = l.length ∧ x = a) := by
  rcases Nat.lt_trichotomy i l.length with h | rfl | h
  · rw [List.getElem?_append_left h]
    exact (or_iff_left fun h' => absurd h'.1 (Nat.ne_of_lt h)).symm
  · rw [List.getElem?_concat_length, List.getElem?_eq_none le_rfl, Option.some.injEq]
    exact ⟨fun h => .inr ⟨rfl, h.symm⟩, fun h => h.elim nofun fun h => h.2.symm⟩
  · rw [List.getElem?_eq_none (by rw [List.length_append, List.length_singleton]; omega),
      List.getElem?_eq_none (Nat.le_of_lt h)]
    exact iff_of_false nofun fun h' => h'.elim nofun fun h' => absurd h'.1 (Nat.ne_of_gt h)

lemma mem_labelsOf_singleton {stmt : Statement} {name : Str} :
    name ∈ labelsOf [stmt] ↔ stmt.isLabel = true ∧ stmt.plainLabel = some name := by
  rw [labelsOf, List.mem_filterMap]
  simp

lemma labelAt_push {p : Program} {stmt : Statement} {name : Str} {i : ℕ} :
    (p.push stmt).LabelAt name i ↔
      p.LabelAt name i ∨ (i = p.statements.length ∧ name ∈ labelsOf [stmt]) := by
  rw [mem_labelsOf_singleton]
  constructor
  · rintro ⟨x, hx, hlabel⟩
    rcases getElem?_concat.mp hx with hx | ⟨hi, rfl⟩
    · exact .inl ⟨x, hx, hlabel⟩
    · exact .inr ⟨hi, hlabel⟩
  · rintro (⟨x, hx, hlabel⟩ | ⟨hi, hlabel⟩)
    · exact ⟨x, getElem?_concat.mpr (.inl hx), hlabel⟩
    · exact ⟨stmt, getElem?_concat.mpr (.inr ⟨hi, rfl⟩), hlabel⟩

lemma LabelAt.lt {p : Program} {name : Str} {i : ℕ} (h : p.LabelAt name i) :
    i < p.statements.length := by
  obtain ⟨stmt, hstmt, -⟩ := h
  exact (List.getElem?_eq_some_iff.mp hstmt).1

/-- A label of the program is in the table. -/
lemma LabelTable.mem_keys {p : Program} (hp : p.LabelTable) {name : Str} {i : ℕ}
    (h : p.LabelAt name i) : name ∈ p.labels.keys :=
  SortedMap.mem_keys_iff.mpr
    ⟨_, SortedMap.find?_eq_some_iff.mp ((hp.find?_iff name _).mpr ⟨i, h, rfl⟩)⟩

lemma find?_labels_push {p : Program} {stmt : Statement} (hnew : p.NewLabels [stmt])
    (name : Str) : (p.push stmt).labels.find? name
      = if name ∈ labelsOf [stmt] then some (UInt32.ofNat p.statements.length)
        else p.labels.find? name := by
  have hkeys : ((labelsOf [stmt]).map fun name =>
      (name, UInt32.ofNat p.statements.length)).map Prod.fst = labelsOf [stmt] := by
    rw [List.map_map]
    exact List.map_id _
  rw [push]
  split
  · rename_i hname
    exact SortedMap.find?_insertAll_of_mem (by rw [hkeys]; exact hnew.2.1)
      (List.mem_map.mpr ⟨name, hname, rfl⟩)
  · rename_i hname
    exact SortedMap.find?_insertAll_of_notMem (by rwa [hkeys])

lemma LabelTable.push {p : Program} (hp : p.LabelTable) {stmt : Statement}
    (hnew : p.NewLabels [stmt]) : (p.push stmt).LabelTable where
  find?_iff name u := by
    rw [find?_labels_push hnew]
    split
    · rename_i hname
      rw [Option.some.injEq]
      constructor
      · rintro rfl
        exact ⟨_, labelAt_push.mpr (.inr ⟨rfl, hname⟩), rfl⟩
      · rintro ⟨i, hi, rfl⟩
        rcases labelAt_push.mp hi with hi | ⟨rfl, -⟩
        · exact absurd (hp.mem_keys hi) (hnew.2.2 name hname)
        · rfl
    · rename_i hname
      simp only [hp.find?_iff, labelAt_push, hname, and_false, or_false]
  unique name i j hi hj := by
    rcases labelAt_push.mp hi with hi | ⟨rfl, hname⟩ <;>
      rcases labelAt_push.mp hj with hj | ⟨rfl, hname'⟩
    · exact hp.unique name i j hi hj
    · exact absurd (hp.mem_keys hi) (hnew.2.2 name hname')
    · exact absurd (hp.mem_keys hj) (hnew.2.2 name hname)
    · rfl

lemma LabelTable.foldl_push {p : Program} (hp : p.LabelTable) {l : List Statement}
    (hnew : p.NewLabels l) : (l.foldl Program.push p).LabelTable := by
  induction l generalizing p with
  | nil => exact hp
  | cons stmt l ih =>
    obtain ⟨hstmt, hl⟩ := newLabels_cons.mp hnew
    exact ih (hp.push hstmt) hl

lemma labelTable_empty : ({} : Program).LabelTable where
  find?_iff name u := iff_of_false (by simp [SortedMap.find?]) fun ⟨_, ⟨_, h, _⟩, _⟩ => by cases h
  unique _ _ _ h := absurd h.lt (Nat.not_lt_zero _)

lemma statements_foldl_push (p : Program) (l : List Statement) :
    (l.foldl push p).statements = p.statements ++ l := by
  induction l generalizing p with
  | nil => exact (List.append_nil _).symm
  | cons stmt l ih =>
    rw [List.foldl_cons, ih, push, List.append_assoc, List.singleton_append]

lemma addStatement_ne_outOfFuel (s : Program) (stmt : Statement) :
    s.addStatement stmt ≠ .error .outOfFuel := by
  refine bind_ne_error ?_ fun _ _ h => by cases h
  rw [addLabel]
  split
  · refine bind_ne_error ?_ fun name _ => ?_
    · rw [Statement.labelName]
      split
      · simp
      · split <;> simp
      · simp
    · split <;> simp
  · simp

end Program

end EventDispatcher.Reporter
