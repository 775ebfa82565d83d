import EventDispatcher.Lib.Outcome
import EventDispatcher.Script.State

/-!
# The parameters of a statement

Before an instruction runs, the expressions of its statement are computed and become variables
(`evaluate`), whose types are compared with the declarations of the instruction (`parametersOf`).
So the parameters that an instruction gets are `Typed`, and a function that uses one of them as a
variable of the class of its declaration is defined.
-/

namespace EventDispatcher.Script

open Lib Reporter

/-! ## Expressions -/

section Evaluation

variable (A : Arithmetic) (s : ScriptState)

/-- `compute()` of an expression; the list and the array are in `evaluate`. -/
def compute (e : Expression) : Except Halted Value :=
  within .ofStop (e.compute (s.surroundings A))

/-- `compute()` of an item of a list, which may have no value. -/
def computeItem (item : ListItem) : Except Halted (Token × Option Value) :=
  match item.value with
  | none => .ok (item.name, none)
  | some e => do
    let v ← compute A s e
    return (item.name, some v)

/-- `primary_to_variable()` -/
def toVariable (v : Value) : Except Halted VariableValue :=
  within .ofThrown (s.primaryToVariable A.toConversions v)

/-- The variable of an item of a list. -/
def itemVariable : Option Value → Except Halted VariableValue
  | none => .ok (.other "void".toList)
  | some v => toVariable A s v

/-- `variable_list::add_item()` -/
def addItem (items : VariableList) (name : Str) (v : VariableValue) : Except Halted VariableList :=
  match items.find? name with
  | some _ => raise ("variable_list::add_item() trying to re-add item named \"".toList ++ name
      ++ "\".".toList)
  | none => .ok (items.insert name v)

/-- The loop over the items of a list. -/
def toList (items : VariableList) : List (Token × Option Value) → Except Halted VariableList
  | [] => .ok items
  | (name, value) :: rest =>
    if name.token ≠ .identifier then
      .error (.raised (.exception ⟨.implementationError,
        "OPERATOR_NAMED first item is not an identifier.".toList⟩))
    else do
      let v ← itemVariable A s value
      let items ← addItem items name.string v
      toList items rest

/-- The value of a parameter, as a variable. -/
def evaluate : Argument → Except Halted Variable
  | .expression e => do
    let v ← compute A s e
    let v ← toVariable A s v
    return .value v
  | .list items => do
    let values ← items.mapM (computeItem A s)
    let items ← toList A s ∅ values
    return .list items
  | .array items => do
    let values ← items.mapM (compute A s)
    let items ← values.mapM (toVariable A s)
    return .array items

end Evaluation

/-! ## The parameters -/

/-- `f_parameters` -/
abbrev Parameters := List (Str × Variable)

/-- The parameters of a statement: the values of those that it gives, in the order of their
declarations. -/
def parametersOf (evaluate : Argument → Except Halted Variable) (stmt : Statement) :
    List ParameterDeclaration → Except Halted Parameters
  | [] => .ok []
  | decl :: decls =>
    match stmt.getParameter decl.name with
    | none =>
      if decl.required then
        raise ("parameter \"".toList ++ decl.name ++ "\" was expected for instruction \"".toList
          ++ stmt.instruction.name ++ "\".".toList)
      else parametersOf evaluate stmt decls
    | some value => do
      let param ← evaluate value
      if typeMatches decl.type param.toControl then
        (parametersOf evaluate stmt decls).map ((decl.name, param) :: ·)
      else
        raise (stmt.location ++ "parameter type mismatch for ".toList ++ decl.name
          ++ ", expected \"".toList ++ decl.type ++ "\", got \"".toList ++ param.type
          ++ "\" instead.".toList)

namespace Parameters

/-- `get_parameter()` -/
def get (params : Parameters) (name : String) : Option Variable := params.lookup name.toList

/-- `get_parameter()` of a parameter that is required -/
def required (params : Parameters) (name : String) : Except Halted Variable :=
  match params.get name with
  | none => .error (.missing name.toList)
  | some v => .ok v

end Parameters

/-! ## Casts -/

/-- The value of a `variable_string`. -/
def asString : Variable → Except Halted Str
  | .value (.string s) => .ok s
  | .value (.identifier s) => .ok s
  | _ => .error .wrongClass

/-- The value of a `variable_integer`. -/
def asInteger : Variable → Except Halted Int64
  | .value (.integer n) => .ok n
  | _ => .error .wrongClass

/-- The value of a `variable_address`. -/
def asAddress : Variable → Except Halted Addr
  | .value (.address a) => .ok a
  | _ => .error .wrongClass

/-- The items of a `variable_list`. -/
def asList : Variable → Except Halted VariableList
  | .list items => .ok items
  | _ => .error .wrongClass

/-- The items of a `variable_array`. -/
def asArray : Variable → Except Halted (List VariableValue)
  | .array items => .ok items
  | _ => .error .wrongClass

/-- The duration of a `variable_integer` or a `variable_floating_point`. -/
def asDuration (C : Conversions) : Variable → Except Halted TimespecEx
  | .value (.integer n) => .ok (n, 0)
  | .value (.floatingPoint d) => .ok (C.timespecEx d)
  | _ => .error .wrongClass

namespace Parameters

variable {α : Type}

/-- A parameter that is required, as a variable of a class. -/
def given (cast : Variable → Except Halted α) (params : Parameters) (name : String) :
    Except Halted α := do
  let v ← params.required name
  cast v

/-- A parameter that is optional, as a variable of a class. -/
def optional (cast : Variable → Except Halted α) (params : Parameters) (name : String) :
    Except Halted (Option α) :=
  match params.get name with
  | none => .ok none
  | some v => (cast v).map some

end Parameters

/-! ## The types of the parameters -/

/-- The execution stops for another reason than the instruction pointer, the stack, the class of a
variable, a parameter that is missing or the table of the instructions. -/
def Ordinary : Halted → Prop
  | .raised _ | .arithmetic _ | .pastTheEnd | .notOrdered | .waiting => True
  | .done | .missing _ | .outOfRange _ | .emptyStack | .wrongClass | .unknown => False

/-- The type that a parameter is declared with. -/
def typeOf (decls : List ParameterDeclaration) (name : Str) : Option Str :=
  (decls.find? fun d => d.name = name).map ParameterDeclaration.type

/-- The type that a parameter is declared with, when it is required. -/
def requiredTypeOf (decls : List ParameterDeclaration) (name : Str) : Option Str :=
  (decls.find? fun d => d.name = name).bind fun d => if d.required then some d.type else none

/-- The variable has a type that a declaration accepts, and the class of its type. -/
def Accepted (type : Str) (v : Variable) : Prop :=
  typeMatches type v.toControl = true ∧ v.Formed

/-- The parameters have the types of their declarations. -/
def Typed (decls : List ParameterDeclaration) (params : Parameters) : Prop :=
  ∀ param ∈ params, ∃ type, typeOf decls param.1 = some type ∧ Accepted type param.2

lemma Typed.lookup {decls : List ParameterDeclaration} {params : Parameters}
    (h : Typed decls params) {name : Str} {v : Variable} (hv : params.lookup name = some v) :
    ∃ type, typeOf decls name = some type ∧ Accepted type v := by
  obtain ⟨l₁, l₂, rfl, -⟩ := List.lookup_eq_some_iff.mp hv
  exact h (name, v) (List.mem_append_right _ List.mem_cons_self)

/-- The parameters are those that the declarations ask for. -/
structure Declared (decls : List ParameterDeclaration) (params : Parameters) : Prop where
  typed : Typed decls params
  complete : ∀ d ∈ decls, d.required → d.name ∈ params.map Prod.fst

/-- A parameter that is required is there, with its type. -/
lemma Declared.lookup_of_required {decls : List ParameterDeclaration} {params : Parameters}
    (h : Declared decls params) {name type : Str} (htype : requiredTypeOf decls name = some type) :
    typeOf decls name = some type ∧ ∃ v, params.lookup name = some v := by
  obtain ⟨d, hd, hrequired⟩ := Option.bind_eq_some_iff.mp htype
  split_ifs at hrequired with hd'
  have hname : d.name = name := by simpa using List.find?_some hd
  refine ⟨by rw [typeOf, hd, Option.map_some, hrequired], ?_⟩
  rw [← Option.ne_none_iff_exists', ne_eq, List.lookup_eq_none_iff]
  intro hnone
  obtain ⟨param, hparam, hparam'⟩ :=
    List.mem_map.mp (h.complete d (List.mem_of_find?_eq_some hd) hd')
  exact bne_iff_ne.mp (hnone param hparam) (hname.symm.trans hparam'.symm)

/-- A cast is defined on the variables that a declaration accepts. -/
def Casts {α : Type} (type : String) (cast : Variable → Except Halted α) : Prop :=
  ∀ v, Accepted type.toList v → ∃ a, cast v = .ok a

lemma Accepted.type_eq {type : Str} {v : Variable} (h : Accepted type v) :
    v.type = type ∨ type = "any".toList ∨
      (type = "number".toList ∧ (v.type = "integer".toList ∨ v.type = "floating_point".toList)) ∨
      (type = "string_or_identifier".toList ∧
        (v.type = "identifier".toList ∨ v.type = "string".toList)) := by
  obtain ⟨h, -⟩ := h
  simp only [typeMatches, Variable.type_toControl, Bool.or_eq_true, Bool.and_eq_true,
    decide_eq_true_eq] at h
  rcases h with ((h | h) | h) | h
  · exact .inl h.symm
  · exact .inr (.inl h)
  · exact .inr (.inr (.inl h))
  · exact .inr (.inr (.inr h))

/-! The class of a variable, from its type. -/

section Classes

/-- The types of the variables, without `void`. -/
def variableTypes : List String :=
  ["string", "identifier", "integer", "floating_point", "regex", "timestamp", "address", "list",
    "array"]

variable {v : Variable} (hv : v.Formed)
include hv

lemma type_mem_variableTypes : v.type ∈ variableTypes.map String.toList := by
  rcases v with (_ | _ | _ | _ | _ | _ | _ | type) | _ | _
  case value.other => exact absurd rfl (hv type)
  all_goals exact List.mem_map_of_mem (by decide)

lemma exists_asString (h : v.type = "string".toList ∨ v.type = "identifier".toList) :
    ∃ s, asString v = .ok s := by
  rcases v with (s | s | _ | _ | _ | _ | _ | type) | _ | _
  case value.string => exact ⟨s, rfl⟩
  case value.identifier => exact ⟨s, rfl⟩
  case value.other => exact absurd rfl (hv type)
  all_goals rcases h with h | h <;> cases h

lemma exists_asInteger (h : v.type = "integer".toList) : ∃ n, v = .value (.integer n) := by
  rcases v with (_ | _ | n | _ | _ | _ | _ | type) | _ | _
  case value.integer => exact ⟨n, rfl⟩
  case value.other => exact absurd rfl (hv type)
  all_goals cases h

lemma exists_floatingPoint (h : v.type = "floating_point".toList) :
    ∃ d, v = .value (.floatingPoint d) := by
  rcases v with (_ | _ | _ | d | _ | _ | _ | type) | _ | _
  case value.floatingPoint => exact ⟨d, rfl⟩
  case value.other => exact absurd rfl (hv type)
  all_goals cases h

lemma exists_asAddress (h : v.type = "address".toList) : ∃ a, asAddress v = .ok a := by
  rcases v with (_ | _ | _ | _ | _ | _ | a | type) | _ | _
  case value.address => exact ⟨a, rfl⟩
  case value.other => exact absurd rfl (hv type)
  all_goals cases h

lemma exists_asList (h : v.type = "list".toList) : ∃ items, asList v = .ok items := by
  rcases v with (_ | _ | _ | _ | _ | _ | _ | type) | items | _
  case list => exact ⟨items, rfl⟩
  case value.other => exact absurd rfl (hv type)
  all_goals cases h

lemma exists_asArray (h : v.type = "array".toList) : ∃ items, asArray v = .ok items := by
  rcases v with (_ | _ | _ | _ | _ | _ | _ | type) | _ | items
  case array => exact ⟨items, rfl⟩
  case value.other => exact absurd rfl (hv type)
  all_goals cases h

end Classes

/-- A declaration of one type alone. -/
lemma Accepted.type_of_plain {type : Str} {v : Variable} (h : Accepted type v)
    (hplain : type ≠ "any".toList ∧ type ≠ "number".toList ∧
      type ≠ "string_or_identifier".toList) : v.type = type := by
  rcases h.type_eq with h | h | h | h
  · exact h
  · exact absurd h hplain.1
  · exact absurd h.1 hplain.2.1
  · exact absurd h.1 hplain.2.2

lemma casts_string : Casts "string" asString := fun _ h =>
  exists_asString h.2 (.inl (h.type_of_plain (by decide)))

lemma casts_identifier : Casts "identifier" asString := fun _ h =>
  exists_asString h.2 (.inr (h.type_of_plain (by decide)))

lemma casts_string_or_identifier : Casts "string_or_identifier" asString := fun v h => by
  rcases h.type_eq with htype | htype | htype | htype
  · exact absurd (htype ▸ type_mem_variableTypes h.2) (by decide)
  · exact absurd htype (by decide)
  · exact absurd htype.1 (by decide)
  · exact exists_asString h.2 htype.2.symm

lemma casts_integer : Casts "integer" asInteger := fun _ h => by
  obtain ⟨n, rfl⟩ := exists_asInteger h.2 (h.type_of_plain (by decide))
  exact ⟨n, rfl⟩

lemma casts_duration (C : Conversions) : Casts "number" (asDuration C) := fun v h => by
  rcases h.type_eq with htype | htype | ⟨-, htype | htype⟩ | htype
  · exact absurd (htype ▸ type_mem_variableTypes h.2) (by decide)
  · exact absurd htype (by decide)
  · obtain ⟨n, rfl⟩ := exists_asInteger h.2 htype
    exact ⟨_, rfl⟩
  · obtain ⟨d, rfl⟩ := exists_floatingPoint h.2 htype
    exact ⟨_, rfl⟩
  · exact absurd htype.1 (by decide)

lemma casts_address : Casts "address" asAddress := fun _ h =>
  exists_asAddress h.2 (h.type_of_plain (by decide))

lemma casts_list : Casts "list" asList := fun _ h =>
  exists_asList h.2 (h.type_of_plain (by decide))

lemma casts_array : Casts "array" asArray := fun _ h =>
  exists_asArray h.2 (h.type_of_plain (by decide))

/-! ## What the parameters ensure -/

section Given

variable {α : Type} {decls : List ParameterDeclaration} {params : Parameters} {type : String}
  {cast : Variable → Except Halted α}

/-- A parameter that is given, with the value of its class. -/
def Gives (cast : Variable → Except Halted α) (params : Parameters) (name : String) (a : α) :
    Prop :=
  ∃ v, params.get name = some v ∧ cast v = .ok a

lemma ensures_cast (hcast : Casts type cast) (h : Declared decls params) {name : String}
    (htype : typeOf decls name.toList = some type.toList) {v : Variable}
    (hv : params.get name = some v) :
    Ensures (cast v) (fun a => Gives cast params name a) Ordinary := by
  obtain ⟨type', htype', haccepted⟩ := h.typed.lookup hv
  rw [htype, Option.some.injEq] at htype'
  subst htype'
  obtain ⟨a, ha⟩ := hcast v haccepted
  rw [ha]
  exact ⟨v, hv, ha⟩

lemma ensures_required (h : Declared decls params) {name : String} {type : Str}
    (htype : requiredTypeOf decls name.toList = some type) :
    Ensures (params.required name) (fun v => params.get name = some v) Ordinary := by
  obtain ⟨-, v, hv⟩ := h.lookup_of_required htype
  rw [Parameters.required, show params.get name = some v from hv]
  exact rfl

/-- **A parameter that is required** has its value. -/
lemma ensures_given (hcast : Casts type cast) (h : Declared decls params) {name : String}
    (htype : requiredTypeOf decls name.toList = some type.toList) :
    Ensures (params.given cast name) (fun a => Gives cast params name a) Ordinary :=
  (ensures_required h htype).bind fun _ hv =>
    ensures_cast hcast h (h.lookup_of_required htype).1 hv

/-- **A parameter that is optional** has its value when it is there. -/
lemma ensures_optional (hcast : Casts type cast) (h : Declared decls params) {name : String}
    (htype : typeOf decls name.toList = some type.toList) :
    Ensures (params.optional cast name) (fun a => ∀ b, a = some b → Gives cast params name b)
      Ordinary := by
  rw [Parameters.optional]
  cases hv : params.get name with
  | none => exact fun b hb => absurd hb.symm (Option.some_ne_none b)
  | some v =>
    refine (ensures_cast hcast h htype hv).map fun a ha b hb => ?_
    rwa [← Option.some.inj hb]

end Given

/-! ## Where the parameters come from -/

section Statements

variable {evaluate : Argument → Except Halted Variable} {stmt : Statement}
  {decls : List ParameterDeclaration} {params : Parameters}

/-- What is known of the parameters of a statement: each one that it gives and that is declared,
with its value. -/
structure GivenBy (evaluate : Argument → Except Halted Variable) (stmt : Statement)
    (decls : List ParameterDeclaration) (params : Parameters) : Prop where
  sublist : (params.map Prod.fst).Sublist (decls.map ParameterDeclaration.name)
  values : ∀ param ∈ params, ∃ value, stmt.getParameter param.1 = some value ∧
    evaluate value = .ok param.2
  given : ∀ d ∈ decls, (stmt.getParameter d.name).isSome → d.name ∈ params.map Prod.fst
  required : ∀ d ∈ decls, d.required → d.name ∈ params.map Prod.fst

lemma givenBy_of_parametersOf (h : parametersOf evaluate stmt decls = .ok params) :
    GivenBy evaluate stmt decls params := by
  induction decls generalizing params with
  | nil =>
    cases h
    exact ⟨List.Sublist.slnil, by simp, by simp, by simp⟩
  | cons decl decls ih =>
    rw [parametersOf] at h
    cases hvalue : stmt.getParameter decl.name with
    | none =>
      rw [hvalue] at h
      dsimp only at h
      split_ifs at h with hrequired
      · cases h
      · obtain ⟨hsub, hvalues, hgiven, hneeded⟩ := ih h
        refine ⟨hsub.cons _, hvalues, List.forall_mem_cons.mpr ⟨fun hsome => ?_, hgiven⟩,
          List.forall_mem_cons.mpr ⟨fun hd => absurd hd hrequired, hneeded⟩⟩
        rw [hvalue] at hsome
        cases hsome
    | some value =>
      rw [hvalue] at h
      cases hparam : evaluate value with
      | error e =>
        dsimp only at h
        rw [hparam] at h
        cases h
      | ok param =>
        dsimp only at h
        rw [hparam] at h
        change (if typeMatches decl.type param.toControl then
          (parametersOf evaluate stmt decls).map ((decl.name, param) :: ·) else _) = _ at h
        split_ifs at h
        · cases hrest : parametersOf evaluate stmt decls with
          | error e =>
            rw [hrest] at h
            cases h
          | ok rest =>
            rw [hrest] at h
            cases h
            obtain ⟨hsub, hvalues, hgiven, hneeded⟩ := ih hrest
            refine ⟨hsub.cons_cons _,
              List.forall_mem_cons.mpr ⟨⟨value, hvalue, hparam⟩, hvalues⟩,
              List.forall_mem_cons.mpr ⟨fun _ => List.mem_cons_self, fun d hd hsome =>
                List.mem_cons_of_mem _ (hgiven d hd hsome)⟩,
              List.forall_mem_cons.mpr ⟨fun _ => List.mem_cons_self, fun d hd hrequired =>
                List.mem_cons_of_mem _ (hneeded d hd hrequired)⟩⟩
        · cases h

end Statements

section Evaluation

variable {A : Arithmetic} {s : ScriptState}

lemma ordinary_ofThrown (t : Thrown) : Ordinary (.ofThrown t) := by
  cases t <;> exact trivial

lemma ordinary_ofStop (e : Stop) : Ordinary (.ofStop e) := by
  cases e with
  | thrown t => exact ordinary_ofThrown t
  | undefined u => exact trivial

lemma ensures_within {ε α : Type} {halted : ε → Halted} (h : ∀ e, Ordinary (halted e))
    (x : Except ε α) : Ensures (within halted x) (fun a => x = .ok a) Ordinary := by
  cases x with
  | ok a => exact rfl
  | error e => exact h e

lemma ensures_compute (e : Expression) :
    Ensures (compute A s e) (fun _ => True) Ordinary :=
  (ensures_within ordinary_ofStop _).mono (fun _ _ => trivial) fun _ => id

lemma ensures_mapM {ε α β : Type} {f : α → Except ε β} {ok : β → Prop} {err : ε → Prop}
    (l : List α) (h : ∀ a, Ensures (f a) ok err) :
    Ensures (l.mapM f) (fun bs => ∀ b ∈ bs, ok b) err := by
  induction l with
  | nil => exact fun b hb => absurd hb List.not_mem_nil
  | cons a l ih =>
    rw [List.mapM_cons]
    exact (h a).bind fun b hb => ih.bind fun bs hbs => List.forall_mem_cons.mpr ⟨hb, hbs⟩

lemma primaryToVariable_ne_other {v : Value} {w : VariableValue}
    (h : s.primaryToVariable A.toConversions v = .ok w) (type : Str) : w ≠ .other type := by
  rintro rfl
  rw [ScriptState.primaryToVariable] at h
  split at h
  all_goals try cases h
  rename_i htoken
  cases htext : s.replaceVariables A.toConversions v.string <;> rw [htext] at h <;> cases h

lemma ensures_toVariable (v : Value) :
    Ensures (toVariable A s v) (fun w => ∀ type, w ≠ .other type) Ordinary :=
  (ensures_within ordinary_ofThrown _).mono (fun _ h type => primaryToVariable_ne_other h type)
    fun _ => id

/-- The items of a list are values, or void. -/
lemma ensures_toList (values : List (Token × Option Value)) {items : VariableList}
    (hitems : (Variable.list items).Formed) :
    Ensures (toList A s items values) (fun items => (Variable.list items).Formed) Ordinary := by
  induction values generalizing items with
  | nil => exact hitems
  | cons item values ih =>
    obtain ⟨name, value⟩ := item
    rw [toList]
    refine .ite (fun _ => trivial) fun _ => ?_
    have hvalue : Ensures (itemVariable A s value)
        (fun v => ∀ type, v = .other type → type = "void".toList) Ordinary := by
      cases value with
      | none => exact fun type htype => (VariableValue.other.inj htype).symm
      | some v =>
        exact (ensures_toVariable v).mono (fun w hw type htype => absurd htype (hw type))
          fun _ => id
    refine hvalue.bind fun v hv => Ensures.bind ?_ fun items hitems => ih hitems
    rw [addItem]
    cases items.find? name.string with
    | some _ => exact trivial
    | none =>
      intro item hitem
      rcases SortedMap.mem_insert_iff.mp hitem with ⟨-, rfl⟩ | ⟨-, hold⟩
      · exact hv
      · exact hitems item hold

/-- **The value of a parameter** is a variable of the class of its type. -/
lemma ensures_evaluate (value : Argument) :
    Ensures (evaluate A s value) Variable.Formed Ordinary := by
  cases value with
  | expression e =>
    exact (ensures_compute e).bind fun v _ => (ensures_toVariable v).bind fun w hw => hw
  | list items =>
    have hitem (item : ListItem) : Ensures (computeItem A s item) (fun _ => True) Ordinary := by
      rw [computeItem]
      cases item.value with
      | none => exact trivial
      | some e => exact (ensures_compute e).bind fun _ _ => trivial
    refine (ensures_mapM items hitem).bind fun values _ => ?_
    exact (ensures_toList values fun item hitem => absurd hitem List.not_mem_nil).bind
      fun items hitems => hitems
  | array items =>
    exact (ensures_mapM items ensures_compute).bind fun values _ =>
      (ensures_mapM values ensures_toVariable).bind fun items hitems => hitems

/-- A declaration in front, whose name is no other one's. -/
lemma Typed.cons {decl : ParameterDeclaration} {decls : List ParameterDeclaration}
    {params : Parameters} (h : Typed decls params)
    (hdecl : decl.name ∉ decls.map ParameterDeclaration.name) : Typed (decl :: decls) params := by
  intro param hparam
  obtain ⟨type, htype, haccepted⟩ := h param hparam
  refine ⟨type, ?_, haccepted⟩
  have hne : decl.name ≠ param.1 := by
    intro heq
    obtain ⟨d, hd, -⟩ := Option.map_eq_some_iff.mp htype
    have hname : d.name = param.1 := by simpa using List.find?_some hd
    exact hdecl (List.mem_map.mpr ⟨d, List.mem_of_find?_eq_some hd, hname.trans heq.symm⟩)
  rw [typeOf, List.find?_cons_of_neg (by simpa using hne)]
  exact htype

lemma ensures_typed (stmt : Statement) {decls : List ParameterDeclaration}
    (hdecls : (decls.map ParameterDeclaration.name).Nodup) :
    Ensures (parametersOf (evaluate A s) stmt decls) (Typed decls) Ordinary := by
  induction decls with
  | nil => exact fun param h => absurd h List.not_mem_nil
  | cons decl decls ih =>
    obtain ⟨hdecl, hdecls⟩ := List.nodup_cons.mp hdecls
    rw [parametersOf]
    cases stmt.getParameter decl.name with
    | none =>
      exact .ite (fun _ => trivial) fun _ =>
        (ih hdecls).mono (fun params h => h.cons hdecl) fun _ => id
    | some value =>
      refine (ensures_evaluate value).bind fun param hparam => ?_
      refine .ite (fun hmatches => ?_) fun _ => trivial
      refine (ih hdecls).map fun params hparams => List.forall_mem_cons.mpr
        ⟨⟨decl.type, ?_, hmatches, hparam⟩, hparams.cons hdecl⟩
      rw [typeOf, List.find?_cons_of_pos (by simp)]
      rfl

/-- **The parameters** are those that the declarations ask for. -/
lemma ensures_parametersOf (stmt : Statement) {decls : List ParameterDeclaration}
    (hdecls : (decls.map ParameterDeclaration.name).Nodup) :
    Ensures (parametersOf (evaluate A s) stmt decls) (Declared decls) Ordinary := by
  have htyped := ensures_typed (A := A) (s := s) stmt hdecls
  cases hparams : parametersOf (evaluate A s) stmt decls with
  | ok params =>
    exact ⟨htyped.of_eq_ok hparams, (givenBy_of_parametersOf hparams).required⟩
  | error e => exact htyped.of_eq_error hparams

end Evaluation

end EventDispatcher.Script
