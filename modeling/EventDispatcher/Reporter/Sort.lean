import EventDispatcher.Lib.SortedMap
import EventDispatcher.Reporter.Control

/-!
# Sorting variables

`sort()` puts the values of the listed variables in a `std::map` and writes its keys back, one
for each variable.  A map holds each key once: when a value is repeated the keys run out before
the variables do, and the iterator is read past the end of the map.  The values are sorted exactly
when no two of them are equal (`sort_iff`).
-/

namespace EventDispatcher.Reporter

open Lib

/-- The order of the integers of 64 bits. -/
instance linearOrderInt64 : LinearOrder Int64 :=
  LinearOrder.lift' Int64.toInt fun _ _ => Int64.toInt_inj.mp

namespace InstSort

/-- A variable with its value. -/
inductive Content where
  /-- A `variable_string` of the type `string`. -/
  | string (s : Str)
  | integer (n : Int64)
  | floatingPoint (d : Double)
  /-- A variable of another type. -/
  | other (type : Str)

/-- `variable::get_type()` -/
def Content.type : Content → Str
  | string _ => "string".toList
  | integer _ => "integer".toList
  | floatingPoint _ => "floating_point".toList
  | other type => type

/-- Why `sort()` stops. -/
inductive Halt where
  | thrown (t : Thrown)
  /-- Undefined: a variable is used as one of another class. -/
  | wrongClass
  /-- Undefined: the iterator is read past the end of the map. -/
  | pastTheEnd
  /-- Undefined: the keys of a map compare with a NaN. -/
  | notOrdered
deriving DecidableEq

/-- The state of the instruction: the variables by name. -/
abbrev Vars := SortedMap Str Content

/-- The name of a parameter, `"var" + std::to_string(i)` -/
def varNumber (i : ℕ) : Str := "var".toList ++ (toString i).toList

/-- `g_sort_params` -/
def sortParams : List ParameterDeclaration :=
  (List.range' 1 20).map fun i =>
    { name := varNumber i, type := "string_or_identifier".toList, required := i = 1 }

/-- An `ed::runtime_error`. -/
def throw {α : Type} (what : Str) : Except Halt α := .error (.thrown (.runtimeError what))

/-- The check of the type of one more variable, and the type of the result. -/
def checkType (location resultType type : Str) : Except Halt Str :=
  if resultType = [] then
    if type ≠ "string".toList ∧ type ≠ "integer".toList ∧ type ≠ "floating_point".toList then
      throw (location ++ "sort only supports strings, integers, or floating points.".toList)
    else .ok type
  else if type ≠ resultType then
    throw (location ++ "sort only supports one type of data (\"".toList ++ resultType
      ++ "\" in this case) for all the specified variables. \"".toList ++ type
      ++ "\" is not compatible.".toList)
  else .ok resultType

/-- The loop over the parameters, which stops at the first one that is not given.  A statement has
no other parameters than the declared ones, which the last argument goes through. -/
def collect (location : Str) (vars : Vars) (params : List (Str × Str)) :
    Str → List (Str × Content) → List ParameterDeclaration →
      Except Halt (Str × List (Str × Content))
  | resultType, array, [] => .ok (resultType, array)
  | resultType, array, decl :: decls =>
    match params.lookup decl.name with
    | none => .ok (resultType, array)
    | some name =>
      match vars.find? name with
      | none => throw (location ++ "variable named \"".toList ++ name ++ "\" not found.".toList)
      | some var => do
        let resultType ← checkType location resultType var.type
        collect location vars params resultType (array ++ [(name, var)]) decls

/-- The second loop: each variable takes the key that the iterator is at. -/
def writeBack {κ : Type} (set : κ → Content) : List Str → List κ → Vars → Except Halt Vars
  | [], _, vars => .ok vars
  | _ :: _, [], _ => .error .pastTheEnd
  | name :: names, key :: keys, vars => writeBack set names keys (vars.insert name (set key))

/-- The two loops over the variables of one type. -/
def sortThrough {κ : Type} [LinearOrder κ] (get : Content → Option κ) (set : κ → Content)
    (array : List (Str × Content)) (vars : Vars) : Except Halt Vars :=
  match array.mapM fun a => get a.2 with
  | none => .error .wrongClass
  | some keys =>
    let values : SortedMap κ Bool := (∅ : SortedMap κ Bool).insertAll (keys.map (·, true))
    writeBack set (array.map Prod.fst) values.keys vars

/-- The value of a `variable_string`. -/
def getString : Content → Option Str
  | .string s => some s
  | _ => none

/-- The value of a `variable_integer`. -/
def getInteger : Content → Option Int64
  | .integer n => some n
  | _ => none

/-- The place of a double precision number in the order, a NaN having none. -/
def place : Double → Option (WithBot (WithTop ℚ))
  | none => none
  | some (.finite q) => some (some (some q))
  | some (.infinite true) => some ⊥
  | some (.infinite false) => some (some ⊤)

/-- The number at a place. -/
def ofPlace : WithBot (WithTop ℚ) → Double
  | none => some (.infinite true)
  | some none => some (.infinite false)
  | some (some q) => some (.finite q)

/-- The place of the value of a `variable_floating_point`. -/
def getFloatingPoint : Content → Option (WithBot (WithTop ℚ))
  | .floatingPoint d => place d
  | _ => none

/-- The variable holds a NaN. -/
def isNaN : Content → Bool
  | .floatingPoint none => true
  | _ => false

/-- `inst_sort::func()` -/
def func (location : Str) (params : List (Str × Str)) (vars : Vars) : Except Halt Vars := do
  let (resultType, array) ← collect location vars params [] [] sortParams
  if resultType = "string".toList then
    sortThrough getString .string array vars
  else if resultType = "integer".toList then
    sortThrough getInteger .integer array vars
  else if resultType = "floating_point".toList then
    -- a NaN is only compared when there is another value
    if 1 < array.length && array.any fun a => isNaN a.2 then .error .notOrdered
    else if array.any fun a => isNaN a.2 then .ok vars
    else sortThrough getFloatingPoint (fun k => .floatingPoint (ofPlace k)) array vars
  else .ok vars

/-! ## What is sorted -/

/-- The parameters of `sort(var1: …, varn: …)`. -/
def parametersFor (names : List Str) : List (Str × Str) :=
  (sortParams.map ParameterDeclaration.name).zip names

/-- The variables with the names hold the values, in the order of the two lists. -/
def Holds {κ : Type} (set : κ → Content) (vars : Vars) (names : List Str)
    (values : List κ) : Prop :=
  names.map vars.find? = values.map fun k => some (set k)

/-- After the instruction the variables hold their values in order. -/
def Sorts {κ : Type} [LinearOrder κ] (set : κ → Content) (location : Str) (names : List Str)
    (values : List κ) (vars : Vars) : Prop :=
  ∃ vars' sorted, func location (parametersFor names) vars = .ok vars' ∧
    Holds set vars' names sorted ∧ sorted.Perm values ∧ sorted.Pairwise (· ≤ ·)

/-! ## The loops -/

/-- The values that a list of keys is zipped with, and nothing behind them. -/
lemma map_lookup_zip : ∀ {keys : List Str} {names : List Str}, keys.Nodup →
    names.length ≤ keys.length → keys.map (fun k => (keys.zip names).lookup k) =
      names.map some ++ List.replicate (keys.length - names.length) none
  | keys, [], _, _ => by simp
  | key :: keys, name :: names, hkeys, hle => by
    obtain ⟨hkey, hkeys⟩ := List.nodup_cons.mp hkeys
    have hrest : keys.map (fun k => ((key, name) :: keys.zip names).lookup k)
        = keys.map fun k => (keys.zip names).lookup k := by
      refine List.map_congr_left fun k hk => ?_
      have hne : (k == key) = false := by
        rw [beq_eq_false_iff_ne]
        exact fun h => hkey (h ▸ hk)
      rw [List.lookup_cons, hne]
    rw [List.zip_cons_cons, List.map_cons, hrest,
      map_lookup_zip hkeys (Nat.le_of_succ_le_succ hle), List.lookup_cons_self]
    simp

/-- The type check of a value of the type of the result. -/
lemma checkType_self (location : Str) {resultType type : Str}
    (htype : type = "string".toList ∨ type = "integer".toList)
    (hresult : resultType = [] ∨ resultType = type) :
    checkType location resultType type = .ok type := by
  rcases hresult with rfl | rfl
  · rw [checkType, if_pos rfl, if_neg fun h => htype.elim h.1 h.2.1]
  · have hne : resultType ≠ [] := by
      rintro rfl
      rcases htype with h | h <;> cases h
    rw [checkType, if_neg hne, if_neg (fun h => h rfl)]

section Loops

variable {κ : Type} {set : κ → Content} {location type : Str} {vars : Vars}

/-- The first loop, over variables of one type. -/
lemma collect_eq (htype : type = "string".toList ∨ type = "integer".toList)
    (hset : ∀ k, (set k).type = type) {params : List (Str × Str)} :
    ∀ {decls : List ParameterDeclaration} {names : List Str} {values : List κ} {resultType : Str},
      decls.map (fun decl => params.lookup decl.name)
        = names.map some ++ List.replicate (decls.length - names.length) none →
      Holds set vars names values → (resultType = [] ∨ resultType = type) →
      ∀ array, collect location vars params resultType array decls =
        .ok (if names = [] then resultType else type, array ++ names.zip (values.map set))
  | [], [], _, _, _, _, _, _ => by simp [collect]
  | [], _ :: _, _, _, hlookup, _, _, _ => by simp at hlookup
  | decl :: decls, [], _, _, hlookup, _, _, _ => by
    have hnone : params.lookup decl.name = none := by
      simpa [List.replicate_succ] using (List.cons.inj hlookup).1
    rw [collect, hnone]
    simp
  | decl :: decls, name :: names, [], _, _, hvalues, _, _ => by cases hvalues
  | decl :: decls, name :: names, value :: values, _, hlookup, hvalues, hresult, array => by
    obtain ⟨hhead, hlookup⟩ := List.cons.inj hlookup
    obtain ⟨hvalue, hvalues⟩ := List.cons.inj hvalues
    have hname : params.lookup decl.name = some name := hhead
    have hcheck := checkType_self location htype hresult
    have hrest := collect_eq htype hset (by simpa using hlookup) hvalues (.inr rfl)
      (array ++ [(name, set value)])
    rw [collect, hname]
    simp only [hvalue, hset, hcheck]
    refine hrest.trans ?_
    simp

/-- The second loop writes all the variables when there are keys for them. -/
lemma writeBack_eq : ∀ (names : List Str) (keys : List κ) (vars : Vars),
    writeBack set names keys vars =
      if names.length ≤ keys.length then .ok (vars.insertAll (names.zip (keys.map set)))
      else .error .pastTheEnd
  | [], _, vars => by simp [writeBack]
  | _ :: _, [], _ => rfl
  | name :: names, key :: keys, vars => by
    rw [writeBack, writeBack_eq names keys]
    simp

/-- The values of the variables of one type. -/
lemma mapM_get {get : Content → Option κ} (hget : ∀ k, get (set k) = some k) :
    ∀ {names : List Str} {values : List κ}, names.length = values.length →
      (names.zip (values.map set)).mapM (fun a => get a.2) = some values
  | [], [], _ => rfl
  | name :: names, value :: values, h => by
    rw [List.map_cons, List.zip_cons_cons, List.mapM_cons, hget,
      mapM_get hget (Nat.succ.inj h)]
    rfl

/-- Variables with different names hold what is written to them. -/
lemma holds_insertAll {names : List Str} {values : List κ} (hnames : names.Nodup)
    (hlen : names.length = values.length) :
    Holds set (vars.insertAll (names.zip (values.map set))) names values := by
  have hlen' : names.length = (values.map set).length := by rw [hlen, List.length_map]
  have hkeys : (names.zip (values.map set)).map Prod.fst = names := List.map_fst_zip hlen'.le
  have hvalues : (names.zip (values.map set)).map Prod.snd = values.map set :=
    List.map_snd_zip hlen'.ge
  set l := names.zip (values.map set)
  calc names.map (vars.insertAll l).find?
      = l.map ((vars.insertAll l).find? ∘ Prod.fst) := by rw [← List.map_map, hkeys]
    _ = l.map (some ∘ Prod.snd) := List.map_congr_left fun e he =>
        SortedMap.find?_insertAll_of_mem (hkeys.symm ▸ hnames) he
    _ = values.map fun k => some (set k) := by
        rw [← List.map_map, hvalues, List.map_map]
        rfl

lemma map_fst_values (values : List κ) :
    (values.map fun k => (k, true)).map Prod.fst = values := by
  rw [List.map_map]
  exact List.map_id values

lemma Holds.length_eq {names : List Str} {values : List κ} (h : Holds set vars names values) :
    names.length = values.length := by
  simpa using congrArg List.length h

variable [LinearOrder κ]

/-- The keys of the map that the values are put in. -/
def keysOf (values : List κ) : List κ :=
  ((∅ : SortedMap κ Bool).insertAll (values.map (·, true))).keys

/-- There is a key for each variable exactly when no value is repeated. -/
lemma length_le_keysOf_iff (values : List κ) :
    values.length ≤ (keysOf values).length ↔ values.Nodup := by
  have h := SortedMap.length_le_keys_iff (l := values.map fun k => (k, true))
  rwa [List.length_map, map_fst_values] at h

/-- Values that are not repeated are sorted by the map. -/
lemma keysOf_perm {values : List κ} (h : values.Nodup) : (keysOf values).Perm values := by
  have hperm := SortedMap.keys_ofEntries_perm (l := values.map fun k => (k, true))
    (by rwa [map_fst_values])
  rwa [map_fst_values] at hperm

/-- The two loops, over variables of one type. -/
lemma sortThrough_eq {get : Content → Option κ} (hget : ∀ k, get (set k) = some k)
    {names : List Str} {values : List κ} (hlen : names.length = values.length) :
    sortThrough get set (names.zip (values.map set)) vars =
      if values.length ≤ (keysOf values).length then
        .ok (vars.insertAll (names.zip ((keysOf values).map set)))
      else .error .pastTheEnd := by
  have hnames : (names.zip (values.map set)).map Prod.fst = names :=
    List.map_fst_zip (by rw [List.length_map, hlen])
  rw [sortThrough, mapM_get hget hlen]
  simp only [hnames]
  rw [← keysOf, writeBack_eq, hlen]

/-- **The sort** of variables of one type, when the instruction goes through their map. -/
lemma sorts_iff_of_func (get : Content → Option κ) (hget : ∀ k, get (set k) = some k)
    {names : List Str} {values : List κ} (hvalues : Holds set vars names values)
    (hfunc : func location (parametersFor names) vars
      = sortThrough get set (names.zip (values.map set)) vars) :
    Sorts set location names values vars ↔ values.Nodup := by
  have hlen := hvalues.length_eq
  rw [sortThrough_eq hget hlen] at hfunc
  constructor
  · rintro ⟨vars', sorted, hok, -⟩
    rw [hfunc] at hok
    split at hok
    · rename_i hle
      exact (length_le_keysOf_iff values).mp hle
    · cases hok
  · intro h
    rw [if_pos ((length_le_keysOf_iff values).mpr h)] at hfunc
    have hperm := keysOf_perm h
    have hinj : Function.Injective fun k => some (set k) := fun a b hab => by
      have := congrArg get (Option.some.inj hab)
      rw [hget, hget] at this
      exact Option.some.inj this
    have hnames : names.Nodup := List.Nodup.of_map _ (hvalues ▸ h.map hinj)
    exact ⟨_, keysOf values, hfunc, holds_insertAll hnames (hlen.trans hperm.length_eq.symm),
      hperm, (SortedMap.keys_pairwise _).imp le_of_lt⟩

end Loops

/-! ## The instruction -/

/-- The first loop of `sort(var1: …, varn: …)` -/
lemma collect_parametersFor {κ : Type} {set : κ → Content} {location type : Str} {vars : Vars}
    (htype : type = "string".toList ∨ type = "integer".toList) (hset : ∀ k, (set k).type = type)
    {names : List Str} {values : List κ} (hlen : names.length ≤ 20)
    (hvalues : Holds set vars names values) :
    collect location vars (parametersFor names) [] [] sortParams =
      .ok (if names = [] then [] else type, names.zip (values.map set)) := by
  have hkeys : (sortParams.map ParameterDeclaration.name).Nodup := by decide
  have hle : names.length ≤ (sortParams.map ParameterDeclaration.name).length := by
    simpa [sortParams] using hlen
  have hlookup := map_lookup_zip hkeys hle
  rw [List.map_map, List.length_map] at hlookup
  exact collect_eq htype hset hlookup hvalues (.inl rfl) []

/-- **`sort()` sorts** strings, or integers, exactly when no value is repeated. -/
theorem sort_iff (location : Str) (names : List Str) (hlen : names.length ≤ 20) (vars : Vars) :
    (∀ values : List Str, Holds .string vars names values →
        (Sorts .string location names values vars ↔ values.Nodup)) ∧
      ∀ values : List Int64, Holds .integer vars names values →
        (Sorts .integer location names values vars ↔ values.Nodup) := by
  refine ⟨fun values hvalues => ?_, fun values hvalues => ?_⟩
  · refine sorts_iff_of_func getString (fun _ => rfl) hvalues ?_
    rw [func, collect_parametersFor (.inl rfl) (fun _ => rfl) hlen hvalues]
    cases names with
    | nil => rfl
    | cons name names => rfl
  · refine sorts_iff_of_func getInteger (fun _ => rfl) hvalues ?_
    rw [func, collect_parametersFor (.inr rfl) (fun _ => rfl) hlen hvalues]
    cases names with
    | nil => rfl
    | cons name names => rfl

/-- Two variables with the same integer. -/
def twice : Vars := ((∅ : Vars).insert ['a'] (.integer 7)).insert ['b'] (.integer 7)

/-- Two variables with different integers. -/
def swapped : Vars := ((∅ : Vars).insert ['a'] (.integer 2)).insert ['b'] (.integer 1)

/-- `sort(var1: a, var2: b)`, the two variables holding 7, reads past the end of the map. -/
theorem not_sorts_twice :
    Holds .integer twice [['a'], ['b']] [7, 7] ∧
      func [] (parametersFor [['a'], ['b']]) twice = .error .pastTheEnd ∧
      ¬ Sorts Content.integer [] [['a'], ['b']] [7, 7] twice := by
  have hfunc : func [] (parametersFor [['a'], ['b']]) twice = .error .pastTheEnd := by rfl
  refine ⟨rfl, hfunc, ?_⟩
  rintro ⟨vars', sorted, hok, -⟩
  rw [hfunc] at hok
  cases hok

/-- `sort(var1: a, var2: b)`, the variables holding 2 and 1. -/
theorem sorts_swapped : Sorts Content.integer [] [['a'], ['b']] [2, 1] swapped :=
  ((sort_iff [] [['a'], ['b']] (by decide) swapped).2 [2, 1] rfl).mpr (by decide)

end InstSort

end EventDispatcher.Reporter
