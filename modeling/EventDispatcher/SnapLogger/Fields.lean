import EventDispatcher.SnapLogger.Daemon

/-!
# The fields of a record and their text

The appenders write the fields of a record in one parameter, a comma between two of them and a
backslash before each comma or colon of a name or a value.  The daemon reads it one character at a
time and adds a field at each comma that ends one: nothing ends the last field, which is never
added.  So the fields come back exactly when there are none (`roundTrips_iff`); the others of a
record without backslashes are read as they were written (`fieldCalls_eq`).
-/

namespace EventDispatcher.SnapLogger

open Lib

/-! ### The calls of `add_field()` -/

/-- The state after a character. -/
def FieldState.next (s : FieldState) (f : Char) : FieldState :=
  if f = '\\' then { s with escaped := true }
  else if s.escaped then
    if s.inValue then { s with value := s.value ++ [f], escaped := false }
    else { s with name := s.name ++ [f], escaped := false }
  else if s.inValue then if f = ',' then {} else { s with value := s.value ++ [f] }
  else if f = ':' then { s with inValue := true }
  else if f = ',' then { s with name := [] }
  else { s with name := s.name ++ [f] }

/-- The field that is added at a character. -/
def FieldState.call (s : FieldState) (f : Char) : Option (Str × Str) :=
  if f = ',' ∧ s.escaped = false then some (s.name, if s.inValue then s.value else []) else none

/-- The fields that are added along a text. -/
def callsFrom : FieldState → Str → List (Str × Str)
  | _, [] => []
  | s, f :: text => (s.call f).toList ++ callsFrom (s.next f) text

/-- The fields that are added for the parameter. -/
def fieldCalls (fields : Option Str) : List (Str × Str) :=
  fields.elim [] (callsFrom {})

/-- Each field is added once, with its name and its value. -/
def RoundTrips (S : Snapdev) (fields : SortedMap Str Str) : Prop :=
  (fieldCalls (fieldsParameter S fields)).Perm fields.entries

section Calls

variable {L : LogTools}

/-- A call of `add_field()`. -/
def add (L : LogTools) (msg : LogMessage) (c : Str × Str) : Except Exception LogMessage :=
  L.addField msg c.1 c.2

/-- One character without a call. -/
lemma fieldStep_of_none {s : FieldState} {f : Char} (h : s.call f = none) (msg : LogMessage) :
    fieldStep L (s, msg) f = .ok (s.next f, msg) := by
  have hcomma : ¬ (f = ',' ∧ s.escaped = false) := fun hf => by
    rw [FieldState.call, if_pos hf] at h
    cases h
  rw [fieldStep, FieldState.next]
  split_ifs <;> first | rfl | simp_all

/-- One character with a call: an unescaped comma. -/
lemma fieldStep_of_some {s : FieldState} {f : Char} {c : Str × Str} (h : s.call f = some c)
    (msg : LogMessage) :
    fieldStep L (s, msg) f = (add L msg c).map fun msg => (s.next f, msg) := by
  rw [FieldState.call] at h
  split at h
  · rename_i hf
    obtain ⟨rfl, hescaped⟩ := hf
    cases h
    rw [fieldStep, FieldState.next, hescaped]
    cases hvalue : s.inValue <;> rfl
  · cases h

/-- The loop over the text makes the calls, one after the other. -/
lemma foldlM_fieldStep (text : Str) (s : FieldState) (msg : LogMessage) :
    (text.foldlM (fieldStep L) (s, msg)).map Prod.snd = (callsFrom s text).foldlM (add L) msg := by
  induction text generalizing s msg with
  | nil => rfl
  | cons f text ih =>
    rw [List.foldlM_cons, callsFrom]
    cases hcall : s.call f with
    | none =>
      rw [fieldStep_of_none hcall]
      exact ih _ _
    | some c =>
      rw [fieldStep_of_some hcall, Option.toList_some, List.singleton_append, List.foldlM_cons]
      cases hadd : add L msg c with
      | error e => rfl
      | ok msg' => exact ih _ _

/-- **The reader** makes the calls, one after the other. -/
lemma addFields_eq (msg : LogMessage) (fields : Option Str) :
    addFields L msg fields = (fieldCalls fields).foldlM (add L) msg := by
  cases fields with
  | none => rfl
  | some text => exact foldlM_fieldStep text {} msg

end Calls

/-! ### The escapes -/

/-- The state after a text. -/
def FieldState.after (s : FieldState) (text : Str) : FieldState := text.foldl FieldState.next s

lemma callsFrom_append (s : FieldState) (x y : Str) :
    callsFrom s (x ++ y) = callsFrom s x ++ callsFrom (s.after x) y := by
  induction x generalizing s with
  | nil => rfl
  | cons f x ih =>
    rw [List.cons_append, callsFrom, callsFrom, ih, List.append_assoc]
    rfl

/-- A character of a name or a value as it is written. -/
def fieldCode (c : Char) : Str := if c = ',' ∨ c = ':' then ['\\', c] else [c]

lemma stringReplaceMany_fieldEscapes (S : Snapdev) (s : Str) :
    S.stringReplaceMany s fieldEscapes = s.flatMap fieldCode := by
  have hne : KeysNonempty fieldEscapes := by simp [KeysNonempty, fieldEscapes]
  rw [S.stringReplaceMany_eq hne, replaceMany_letterwise (by decide)]
  refine congrArg (fun code => s.flatMap code) (funext fun c => ?_)
  rw [fieldEscapes, letterCode_cons, letterCode_cons, letterCode_nil, fieldCode]
  by_cases hcomma : c = ','
  · simp [hcomma]
  · by_cases hcolon : c = ':' <;> simp [hcomma, hcolon]

lemma FieldState.call_of_ne {s : FieldState} {f : Char} (h : f ≠ ',') : s.call f = none :=
  if_neg fun hf => h hf.1

lemma FieldState.call_of_escaped {s : FieldState} (h : s.escaped = true) (f : Char) :
    s.call f = none :=
  if_neg fun hf => by rw [h] at hf; cases hf.2

/-- No comma of a name or a value ends a field: there is a backslash before it. -/
lemma callsFrom_flatMap (s : FieldState) (x : Str) : callsFrom s (x.flatMap fieldCode) = [] := by
  induction x generalizing s with
  | nil => rfl
  | cons c x ih =>
    rw [List.flatMap_cons, callsFrom_append, ih, List.append_nil, fieldCode]
    split
    · have hslash : s.call '\\' = none := FieldState.call_of_ne (by decide)
      have hcode : (s.next '\\').call c = none := FieldState.call_of_escaped rfl c
      rw [callsFrom, callsFrom, hslash, hcode]
      rfl
    · rename_i hcode
      have hplain : s.call c = none := FieldState.call_of_ne fun h => hcode (.inl h)
      rw [callsFrom, hplain]
      rfl

lemma flatMap_fieldCode_ne_nil {x : Str} (hx : x ≠ []) : x.flatMap fieldCode ≠ [] := by
  obtain ⟨c, x, rfl⟩ := List.exists_cons_of_ne_nil hx
  rw [List.flatMap_cons, fieldCode]
  split <;> simp

/-- The text of a field. -/
lemma fieldText_eq (S : Snapdev) (f : Str × Str) :
    fieldText S f
      = f.1.flatMap fieldCode ++ if f.2 ≠ [] then ':' :: f.2.flatMap fieldCode else [] := by
  rw [fieldText, stringReplaceMany_fieldEscapes, stringReplaceMany_fieldEscapes]
  by_cases hvalue : f.2 = []
  · rw [hvalue]
    rfl
  · simp only [ne_eq, hvalue, flatMap_fieldCode_ne_nil hvalue, not_false_eq_true, if_true]

/-- No field is added within the text of a field. -/
lemma callsFrom_fieldText (S : Snapdev) (s : FieldState) (f : Str × Str) :
    callsFrom s (fieldText S f) = [] := by
  rw [fieldText_eq, callsFrom_append, callsFrom_flatMap, List.nil_append]
  split
  · have hcolon (s : FieldState) : s.call ':' = none := FieldState.call_of_ne (by decide)
    rw [callsFrom, hcolon, callsFrom_flatMap]
    rfl
  · rfl

/-! ### The last field -/

lemma joinComma_concat (texts : List Str) (t : Str) :
    joinComma (texts ++ [t])
      = (if joinComma texts ≠ [] then joinComma texts ++ [','] else joinComma texts) ++ t := by
  rw [joinComma, List.foldl_append]
  rfl

lemma length_callsFrom_singleton_le (s : FieldState) (f : Char) : (callsFrom s [f]).length ≤ 1 := by
  rw [callsFrom, callsFrom, List.append_nil]
  cases s.call f with
  | none => exact Nat.zero_le 1
  | some c => exact le_rfl

/-- At most one field is added for each comma between two fields. -/
lemma length_callsFrom_joinComma (S : Snapdev) (l : List (Str × Str)) :
    (callsFrom {} (joinComma (l.map (fieldText S)))).length ≤ l.length - 1 := by
  induction l using List.reverseRecOn with
  | nil => exact le_rfl
  | append_singleton l f ih =>
    rw [List.map_append, List.map_singleton, joinComma_concat, callsFrom_append,
      callsFrom_fieldText, List.append_nil, List.length_append, List.length_singleton,
      Nat.add_sub_cancel]
    split
    · rename_i hne
      have hpos : l ≠ [] := by
        rintro rfl
        exact hne rfl
      have hlen := List.length_pos_iff.mpr hpos
      have hcomma := length_callsFrom_singleton_le
        ((({} : FieldState).after (joinComma (l.map (fieldText S))))) ','
      rw [callsFrom_append, List.length_append]
      omega
    · exact ih.trans (Nat.sub_le _ _)

/-! ### The other fields -/

/-- The name and the value have no backslash, and there is a name. -/
structure Plain (f : Str × Str) : Prop where
  name : f.1 ≠ []
  name_notMem : '\\' ∉ f.1
  value_notMem : '\\' ∉ f.2

/-- The state after the text of a field. -/
def FieldState.read (f : Str × Str) : FieldState :=
  { inValue := decide (f.2 ≠ []), name := f.1, value := f.2 }

lemma FieldState.after_append (s : FieldState) (x y : Str) :
    s.after (x ++ y) = (s.after x).after y := List.foldl_append

/-- A character of a name, as it is written. -/
lemma FieldState.after_fieldCode_name {c : Char} (hc : c ≠ '\\') (name : Str) :
    FieldState.after { name := name } (fieldCode c) = { name := name ++ [c] } := by
  rw [fieldCode]
  split
  · simp [after, next, hc]
  · rename_i hcode
    rw [not_or] at hcode
    simp [after, next, hc, hcode.1, hcode.2]

/-- A character of a value, as it is written. -/
lemma FieldState.after_fieldCode_value {c : Char} (hc : c ≠ '\\') (name value : Str) :
    FieldState.after { inValue := true, name := name, value := value } (fieldCode c)
      = { inValue := true, name := name, value := value ++ [c] } := by
  rw [fieldCode]
  split
  · simp [after, next, hc]
  · rename_i hcode
    rw [not_or] at hcode
    simp [after, next, hc, hcode.1]

lemma FieldState.after_name {x : Str} (hx : '\\' ∉ x) (name : Str) :
    FieldState.after { name := name } (x.flatMap fieldCode) = { name := name ++ x } := by
  induction x generalizing name with
  | nil => rw [List.append_nil]; rfl
  | cons c x ih =>
    rw [List.mem_cons, not_or] at hx
    rw [List.flatMap_cons, after_append, after_fieldCode_name (Ne.symm hx.1), ih hx.2]
    simp

lemma FieldState.after_value {x : Str} (hx : '\\' ∉ x) (name value : Str) :
    FieldState.after { inValue := true, name := name, value := value } (x.flatMap fieldCode)
      = { inValue := true, name := name, value := value ++ x } := by
  induction x generalizing value with
  | nil => rw [List.append_nil]; rfl
  | cons c x ih =>
    rw [List.mem_cons, not_or] at hx
    rw [List.flatMap_cons, after_append, after_fieldCode_value (Ne.symm hx.1), ih hx.2]
    simp

/-- The text of a field is read back. -/
lemma FieldState.after_fieldText (S : Snapdev) {f : Str × Str} (hf : Plain f) :
    FieldState.after {} (fieldText S f) = FieldState.read f := by
  obtain ⟨name, value⟩ := f
  have hname : FieldState.after {} (name.flatMap fieldCode) = { name := name } :=
    after_name hf.name_notMem []
  rw [fieldText_eq, after_append]
  simp only [hname]
  by_cases hvalue : value = []
  · subst hvalue
    rfl
  · have hcolon : FieldState.after { name := name } [':'] = { inValue := true, name := name } := rfl
    rw [if_pos hvalue, ← List.singleton_append, after_append, hcolon, after_value hf.value_notMem,
      read]
    simp [hvalue]

/-- A comma adds the field that was read. -/
lemma callsFrom_read_comma (f : Str × Str) :
    callsFrom (FieldState.read f) [','] = [f] ∧ (FieldState.read f).after [','] = {} := by
  obtain ⟨name, value⟩ := f
  by_cases hvalue : value = []
  · subst hvalue
    exact ⟨rfl, rfl⟩
  · simp [callsFrom, FieldState.call, FieldState.read, FieldState.after, FieldState.next, hvalue]

lemma fieldText_ne_nil (S : Snapdev) {f : Str × Str} (hf : Plain f) : fieldText S f ≠ [] := by
  rw [fieldText_eq]
  exact List.append_ne_nil_of_left_ne_nil (flatMap_fieldCode_ne_nil hf.name) _

/-- All the fields but the last one are added, and the last one is read. -/
lemma callsFrom_joinComma (S : Snapdev) (l : List (Str × Str)) (f : Str × Str)
    (hl : ∀ f' ∈ l ++ [f], Plain f') :
    callsFrom {} (joinComma ((l ++ [f]).map (fieldText S))) = l ∧
      FieldState.after {} (joinComma ((l ++ [f]).map (fieldText S))) = FieldState.read f ∧
      joinComma ((l ++ [f]).map (fieldText S)) ≠ [] := by
  have hf : Plain f := hl f (by simp)
  have htext := FieldState.after_fieldText S hf
  have hne := fieldText_ne_nil S hf
  induction l using List.reverseRecOn generalizing f with
  | nil => exact ⟨callsFrom_fieldText S {} f, htext, hne⟩
  | append_singleton l f' ih =>
    have hf' : Plain f' := hl f' (by simp)
    obtain ⟨hcalls, hafter, hnonempty⟩ := ih f' (fun g hg => hl g (List.mem_append_left _ hg)) hf'
      (FieldState.after_fieldText S hf') (fieldText_ne_nil S hf')
    obtain ⟨hcall, hnext⟩ := callsFrom_read_comma f'
    have hmap : (l ++ [f'] ++ [f]).map (fieldText S)
        = (l ++ [f']).map (fieldText S) ++ [fieldText S f] := List.map_append
    rw [hmap, joinComma_concat, if_pos hnonempty]
    refine ⟨?_, ?_, List.append_ne_nil_of_right_ne_nil _ hne⟩
    · rw [callsFrom_append, callsFrom_append, hcalls, hafter, hcall, callsFrom_fieldText,
        List.append_nil]
    · rw [FieldState.after_append, FieldState.after_append, hafter, hnext, htext]

/-- **The fields of a record** without backslashes, but the last one, are added as they were
written. -/
theorem fieldCalls_eq (S : Snapdev) (fields : SortedMap Str Str)
    (hfields : ∀ f ∈ fields.entries, Plain f) :
    fieldCalls (fieldsParameter S fields) = fields.entries.dropLast := by
  rcases List.eq_nil_or_concat fields.entries with hnil | ⟨l, f, hl⟩
  · rw [fieldsParameter, hnil]
    rfl
  · rw [List.concat_eq_append] at hl
    rw [hl] at hfields
    obtain ⟨hcalls, -, hne⟩ := callsFrom_joinComma S l f hfields
    rw [fieldsParameter, hl, if_pos hne, List.dropLast_concat]
    exact hcalls

/-- There are fewer calls than fields. -/
lemma length_fieldCalls_le (S : Snapdev) (fields : SortedMap Str Str) :
    (fieldCalls (fieldsParameter S fields)).length ≤ fields.entries.length - 1 := by
  rw [fieldsParameter]
  split
  · exact length_callsFrom_joinComma S fields.entries
  · exact Nat.zero_le _

/-- **The fields of a record** come back exactly when there are none: the last one is not added. -/
theorem roundTrips_iff (S : Snapdev) (fields : SortedMap Str Str) :
    RoundTrips S fields ↔ fields = ∅ := by
  constructor
  · intro h
    have hlen := h.length_eq
    have hle := length_fieldCalls_le S fields
    exact SortedMap.ext (List.eq_nil_of_length_eq_zero (by omega))
  · rintro rfl
    exact List.Perm.refl []

/-- The record with the one field `a`, whose value is `b`: no field is added. -/
theorem not_roundTrips_one :
    ¬ RoundTrips Snapdev.standard ((∅ : SortedMap Str Str).insert ['a'] ['b']) ∧
      fieldsParameter Snapdev.standard ((∅ : SortedMap Str Str).insert ['a'] ['b'])
        = some ['a', ':', 'b'] ∧
      fieldCalls (some ['a', ':', 'b']) = [] := by
  have hparameter : fieldsParameter Snapdev.standard ((∅ : SortedMap Str Str).insert ['a'] ['b'])
      = some ['a', ':', 'b'] := by decide
  have hcalls : fieldCalls (some ['a', ':', 'b']) = [] := by decide
  refine ⟨fun h => ?_, hparameter, hcalls⟩
  have hlen := h.length_eq
  rw [hparameter, hcalls] at hlen
  exact absurd hlen (by decide)

end EventDispatcher.SnapLogger
