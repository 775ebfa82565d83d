import Mathlib.Data.List.Infix
import Mathlib.Data.List.DropRight

/-!
# Texts with references

A text may refer to names: a reference is a dollar and a name between braces, the name going to
the first closing brace.  `Expands` is one left to right pass that replaces the references by
their values; the values are written and never read again.  A text without `opening` is its own
expansion whatever the values (`expands_self`), and a text that has one refers to a name whose
value is needed, or has no expansion at all (`exists_needed`).
-/

namespace Lib

/-- What a reference starts with, a dollar and a brace. -/
def opening : List Char := ['$', '\x7b']

/-- `Expands value s t`: one pass over `s` writes `t`. -/
inductive Expands (value : List Char → Option (List Char)) : List Char → List Char → Prop
  | nil : Expands value [] []
  /-- A reference is closed and named, and the name has a value. -/
  | reference {name v s t : List Char} (hname : name ≠ []) (hclosed : '\x7d' ∉ name)
      (hv : value name = some v) (h : Expands value s t) :
      Expands value ('$' :: '\x7b' :: (name ++ '\x7d' :: s)) (v ++ t)
  /-- No reference starts here, the character is kept. -/
  | keep {c : Char} {s t : List Char} (hc : ¬ opening <+: c :: s) (h : Expands value s t) :
      Expands value (c :: s) (c :: t)

variable {value : List Char → Option (List Char)}

lemma opening_prefix_cons_iff {c : Char} {s : List Char} :
    opening <+: c :: s ↔ c = '$' ∧ s.head? = some '\x7b' := by
  cases s with
  | nil => simp [opening]
  | cons d s => simp [opening, eq_comm]

/-- Two names that are closed at once are the same. -/
lemma append_close_inj {c : Char} {u v s t : List Char} (hu : c ∉ u) (hv : c ∉ v)
    (h : u ++ c :: s = v ++ c :: t) : u = v ∧ s = t := by
  induction u generalizing v with
  | nil =>
    cases v with
    | nil => exact ⟨rfl, (List.cons.inj h).2⟩
    | cons d v => exact absurd (List.mem_cons.mpr (.inl (List.cons.inj h).1)) hv
  | cons d u ih =>
    cases v with
    | nil => exact absurd (List.mem_cons.mpr (.inl (List.cons.inj h).1.symm)) hu
    | cons e v =>
      obtain ⟨rfl, htail⟩ := List.cons.inj h
      obtain ⟨rfl, rfl⟩ := ih (fun hc => hu (.tail _ hc)) (fun hc => hv (.tail _ hc)) htail
      exact ⟨rfl, rfl⟩

/-! ## The expansion by the start of the text -/

lemma expands_nil_iff {r : List Char} : Expands value [] r ↔ r = [] := by
  constructor
  · intro h
    cases h
    rfl
  · rintro rfl
    exact .nil

lemma expands_keep_iff {c : Char} {s r : List Char} (hc : ¬ opening <+: c :: s) :
    Expands value (c :: s) r ↔ ∃ t, Expands value s t ∧ r = c :: t := by
  constructor
  · intro h
    cases h with
    | reference => exact absurd (opening_prefix_cons_iff.mpr ⟨rfl, rfl⟩) hc
    | keep _ h => exact ⟨_, h, rfl⟩
  · rintro ⟨t, h, rfl⟩
    exact .keep hc h

/-- The characters in front of the first dollar are kept. -/
lemma expands_append_iff {u s r : List Char} (hu : '$' ∉ u) :
    Expands value (u ++ s) r ↔ ∃ t, Expands value s t ∧ r = u ++ t := by
  induction u generalizing r with
  | nil => simp
  | cons c u ih =>
    have hne : ¬ opening <+: c :: (u ++ s) := fun h =>
      hu (List.mem_cons.mpr (.inl (opening_prefix_cons_iff.mp h).1.symm))
    rw [List.cons_append, expands_keep_iff hne]
    constructor
    · rintro ⟨r, hr, rfl⟩
      obtain ⟨t, h, rfl⟩ := (ih fun h => hu (.tail _ h)).mp hr
      exact ⟨t, h, rfl⟩
    · rintro ⟨t, h, rfl⟩
      exact ⟨_, (ih fun h => hu (.tail _ h)).mpr ⟨t, h, rfl⟩, rfl⟩

/-- A text without a dollar is kept. -/
lemma expands_iff_of_notMem {u r : List Char} (hu : '$' ∉ u) : Expands value u r ↔ r = u := by
  rw [← List.append_nil u, expands_append_iff hu]
  simp [expands_nil_iff]

/-- A reference, when a name is closed. -/
lemma expands_reference_iff {name s r : List Char} (hclosed : '\x7d' ∉ name) :
    Expands value ('$' :: '\x7b' :: (name ++ '\x7d' :: s)) r ↔
      name ≠ [] ∧ ∃ v t, value name = some v ∧ Expands value s t ∧ r = v ++ t := by
  constructor
  · intro h
    generalize htext : name ++ '\x7d' :: s = text at h
    cases h with
    | reference hname hclosed' hv h =>
      obtain ⟨rfl, rfl⟩ := append_close_inj hclosed hclosed' htext
      exact ⟨hname, _, _, hv, h, rfl⟩
    | keep hc => exact absurd (opening_prefix_cons_iff.mpr ⟨rfl, rfl⟩) hc
  · rintro ⟨hname, v, t, hv, h, rfl⟩
    exact .reference hname hclosed hv h

/-- No expansion, when no name is closed. -/
lemma not_expands_of_notMem {s r : List Char} (hs : '\x7d' ∉ s) :
    ¬ Expands value ('$' :: '\x7b' :: s) r := by
  intro h
  cases h with
  | reference => exact hs (by simp)
  | keep hc => exact hc (opening_prefix_cons_iff.mpr ⟨rfl, rfl⟩)

/-- With more values, the expansion is the same. -/
lemma Expands.mono {value' : List Char → Option (List Char)} {s t : List Char}
    (hle : ∀ name v, value name = some v → value' name = some v) (h : Expands value s t) :
    Expands value' s t := by
  induction h with
  | nil => exact .nil
  | reference hname hclosed hv _ ih => exact .reference hname hclosed (hle _ _ hv) ih
  | keep hc _ ih => exact .keep hc ih

/-- Whether there is an expansion depends on the names that have a value only. -/
lemma Expands.exists_of_total {value' : List Char → Option (List Char)} {s t : List Char}
    (htotal : ∀ name, value' name ≠ none) (h : Expands value s t) :
    ∃ t', Expands value' s t' := by
  induction h with
  | nil => exact ⟨[], .nil⟩
  | reference hname hclosed _ _ ih =>
    obtain ⟨t', h⟩ := ih
    obtain ⟨v, hv⟩ := Option.ne_none_iff_exists'.mp (htotal _)
    exact ⟨_, .reference hname hclosed hv h⟩
  | keep hc _ ih =>
    obtain ⟨t', h⟩ := ih
    exact ⟨_, .keep hc h⟩

/-! ## Texts without references -/

/-- A text without references is its own expansion. -/
lemma expands_self {s : List Char} (hs : ¬ opening <:+: s) : Expands value s s := by
  induction s with
  | nil => exact .nil
  | cons c s ih =>
    rw [List.infix_cons_iff, not_or] at hs
    exact .keep hs.1 (ih hs.2)

/-- A text that has a reference has no expansion without the value of some name. -/
lemma exists_needed {s : List Char} (hs : opening <:+: s) :
    ∃ name, ∀ value : List Char → Option (List Char), value name = none →
      ∀ t, ¬ Expands value s t := by
  induction s with
  | nil => simp [opening] at hs
  | cons c s ih =>
    by_cases hc : opening <+: c :: s
    · obtain ⟨w, hw⟩ := hc
      have hcons : c :: s = '$' :: '\x7b' :: w := hw.symm
      rw [hcons]
      by_cases hmem : '\x7d' ∈ w
      · obtain ⟨name, rest, rfl, hclosed⟩ := List.eq_append_cons_of_mem hmem
        refine ⟨name, fun value hvalue t h => ?_⟩
        obtain ⟨-, v, -, hv, -⟩ := (expands_reference_iff hclosed).mp h
        rw [hvalue] at hv
        cases hv
      · exact ⟨[], fun _ _ _ => not_expands_of_notMem hmem⟩
    · obtain ⟨name, hname⟩ := ih ((List.infix_cons_iff.mp hs).resolve_left hc)
      refine ⟨name, fun value hvalue t h => ?_⟩
      obtain ⟨t, h, -⟩ := (expands_keep_iff hc).mp h
      exact hname value hvalue t h

end Lib
