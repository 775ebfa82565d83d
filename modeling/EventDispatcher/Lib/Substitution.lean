import Mathlib.Data.List.Basic
import Mathlib.Data.List.Find
import Mathlib.Data.List.Infix

/-!
# One left-to-right pass of a multiple substitution

A list of pairs *(key, value)* is applied to a word in a single pass: at each position the
pairs are tried in order, the first one whose key starts there is replaced by its value and
the pass goes on after the key, and a letter where no key starts is copied.  The values that
were written are never looked at again.

`Pass` is the relation, `replaceMany` the function that computes it; the two agree
(`pass_iff`).  The escapings of text formats are passes whose keys are single letters, hence
letter-to-word codes (`replaceMany_letterwise`), and an unescaping is a pass that reads such
a code back (`replaceMany_flatMap`).
-/

namespace Lib

variable {α : Type*} [DecidableEq α]

/-- The pairs of a substitution: the words searched for and what replaces them. -/
abbrev Pairs (α : Type*) := List (List α × List α)

/-- The first pair whose key starts the word. -/
def firstMatch (pairs : Pairs α) (s : List α) : Option (List α × List α) :=
  pairs.find? fun p => p.1.isPrefixOf s

/-- No pair searches for the empty word. -/
def KeysNonempty (pairs : Pairs α) : Prop := ∀ p ∈ pairs, p.1 ≠ []

/-- `Pass pairs s t`: one left-to-right pass over `s` writes `t`. -/
inductive Pass (pairs : Pairs α) : List α → List α → Prop
  /-- Nothing is left to read. -/
  | nil : Pass pairs [] []
  /-- The pair `(k, v)` is the first one that matches here. -/
  | hit {k v s t : List α} :
      firstMatch pairs (k ++ s) = some (k, v) → Pass pairs s t → Pass pairs (k ++ s) (v ++ t)
  /-- No pair matches here, the letter is copied. -/
  | skip {c : α} {s t : List α} :
      firstMatch pairs (c :: s) = none → Pass pairs s t → Pass pairs (c :: s) (c :: t)

/-- The pass, with the number of letters of the last key that are still to be skipped. -/
def replaceFrom (pairs : Pairs α) : ℕ → List α → List α
  | _, [] => []
  | n + 1, _ :: s => replaceFrom pairs n s
  | 0, c :: s =>
      match firstMatch pairs (c :: s) with
      | some (k, v) => v ++ replaceFrom pairs (k.length - 1) s
      | none => c :: replaceFrom pairs 0 s

/-- The result of one left-to-right pass over `s`. -/
def replaceMany (pairs : Pairs α) (s : List α) : List α := replaceFrom pairs 0 s

variable {pairs : Pairs α}

/-! ### The first match -/

lemma firstMatch_eq_some {s k v : List α} (h : firstMatch pairs s = some (k, v)) :
    (k, v) ∈ pairs ∧ k <+: s := by
  refine ⟨List.mem_of_find?_eq_some h, ?_⟩
  have hp := List.find?_some h
  simpa using hp

lemma firstMatch_eq_none_iff {s : List α} :
    firstMatch pairs s = none ↔ ∀ p ∈ pairs, ¬ p.1 <+: s := by
  simp [firstMatch, List.find?_eq_none]

lemma firstMatch_nil (hne : KeysNonempty pairs) : firstMatch pairs [] = none := by
  rw [firstMatch_eq_none_iff]
  intro p hp hpre
  exact hne p hp (List.prefix_nil.mp hpre)

/-! ### The equations of the pass -/

lemma replaceFrom_eq_drop (n : ℕ) (s : List α) :
    replaceFrom pairs n s = replaceMany pairs (s.drop n) := by
  induction s generalizing n with
  | nil => cases n <;> simp [replaceMany, replaceFrom]
  | cons c s ih =>
    cases n with
    | zero => rfl
    | succ n => simpa [replaceFrom] using ih n

@[simp] lemma replaceMany_nil : replaceMany pairs [] = [] := rfl

lemma replaceMany_hit {k v s : List α} (hk : k ≠ [])
    (h : firstMatch pairs (k ++ s) = some (k, v)) :
    replaceMany pairs (k ++ s) = v ++ replaceMany pairs s := by
  obtain ⟨c, k', rfl⟩ := List.exists_cons_of_ne_nil hk
  rw [List.cons_append] at h ⊢
  rw [replaceMany, replaceFrom, h]
  simp [replaceFrom_eq_drop]

lemma replaceMany_skip {c : α} {s : List α} (h : firstMatch pairs (c :: s) = none) :
    replaceMany pairs (c :: s) = c :: replaceMany pairs s := by
  rw [replaceMany, replaceFrom, h]
  rfl

/-- `replaceMany` computes a pass. -/
lemma replaceMany_pass (hne : KeysNonempty pairs) (s : List α) :
    Pass pairs s (replaceMany pairs s) := by
  induction hn : s.length using Nat.strong_induction_on generalizing s with
  | _ n ih =>
    cases s with
    | nil => exact Pass.nil
    | cons c s =>
      cases hm : firstMatch pairs (c :: s) with
      | none =>
        rw [replaceMany_skip hm]
        exact Pass.skip hm (ih s.length (by simp [← hn]) s rfl)
      | some p =>
        obtain ⟨k, v⟩ := p
        obtain ⟨hmem, r, hr⟩ := firstMatch_eq_some hm
        have hk : k ≠ [] := hne _ hmem
        have hlt : r.length < n := by
          have hlen := congrArg List.length hr
          have := List.length_pos_iff.mpr hk
          simp only [List.length_append] at hlen
          omega
        rw [← hr] at hm ⊢
        rw [replaceMany_hit hk hm]
        exact Pass.hit hm (ih r.length hlt r rfl)

/-- The pass is a function: whatever a pass writes is what `replaceMany` computes. -/
lemma Pass.eq_replaceMany (hne : KeysNonempty pairs) {s t : List α} (h : Pass pairs s t) :
    t = replaceMany pairs s := by
  induction h with
  | nil => rfl
  | hit hm _ ih => rw [replaceMany_hit (hne _ (firstMatch_eq_some hm).1) hm, ih]
  | skip hm _ ih => rw [replaceMany_skip hm, ih]

theorem pass_iff (hne : KeysNonempty pairs) {s t : List α} :
    Pass pairs s t ↔ t = replaceMany pairs s := by
  constructor
  · exact fun h => h.eq_replaceMany hne
  · rintro rfl
    exact replaceMany_pass hne s

/-- What a pass writes was copied or comes from a value. -/
lemma mem_replaceMany (hne : KeysNonempty pairs) {c : α} {s : List α}
    (h : c ∈ replaceMany pairs s) : c ∈ s ∨ ∃ p ∈ pairs, c ∈ p.2 := by
  have key : ∀ s t, Pass pairs s t → c ∈ t → c ∈ s ∨ ∃ p ∈ pairs, c ∈ p.2 := by
    intro s t hp
    clear h
    induction hp with
    | nil => intro h; simp at h
    | @hit k v s t hm _ ih =>
      intro h
      rcases List.mem_append.mp h with h | h
      · exact Or.inr ⟨(k, v), (firstMatch_eq_some hm).1, h⟩
      · exact (ih h).imp (fun h => List.mem_append_right _ h) id
    | skip _ _ ih =>
      intro h
      rcases List.mem_cons.mp h with rfl | h
      · exact Or.inl List.mem_cons_self
      · exact (ih h).imp (fun h => List.mem_cons_of_mem _ h) id
  exact key s _ (replaceMany_pass hne s) h

/-! ### Where a pass begins and ends -/

/-- No pair erases its key. -/
def ValuesNonempty (pairs : Pairs α) : Prop := ∀ p ∈ pairs, p.2 ≠ []

lemma Pass.eq_nil (hv : ValuesNonempty pairs) {s : List α} (h : Pass pairs s []) : s = [] := by
  generalize hr : ([] : List α) = r at h
  cases h with
  | nil => rfl
  | hit hm _ => exact absurd (List.append_eq_nil_iff.mp hr.symm).1 (hv _ (firstMatch_eq_some hm).1)
  | skip => cases hr

/-- The first letter that is written was copied, or the key of its value comes first. -/
lemma Pass.head? (hv : ValuesNonempty pairs) {s t : List α} (h : Pass pairs s t) {d : α}
    (hd : t.head? = some d) :
    s.head? = some d ∨ ∃ p ∈ pairs, p.1 <+: s ∧ p.2.head? = some d := by
  cases h with
  | nil => cases hd
  | @hit k v s t hm _ =>
    obtain ⟨hmem, hpre⟩ := firstMatch_eq_some hm
    refine Or.inr ⟨(k, v), hmem, hpre, ?_⟩
    rwa [List.head?_append_of_ne_nil _ (hv _ hmem)] at hd
  | skip => exact Or.inl hd

/-- The last letter that is written was copied, or the key of its value comes last. -/
lemma Pass.getLast? (hv : ValuesNonempty pairs) {s t : List α} (h : Pass pairs s t) {d : α}
    (hd : t.getLast? = some d) :
    s.getLast? = some d ∨ ∃ p ∈ pairs, p.1 <:+ s ∧ p.2.getLast? = some d := by
  induction h with
  | nil => cases hd
  | @hit k v s t hm hp ih =>
    obtain ⟨hmem, -⟩ := firstMatch_eq_some hm
    by_cases ht : t = []
    · subst ht
      obtain rfl := hp.eq_nil hv
      rw [List.append_nil] at hd ⊢
      exact Or.inr ⟨(k, v), hmem, List.suffix_refl k, hd⟩
    · rw [List.getLast?_append_of_ne_nil _ ht] at hd
      rcases ih hd with h | ⟨p, hp, hsuf, h⟩
      · exact Or.inl (by rw [List.getLast?_append, h]; rfl)
      · exact Or.inr ⟨p, hp, hsuf.trans (List.suffix_append k s), h⟩
  | @skip c s t hm hp ih =>
    by_cases ht : t = []
    · subst ht
      obtain rfl := hp.eq_nil hv
      exact Or.inl hd
    · rw [← List.singleton_append, List.getLast?_append_of_ne_nil _ ht] at hd
      rcases ih hd with h | ⟨p, hp, hsuf, h⟩
      · exact Or.inl (by rw [List.getLast?_cons, h]; rfl)
      · exact Or.inr ⟨p, hp, hsuf.trans (List.suffix_cons c s), h⟩

/-! ### Letter-to-word codes -/

/-- What a pass with single-letter keys writes for one letter. -/
def letterCode (pairs : Pairs α) (c : α) : List α :=
  match pairs.find? fun p => p.1 == [c] with
  | some p => p.2
  | none => [c]

@[simp] lemma letterCode_nil (c : α) : letterCode [] c = [c] := rfl

lemma letterCode_cons (a : α) (w : List α) (pairs : Pairs α) (c : α) :
    letterCode (([a], w) :: pairs) c = if c = a then w else letterCode pairs c := by
  by_cases h : c = a
  · subst h
    simp [letterCode]
  · simp [letterCode, h, Ne.symm h]

/-- A single-letter key matches exactly where its letter stands. -/
lemma firstMatch_cons_letterwise (h : ∀ p ∈ pairs, p.1.length = 1) (c : α) (s : List α) :
    firstMatch pairs (c :: s) = pairs.find? fun p => p.1 == [c] := by
  refine List.find?_congr fun p hp => ?_
  obtain ⟨d, hd⟩ := List.length_eq_one_iff.mp (h p hp)
  simp [hd, List.isPrefixOf]

/-- A pass whose keys are single letters replaces letter by letter. -/
lemma replaceMany_letterwise (h : ∀ p ∈ pairs, p.1.length = 1) (s : List α) :
    replaceMany pairs s = s.flatMap (letterCode pairs) := by
  induction s with
  | nil => rfl
  | cons c s ih =>
    have hfind := firstMatch_cons_letterwise h c s
    rw [List.flatMap_cons, ← ih, letterCode]
    cases hm : pairs.find? fun p => p.1 == [c] with
    | none => simpa using replaceMany_skip (hfind.trans hm)
    | some p =>
      obtain ⟨k, v⟩ := p
      have hk : k = [c] := by simpa using List.find?_some hm
      subst hk
      exact replaceMany_hit (k := [c]) (by simp) (hfind.trans hm)

/-- A pass that reads each code word back as its letter undoes the code. -/
lemma replaceMany_flatMap {code : α → List α}
    (hcode : ∀ c s, replaceMany pairs (code c ++ s) = c :: replaceMany pairs s) (s r : List α) :
    replaceMany pairs (s.flatMap code ++ r) = s ++ replaceMany pairs r := by
  induction s with
  | nil => rfl
  | cons c s ih => rw [List.flatMap_cons, List.append_assoc, hcode, ih, List.cons_append]

/-! ### Passes that shorten -/

lemma length_replaceMany_le (hne : KeysNonempty pairs)
    (hshort : ∀ p ∈ pairs, p.2.length ≤ p.1.length) (s : List α) :
    (replaceMany pairs s).length ≤ s.length := by
  have key : ∀ t, Pass pairs s t → t.length ≤ s.length := by
    intro t hp
    induction hp with
    | nil => simp
    | hit hm _ ih =>
      have hkv := hshort _ (firstMatch_eq_some hm).1
      simp only [List.length_append] at hkv ⊢
      omega
    | skip _ _ ih => simpa using ih
  exact key _ (replaceMany_pass hne s)

/-- When every value is shorter than its key, a pass leaves a word as it is exactly when no
key occurs in it. -/
theorem replaceMany_eq_self_iff (hne : KeysNonempty pairs)
    (hshort : ∀ p ∈ pairs, p.2.length < p.1.length) (s : List α) :
    replaceMany pairs s = s ↔ ∀ t, t <:+ s → firstMatch pairs t = none := by
  have hle : ∀ p ∈ pairs, p.2.length ≤ p.1.length := fun p hp => (hshort p hp).le
  constructor
  · intro heq
    have key : ∀ s t, Pass pairs s t → t = s → ∀ r, r <:+ s → firstMatch pairs r = none := by
      intro s t hp
      induction hp with
      | nil =>
        intro _ r hr
        rw [List.suffix_nil.mp hr, firstMatch_nil hne]
      | @hit k v s t hm hp _ =>
        intro hst
        exfalso
        have hlen := congrArg List.length hst
        have hkv := hshort _ (firstMatch_eq_some hm).1
        have hts := length_replaceMany_le hne hle s
        rw [← hp.eq_replaceMany hne] at hts
        simp only [List.length_append] at hlen hkv
        omega
      | @skip c s t hm _ ih =>
        intro hst r hr
        rcases List.suffix_cons_iff.mp hr with rfl | hr
        · exact hm
        · exact ih (List.cons.inj hst).2 r hr
    exact key s _ (replaceMany_pass hne s) heq
  · intro hnone
    induction s with
    | nil => rfl
    | cons c s ih =>
      rw [replaceMany_skip (hnone _ (List.suffix_refl _)),
        ih fun t ht => hnone t (ht.trans (List.suffix_cons c s))]

end Lib
