import Mathlib.Data.List.Sort
import Mathlib.Data.List.Nodup

/-!
# Stable sorting by a key

In a list without duplicates, `[a, b] <+ l` says that `a` stands before `b`.  A stable sort by a
key puts smaller keys first and keeps the elements with one key in the order of the list:
`Before key l` is that order.  `insertLast` puts one element in a sorted list, after the ones with
the same key.
-/

namespace Lib

variable {α β : Type*} [LinearOrder β]

/-- `a` comes before `b` when the list `l` is sorted by `key` and ties keep their order. -/
def Before (key : α → β) (l : List α) (a b : α) : Prop :=
  key a < key b ∨ (key a = key b ∧ List.Sublist [a, b] l)

instance [DecidableEq α] (key : α → β) (l : List α) (a b : α) : Decidable (Before key l a b) := by
  rw [Before]
  infer_instance

/-- The list sorted by a key, ties in the order of the list. -/
def stableSort (key : α → β) (l : List α) : List α :=
  l.insertionSort fun a b => key a ≤ key b

variable {key : α → β} {l : List α}

lemma perm_stableSort (key : α → β) (l : List α) : (stableSort key l).Perm l :=
  List.perm_insertionSort _ l

lemma mem_stableSort {a : α} : a ∈ stableSort key l ↔ a ∈ l :=
  (perm_stableSort key l).mem_iff

lemma nodup_stableSort (hl : l.Nodup) : (stableSort key l).Nodup :=
  (perm_stableSort key l).nodup_iff.mpr hl

lemma pairwise_stableSort (key : α → β) (l : List α) :
    (stableSort key l).Pairwise fun a b => key a ≤ key b := by
  have : IsTrans α fun a b => key a ≤ key b := ⟨fun _ _ _ => le_trans⟩
  have : Std.Total fun a b : α => key a ≤ key b := ⟨fun a b => le_total (key a) (key b)⟩
  exact List.pairwise_insertionSort _ l

/-- Ties keep their order. -/
lemma sublist_stableSort {a b : α} (hab : key a ≤ key b) (h : List.Sublist [a, b] l) :
    List.Sublist [a, b] (stableSort key l) := by
  have : IsTrans α fun a b => key a ≤ key b := ⟨fun _ _ _ => le_trans⟩
  have : Std.Total fun a b : α => key a ≤ key b := ⟨fun a b => le_total (key a) (key b)⟩
  exact List.pair_sublist_insertionSort hab h

/-- Two elements of a list stand in one order or in the other. -/
lemma sublist_or_sublist {a b : α} (hne : a ≠ b) (ha : a ∈ l) (hb : b ∈ l) :
    List.Sublist [a, b] l ∨ List.Sublist [b, a] l := by
  induction l with
  | nil => simp at ha
  | cons x l ih =>
    rcases List.mem_cons.mp ha with rfl | ha'
    · rcases List.mem_cons.mp hb with rfl | hb'
      · exact absurd rfl hne
      · exact Or.inl (List.Sublist.cons_cons _ (List.singleton_sublist.mpr hb'))
    · rcases List.mem_cons.mp hb with rfl | hb'
      · exact Or.inr (List.Sublist.cons_cons _ (List.singleton_sublist.mpr ha'))
      · exact (ih ha' hb').imp (List.Sublist.cons _) (List.Sublist.cons _)

/-- Without duplicates, only one of the two orders is possible. -/
lemma not_sublist_swap {a b : α} (hl : l.Nodup) (h : List.Sublist [a, b] l) :
    ¬ List.Sublist [b, a] l := by
  intro h'
  induction l with
  | nil => simp at h
  | cons x l ih =>
    obtain ⟨hx, hl⟩ := List.nodup_cons.mp hl
    cases h with
    | cons _ h =>
      cases h' with
      | cons _ h' => exact ih hl h h'
      | cons_cons _ h' => exact hx (h.subset (by simp))
    | cons_cons _ h =>
      cases h' with
      | cons _ h' => exact hx (h'.subset (by simp))
      | cons_cons _ h' => exact hx (h.subset (by simp))

/-- **The stable sort is in the order of the key, then of the list.** -/
theorem before_stableSort (hl : l.Nodup) : (stableSort key l).Pairwise (Before key l) := by
  rw [List.pairwise_iff_forall_sublist]
  intro a b hab
  have hle := List.pairwise_iff_forall_sublist.mp (pairwise_stableSort key l) hab
  rcases hle.lt_or_eq with hlt | heq
  · exact Or.inl hlt
  · refine Or.inr ⟨heq, ?_⟩
    have hne : a ≠ b := by
      rintro rfl
      exact absurd (hab.nodup (nodup_stableSort hl)) (by simp)
    have ha : a ∈ l := mem_stableSort.mp (hab.subset (by simp))
    have hb : b ∈ l := mem_stableSort.mp (hab.subset (by simp))
    rcases sublist_or_sublist hne ha hb with h | h
    · exact h
    · exact absurd (sublist_stableSort heq.ge h) (not_sublist_swap (nodup_stableSort hl) hab)

/-- A list that is sorted by the key is in this order already. -/
theorem before_of_sorted (h : l.Pairwise fun a b => key a ≤ key b) :
    l.Pairwise (Before key l) := by
  rw [List.pairwise_iff_forall_sublist] at h ⊢
  intro a b hab
  exact (h hab).lt_or_eq.imp id fun heq => ⟨heq, hab⟩

/-! ### Insertion after the ties -/

/-- The list with `a` put before the first element that has a larger key. -/
def insertLast (key : α → β) (a : α) (l : List α) : List α :=
  l.takeWhile (fun x => ¬ key a < key x) ++ a :: l.dropWhile fun x => ¬ key a < key x

@[simp] lemma insertLast_nil (a : α) : insertLast key a [] = [a] := rfl

lemma insertLast_cons (a x : α) (l : List α) :
    insertLast key a (x :: l) = if key a < key x then a :: x :: l else x :: insertLast key a l := by
  unfold insertLast
  by_cases h : key a < key x
  · simp [h]
  · simp [not_lt.mp h]

lemma mem_insertLast {a x : α} : x ∈ insertLast key a l ↔ x = a ∨ x ∈ l := by
  have hsplit := List.takeWhile_append_dropWhile (p := fun x => decide ¬ key a < key x) (l := l)
  rw [insertLast]
  conv_rhs => rw [← hsplit]
  simp only [List.mem_append, List.mem_cons]
  tauto

/-- The list stays sorted. -/
lemma pairwise_insertLast {a : α} (h : l.Pairwise fun x y => key x ≤ key y) :
    (insertLast key a l).Pairwise fun x y => key x ≤ key y := by
  induction l with
  | nil => simp
  | cons x l ih =>
    obtain ⟨hx, hl⟩ := List.pairwise_cons.mp h
    rw [insertLast_cons]
    split
    · rename_i hlt
      refine List.pairwise_cons.mpr ⟨fun y hy => ?_, h⟩
      rcases List.mem_cons.mp hy with rfl | hy
      · exact hlt.le
      · exact hlt.le.trans (hx y hy)
    · rename_i hge
      refine List.pairwise_cons.mpr ⟨fun y hy => ?_, ih hl⟩
      rcases mem_insertLast.mp hy with rfl | hy
      · exact not_lt.mp hge
      · exact hx y hy

/-- In a sorted list, the new element comes last among the ones with its key. -/
lemma filter_insertLast {a : α} (h : l.Pairwise fun x y => key x ≤ key y) (k : β) :
    (insertLast key a l).filter (key · = k) =
      l.filter (key · = k) ++ if key a = k then [a] else [] := by
  induction l with
  | nil => by_cases ha : key a = k <;> simp [ha]
  | cons x l ih =>
    obtain ⟨hx, hl⟩ := List.pairwise_cons.mp h
    rw [insertLast_cons]
    split
    · rename_i hlt
      by_cases ha : key a = k
      · -- every other key is larger
        have hnone : (x :: l).filter (key · = k) = [] := by
          rw [List.filter_eq_nil_iff]
          intro y hy
          have hle : key x ≤ key y := by
            rcases List.mem_cons.mp hy with rfl | hy
            · exact le_rfl
            · exact hx y hy
          simpa [← ha] using (hlt.trans_le hle).ne'
        rw [List.filter_cons_of_pos (by simpa using ha), hnone, if_pos ha]
        rfl
      · rw [List.filter_cons_of_neg (by simpa using ha), if_neg ha, List.append_nil]
    · by_cases hk : key x = k
      · rw [List.filter_cons_of_pos (by simpa using hk),
          List.filter_cons_of_pos (by simpa using hk),
          ih hl, List.cons_append]
      · rw [List.filter_cons_of_neg (by simpa using hk),
          List.filter_cons_of_neg (by simpa using hk),
          ih hl]

/-- A function that keeps the keys can be applied before or after. -/
lemma map_insertLast {γ : Type*} {key' : γ → β} {f : α → γ} (hf : ∀ x, key' (f x) = key x)
    (a : α) (l : List α) : (insertLast key a l).map f = insertLast key' (f a) (l.map f) := by
  induction l with
  | nil => rfl
  | cons x l ih =>
    rw [insertLast_cons, List.map_cons, insertLast_cons, hf, hf]
    split
    · rfl
    · rw [List.map_cons, ih]

end Lib
