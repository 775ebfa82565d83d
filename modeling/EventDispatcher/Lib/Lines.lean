import Mathlib.Data.List.Basic
import Mathlib.Data.List.Count
import Mathlib.Data.List.DropRight
import Mathlib.Data.List.Induction

/-!
# The lines of a stream

A stream is lines, each followed by a separator, and a tail in which there is no separator.  The
lines and the tail are determined by the stream (`Framed.unique`), every stream has them
(`exists_framed`), they can be found piece by piece (`Framed.append`), and the start of a stream
has the first of its lines (`Framed.isPrefix`).  The place behind a stream has a line and a column,
which one more element moves (`lineAt_append_singleton`, `columnAt_append_singleton`).
-/

namespace Lib

variable {α : Type*} {sep : α}

/-- The stream `s` is the lines, each with the separator behind it, and then the tail. -/
structure Framed (sep : α) (s : List α) (lines : List (List α)) (tail : List α) : Prop where
  /-- The parts of the stream. -/
  eq : s = (lines.map fun l => l ++ [sep]).flatten ++ tail
  /-- The lines have no separator. -/
  lines : ∀ l ∈ lines, sep ∉ l
  /-- The tail has no separator. -/
  tail : sep ∉ tail

namespace Framed

lemma of_notMem {s : List α} (h : sep ∉ s) : Framed sep s [] s :=
  ⟨rfl, fun _ h => absurd h List.not_mem_nil, h⟩

lemma line {l : List α} (h : sep ∉ l) : Framed sep (l ++ [sep]) [l] [] :=
  ⟨by simp, by simpa using h, List.not_mem_nil⟩

/-- **The rule for the next piece.**  It continues the tail. -/
lemma append {s u : List α} {lines lines' : List (List α)} {tail tail' : List α}
    (h : Framed sep s lines tail) (h' : Framed sep (tail ++ u) lines' tail') :
    Framed sep (s ++ u) (lines ++ lines') tail' := by
  refine ⟨?_, fun l hl => ?_, h'.tail⟩
  · rw [h.eq, List.append_assoc, h'.eq, List.map_append, List.flatten_append, List.append_assoc]
  · rcases List.mem_append.mp hl with hl | hl
    · exact h.lines l hl
    · exact h'.lines l hl

/-- A line in front of a stream. -/
lemma cons {l s : List α} {lines : List (List α)} {tail : List α} (hl : sep ∉ l)
    (h : Framed sep s lines tail) : Framed sep (l ++ sep :: s) (l :: lines) tail := by
  have := (line hl).append (u := s) (by simpa using h)
  simpa using this

/-- There are as many lines as separators. -/
lemma length_lines [DecidableEq α] {s : List α} {lines : List (List α)} {tail : List α}
    (h : Framed sep s lines tail) : lines.length = s.count sep := by
  rw [h.eq, List.count_append, List.count_eq_zero_of_not_mem h.tail]
  have hlines := h.lines
  clear h
  induction lines with
  | nil => rfl
  | cons l lines ih =>
    have hl : l.count sep = 0 := List.count_eq_zero_of_not_mem (hlines l List.mem_cons_self)
    have := ih fun m hm => hlines m (List.mem_cons_of_mem _ hm)
    simp only [List.length_cons, List.map_cons, List.flatten_cons, List.count_append, hl,
      List.count_singleton_self] at this ⊢
    omega

/-- The first separator is where both say it is. -/
private lemma cons_inj {l l' s s' : List α} (hl : sep ∉ l) (hl' : sep ∉ l')
    (h : l ++ sep :: s = l' ++ sep :: s') : l = l' ∧ s = s' := by
  induction l generalizing l' with
  | nil =>
    cases l' with
    | nil => exact ⟨rfl, by simpa using h⟩
    | cons a l' =>
      rw [List.nil_append, List.cons_append, List.cons.injEq] at h
      exact absurd (h.1 ▸ List.mem_cons_self) hl'
  | cons a l ih =>
    cases l' with
    | nil =>
      rw [List.nil_append, List.cons_append, List.cons.injEq] at h
      exact absurd (h.1 ▸ List.mem_cons_self) hl
    | cons b l' =>
      rw [List.cons_append, List.cons_append, List.cons.injEq] at h
      obtain ⟨rfl, hs⟩ := ih (fun hm => hl (List.mem_cons_of_mem _ hm))
        (fun hm => hl' (List.mem_cons_of_mem _ hm)) h.2
      exact ⟨by rw [h.1], hs⟩

/-- **The lines of a stream are determined.** -/
theorem unique {s : List α} {lines lines' : List (List α)} {tail tail' : List α}
    (h : Framed sep s lines tail) (h' : Framed sep s lines' tail') :
    lines = lines' ∧ tail = tail' := by
  induction lines generalizing s lines' with
  | nil =>
    obtain rfl : s = tail := by simpa using h.eq
    cases lines' with
    | nil => exact ⟨rfl, by simpa using h'.eq⟩
    | cons l lines' => exact absurd (by rw [h'.eq]; simp) h.tail
  | cons l lines ih =>
    have hs : s = l ++ sep :: ((lines.map fun l => l ++ [sep]).flatten ++ tail) := by
      simpa using h.eq
    cases lines' with
    | nil =>
      obtain rfl : s = tail' := by simpa using h'.eq
      exact absurd (by rw [hs]; simp) h'.tail
    | cons l' lines' =>
      have hs' : s = l' ++ sep :: ((lines'.map fun l => l ++ [sep]).flatten ++ tail') := by
        simpa using h'.eq
      obtain ⟨rfl, hrest⟩ := cons_inj (h.lines l List.mem_cons_self)
        (h'.lines l' List.mem_cons_self) (hs.symm.trans hs')
      obtain ⟨rfl, rfl⟩ := ih
        ⟨rfl, fun m hm => h.lines m (List.mem_cons_of_mem _ hm), h.tail⟩
        ⟨hrest, fun m hm => h'.lines m (List.mem_cons_of_mem _ hm), h'.tail⟩
      exact ⟨rfl, rfl⟩

end Framed

/-- Every stream has lines and a tail. -/
theorem exists_framed [DecidableEq α] (sep : α) (s : List α) :
    ∃ lines tail, Framed sep s lines tail := by
  induction s using List.reverseRecOn with
  | nil => exact ⟨[], [], .of_notMem List.not_mem_nil⟩
  | append_singleton s a ih =>
    obtain ⟨lines, tail, h⟩ := ih
    by_cases ha : a = sep
    · subst ha
      exact ⟨lines ++ [tail], [], h.append (.line h.tail)⟩
    · refine ⟨lines ++ [], tail ++ [a], h.append (.of_notMem ?_)⟩
      rw [List.mem_append, List.mem_singleton, not_or]
      exact ⟨h.tail, fun heq => ha heq.symm⟩

/-- Lines, each with the separator behind it, are a stream without a tail. -/
lemma Framed.of_lines {lines : List (List α)} (h : ∀ l ∈ lines, sep ∉ l) :
    Framed sep (lines.map fun l => l ++ [sep]).flatten lines [] :=
  ⟨(List.append_nil _).symm, h, List.not_mem_nil⟩

/-- **The lines of the start of a stream** are the first lines of the stream. -/
theorem Framed.isPrefix [DecidableEq α] {s t : List α} {lines lines' : List (List α)}
    {tail tail' : List α} (h : Framed sep s lines tail) (h' : Framed sep t lines' tail')
    (hs : s <+: t) : lines <+: lines' := by
  obtain ⟨u, rfl⟩ := hs
  obtain ⟨rest, last, hrest⟩ := exists_framed sep (tail ++ u)
  obtain ⟨rfl, -⟩ := (h.append hrest).unique h'
  exact List.prefix_append _ _

/-! ### Lines and columns -/

section Place

variable [DecidableEq α]

/-- The line of the place behind a stream, counted from 1. -/
def lineAt (sep : α) (s : List α) : ℕ := s.count sep + 1

/-- The column of the place behind a stream, counted from 1. -/
def columnAt (sep : α) (s : List α) : ℕ := (s.rtakeWhile fun a => a ≠ sep).length + 1

lemma lineAt_append_singleton (s : List α) (a : α) :
    lineAt sep (s ++ [a]) = if a = sep then lineAt sep s + 1 else lineAt sep s := by
  rw [lineAt, lineAt, List.count_append, List.count_singleton]
  split_ifs with h h' h'
  · omega
  · exact absurd (eq_of_beq h) h'
  · exact absurd (beq_iff_eq.mpr h') h
  · omega

lemma columnAt_append_singleton (s : List α) (a : α) :
    columnAt sep (s ++ [a]) = if a = sep then 1 else columnAt sep s + 1 := by
  rw [columnAt, columnAt, List.rtakeWhile_concat]
  by_cases h : a = sep
  · rw [if_pos h, if_neg (by simpa using h)]
    rfl
  · rw [if_neg h, if_pos (by simpa using h), List.length_append]
    rfl

end Place

end Lib
