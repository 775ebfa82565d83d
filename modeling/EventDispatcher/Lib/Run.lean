import Mathlib.Data.List.Basic

/-!
# Runs of a machine

A machine is a function `step` from a state and an action to the next state.  `visited` are the
states in which the actions of a run are taken, `runFrom` is the state after them.  An invariant
that each step keeps, under a condition on the state and the action, holds in every state of a
run whose steps all meet the condition.  Two machines that keep a relation step by step keep it
along the same run.  Where each action changes a component of its own, a run is known component by
component.  A computation that may fail is the run of its parts: it returns when they do.
-/

namespace Lib

variable {σ α : Type*} (step : σ → α → σ)

/-- The state after a list of actions. -/
def runFrom (s : σ) (l : List α) : σ := l.foldl step s

/-- The actions of a run, each with the state it is taken in. -/
def visited : σ → List α → List (σ × α)
  | _, [] => []
  | s, a :: l => (s, a) :: visited (step s a) l

variable {step}

@[simp] lemma visited_nil (s : σ) : visited step s [] = [] := rfl

@[simp] lemma visited_cons (s : σ) (a : α) (l : List α) :
    visited step s (a :: l) = (s, a) :: visited step (step s a) l := rfl

/-- A run and the next one. -/
lemma visited_append (s : σ) (l l' : List α) :
    visited step s (l ++ l') = visited step s l ++ visited step (runFrom step s l) l' := by
  induction l generalizing s with
  | nil => rfl
  | cons a l ih => exact congrArg ((s, a) :: ·) (ih (step s a))

/-- **The invariant rule.**  What holds at the start and is kept by the steps that meet a
condition holds wherever a run goes whose steps meet it, and at its end. -/
theorem invariant_of_visited {Inv : σ → Prop} {Ok : σ → α → Prop}
    (hstep : ∀ s a, Inv s → Ok s a → Inv (step s a)) {s : σ} {l : List α} (hs : Inv s)
    (hok : ∀ p ∈ visited step s l, Ok p.1 p.2) :
    (∀ p ∈ visited step s l, Inv p.1) ∧ Inv (runFrom step s l) := by
  induction l generalizing s with
  | nil => exact ⟨by simp, hs⟩
  | cons a l ih =>
    have hnext := hstep s a hs (hok (s, a) List.mem_cons_self)
    obtain ⟨hall, hend⟩ := ih hnext fun p hp => hok p (List.mem_cons_of_mem _ hp)
    refine ⟨fun p hp => ?_, hend⟩
    rcases List.mem_cons.mp hp with rfl | hp
    · exact hs
    · exact hall p hp

/-- The actions that a run takes are those of its list. -/
lemma mem_of_mem_visited {s : σ} {l : List α} {p : σ × α} (hp : p ∈ visited step s l) :
    p.2 ∈ l := by
  induction l generalizing s with
  | nil => simp at hp
  | cons a l ih =>
    rcases List.mem_cons.mp hp with rfl | hp
    · exact List.mem_cons_self
    · exact List.mem_cons_of_mem _ (ih hp)

/-- **The exact invariant rule.**  When a step that breaks the condition also breaks what the
invariant gives, a run has it in all its states exactly when its steps all meet the condition. -/
theorem holds_along_iff {Inv P : σ → Prop} {Dom : α → Prop} {Ok : σ → α → Prop}
    (hstep : ∀ s a, Inv s → Dom a → Ok s a → Inv (step s a)) (hholds : ∀ s, Inv s → P s)
    (hneeds : ∀ s a, Inv s → Dom a → P (step s a) → Ok s a) {s : σ} {l : List α} (hs : Inv s)
    (hl : ∀ a ∈ l, Dom a) :
    ((∀ p ∈ visited step s l, P p.1) ∧ P (runFrom step s l)) ↔
      ∀ p ∈ visited step s l, Ok p.1 p.2 := by
  constructor
  · rintro ⟨hall, hend⟩
    induction l generalizing s with
    | nil => simp
    | cons a l ih =>
      have hnext : P (step s a) := by
        cases l with
        | nil => exact hend
        | cons b l => exact hall (step s a, b) (List.mem_cons_of_mem _ List.mem_cons_self)
      have ha : Dom a := hl a List.mem_cons_self
      have hok : Ok s a := hneeds s a hs ha hnext
      intro p hp
      rcases List.mem_cons.mp hp with rfl | hp
      · exact hok
      · exact ih (hstep s a hs ha hok) (fun b hb => hl b (List.mem_cons_of_mem _ hb))
          (fun q hq => hall q (List.mem_cons_of_mem _ hq)) hend p hp
  · intro hok
    obtain ⟨hall, hend⟩ := invariant_of_visited (fun s a (h : Inv s) (hd : Dom a ∧ Ok s a) =>
      hstep s a h hd.1 hd.2) hs
      fun p hp => ⟨hl _ (mem_of_mem_visited hp), hok p hp⟩
    exact ⟨fun p hp => hholds _ (hall p hp), hholds _ hend⟩

/-- The exact invariant rule, for all the actions. -/
theorem holds_always_iff {Inv P : σ → Prop} {Ok : σ → α → Prop}
    (hstep : ∀ s a, Inv s → Ok s a → Inv (step s a)) (hholds : ∀ s, Inv s → P s)
    (hneeds : ∀ s a, Inv s → P (step s a) → Ok s a) {s : σ} (hs : Inv s) (l : List α) :
    ((∀ p ∈ visited step s l, P p.1) ∧ P (runFrom step s l)) ↔
      ∀ p ∈ visited step s l, Ok p.1 p.2 := by
  have hstep' : ∀ s a, Inv s → True → Ok s a → Inv (step s a) := fun s a h _ => hstep s a h
  have hneeds' : ∀ s a, Inv s → True → P (step s a) → Ok s a := fun s a h _ => hneeds s a h
  exact holds_along_iff hstep' hholds hneeds' hs fun _ _ => trivial

/-- An invariant that every step keeps holds after a run. -/
theorem invariant_of_runFrom {Inv : σ → Prop} (hstep : ∀ s a, Inv s → Inv (step s a)) {s : σ}
    (hs : Inv s) (l : List α) : Inv (runFrom step s l) := by
  induction l generalizing s with
  | nil => exact hs
  | cons a l ih => exact ih (hstep s a hs)

/-- A property that a step has exactly when it had it before or the step brings it holds after a
run exactly when a step brought it. -/
lemma reached_iff {Inv P : σ → Prop} {Brings : σ → α → Prop}
    (hinv : ∀ s a, Inv s → Inv (step s a))
    (hstep : ∀ s a, Inv s → (P (step s a) ↔ P s ∨ Brings s a)) {s : σ} (hs : Inv s)
    (l : List α) :
    P (runFrom step s l) ↔ P s ∨ ∃ q ∈ visited step s l, Brings q.1 q.2 := by
  induction l generalizing s with
  | nil => simp [runFrom]
  | cons a l ih =>
    change P (runFrom step (step s a) l) ↔ _
    rw [ih (hinv s a hs), hstep s a hs, visited_cons, List.exists_mem_cons_iff, or_assoc]

/-- A relation between two machines that each action keeps holds after the same run. -/
theorem related_of_runFrom {τ : Type*} {step' : τ → α → τ} {Rel : σ → τ → Prop}
    (hstep : ∀ s t a, Rel s t → Rel (step s a) (step' t a)) {s : σ} {t : τ} (h : Rel s t)
    (l : List α) : Rel (runFrom step s l) (runFrom step' t l) := by
  induction l generalizing s t with
  | nil => exact h
  | cons a l ih => exact ih (hstep s t a h)

/-- What holds of each step of a run exactly when the step meets a condition, under an invariant
that such steps keep, holds of all its steps exactly when they all meet it. -/
lemma holds_each_iff {Inv : σ → Prop} {Dom : α → Prop} {P : σ → α → Prop} {Ok : σ → α → Prop}
    (hiff : ∀ s a, Inv s → Dom a → (P s a ↔ Ok s a))
    (hstep : ∀ s a, Inv s → Dom a → Ok s a → Inv (step s a)) {s : σ} (hs : Inv s) (l : List α)
    (hl : ∀ a ∈ l, Dom a) :
    (∀ p ∈ visited step s l, P p.1 p.2) ↔ ∀ p ∈ visited step s l, Ok p.1 p.2 := by
  induction l generalizing s with
  | nil => simp
  | cons a l ih =>
    obtain ⟨ha, hl⟩ := List.forall_mem_cons.mp hl
    rw [visited_cons, List.forall_mem_cons, List.forall_mem_cons, hiff s a hs ha]
    exact and_congr_right fun hok => ih (hstep s a hs ha hok) hl

/-- When each action changes only its own component of the state, a run changes a component once if
it has its action once, and else not at all. -/
lemma component_of_runFrom {ρ : Type*} [DecidableEq α] {P : α → σ → ρ} {g : α → ρ → ρ} {l : List α}
    (hown : ∀ s, ∀ a ∈ l, P a (step s a) = g a (P a s))
    (hother : ∀ s, ∀ a ∈ l, ∀ b, b ≠ a → P b (step s a) = P b s) (hl : l.Nodup) (s : σ) (b : α) :
    P b (runFrom step s l) = if b ∈ l then g b (P b s) else P b s := by
  induction l generalizing s with
  | nil => rfl
  | cons a l ih =>
    obtain ⟨ha, hl⟩ := List.nodup_cons.mp hl
    change P b (runFrom step (step s a) l) = _
    rw [ih (fun s a ha => hown s a (List.mem_cons_of_mem _ ha))
      (fun s a ha => hother s a (List.mem_cons_of_mem _ ha)) hl]
    by_cases hb : b = a
    · subst hb
      rw [if_neg ha, if_pos List.mem_cons_self, hown s b List.mem_cons_self]
    · rw [hother s a List.mem_cons_self b hb]
      simp only [List.mem_cons, hb, false_or]

/-- A sequence of two computations that returns is made of two that return. -/
lemma exists_of_bind_eq_ok {ε : Type*} {β γ : Type*} {x : Except ε β} {f : β → Except ε γ} {c : γ}
    (h : x.bind f = .ok c) : ∃ b, x = .ok b ∧ f b = .ok c := by
  cases x with
  | error e => cases h
  | ok b => exact ⟨b, rfl, h⟩

/-- What each step of a loop that can fail keeps holds when the loop returns. -/
lemma invariant_of_foldlM {ε : Type*} {β γ : Type*} {f : β → γ → Except ε β} {Inv : β → Prop}
    (hstep : ∀ b c b', Inv b → f b c = .ok b' → Inv b') {b b' : β} (hb : Inv b) {l : List γ}
    (h : l.foldlM f b = .ok b') : Inv b' := by
  induction l generalizing b with
  | nil => exact Except.ok.inj h ▸ hb
  | cons c l ih =>
    obtain ⟨b₁, hb₁, h⟩ := exists_of_bind_eq_ok h
    exact ih (hstep b c b₁ hb hb₁) h

end Lib
