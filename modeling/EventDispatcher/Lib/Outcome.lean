import Mathlib.Tactic.Lemma
import Mathlib.Tactic.TypeStar

/-!
# Postconditions of computations that may fail

`Ensures x ok err` says that what `x` returns is in `ok` and what it fails with is in `err`: the
rules follow how the computation is put together, a sequence (`Ensures.bind`), a choice
(`Ensures.ite`), a weaker postcondition (`Ensures.mono`).  What is known of a result is used by
`Ensures.of_eq_ok` and `Ensures.of_eq_error`.  A computation that is simulated by another one is
seen `through` the functions that relate their values and their failures, part by part
(`through_bind`).
-/

namespace Lib

universe u

variable {ε : Type*} {α β : Type u} {x : Except ε α} {ok ok' : α → Prop} {err err' : ε → Prop}

/-- What the computation returns is in `ok`, what it fails with is in `err`. -/
def Ensures (x : Except ε α) (ok : α → Prop) (err : ε → Prop) : Prop :=
  match x with
  | .ok a => ok a
  | .error e => err e

namespace Ensures

@[simp] lemma ok_iff {a : α} : Ensures (.ok a : Except ε α) ok err ↔ ok a := Iff.rfl

@[simp] lemma error_iff {e : ε} : Ensures (.error e : Except ε α) ok err ↔ err e := Iff.rfl

/-- **Consequence.** -/
lemma mono (h : Ensures x ok err) (hok : ∀ a, ok a → ok' a) (herr : ∀ e, err e → err' e) :
    Ensures x ok' err' := by
  cases x with
  | ok a => exact hok a h
  | error e => exact herr e h

/-- **Sequence.**  The second part starts with what the first one ensures. -/
lemma bind {p : α → Prop} {f : α → Except ε β} {ok : β → Prop} (h : Ensures x p err)
    (hf : ∀ a, p a → Ensures (f a) ok err) : Ensures (x >>= f) ok err := by
  cases x with
  | ok a => exact hf a h
  | error e => exact h

lemma map {p : α → Prop} {f : α → β} {ok : β → Prop} (h : Ensures x p err)
    (hf : ∀ a, p a → ok (f a)) : Ensures (x.map f) ok err := by
  cases x with
  | ok a => exact hf a h
  | error e => exact h

/-- **Choice.** -/
lemma ite {c : Prop} [Decidable c] {y : Except ε α} (hx : c → Ensures x ok err)
    (hy : ¬ c → Ensures y ok err) : Ensures (if c then x else y) ok err := by
  by_cases hc : c
  · rw [if_pos hc]
    exact hx hc
  · rw [if_neg hc]
    exact hy hc

lemma of_eq_ok {a : α} (h : Ensures x ok err) (hx : x = .ok a) : ok a := by
  subst hx
  exact h

lemma of_eq_error {e : ε} (h : Ensures x ok err) (hx : x = .error e) : err e := by
  subst hx
  exact h

end Ensures

/-! ## Simulated computations -/

variable {δ : Type*} {α' β' : Type u} {f : α → α'} {g : ε → δ}

/-- An outcome, seen through a function on the values and one on the failures. -/
def through (f : α → α') (g : ε → δ) : Except ε α → Except δ α'
  | .ok a => .ok (f a)
  | .error e => .error (g e)

@[simp] lemma through_ok (a : α) : through f g (.ok a : Except ε α) = .ok (f a) := rfl

@[simp] lemma through_error (e : ε) : through f g (.error e : Except ε α) = .error (g e) := rfl

/-- **A sequence** is simulated part by part. -/
lemma through_bind {h : β → β'} {k : α → Except ε β} {k' : α' → Except δ β'}
    (hk : ∀ a, x = .ok a → through h g (k a) = k' (f a)) :
    through h g (x >>= k) = through f g x >>= k' := by
  cases x with
  | ok a => exact hk a rfl
  | error e => rfl

end Lib
