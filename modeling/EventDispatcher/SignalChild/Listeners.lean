import Mathlib.Data.List.Basic
import Mathlib.Data.UInt
import EventDispatcher.Base
import EventDispatcher.Lib.Run

/-!
# The listeners of `signal_child`

`signal_child` keeps a list of listeners, each for one child and some kinds of status, and a count
of them that says whether the object is in the communicator.  The count has 32 bits.
-/

namespace EventDispatcher.SignalChild

open Lib

/-! ### The status of a child -/

/-- `si_code` -/
inductive Code where
  /-- `CLD_EXITED` -/
  | exited
  /-- `CLD_KILLED` -/
  | killed
  /-- `CLD_DUMPED` -/
  | dumped
  /-- `CLD_TRAPPED` -/
  | trapped
  /-- `CLD_STOPPED` -/
  | stopped
  /-- `CLD_CONTINUED` -/
  | continued
deriving DecidableEq, Repr

/-- `SIGNAL_CHILD_FLAG_RUNNING` -/
def flagRunning : UInt32 := 0x0001

/-- `SIGNAL_CHILD_FLAG_EXITED` -/
def flagExited : UInt32 := 0x0002

/-- `SIGNAL_CHILD_FLAG_SIGNALED` -/
def flagSignaled : UInt32 := 0x0004

/-- `SIGNAL_CHILD_FLAG_STOPPED` -/
def flagStopped : UInt32 := 0x0008

/-- `SIGNAL_CHILD_FLAG_CONTINUED` -/
def flagContinued : UInt32 := 0x0010

/-- The flag for a kind of status. -/
def Code.flag : Code → UInt32
  | .exited => flagExited
  | .killed | .dumped => flagSignaled
  | .trapped | .stopped => flagStopped
  | .continued => flagContinued

/-- The child is dead. -/
def Code.isDead : Code → Bool
  | .exited | .killed | .dumped => true
  | _ => false

/-- `child_status` -/
structure ChildStatus where
  /-- `si_pid` -/
  pid : ℕ
  /-- `si_code` -/
  code : Code
  /-- `si_status` -/
  status : ℤ
  /-- 0 is the answer when there is no status. -/
  pid_pos : 0 < pid
deriving DecidableEq, Repr

namespace ChildStatus

/-- `is_exited()` -/
def isExited (s : ChildStatus) : Bool := s.code = .exited

/-- `is_signaled()` -/
def isSignaled (s : ChildStatus) : Bool := s.code = .killed || s.code = .dumped

/-- `is_stopped()` -/
def isStopped (s : ChildStatus) : Bool := s.code = .stopped || s.code = .trapped

/-- `is_continued()` -/
def isContinued (s : ChildStatus) : Bool := s.code = .continued

/-- `is_running()` -/
def isRunning (s : ChildStatus) : Bool := !s.isExited && !s.isSignaled && !s.isStopped

/-- `status_mask()` -/
def statusMask (s : ChildStatus) : UInt32 :=
  if s.isRunning then flagRunning
  else if s.isExited then flagExited
  else if s.isSignaled then flagSignaled
  else if s.isStopped then flagStopped
  else if s.isContinued then flagContinued
  else 0

/-- The mask is the flag of the kind, but a child that was continued counts as running. -/
lemma statusMask_eq (s : ChildStatus) :
    s.statusMask = if s.code = .continued then flagRunning else s.code.flag := by
  obtain ⟨pid, code, status, h⟩ := s
  cases code <;> rfl

lemma isDead_eq (s : ChildStatus) : s.code.isDead = (s.isExited || s.isSignaled) := by
  obtain ⟨pid, code, status, h⟩ := s
  cases code <;> rfl

end ChildStatus

/-! ### The listeners -/

/-- `callback_t`, with a number for the function. -/
structure Listener where
  /-- `f_child` -/
  child : ℤ
  /-- `f_callback` -/
  callback : ℕ
  /-- `f_flags` -/
  flags : UInt32
deriving DecidableEq, Repr

/-- The exceptions, with their texts. -/
inductive Thrown where
  /-- `invalid_parameter` -/
  | invalidParameter (what : String)
  /-- `count_mismatch` -/
  | countMismatch (what : String)
deriving DecidableEq, Repr

/-- The fields of `signal_child`. -/
structure Registry where
  /-- `f_listeners` -/
  listeners : List Listener := []
  /-- `f_count` -/
  count : UInt32 := 0
  /-- Whether the object is in the communicator. -/
  listed : Bool := false
deriving DecidableEq, Repr

namespace Registry

/-- `add_connection()` -/
def addConnection (r : Registry) : Registry :=
  { r with count := r.count + 1, listed := if r.count = 0 then true else r.listed }

/-- `remove_connection()` -/
def removeConnection (r : Registry) : Except Thrown Registry :=
  if r.count = 0 then
    .error (.countMismatch ("the signal_child::remove_connection() was called more times" ++
      " than the add_connection()."))
  else
    .ok { r with
      count := r.count - 1
      listed := if r.count - 1 = 0 then false else r.listed }

/-- `add_listener()`; a null pointer is `none`. -/
def addListener (r : Registry) (child : ℤ) (callback : Option ℕ) (mask : UInt32) :
    Except Thrown Registry :=
  if child ≤ 0 then
    .error (.invalidParameter
      ("the child parameter must be a valid pid_t (not " ++ toString child ++ ")."))
  else
    match callback with
    | none => .error (.invalidParameter "callback cannot be nullptr")
    | some callback =>
      if mask = 0 then .error (.invalidParameter "mask cannot be set to zero")
      else
        let r : Registry := { r with listeners := r.listeners ++ [⟨child, callback, mask⟩] }
        .ok r.addConnection

/-- The loop of `remove_listener()` at `it`, with the listeners before it; and the exception that
leaves it. -/
def removeFrom (child : ℤ) : List Listener → List Listener → Registry → Registry × Option Thrown
  | before, [], r => ({ r with listeners := before }, none)
  | before, it :: l, r =>
    if it.child = child then
      match r.removeConnection with
      | .error e => ({ r with listeners := before ++ l }, some e)
      | .ok r => removeFrom child before l r
    else removeFrom child (before ++ [it]) l r

/-- `remove_listener()` -/
def removeListener (r : Registry) (child : ℤ) : Registry × Option Thrown :=
  removeFrom child [] r.listeners r

/-- The count is the number of listeners, and the object is in the communicator when it is not
zero. -/
structure Consistent (r : Registry) : Prop where
  /-- The count. -/
  count : r.count.toNat = r.listeners.length
  /-- The communicator. -/
  listed : r.listed = true ↔ r.count ≠ 0

lemma Consistent.length_lt {r : Registry} (h : r.Consistent) : r.listeners.length < 2 ^ 32 := by
  rw [← h.count]
  exact r.count.toNat_lt

/-- A listener more, when the count does not overflow. -/
lemma Consistent.addListener {r r' : Registry} (h : r.Consistent) {child : ℤ}
    {callback : Option ℕ} {mask : UInt32} (hadd : r.addListener child callback mask = .ok r')
    (hlt : r'.listeners.length < 2 ^ 32) : r'.Consistent := by
  unfold Registry.addListener at hadd
  cases callback with
  | none => split_ifs at hadd
  | some callback =>
    dsimp only at hadd
    split_ifs at hadd
    cases hadd
    rw [addConnection, List.length_append, List.length_singleton] at hlt
    have hcount : (r.count + 1).toNat = r.count.toNat + 1 := by
      rw [UInt32.toNat_add, Nat.mod_eq_of_lt]
      · rfl
      · rw [h.count]
        exact hlt
    refine ⟨?_, ?_⟩
    · simp only [addConnection, List.length_append, List.length_singleton]
      rw [hcount, h.count]
    · have hne : r.count + 1 ≠ 0 := by
        intro hzero
        rw [hzero] at hcount
        exact absurd hcount (by simp)
      simp only [addConnection, ne_eq, hne, not_false_eq_true, iff_true]
      split_ifs with hzero
      · rfl
      · exact h.listed.mpr hzero

/-- **The loop.**  While the count is the number of listeners that are left, nothing is thrown and
the listeners of the child go. -/
lemma removeFrom_spec {child : ℤ} (l before : List Listener) {r : Registry}
    (hcount : r.count.toNat = before.length + l.length)
    (hlisted : r.listed = true ↔ r.count ≠ 0) :
    (removeFrom child before l r).2 = none ∧
      (removeFrom child before l r).1.listeners =
        before ++ l.filter (fun x => x.child ≠ child) ∧
      (removeFrom child before l r).1.Consistent := by
  induction l generalizing before r with
  | nil => exact ⟨rfl, by simp [removeFrom], by simpa [removeFrom] using hcount, hlisted⟩
  | cons it l ih =>
    rw [List.length_cons] at hcount
    rw [removeFrom]
    split_ifs with hchild
    · have hne : r.count ≠ 0 := by
        intro hzero
        rw [hzero] at hcount
        simp at hcount
      rw [removeConnection, if_neg hne]
      have hless : (r.count - 1).toNat = before.length + l.length := by
        have hle : (1 : UInt32) ≤ r.count := by
          rw [UInt32.le_iff_toNat_le]
          have : (1 : UInt32).toNat = 1 := rfl
          omega
        rw [UInt32.toNat_sub_of_le _ _ hle, hcount]
        rfl
      rw [List.filter_cons_of_neg (by simp [hchild])]
      refine ih before hless ?_
      dsimp only
      split_ifs with hzero
      · simp [hzero]
      · simp [hzero, hlisted.mpr hne]
    · rw [List.filter_cons_of_pos (by simp [hchild])]
      obtain ⟨hnone, hlist, hconsistent⟩ := ih (before ++ [it])
        (by rw [List.length_append, List.length_singleton]; omega) hlisted
      exact ⟨hnone, by rw [hlist, List.append_assoc, List.singleton_append], hconsistent⟩

lemma Consistent.removeListener {r : Registry} (h : r.Consistent) (child : ℤ) :
    (r.removeListener child).2 = none ∧
      (r.removeListener child).1.listeners = r.listeners.filter (fun x => x.child ≠ child) ∧
      (r.removeListener child).1.Consistent :=
  removeFrom_spec r.listeners [] (by rw [h.count, List.length_nil, Nat.zero_add]) h.listed

/-- What the user of a `signal_child` may call. -/
inductive Command where
  | addListener (child : ℤ) (callback : Option ℕ) (mask : UInt32)
  | removeListener (child : ℤ)
deriving DecidableEq, Repr

/-- A call.  The caller handles the exceptions. -/
def exec (r : Registry) : Command → Registry
  | .addListener child callback mask => (r.addListener child callback mask).toOption.getD r
  | .removeListener child => (r.removeListener child).1

lemma Consistent.exec {r : Registry} (h : r.Consistent) (c : Command)
    (hlt : (r.exec c).listeners.length < 2 ^ 32) : (r.exec c).Consistent := by
  cases c with
  | addListener child callback mask =>
    rw [Registry.exec] at hlt ⊢
    cases hadd : r.addListener child callback mask with
    | error e => exact h
    | ok r' =>
      rw [hadd] at hlt
      exact h.addListener hadd hlt
  | removeListener child => exact (h.removeListener child).2.2

end Registry

end EventDispatcher.SignalChild
