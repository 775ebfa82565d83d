import EventDispatcher.Lib.Run
import Mathlib.Data.Nat.Bitwise
import Mathlib.Data.UInt
import Mathlib.Logic.Function.Basic

/-!
# The dispositions of the signals

`add_terminal_signals()` and `add_ignored_signals()` save the disposition of a signal before they
change it, and the saved disposition also says that the signal is managed; `remove_signals()`
restores it.  The dispositions follow the calls whatever the masks are.  What the two additions
return is the mask of the signals that they changed exactly when their masks leave out the signals
that `sigaction()` refuses, since its failure is not looked at (`dispositions_follow_iff`).
-/

namespace EventDispatcher.SignalHandler

open Lib

/-! ### The system -/

/-- `sa_handler` or `sa_sigaction` -/
inductive SigHandler where
  | default
  | ignore
  | signalHandlerFunc
  | function (address : ℕ)
deriving DecidableEq, Repr

/-- `struct sigaction` -/
structure SigAction where
  /-- `sa_handler`, `sa_sigaction` -/
  handler : SigHandler := .default
  /-- `sa_mask` -/
  mask : UInt64 := 0
  /-- `sa_flags` -/
  flags : UInt32 := 0
deriving DecidableEq, Repr

/-- `SA_SIGINFO` -/
def saSiginfo : UInt32 := 4

/-- `sigaction()`: the dispositions, and what is written through `oldact`.  It fails without effect
on the signals that it refuses. -/
def sigaction (refuses : ℕ → Bool) (i : ℕ) (act : SigAction) (actions : ℕ → SigAction) :
    (ℕ → SigAction) × Option SigAction :=
  if refuses i then (actions, none) else (Function.update actions i act, some (actions i))

/-! ### The handler -/

/-- A mask has the bit of a signal. -/
def hasSignal (sigs : UInt64) (i : ℕ) : Bool := sigs &&& (1 <<< i.toUInt64) ≠ 0

/-- `ALL_SIGNALS` -/
def allSignals : UInt64 := 0xfffffffffffffffe

/-- The calls. -/
inductive Call where
  | addTerminalSignals (sigs : UInt64)
  | addIgnoredSignals (sigs : UInt64)
  | removeSignals (sigs : UInt64)
  | removeAllSignals
deriving DecidableEq, Repr

/-- The dispositions, with those that are saved and the calls that were made. -/
structure Dispositions where
  /-- What the system does on a signal. -/
  actions : ℕ → SigAction
  /-- `f_signal_actions` -/
  saved : ℕ → Option SigAction := fun _ => none
  /-- The calls. -/
  calls : List Call := []

namespace Dispositions

/-- The indices of the loops. -/
def indices : List ℕ := List.range' 1 63

/-- One signal in the loops of the additions. -/
def addSignal (refuses : ℕ → Bool) (action : SigAction) (sigs : UInt64)
    (s : Dispositions × UInt64) (i : ℕ) : Dispositions × UInt64 :=
  let (d, result) := s
  if hasSignal sigs i ∧ d.saved i = none then
    let (actions, old) := sigaction refuses i action d.actions
    -- the record that is saved is made before the call, and it is kept when the call fails
    ({ d with actions := actions, saved := Function.update d.saved i (some (old.getD {})) },
      result ||| 1 <<< i.toUInt64)
  else (d, result)

/-- The loop of the additions, with the mask that they return. -/
def addSignals (refuses : ℕ → Bool) (action : SigAction) (sigs : UInt64) (d : Dispositions) :
    Dispositions × UInt64 :=
  indices.foldl (addSignal refuses action sigs) (d, 0)

/-- What `add_terminal_signals()` installs. -/
def terminalAction : SigAction := { handler := .signalHandlerFunc, flags := saSiginfo }

/-- What `add_ignored_signals()` installs. -/
def ignoredAction : SigAction := { handler := .ignore }

/-- `add_terminal_signals()` -/
def addTerminalSignals (refuses : ℕ → Bool) (sigs : UInt64) (d : Dispositions) :
    Dispositions × UInt64 :=
  addSignals refuses terminalAction sigs d

/-- `add_ignored_signals()` -/
def addIgnoredSignals (refuses : ℕ → Bool) (sigs : UInt64) (d : Dispositions) :
    Dispositions × UInt64 :=
  addSignals refuses ignoredAction sigs d

/-- One signal in the loop of `remove_signals()`. -/
def removeSignal (refuses : ℕ → Bool) (sigs : UInt64) (d : Dispositions) (i : ℕ) : Dispositions :=
  match d.saved i with
  | none => d
  | some old =>
    if hasSignal sigs i then
      { d with
        actions := (sigaction refuses i old d.actions).1
        saved := Function.update d.saved i none }
    else d

/-- `remove_signals()` -/
def removeSignals (refuses : ℕ → Bool) (sigs : UInt64) (d : Dispositions) : Dispositions :=
  indices.foldl (removeSignal refuses sigs) d

/-- `remove_all_signals()` -/
def removeAllSignals (refuses : ℕ → Bool) (d : Dispositions) : Dispositions :=
  d.removeSignals refuses allSignals

/-- A call, with what it returns when it returns something. -/
def call (refuses : ℕ → Bool) (d : Dispositions) (c : Call) : Dispositions × Option UInt64 :=
  let (d', result) :=
    match c with
    | .addTerminalSignals sigs =>
      let (d, result) := d.addTerminalSignals refuses sigs
      (d, some result)
    | .addIgnoredSignals sigs =>
      let (d, result) := d.addIgnoredSignals refuses sigs
      (d, some result)
    | .removeSignals sigs => (d.removeSignals refuses sigs, none)
    | .removeAllSignals => (d.removeAllSignals refuses, none)
  ({ d' with calls := d.calls ++ [c] }, result)

end Dispositions

/-! ### What the calls mean -/

/-- What a signal is set to. -/
inductive Status where
  | original
  | terminal
  | ignored
deriving DecidableEq, Repr

namespace Status

/-- The status of a signal after a call. -/
def after (refuses : ℕ → Bool) (i : ℕ) (t : Status) : Call → Status
  | .addTerminalSignals sigs =>
    if t = .original ∧ hasSignal sigs i ∧ refuses i = false then .terminal else t
  | .addIgnoredSignals sigs =>
    if t = .original ∧ hasSignal sigs i ∧ refuses i = false then .ignored else t
  | .removeSignals sigs => if hasSignal sigs i then .original else t
  | .removeAllSignals => .original

/-- The status of a signal after a list of calls. -/
def afterAll (refuses : ℕ → Bool) (i : ℕ) (calls : List Call) : Status :=
  calls.foldl (after refuses i) .original

/-- The disposition of a signal that has an original disposition. -/
def action (original : SigAction) : Status → SigAction
  | .original => original
  | .terminal => Dispositions.terminalAction
  | .ignored => Dispositions.ignoredAction

end Status

/-- After a call, each signal has the disposition of the calls, the mask that is returned is the one
of the signals that the call changed, and all the signals have their original disposition when all
were removed. -/
structure Follows (refuses : ℕ → Bool) (original : ℕ → SigAction) (d : Dispositions) (c : Call) :
    Prop where
  actions : ∀ i, 1 ≤ i → i < 64 → refuses i = false →
    (d.call refuses c).1.actions i =
      (Status.afterAll refuses i (d.calls ++ [c])).action (original i)
  result : ∀ r, (d.call refuses c).2 = some r → ∀ i < 64,
    (hasSignal r i = true ↔ 1 ≤ i ∧
      Status.afterAll refuses i (d.calls ++ [c]) ≠ Status.afterAll refuses i d.calls)
  restored : c = .removeAllSignals → (d.call refuses c).1.actions = original

/-- A call adds a signal that `sigaction()` refuses. -/
def Call.addsRefused (refuses : ℕ → Bool) : Call → Prop
  | .addTerminalSignals sigs | .addIgnoredSignals sigs =>
    ∃ i, 1 ≤ i ∧ i < 64 ∧ hasSignal sigs i = true ∧ refuses i = true
  | .removeSignals _ | .removeAllSignals => False

/-! ### Masks -/

lemma toNat_bit {i : ℕ} (hi : i < 64) : ((1 : UInt64) <<< i.toUInt64).toNat = 2 ^ i := by
  have hmod : i.toUInt64.toNat % 64 = i := by
    change i % 2 ^ 64 % 64 = i
    omega
  rw [UInt64.toNat_shiftLeft, hmod]
  change 1 <<< i % 2 ^ 64 = 2 ^ i
  rw [Nat.one_shiftLeft, Nat.mod_eq_of_lt (Nat.pow_lt_pow_right (by decide) hi)]

lemma hasSignal_eq (sigs : UInt64) {i : ℕ} (hi : i < 64) :
    hasSignal sigs i = sigs.toNat.testBit i := by
  rw [hasSignal, Bool.eq_iff_iff, decide_eq_true_iff, ne_eq, ← UInt64.toNat_inj, UInt64.toNat_and,
    toNat_bit hi, Nat.and_two_pow]
  cases sigs.toNat.testBit i <;> simp

lemma hasSignal_or (result : UInt64) {i j : ℕ} (hi : i < 64) (hj : j < 64) :
    hasSignal (result ||| 1 <<< j.toUInt64) i = (hasSignal result i || decide (j = i)) := by
  rw [hasSignal_eq _ hi, hasSignal_eq _ hi, UInt64.toNat_or, toNat_bit hj, Nat.testBit_or,
    Nat.testBit_two_pow]

lemma hasSignal_zero (i : ℕ) : hasSignal 0 i = false := by
  simp [hasSignal]

lemma hasSignal_allSignals {i : ℕ} (h : 1 ≤ i) (hi : i < 64) : hasSignal allSignals i = true := by
  have hall : ∀ i < 64, i = 0 ∨ hasSignal allSignals i = true := by decide
  exact (hall i hi).resolve_left (by omega)

namespace Dispositions

lemma mem_indices {i : ℕ} : i ∈ indices ↔ 1 ≤ i ∧ i < 64 := by
  rw [indices, List.mem_range'_1]

/-! ### The loops -/

/-- What the loop of the additions looks at for one signal: its saved disposition, its disposition
and its bit in the mask that is returned. -/
def component (i : ℕ) (s : Dispositions × UInt64) : Option SigAction × SigAction × Bool :=
  (s.1.saved i, s.1.actions i, decide (i < 64) && hasSignal s.2 i)

/-- What the additions do to one signal. -/
def addComponent (refuses : ℕ → Bool) (action : SigAction) (sigs : UInt64) (i : ℕ)
    (s : Option SigAction × SigAction × Bool) : Option SigAction × SigAction × Bool :=
  if hasSignal sigs i ∧ s.1 = none then
    if refuses i then (some {}, s.2.1, true) else (some s.2.1, action, true)
  else s

lemma addSignal_eq (refuses : ℕ → Bool) (action : SigAction) (sigs : UInt64) (d : Dispositions)
    (result : UInt64) (i : ℕ) :
    addSignal refuses action sigs (d, result) i =
      if hasSignal sigs i ∧ d.saved i = none then
        ({ d with
            actions := (sigaction refuses i action d.actions).1
            saved := Function.update d.saved i
              (some ((sigaction refuses i action d.actions).2.getD {})) },
          result ||| 1 <<< i.toUInt64)
      else (d, result) := rfl

lemma component_addSignal (refuses : ℕ → Bool) (action : SigAction) (sigs : UInt64)
    (s : Dispositions × UInt64) {i : ℕ} (hi : i < 64) :
    component i (addSignal refuses action sigs s i) =
      addComponent refuses action sigs i (component i s) := by
  obtain ⟨d, result⟩ := s
  by_cases hadd : hasSignal sigs i ∧ d.saved i = none
  · have hcomponent : addComponent refuses action sigs i (component i (d, result)) =
        if refuses i then (some {}, d.actions i, true) else (some (d.actions i), action, true) :=
      if_pos hadd
    rw [hcomponent, addSignal_eq, if_pos hadd, component]
    cases hr : refuses i <;> simp [sigaction, hr, hasSignal_or _ hi hi, hi]
  · have hcomponent : addComponent refuses action sigs i (component i (d, result)) =
        component i (d, result) := if_neg hadd
    rw [hcomponent, addSignal_eq, if_neg hadd]

lemma component_addSignal_of_ne (refuses : ℕ → Bool) (action : SigAction) (sigs : UInt64)
    (s : Dispositions × UInt64) {i j : ℕ} (hi : i < 64) (hij : j ≠ i) :
    component j (addSignal refuses action sigs s i) = component j s := by
  obtain ⟨d, result⟩ := s
  by_cases hadd : hasSignal sigs i ∧ d.saved i = none
  · rw [addSignal_eq, if_pos hadd, component, component]
    have hbit : (decide (j < 64) && hasSignal (result ||| 1 <<< i.toUInt64) j) =
        (decide (j < 64) && hasSignal result j) := by
      by_cases hj : j < 64
      · rw [hasSignal_or _ hj hi]
        simp [Ne.symm hij]
      · simp [hj]
    dsimp only
    rw [hbit]
    cases hr : refuses i <;> simp [sigaction, hr, hij]
  · rw [addSignal_eq, if_neg hadd]

/-- The additions, signal by signal. -/
lemma component_addSignals (refuses : ℕ → Bool) (action : SigAction) (sigs : UInt64)
    (d : Dispositions) (i : ℕ) :
    component i (addSignals refuses action sigs d) =
      if i ∈ indices then addComponent refuses action sigs i (component i (d, 0))
      else component i (d, 0) := by
  change component i (runFrom (addSignal refuses action sigs) (d, 0) indices) = _
  exact component_of_runFrom (P := component) (g := addComponent refuses action sigs)
    (fun s j hj => component_addSignal refuses action sigs s (mem_indices.mp hj).2)
    (fun s j hj k hk => component_addSignal_of_ne refuses action sigs s (mem_indices.mp hj).2 hk)
    (List.nodup_range' _) _ _

/-- What the additions save, set and return. -/
lemma addSignals_spec (refuses : ℕ → Bool) (action : SigAction) (sigs : UInt64) (d : Dispositions)
    (i : ℕ) :
    let add := i ∈ indices ∧ hasSignal sigs i ∧ d.saved i = none
    let s := addSignals refuses action sigs d
    s.1.saved i = (if add then some (if refuses i then {} else d.actions i) else d.saved i) ∧
      s.1.actions i = (if add ∧ refuses i = false then action else d.actions i) ∧
      (i < 64 → (hasSignal s.2 i = true ↔ add)) := by
  intro add s
  have hcomponent : component i s = _ := component_addSignals refuses action sigs d i
  have hsaved : s.1.saved i = _ := congrArg Prod.fst hcomponent
  have hactions : s.1.actions i = _ := congrArg (fun c => c.2.1) hcomponent
  have hbit : (decide (i < 64) && hasSignal s.2 i) = _ := congrArg (fun c => c.2.2) hcomponent
  rw [hsaved, hactions]
  by_cases hi : i ∈ indices
  · by_cases hadd : hasSignal sigs i ∧ d.saved i = none
    · have heq : addComponent refuses action sigs i (component i (d, 0)) =
          if refuses i then (some {}, d.actions i, true) else (some (d.actions i), action, true) :=
        if_pos hadd
      rw [if_pos hi, heq] at hbit ⊢
      have hadd' : add := ⟨hi, hadd⟩
      rw [if_pos hadd']
      cases hr : refuses i <;> simp_all
    · have heq : addComponent refuses action sigs i (component i (d, 0)) = component i (d, 0) :=
        if_neg hadd
      have hadd' : ¬ add := fun h => hadd h.2
      rw [if_pos hi, heq] at hbit ⊢
      rw [if_neg hadd', if_neg fun h => hadd' h.1]
      refine ⟨rfl, rfl, fun hlt => ?_⟩
      simp only [component, hlt, hasSignal_zero] at hbit
      simp_all
  · have hadd' : ¬ add := fun h => hi h.1
    rw [if_neg hi] at hbit ⊢
    rw [if_neg hadd', if_neg fun h => hadd' h.1]
    refine ⟨rfl, rfl, fun hlt => ?_⟩
    simp only [component, hlt, hasSignal_zero] at hbit
    simp_all

/-- What `remove_signals()` does to one signal: its saved disposition and its disposition. -/
def removeComponent (refuses : ℕ → Bool) (sigs : UInt64) (i : ℕ)
    (s : Option SigAction × SigAction) : Option SigAction × SigAction :=
  match s.1 with
  | none => s
  | some old =>
    if hasSignal sigs i then (none, if refuses i then s.2 else old) else s

lemma removeSignal_own (refuses : ℕ → Bool) (sigs : UInt64) (d : Dispositions) (i : ℕ) :
    ((removeSignal refuses sigs d i).saved i, (removeSignal refuses sigs d i).actions i) =
      removeComponent refuses sigs i (d.saved i, d.actions i) := by
  rw [removeSignal, removeComponent]
  cases hsaved : d.saved i with
  | none => simp [hsaved]
  | some old => cases hasSignal sigs i <;> cases hr : refuses i <;> simp [sigaction, hr, hsaved]

lemma removeSignal_other (refuses : ℕ → Bool) (sigs : UInt64) (d : Dispositions) {i j : ℕ}
    (hij : j ≠ i) :
    ((removeSignal refuses sigs d i).saved j, (removeSignal refuses sigs d i).actions j) =
      (d.saved j, d.actions j) := by
  rw [removeSignal]
  cases d.saved i with
  | none => rfl
  | some old => cases hasSignal sigs i <;> cases hr : refuses i <;> simp [sigaction, hr, hij]

/-- `remove_signals()`, signal by signal. -/
lemma component_removeSignals (refuses : ℕ → Bool) (sigs : UInt64) (d : Dispositions) (i : ℕ) :
    ((d.removeSignals refuses sigs).saved i, (d.removeSignals refuses sigs).actions i) =
      if i ∈ indices then removeComponent refuses sigs i (d.saved i, d.actions i)
      else (d.saved i, d.actions i) := by
  have hrun := component_of_runFrom (l := indices) (P := fun i (d : Dispositions) =>
    (d.saved i, d.actions i)) (g := removeComponent refuses sigs)
    (fun d j _ => removeSignal_own refuses sigs d j)
    (fun d j _ k hk => removeSignal_other refuses sigs d hk) (List.nodup_range' _) d i
  exact hrun

/-- What `remove_signals()` restores. -/
lemma removeSignals_spec (refuses : ℕ → Bool) (sigs : UInt64) (d : Dispositions) (i : ℕ) :
    (d.removeSignals refuses sigs).saved i =
        (if i ∈ indices ∧ hasSignal sigs i then none else d.saved i) ∧
      (d.removeSignals refuses sigs).actions i =
        if i ∈ indices ∧ hasSignal sigs i ∧ refuses i = false then (d.saved i).getD (d.actions i)
        else d.actions i := by
  have hcomponent := component_removeSignals refuses sigs d i
  have hsaved : (d.removeSignals refuses sigs).saved i = _ := congrArg Prod.fst hcomponent
  have hactions : (d.removeSignals refuses sigs).actions i = _ := congrArg Prod.snd hcomponent
  rw [hsaved, hactions]
  by_cases hi : i ∈ indices
  · rw [if_pos hi, removeComponent]
    cases hs : d.saved i <;> cases hb : hasSignal sigs i <;> cases hr : refuses i <;> simp [hi]
  · rw [if_neg hi, if_neg fun h => hi h.1, if_neg fun h => hi h.1]
    exact ⟨rfl, rfl⟩

end Dispositions

/-! ### Runs -/

open Dispositions

section Runs

variable {refuses : ℕ → Bool} {original : ℕ → SigAction} {d : Dispositions}

lemma Status.afterAll_concat (i : ℕ) (calls : List Call) (c : Call) :
    Status.afterAll refuses i (calls ++ [c]) =
      (Status.afterAll refuses i calls).after refuses i c := by
  rw [Status.afterAll, List.foldl_append]
  rfl

lemma call_addTerminalSignals (sigs : UInt64) :
    d.call refuses (.addTerminalSignals sigs) =
      ({ (addSignals refuses terminalAction sigs d).1 with
          calls := d.calls ++ [.addTerminalSignals sigs] },
        some (addSignals refuses terminalAction sigs d).2) := by
  rw [Dispositions.call, addTerminalSignals]

lemma call_addIgnoredSignals (sigs : UInt64) :
    d.call refuses (.addIgnoredSignals sigs) =
      ({ (addSignals refuses ignoredAction sigs d).1 with
          calls := d.calls ++ [.addIgnoredSignals sigs] },
        some (addSignals refuses ignoredAction sigs d).2) := by
  rw [Dispositions.call, addIgnoredSignals]

/-- The dispositions follow the calls: a signal that `sigaction()` accepts is managed exactly when
its status is not the original one, and then its original disposition is saved. -/
structure Sound (refuses : ℕ → Bool) (original : ℕ → SigAction) (d : Dispositions) : Prop where
  actions : ∀ i ∈ indices, refuses i = false →
    d.actions i = (Status.afterAll refuses i d.calls).action (original i)
  saved : ∀ i ∈ indices, refuses i = false →
    d.saved i = if Status.afterAll refuses i d.calls = .original then none else some (original i)
  others : ∀ i, i ∉ indices ∨ refuses i = true → d.actions i = original i

/-- One of the two additions. -/
lemma Sound.add (h : Sound refuses original d) {c : Call} {sigs : UInt64} {t : Status}
    (ht : t ≠ .original)
    (hafter : ∀ i s, Status.after refuses i s c =
      if s = .original ∧ hasSignal sigs i ∧ refuses i = false then t else s)
    {action : SigAction} (haction : ∀ o, t.action o = action)
    (hcall : d.call refuses c =
      ({ (addSignals refuses action sigs d).1 with calls := d.calls ++ [c] },
        some (addSignals refuses action sigs d).2)) :
    Sound refuses original (d.call refuses c).1 := by
  have hspec := addSignals_spec refuses action sigs d
  rw [hcall]
  refine ⟨fun i hi hr => ?_, fun i hi hr => ?_, fun i hi => ?_⟩
  · change (addSignals refuses action sigs d).1.actions i =
      (Status.afterAll refuses i (d.calls ++ [c])).action (original i)
    rw [(hspec i).2.1, Status.afterAll_concat, hafter, h.saved i hi hr, h.actions i hi hr]
    by_cases hs : Status.afterAll refuses i d.calls = .original <;>
      cases hb : hasSignal sigs i <;> simp [hi, hr, hs, haction]
  · change (addSignals refuses action sigs d).1.saved i =
      if Status.afterAll refuses i (d.calls ++ [c]) = .original then none else some (original i)
    rw [(hspec i).1, Status.afterAll_concat, hafter, h.saved i hi hr, h.actions i hi hr]
    by_cases hs : Status.afterAll refuses i d.calls = .original <;>
      cases hb : hasSignal sigs i <;> simp [hi, hr, hs, ht, Status.action]
  · change (addSignals refuses action sigs d).1.actions i = original i
    rw [(hspec i).2.1, if_neg, h.others i hi]
    rintro ⟨hadd, hr⟩
    obtain hi | hi := hi
    · exact hi hadd.1
    · rw [hr] at hi
      cases hi

/-- `remove_signals()` or `remove_all_signals()`. -/
lemma Sound.remove (h : Sound refuses original d) {c : Call} {sigs : UInt64}
    (hafter : ∀ i ∈ indices, ∀ s, Status.after refuses i s c =
      if hasSignal sigs i then .original else s)
    (hcall : d.call refuses c =
      ({ d.removeSignals refuses sigs with calls := d.calls ++ [c] }, none)) :
    Sound refuses original (d.call refuses c).1 := by
  have hspec := removeSignals_spec refuses sigs d
  rw [hcall]
  refine ⟨fun i hi hr => ?_, fun i hi hr => ?_, fun i hi => ?_⟩
  · change (d.removeSignals refuses sigs).actions i =
      (Status.afterAll refuses i (d.calls ++ [c])).action (original i)
    rw [(hspec i).2, Status.afterAll_concat, hafter i hi, h.saved i hi hr, h.actions i hi hr]
    by_cases hs : Status.afterAll refuses i d.calls = .original <;>
      cases hb : hasSignal sigs i <;> simp [hi, hr, hs, Status.action]
  · change (d.removeSignals refuses sigs).saved i =
      if Status.afterAll refuses i (d.calls ++ [c]) = .original then none else some (original i)
    rw [(hspec i).1, Status.afterAll_concat, hafter i hi, h.saved i hi hr]
    cases hb : hasSignal sigs i <;> simp [hi]
  · change (d.removeSignals refuses sigs).actions i = original i
    rw [(hspec i).2, if_neg, h.others i hi]
    rintro ⟨hmem, -, hr⟩
    obtain hi | hi := hi
    · exact hi hmem
    · rw [hr] at hi
      cases hi

lemma Sound.call (h : Sound refuses original d) (c : Call) :
    Sound refuses original (d.call refuses c).1 := by
  cases c with
  | addTerminalSignals sigs =>
    exact h.add (t := .terminal) (fun h => by cases h) (fun _ _ => rfl) (fun _ => rfl)
      (call_addTerminalSignals sigs)
  | addIgnoredSignals sigs =>
    exact h.add (t := .ignored) (fun h => by cases h) (fun _ _ => rfl) (fun _ => rfl)
      (call_addIgnoredSignals sigs)
  | removeSignals sigs => exact h.remove (fun _ _ _ => rfl) rfl
  | removeAllSignals =>
    have hafter : ∀ i ∈ indices, ∀ s, Status.after refuses i s .removeAllSignals =
        if hasSignal allSignals i then .original else s := by
      intro i hi s
      obtain ⟨hpos, hlt⟩ := mem_indices.mp hi
      rw [hasSignal_allSignals hpos hlt]
      rfl
    exact h.remove hafter rfl

/-- No signal that `sigaction()` refuses is managed. -/
def Unmanaged (refuses : ℕ → Bool) (d : Dispositions) : Prop :=
  ∀ i ∈ indices, refuses i = true → d.saved i = none

lemma Unmanaged.call (h : Unmanaged refuses d) {c : Call} (hc : ¬ c.addsRefused refuses) :
    Unmanaged refuses (d.call refuses c).1 := by
  have hadd : ∀ sigs, (¬ ∃ i, 1 ≤ i ∧ i < 64 ∧ hasSignal sigs i = true ∧ refuses i = true) →
      ∀ action, ∀ i ∈ indices, refuses i = true →
        (addSignals refuses action sigs d).1.saved i = none := by
    intro sigs hsigs action i hi hr
    obtain ⟨hpos, hlt⟩ := mem_indices.mp hi
    rw [(addSignals_spec refuses action sigs d i).1, if_neg, h i hi hr]
    rintro ⟨-, hb, -⟩
    exact hsigs ⟨i, hpos, hlt, hb, hr⟩
  have hremove : ∀ sigs, ∀ i ∈ indices, refuses i = true →
      (d.removeSignals refuses sigs).saved i = none := by
    intro sigs i hi hr
    rw [(removeSignals_spec refuses sigs d i).1, h i hi hr, ite_self]
  cases c with
  | addTerminalSignals sigs =>
    rw [call_addTerminalSignals]
    exact hadd sigs hc _
  | addIgnoredSignals sigs =>
    rw [call_addIgnoredSignals]
    exact hadd sigs hc _
  | removeSignals sigs => exact hremove sigs
  | removeAllSignals => exact hremove allSignals

/-- The mask that an addition returns is the one of the signals that it changed exactly when
`sigaction()` accepts those of its mask. -/
lemma result_add_iff (h : Sound refuses original d) (hu : Unmanaged refuses d) {c : Call}
    {sigs : UInt64} {t : Status} (ht : t ≠ .original)
    (hafter : ∀ i s, Status.after refuses i s c =
      if s = .original ∧ hasSignal sigs i ∧ refuses i = false then t else s)
    (action : SigAction) :
    (∀ i < 64, (hasSignal (addSignals refuses action sigs d).2 i = true ↔ 1 ≤ i ∧
        Status.afterAll refuses i (d.calls ++ [c]) ≠ Status.afterAll refuses i d.calls)) ↔
      ¬ ∃ i, 1 ≤ i ∧ i < 64 ∧ hasSignal sigs i = true ∧ refuses i = true := by
  have hbit := fun i hi => (addSignals_spec refuses action sigs d i).2.2 hi
  have hchanged : ∀ i, Status.afterAll refuses i (d.calls ++ [c]) ≠
      Status.afterAll refuses i d.calls ↔
        Status.afterAll refuses i d.calls = .original ∧ hasSignal sigs i ∧ refuses i = false := by
    intro i
    rw [Status.afterAll_concat, hafter]
    by_cases hs : Status.afterAll refuses i d.calls = .original ∧ hasSignal sigs i ∧
        refuses i = false
    · rw [if_pos hs, hs.1]
      exact ⟨fun _ => ⟨rfl, hs.2⟩, fun _ => ht⟩
    · rw [if_neg hs]
      exact ⟨fun h => absurd rfl h, fun h => absurd h hs⟩
  constructor
  · rintro hresult ⟨i, hpos, hlt, hb, hr⟩
    have hreturned := (hbit i hlt).mpr ⟨mem_indices.mpr ⟨hpos, hlt⟩, hb,
      hu i (mem_indices.mpr ⟨hpos, hlt⟩) hr⟩
    have hrefused := ((hchanged i).mp ((hresult i hlt).mp hreturned).2).2.2
    rw [hr] at hrefused
    cases hrefused
  · intro hsigs i hlt
    rw [hbit i hlt, hchanged, mem_indices]
    constructor
    · rintro ⟨⟨hpos, -⟩, hb, hsaved⟩
      have hr : refuses i = false := by
        by_contra hr
        exact hsigs ⟨i, hpos, hlt, hb, Bool.not_eq_false _ ▸ hr⟩
      rw [h.saved i (mem_indices.mpr ⟨hpos, hlt⟩) hr] at hsaved
      refine ⟨hpos, ?_, hb, hr⟩
      by_contra hs
      rw [if_neg hs] at hsaved
      cases hsaved
    · rintro ⟨hpos, hs, hb, hr⟩
      refine ⟨⟨hpos, hlt⟩, hb, ?_⟩
      rw [h.saved i (mem_indices.mpr ⟨hpos, hlt⟩) hr, if_pos hs]

/-- A call does what it should exactly when it adds no signal that `sigaction()` refuses. -/
lemma follows_call_iff (h : Sound refuses original d) (hu : Unmanaged refuses d) (c : Call) :
    Follows refuses original d c ↔ ¬ c.addsRefused refuses := by
  have hactions : ∀ i, 1 ≤ i → i < 64 → refuses i = false →
      (d.call refuses c).1.actions i =
        (Status.afterAll refuses i (d.calls ++ [c])).action (original i) :=
    fun i hpos hlt hr => (h.call c).actions i (mem_indices.mpr ⟨hpos, hlt⟩) hr
  have hrestored : c = .removeAllSignals → (d.call refuses c).1.actions = original := by
    rintro rfl
    funext i
    by_cases hi : i ∈ indices ∧ refuses i = false
    · rw [(h.call .removeAllSignals).actions i hi.1 hi.2]
      change (Status.afterAll refuses i (d.calls ++ [.removeAllSignals])).action (original i) = _
      rw [Status.afterAll_concat]
      rfl
    · refine (h.call .removeAllSignals).others i ?_
      rwa [not_and_or, Bool.not_eq_false] at hi
  have hiff : Follows refuses original d c ↔ ∀ r, (d.call refuses c).2 = some r → ∀ i < 64,
      (hasSignal r i = true ↔ 1 ≤ i ∧
        Status.afterAll refuses i (d.calls ++ [c]) ≠ Status.afterAll refuses i d.calls) :=
    ⟨fun h => h.result, fun h => ⟨hactions, h, hrestored⟩⟩
  rw [hiff]
  cases c with
  | addTerminalSignals sigs =>
    rw [call_addTerminalSignals]
    refine Iff.trans ?_ (result_add_iff h hu (c := .addTerminalSignals sigs) (t := .terminal)
      (fun h => by cases h) (fun _ _ => rfl) terminalAction)
    exact ⟨fun h => h _ rfl, fun h r hr => Option.some.inj hr ▸ h⟩
  | addIgnoredSignals sigs =>
    rw [call_addIgnoredSignals]
    refine Iff.trans ?_ (result_add_iff h hu (c := .addIgnoredSignals sigs) (t := .ignored)
      (fun h => by cases h) (fun _ _ => rfl) ignoredAction)
    exact ⟨fun h => h _ rfl, fun h r hr => Option.some.inj hr ▸ h⟩
  | removeSignals sigs => exact ⟨fun _ h => h, fun _ r hr => by cases hr⟩
  | removeAllSignals => exact ⟨fun _ h => h, fun _ r hr => by cases hr⟩

end Runs

/-- In every run from any dispositions, the calls do what they should exactly when none adds a
signal that `sigaction()` refuses. -/
theorem dispositions_follow_iff (refuses : ℕ → Bool) (original : ℕ → SigAction) (l : List Call) :
    (∀ x ∈ visited (fun d c => (Dispositions.call refuses d c).1) { actions := original } l,
        Follows refuses original x.1 x.2) ↔
      ∀ x ∈ visited (fun d c => (Dispositions.call refuses d c).1) { actions := original } l,
        ¬ x.2.addsRefused refuses := by
  refine holds_each_iff
    (fun d c (h : Sound refuses original d ∧ Unmanaged refuses d) _ => follows_call_iff h.1 h.2 c)
    (fun d c h _ hc => ⟨h.1.call c, h.2.call hc⟩) ?_ l (fun _ _ => trivial)
  exact ⟨⟨fun _ _ _ => rfl, fun _ _ _ => rfl, fun _ _ => rfl⟩, fun _ _ _ => rfl⟩

/-- `sigaction()` refuses `SIGKILL` and `SIGSTOP`. -/
def uncatchable (i : ℕ) : Bool := i = 9 || i = 19

/-- A mask with `SIGKILL`. -/
theorem sigkill_not_follows :
    ¬ Follows uncatchable (fun _ => {}) { actions := fun _ => {} } (.addTerminalSignals 0x200) := by
  intro h
  have hreturned := h.result 0x200 (by decide +kernel) 9 (by decide)
  exact (hreturned.mp (by decide)).2 (by decide)

end EventDispatcher.SignalHandler
