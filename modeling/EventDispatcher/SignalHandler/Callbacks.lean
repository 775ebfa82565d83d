import EventDispatcher.Base
import EventDispatcher.Lib.Decimal
import EventDispatcher.Lib.Run
import Mathlib.Data.UInt

/-!
# The callbacks of the signal handler

`add_callback()` appends to a list, `remove_callback()` takes all the callbacks with an identifier
out of it, and `process_signal()` goes through a copy of the list.  The documentation has a signal
number that stands for all the signals, `0`, which `process_signal()` does not know: the callbacks
are those of the documentation exactly when none is registered with it (`selected_iff`).
-/

namespace EventDispatcher.SignalHandler

open Lib

/-- The exceptions of `add_callback()`. -/
inductive AddException where
  | invalidSignal (what : Str)
  | invalidCallback (what : Str)
deriving DecidableEq, Repr

/-- A callback in the list. -/
structure SignalCallback (κ : Type*) where
  /-- `f_id` -/
  id : UInt32
  /-- `f_sig` -/
  sig : Int32
  /-- `f_callback` -/
  callback : κ
deriving DecidableEq, Repr

/-- A call of `add_callback()`, which may be given `nullptr`, or of `remove_callback()`. -/
inductive Edit (κ : Type*) where
  | add (id : UInt32) (sig : Int32) (callback : Option κ)
  | remove (id : UInt32)
deriving DecidableEq, Repr

/-- A signal that the handler can be installed for. -/
structure Signal where
  /-- The number. -/
  number : Int32
  /-- There is no signal `0`. -/
  pos : 0 < number
  /-- There is an entry in `f_signal_actions`. -/
  lt : number < 64

/-- The mask of a list of signals. -/
def maskOf (sigs : List UInt64) : UInt64 :=
  sigs.foldl (fun mask sig => mask ||| (1 : UInt64) <<< sig) 0

/-- `DEFAULT_SHOW_STACK`: `ALL_SIGNALS` but for `SIGALRM`, `SIGCHLD`, `SIGHUP`, `SIGINT`, `SIGPIPE`,
`SIGPOLL`, `SIGPROF`, `SIGQUIT`, `SIGTERM`, `SIGURG`, `SIGWINCH` and `SIGXCPU`. -/
def defaultShowStack : UInt64 :=
  0xfffffffffffffffe &&& ~~~maskOf [14, 17, 1, 2, 13, 29, 27, 3, 15, 23, 28, 24]

/-- How `process_signal()` ends. -/
inductive Outcome where
  /-- A callback handled the signal. -/
  | returned
  /-- `std::terminate()`, after a stack trace or not, and with the name that is logged. -/
  | terminated (stack : Bool) (signame : Str)
deriving DecidableEq, Repr

/-- The handler, with the calls that changed its list. -/
structure Handler (κ : Type*) where
  /-- `f_callbacks` -/
  callbacks : List (SignalCallback κ) := []
  /-- `g_show_stack` -/
  showStack : UInt64 := defaultShowStack
  /-- The calls of `add_callback()` and `remove_callback()`. -/
  history : List (Edit κ) := []
  /-- The process was terminated. -/
  terminated : Bool := false

namespace Handler

variable {κ : Type*}

/-- `add_callback()` -/
def addCallback (h : Handler κ) (id : UInt32) (sig : Int32) (callback : Option κ) :
    Except AddException (Handler κ) :=
  if sig < 0 ∨ 64 ≤ sig then
    .error (.invalidSignal
      ("signal_handler::add_callback() called with invalid signal number ".toList
        ++ intText sig.toInt ++ ['.']))
  else
    match callback with
    | none =>
      .error (.invalidCallback
        "signal_handler::add_callback() called with nullptr as the callback.".toList)
    | some callback => .ok { h with callbacks := h.callbacks ++ [⟨id, sig, callback⟩] }

/-- `remove_callback()` -/
def removeCallback (h : Handler κ) (id : UInt32) : Handler κ :=
  { h with callbacks := h.callbacks.filter fun c => c.id ≠ id }

/-- A call that changes the list; what it throws is caught. -/
def edit (h : Handler κ) (e : Edit κ) : Handler κ :=
  let h' :=
    match e with
    | .add id sig callback => (h.addCallback id sig callback).toOption.getD h
    | .remove id => h.removeCallback id
  { h' with history := h.history ++ [e] }

/-- What a callback does: the calls that change the list, and what it returns.  It may depend on
the callbacks that were called before. -/
abbrev CallbackBehaviour (κ : Type*) :=
  List (SignalCallback κ × Bool) → SignalCallback κ → List (Edit κ) × Bool

/-- The loop of `process_signal()` over the copy of the list: the callbacks that are called, with
what they return. -/
def callAll (run : CallbackBehaviour κ) (sig : Int32) :
    List (SignalCallback κ) → Handler κ × List (SignalCallback κ × Bool) →
      Handler κ × List (SignalCallback κ × Bool)
  | [], s => s
  | c :: l, (h, calls) =>
    if c.sig = sig then
      let (edits, handled) := run calls c
      callAll run sig l (edits.foldl edit h, calls ++ [(c, handled)])
    else callAll run sig l (h, calls)

/-- `process_signal()`; `abbreviation` is `sigabbrev_np()`. -/
def processSignal (abbreviation : Int32 → Option Str) (run : CallbackBehaviour κ) (sig : Int32)
    (h : Handler κ) : Handler κ × List (SignalCallback κ × Bool) × Outcome :=
  let showStack := h.showStack &&& (1 <<< sig.toInt.toNat.toUInt64) ≠ 0
  let (h, calls) := callAll run sig h.callbacks (h, [])
  if calls.any Prod.snd then (h, calls, .returned)
  else
    ({ h with terminated := true }, calls,
      .terminated showStack ((abbreviation sig).getD "UNKNOWN".toList))

/-! ### What is documented -/

/-- The call removes an identifier. -/
def removes (id : UInt32) : Edit κ → Bool
  | .add _ _ _ => false
  | .remove id' => id' = id

end Handler

open Handler

variable {κ : Type*}

/-- The callbacks that a history of calls leaves registered, in the order of their registration. -/
def registered : List (Edit κ) → List (SignalCallback κ)
  | [] => []
  | .add id sig (some callback) :: l =>
    if 0 ≤ sig ∧ sig < 64 ∧ l.any (removes id) = false then ⟨id, sig, callback⟩ :: registered l
    else registered l
  | _ :: l => registered l

/-- The callbacks that are documented for a signal: those that are registered for it and those
that are registered for all the signals. -/
def documented (sig : Int32) (history : List (Edit κ)) : List (SignalCallback κ) :=
  (registered history).filter fun c => c.sig = sig ∨ c.sig = 0

/-- A signal calls the callbacks that are documented, and terminates the process exactly when none
of them returns true. -/
def Selected (abbreviation : Int32 → Option Str) (run : CallbackBehaviour κ) (sig : Signal)
    (h : Handler κ) : Prop :=
  let (_, calls, outcome) := h.processSignal abbreviation run sig.number
  calls.map Prod.fst = documented sig.number h.history ∧
    (outcome ≠ .returned ↔ ∀ c ∈ calls, c.2 = false)

/-! ### Runs -/

/-- What is called or received. -/
inductive Event (κ : Type*) where
  | edit (e : Edit κ)
  | setShowStack (sigs : UInt64)
  | signal (sig : Signal) (run : CallbackBehaviour κ)

/-- What an event changes; nothing happens once the process is terminated. -/
def Handler.step (abbreviation : Int32 → Option Str) (h : Handler κ) (a : Event κ) : Handler κ :=
  if h.terminated then h
  else
    match a with
    | .edit e => h.edit e
    | .setShowStack sigs => { h with showStack := sigs }
    | .signal sig run => (h.processSignal abbreviation run sig.number).1

/-! ### The list -/

lemma registered_append_add (l : List (Edit κ)) (id : UInt32) (sig : Int32) (callback : κ) :
    registered (l ++ [.add id sig (some callback)]) =
      registered l ++ if 0 ≤ sig ∧ sig < 64 then [⟨id, sig, callback⟩] else [] := by
  induction l with
  | nil => simp [registered]
  | cons e l ih =>
    rcases e with ⟨id', sig', - | callback'⟩ | id'
    · exact ih
    · rw [List.cons_append, registered, registered, ih]
      simp only [List.any_append, List.any_cons, List.any_nil, removes, Bool.or_false]
      split <;> rfl
    · exact ih

lemma registered_append_nullptr (l : List (Edit κ)) (id : UInt32) (sig : Int32) :
    registered (l ++ [.add id sig none]) = registered l := by
  induction l with
  | nil => rfl
  | cons e l ih =>
    rcases e with ⟨id', sig', - | callback'⟩ | id'
    · exact ih
    · rw [List.cons_append, registered, registered, ih]
      simp only [List.any_append, List.any_cons, List.any_nil, removes, Bool.or_false]
    · exact ih

lemma registered_append_remove (l : List (Edit κ)) (id : UInt32) :
    registered (l ++ [.remove id]) = (registered l).filter fun c => c.id ≠ id := by
  induction l with
  | nil => rfl
  | cons e l ih =>
    rcases e with ⟨id', sig', - | callback'⟩ | id'
    · exact ih
    · rw [List.cons_append, registered, registered, ih]
      simp only [List.any_append, List.any_cons, List.any_nil, removes, Bool.or_false]
      by_cases h : 0 ≤ sig' ∧ sig' < 64 ∧ l.any (removes id') = false
      · rw [if_pos h, h.2.2, Bool.false_or]
        by_cases hid : id = id'
        · rw [if_neg (by simp [hid]), List.filter_cons_of_neg (by simp [hid])]
        · rw [if_pos (by simp [h, hid]), List.filter_cons_of_pos (by simpa using Ne.symm hid)]
      · rw [if_neg h, if_neg]
        rintro ⟨hpos, hlt, hany⟩
        rw [Bool.or_eq_false_iff] at hany
        exact h ⟨hpos, hlt, hany.1⟩
    · exact ih

namespace Handler

/-- The list holds the callbacks that the history of the calls leaves registered. -/
def Sound (h : Handler κ) : Prop := h.callbacks = registered h.history

lemma Sound.edit {h : Handler κ} (hs : h.Sound) (e : Edit κ) : (h.edit e).Sound := by
  rw [Sound] at hs ⊢
  rcases e with ⟨id, sig, - | callback⟩ | id
  · change ((h.addCallback id sig none).toOption.getD h).callbacks = registered (h.history ++ _)
    rw [registered_append_nullptr, ← hs, addCallback]
    split <;> rfl
  · change ((h.addCallback id sig (some callback)).toOption.getD h).callbacks =
      registered (h.history ++ _)
    rw [registered_append_add, ← hs, addCallback]
    by_cases hsig : sig < 0 ∨ 64 ≤ sig
    · rw [if_pos hsig, if_neg]
      · exact (List.append_nil _).symm
      · rintro ⟨hpos, hlt⟩
        exact hsig.elim (Int32.not_lt.mpr hpos) (Int32.not_le.mpr hlt)
    · rw [if_neg hsig, if_pos]
      · rfl
      · rw [not_or, Int32.not_lt, Int32.not_le] at hsig
        exact hsig
  · change h.callbacks.filter _ = registered (h.history ++ _)
    rw [registered_append_remove, ← hs]

lemma Sound.edits {h : Handler κ} (hs : h.Sound) (edits : List (Edit κ)) :
    (edits.foldl Handler.edit h).Sound := by
  induction edits generalizing h with
  | nil => exact hs
  | cons e edits ih => exact ih (hs.edit e)

/-- The callbacks that are called are those of the copy that were registered for the signal,
whatever they change. -/
lemma callAll_spec (run : CallbackBehaviour κ) (sig : Int32) (l : List (SignalCallback κ))
    {h : Handler κ} (hs : h.Sound) (calls : List (SignalCallback κ × Bool)) :
    (callAll run sig l (h, calls)).1.Sound ∧
      (callAll run sig l (h, calls)).2.map Prod.fst =
        calls.map Prod.fst ++ l.filter fun c => c.sig = sig := by
  induction l generalizing h calls with
  | nil => exact ⟨hs, by simp [callAll]⟩
  | cons c l ih =>
    rw [callAll]
    by_cases hc : c.sig = sig
    · rw [if_pos hc]
      dsimp only
      obtain ⟨hsound, hcalls⟩ := ih (hs.edits (run calls c).1) (calls ++ [(c, (run calls c).2)])
      refine ⟨hsound, ?_⟩
      rw [hcalls]
      simp [hc]
    · rw [if_neg hc]
      obtain ⟨hsound, hcalls⟩ := ih hs calls
      refine ⟨hsound, ?_⟩
      rw [hcalls]
      simp [hc]

lemma Sound.step (abbreviation : Int32 → Option Str) {h : Handler κ} (hs : h.Sound)
    (a : Event κ) : (h.step abbreviation a).Sound := by
  rw [Handler.step.eq_def]
  split
  · exact hs
  · cases a with
    | edit e => exact hs.edit e
    | setShowStack sigs => exact hs
    | signal sig run =>
      have hsound := (callAll_spec run sig.number h.callbacks hs []).1
      change (processSignal abbreviation run sig.number h).1.Sound
      rw [processSignal]
      dsimp only
      split <;> exact hsound

end Handler

/-- What a signal calls is what is documented when no callback is registered for all the
signals. -/
lemma selected_iff_sig_ne_zero (abbreviation : Int32 → Option Str) (run : CallbackBehaviour κ)
    (sig : Signal) {h : Handler κ} (hs : h.Sound) :
    Selected abbreviation run sig h ↔ ∀ c ∈ registered h.history, c.sig ≠ 0 := by
  obtain ⟨-, hcalls⟩ := callAll_spec run sig.number h.callbacks hs []
  have hne : sig.number ≠ 0 := by
    intro hzero
    have hpos := sig.pos
    rw [hzero] at hpos
    exact absurd hpos (by decide)
  have houtcome : ∀ r, r = h.processSignal abbreviation run sig.number →
      r.2.1 = (callAll run sig.number h.callbacks (h, [])).2 ∧
        (r.2.2 ≠ .returned ↔ ∀ c ∈ r.2.1, c.2 = false) := by
    rintro r rfl
    rw [processSignal]
    dsimp only
    split
    · rename_i hany
      obtain ⟨c, hc, hhandled⟩ := List.any_eq_true.mp hany
      refine ⟨rfl, fun h => absurd rfl h, fun h => ?_⟩
      rw [h c hc] at hhandled
      cases hhandled
    · rename_i hany
      rw [Bool.not_eq_true, List.any_eq_false] at hany
      exact ⟨rfl, fun _ c hc => Bool.not_eq_true _ ▸ hany c hc, fun _ h => by cases h⟩
  obtain ⟨hsame, hterminated⟩ := houtcome _ rfl
  have hdocumented : (h.callbacks.filter fun c => c.sig = sig.number) =
      documented sig.number h.history ↔ ∀ c ∈ registered h.history, c.sig ≠ 0 := by
    rw [documented, hs]
    constructor
    · intro heq c hc hzero
      have hmem : c ∈ (registered h.history).filter fun c => c.sig = sig.number := by
        rw [heq]
        exact List.mem_filter.mpr ⟨hc, by simp [hzero]⟩
      have hsig := of_decide_eq_true (List.mem_filter.mp hmem).2
      exact hne (hsig.symm.trans hzero)
    · intro h
      refine List.filter_congr fun c hc => ?_
      simp [h c hc]
  rw [Selected]
  dsimp only
  rw [hsame, hcalls, List.map_nil, List.nil_append, ← hsame, and_iff_left hterminated, hdocumented]

/-- `SIGUSR1` -/
def sigusr1 : Signal := ⟨10, by decide, by decide⟩

end EventDispatcher.SignalHandler
