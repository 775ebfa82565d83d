import EventDispatcher.Base
import EventDispatcher.Lib.Run

/-!
# Signals as connections

A `signal` object blocks its signal and reads it from a descriptor of the kernel; the set
`g_signal_handlers` keeps a second object from being created for the same signal.  The signals that
arrive are pending while they are blocked, and reach the program by their disposition when they are
not.  `process()` reads what is pending and calls `process_signal()` for each, whose code may do
anything again.
-/

namespace EventDispatcher.Signal

open Lib

/-! ### The system -/

/-- `signalfd_siginfo` -/
structure SignalInfo where
  /-- `ssi_signo` -/
  signo : Int32 := 0
  /-- `ssi_pid` -/
  pid : UInt32 := 0
deriving DecidableEq, Repr

/-- The signals of a system. -/
structure Signals where
  /-- The numbers that a `sigset_t` can hold. -/
  valid : Int32 → Bool
  /-- The signals that `sigprocmask()` blocks. -/
  blockable : Int32 → Bool
  /-- The real time signals: several of them can be pending. -/
  realTime : Int32 → Bool

/-- The signals of Linux. -/
def Signals.linux : Signals where
  valid signal := 0 < signal && signal < 65
  -- `SIGKILL` and `SIGSTOP`
  blockable signal := signal ≠ 9 && signal ≠ 19
  realTime signal := 32 ≤ signal

/-! ### The objects -/

/-- The classes of the exceptions. -/
inductive ThrownClass where
  | initializationError
  | runtimeError
deriving DecidableEq, Repr

/-- An exception. -/
structure Thrown where
  /-- The class. -/
  cls : ThrownClass
  /-- What `what()` returns. -/
  what : Str
deriving DecidableEq, Repr

/-- A `signal` object. -/
structure Object where
  /-- `f_signal` -/
  signal : Int32
  /-- Whether `f_socket` is a descriptor. -/
  isOpen : Bool := true
  /-- `f_signal_info` -/
  info : SignalInfo := {}
  /-- `f_unblock` -/
  unblock : Bool := false
deriving DecidableEq, Repr

/-- How a signal reached the program. -/
structure Delivery where
  /-- The signal. -/
  info : SignalInfo
  /-- The object whose `process_signal()` was called, or none for the disposition. -/
  object : Option ℕ
  /-- Whether the signal was in `g_signal_handlers` then. -/
  handled : Bool
deriving DecidableEq, Repr

/-- The process. -/
structure State where
  /-- The signal mask. -/
  blocked : Int32 → Bool
  /-- The signals that are pending, by their number. -/
  pending : Int32 → List SignalInfo := fun _ => []
  /-- `g_signal_handlers` -/
  handlers : Int32 → Bool := fun _ => false
  /-- The objects that were created. -/
  objects : List Object := []
  /-- The signals that were sent, in order. -/
  arrived : List SignalInfo := []
  /-- The signals that reached the program, in order. -/
  deliveries : List Delivery := []

namespace State

/-- A signal is in the set, or not. -/
def setHandler (s : State) (signal : Int32) (value : Bool) : State :=
  { s with handlers := Function.update s.handlers signal value }

/-- What is pending of a signal changes. -/
def setPending (s : State) (signal : Int32) (l : List SignalInfo) : State :=
  { s with pending := Function.update s.pending signal l }

/-- The mask changes for one signal. -/
def setBlocked (s : State) (signal : Int32) (value : Bool) : State :=
  { s with blocked := Function.update s.blocked signal value }

/-- Signals reach the program. -/
def deliver (s : State) (l : List Delivery) : State :=
  { s with deliveries := s.deliveries ++ l }

/-- `sigprocmask(SIG_BLOCK)` for one signal. -/
def block (Y : Signals) (s : State) (signal : Int32) : State :=
  s.setBlocked signal (Y.blockable signal || s.blocked signal)

/-- `sigprocmask(SIG_UNBLOCK)` for one signal: what was pending reaches the program. -/
def unblock (s : State) (signal : Int32) : State :=
  ((s.setBlocked signal false).setPending signal []).deliver
    ((s.pending signal).map fun info => ⟨info, none, s.handlers signal⟩)

/-- A signal is sent to the process. -/
def arrive (Y : Signals) (s : State) (info : SignalInfo) : State :=
  let signal := info.signo
  let s := { s with arrived := s.arrived ++ [info] }
  if s.blocked signal then
    if Y.realTime signal ∨ s.pending signal = [] then
      s.setPending signal (s.pending signal ++ [info])
    -- a standard signal that is pending is not queued again
    else s
  else s.deliver [⟨info, none, s.handlers signal⟩]

/-- The text for a second object. -/
def sameText : Str :=
  "the same signal cannot be created more than once in your entire process.".toList

/-- The text for a number that is not a signal. -/
def invalidText : Str := "posix_signal (f_signal) is not a valid/recognized signal number.".toList

/-- The text for a process with several threads. -/
def threadsText : Str :=
  ("an ed::signal object must be created before any threads or the signals will kill your"
    ++ " process.").toList

lemma text_ne_sameText : threadsText ≠ sameText ∧ invalidText ≠ sameText := by decide

/-- The text for a signal that cannot be listened to. -/
def signalfdText (signal errno : Int32) (text : Str) : Str :=
  "signalfd() failed to create a signal listener for signal ".toList ++
    (toString signal.toInt).toList ++ " (errno: ".toList ++ (toString errno.toInt).toList ++
    " -- ".toList ++ text ++ ").".toList

/-- The constructor: `threads` is what `get_thread_ids()` counts, `blocks` whether `sigprocmask()`
succeeds, and `signalfd` is the error of `signalfd()`, if there is one. -/
def construct (Y : Signals) (s : State) (signal : Int32) (threads : ℕ) (blocks : Bool)
    (signalfd : Option (Int32 × Str)) : Except Thrown Unit × State :=
  if s.handlers signal then (.error ⟨.initializationError, sameText⟩, s)
  else if ¬ Y.valid signal then (.error ⟨.initializationError, invalidText⟩, s)
  else if threads ≠ 1 then (.error ⟨.initializationError, threadsText⟩, s)
  else if ¬ blocks then
    (.error ⟨.runtimeError, "sigprocmask() failed to block signal.".toList⟩, s)
  else
    let s := s.block Y signal
    match signalfd with
    | some (errno, text) =>
      -- also when the signal was blocked before
      (.error ⟨.runtimeError, signalfdText signal errno text⟩, s.unblock signal)
    | none =>
      (.ok (), State.setHandler { s with objects := s.objects ++ [{ signal }] } signal true)

/-- An object changes. -/
def setObject (s : State) (i : ℕ) (o : Object) : State := { s with objects := s.objects.set i o }

/-- `close()`, which is also what the destructor does. -/
def close (s : State) (i : ℕ) : State :=
  match s.objects[i]? with
  | none => s
  | some o =>
    if o.isOpen then
      let s := (s.setObject i { o with isOpen := false }).setHandler o.signal false
      if o.unblock then s.unblock o.signal else s
    else s

/-- `unblock_signal_on_destruction()` -/
def unblockSignalOnDestruction (s : State) (i : ℕ) : State :=
  match s.objects[i]? with
  | none => s
  | some o => s.setObject i { o with unblock := true }

/-- One `read()` in `process()`, with the call of `process_signal()`; there is none when the object
is closed or nothing is pending. -/
def read (s : State) (i : ℕ) : Option State :=
  match s.objects[i]? with
  | none => none
  | some o =>
    if o.isOpen then
      match s.pending o.signal with
      | [] => none
      | info :: rest =>
        some (((s.setObject i { o with info }).setPending o.signal rest).deliver
          [⟨info, some i, s.handlers o.signal⟩])
    else none

/-- At most so many turns of the loop of `process()`, with a `process_signal()` that does
nothing. -/
def drain (i : ℕ) : ℕ → State → State
  | 0, s => s
  | n + 1, s =>
    match s.read i with
    | none => s
    | some s => drain i n s

/-- How many signals are pending for an object. -/
def pendingOf (s : State) (i : ℕ) : ℕ :=
  match s.objects[i]? with
  | none => 0
  | some o => (s.pending o.signal).length

section Fields

variable (s : State) (signal signal' : Int32)

lemma pending_setPending (l : List SignalInfo) :
    (s.setPending signal l).pending signal' = if signal' = signal then l else s.pending signal' :=
  Function.update_apply ..

lemma blocked_setBlocked (value : Bool) :
    (s.setBlocked signal value).blocked signal' =
      if signal' = signal then value else s.blocked signal' :=
  Function.update_apply ..

lemma handlers_setHandler (value : Bool) :
    (s.setHandler signal value).handlers signal' =
      if signal' = signal then value else s.handlers signal' :=
  Function.update_apply ..

lemma objects_setObject {i : ℕ} {o : Object} (hi : s.objects[i]? = some o) (o' : Object) (j : ℕ) :
    (s.setObject i o').objects[j]? = if j = i then some o' else s.objects[j]? := by
  have hlt := (List.getElem?_eq_some_iff.mp hi).1
  rw [setObject, List.getElem?_set]
  by_cases h : j = i
  · simp [h, hlt]
  · simp [h, Ne.symm h]

end Fields

/-- A turn of `process()` takes the first signal that is pending for the object. -/
lemma read_eq_some_iff {s s' : State} {i : ℕ} :
    s.read i = some s' ↔ ∃ o info rest, s.objects[i]? = some o ∧ o.isOpen = true ∧
      s.pending o.signal = info :: rest ∧
      s' = ((s.setObject i { o with info }).setPending o.signal rest).deliver
        [⟨info, some i, s.handlers o.signal⟩] := by
  rw [read]
  cases hi : s.objects[i]? with
  | none => simp
  | some o =>
    dsimp only
    split_ifs with hopen
    · cases hpending : s.pending o.signal with
      | nil => simp [hpending]
      | cons info rest =>
        constructor
        · intro h
          exact ⟨o, info, rest, rfl, hopen, hpending, (Option.some.inj h).symm⟩
        · rintro ⟨o', info', rest', ho, -, hpending', rfl⟩
          cases ho
          cases hpending.symm.trans hpending'
          rfl
    · refine iff_of_false (by simp) ?_
      rintro ⟨o', info, rest, ho, hopen', -⟩
      cases ho
      exact hopen hopen'

end State

/-! ### The runs -/

/-- What can happen, in any order. -/
inductive Action where
  /-- A signal is sent. -/
  | arrive (info : SignalInfo)
  /-- The constructor. -/
  | construct (signal : Int32) (threads : ℕ) (blocks : Bool) (signalfd : Option (Int32 × Str))
  /-- `close()`, or the destructor. -/
  | close (i : ℕ)
  /-- `unblock_signal_on_destruction()` -/
  | unblockSignalOnDestruction (i : ℕ)
  /-- `process()`, with what happens in the first calls of `process_signal()`, and whether the
  `read()` after them fails. -/
  | process (i : ℕ) (callbacks : List (List Action)) (fails : Bool)

mutual

/-- One action. -/
def step (Y : Signals) (s : State) : Action → State
  | .arrive info => s.arrive Y info
  | .construct signal threads blocks signalfd => (s.construct Y signal threads blocks signalfd).2
  | .close i => s.close i
  | .unblockSignalOnDestruction i => s.unblockSignalOnDestruction i
  | .process i callbacks fails => process Y i fails s callbacks

/-- The actions one after the other. -/
def steps (Y : Signals) (s : State) : List Action → State
  | [] => s
  | a :: actions => steps Y (step Y s a) actions

/-- `process()` -/
def process (Y : Signals) (i : ℕ) (fails : Bool) (s : State) : List (List Action) → State
  | [] => if fails then s else s.drain i (s.pendingOf i)
  | callback :: callbacks =>
    match s.read i with
    | none => s
    | some s => process Y i fails (steps Y s callback) callbacks

end

end EventDispatcher.Signal
