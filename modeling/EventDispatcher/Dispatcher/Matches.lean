import EventDispatcher.Dispatcher.Match
import EventDispatcher.Lib.Run

/-!
# The list of matches

Matches are defined with checks, added one at a time, many at a time, or as the eleven system
matches of every service, and removed by their tag.  `Declared` is what such calls declare: the
matches in the order in which they were inserted, and whether there is a catch-all.  In every
reachable dispatcher the list is the declared matches by priority, ties in the order of insertion
(`Declares.after`).
-/

namespace EventDispatcher

open Lib

variable {U : Type}

/-! ### Defining a match -/

namespace DispatcherMatch

/-- `DISPATCHER_MATCH_SYSTEM_PRIORITY` -/
def systemPriority : ℕ := 10

/-- `DISPATCHER_MATCH_MAX_PRIORITY` -/
def maxPriority : ℕ := 15

/-- `Expression()`: the empty string is no expression. -/
def expression (expr : Str) : Option Str := if expr = [] then none else some expr

end DispatcherMatch

open DispatcherMatch in
/-- `define_match()`: the checks of a new match, which has no definition yet. -/
def defineMatch (m : DispatcherMatch) : Except Exception DispatcherMatch :=
  if m.callback = none then
    .error ⟨.parameterError, ("a callback function is required in dispatcher_match, it cannot be"
      ++ " set to nullptr.").toList⟩
  else if m.func = .oneToOneMatch ∧ m.expr = none then
    .error ⟨.parameterError, "an expression is required for the one_to_one_match().".toList⟩
  else if m.priority > maxPriority then
    .error ⟨.parameterError, "priority too large for dispatcher match.".toList⟩
  else
    .ok { m with messageDefinition := none }

/-- The functions of `connection_with_send_message` that the system matches call. -/
inductive SystemFunction where
  | msgAlive
  | msgHelp
  | msgLogUnknown
  | msgLeak
  | msgLogRotate
  | msgQuitting
  | msgReady
  | msgRestart
  | msgServiceUnavailable
  | msgStop
  | msgReplyWithUnknown
deriving DecidableEq, Repr

/-- The commands of the system matches, with their functions. -/
def systemCommands : List (String × SystemFunction) :=
  [("ALIVE", .msgAlive), ("HELP", .msgHelp), ("INVALID", .msgLogUnknown), ("LEAK", .msgLeak),
    ("LOG_ROTATE", .msgLogRotate), ("QUITTING", .msgQuitting), ("READY", .msgReady),
    ("RESTART", .msgRestart), ("SERVICE_UNAVAILABLE", .msgServiceUnavailable), ("STOP", .msgStop),
    ("UNKNOWN", .msgLogUnknown)]

namespace Dispatcher

/-- The callbacks made of the functions of the connection: `std::bind` with `f_connection`. -/
abbrev Bound := SystemFunction → ℕ

variable (bound : Bound)

/-- `dispatcher::define_catch_all()` -/
def defineCatchAll : Except Exception DispatcherMatch :=
  defineMatch { callback := some (bound .msgReplyWithUnknown), func := .alwaysMatch }

/-- The system matches. -/
def systemMatches : Except Exception (List DispatcherMatch) :=
  systemCommands.mapM fun c => defineMatch
    { expr := DispatcherMatch.expression c.1.toList
      callback := some (bound c.2)
      priority := DispatcherMatch.systemPriority }

/-! ### Changing the list -/

/-- `dispatcher::add_matches()`, and whether it returns; it stops at the first match that
`add_match()` refuses. -/
def addMatches (d : Dispatcher) : List DispatcherMatch → Except Exception Unit × Dispatcher
  | [] => (.ok (), d)
  | m :: matches_ =>
    match d.addMatch m with
    | .error e => (.error e, d)
    | .ok d => d.addMatches matches_

/-- `dispatcher::add_communicator_commands()` -/
def addCommunicatorCommands (d : Dispatcher) (autoCatchAll : Bool) :
    Except Exception Unit × Dispatcher :=
  match systemMatches bound with
  | .error e => (.error e, d)
  | .ok matches_ =>
    match d.addMatches matches_ with
    | (.error e, d) => (.error e, d)
    | (.ok (), d) =>
      if autoCatchAll then
        match defineCatchAll bound with
        | .error e => (.error e, d)
        | .ok m => d.addMatches [m]
      else
        (.ok (), d)

end Dispatcher

/-- What happens to a dispatcher. -/
inductive DispatcherAction (U : Type) where
  /-- `dispatcher::add_match()` -/
  | addMatch (m : DispatcherMatch)
  /-- `dispatcher::add_matches()` -/
  | addMatches (l : List DispatcherMatch)
  /-- `dispatcher::add_communicator_commands()` -/
  | addCommunicatorCommands (autoCatchAll : Bool)
  /-- `dispatcher::remove_matches()` -/
  | removeMatches (tag : ℕ)
  /-- `dispatcher::dispatch()` -/
  | dispatch (msg : Message) (w : World U)

namespace Dispatcher

variable (P : Platform) (code : UserCode U) (bound : Bound)

/-- The dispatcher after an action. -/
def after (d : Dispatcher) : DispatcherAction U → Dispatcher
  | .addMatch m => (d.addMatches [m]).2
  | .addMatches l => (d.addMatches l).2
  | .addCommunicatorCommands autoCatchAll => (d.addCommunicatorCommands bound autoCatchAll).2
  | .removeMatches tag => d.removeMatches tag
  | .dispatch msg w => (d.dispatch P code msg w).1

end Dispatcher

/-! ### What is declared -/

/-- A match as it was declared, without the definition that `execute()` keeps in it. -/
def DispatcherMatch.declared (m : DispatcherMatch) : DispatcherMatch :=
  { m with messageDefinition := none }

@[simp] lemma DispatcherMatch.priority_declared (m : DispatcherMatch) :
    m.declared.priority = m.priority := rfl

/-- What a dispatcher is told: the matches, the first inserted first, and whether there is a
catch-all. -/
structure Declared where
  /-- The matches that were inserted and not removed. -/
  inserted : List DispatcherMatch := []
  /-- Whether there is a catch-all. -/
  catchAll : Bool := false
deriving DecidableEq

namespace Declared

/-- One more match, unless it is a second catch-all. -/
def addMatch (s : Declared) (m : DispatcherMatch) : Option Declared :=
  if m.func = .alwaysMatch then
    if s.catchAll then none else some { s with catchAll := m.callback.isSome }
  else
    some { s with inserted := s.inserted ++ [m.declared] }

/-- More matches, up to a second catch-all, and whether all were added. -/
def addMatches (s : Declared) : List DispatcherMatch → Bool × Declared
  | [] => (true, s)
  | m :: l =>
    match s.addMatch m with
    | none => (false, s)
    | some s => s.addMatches l

/-- The system matches, and the catch-all if it is asked for. -/
def communicatorCommands (bound : Dispatcher.Bound) (autoCatchAll : Bool) :
    List DispatcherMatch :=
  (systemCommands.map fun c =>
      { expr := some c.1.toList, callback := some (bound c.2), priority := 10 }) ++
    if autoCatchAll then [{ callback := some (bound .msgReplyWithUnknown), func := .alwaysMatch }]
    else []

/-- What is declared after an action; handling a message declares nothing. -/
def after (bound : Dispatcher.Bound) (s : Declared) : DispatcherAction U → Declared
  | .addMatch m => (s.addMatches [m]).2
  | .addMatches l => (s.addMatches l).2
  | .addCommunicatorCommands autoCatchAll =>
    (s.addMatches (communicatorCommands bound autoCatchAll)).2
  | .removeMatches tag =>
    if tag = 0 then s else { s with inserted := s.inserted.filter fun m => m.tag ≠ tag }
  | .dispatch _ _ => s

end Declared

namespace Dispatcher

/-- The dispatcher is in the order that was declared. -/
structure Declares (d : Dispatcher) (s : Declared) : Prop where
  /-- A smaller priority comes first. -/
  sorted : d.list.Pairwise fun a b => a.priority ≤ b.priority
  /-- The matches of one priority are in the order of their insertion. -/
  ties : ∀ p, (d.list.map DispatcherMatch.declared).filter (·.priority = p) =
    s.inserted.filter (·.priority = p)
  /-- The catch-all. -/
  catchAll : d.catchAll.callback.isSome = s.catchAll
  /-- The catch-all takes every message. -/
  always : d.catchAll.callback.isSome = true → d.catchAll.func = .alwaysMatch

/-! ### Every action keeps the order -/

/-- A new dispatcher. -/
lemma declares_new (trace : Bool) : Declares { trace := trace } {} where
  sorted := List.Pairwise.nil
  ties _ := rfl
  catchAll := rfl
  always h := by cases h

/-- One more match is in its place, or it is a second catch-all. -/
lemma Declares.addMatch {d : Dispatcher} {s : Declared} (h : d.Declares s) (m : DispatcherMatch) :
    (∃ d' s', d.addMatch m = .ok d' ∧ s.addMatch m = some s' ∧ d'.Declares s') ∨
      ((∃ e, d.addMatch m = .error e) ∧ s.addMatch m = none) := by
  rw [Dispatcher.addMatch, Declared.addMatch]
  by_cases halways : m.func = .alwaysMatch
  · rw [if_pos halways, if_pos halways, h.catchAll]
    cases hcatch : s.catchAll with
    | true => exact Or.inr ⟨⟨_, rfl⟩, rfl⟩
    | false => exact Or.inl ⟨_, _, rfl, rfl, h.sorted, h.ties, rfl, fun _ => halways⟩
  · rw [if_neg halways, if_neg halways]
    refine Or.inl ⟨_, _, rfl, rfl, pairwise_insertLast h.sorted, fun p => ?_, h.catchAll, h.always⟩
    have hsorted : (d.list.map DispatcherMatch.declared).Pairwise
        fun a b => a.priority ≤ b.priority := List.pairwise_map.mpr h.sorted
    rw [insertMatch_eq, map_insertLast DispatcherMatch.priority_declared,
      filter_insertLast hsorted, h.ties, List.filter_append]
    congr 1
    by_cases hp : m.priority = p <;> simp [hp]

lemma Declares.addMatches {d : Dispatcher} {s : Declared} (h : d.Declares s)
    (l : List DispatcherMatch) : (d.addMatches l).2.Declares (s.addMatches l).2 := by
  induction l generalizing d s with
  | nil => exact h
  | cons m l ih =>
    rw [Dispatcher.addMatches, Declared.addMatches]
    rcases h.addMatch m with ⟨d', s', hd, hs, h'⟩ | ⟨⟨e, hd⟩, hs⟩
    · rw [hd, hs]
      exact ih h'
    · rw [hd, hs]
      exact h

lemma addMatches_append (d : Dispatcher) (l l' : List DispatcherMatch) :
    d.addMatches (l ++ l') =
      match d.addMatches l with
      | (.error e, d) => (.error e, d)
      | (.ok (), d) => d.addMatches l' := by
  induction l generalizing d with
  | nil => rfl
  | cons m l ih =>
    rw [List.cons_append, Dispatcher.addMatches, Dispatcher.addMatches]
    cases d.addMatch m with
    | error e => rfl
    | ok d' => exact ih d'

/-- The system matches pass the checks of `define_match()`. -/
lemma addCommunicatorCommands_eq (bound : Bound) (d : Dispatcher) (autoCatchAll : Bool) :
    d.addCommunicatorCommands bound autoCatchAll =
      d.addMatches (Declared.communicatorCommands bound autoCatchAll) := by
  rw [Declared.communicatorCommands]
  have hsystem : systemMatches bound = .ok (systemCommands.map fun c =>
      { expr := some c.1.toList, callback := some (bound c.2), priority := 10 }) := rfl
  have hcatch : defineCatchAll bound =
      .ok { callback := some (bound .msgReplyWithUnknown), func := .alwaysMatch } := rfl
  rw [addMatches_append, addCommunicatorCommands, hsystem, hcatch]
  cases autoCatchAll <;> rfl

lemma Declares.removeMatches {d : Dispatcher} {s : Declared} (h : d.Declares s) {tag : ℕ}
    (htag : tag ≠ 0) : (d.removeMatches tag).Declares
      { s with inserted := s.inserted.filter fun m => m.tag ≠ tag } := by
  rw [Dispatcher.removeMatches]
  rw [if_neg htag]
  refine ⟨h.sorted.filter _, fun p => ?_, h.catchAll, h.always⟩
  have hmap : (d.list.filter fun m => m.tag ≠ tag).map DispatcherMatch.declared =
      (d.list.map DispatcherMatch.declared).filter fun m => m.tag ≠ tag := by
    rw [List.filter_map]
    rfl
  rw [hmap, List.filter_comm, h.ties, List.filter_comm]

end Dispatcher

/-! ### Handling a message -/

variable {P : Platform} {code : UserCode U}

namespace DispatcherMatch

/-- A match keeps all but its definition. -/
lemma declared_executeMatch (m : DispatcherMatch) (answer : Bool) (msg : Message) (w : World U) :
    (m.executeMatch P code answer msg w).1.declared = m.declared := by
  rw [executeMatch]
  split
  · rfl
  · simp only
    split <;> rfl

lemma declared_execute (m : DispatcherMatch) (msg : Message) (w : World U) :
    (m.execute P code msg w).1.declared = m.declared := by
  rw [execute]
  split
  · rfl
  · rfl
  · exact declared_executeMatch m _ _ _
  · exact declared_executeMatch m _ _ _

end DispatcherMatch

namespace Dispatcher

lemma declared_executeAll (l : List DispatcherMatch) (msg : Message) (w : World U) :
    (executeAll P code l msg w).1.map DispatcherMatch.declared =
      l.map DispatcherMatch.declared := by
  induction l generalizing msg w with
  | nil => rfl
  | cons m l ih =>
    rw [executeAll]
    simp only
    split
    · rw [List.map_cons, List.map_cons, ih, DispatcherMatch.declared_execute]
    · rw [List.map_cons, List.map_cons, DispatcherMatch.declared_execute]

lemma declared_dispatchEnd (d : Dispatcher) (e : Executed U) :
    (d.dispatchEnd P code e).1.declared = d.catchAll.declared := by
  rw [dispatchEnd]
  split
  · split
    · rfl
    · split
      · exact DispatcherMatch.declared_execute _ _ _
      · rfl
  · rfl

variable (P code) in
/-- Handling a message changes nothing that was declared. -/
lemma declared_dispatch (d : Dispatcher) (msg : Message) (w : World U) :
    (d.dispatch P code msg w).1.list.map DispatcherMatch.declared =
        d.list.map DispatcherMatch.declared ∧
      (d.dispatch P code msg w).1.catchAll.declared = d.catchAll.declared := by
  rw [dispatch]
  split
  · exact ⟨rfl, rfl⟩
  · exact ⟨declared_executeAll _ _ _, declared_dispatchEnd _ _⟩

lemma Declares.dispatch {d : Dispatcher} {s : Declared} (h : d.Declares s) (msg : Message)
    (w : World U) : (d.dispatch P code msg w).1.Declares s := by
  obtain ⟨hlist, hcatch⟩ := d.declared_dispatch P code msg w
  have hcallback : (d.dispatch P code msg w).1.catchAll.callback = d.catchAll.callback :=
    (DispatcherMatch.mk.inj hcatch).2.1
  have hfunc : (d.dispatch P code msg w).1.catchAll.func = d.catchAll.func :=
    (DispatcherMatch.mk.inj hcatch).2.2.1
  refine ⟨?_, fun p => ?_, ?_, ?_⟩
  · have hsorted : (d.list.map DispatcherMatch.declared).Pairwise
        fun a b => a.priority ≤ b.priority := List.pairwise_map.mpr h.sorted
    rw [← hlist] at hsorted
    simpa [List.pairwise_map] using hsorted
  · rw [hlist]
    exact h.ties p
  · rw [hcallback]
    exact h.catchAll
  · rw [hcallback, hfunc]
    exact h.always

/-- **Every action keeps the list in the order that was declared.** -/
theorem Declares.after {bound : Bound} {d : Dispatcher} {s : Declared} (h : d.Declares s)
    (a : DispatcherAction U) : (d.after P code bound a).Declares (s.after bound a) := by
  cases a with
  | addMatch m => exact h.addMatches [m]
  | addMatches l => exact h.addMatches l
  | addCommunicatorCommands autoCatchAll =>
    rw [Dispatcher.after, addCommunicatorCommands_eq]
    exact h.addMatches _
  | removeMatches tag =>
    rw [Dispatcher.after, Declared.after]
    by_cases htag : tag = 0
    · rw [if_pos htag, Dispatcher.removeMatches, if_pos htag]
      exact h
    · rw [if_neg htag]
      exact h.removeMatches htag
  | dispatch msg w => exact h.dispatch msg w

variable (P code) in
/-- In every reachable dispatcher the list is in the order that was declared. -/
theorem declares_reachable (bound : Bound) (trace : Bool) (actions : List (DispatcherAction U)) :
    (runFrom (after P code bound) { trace := trace } actions).Declares
      (runFrom (Declared.after bound) {} actions) :=
  related_of_runFrom (fun _ _ a h => h.after a) (declares_new trace) actions

end Dispatcher

end EventDispatcher
