import EventDispatcher.Dispatcher.Definition
import EventDispatcher.Lib.StableSort

/-!
# Matching and dispatching

A dispatcher is a list of matches, sorted by priority, and a catch-all.  A match whose function
selects a message checks the parameters of the message against a definition and calls its
callback.  The code of the users (callbacks and match functions) is a parameter: it sees the
message, its own state and the definitions, it can change the message and its state, load
definitions, and throw.  `execute` and `dispatch` return, along with what the functions of the
source return, the calls of `check_parameters()` they made.
-/

namespace EventDispatcher

open Lib

/-- What a match function answers. -/
inductive MatchResult where
  | matchFalse
  | matchTrue
  | matchCallback
deriving DecidableEq, Repr

/-- The match functions. -/
inductive MatchFunc where
  /-- `one_to_one_match()` -/
  | oneToOneMatch
  /-- `one_to_one_callback_match()` -/
  | oneToOneCallbackMatch
  /-- `always_match()` -/
  | alwaysMatch
  /-- `callback_match()` -/
  | callbackMatch
  /-- A match function of the user. -/
  | user (id : ℕ)
deriving DecidableEq, Repr

/-- One entry of a dispatcher. -/
structure DispatcherMatch where
  /-- `f_expr`, when it is not null -/
  expr : Option Str := none
  /-- `f_callback`, when there is one; a number stands for the function -/
  callback : Option ℕ := none
  /-- `f_match` -/
  func : MatchFunc := .oneToOneMatch
  /-- `f_tag` -/
  tag : ℕ := 0
  /-- `f_priority` -/
  priority : ℕ := 7
  /-- `f_message_definition`, null until the first execution fills it -/
  messageDefinition : Option MessageDefinition := none
deriving DecidableEq

/-- A dispatcher. -/
structure Dispatcher where
  /-- `f_matches` -/
  list : List DispatcherMatch := []
  /-- `f_end`, the catch-all; it is there when it has a callback -/
  catchAll : DispatcherMatch := {}
  /-- `f_trace` -/
  trace : Bool := false

/-! ### The code of the users -/

/-- What code outside the dispatcher can do to the definitions. -/
inductive EnvironmentCall where
  /-- `set_message_definition_paths()` -/
  | setMessageDefinitionPaths (paths : Str)
  /-- A configuration file is written or removed. -/
  | setFile (filename : Str) (sections : Option (List ConfSection))
  /-- `get_message_definition()` -/
  | getMessageDefinition (command : Str)

/-- The state a message is handled in: the definitions, and the data of the user's code. -/
structure World (U : Type) where
  /-- The definitions. -/
  env : Environment
  /-- The data of the user's code. -/
  user : U

/-- What a function of the user leaves: its result, the message, its data, and the calls it
made. -/
structure UserResult (U α : Type) where
  /-- The result, or the exception. -/
  result : Except Exception α
  /-- The message after the call. -/
  message : Message
  /-- The data after the call. -/
  user : U
  /-- The calls on the definitions, in order. -/
  calls : List EnvironmentCall := []

/-- The functions of the users, which the numbers of the matches stand for. -/
structure UserCode (U : Type) where
  /-- The match functions. -/
  matchFunc : ℕ → DispatcherMatch → Message → World U → UserResult U MatchResult
  /-- The callbacks. -/
  callback : ℕ → Message → World U → UserResult U Unit

/-- The compiler options and the libraries the code is built with. -/
structure Platform where
  /-- The functions of snapdev. -/
  S : Snapdev
  /-- The functions definitions are read and checked with. -/
  T : DefinitionTools
  /-- The options of the compiler. -/
  B : Build

/-- A release build with the functions of the libraries. -/
def Platform.standard : Platform := ⟨.standard, .standard, {}⟩

variable {U : Type} (P : Platform) (code : UserCode U)

/-- `get_message_definition()` of a program. -/
def Environment.definition (env : Environment) (command : Str) :
    Except Exception MessageDefinition × Environment :=
  env.getMessageDefinition P.S P.T P.B command

/-- The definitions after one call. -/
def Environment.call (env : Environment) : EnvironmentCall → Environment
  | .setMessageDefinitionPaths paths => { env with paths := paths }
  | .setFile filename sections =>
    { env with files := fun f => if f = filename then sections else env.files f }
  | .getMessageDefinition command => (env.definition P command).2

/-- The definitions after the calls of a function. -/
def Environment.calls (env : Environment) (l : List EnvironmentCall) : Environment :=
  l.foldl (Environment.call P) env

/-- The world after a function of the user. -/
def UserResult.world {α : Type} (r : UserResult U α) (w : World U) : World U :=
  { env := w.env.calls P r.calls, user := r.user }

/-! ### One match -/

/-- A call of `check_parameters()`: the message, the parameters it is checked against, the world
in which the check is made, and the definition the match had before. -/
structure Check (U : Type) where
  /-- The message. -/
  message : Message
  /-- The parameters of the definition that is used. -/
  parameters : List MessageParameter
  /-- The world. -/
  world : World U
  /-- `f_message_definition` when the match was executed. -/
  before : Option MessageDefinition

/-- What a function of the dispatcher leaves: its result, the message, the world, and the checks
it made. -/
structure Executed (U : Type) where
  /-- The result, or the exception. -/
  result : Except Exception Bool
  /-- The message after the call. -/
  message : Message
  /-- The world after the call. -/
  world : World U
  /-- The checks. -/
  checks : List (Check U) := []

namespace DispatcherMatch

/-- `one_to_one_match()` -/
def oneToOneMatch (m : DispatcherMatch) (msg : Message) : MatchResult :=
  match m.expr with
  | none => .matchFalse
  | some expr => if expr = msg.command then .matchTrue else .matchFalse

/-- `one_to_one_callback_match()` -/
def oneToOneCallbackMatch (m : DispatcherMatch) (msg : Message) : MatchResult :=
  match m.expr with
  | none => .matchFalse
  | some expr => if expr = msg.command then .matchCallback else .matchFalse

/-- `f_match(this, msg)`: the answer, the message and the world after it. -/
def callMatch (m : DispatcherMatch) (msg : Message) (w : World U) :
    Except Exception MatchResult × Message × World U :=
  match m.func with
  | .oneToOneMatch => (.ok (m.oneToOneMatch msg), msg, w)
  | .oneToOneCallbackMatch => (.ok (m.oneToOneCallbackMatch msg), msg, w)
  | .alwaysMatch => (.ok .matchTrue, msg, w)
  | .callbackMatch => (.ok .matchCallback, msg, w)
  | .user id =>
    let r := code.matchFunc id m msg w
    (r.result, r.message, r.world P w)

/-- The text for a match without a callback. -/
def noCallbackText (m : DispatcherMatch) : Str :=
  "dispatcher_match::f_callback for match \"".toList
    ++ m.expr.getD "<no expression>".toList ++ "\" is nullptr.".toList

/-- The text for a message that fails its checks. -/
def invalidMessageText (text : Str) : Str :=
  "the check_parameters() function detected an invalid message in message: ".toList ++ text

/-- The definition a match uses: its own, once it has one, otherwise the one of the command. -/
def definition (m : DispatcherMatch) (command : Str) (w : World U) :
    Except Exception MessageDefinition × World U :=
  match m.messageDefinition with
  | some d => (.ok d, w)
  | none =>
    let (result, env) := w.env.definition P command
    (result, { w with env := env })

/-- The callback of a message that passes its checks, or the exception of the builds with the
sanitizer for the other messages.  `answer` is the result of `execute()`. -/
def deliver (callback : ℕ) (answer : Bool) (parameters : List MessageParameter) (msg : Message)
    (w : World U) : Executed U :=
  if msg.checkParameters P.T parameters then
    let r := code.callback callback msg w
    ⟨r.result.map fun _ => answer, r.message, r.world P w, []⟩
  else if P.B.sanitizeAddress then
    match msg.toString P.S with
    | .error e => ⟨.error e, msg, w, []⟩
    | .ok (text, msg) => ⟨.error ⟨.implementationError, invalidMessageText text⟩, msg, w, []⟩
  else
    ⟨.ok answer, msg, w, []⟩

/-- What `execute()` does with a message that is selected: the match after it, and what it
leaves. -/
def executeMatch (m : DispatcherMatch) (answer : Bool) (msg : Message) (w : World U) :
    DispatcherMatch × Executed U :=
  match m.callback with
  | none => (m, ⟨.error ⟨.invalidCallback, m.noCallbackText⟩, msg, w, []⟩)
  | some callback =>
    let msg := msg.markProcessed
    match m.definition P msg.command w with
    | (.error e, w) => (m, ⟨.error e, msg, w, []⟩)
    | (.ok d, w) =>
      -- the definition stays in the match, whatever the next command is
      let r := deliver P code callback answer d.parameters msg w
      ({ m with messageDefinition := some d },
        { r with checks := [⟨msg, d.parameters, w, m.messageDefinition⟩] })

/-- `dispatcher_match::execute()` -/
def execute (m : DispatcherMatch) (msg : Message) (w : World U) : DispatcherMatch × Executed U :=
  match m.callMatch P code msg w with
  | (.error e, msg, w) => (m, ⟨.error e, msg, w, []⟩)
  | (.ok .matchFalse, msg, w) => (m, ⟨.ok false, msg, w, []⟩)
  | (.ok .matchTrue, msg, w) => m.executeMatch P code true msg w
  | (.ok .matchCallback, msg, w) => m.executeMatch P code false msg w

end DispatcherMatch

/-! ### The dispatcher -/

namespace Dispatcher

/-- The text for a second catch-all. -/
def secondAlwaysMatchText (m : DispatcherMatch) : Str :=
  "add_match() called with a second \"always_match()\" rule (expression \"".toList
    ++ m.expr.getD "<undefined>".toList ++ "\").".toList

/-- A match goes before the first one with a larger priority. -/
def insertMatch (m : DispatcherMatch) (l : List DispatcherMatch) : List DispatcherMatch :=
  l.takeWhile (fun item => ¬ m.priority < item.priority) ++
    m :: l.dropWhile fun item => ¬ m.priority < item.priority

lemma insertMatch_eq (m : DispatcherMatch) (l : List DispatcherMatch) :
    insertMatch m l = insertLast DispatcherMatch.priority m l := rfl

/-- `dispatcher::add_match()` -/
def addMatch (d : Dispatcher) (m : DispatcherMatch) : Except Exception Dispatcher :=
  if m.func = .alwaysMatch then
    if d.catchAll.callback.isSome then
      .error ⟨.implementationError, secondAlwaysMatchText m⟩
    else
      .ok { d with catchAll := m }
  else
    .ok { d with list := insertMatch m d.list }

/-- `dispatcher::remove_matches()`; the tag 0 is no tag. -/
def removeMatches (d : Dispatcher) (tag : ℕ) : Dispatcher :=
  if tag = 0 then d else { d with list := d.list.filter fun m => m.tag ≠ tag }

/-- The matches in order, up to the first one that returns true or throws. -/
def executeAll : List DispatcherMatch → Message → World U → List DispatcherMatch × Executed U
  | [], msg, w => ([], ⟨.ok false, msg, w, []⟩)
  | m :: l, msg, w =>
    let (m, e) := m.execute P code msg w
    match e.result with
    | .ok false =>
      let (l, e') := executeAll l e.message e.world
      (m :: l, { e' with checks := e.checks ++ e'.checks })
    | _ => (m :: l, e)

/-- The end of `dispatch()`, with what the matches left: the catch-all is for the messages that
no match processed. -/
def dispatchEnd (d : Dispatcher) (e : Executed U) : DispatcherMatch × Executed U :=
  match e.result with
  | .ok false =>
    -- a match that answered `MATCH_CALLBACK` set the flag, or an earlier dispatch did
    if e.message.processed then
      (d.catchAll, { e with result := .ok true })
    else if d.catchAll.callback.isSome then
      let (m, e') := d.catchAll.execute P code e.message e.world
      (m, { e' with checks := e.checks ++ e'.checks })
    else
      (d.catchAll, e)
  | _ => (d.catchAll, e)

/-- `dispatcher::dispatch()`: the dispatcher after it, and what it leaves.  The trace writes the
message, and throws when it has no command. -/
def dispatch (d : Dispatcher) (msg : Message) (w : World U) : Dispatcher × Executed U :=
  match if d.trace then msg.toString P.S else .ok ([], msg) with
  | .error e => (d, ⟨.error e, msg, w, []⟩)
  | .ok (_, msg) =>
    let (l, e) := executeAll P code d.list msg w
    let (m, e) := d.dispatchEnd P code e
    ({ d with list := l, catchAll := m }, e)

end Dispatcher

/-! ### The data of the user's code -/

section Moves

variable {P : Platform} {code : UserCode U} {R : U → U → Prop}

/-- The functions of the user move their data along a relation. -/
structure UserCode.Moves (R : U → U → Prop) (code : UserCode U) : Prop where
  /-- They may leave it. -/
  refl : ∀ u, R u u
  /-- They are called one after the other. -/
  trans : ∀ {u u' u''}, R u u' → R u' u'' → R u u''
  /-- The match functions. -/
  matchFunc : ∀ id m msg w, R w.user (code.matchFunc id m msg w).user
  /-- The callbacks. -/
  callback : ∀ id msg w, R w.user (code.callback id msg w).user

namespace UserCode.Moves

lemma callMatch (h : code.Moves R) (m : DispatcherMatch) (msg : Message) (w : World U) :
    R w.user (m.callMatch P code msg w).2.2.user := by
  rw [DispatcherMatch.callMatch]
  split
  case h_5 id _ => exact h.matchFunc id m msg w
  all_goals exact h.refl w.user

lemma deliver (h : code.Moves R) (callback : ℕ) (answer : Bool)
    (parameters : List MessageParameter) (msg : Message) (w : World U) :
    R w.user (DispatcherMatch.deliver P code callback answer parameters msg w).world.user := by
  rw [DispatcherMatch.deliver]
  split
  · exact h.callback callback msg w
  · split
    · split <;> exact h.refl w.user
    · exact h.refl w.user

lemma executeMatch (h : code.Moves R) (m : DispatcherMatch) (answer : Bool) (msg : Message)
    (w : World U) : R w.user (m.executeMatch P code answer msg w).2.world.user := by
  have huser : (m.definition P msg.markProcessed.command w).2.user = w.user := by
    rw [DispatcherMatch.definition]
    split <;> rfl
  rw [DispatcherMatch.executeMatch]
  split
  · exact h.refl w.user
  · rename_i callback _
    dsimp only
    rcases hdefinition : m.definition P msg.markProcessed.command w with ⟨_ | d, w'⟩
    · rw [hdefinition] at huser
      exact huser ▸ h.refl _
    · rw [hdefinition] at huser
      exact huser ▸ h.deliver callback answer d.parameters msg.markProcessed w'

lemma execute (h : code.Moves R) (m : DispatcherMatch) (msg : Message) (w : World U) :
    R w.user (m.execute P code msg w).2.world.user := by
  have hcall := h.callMatch (P := P) m msg w
  rw [DispatcherMatch.execute]
  rcases hresult : m.callMatch P code msg w with ⟨_ | answer, msg', w'⟩
  · rw [hresult] at hcall
    exact hcall
  · rw [hresult] at hcall
    cases answer with
    | matchFalse => exact hcall
    | matchTrue => exact h.trans hcall (h.executeMatch m true msg' w')
    | matchCallback => exact h.trans hcall (h.executeMatch m false msg' w')

lemma executeAll (h : code.Moves R) (l : List DispatcherMatch) (msg : Message) (w : World U) :
    R w.user (Dispatcher.executeAll P code l msg w).2.world.user := by
  induction l generalizing msg w with
  | nil => exact h.refl w.user
  | cons m l ih =>
    have hexecute := h.execute (P := P) m msg w
    rw [Dispatcher.executeAll]
    dsimp only
    split
    · exact h.trans hexecute (ih _ _)
    · exact hexecute

/-- **A dispatch moves the data as the functions do.** -/
lemma dispatch (h : code.Moves R) (d : Dispatcher) (msg : Message) (w : World U) :
    R w.user (d.dispatch P code msg w).2.world.user := by
  rw [Dispatcher.dispatch]
  split
  · exact h.refl w.user
  · rename_i msg' _
    have hall := h.executeAll (P := P) d.list msg' w
    dsimp only
    rw [Dispatcher.dispatchEnd]
    split
    · split_ifs
      · exact hall
      · exact h.trans hall (h.execute d.catchAll _ _)
      · exact hall
    · exact hall

end UserCode.Moves

end Moves

end EventDispatcher
