import EventDispatcher.Dispatcher.Matches
import EventDispatcher.Dispatcher.Validation

/-!
# Which callbacks a message runs

The code of the user is run with a log of its callbacks (`UserCode.logged`).  `asked` are the
matches whose functions are asked, each with its answer, and `called` says which callbacks these
answers select.  The callbacks that are selected are the ones that are called exactly when no
match that is executed keeps a definition of an earlier message that refuses this one
(`runsCallbacks_iff`).
-/

namespace EventDispatcher

open Lib

variable {U : Type}

/-! ### The callbacks of a dispatch -/

/-- The same code, with the callbacks that are called added to its data. -/
def UserCode.logged (code : UserCode U) : UserCode (U × List ℕ) where
  matchFunc id m msg w :=
    let r := code.matchFunc id m msg { env := w.env, user := w.user.1 }
    { r with user := (r.user, w.user.2) }
  callback id msg w :=
    let r := code.callback id msg { env := w.env, user := w.user.1 }
    { r with user := (r.user, w.user.2 ++ [id]) }

/-- The world with an empty log. -/
def World.logging (w : World U) : World (U × List ℕ) where
  env := w.env
  user := (w.user, [])

/-- A match whose function was asked. -/
structure Asked (U : Type) where
  /-- The match. -/
  entry : DispatcherMatch
  /-- What its function answered. -/
  answer : MatchResult
  /-- The world after the answer. -/
  world : World U

/-- The matches that are asked, in order: up to the first one that ends the dispatch. -/
def asked (P : Platform) (code : UserCode U) :
    List DispatcherMatch → Message → World U → List (Asked U)
  | [], _, _ => []
  | m :: l, msg, w =>
    match m.callMatch P code msg w with
    | (.error _, _, _) => []
    | (.ok answer, _, w') =>
      let e := (m.execute P code msg w).2
      { entry := m, answer := answer, world := w' } ::
        match e.result with
        | .ok false => asked P code l e.message e.world
        | _ => []

/-- The callbacks that the answers select: the ones of the matches that answer `MATCH_CALLBACK`
before the first `MATCH_TRUE`, and the one of the latter. -/
def called (l : List (Asked U)) : List ℕ :=
  ((l.takeWhile (·.answer ≠ .matchTrue)).filter (·.answer = .matchCallback) ++
    (l.find? (·.answer = .matchTrue)).toList).filterMap (·.entry.callback)

/-- No match selects the message. -/
def Unmatched (l : List (Asked U)) : Prop := ∀ a ∈ l, a.answer = .matchFalse

instance (l : List (Asked U)) : Decidable (Unmatched l) := by
  rw [Unmatched]
  infer_instance

/-- The parameters of the message are valid: its command has a definition, which accepts them. -/
def Message.ValidIn (P : Platform) (env : Environment) (msg : Message) : Prop :=
  ∃ d, (env.definition P msg.command).1 = .ok d ∧ msg.checkParameters P.T d.parameters = true

instance (P : Platform) (env : Environment) (msg : Message) : Decidable (msg.ValidIn P env) :=
  match h : (env.definition P msg.command).1 with
  | .error e => .isFalse fun ⟨d, hd, _⟩ => by
      rw [h] at hd
      cases hd
  | .ok d => decidable_of_iff (msg.checkParameters P.T d.parameters = true)
      ⟨fun hcheck => ⟨d, h, hcheck⟩, fun ⟨d', hd', hcheck⟩ => by
        rw [h] at hd'
        cases hd'
        exact hcheck⟩

/-- The definition that the match keeps, if it has one, accepts the message. -/
def Asked.Accepts (P : Platform) (msg : Message) (a : Asked U) : Prop :=
  ∀ d ∈ a.entry.messageDefinition, msg.checkParameters P.T d.parameters = true

instance (P : Platform) (msg : Message) (a : Asked U) : Decidable (a.Accepts P msg) := by
  rw [Asked.Accepts]
  infer_instance

namespace Dispatcher

variable (P : Platform) (code : UserCode U)

/-- The message that the matches see: the trace fills its text. -/
def traced (d : Dispatcher) (msg : Message) : Message :=
  match if d.trace then msg.toString P.S else .ok ([], msg) with
  | .error _ => msg
  | .ok (_, msg) => msg

/-- The matches of the list that a message is shown to. -/
def asks (d : Dispatcher) (msg : Message) (w : World U) : List (Asked U) :=
  asked P code d.list (d.traced P msg) w

/-- The matches that are executed for a message, the catch-all included. -/
def executes (d : Dispatcher) (msg : Message) (w : World U) : List (Asked U) :=
  (d.asks P code msg w).filter (·.answer ≠ .matchFalse) ++
    if Unmatched (d.asks P code msg w) ∧ d.catchAll.callback.isSome then
      [{ entry := d.catchAll, answer := .matchTrue
         world := (executeAll P code d.list (d.traced P msg) w).2.world }]
    else []

/-- The right callbacks run. -/
structure RunsCallbacks (d : Dispatcher) (msg : Message) (w : World U) : Prop where
  /-- The matches are asked in the order of the list. -/
  inOrder : (d.asks P code.logged msg w.logging).map Asked.entry <+: d.list
  /-- All of them, up to the first one that answers `MATCH_TRUE`. -/
  all : (∀ a ∈ d.asks P code.logged msg w.logging, a.answer ≠ .matchTrue) →
    (d.asks P code.logged msg w.logging).map Asked.entry = d.list
  /-- The callbacks that are called: the selected ones, or the catch-all. -/
  calls : (d.dispatch P code.logged msg w.logging).2.world.user.2 =
    called (d.asks P code.logged msg w.logging) ++
      if Unmatched (d.asks P code.logged msg w.logging) then d.catchAll.callback.toList else []
  /-- The result: whether at least one match, catch-all included, selected the message. -/
  result : (d.dispatch P code.logged msg w.logging).2.result =
    .ok (¬ Unmatched (d.asks P code.logged msg w.logging) ∨ d.catchAll.callback.isSome)

end Dispatcher

/-- The functions of the user return, and leave what the message says and its flag alone. -/
structure UserCode.Observes (code : UserCode U) : Prop where
  /-- The match functions. -/
  matchFunc : ∀ id m msg w, (∃ answer, (code.matchFunc id m msg w).result = .ok answer) ∧
    (code.matchFunc id m msg w).message.toFields = msg.toFields ∧
    (code.matchFunc id m msg w).message.processed = msg.processed
  /-- The callbacks. -/
  callback : ∀ id msg w, (code.callback id msg w).result = .ok () ∧
    (code.callback id msg w).message.toFields = msg.toFields ∧
    (code.callback id msg w).message.processed = msg.processed

variable {P : Platform} {code : UserCode U}

/-! ### The log changes nothing -/

/-- The world without the log. -/
def World.unlogged (w : World (U × List ℕ)) : World U := { env := w.env, user := w.user.1 }

/-- What is left, without the log. -/
def Executed.unlogged (e : Executed (U × List ℕ)) : Executed U where
  result := e.result
  message := e.message
  world := e.world.unlogged
  checks := e.checks.map fun c => ⟨c.message, c.parameters, c.world.unlogged, c.before⟩

namespace DispatcherMatch

lemma callMatch_unlogged (m : DispatcherMatch) (msg : Message) (w : World (U × List ℕ)) :
    m.callMatch P code msg w.unlogged =
      ((m.callMatch P code.logged msg w).1, (m.callMatch P code.logged msg w).2.1,
        (m.callMatch P code.logged msg w).2.2.unlogged) := by
  unfold callMatch
  cases m.func <;> rfl

variable (P code) in
lemma deliver_unlogged (callback : ℕ) (answer : Bool) (parameters : List MessageParameter)
    (msg : Message) (w : World (U × List ℕ)) :
    deliver P code callback answer parameters msg w.unlogged =
      (deliver P code.logged callback answer parameters msg w).unlogged := by
  unfold deliver
  split
  · rfl
  · split
    · cases msg.toString P.S <;> rfl
    · rfl

lemma executeMatch_unlogged (m : DispatcherMatch) (answer : Bool) (msg : Message)
    (w : World (U × List ℕ)) :
    m.executeMatch P code answer msg w.unlogged =
      ((m.executeMatch P code.logged answer msg w).1,
        (m.executeMatch P code.logged answer msg w).2.unlogged) := by
  unfold executeMatch definition
  cases m.callback with
  | none => rfl
  | some callback =>
    cases hd : m.messageDefinition with
    | some d =>
      simp only [deliver_unlogged]
      rfl
    | none =>
      have henv : w.unlogged.env = w.env := rfl
      simp only [henv]
      cases (w.env.definition P msg.markProcessed.command).1 with
      | error x => rfl
      | ok d =>
        have hdeliver := deliver_unlogged P code callback answer d.parameters
          msg.markProcessed { w with env := (w.env.definition P msg.markProcessed.command).2 }
        simp only [World.unlogged] at hdeliver ⊢
        rw [hdeliver]
        rfl

lemma execute_unlogged (m : DispatcherMatch) (msg : Message) (w : World (U × List ℕ)) :
    m.execute P code msg w.unlogged =
      ((m.execute P code.logged msg w).1, (m.execute P code.logged msg w).2.unlogged) := by
  unfold execute
  rw [callMatch_unlogged]
  rcases m.callMatch P code.logged msg w with ⟨result, msg', w'⟩
  cases result with
  | error x => rfl
  | ok answer =>
    cases answer with
    | matchFalse => rfl
    | matchTrue => exact executeMatch_unlogged m true msg' w'
    | matchCallback => exact executeMatch_unlogged m false msg' w'

end DispatcherMatch

namespace Dispatcher

lemma executeAll_unlogged (l : List DispatcherMatch) (msg : Message) (w : World (U × List ℕ)) :
    executeAll P code l msg w.unlogged =
      ((executeAll P code.logged l msg w).1, (executeAll P code.logged l msg w).2.unlogged) := by
  induction l generalizing msg w with
  | nil => rfl
  | cons m l ih =>
    rw [executeAll, executeAll, DispatcherMatch.execute_unlogged]
    generalize m.execute P code.logged msg w = r
    obtain ⟨m', e⟩ := r
    have hworld : e.unlogged.world = e.world.unlogged := rfl
    have hmessage : e.unlogged.message = e.message := rfl
    simp only [hworld, hmessage, ih]
    have hresult : e.unlogged.result = e.result := rfl
    rw [hresult]
    split
    · simp [Executed.unlogged]
    · rfl

lemma dispatchEnd_unlogged (d : Dispatcher) (e : Executed (U × List ℕ)) :
    d.dispatchEnd P code e.unlogged =
      ((d.dispatchEnd P code.logged e).1, (d.dispatchEnd P code.logged e).2.unlogged) := by
  have hresult : e.unlogged.result = e.result := rfl
  have hworld : e.unlogged.world = e.world.unlogged := rfl
  have hmessage : e.unlogged.message = e.message := rfl
  unfold dispatchEnd
  rw [hresult, hworld, hmessage, DispatcherMatch.execute_unlogged]
  split
  · split
    · rfl
    · split
      · simp [Executed.unlogged]
      · rfl
  · rfl

/-- **A dispatch leaves the same with the log as without it.** -/
theorem dispatch_unlogged (d : Dispatcher) (msg : Message) (w : World U) :
    d.dispatch P code msg w = ((d.dispatch P code.logged msg w.logging).1,
      (d.dispatch P code.logged msg w.logging).2.unlogged) := by
  have hw : w = w.logging.unlogged := rfl
  unfold dispatch
  split
  · rfl
  · rw [hw, executeAll_unlogged]
    simp only [dispatchEnd_unlogged]
    rfl

end Dispatcher

/-! ### The selected callbacks -/

lemma called_cons_false {a : Asked U} (ha : a.answer = .matchFalse) (l : List (Asked U)) :
    called (a :: l) = called l := by
  simp [called, ha]

lemma called_of_unmatched {l : List (Asked U)} (h : Unmatched l) : called l = [] := by
  induction l with
  | nil => rfl
  | cons a l ih =>
    rw [called_cons_false (h a List.mem_cons_self)]
    exact ih fun b hb => h b (List.mem_cons_of_mem _ hb)

lemma called_cons_callback {a : Asked U} {callback : ℕ} (ha : a.answer = .matchCallback)
    (hc : a.entry.callback = some callback) (l : List (Asked U)) :
    called (a :: l) = callback :: called l := by
  simp [called, ha, hc]

lemma called_cons_true {a : Asked U} {callback : ℕ} (ha : a.answer = .matchTrue)
    (hc : a.entry.callback = some callback) (l : List (Asked U)) :
    called (a :: l) = [callback] := by
  simp [called, ha, hc]

/-! ### One match -/

lemma Message.checkParameters_congr {T : DefinitionTools} {m m' : Message}
    (h : m.toFields = m'.toFields) (l : List MessageParameter) :
    m.checkParameters T l = m'.checkParameters T l := by
  have hparameters : m.parameters = m'.parameters := congrArg Fields.parameters h
  have hcommand : m.command = m'.command := congrArg Fields.command h
  unfold Message.checkParameters Message.parameterErrors Message.parameterError
  rw [hparameters, hcommand]

namespace DispatcherMatch

/-- A match function answers, and nothing else. -/
lemma callMatch_logged (hcode : code.Observes) (m : DispatcherMatch) (msg : Message)
    (w : World (U × List ℕ)) :
    let r := m.callMatch P code.logged msg w
    (∃ answer, r.1 = .ok answer) ∧ r.2.1.toFields = msg.toFields ∧
      r.2.1.processed = msg.processed ∧ r.2.2.user.2 = w.user.2 := by
  unfold callMatch
  split
  case h_5 id _ =>
    obtain ⟨hanswer, hfields, hprocessed⟩ :=
      hcode.matchFunc id m msg { env := w.env, user := w.user.1 }
    exact ⟨hanswer, hfields, hprocessed, rfl⟩
  all_goals exact ⟨⟨_, rfl⟩, rfl, rfl, rfl⟩

/-- A message that passes its check runs the callback; another one does not. -/
lemma deliver_logged (hcode : code.Observes) (callback : ℕ) (answer : Bool)
    (parameters : List MessageParameter) (msg : Message) (w : World (U × List ℕ)) :
    let e := deliver P code.logged callback answer parameters msg w
    e.message.toFields = msg.toFields ∧ e.message.processed = msg.processed ∧
      (msg.checkParameters P.T parameters = true →
        e.result = .ok answer ∧ e.world.user.2 = w.user.2 ++ [callback]) ∧
      (msg.checkParameters P.T parameters = false →
        (e.result = .ok answer ∨ ∃ x, e.result = .error x) ∧ e.world.user.2 = w.user.2) := by
  have htext : ∀ {m m' : Message} {t : Str}, m.toString P.S = .ok (t, m') →
      m'.toFields = m.toFields ∧ m'.processed = m.processed := by
    intro m m' t h
    unfold Message.toString at h
    split_ifs at h <;> cases h <;> exact ⟨rfl, rfl⟩
  unfold deliver
  cases hcheck : msg.checkParameters P.T parameters with
  | true =>
    obtain ⟨hresult, hfields, hprocessed⟩ :=
      hcode.callback callback msg { env := w.env, user := w.user.1 }
    refine ⟨hfields, hprocessed, fun _ => ⟨?_, rfl⟩, fun h => Bool.noConfusion h⟩
    change (code.callback callback msg _).result.map _ = _
    rw [hresult]
    rfl
  | false =>
    rw [if_neg (by simp)]
    split
    · split
      · exact ⟨rfl, rfl, fun h => Bool.noConfusion h, fun _ => ⟨Or.inr ⟨_, rfl⟩, rfl⟩⟩
      · rename_i h
        obtain ⟨hfields, hprocessed⟩ := htext h
        exact ⟨hfields, hprocessed, fun h => Bool.noConfusion h, fun _ => ⟨Or.inr ⟨_, rfl⟩, rfl⟩⟩
    · exact ⟨rfl, rfl, fun h => Bool.noConfusion h, fun _ => ⟨Or.inl rfl, rfl⟩⟩

/-- What a match does with a message that it selects, whose parameters are valid. -/
lemma executeMatch_logged (hcode : code.Observes) {m : DispatcherMatch} {callback : ℕ}
    (hm : m.callback = some callback) (answer : Bool) {msg : Message}
    {w : World (U × List ℕ)} (hvalid : msg.ValidIn P w.env) :
    let e := (m.executeMatch P code.logged answer msg w).2
    let accepts := ∀ d ∈ m.messageDefinition, msg.checkParameters P.T d.parameters = true
    e.message.toFields = msg.toFields ∧ e.message.processed = true ∧
      (accepts → e.result = .ok answer ∧ e.world.user.2 = w.user.2 ++ [callback]) ∧
      (¬ accepts →
        (e.result = .ok answer ∨ ∃ x, e.result = .error x) ∧ e.world.user.2 = w.user.2) := by
  obtain ⟨own, hown, hcheck⟩ := hvalid
  unfold executeMatch definition
  rw [hm]
  cases hd : m.messageDefinition with
  | some d =>
    obtain ⟨hfields, hprocessed, hyes, hno⟩ :=
      deliver_logged (P := P) hcode callback answer d.parameters msg.markProcessed w
    refine ⟨hfields, hprocessed, fun h => hyes (h d rfl), fun h => hno ?_⟩
    have hcongr : msg.markProcessed.checkParameters P.T d.parameters =
        msg.checkParameters P.T d.parameters := Message.checkParameters_congr rfl d.parameters
    rw [hcongr]
    simpa using h
  | none =>
    have hown' : (w.env.definition P msg.markProcessed.command).1 = .ok own := hown
    simp only [hown']
    obtain ⟨hfields, hprocessed, hyes, -⟩ := deliver_logged (P := P) hcode callback answer
      own.parameters msg.markProcessed
      { w with env := (w.env.definition P msg.markProcessed.command).2 }
    exact ⟨hfields, hprocessed, fun _ => hyes hcheck, fun h => absurd (by simp) h⟩

end DispatcherMatch

/-! ### The list of matches -/

lemma Message.ValidIn.congr {m m' : Message} {env : Environment} (h : m.ValidIn P env)
    (hfields : m'.toFields = m.toFields) : m'.ValidIn P env := by
  obtain ⟨d, hd, hcheck⟩ := h
  have hcommand : m'.command = m.command := congrArg Fields.command hfields
  refine ⟨d, ?_, ?_⟩
  · rw [hcommand]
    exact hd
  · rw [Message.checkParameters_congr hfields]
    exact hcheck

lemma unmatched_cons {a : Asked U} {l : List (Asked U)} :
    Unmatched (a :: l) ↔ a.answer = .matchFalse ∧ Unmatched l := by
  simp [Unmatched]

variable (P) in
/-- Each match that selects the message accepts it. -/
def AllAccept (msg : Message) (l : List (Asked U)) : Prop :=
  ∀ a ∈ l, a.answer ≠ .matchFalse → a.Accepts P msg

lemma allAccept_cons {msg : Message} {a : Asked U} {l : List (Asked U)} :
    AllAccept P msg (a :: l) ↔
      (a.answer ≠ .matchFalse → a.Accepts P msg) ∧ AllAccept P msg l := by
  simp [AllAccept]

/-- What the list of matches does with a message, as far as it depends on what was asked: `log` is
what was called before, and `e` what the list leaves. -/
structure ListRun (P : Platform) (msg : Message) (processed : Bool) (l : List DispatcherMatch)
    (log : List ℕ) (as : List (Asked (U × List ℕ))) (e : Executed (U × List ℕ)) : Prop where
  /-- The message says the same. -/
  fields : e.message.toFields = msg.toFields
  /-- The flag is set by the matches that select the message. -/
  flag : e.message.processed = true ↔ processed = true ∨ ¬ Unmatched as
  /-- The matches are asked in order. -/
  inOrder : AllAccept P msg as → as.map Asked.entry <+: l
  /-- All are asked when none answers `MATCH_TRUE`. -/
  all : AllAccept P msg as → (∀ a ∈ as, a.answer ≠ .matchTrue) → as.map Asked.entry = l
  /-- The result. -/
  result : AllAccept P msg as → e.result = .ok (decide (∃ a ∈ as, a.answer = .matchTrue))
  /-- The calls. -/
  calls : AllAccept P msg as → e.world.user.2 = log ++ called as
  /-- A match that refuses the message ends the dispatch or leaves a call out. -/
  refused : ¬ AllAccept P msg as →
    (∃ x, e.result = .error x) ∨ e.world.user.2.length < log.length + (called as).length

namespace ListRun

variable {msg : Message} {processed : Bool} {l : List DispatcherMatch} {log : List ℕ}
  {as : List (Asked (U × List ℕ))} {e : Executed (U × List ℕ)} {a : Asked (U × List ℕ)}

/-- What is recorded of the checks plays no role. -/
lemma withChecks (h : ListRun P msg processed l log as e) (checks : List (Check (U × List ℕ))) :
    ListRun P msg processed l log as { e with checks := checks } :=
  ⟨h.fields, h.flag, h.inOrder, h.all, h.result, h.calls, h.refused⟩

/-- A match that does not select the message changes nothing. -/
lemma unmatched (h : ListRun P msg processed l log as e) (ha : a.answer = .matchFalse) :
    ListRun P msg processed (a.entry :: l) log (a :: as) e := by
  have hiff : AllAccept P msg (a :: as) ↔ AllAccept P msg as := by simp [allAccept_cons, ha]
  refine ⟨h.fields, ?_, fun hall => ?_, fun hall hno => ?_, fun hall => ?_, fun hall => ?_,
    fun hall => ?_⟩
  · rw [h.flag, unmatched_cons]
    simp [ha]
  · exact (List.prefix_cons_inj _).mpr (h.inOrder (hiff.mp hall))
  · rw [List.map_cons, h.all (hiff.mp hall) fun b hb => hno b (List.mem_cons_of_mem _ hb)]
  · rw [h.result (hiff.mp hall)]
    simp [ha]
  · rw [h.calls (hiff.mp hall), called_cons_false ha]
  · rw [called_cons_false ha]
    exact h.refused fun hrest => hall (hiff.mpr hrest)

/-- A match with a callback answers `MATCH_CALLBACK`: the callback runs when the match accepts
the message. -/
lemma matched {log' : List ℕ} {callback : ℕ} (h : ListRun P msg true l log' as e)
    (ha : a.answer = .matchCallback) (hc : a.entry.callback = some callback)
    (hyes : a.Accepts P msg → log' = log ++ [callback]) (hno : ¬ a.Accepts P msg → log' = log) :
    ListRun P msg processed (a.entry :: l) log (a :: as) e := by
  have hiff : AllAccept P msg (a :: as) ↔ a.Accepts P msg ∧ AllAccept P msg as := by
    simp [allAccept_cons, ha]
  refine ⟨h.fields, ?_, fun hall => ?_, fun hall hn => ?_, fun hall => ?_, fun hall => ?_,
    fun hall => ?_⟩
  · rw [h.flag, unmatched_cons]
    simp [ha]
  · exact (List.prefix_cons_inj _).mpr (h.inOrder (hiff.mp hall).2)
  · rw [List.map_cons, h.all (hiff.mp hall).2 fun b hb => hn b (List.mem_cons_of_mem _ hb)]
  · rw [h.result (hiff.mp hall).2]
    simp [ha]
  · rw [h.calls (hiff.mp hall).2, hyes (hiff.mp hall).1, called_cons_callback ha hc]
    simp
  · rw [called_cons_callback ha hc, List.length_cons]
    by_cases haccepts : a.Accepts P msg
    · rcases h.refused fun hrest => hall (hiff.mpr ⟨haccepts, hrest⟩) with herror | hlt
      · exact Or.inl herror
      · rw [hyes haccepts, List.length_append, List.length_singleton] at hlt
        exact Or.inr (by omega)
    · by_cases hrest : AllAccept P msg as
      · rw [h.calls hrest, hno haccepts, List.length_append]
        exact Or.inr (by omega)
      · rcases h.refused hrest with herror | hlt
        · exact Or.inl herror
        · rw [hno haccepts] at hlt
          exact Or.inr (by omega)

/-- The dispatch ends with a match that selects the message. -/
lemma last {callback : ℕ} (ha : a.answer ≠ .matchFalse) (hc : a.entry.callback = some callback)
    (hfields : e.message.toFields = msg.toFields) (hflag : e.message.processed = true)
    (hyes : a.Accepts P msg → a.answer = .matchTrue ∧ e.result = .ok true ∧
      e.world.user.2 = log ++ [callback])
    (hno : ¬ a.Accepts P msg → (∃ x, e.result = .error x) ∨
      (a.answer = .matchTrue ∧ e.world.user.2 = log)) :
    ListRun P msg processed (a.entry :: l) log [a] e := by
  have hiff : AllAccept P msg [a] ↔ a.Accepts P msg := by simp [AllAccept, ha]
  refine ⟨hfields, ?_, fun hall => ?_, fun hall hn => ?_, fun hall => ?_, fun hall => ?_,
    fun hall => ?_⟩
  · simp [hflag, Unmatched, ha]
  · exact (List.prefix_cons_inj _).mpr List.nil_prefix
  · obtain ⟨htrue, -⟩ := hyes (hiff.mp hall)
    exact absurd htrue (hn a List.mem_cons_self)
  · obtain ⟨htrue, hresult, -⟩ := hyes (hiff.mp hall)
    rw [hresult]
    simp [htrue]
  · obtain ⟨htrue, -, hlog⟩ := hyes (hiff.mp hall)
    rw [hlog, called_cons_true htrue hc]
  · rcases hno fun haccepts => hall (hiff.mpr haccepts) with herror | ⟨htrue, hlog⟩
    · exact Or.inl herror
    · rw [called_cons_true htrue hc, hlog]
      exact Or.inr (by simp)

end ListRun

/-! ### The matches in order -/

/-- What a match that selects the message leaves in `e`; `b` is whether the dispatch ends. -/
structure Selected (P : Platform) (msg : Message) (log : List ℕ) (a : Asked (U × List ℕ))
    (callback : ℕ) (b : Bool) (e : Executed (U × List ℕ)) : Prop where
  /-- The message says the same. -/
  fields : e.message.toFields = msg.toFields
  /-- It is marked. -/
  flag : e.message.processed = true
  /-- The callback runs when the match accepts the message. -/
  yes : a.Accepts P msg → e.result = .ok b ∧ e.world.user.2 = log ++ [callback]
  /-- Otherwise the message is dropped, or the check throws. -/
  no : ¬ a.Accepts P msg →
    (e.result = .ok b ∨ ∃ x, e.result = .error x) ∧ e.world.user.2 = log

namespace Selected

variable {msg : Message} {processed b : Bool} {log : List ℕ} {a : Asked (U × List ℕ)}
  {callback : ℕ} {e : Executed (U × List ℕ)}

lemma result (h : Selected P msg log a callback b e) :
    e.result = .ok b ∨ (¬ a.Accepts P msg ∧ ∃ x, e.result = .error x) := by
  by_cases haccepts : a.Accepts P msg
  · exact Or.inl (h.yes haccepts).1
  · exact (h.no haccepts).1.imp id fun herror => ⟨haccepts, herror⟩

/-- A match that answers `MATCH_TRUE` ends the list. -/
lemma ends (h : Selected P msg log a callback true e) (ha : a.answer = .matchTrue)
    (hc : a.entry.callback = some callback) (l : List DispatcherMatch) :
    ListRun P msg processed (a.entry :: l) log [a] e := by
  refine ListRun.last (by simp [ha]) hc h.fields h.flag (fun haccepts => ?_) fun haccepts => ?_
  · exact ⟨ha, h.yes haccepts⟩
  · exact (h.no haccepts).1.symm.imp id fun _ => ⟨ha, (h.no haccepts).2⟩

/-- So does one whose check throws. -/
lemma throws (h : Selected P msg log a callback false e) (ha : a.answer = .matchCallback)
    (hc : a.entry.callback = some callback) {x : Exception} (herror : e.result = .error x)
    (l : List DispatcherMatch) : ListRun P msg processed (a.entry :: l) log [a] e := by
  refine ListRun.last (by simp [ha]) hc h.fields h.flag (fun haccepts => ?_) fun _ => ?_
  · have hresult := (h.yes haccepts).1
    rw [herror] at hresult
    cases hresult
  · exact Or.inl ⟨x, herror⟩

/-- After one that answers `MATCH_CALLBACK` the list goes on. -/
lemma goesOn (h : Selected P msg log a callback b e) (ha : a.answer = .matchCallback)
    (hc : a.entry.callback = some callback) {l : List DispatcherMatch}
    {as : List (Asked (U × List ℕ))} {e' : Executed (U × List ℕ)}
    (htail : ListRun P msg e.message.processed l e.world.user.2 as e') :
    ListRun P msg processed (a.entry :: l) log (a :: as) e' := by
  rw [h.flag] at htail
  exact htail.matched ha hc (fun haccepts => (h.yes haccepts).2) fun haccepts =>
    (h.no haccepts).2

end Selected

lemma selected_executeMatch (hcode : code.Observes) {m : DispatcherMatch} {callback : ℕ}
    (hm : m.callback = some callback) (answer : MatchResult) (b : Bool) {msg₀ msg : Message}
    {w : World (U × List ℕ)} (hfields : msg.toFields = msg₀.toFields)
    (hvalid : msg₀.ValidIn P w.env) :
    Selected P msg₀ w.user.2 ⟨m, answer, w⟩ callback b
      (m.executeMatch P code.logged b msg w).2 := by
  obtain ⟨hf, hp, hyes, hno⟩ :=
    DispatcherMatch.executeMatch_logged (P := P) hcode hm b (hvalid.congr hfields)
  simp only [Message.checkParameters_congr hfields] at hyes hno
  exact ⟨hf.trans hfields, hp, hyes, hno⟩

namespace Dispatcher

/-- The matches in order. -/
lemma listRun_executeAll (hcode : code.Observes) {l : List DispatcherMatch}
    (hl : ∀ m ∈ l, m.callback.isSome = true) {msg₀ msg : Message} {w : World (U × List ℕ)}
    (hmsg : msg.toFields = msg₀.toFields)
    (hvalid : ∀ a ∈ asked P code.logged l msg w, a.answer ≠ .matchFalse →
      msg₀.ValidIn P a.world.env) :
    ListRun P msg₀ msg.processed l w.user.2 (asked P code.logged l msg w)
      (executeAll P code.logged l msg w).2 := by
  induction l generalizing msg w with
  | nil =>
    exact ⟨hmsg, by simp [executeAll, asked, Unmatched], fun _ => List.nil_prefix,
      fun _ _ => rfl, fun _ => rfl, fun _ => by simp [executeAll, asked, called],
      fun h => absurd (by simp [AllAccept, asked]) h⟩
  | cons m l ih =>
    obtain ⟨⟨answer, hanswer⟩, hfields, hprocessed, hlog⟩ :=
      m.callMatch_logged (P := P) hcode msg w
    have hexecute := DispatcherMatch.execute.eq_def P code.logged m msg w
    generalize hr : m.callMatch P code.logged msg w = r at *
    obtain ⟨result, msg', w'⟩ := r
    obtain rfl : result = .ok answer := hanswer
    obtain ⟨callback, hcallback⟩ := Option.isSome_iff_exists.mp (hl m List.mem_cons_self)
    have hrest : ∀ m ∈ l, m.callback.isSome = true := fun m hm => hl m (List.mem_cons_of_mem _ hm)
    simp only at hfields hprocessed hlog
    have hfields' : msg'.toFields = msg₀.toFields := hfields.trans hmsg
    rw [asked, executeAll]
    rw [asked] at hvalid
    rw [← hlog, ← hprocessed]
    cases answer with
    | matchFalse =>
      simp only [hr, hexecute] at hvalid ⊢
      have htail := ih hrest hfields' fun a ha => hvalid a (List.mem_cons_of_mem _ ha)
      exact (htail.unmatched (a := ⟨m, .matchFalse, w'⟩) rfl).withChecks _
    | matchTrue =>
      simp only [hr, hexecute] at hvalid ⊢
      have hselected := selected_executeMatch hcode hcallback .matchTrue true hfields'
        (hvalid _ List.mem_cons_self (by simp))
      generalize (m.executeMatch P code.logged true msg' w').2 = e at hselected ⊢
      rcases hselected.result with hresult | ⟨-, x, hresult⟩
      · simp only [hresult]
        exact hselected.ends rfl hcallback l
      · simp only [hresult]
        exact hselected.ends rfl hcallback l
    | matchCallback =>
      simp only [hr, hexecute] at hvalid ⊢
      have hselected := selected_executeMatch hcode hcallback .matchCallback false hfields'
        (hvalid _ List.mem_cons_self (by simp))
      generalize (m.executeMatch P code.logged false msg' w').2 = e at hvalid hselected ⊢
      rcases hselected.result with hresult | ⟨-, x, hresult⟩
      · simp only [hresult] at hvalid ⊢
        have htail := ih hrest hselected.fields fun b hb => hvalid b (List.mem_cons_of_mem _ hb)
        exact (hselected.goesOn rfl hcallback htail).withChecks _
      · simp only [hresult]
        exact hselected.throws rfl hcallback hresult l

/-! ### The end of a dispatch -/

/-- The trace changes nothing but the text of a message. -/
lemma fields_traced (d : Dispatcher) (msg : Message) :
    (d.traced P msg).toFields = msg.toFields ∧ (d.traced P msg).processed = msg.processed := by
  rw [traced, Message.toString]
  split
  · exact ⟨rfl, rfl⟩
  · rename_i h
    split_ifs at h <;> cases h <;> exact ⟨rfl, rfl⟩

/-- The dispatch of a message that the trace can write. -/
lemma dispatch_traced {d : Dispatcher} {msg : Message}
    (hmsg : ¬ (d.trace = true ∧ msg.command = [])) (w : World U) :
    (d.dispatch P code msg w).2 =
      (d.dispatchEnd P code (executeAll P code d.list (d.traced P msg) w).2).2 := by
  rw [dispatch, traced]
  cases htrace : d.trace with
  | false => rfl
  | true =>
    have hcommand : msg.command ≠ [] := fun h => hmsg ⟨htrace, h⟩
    rw [Message.toString]
    by_cases hcache : msg.cachedMessage = []
    · simp [hcache, hcommand]
    · simp [hcache]

variable (P code) in
/-- Once a match selected the message, the end of the dispatch only looks at the result. -/
lemma dispatchEnd_matched (d : Dispatcher) {e : Executed U} (hflag : e.message.processed = true) :
    (d.dispatchEnd P code e).2.world = e.world ∧
      (d.dispatchEnd P code e).2.result = e.result.map fun _ => true := by
  rw [dispatchEnd]
  cases hresult : e.result with
  | error x => exact ⟨rfl, hresult⟩
  | ok b =>
    cases b with
    | true => exact ⟨rfl, hresult⟩
    | false =>
      simp only [hflag, if_true]
      exact ⟨trivial, rfl⟩

/-- Without a match, the catch-all is executed. -/
lemma dispatchEnd_unmatched (hcode : code.Observes) {d : Dispatcher}
    (hd : d.catchAll.callback.isSome = true → d.catchAll.func = .alwaysMatch)
    {e : Executed (U × List ℕ)} (hresult : e.result = .ok false)
    (hflag : ¬ e.message.processed = true)
    (hvalid : d.catchAll.callback.isSome = true → e.message.ValidIn P e.world.env) :
    let r := (d.dispatchEnd P code.logged e).2
    let accepts := ∀ c ∈ d.catchAll.callback, ∀ def_ ∈ d.catchAll.messageDefinition,
      e.message.checkParameters P.T def_.parameters = true
    (accepts → r.result = .ok d.catchAll.callback.isSome ∧
      r.world.user.2 = e.world.user.2 ++ d.catchAll.callback.toList) ∧
    (¬ accepts → r.world.user.2 = e.world.user.2 ∧ d.catchAll.callback.isSome = true) := by
  rw [dispatchEnd]
  rw [hresult]
  simp only [hflag]
  cases hcallback : d.catchAll.callback with
  | none =>
    refine ⟨fun _ => ⟨?_, ?_⟩, fun h => absurd (by simp) h⟩
    · simpa using hresult
    · simp
  | some callback =>
    have hsome : d.catchAll.callback.isSome = true := by rw [hcallback]; rfl
    have hexecute : d.catchAll.execute P code.logged e.message e.world =
        d.catchAll.executeMatch P code.logged true e.message e.world := by
      rw [DispatcherMatch.execute, DispatcherMatch.callMatch, hd hsome]
    obtain ⟨-, -, hyes, hno⟩ :=
      DispatcherMatch.executeMatch_logged (P := P) hcode hcallback true (hvalid hsome)
    simp only [hexecute, Option.isSome_some, if_true]
    refine ⟨fun haccepts => ?_, fun haccepts => ?_⟩
    · exact hyes (haccepts callback rfl)
    · have hrefuses : ¬ ∀ def_ ∈ d.catchAll.messageDefinition,
          e.message.checkParameters P.T def_.parameters = true :=
        fun hall => haccepts fun _ _ => hall
      exact ⟨(hno hrefuses).2, trivial⟩

lemma forall_executes {d : Dispatcher} {msg : Message} {w : World U} {p : Asked U → Prop} :
    (∀ a ∈ d.executes P code msg w, p a) ↔
      (∀ a ∈ d.asks P code msg w, a.answer ≠ .matchFalse → p a) ∧
      (Unmatched (d.asks P code msg w) ∧ d.catchAll.callback.isSome = true →
        p { entry := d.catchAll, answer := .matchTrue
            world := (executeAll P code d.list (d.traced P msg) w).2.world }) := by
  rw [executes]
  simp only [List.forall_mem_append, List.mem_filter, decide_eq_true_eq, and_imp]
  refine and_congr Iff.rfl ?_
  split
  · rename_i h
    simp [h]
  · rename_i h
    simp only [List.not_mem_nil, false_implies, implies_true, true_iff]
    exact fun h₁ h₂ => absurd ⟨h₁, h₂⟩ h

/-- When no match selects the message, the right callbacks run exactly when the catch-all accepts
it, if it keeps a definition. -/
lemma runsCallbacks_iff_of_unmatched (hcode : code.Observes) {d : Dispatcher}
    (hd : d.catchAll.callback.isSome = true → d.catchAll.func = .alwaysMatch) {msg : Message}
    {w : World U} {e : Executed (U × List ℕ)}
    (hdispatch : (d.dispatch P code.logged msg w.logging).2 = (d.dispatchEnd P code.logged e).2)
    (hrun : ListRun P msg false d.list [] (d.asks P code.logged msg w.logging) e)
    (hun : Unmatched (d.asks P code.logged msg w.logging))
    (hvalid : d.catchAll.callback.isSome = true → msg.ValidIn P e.world.env) :
    d.RunsCallbacks P code msg w ↔
      (d.catchAll.callback.isSome = true → ∀ def_ ∈ d.catchAll.messageDefinition,
        msg.checkParameters P.T def_.parameters = true) := by
  have hall : AllAccept P msg (d.asks P code.logged msg w.logging) :=
    fun a ha hne => absurd (hun a ha) hne
  have hno_true : ∀ a ∈ d.asks P code.logged msg w.logging, a.answer ≠ .matchTrue :=
    fun a ha => by simp [hun a ha]
  have hresult : e.result = .ok false := by
    rw [hrun.result hall]
    simpa using hno_true
  have hlog : e.world.user.2 = [] := by
    rw [hrun.calls hall, called_of_unmatched hun]
    rfl
  have hclear : ¬ e.message.processed = true := by
    rw [hrun.flag]
    simp [hun]
  obtain ⟨hyes, hno⟩ := dispatchEnd_unmatched (P := P) hcode hd hresult hclear
    fun hsome => (hvalid hsome).congr hrun.fields
  simp only [Message.checkParameters_congr hrun.fields] at hyes hno
  rw [← hdispatch] at hyes hno
  constructor
  · intro h hsome
    by_contra hrefuses
    -- the catch-all drops the message, although it should be called
    obtain ⟨hsame, -⟩ := hno fun hc => hrefuses (hc _ (Option.get_mem hsome))
    have hcalls := h.calls
    rw [hsame, hlog, called_of_unmatched hun, if_pos hun] at hcalls
    have hnone : d.catchAll.callback = none := by simpa using hcalls
    rw [hnone] at hsome
    cases hsome
  · intro h
    obtain ⟨hanswer, hcalls⟩ := hyes fun c hc => h (by rw [Option.mem_def.mp hc]; rfl)
    refine ⟨hrun.inOrder hall, fun _ => hrun.all hall hno_true, ?_, ?_⟩
    · rw [hcalls, hlog, called_of_unmatched hun, if_pos hun]
    · rw [hanswer]
      simp [hun]

/-- When a match selects the message, the right callbacks run exactly when all the matches that
select it accept it. -/
lemma runsCallbacks_iff_of_matched {d : Dispatcher} {msg : Message} {w : World U}
    {e : Executed (U × List ℕ)}
    (hdispatch : (d.dispatch P code.logged msg w.logging).2 = (d.dispatchEnd P code.logged e).2)
    (hrun : ListRun P msg false d.list [] (d.asks P code.logged msg w.logging) e)
    (hmatched : ¬ Unmatched (d.asks P code.logged msg w.logging)) :
    d.RunsCallbacks P code msg w ↔ AllAccept P msg (d.asks P code.logged msg w.logging) := by
  obtain ⟨hworld, hresult⟩ := d.dispatchEnd_matched P code.logged
    (hrun.flag.mpr (Or.inr hmatched))
  rw [← hdispatch] at hworld hresult
  constructor
  · intro h
    by_contra hrefuses
    -- the check threw, or fewer callbacks than the selected ones ran
    rcases hrun.refused hrefuses with ⟨x, herror⟩ | hlt
    · have hanswer := h.result
      rw [hresult, herror] at hanswer
      cases hanswer
    · have hcalls := h.calls
      rw [hworld, if_neg hmatched, List.append_nil] at hcalls
      rw [hcalls, List.length_nil] at hlt
      omega
  · intro h
    refine ⟨hrun.inOrder h, hrun.all h, ?_, ?_⟩
    · rw [hworld, hrun.calls h, if_neg hmatched, List.append_nil]
      rfl
    · have htrue : decide (¬ Unmatched (d.asks P code.logged msg w.logging) ∨
          d.catchAll.callback.isSome = true) = true := by simp [hmatched]
      rw [hresult, hrun.result h, htrue]
      rfl

/-- **The callbacks that the matches select run** exactly when each match that is executed accepts
the message, if it keeps a definition. -/
theorem runsCallbacks_iff (hcode : code.Observes) {d : Dispatcher}
    (hd : d.catchAll.callback.isSome = true → d.catchAll.func = .alwaysMatch)
    (hl : ∀ m ∈ d.list, m.callback.isSome = true) {msg : Message} {w : World U}
    (hprocessed : msg.processed = false) (hcommand : msg.command ≠ [])
    (hvalid : ∀ a ∈ d.executes P code.logged msg w.logging, msg.ValidIn P a.world.env) :
    d.RunsCallbacks P code msg w ↔
      ∀ a ∈ d.executes P code.logged msg w.logging, a.Accepts P msg := by
  obtain ⟨hvalidList, hvalidEnd⟩ := forall_executes.mp hvalid
  obtain ⟨hfields, hflag⟩ := d.fields_traced (P := P) msg
  have hdispatch : (d.dispatch P code.logged msg w.logging).2 = _ :=
    dispatch_traced (fun h => hcommand h.2) w.logging
  have hrun := listRun_executeAll hcode hl hfields hvalidList
  rw [hflag, hprocessed] at hrun
  change ListRun P msg false d.list [] (d.asks P code.logged msg w.logging) _ at hrun
  rw [forall_executes]
  by_cases hun : Unmatched (d.asks P code.logged msg w.logging)
  · have hall : AllAccept P msg (d.asks P code.logged msg w.logging) :=
      fun a ha hne => absurd (hun a ha) hne
    rw [runsCallbacks_iff_of_unmatched hcode hd hdispatch hrun hun
      fun hsome => hvalidEnd ⟨hun, hsome⟩]
    exact ⟨fun h => ⟨hall, fun hboth => h hboth.2⟩, fun h hsome => h.2 ⟨hun, hsome⟩⟩
  · rw [runsCallbacks_iff_of_matched hdispatch hrun hun]
    exact ⟨fun h => ⟨h, fun hboth => absurd hboth.1 hun⟩, And.left⟩

/-- **Every reachable dispatcher keeps its matches in the order that was declared, and runs the
callbacks that they select** when each match that is executed accepts the message, if it keeps a
definition. -/
theorem dispatches_in_order_iff (P : Platform) {code : UserCode U} (hcode : code.Observes)
    (bound : Bound) (trace : Bool) (actions : List (DispatcherAction U)) :
    let d := runFrom (after P code bound) { trace := trace } actions
    d.Declares (runFrom (Declared.after bound) {} actions) ∧
      ((∀ m ∈ d.list, m.callback.isSome = true) → ∀ (msg : Message) (w : World U),
        msg.processed = false → msg.command ≠ [] →
        (∀ a ∈ d.executes P code.logged msg w.logging, msg.ValidIn P a.world.env) →
        (d.RunsCallbacks P code msg w ↔
          ∀ a ∈ d.executes P code.logged msg w.logging, a.Accepts P msg)) := by
  have hdeclares := declares_reachable P code bound trace actions
  exact ⟨hdeclares, fun hl msg w hprocessed hcommand hvalid =>
    runsCallbacks_iff hcode hdeclares.always hl hprocessed hcommand hvalid⟩

/-- Callbacks and match functions that do nothing observe. -/
lemma observes_idle : Service.idle.Observes :=
  ⟨fun _ _ _ _ => ⟨⟨_, rfl⟩, rfl, rfl⟩, fun _ _ _ => ⟨rfl, rfl, rfl⟩⟩

/-- A program with a definition for the command `A` only. -/
def oneDefinitionWorld : World Unit :=
  { env := { paths := ['d'], files := Service.oneDefinition }, user := () }

/-- A service with the system matches, a match for `B` and a match that sees all the messages
first; `B` runs the last two. -/
theorem dispatches_in_order_iff_service :
    let actions : List (DispatcherAction Unit) :=
      [.addCommunicatorCommands true, .addMatch { expr := some ['B'], callback := some 100 },
        .addMatch { callback := some 101, func := .callbackMatch, priority := 0 }]
    let bound : Bound := fun f => if f = .msgReplyWithUnknown then 11 else 1
    let d := runFrom (after .standard Service.idle bound) {} actions
    d.Declares (runFrom (Declared.after bound) {} actions) ∧
      d.RunsCallbacks .standard Service.idle { command := ['B'] } oneDefinitionWorld := by
  intro actions bound d
  obtain ⟨hdeclares, hruns⟩ :=
    dispatches_in_order_iff .standard observes_idle bound false actions
  exact ⟨hdeclares, (hruns (by decide) { command := ['B'] } oneDefinitionWorld rfl (by decide)
    (by decide)).mpr (by decide)⟩

/-- A catch-all that keeps the definition of a first message drops the second one. -/
theorem not_dispatches_in_order :
    ¬ ∀ (P : Platform) (code : UserCode Unit) (bound : Bound) (trace : Bool)
      (actions : List (DispatcherAction Unit)), code.Observes →
      let d := runFrom (after P code bound) { trace := trace } actions
      d.Declares (runFrom (Declared.after bound) {} actions) ∧
        ((∀ m ∈ d.list, m.callback.isSome = true) → ∀ (msg : Message) (w : World Unit),
          msg.processed = false → msg.command ≠ [] →
          (∀ a ∈ d.executes P code.logged msg w.logging, msg.ValidIn P a.world.env) →
          d.RunsCallbacks P code msg w) := by
  intro h
  have hruns := (h .standard Service.idle (fun _ => 0) false
    [.addMatch { callback := some 100, func := .alwaysMatch },
      .dispatch { command := ['A'] } oneDefinitionWorld] observes_idle).2
    (by decide) { command := ['B'] } oneDefinitionWorld rfl (by decide) (by decide)
  exact absurd hruns.calls (by decide)

end Dispatcher

end EventDispatcher
