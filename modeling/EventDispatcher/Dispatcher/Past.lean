import EventDispatcher.Dispatcher.Dispatch
import EventDispatcher.Message.Cache

/-!
# What a dispatch remembers of the past of a message

Two messages are `Alike` when they say the same; they can still differ in the texts they keep and
in the flag that a dispatch sets and nothing clears.  The code of the user does not look at the
past of a message (`UserCode.Uniform`).  The matches treat alike messages in the same way
(`executeAll_alike`), but a message that passes all of them (`Dispatcher.passes`) reaches the
catch-all only while its flag is clear (`ignoresPast_iff`).
-/

namespace EventDispatcher

open Lib

variable {U : Type}

/-! ### The life of a message -/

namespace Message

/-- The objects a program can have: a new message, and what the calls of its functions make of
it. -/
inductive Lived (S : Snapdev) (V : ValidatorDouble) (J : JsonTokens) : Message → Prop
  /-- A new object. -/
  | new : Lived S V J {}
  /-- One of the functions that read or change the message. -/
  | call {m : Message} (c : Call) : Lived S V J m → Lived S V J (m.after S V J c)
  /-- `message::mark_processed()` -/
  | markProcessed {m : Message} : Lived S V J m → Lived S V J m.markProcessed

variable {S : Snapdev} {V : ValidatorDouble} {J : JsonTokens}

lemma Lived.textCoherent {m : Message} (h : Lived S V J m) : m.TextCoherent S := by
  induction h with
  | new => exact Or.inl rfl
  | call c _ ih => exact (effect_after _ c).textCoherent ih
  | markProcessed _ ih => exact ih

variable (S) in
/-- Two messages that say the same. -/
structure Alike (m m' : Message) : Prop where
  /-- The names, the command and the parameters. -/
  fields : m.toFields = m'.toFields
  /-- The text the first one keeps. -/
  left : m.TextCoherent S
  /-- The text the second one keeps. -/
  right : m'.TextCoherent S

lemma Alike.markProcessed {m m' : Message} (h : m.Alike S m') :
    m.markProcessed.Alike S m'.markProcessed := ⟨h.fields, h.left, h.right⟩

lemma Alike.command {m m' : Message} (h : m.Alike S m') : m.command = m'.command :=
  congrArg Fields.command h.fields

/-- What `to_string()` does with a message whose text is the one of its fields. -/
lemma toString_of_textCoherent {m : Message} (h : m.TextCoherent S) :
    (m.command = [] ∧ m.toString S = .error ⟨.invalidMessage, noCommandText⟩) ∨
      ∃ n : Message, m.toString S = .ok (m.text S, n) ∧ n.toFields = m.toFields ∧
        n.TextCoherent S ∧ n.processed = m.processed := by
  unfold Message.toString
  by_cases hcache : m.cachedMessage = []
  · rw [if_pos hcache]
    by_cases hcommand : m.command = []
    · exact Or.inl ⟨hcommand, if_pos hcommand⟩
    · exact Or.inr ⟨_, if_neg hcommand, rfl, Or.inr ⟨hcommand, rfl⟩, rfl⟩
  · rw [if_neg hcache]
    have htext := (h.resolve_left hcache).2
    exact Or.inr ⟨m, by rw [htext], rfl, h, rfl⟩

/-- Alike messages have one text. -/
lemma Alike.toString {m m' : Message} (h : m.Alike S m') :
    (∃ e, m.toString S = .error e ∧ m'.toString S = .error e ∧ m.command = []) ∨
      ∃ t n n', m.toString S = .ok (t, n) ∧ m'.toString S = .ok (t, n') ∧ n.Alike S n' ∧
        n.processed = m.processed ∧ n'.processed = m'.processed := by
  have hcommand := h.command
  rcases toString_of_textCoherent h.left with ⟨hnone, he⟩ | ⟨n, hn, hfields, hcoherent, hflag⟩
  · rcases toString_of_textCoherent h.right with ⟨-, he'⟩ | ⟨n', hn', -⟩
    · exact Or.inl ⟨_, he, he', hnone⟩
    · exfalso
      have hcache : m'.cachedMessage = [] :=
        h.right.resolve_right fun hne => hne.1 (hcommand ▸ hnone)
      rw [Message.toString, if_pos hcache, if_pos (hcommand ▸ hnone)] at hn'
      cases hn'
  · rcases toString_of_textCoherent h.right with
      ⟨hnone, -⟩ | ⟨n', hn', hfields', hcoherent', hflag'⟩
    · exfalso
      have hcache : m.cachedMessage = [] :=
        h.left.resolve_right fun hne => hne.1 (hcommand.trans hnone)
      rw [Message.toString, if_pos hcache, if_pos (hcommand.trans hnone)] at hn
      cases hn
    · have htext : m.text S = m'.text S := congrArg (Fields.text S) h.fields
      have halike : n.toFields = n'.toFields := by rw [hfields, hfields', h.fields]
      exact Or.inr ⟨m.text S, n, n', hn, htext ▸ hn', ⟨halike, hcoherent, hcoherent'⟩,
        hflag, hflag'⟩

end Message

/-! ### Two runs of a dispatcher -/

/-- Two flags `q` and `q'` that were `p` and `p'`: both are set, or both are left. -/
def Marked (p p' q q' : Bool) : Prop := (q = true ∧ q' = true) ∨ (q = p ∧ q' = p')

lemma Marked.refl (p p' : Bool) : Marked p p' p p' := Or.inr ⟨rfl, rfl⟩

lemma Marked.trans {p p' q q' r r' : Bool} (h : Marked p p' q q') (h' : Marked q q' r r') :
    Marked p p' r r' := by
  rcases h' with h' | ⟨rfl, rfl⟩
  · exact Or.inl h'
  · exact h

/-- Equal flags stay equal. -/
lemma Marked.eq {p q q' : Bool} (h : Marked p p q q') : q = q' := by
  rcases h with ⟨hq, hq'⟩ | ⟨hq, hq'⟩
  · rw [hq, hq']
  · rw [hq, hq']

/-- The code of the user does the same for messages that say the same. -/
structure UserCode.Uniform (S : Snapdev) (code : UserCode U) : Prop where
  /-- The match functions. -/
  matchFunc : ∀ id e w {m m' : Message}, m.Alike S m' →
    let r := code.matchFunc id e m w
    let r' := code.matchFunc id e m' w
    r.result = r'.result ∧ r.user = r'.user ∧ r.calls = r'.calls ∧
      r.message.Alike S r'.message ∧
      Marked m.processed m'.processed r.message.processed r'.message.processed
  /-- The callbacks. -/
  callback : ∀ id w {m m' : Message}, m.Alike S m' →
    let r := code.callback id m w
    let r' := code.callback id m' w
    r.result = r'.result ∧ r.user = r'.user ∧ r.calls = r'.calls ∧
      r.message.Alike S r'.message ∧
      Marked m.processed m'.processed r.message.processed r'.message.processed

lemma UserCode.Uniform.logged {S : Snapdev} {code : UserCode U} (h : code.Uniform S) :
    code.logged.Uniform S where
  matchFunc id e w _ _ hm := by
    obtain ⟨hresult, huser, hrest⟩ := h.matchFunc id e { env := w.env, user := w.user.1 } hm
    exact ⟨hresult, congrArg (fun u => (u, w.user.2)) huser, hrest⟩
  callback id w _ _ hm := by
    obtain ⟨hresult, huser, hrest⟩ := h.callback id { env := w.env, user := w.user.1 } hm
    exact ⟨hresult, congrArg (fun u => (u, w.user.2 ++ [id])) huser, hrest⟩

/-- Two calls for alike messages, with the flags `p` and `p'`, leave the same. -/
structure Executed.Alike (S : Snapdev) (p p' : Bool) (e e' : Executed U) : Prop where
  /-- The results. -/
  result : e.result = e'.result
  /-- The worlds. -/
  world : e.world = e'.world
  /-- The messages. -/
  message : e.message.Alike S e'.message
  /-- The flags. -/
  flag : Marked p p' e.message.processed e'.message.processed

variable {P : Platform} {code : UserCode U}

namespace DispatcherMatch

lemma callMatch_alike (hcode : code.Uniform P.S) (m : DispatcherMatch) {msg msg' : Message}
    (h : msg.Alike P.S msg') (w : World U) :
    let r := m.callMatch P code msg w
    let r' := m.callMatch P code msg' w
    r.1 = r'.1 ∧ r.2.2 = r'.2.2 ∧ r.2.1.Alike P.S r'.2.1 ∧
      Marked msg.processed msg'.processed r.2.1.processed r'.2.1.processed := by
  unfold callMatch oneToOneMatch oneToOneCallbackMatch
  cases m.func with
  | user id =>
    obtain ⟨hresult, huser, hcalls, hmessage, hflag⟩ := hcode.matchFunc id m w h
    refine ⟨hresult, ?_, hmessage, hflag⟩
    simp only [UserResult.world]
    rw [huser, hcalls]
  | oneToOneMatch => exact ⟨by simp only [h.command], rfl, h, .refl _ _⟩
  | oneToOneCallbackMatch => exact ⟨by simp only [h.command], rfl, h, .refl _ _⟩
  | alwaysMatch => exact ⟨rfl, rfl, h, .refl _ _⟩
  | callbackMatch => exact ⟨rfl, rfl, h, .refl _ _⟩

/-- A match function gives alike messages the same answer, in the same world. -/
lemma exists_callMatch (hcode : code.Uniform P.S) (m : DispatcherMatch) {msg msg' : Message}
    (h : msg.Alike P.S msg') (w : World U) :
    ∃ result n n' w₁, m.callMatch P code msg w = (result, n, w₁) ∧
      m.callMatch P code msg' w = (result, n', w₁) ∧ n.Alike P.S n' ∧
      Marked msg.processed msg'.processed n.processed n'.processed := by
  obtain ⟨hanswer, hworld, halike, hflag⟩ := m.callMatch_alike hcode h w
  generalize m.callMatch P code msg w = r at hanswer hworld halike hflag ⊢
  generalize m.callMatch P code msg' w = r' at hanswer hworld halike hflag ⊢
  obtain ⟨result, n, w₁⟩ := r
  obtain ⟨result', n', w₁'⟩ := r'
  obtain rfl : result = result' := hanswer
  obtain rfl : w₁ = w₁' := hworld
  exact ⟨result, n, n', w₁, rfl, rfl, halike, hflag⟩

lemma deliver_alike (hcode : code.Uniform P.S) (callback : ℕ) (answer : Bool)
    (parameters : List MessageParameter) {msg msg' : Message} (h : msg.Alike P.S msg')
    (w : World U) :
    (deliver P code callback answer parameters msg w).Alike P.S msg.processed msg'.processed
      (deliver P code callback answer parameters msg' w) := by
  unfold deliver
  rw [Message.checkParameters_congr h.fields]
  split
  · obtain ⟨hresult, huser, hcalls, hmessage, hflag⟩ := hcode.callback callback w h
    refine ⟨congrArg (Except.map fun _ => answer) hresult, ?_, hmessage, hflag⟩
    simp only [UserResult.world]
    rw [huser, hcalls]
  · split
    · rcases h.toString with ⟨e, he, he', -⟩ | ⟨t, n, n', hn, hn', halike, hflag, hflag'⟩
      · rw [he, he']
        exact ⟨rfl, rfl, h, .refl _ _⟩
      · rw [hn, hn']
        exact ⟨rfl, rfl, halike, Or.inr ⟨hflag, hflag'⟩⟩
    · exact ⟨rfl, rfl, h, .refl _ _⟩

lemma executeMatch_alike (hcode : code.Uniform P.S) (m : DispatcherMatch) (answer : Bool)
    {msg msg' : Message} (h : msg.Alike P.S msg') (w : World U) :
    (m.executeMatch P code answer msg w).1 = (m.executeMatch P code answer msg' w).1 ∧
      (m.executeMatch P code answer msg w).2.Alike P.S msg.processed msg'.processed
        (m.executeMatch P code answer msg' w).2 := by
  unfold executeMatch
  cases m.callback with
  | none => exact ⟨rfl, rfl, rfl, h, .refl _ _⟩
  | some callback =>
    have hcommand : msg.markProcessed.command = msg'.markProcessed.command := h.command
    simp only [hcommand]
    cases hd : m.definition P msg'.markProcessed.command w with
    | mk result w' =>
      cases result with
      | error e => exact ⟨rfl, rfl, rfl, h.markProcessed, Or.inl ⟨rfl, rfl⟩⟩
      | ok d =>
        have hdeliver := deliver_alike hcode callback answer d.parameters h.markProcessed w'
        exact ⟨rfl, hdeliver.result, hdeliver.world, hdeliver.message,
          Or.inl (hdeliver.flag.elim id id)⟩

/-- A match treats alike messages in the same way. -/
lemma execute_alike (hcode : code.Uniform P.S) (m : DispatcherMatch) {msg msg' : Message}
    (h : msg.Alike P.S msg') (w : World U) :
    (m.execute P code msg w).1 = (m.execute P code msg' w).1 ∧
      (m.execute P code msg w).2.Alike P.S msg.processed msg'.processed
        (m.execute P code msg' w).2 := by
  obtain ⟨result, n, n', w₁, hcall, hcall', halike, hflag⟩ := m.exists_callMatch hcode h w
  rw [execute, execute, hcall, hcall']
  cases result with
  | error e => exact ⟨rfl, rfl, rfl, halike, hflag⟩
  | ok answer =>
    cases answer with
    | matchFalse => exact ⟨rfl, rfl, rfl, halike, hflag⟩
    | matchTrue =>
      obtain ⟨hm, he⟩ := executeMatch_alike hcode m true halike w₁
      exact ⟨hm, he.result, he.world, he.message, hflag.trans he.flag⟩
    | matchCallback =>
      obtain ⟨hm, he⟩ := executeMatch_alike hcode m false halike w₁
      exact ⟨hm, he.result, he.world, he.message, hflag.trans he.flag⟩

end DispatcherMatch

namespace Dispatcher

/-- The matches treat alike messages in the same way. -/
lemma executeAll_alike (hcode : code.Uniform P.S) (l : List DispatcherMatch)
    {msg msg' : Message} (h : msg.Alike P.S msg') (w : World U) :
    (executeAll P code l msg w).2.Alike P.S msg.processed msg'.processed
      (executeAll P code l msg' w).2 := by
  induction l generalizing msg msg' w with
  | nil => exact ⟨rfl, rfl, h, .refl _ _⟩
  | cons m l ih =>
    obtain ⟨-, he⟩ := m.execute_alike hcode h w
    rw [executeAll, executeAll]
    generalize m.execute P code msg w = r at he ⊢
    generalize m.execute P code msg' w = r' at he ⊢
    obtain ⟨m₁, e⟩ := r
    obtain ⟨m₁', e'⟩ := r'
    obtain ⟨hresult, hworld, hmessage, hflag⟩ := he
    simp only at hresult hworld hmessage hflag ⊢
    rw [hresult, hworld]
    split
    · have htail := ih hmessage e'.world
      exact ⟨htail.result, htail.world, htail.message, hflag.trans htail.flag⟩
    · exact ⟨hresult, hworld, hmessage, hflag⟩

/-! ### The messages that pass all the matches -/

/-- The message and the world after the matches, when no match selects the message. -/
def passed (P : Platform) (code : UserCode U) :
    List DispatcherMatch → Message → World U → Option (Message × World U)
  | [], msg, w => some (msg, w)
  | m :: l, msg, w =>
    match m.callMatch P code msg w with
    | (.ok .matchFalse, msg, w) => passed P code l msg w
    | _ => none

lemma passed_alike (hcode : code.Uniform P.S) (l : List DispatcherMatch) {msg msg' : Message}
    (h : msg.Alike P.S msg') (w : World U) :
    (passed P code l msg w = none ∧ passed P code l msg' w = none) ∨
      ∃ n n' w', passed P code l msg w = some (n, w') ∧ passed P code l msg' w = some (n', w') ∧
        n.Alike P.S n' ∧ Marked msg.processed msg'.processed n.processed n'.processed := by
  induction l generalizing msg msg' w with
  | nil => exact Or.inr ⟨msg, msg', w, rfl, rfl, h, .refl _ _⟩
  | cons m l ih =>
    obtain ⟨result, n, n', w₁, hcall, hcall', halike, hflag⟩ := m.exists_callMatch hcode h w
    rw [passed, passed, hcall, hcall']
    cases result with
    | error e => exact Or.inl ⟨rfl, rfl⟩
    | ok answer =>
      cases answer with
      | matchFalse =>
        rcases ih halike w₁ with hnone | ⟨n, n', w', hn, hn', hboth, hmarked⟩
        · exact Or.inl hnone
        · exact Or.inr ⟨n, n', w', hn, hn', hboth, hflag.trans hmarked⟩
      | matchTrue => exact Or.inl ⟨rfl, rfl⟩
      | matchCallback => exact Or.inl ⟨rfl, rfl⟩

/-- What the matches leave of a message that passes. -/
lemma executeAll_of_passed {l : List DispatcherMatch} {msg n : Message} {w w' : World U}
    (h : passed P code l msg w = some (n, w')) :
    (executeAll P code l msg w).2 = ⟨.ok false, n, w', []⟩ := by
  induction l generalizing msg w with
  | nil =>
    cases h
    rfl
  | cons m l ih =>
    rw [passed] at h
    rw [executeAll, DispatcherMatch.execute]
    split at h
    · rename_i hcall
      rw [hcall]
      simp only [ih h]
      rfl
    · cases h

/-- A match that selects a message throws, or leaves the message marked. -/
lemma executeMatch_marked (hcode : code.Uniform P.S) (m : DispatcherMatch) (answer : Bool)
    {msg : Message} (h : msg.TextCoherent P.S) (w : World U) :
    (∃ x, (m.executeMatch P code answer msg w).2.result = .error x) ∨
      (m.executeMatch P code answer msg w).2.message.processed = true := by
  unfold DispatcherMatch.executeMatch
  cases m.callback with
  | none => exact Or.inl ⟨_, rfl⟩
  | some callback =>
    simp only
    split
    · exact Or.inl ⟨_, rfl⟩
    · rename_i d w' _
      have hself : msg.markProcessed.Alike P.S msg.markProcessed := ⟨rfl, h, h⟩
      have hdeliver := DispatcherMatch.deliver_alike hcode callback answer d.parameters hself w'
      exact Or.inr (hdeliver.flag.elim And.left And.left)

/-- Marked messages stay marked. -/
lemma processed_executeAll (hcode : code.Uniform P.S) (l : List DispatcherMatch) {msg : Message}
    (h : msg.TextCoherent P.S) (hflag : msg.processed = true) (w : World U) :
    (executeAll P code l msg w).2.message.processed = true := by
  have halike := executeAll_alike hcode l (⟨rfl, h, h⟩ : msg.Alike P.S msg) w
  rcases halike.flag with ⟨hmarked, -⟩ | ⟨hleft, -⟩
  · exact hmarked
  · rw [hleft, hflag]

/-- After a match that throws or marks the message, the list has thrown or marked it. -/
lemma executeAll_of_marked (hcode : code.Uniform P.S) {m : DispatcherMatch}
    (l : List DispatcherMatch) {msg : Message} (hmsg : msg.TextCoherent P.S) {w : World U}
    (h : (∃ x, (m.execute P code msg w).2.result = .error x) ∨
      (m.execute P code msg w).2.message.processed = true) :
    (∃ x, (executeAll P code (m :: l) msg w).2.result = .error x) ∨
      (executeAll P code (m :: l) msg w).2.message.processed = true := by
  obtain ⟨-, hself⟩ := m.execute_alike hcode (⟨rfl, hmsg, hmsg⟩ : msg.Alike P.S msg) w
  rw [executeAll]
  simp only
  split
  · rename_i hresult
    rcases h with ⟨x, herror⟩ | hmarked
    · rw [herror] at hresult
      cases hresult
    · exact Or.inr (processed_executeAll hcode l hself.message.left hmarked _)
  · exact h

/-- What the matches leave of a message that does not pass. -/
lemma executeAll_of_not_passed (hcode : code.Uniform P.S) {l : List DispatcherMatch}
    {msg : Message} {w : World U} (hmsg : msg.TextCoherent P.S)
    (h : passed P code l msg w = none) :
    (∃ x, (executeAll P code l msg w).2.result = .error x) ∨
      (executeAll P code l msg w).2.message.processed = true := by
  induction l generalizing msg w with
  | nil => cases h
  | cons m l ih =>
    obtain ⟨-, -, halike, -⟩ := m.callMatch_alike hcode (⟨rfl, hmsg, hmsg⟩ : msg.Alike P.S msg) w
    rw [passed] at h
    have hexecute := DispatcherMatch.execute.eq_def P code m msg w
    generalize m.callMatch P code msg w = r at h halike hexecute
    obtain ⟨result, msg₁, w₁⟩ := r
    cases result with
    | error e =>
      refine executeAll_of_marked hcode l hmsg (Or.inl ⟨e, ?_⟩)
      rw [hexecute]
    | ok answer =>
      cases answer with
      | matchFalse =>
        rw [executeAll, hexecute]
        exact ih halike.left h
      | matchTrue =>
        refine executeAll_of_marked hcode l hmsg ?_
        rw [hexecute]
        exact executeMatch_marked hcode m true halike.left w₁
      | matchCallback =>
        refine executeAll_of_marked hcode l hmsg ?_
        rw [hexecute]
        exact executeMatch_marked hcode m false halike.left w₁

/-! ### The past of a message -/

/-- The catch-all drops the message without a word: it is there, and its check refuses the
message in a build that does not throw. -/
def DropsMessage (P : Platform) (d : Dispatcher) (msg : Message) (w : World U) : Prop :=
  ∃ c, (d.catchAll.definition P msg.command w).1 = .ok c ∧
    msg.checkParameters P.T c.parameters = false ∧ P.B.sanitizeAddress = false

variable (P) (code) in
/-- The message that reaches the end of the list, if one does: no match selects it, and no match
function marks it.  The flag it came with does not count. -/
def passes (d : Dispatcher) (msg : Message) (w : World U) : Option (Message × World U) :=
  if d.trace ∧ msg.command = [] then none
  else (passed P code d.list (d.traced P { msg with processed := false }) w).filter
    fun p => ¬ p.1.processed

variable (P) (code) in
/-- A message that no match selects is given to the catch-all. -/
def ReachesCatchAll (d : Dispatcher) (msg : Message) (w : World U) : Prop :=
  ∀ p ∈ d.passes P code.logged msg w.logging, d.catchAll.callback.isSome = true →
    (d.dispatch P code.logged msg w.logging).2.result =
        (d.catchAll.execute P code.logged p.1 p.2).2.result ∧
      (d.dispatch P code.logged msg w.logging).2.world.user.2 =
        (d.catchAll.execute P code.logged p.1 p.2).2.world.user.2

variable (P) (code) in
/-- The dispatch of one message does what the dispatch of the other one does. -/
structure IgnoresPast (d : Dispatcher) (msg msg' : Message) (w : World U) : Prop where
  /-- The results. -/
  result : (d.dispatch P code.logged msg w.logging).2.result =
    (d.dispatch P code.logged msg' w.logging).2.result
  /-- The callbacks. -/
  calls : (d.dispatch P code.logged msg w.logging).2.world.user.2 =
    (d.dispatch P code.logged msg' w.logging).2.world.user.2
  /-- The first message reaches the catch-all when no match selects it. -/
  left : d.ReachesCatchAll P code msg w
  /-- So does the second one. -/
  right : d.ReachesCatchAll P code msg' w

lemma traced_alike {d : Dispatcher} {msg msg' : Message} (h : msg.Alike P.S msg')
    (hmsg : ¬ (d.trace = true ∧ msg.command = [])) :
    (d.traced P msg).Alike P.S (d.traced P msg') := by
  unfold traced
  cases htrace : d.trace with
  | false => exact h
  | true =>
    simp only [if_true]
    rcases h.toString with ⟨e, -, -, hcommand⟩ | ⟨t, n, n', hn, hn', halike, -, -⟩
    · exact absurd ⟨htrace, hcommand⟩ hmsg
    · rw [hn, hn']
      exact halike

/-- Alike messages pass together. -/
lemma passes_alike (hcode : code.Uniform P.S) (d : Dispatcher) {msg msg' : Message}
    (h : msg.Alike P.S msg') (w : World U) :
    (d.passes P code msg w = none ∧ d.passes P code msg' w = none) ∨
      ∃ n n' w', d.passes P code msg w = some (n, w') ∧
        d.passes P code msg' w = some (n', w') ∧ n.Alike P.S n' := by
  unfold passes
  rw [← h.command]
  by_cases hmsg : d.trace = true ∧ msg.command = []
  · simp [hmsg]
  · have hclear : (Message.mk msg.toFields msg.cachedMessage msg.cachedJson false).Alike P.S
        { msg' with processed := false } := ⟨h.fields, h.left, h.right⟩
    obtain ⟨-, hflag⟩ := d.fields_traced (P := P) { msg with processed := false }
    obtain ⟨-, hflag'⟩ := d.fields_traced (P := P) { msg' with processed := false }
    rw [if_neg hmsg, if_neg hmsg]
    rcases passed_alike hcode d.list (traced_alike hclear hmsg) w with
      ⟨hnone, hnone'⟩ | ⟨n, n', w', hn, hn', halike, hmarked⟩
    · rw [hnone, hnone']
      exact Or.inl ⟨rfl, rfl⟩
    · rw [hn, hn']
      rw [hflag, hflag'] at hmarked
      have heq : n.processed = n'.processed := hmarked.eq
      cases hp : n.processed with
      | true => exact Or.inl ⟨by simp [hp], by simp [← heq, hp]⟩
      | false => exact Or.inr ⟨n, n', w', by simp [hp], by simp [← heq, hp], halike⟩

/-- The message with a clear flag says the same. -/
lemma traced_cleared {d : Dispatcher} {msg : Message} (h : msg.TextCoherent P.S)
    (hmsg : ¬ (d.trace = true ∧ msg.command = [])) :
    (d.traced P { msg with processed := false }).Alike P.S (d.traced P msg) ∧
      (d.traced P { msg with processed := false }).processed = false ∧
      (d.traced P msg).processed = msg.processed := by
  have hclear : (Message.mk msg.toFields msg.cachedMessage msg.cachedJson false).Alike P.S msg :=
    ⟨rfl, h, h⟩
  exact ⟨traced_alike hclear hmsg, (d.fields_traced { msg with processed := false }).2,
    (d.fields_traced msg).2⟩

/-- What a dispatch does with a message that a match selects. -/
lemma dispatch_of_not_passes (hcode : code.Uniform P.S) {d : Dispatcher} {msg : Message}
    (h : msg.TextCoherent P.S) (hmsg : ¬ (d.trace = true ∧ msg.command = [])) {w : World U}
    (hnone : d.passes P code msg w = none) :
    let e := (executeAll P code d.list (d.traced P msg) w).2
    (d.dispatch P code msg w).2.world = e.world ∧
      (d.dispatch P code msg w).2.result = e.result.map fun _ => true := by
  intro e
  obtain ⟨halike, hclear, hflag⟩ := traced_cleared h hmsg
  have hdispatch : (d.dispatch P code msg w).2 = _ := dispatch_traced hmsg w
  rw [passes, if_neg hmsg] at hnone
  -- the matches throw or mark the message, so that the catch-all is not reached
  have hmarked : (∃ x, e.result = .error x) ∨ e.message.processed = true := by
    rcases passed_alike hcode d.list halike w with ⟨-, hnot⟩ | ⟨n, n', w', hn, hn', -, hmarked⟩
    · exact executeAll_of_not_passed hcode halike.right hnot
    · rw [hn] at hnone
      have hn_marked : n.processed = true := by simpa using hnone
      rw [hclear, hn_marked] at hmarked
      refine Or.inr ?_
      change (executeAll P code d.list (d.traced P msg) w).2.message.processed = true
      rw [executeAll_of_passed hn']
      rcases hmarked with ⟨-, hset⟩ | ⟨habsurd, -⟩
      · exact hset
      · cases habsurd
  rw [hdispatch]
  rcases hmarked with ⟨x, herror⟩ | hset
  · change (executeAll P code d.list (d.traced P msg) w).2.result = .error x at herror
    unfold dispatchEnd
    rw [herror]
    exact ⟨rfl, herror⟩
  · exact d.dispatchEnd_matched P code hset

/-- What a dispatch does with a message that no match selects. -/
lemma dispatch_of_passes (hcode : code.Uniform P.S) {d : Dispatcher} {msg n : Message}
    (h : msg.TextCoherent P.S) {w w' : World U} (hsome : d.passes P code msg w = some (n, w')) :
    (msg.processed = true → (d.dispatch P code msg w).2.result = .ok true ∧
      (d.dispatch P code msg w).2.world = w') ∧
    (msg.processed = false → d.catchAll.callback.isSome = true →
      (d.dispatch P code msg w).2.result = (d.catchAll.execute P code n w').2.result ∧
      (d.dispatch P code msg w).2.world = (d.catchAll.execute P code n w').2.world) ∧
    (msg.processed = false → d.catchAll.callback.isSome = false →
      (d.dispatch P code msg w).2.result = .ok false ∧
      (d.dispatch P code msg w).2.world = w') := by
  rw [passes] at hsome
  by_cases hmsg : d.trace = true ∧ msg.command = []
  · rw [if_pos hmsg] at hsome
    cases hsome
  rw [if_neg hmsg, Option.filter_eq_some_iff] at hsome
  obtain ⟨hpassed, hn⟩ := hsome
  have hclear_n : n.processed = false := by simpa using hn
  obtain ⟨halike, hclear, hflag⟩ := traced_cleared h hmsg
  have hdispatch : (d.dispatch P code msg w).2 = _ := dispatch_traced hmsg w
  rcases passed_alike hcode d.list halike w with ⟨hnone, -⟩ | ⟨n₁, n₂, w₁, hn₁, hn₂, hboth, hmarked⟩
  · rw [hnone] at hpassed
    cases hpassed
  · rw [hpassed] at hn₁
    cases hn₁
    -- the copy with a clear flag was not marked, so the message has the flag it came with
    have hflag₂ : n₂.processed = msg.processed := by
      rcases hmarked with ⟨hset, -⟩ | ⟨-, hleft⟩
      · rw [hclear_n] at hset
        cases hset
      · rw [hleft, hflag]
    obtain ⟨-, hexecute⟩ := d.catchAll.execute_alike hcode hboth w'
    rw [hdispatch, executeAll_of_passed hn₂]
    unfold dispatchEnd
    refine ⟨fun hp => ?_, fun hp hcatch => ?_, fun hp hcatch => ?_⟩
    · simp only [hflag₂, hp, if_true]
      exact ⟨trivial, trivial⟩
    · simp only [hflag₂, hp, hcatch, if_true]
      exact ⟨hexecute.result.symm, hexecute.world.symm⟩
    · simp only [hflag₂, hp, hcatch]
      exact ⟨rfl, rfl⟩

variable (P code) in
/-- A message leaves no trace exactly when its check refuses it and the build does not throw. -/
lemma deliver_silent_iff (callback : ℕ) (parameters : List MessageParameter) (msg : Message)
    (w : World (U × List ℕ)) :
    let e := DispatcherMatch.deliver P code.logged callback true parameters msg w
    (e.result = .ok true ∧ e.world.user.2 = w.user.2) ↔
      (msg.checkParameters P.T parameters = false ∧ P.B.sanitizeAddress = false) := by
  unfold DispatcherMatch.deliver
  cases hparameters : msg.checkParameters P.T parameters with
  | true =>
    -- the callback is in the log
    have hlog : (code.logged.callback callback msg w).user.2 = w.user.2 ++ [callback] := rfl
    simp [UserResult.world, hlog]
  | false =>
    cases hbuild : P.B.sanitizeAddress with
    | true => cases msg.toString P.S <;> simp
    | false => simp

variable (P code) in
/-- So does one that is given to the catch-all. -/
lemma execute_catchAll_silent_iff {d : Dispatcher} {callback : ℕ}
    (hd : d.catchAll.func = .alwaysMatch) (hc : d.catchAll.callback = some callback)
    (msg : Message) (w : World (U × List ℕ)) :
    ((d.catchAll.execute P code.logged msg w).2.result = .ok true ∧
      (d.catchAll.execute P code.logged msg w).2.world.user.2 = w.user.2) ↔
      d.DropsMessage P msg w := by
  have hcall : d.catchAll.callMatch P code.logged msg w = (.ok .matchTrue, msg, w) := by
    rw [DispatcherMatch.callMatch, hd]
  have hcommand : msg.markProcessed.command = msg.command := rfl
  rw [DispatcherMatch.execute, hcall]
  simp only [DispatcherMatch.executeMatch, hc, hcommand, DropsMessage]
  have huser : (d.catchAll.definition P msg.command w).2.user = w.user := by
    unfold DispatcherMatch.definition
    split <;> rfl
  generalize d.catchAll.definition P msg.command w = r at huser ⊢
  obtain ⟨result, w'⟩ := r
  cases result with
  | error x => simp
  | ok c =>
    have hsilent := deliver_silent_iff P code callback c.parameters
      msg.markProcessed w'
    have hcheck : msg.markProcessed.checkParameters P.T c.parameters =
        msg.checkParameters P.T c.parameters := Message.checkParameters_congr rfl c.parameters
    have hw : w'.user = w.user := huser
    simp only [hw, hcheck] at hsilent
    simp only [hsilent, Except.ok.injEq, exists_eq_left']

variable (code) in
/-- The trace of a message without a command throws. -/
lemma dispatch_no_command {d : Dispatcher} {msg : Message} (h : msg.TextCoherent P.S)
    (hmsg : d.trace = true ∧ msg.command = []) (w : World U) :
    (d.dispatch P code msg w).2 = ⟨.error ⟨.invalidMessage, noCommandText⟩, msg, w, []⟩ := by
  have hcache : msg.cachedMessage = [] := h.resolve_right fun hne => hne.1 hmsg.2
  have htext : msg.toString P.S = .error ⟨.invalidMessage, noCommandText⟩ := by
    rw [Message.toString, if_pos hcache, if_pos hmsg.2]
  rw [dispatch, if_pos hmsg.1, htext]

/-- A match that selects the message ignores its past. -/
lemma ignoresPast_of_not_passes (hcode : code.Uniform P.S) {d : Dispatcher} {msg msg' : Message}
    (h : msg.Alike P.S msg') {w : World U}
    (hnone : d.passes P code.logged msg w.logging = none)
    (hnone' : d.passes P code.logged msg' w.logging = none) :
    d.IgnoresPast P code msg msg' w := by
  have hleft : d.ReachesCatchAll P code msg w := by
    intro p hp
    rw [hnone] at hp
    cases hp
  have hright : d.ReachesCatchAll P code msg' w := by
    intro p hp
    rw [hnone'] at hp
    cases hp
  by_cases hmsg : d.trace = true ∧ msg.command = []
  · have hmsg' : d.trace = true ∧ msg'.command = [] := ⟨hmsg.1, h.command ▸ hmsg.2⟩
    have hdispatch := dispatch_no_command code.logged h.left hmsg w.logging
    have hdispatch' := dispatch_no_command code.logged h.right hmsg' w.logging
    exact ⟨by rw [hdispatch, hdispatch'], by rw [hdispatch, hdispatch'], hleft, hright⟩
  · have hmsg' : ¬ (d.trace = true ∧ msg'.command = []) :=
      fun hm => hmsg ⟨hm.1, h.command.trans hm.2⟩
    obtain ⟨hworld, hresult⟩ := dispatch_of_not_passes hcode.logged h.left hmsg hnone
    obtain ⟨hworld', hresult'⟩ := dispatch_of_not_passes hcode.logged h.right hmsg' hnone'
    have hlist := executeAll_alike hcode.logged d.list (traced_alike h hmsg) w.logging
    exact ⟨by rw [hresult, hresult', hlist.result], by rw [hworld, hworld', hlist.world],
      hleft, hright⟩

/-- Without a catch-all, the answer for a message that no match selects is its flag. -/
lemma dispatch_of_no_catchAll (hcode : code.Uniform P.S) {d : Dispatcher}
    (hno : d.catchAll.callback.isSome = false) {msg n : Message} (h : msg.TextCoherent P.S)
    {w w' : World U} (hsome : d.passes P code msg w = some (n, w')) :
    (d.dispatch P code msg w).2.result = .ok msg.processed ∧
      (d.dispatch P code msg w).2.world = w' := by
  obtain ⟨hset, -, hclear⟩ := dispatch_of_passes hcode h hsome
  cases hflag : msg.processed with
  | true => exact hset hflag
  | false => exact hclear hflag hno

/-- Then the past counts exactly when the flags are not equal. -/
lemma ignoresPast_iff_of_no_catchAll (hcode : code.Uniform P.S) {d : Dispatcher}
    (hno : d.catchAll.callback.isSome = false) {msg msg' n n' : Message}
    (h : msg.Alike P.S msg') {w : World U} {w' : World (U × List ℕ)}
    (hsome : d.passes P code.logged msg w.logging = some (n, w'))
    (hsome' : d.passes P code.logged msg' w.logging = some (n', w')) :
    d.IgnoresPast P code msg msg' w ↔ msg.processed = msg'.processed := by
  obtain ⟨hresult, hworld⟩ := dispatch_of_no_catchAll hcode.logged hno h.left hsome
  obtain ⟨hresult', hworld'⟩ := dispatch_of_no_catchAll hcode.logged hno h.right hsome'
  have hreach (m : Message) : d.ReachesCatchAll P code m w := by
    intro _ _ hyes
    rw [hno] at hyes
    cases hyes
  constructor
  · intro hig
    exact Except.ok.inj (hresult.symm.trans (hig.result.trans hresult'))
  · intro hflags
    exact ⟨by rw [hresult, hresult', hflags], by rw [hworld, hworld'], hreach msg, hreach msg'⟩

/-- What the catch-all drops depends on what the message says only. -/
lemma dropsMessage_congr {d : Dispatcher} {msg msg' : Message} (h : msg.Alike P.S msg')
    (w : World U) : d.DropsMessage P msg w ↔ d.DropsMessage P msg' w := by
  unfold DropsMessage
  simp only [h.command, Message.checkParameters_congr h.fields]

/-- A message that no match selects reaches the catch-all exactly when its flag is clear, or when
the catch-all drops the message, so that its call leaves nothing to see. -/
lemma reachesCatchAll_iff (hcode : code.Uniform P.S) {d : Dispatcher} {callback : ℕ}
    (hd : d.catchAll.func = .alwaysMatch) (hc : d.catchAll.callback = some callback)
    {msg n : Message} (h : msg.TextCoherent P.S) {w : World U} {w' : World (U × List ℕ)}
    (hsome : d.passes P code.logged msg w.logging = some (n, w')) :
    d.ReachesCatchAll P code msg w ↔ msg.processed = false ∨ d.DropsMessage P n w' := by
  have hyes : d.catchAll.callback.isSome = true := by rw [hc]; rfl
  obtain ⟨hset, hclear, -⟩ := dispatch_of_passes hcode.logged h hsome
  cases hflag : msg.processed with
  | true =>
    -- the catch-all is not called: this cannot be told from a call that leaves nothing
    obtain ⟨hresult, hworld⟩ := hset hflag
    have hsilent := execute_catchAll_silent_iff P code hd hc n w'
    constructor
    · intro hreach
      obtain ⟨hsame, hcalls⟩ := hreach (n, w') hsome hyes
      rw [hresult] at hsame
      rw [hworld] at hcalls
      exact Or.inr (hsilent.mp ⟨hsame.symm, hcalls.symm⟩)
    · rintro (habsurd | hdrops) p hp -
      · cases habsurd
      · obtain rfl : (n, w') = p := Option.some.inj (hsome.symm.trans hp)
        obtain ⟨hdone, hcalls⟩ := hsilent.mpr hdrops
        exact ⟨hresult.trans hdone.symm, by rw [hworld, hcalls]⟩
  | false =>
    obtain ⟨hresult, hworld⟩ := hclear hflag hyes
    refine iff_of_true (fun p hp _ => ?_) (Or.inl rfl)
    obtain rfl : (n, w') = p := Option.some.inj (hsome.symm.trans hp)
    exact ⟨hresult, by rw [hworld]⟩

/-- With a catch-all, the past does not count exactly when both messages reach it. -/
lemma ignoresPast_iff_of_catchAll (hcode : code.Uniform P.S) {d : Dispatcher} {callback : ℕ}
    (hd : d.catchAll.func = .alwaysMatch) (hc : d.catchAll.callback = some callback)
    {msg msg' n n' : Message} (h : msg.Alike P.S msg') (hboth : n.Alike P.S n') {w : World U}
    {w' : World (U × List ℕ)} (hsome : d.passes P code.logged msg w.logging = some (n, w'))
    (hsome' : d.passes P code.logged msg' w.logging = some (n', w')) :
    d.IgnoresPast P code msg msg' w ↔
      (msg.processed = false ∧ msg'.processed = false) ∨ d.DropsMessage P n w' := by
  have hyes : d.catchAll.callback.isSome = true := by rw [hc]; rfl
  have hleft := reachesCatchAll_iff hcode hd hc h.left hsome
  have hright := reachesCatchAll_iff hcode hd hc h.right hsome'
  rw [← dropsMessage_congr hboth] at hright
  constructor
  · intro hig
    rcases hleft.mp hig.left with hflag | hdrops
    · rcases hright.mp hig.right with hflag' | hdrops
      · exact Or.inl ⟨hflag, hflag'⟩
      · exact Or.inr hdrops
    · exact Or.inr hdrops
  · intro hcond
    have hreach := hleft.mpr (hcond.imp_left And.left)
    have hreach' := hright.mpr (hcond.imp_left And.right)
    obtain ⟨hresult, hcalls⟩ := hreach (n, w') hsome hyes
    obtain ⟨hresult', hcalls'⟩ := hreach' (n', w') hsome' hyes
    -- the catch-all does the same with both
    obtain ⟨-, hexecute⟩ := d.catchAll.execute_alike hcode.logged hboth w'
    refine ⟨?_, ?_, hreach, hreach'⟩
    · rw [hresult, hresult', hexecute.result]
    · rw [hcalls, hcalls', hexecute.world]

/-- **A dispatch ignores the past of its message** exactly when neither of the two messages was
processed before, or the message does not pass all the matches, or the flags play no role at the
end: the catch-all drops the message, or there is none and the flags are equal. -/
theorem ignoresPast_iff (hcode : code.Uniform P.S) {d : Dispatcher}
    (hd : d.catchAll.callback.isSome = true → d.catchAll.func = .alwaysMatch)
    {msg msg' : Message} (h : msg.Alike P.S msg') (w : World U) :
    d.IgnoresPast P code msg msg' w ↔
      (msg.processed = false ∧ msg'.processed = false) ∨
      ∀ p ∈ d.passes P code.logged msg w.logging,
        if d.catchAll.callback.isSome then d.DropsMessage P p.1 p.2
        else msg.processed = msg'.processed := by
  rcases d.passes_alike hcode.logged h w.logging with
    ⟨hnone, hnone'⟩ | ⟨n, n', w', hsome, hsome', hboth⟩
  · refine iff_of_true (ignoresPast_of_not_passes hcode h hnone hnone') (Or.inr fun p hp => ?_)
    rw [hnone] at hp
    cases hp
  have hp : ∀ p, p ∈ d.passes P code.logged msg w.logging ↔ p = (n, w') := fun p => by
    rw [hsome, Option.mem_some_iff, eq_comm]
  simp only [hp, forall_eq]
  cases hc : d.catchAll.callback with
  | none =>
    rw [ignoresPast_iff_of_no_catchAll hcode (by rw [hc]; rfl) h hsome hsome']
    simp only [Option.isSome_none, Bool.false_eq_true, if_false]
    refine ⟨Or.inr, ?_⟩
    rintro (⟨hflag, hflag'⟩ | hflags)
    · rw [hflag, hflag']
    · exact hflags
  | some callback =>
    rw [ignoresPast_iff_of_catchAll hcode (hd (by rw [hc]; rfl)) hc h hboth hsome hsome']
    simp only [Option.isSome_some, if_true]

/-- **A reachable dispatcher ignores the past of the messages** exactly when neither of the two
messages was processed before, or the message does not pass all the matches, or the flags play no
role at the end: the catch-all drops the message, or there is none and the flags are equal. -/
theorem dispatch_ignores_past_iff (P : Platform) (V : ValidatorDouble) (J : JsonTokens)
    {code : UserCode U} (hcode : code.Uniform P.S) (bound : Bound) (trace : Bool)
    (actions : List (DispatcherAction U)) {msg msg' : Message} (hmsg : msg.Lived P.S V J)
    (hmsg' : msg'.Lived P.S V J) (hfields : msg.toFields = msg'.toFields) (w : World U) :
    let d := runFrom (after P code bound) { trace := trace } actions
    d.IgnoresPast P code msg msg' w ↔
      (msg.processed = false ∧ msg'.processed = false) ∨
      ∀ p ∈ d.passes P code.logged msg w.logging,
        if d.catchAll.callback.isSome then d.DropsMessage P p.1 p.2
        else msg.processed = msg'.processed :=
  ignoresPast_iff hcode (declares_reachable P code bound trace actions).always
    ⟨hfields, hmsg.textCoherent, hmsg'.textCoherent⟩ w

/-! ### A message that was dispatched before -/

section Lived

variable {V : ValidatorDouble} {J : JsonTokens}

lemma lived_toString {msg n : Message} {t : Str} (h : msg.Lived P.S V J)
    (htext : msg.toString P.S = .ok (t, n)) : n.Lived P.S V J := by
  have hn : msg.after P.S V J .toString = n := by
    rw [Message.after, Message.call, htext]
    rfl
  exact hn ▸ h.call .toString

variable (P V J) in
/-- The code of the user handles the messages through the functions of their class. -/
structure Handles (code : UserCode U) : Prop where
  /-- The match functions. -/
  matchFunc : ∀ id m w {msg : Message}, msg.Lived P.S V J →
    (code.matchFunc id m msg w).message.Lived P.S V J
  /-- The callbacks. -/
  callback : ∀ id w {msg : Message}, msg.Lived P.S V J →
    (code.callback id msg w).message.Lived P.S V J

lemma lived_executeMatch (hcode : Handles P V J code) (m : DispatcherMatch) (answer : Bool)
    {msg : Message} (h : msg.Lived P.S V J) (w : World U) :
    (m.executeMatch P code answer msg w).2.message.Lived P.S V J := by
  unfold DispatcherMatch.executeMatch
  cases m.callback with
  | none => exact h
  | some callback =>
    simp only
    split
    · exact h.markProcessed
    · unfold DispatcherMatch.deliver
      split
      · exact hcode.callback callback _ h.markProcessed
      · split
        · split
          · exact h.markProcessed
          · rename_i htext
            exact lived_toString h.markProcessed htext
        · exact h.markProcessed

lemma lived_execute (hcode : Handles P V J code) (m : DispatcherMatch) {msg : Message}
    (h : msg.Lived P.S V J) (w : World U) :
    (m.execute P code msg w).2.message.Lived P.S V J := by
  have hcall : (m.callMatch P code msg w).2.1.Lived P.S V J := by
    unfold DispatcherMatch.callMatch
    split
    case h_5 id _ => exact hcode.matchFunc id m w h
    all_goals exact h
  unfold DispatcherMatch.execute
  split <;> rename_i hr <;> rw [hr] at hcall
  · exact hcall
  · exact hcall
  · exact lived_executeMatch hcode m true hcall _
  · exact lived_executeMatch hcode m false hcall _

/-- A message that was dispatched is a message of the program. -/
lemma lived_dispatch (hcode : Handles P V J code) (d : Dispatcher) {msg : Message}
    (h : msg.Lived P.S V J) (w : World U) :
    (d.dispatch P code msg w).2.message.Lived P.S V J := by
  have hlist : ∀ (l : List DispatcherMatch) {msg : Message} (w : World U),
      msg.Lived P.S V J → (executeAll P code l msg w).2.message.Lived P.S V J := by
    intro l
    induction l with
    | nil => exact fun _ h => h
    | cons m l ih =>
      intro msg w h
      have hm := lived_execute hcode m h w
      rw [executeAll]
      simp only
      split
      · exact ih _ hm
      · exact hm
  have hend : ∀ e : Executed U, e.message.Lived P.S V J →
      (d.dispatchEnd P code e).2.message.Lived P.S V J := by
    intro e he
    unfold dispatchEnd
    split
    · split
      · exact he
      · split
        · exact lived_execute hcode _ he _
        · exact he
    · exact he
  unfold dispatch
  split
  · exact h
  · rename_i htext
    refine hend _ (hlist d.list w ?_)
    split at htext
    · exact lived_toString h htext
    · cases htext
      exact h

end Lived

lemma uniform_idle (S : Snapdev) : Service.idle.Uniform S :=
  ⟨fun _ _ _ _ _ h => ⟨rfl, rfl, rfl, h, .refl _ _⟩,
    fun _ _ _ _ h => ⟨rfl, rfl, rfl, h, .refl _ _⟩⟩

/-- A new message with the command `B`. -/
def newB : Message := ({} : Message).after .standard .standard .standard (.setCommand ['B'])

lemma lived_newB : newB.Lived .standard .standard .standard := .call _ .new

/-- The same message, after a dispatcher with a match for it. -/
def dispatchedB : Message :=
  (({ list := [{ expr := some ['B'], callback := some 1 }] } : Dispatcher).dispatch .standard
    Service.idle newB oneDefinitionWorld).2.message

lemma lived_dispatchedB : dispatchedB.Lived .standard .standard .standard :=
  lived_dispatch (P := .standard) ⟨fun _ _ _ _ h => h, fun _ _ _ h => h⟩ _ lived_newB _

/-- A dispatcher with a match for the message. -/
theorem dispatch_ignores_past_iff_matched :
    (runFrom (after .standard Service.idle fun _ => 0) {}
      [.addMatch { callback := some 100, func := .alwaysMatch },
        .addMatch { expr := some ['B'], callback := some 1 }]).IgnoresPast .standard Service.idle
      dispatchedB newB oneDefinitionWorld :=
  (dispatch_ignores_past_iff .standard .standard .standard (uniform_idle _) (fun _ => 0) false
    [.addMatch { callback := some 100, func := .alwaysMatch },
      .addMatch { expr := some ['B'], callback := some 1 }]
    lived_dispatchedB lived_newB (by decide) oneDefinitionWorld).mpr
    (Or.inr fun _ hp => (nomatch hp))

/-- The catch-all of a second dispatcher does not see a message that a first one handled. -/
theorem not_dispatch_ignores_past :
    ¬ ∀ (P : Platform) (V : ValidatorDouble) (J : JsonTokens) (code : UserCode Unit)
      (bound : Bound) (trace : Bool) (actions : List (DispatcherAction Unit))
      (msg msg' : Message) (w : World Unit), code.Uniform P.S → msg.Lived P.S V J →
      msg'.Lived P.S V J → msg.toFields = msg'.toFields →
      (runFrom (after P code bound) { trace := trace } actions).IgnoresPast P code msg msg' w := by
  intro h
  have hsame := h .standard .standard .standard Service.idle (fun _ => 0) false
    [.addMatch { callback := some 100, func := .alwaysMatch }] dispatchedB newB
    oneDefinitionWorld (uniform_idle _) lived_dispatchedB lived_newB (by decide)
  exact absurd hsame.calls (by decide)

end Dispatcher

end EventDispatcher
