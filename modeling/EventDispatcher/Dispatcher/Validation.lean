import EventDispatcher.Dispatcher.Match
import EventDispatcher.Lib.Run

/-!
# Which definition a message is checked against

A match keeps the definition of the first message it is executed for.  Over the whole life of a
program the definitions only grow (`Environment.Extends`) and what a match keeps is always a
registered definition (`DispatcherMatch.Coherent`), so a message is checked against its own
definition when the match has none yet, or has the one of the same command.
-/

namespace EventDispatcher

open Lib

variable {U : Type} {P : Platform} {code : UserCode U}

/-! ### The definitions only grow -/

namespace Environment

/-- What is registered stays, and stays under its own command. -/
structure Extends (env env' : Environment) : Prop where
  /-- Nothing is removed or replaced. -/
  kept : ∀ {k : Str} {d : MessageDefinition},
    env.registry.find? k = some d → env'.registry.find? k = some d
  /-- The new definitions are under their own command. -/
  registered : env.Registered → env'.Registered

lemma Extends.refl (env : Environment) : env.Extends env := ⟨id, id⟩

lemma Extends.trans {env₁ env₂ env₃ : Environment} (h₁ : env₁.Extends env₂)
    (h₂ : env₂.Extends env₃) : env₁.Extends env₃ :=
  ⟨fun h => h₂.kept (h₁.kept h), fun h => h₂.registered (h₁.registered h)⟩

lemma extends_definition (env : Environment) (command : Str) :
    env.Extends (env.definition P command).2 :=
  ⟨fun h => find?_getMessageDefinition h command, fun h => h.getMessageDefinition command⟩

lemma extends_call (env : Environment) (c : EnvironmentCall) : env.Extends (env.call P c) := by
  cases c with
  | setMessageDefinitionPaths paths => exact ⟨id, id⟩
  | setFile filename sections => exact ⟨id, id⟩
  | getMessageDefinition command => exact extends_definition env command

lemma extends_calls (env : Environment) (l : List EnvironmentCall) :
    env.Extends (env.calls P l) := by
  induction l generalizing env with
  | nil => exact .refl env
  | cons c l ih => exact (extends_call env c).trans (ih _)

end Environment

/-! ### What a match keeps -/

namespace DispatcherMatch

/-- The definition that a match keeps is a registered one. -/
def Coherent (env : Environment) (m : DispatcherMatch) : Prop :=
  ∀ d ∈ m.messageDefinition, env.registry.find? d.command = some d

instance (env : Environment) (m : DispatcherMatch) : Decidable (m.Coherent env) := by
  rw [Coherent]
  infer_instance

lemma Coherent.mono {env env' : Environment} {m : DispatcherMatch} (h : m.Coherent env)
    (hext : env.Extends env') : m.Coherent env' :=
  fun d hd => hext.kept (h d hd)

end DispatcherMatch

namespace Check

/-- The match had no definition yet, or the one of the command of the message. -/
def SameCommand (c : Check U) : Prop := ∀ d ∈ c.before, d.command = c.message.command

instance (c : Check U) : Decidable c.SameCommand := by
  rw [SameCommand]
  infer_instance

variable (P) in
/-- The parameters are the ones of the definition that `get_message_definition()` gives for the
command of the message. -/
def OwnDefinition (c : Check U) : Prop :=
  ∀ d, (c.world.env.definition P c.message.command).1 = .ok d → c.parameters = d.parameters

instance (c : Check U) : Decidable (c.OwnDefinition P) :=
  match h : (c.world.env.definition P c.message.command).1 with
  | .ok d => decidable_of_iff (c.parameters = d.parameters) (by
      rw [OwnDefinition, h]
      exact ⟨fun heq d' hd' => by cases hd'; exact heq, fun hown => hown d rfl⟩)
  | .error e => .isTrue (by
      rw [OwnDefinition, h]
      exact fun d hd => (nomatch hd))

/-- Checks against the registered definition of the command. -/
lemma ownDefinition_of_find? {c : Check U} {d : MessageDefinition}
    (hfind : c.world.env.registry.find? c.message.command = some d)
    (hparameters : c.parameters = d.parameters) : c.OwnDefinition P := by
  intro d' hd'
  rw [hparameters, Environment.getMessageDefinition_of_find? hfind hd']

end Check

variable (P) in
/-- What a function of the dispatcher leaves when it is called with the definitions `env`. -/
structure Executed.Sound (env : Environment) (e : Executed U) : Prop where
  /-- The definitions are still there. -/
  grown : env.Extends e.world.env
  /-- Each check with the definition of the right command is the one it should be. -/
  own : ∀ c ∈ e.checks, c.SameCommand → c.OwnDefinition P

lemma Executed.Sound.of_extends {env env' : Environment} {e : Executed U}
    (h : env.Extends env') (he : e.Sound P env') : e.Sound P env :=
  ⟨h.trans he.grown, he.own⟩

/-- One call after the other. -/
lemma Executed.Sound.append {env : Environment} {e e' : Executed U} (h : e.Sound P env)
    (h' : e'.Sound P e.world.env) :
    Executed.Sound P env { e' with checks := e.checks ++ e'.checks } := by
  refine ⟨h.grown.trans h'.grown, fun c hc => ?_⟩
  rcases List.mem_append.mp hc with hc | hc
  · exact h.own c hc
  · exact h'.own c hc

namespace DispatcherMatch

variable (code) in
lemma extends_callMatch (m : DispatcherMatch) (msg : Message) (w : World U) :
    w.env.Extends (m.callMatch P code msg w).2.2.env := by
  rw [callMatch]
  split
  case h_5 => exact w.env.extends_calls _
  all_goals exact .refl w.env

variable (code) in
lemma extends_deliver (callback : ℕ) (answer : Bool) (parameters : List MessageParameter)
    (msg : Message) (w : World U) :
    w.env.Extends (deliver P code callback answer parameters msg w).world.env := by
  rw [deliver]
  split
  · exact w.env.extends_calls _
  · split
    · split <;> exact .refl w.env
    · exact .refl w.env

/-- The definition that is used is registered; it is the one of the command unless the match had
one already. -/
lemma definition_spec {m : DispatcherMatch} {command : Str} {w w' : World U}
    {r : Except Exception MessageDefinition} (h : m.definition P command w = (r, w')) :
    w.env.Extends w'.env ∧ ∀ d, r = .ok d →
      (w.env.Registered → m.Coherent w.env → w'.env.registry.find? d.command = some d) ∧
      (m.messageDefinition = some d ∨ w'.env.registry.find? command = some d) := by
  unfold definition at h
  cases hm : m.messageDefinition with
  | some d₀ =>
    rw [hm] at h
    obtain ⟨rfl, rfl⟩ := Prod.mk.inj h
    refine ⟨.refl _, fun d hd => ?_⟩
    cases hd
    exact ⟨fun _ hcoh => hcoh d₀ hm, Or.inl rfl⟩
  | none =>
    rw [hm] at h
    obtain ⟨rfl, rfl⟩ := Prod.mk.inj h
    have hext := w.env.extends_definition (P := P) command
    refine ⟨hext, fun d hd => ?_⟩
    have hfind := Environment.find?_of_getMessageDefinition hd
    refine ⟨fun hreg _ => ?_, Or.inr hfind⟩
    have hcommand : d.command = command := hext.registered hreg _ _ hfind
    rw [hcommand]
    exact hfind

variable (code) in
lemma executeMatch_sound {m : DispatcherMatch} (answer : Bool) (msg : Message) {w : World U}
    (hreg : w.env.Registered) (hm : m.Coherent w.env) :
    (m.executeMatch P code answer msg w).2.Sound P w.env ∧
      (m.executeMatch P code answer msg w).1.Coherent
        (m.executeMatch P code answer msg w).2.world.env := by
  rw [executeMatch]
  split
  · exact ⟨⟨.refl _, by simp⟩, hm⟩
  · rename_i callback _
    simp only
    split
    · rename_i e w' h
      obtain ⟨hext, -⟩ := definition_spec h
      exact ⟨⟨hext, by simp⟩, hm.mono hext⟩
    · rename_i d w' h
      obtain ⟨hext, hd⟩ := definition_spec h
      obtain ⟨hfind, hused⟩ := hd d rfl
      have hdeliver := extends_deliver (P := P) code callback answer d.parameters
        msg.markProcessed w'
      refine ⟨⟨hext.trans hdeliver, fun c hc hsame => ?_⟩, fun d' hd' => ?_⟩
      · rw [List.mem_singleton] at hc
        subst hc
        rcases hused with hbefore | hcommand
        · have hsame' : d.command = msg.markProcessed.command := hsame d hbefore
          exact Check.ownDefinition_of_find? (hsame' ▸ hfind hreg hm) rfl
        · exact Check.ownDefinition_of_find? hcommand rfl
      · cases hd'
        exact hdeliver.kept (hfind hreg hm)

variable (code) in
/-- What one match leaves. -/
lemma execute_sound {m : DispatcherMatch} (msg : Message) {w : World U}
    (hreg : w.env.Registered) (hm : m.Coherent w.env) :
    (m.execute P code msg w).2.Sound P w.env ∧
      (m.execute P code msg w).1.Coherent (m.execute P code msg w).2.world.env := by
  have hext := extends_callMatch (P := P) code m msg w
  rw [execute]
  split <;> rename_i msg' w' h <;> rw [h] at hext
  · exact ⟨⟨hext, by simp⟩, hm.mono hext⟩
  · exact ⟨⟨hext, by simp⟩, hm.mono hext⟩
  · obtain ⟨hs, hc⟩ := executeMatch_sound code true msg' (hext.registered hreg)
      (hm.mono hext)
    exact ⟨hs.of_extends hext, hc⟩
  · obtain ⟨hs, hc⟩ := executeMatch_sound code false msg' (hext.registered hreg)
      (hm.mono hext)
    exact ⟨hs.of_extends hext, hc⟩

end DispatcherMatch

/-! ### What a dispatcher keeps -/

namespace Dispatcher

/-- The definitions that the matches keep are registered ones. -/
structure Coherent (env : Environment) (d : Dispatcher) : Prop where
  /-- The matches of the list. -/
  list : ∀ m ∈ d.list, m.Coherent env
  /-- The catch-all. -/
  catchAll : d.catchAll.Coherent env

lemma Coherent.mono {env env' : Environment} {d : Dispatcher} (h : d.Coherent env)
    (hext : env.Extends env') : d.Coherent env' :=
  ⟨fun m hm => (h.list m hm).mono hext, h.catchAll.mono hext⟩

lemma Coherent.addMatch {env : Environment} {d d' : Dispatcher} {m : DispatcherMatch}
    (h : d.Coherent env) (hm : m.Coherent env) (hadd : d.addMatch m = .ok d') :
    d'.Coherent env := by
  unfold Dispatcher.addMatch at hadd
  split at hadd
  · split at hadd
    · cases hadd
    · cases hadd
      exact ⟨h.list, hm⟩
  · cases hadd
    refine ⟨fun m' hm' => ?_, h.catchAll⟩
    rw [insertMatch_eq] at hm'
    rcases mem_insertLast.mp hm' with rfl | hm'
    · exact hm
    · exact h.list m' hm'

lemma Coherent.removeMatches {env : Environment} {d : Dispatcher} (h : d.Coherent env)
    (tag : ℕ) : (d.removeMatches tag).Coherent env := by
  rw [Dispatcher.removeMatches]
  split
  · exact h
  · exact ⟨fun m hm => h.list m (List.mem_of_mem_filter hm), h.catchAll⟩

variable (code) in
lemma executeAll_sound {l : List DispatcherMatch} (msg : Message) {w : World U}
    (hreg : w.env.Registered) (hl : ∀ m ∈ l, m.Coherent w.env) :
    (executeAll P code l msg w).2.Sound P w.env ∧
      ∀ m ∈ (executeAll P code l msg w).1, m.Coherent (executeAll P code l msg w).2.world.env := by
  induction l generalizing msg w with
  | nil => exact ⟨⟨.refl _, by simp [executeAll]⟩, by simp [executeAll]⟩
  | cons m l ih =>
    obtain ⟨hs, hm⟩ := DispatcherMatch.execute_sound code msg hreg
      (hl m List.mem_cons_self)
    have hrest : ∀ m' ∈ l, m'.Coherent (m.execute P code msg w).2.world.env :=
      fun m' hm' => (hl m' (List.mem_cons_of_mem _ hm')).mono hs.grown
    rw [executeAll]
    simp only
    split
    · obtain ⟨hs', hl'⟩ := ih (m.execute P code msg w).2.message (hs.grown.registered hreg) hrest
      refine ⟨hs.append hs', fun m' hm' => ?_⟩
      rcases List.mem_cons.mp hm' with rfl | hm'
      · exact hm.mono hs'.grown
      · exact hl' m' hm'
    · refine ⟨hs, fun m' hm' => ?_⟩
      rcases List.mem_cons.mp hm' with rfl | hm'
      · exact hm
      · exact hrest m' hm'

variable (code) in
lemma dispatchEnd_sound {d : Dispatcher} {env : Environment} {e : Executed U}
    (he : e.Sound P env) (hreg : env.Registered) (hd : d.catchAll.Coherent env) :
    (d.dispatchEnd P code e).2.Sound P env ∧
      (d.dispatchEnd P code e).1.Coherent (d.dispatchEnd P code e).2.world.env ∧
      e.world.env.Extends (d.dispatchEnd P code e).2.world.env := by
  have hcatch := hd.mono he.grown
  rw [dispatchEnd]
  split
  · split
    · exact ⟨⟨he.grown, he.own⟩, hcatch, .refl _⟩
    · split
      · obtain ⟨hs, hm⟩ := DispatcherMatch.execute_sound code e.message
          (he.grown.registered hreg) hcatch
        exact ⟨he.append hs, hm, hs.grown⟩
      · exact ⟨he, hcatch, .refl _⟩
  · exact ⟨he, hcatch, .refl _⟩

variable (code) in
/-- What the dispatch of one message leaves. -/
lemma dispatch_sound {d : Dispatcher} (msg : Message) {w : World U} (hreg : w.env.Registered)
    (hd : d.Coherent w.env) :
    (d.dispatch P code msg w).2.Sound P w.env ∧
      (d.dispatch P code msg w).1.Coherent (d.dispatch P code msg w).2.world.env := by
  rw [dispatch]
  split
  · exact ⟨⟨.refl _, by simp⟩, hd⟩
  · rename_i msg' _
    obtain ⟨hs, hl⟩ := executeAll_sound code msg' hreg hd.list
    obtain ⟨hs', hm, hext⟩ := dispatchEnd_sound code hs hreg hd.catchAll
    exact ⟨hs', ⟨fun m hmem => (hl m hmem).mono hext, hm⟩⟩

end Dispatcher

/-! ### The life of a dispatcher -/

/-- A dispatcher and the world it is in. -/
structure Service (U : Type) where
  /-- The dispatcher. -/
  dispatcher : Dispatcher
  /-- The world. -/
  world : World U

/-- What happens to a dispatcher. -/
inductive ServiceAction (U : Type) where
  /-- `dispatcher::dispatch()` -/
  | dispatch (msg : Message)
  /-- `dispatcher::add_match()` -/
  | addMatch (m : DispatcherMatch)
  /-- `dispatcher::remove_matches()` -/
  | removeMatches (tag : ℕ)
  /-- The rest of the program runs. -/
  | outside (user : U) (calls : List EnvironmentCall)

namespace Service

variable (P code) in
/-- The service after an action. -/
def after (s : Service U) : ServiceAction U → Service U
  | .dispatch msg =>
    ⟨(s.dispatcher.dispatch P code msg s.world).1,
      (s.dispatcher.dispatch P code msg s.world).2.world⟩
  | .addMatch m =>
    match s.dispatcher.addMatch m with
    | .error _ => s
    | .ok d => { s with dispatcher := d }
  | .removeMatches tag => { s with dispatcher := s.dispatcher.removeMatches tag }
  | .outside user calls => { s with world := ⟨s.world.env.calls P calls, user⟩ }

variable (P code) in
/-- The checks that an action makes. -/
def checks (s : Service U) : ServiceAction U → List (Check U)
  | .dispatch msg => (s.dispatcher.dispatch P code msg s.world).2.checks
  | _ => []

/-- A new dispatcher in a program that has loaded no definition yet. -/
def fresh (trace : Bool) (paths : Str) (files : Str → Option (List ConfSection)) (user : U) :
    Service U :=
  { dispatcher := { trace := trace }
    world := { env := { paths := paths, files := files }, user := user } }

/-- The definitions are registered under their commands, and the matches keep only such. -/
structure Coherent (s : Service U) : Prop where
  /-- The registry. -/
  registered : s.world.env.Registered
  /-- The matches. -/
  dispatcher : s.dispatcher.Coherent s.world.env

/-- A match is added without a definition, or with one that `get_message_definition()` gave. -/
def Adds (s : Service U) : ServiceAction U → Prop
  | .addMatch m => m.Coherent s.world.env
  | _ => True

instance (s : Service U) : (a : ServiceAction U) → Decidable (s.Adds a)
  | .addMatch m => inferInstanceAs (Decidable (m.Coherent s.world.env))
  | .dispatch _ | .removeMatches _ | .outside _ _ => .isTrue trivial

lemma coherent_fresh (trace : Bool) (paths : Str) (files : Str → Option (List ConfSection))
    (user : U) : (fresh trace paths files user).Coherent := by
  refine ⟨fun k d h => ?_, fun m hm => ?_, fun d hd => ?_⟩
  · cases h
  · cases hm
  · cases hd

/-- Each action keeps the service coherent. -/
lemma Coherent.after {s : Service U} {a : ServiceAction U} (h : s.Coherent) (ha : s.Adds a) :
    (s.after P code a).Coherent := by
  cases a with
  | dispatch msg =>
    obtain ⟨hs, hd⟩ := Dispatcher.dispatch_sound (P := P) code msg h.registered
      h.dispatcher
    exact ⟨hs.grown.registered h.registered, hd⟩
  | addMatch m =>
    unfold Service.after
    simp only
    split
    · exact h
    · rename_i d hd
      exact ⟨h.registered, h.dispatcher.addMatch ha hd⟩
  | removeMatches tag => exact ⟨h.registered, h.dispatcher.removeMatches tag⟩
  | outside user calls =>
    have hext := s.world.env.extends_calls (P := P) calls
    exact ⟨hext.registered h.registered, h.dispatcher.mono hext⟩

/-- In a coherent service, the checks with the definition of the right command. -/
lemma Coherent.own {s : Service U} (h : s.Coherent) {a : ServiceAction U} :
    ∀ c ∈ s.checks P code a, c.SameCommand → c.OwnDefinition P := by
  cases a with
  | dispatch msg =>
    exact (Dispatcher.dispatch_sound (P := P) code msg h.registered h.dispatcher).1.own
  | addMatch m => simp [checks]
  | removeMatches tag => simp [checks]
  | outside user calls => simp [checks]

/-- **A message is checked against its own definition** in every run in which each match that is
executed has no definition yet, or the one of the command of the message. -/
theorem checks_own_definition (trace : Bool) (paths : Str)
    (files : Str → Option (List ConfSection)) (user : U) (actions : List (ServiceAction U))
    (hadd : ∀ p ∈ visited (after P code) (fresh trace paths files user) actions, p.1.Adds p.2)
    (hsame : ∀ p ∈ visited (after P code) (fresh trace paths files user) actions,
      ∀ c ∈ p.1.checks P code p.2, c.SameCommand) :
    ∀ p ∈ visited (after P code) (fresh trace paths files user) actions,
      ∀ c ∈ p.1.checks P code p.2, c.OwnDefinition P := by
  have hstep : ∀ (s : Service U) (a : ServiceAction U), s.Coherent → s.Adds a →
      (s.after P code a).Coherent := fun s a hs ha => hs.after ha
  have hinv := (invariant_of_visited hstep (coherent_fresh trace paths files user) hadd).1
  exact fun p hp c hc => (hinv p hp).own c hc (hsame p hp c hc)

/-- Callbacks that do nothing, and match functions that select nothing. -/
def idle : UserCode Unit where
  matchFunc _ _ msg _ := ⟨.ok .matchFalse, msg, (), []⟩
  callback _ msg _ := ⟨.ok (), msg, (), []⟩

/-- A directory with the file of the command `A`, which has a required parameter. -/
def oneDefinition (filename : Str) : Option (List ConfSection) :=
  if filename = "d/A.conf".toList then some [{ name := ['p'], flags := some "required".toList }]
  else none

/-- A catch-all takes a second message of the same command; in between, a match with a command of
its own takes another one. -/
theorem checks_own_definition_catchAll :
    let actions : List (ServiceAction Unit) :=
      [.addMatch { callback := some 0, func := .alwaysMatch },
        .addMatch { expr := some ['B'], callback := some 1 },
        .dispatch { command := ['A'] }, .dispatch { command := ['B'] }]
    let s := runFrom (after .standard idle) (fresh false ['d'] oneDefinition ()) actions
    (s.checks .standard idle (.dispatch { command := ['A'] })).length = 1 ∧
      ∀ c ∈ s.checks .standard idle (.dispatch { command := ['A'] }), c.OwnDefinition .standard :=
  ⟨by decide, checks_own_definition false ['d'] oneDefinition ()
    [.addMatch { callback := some 0, func := .alwaysMatch },
      .addMatch { expr := some ['B'], callback := some 1 },
      .dispatch { command := ['A'] }, .dispatch { command := ['B'] },
      .dispatch { command := ['A'] }] (by decide) (by decide) _
    (List.mem_of_getElem? (i := 4) rfl)⟩

/-- A catch-all checks the messages of a second command against the definition of the first. -/
theorem not_checks_own_definition :
    ¬ ∀ (P : Platform) (code : UserCode Unit) (trace : Bool) (paths : Str)
      (files : Str → Option (List ConfSection)) (actions : List (ServiceAction Unit)),
      (∀ p ∈ visited (after P code) (fresh trace paths files ()) actions, p.1.Adds p.2) →
      ∀ p ∈ visited (after P code) (fresh trace paths files ()) actions,
        ∀ c ∈ p.1.checks P code p.2, c.OwnDefinition P := by
  intro h
  have hrun := h .standard idle false ['d'] oneDefinition
    [.addMatch { callback := some 0, func := .alwaysMatch }, .dispatch { command := ['A'] },
      .dispatch { command := ['B'] }]
  exact absurd (hrun (by decide)) (by decide)

end Service

end EventDispatcher
