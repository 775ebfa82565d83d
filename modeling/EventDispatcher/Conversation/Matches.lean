import EventDispatcher.Conversation.Answers

/-!
# Preparing a dispatcher

A new dispatcher is given matches of the user and the system matches.  From then on it has the
system matches whatever the user adds and removes and whatever is dispatched (`Plain.serves`,
`Serves.dispatch`).
-/

namespace EventDispatcher.Conversation

open Lib

/-- The match calls a function of the user. -/
def IsUser (m : DispatcherMatch) : Prop := ∀ id, m.callback = some id → systemFunction? id = none

instance (m : DispatcherMatch) : Decidable (IsUser m) :=
  match h : m.callback with
  | none => .isTrue fun id hid => absurd (h.symm.trans hid) (by simp)
  | some id => decidable_of_iff (systemFunction? id = none)
      ⟨fun hnone id' hid => Option.some.inj (h.symm.trans hid) ▸ hnone, fun hm => hm id h⟩

lemma plain_new (trace : Bool) : Plain { trace := trace } :=
  ⟨fun _ hm => absurd hm List.not_mem_nil, fun _ _ h => absurd h (by simp),
    fun h => absurd h (by simp)⟩

lemma mem_insertMatch {m m' : DispatcherMatch} {l : List DispatcherMatch} :
    m' ∈ Dispatcher.insertMatch m l ↔ m' = m ∨ m' ∈ l := by
  rw [Dispatcher.insertMatch, List.mem_append, List.mem_cons]
  conv_rhs => rw [← List.takeWhile_append_dropWhile
    (p := fun item => decide ¬ m.priority < item.priority) (l := l), List.mem_append]
  tauto

/-- A match that a dispatcher may have: an entry, and a catch-all that answers with `UNKNOWN` or
calls a function of the user. -/
structure IsAllowed (m : DispatcherMatch) : Prop where
  /-- The match. -/
  entry : m.func ≠ .alwaysMatch → IsEntry m
  /-- The catch-all. -/
  catchAll : m.func = .alwaysMatch → ∀ id f, m.callback = some id → systemFunction? id = some f →
    f = .msgReplyWithUnknown

/-- One more match. -/
lemma Plain.addMatch {d d' : Dispatcher} (h : Plain d) {m : DispatcherMatch} (hm : IsAllowed m)
    (hadd : d.addMatch m = .ok d') : Plain d' := by
  rw [Dispatcher.addMatch] at hadd
  split_ifs at hadd with halways hsecond
  · cases hadd
    exact ⟨h.entries, hm.catchAll halways, fun _ => halways⟩
  · cases hadd
    refine ⟨fun m' hm' => ?_, h.catchAll, h.always⟩
    rcases mem_insertMatch.mp hm' with rfl | hm'
    · exact hm.entry halways
    · exact h.entries m' hm'

lemma IsUser.isAllowed {m : DispatcherMatch} (h : IsUser m) : IsAllowed m :=
  ⟨fun _ id f hid hf => absurd ((h id hid).symm.trans hf) (by simp),
    fun _ id f hid hf => absurd ((h id hid).symm.trans hf) (by simp)⟩

lemma Plain.addMatches {d : Dispatcher} (h : Plain d) {l : List DispatcherMatch}
    (hl : ∀ m ∈ l, IsAllowed m) : Plain (d.addMatches l).2 := by
  induction l generalizing d with
  | nil => exact h
  | cons m l ih =>
    have hm := hl m List.mem_cons_self
    rw [Dispatcher.addMatches]
    cases hadd : d.addMatch m with
    | error e => exact h
    | ok d' => exact ih (h.addMatch hm hadd) fun m hm => hl m (List.mem_cons_of_mem _ hm)

/-- Nothing is lost when matches are added. -/
lemma mem_addMatches {d : Dispatcher} {m : DispatcherMatch} (hm : m ∈ d.list)
    (l : List DispatcherMatch) : m ∈ (d.addMatches l).2.list := by
  induction l generalizing d with
  | nil => exact hm
  | cons m' l ih =>
    rw [Dispatcher.addMatches]
    cases hadd : d.addMatch m' with
    | error e => exact hm
    | ok d' =>
      refine ih ?_
      rw [Dispatcher.addMatch] at hadd
      split_ifs at hadd
      · cases hadd
        exact hm
      · cases hadd
        exact mem_insertMatch.mpr (.inr hm)

/-- Matches that are no catch-all are all added. -/
lemma addMatches_ok {l : List DispatcherMatch} (hl : ∀ m ∈ l, m.func ≠ .alwaysMatch)
    (d : Dispatcher) : ∃ d', d.addMatches l = (.ok (), d') ∧ ∀ m ∈ l, m ∈ d'.list := by
  induction l generalizing d with
  | nil => exact ⟨d, rfl, fun _ hm => absurd hm List.not_mem_nil⟩
  | cons m l ih =>
    have hadd : d.addMatch m = .ok { d with list := Dispatcher.insertMatch m d.list } := by
      rw [Dispatcher.addMatch, if_neg (hl m List.mem_cons_self)]
    obtain ⟨d', hd', hmem⟩ := ih (fun m hm => hl m (List.mem_cons_of_mem _ hm))
      { d with list := Dispatcher.insertMatch m d.list }
    refine ⟨d', by rw [Dispatcher.addMatches, hadd, ← hd'], fun m' hm' => ?_⟩
    rcases List.mem_cons.mp hm' with rfl | hm'
    · have := mem_addMatches
        (d := { d with list := Dispatcher.insertMatch m' d.list }) (m := m')
        (mem_insertMatch.mpr (.inl rfl)) l
      rwa [hd'] at this
    · exact hmem m' hm'

/-- **The system matches make the dispatcher serve.** -/
lemma Plain.serves {d : Dispatcher} (h : Plain d) (autoCatchAll : Bool) :
    Serves (d.addCommunicatorCommands bound autoCatchAll).2 := by
  rw [Dispatcher.addCommunicatorCommands_eq]
  refine ⟨h.addMatches fun m hm => ?_, fun c hc => ?_⟩
  · rw [Declared.communicatorCommands] at hm
    rcases List.mem_append.mp hm with hm | hm
    · obtain ⟨c, hc, rfl⟩ := List.mem_map.mp hm
      refine ⟨fun _ id f hid hf => ?_, fun hfunc => absurd hfunc (by simp)⟩
      obtain rfl : bound c.2 = id := Option.some.inj hid
      rw [systemFunction?_bound] at hf
      exact ⟨rfl, c.1, Option.some.inj hf ▸ hc, rfl⟩
    · split_ifs at hm
      · rw [List.mem_singleton.mp hm]
        refine ⟨fun hfunc => absurd rfl hfunc, fun _ id f hid hf => ?_⟩
        obtain rfl : bound .msgReplyWithUnknown = id := Option.some.inj hid
        rw [systemFunction?_bound] at hf
        exact (Option.some.inj hf).symm
      · cases hm
  · obtain ⟨p, hp, rfl⟩ := List.mem_map.mp hc
    rw [Declared.communicatorCommands, Dispatcher.addMatches_append]
    obtain ⟨d', hd', hmem⟩ := addMatches_ok (l := systemCommands.map fun c =>
      { expr := some c.1.toList, callback := some (bound c.2), priority := 10 })
      (fun m hm => by
        obtain ⟨c, -, rfl⟩ := List.mem_map.mp hm
        simp) d
    rw [hd']
    exact ⟨_, mem_addMatches (hmem _ (List.mem_map_of_mem hp)) _, ⟨rfl, .inl rfl⟩, rfl⟩

lemma Serves.addMatches {d : Dispatcher} (h : Serves d) {l : List DispatcherMatch}
    (hl : ∀ m ∈ l, IsAllowed m) : Serves (d.addMatches l).2 :=
  ⟨h.toPlain.addMatches hl, fun c hc =>
    let ⟨m, hm, hlists⟩ := h.system c hc
    ⟨m, mem_addMatches hm l, hlists⟩⟩

lemma Serves.removeMatches {d : Dispatcher} (h : Serves d) (tag : ℕ) :
    Serves (d.removeMatches tag) := by
  rw [Dispatcher.removeMatches]
  split_ifs with htag
  · exact h
  · refine ⟨⟨fun m hm => h.entries m (List.mem_filter.mp hm).1, h.catchAll, h.always⟩,
      fun c hc => ?_⟩
    obtain ⟨m, hm, hlists, hzero⟩ := h.system c hc
    refine ⟨m, List.mem_filter.mpr ⟨hm, ?_⟩, hlists, hzero⟩
    rw [hzero]
    exact decide_eq_true (Ne.symm htag)

/-- A dispatch changes nothing that was declared. -/
lemma Serves.dispatch {d : Dispatcher} (h : Serves d) {U : Type} (P : Platform) (code : UserCode U)
    (msg : Message) (w : World U) : Serves (d.dispatch P code msg w).1 := by
  obtain ⟨hlist, hcatch⟩ := d.declared_dispatch P code msg w
  have hcallback := (DispatcherMatch.mk.inj hcatch).2.1
  have hfunc := (DispatcherMatch.mk.inj hcatch).2.2.1
  refine ⟨⟨fun m hm => ?_, ?_, ?_⟩, fun c hc => ?_⟩
  · have hmem := List.mem_map_of_mem (f := DispatcherMatch.declared) hm
    rw [hlist] at hmem
    obtain ⟨m₀, hm₀, heq⟩ := List.mem_map.mp hmem
    obtain ⟨hexpr₀, hcallback₀, hfunc₀, -⟩ := DispatcherMatch.mk.inj heq
    have hentry := h.entries m₀ hm₀
    rw [IsEntry] at hentry ⊢
    rw [hexpr₀, hcallback₀, hfunc₀] at hentry
    exact hentry
  · rw [hcallback]
    exact h.catchAll
  · rw [hcallback, hfunc]
    exact h.always
  · obtain ⟨m, hm, hlists, hzero⟩ := h.system c hc
    have hmem := List.mem_map_of_mem (f := DispatcherMatch.declared) hm
    rw [← hlist] at hmem
    obtain ⟨m₀, hm₀, heq⟩ := List.mem_map.mp hmem
    obtain ⟨hexpr₀, -, hfunc₀, htag₀, -⟩ := DispatcherMatch.mk.inj heq
    refine ⟨m₀, hm₀, ?_, htag₀.trans hzero⟩
    rw [Lists] at hlists ⊢
    rw [hexpr₀, hfunc₀]
    exact hlists

end EventDispatcher.Conversation
