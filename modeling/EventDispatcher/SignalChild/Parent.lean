import EventDispatcher.Signal.Delivery
import EventDispatcher.SignalChild.ProcessSignal

/-!
# The signals of the children

A child that dies sends `SIGCHLD`, which is a standard signal: the children that die while it is
pending send it once.  When `poll()` finds it, `process()` reads it and calls `process_signal()`,
whose loop looks for statuses until there is none.  Children may die at any time in between, and
no one is forgotten: while the status of a child is pending, so is `SIGCHLD`, or the loop runs
(`Parent.Awake`).
-/

namespace EventDispatcher.SignalChild

open Lib

/-- `SIGCHLD` -/
def sigchld : Int32 := 17

/-- Where `process()` of the `signal_child` is. -/
inductive Place where
  /-- It does not run. -/
  | idle
  /-- At the next `read()`. -/
  | reading
  /-- In the loop of `process_signal()`. -/
  | handling
deriving DecidableEq, Repr

/-- A process with children and a `signal_child`. -/
structure Parent where
  /-- The signals; the `signal_child` is the first object. -/
  signals : Signal.State
  /-- The `signal_child`, and the statuses that are pending. -/
  children : Handling := { pending := [] }
  /-- Where its `process()` is. -/
  place : Place := .idle
  /-- The statuses of the children that died, in order. -/
  died : List ChildStatus := []

namespace Parent

/-- What can happen, in any order. -/
inductive Action where
  /-- A child dies. -/
  | die (status : ChildStatus) (dead : status.code.isDead = true)
  /-- Another signal is sent, which may be `SIGCHLD`. -/
  | send (info : Signal.SignalInfo)
  /-- A call to the `signal_child`, outside of its callbacks. -/
  | call (c : Registry.Command)
  /-- The loop of the communicator goes on. -/
  | go

/-- The process after the constructor of the `signal_child`. -/
def start (blocked : Int32 → Bool) : Parent where
  signals := (Signal.State.construct .linux { blocked } sigchld 1 true none).2

/-- A child dies and becomes a zombie, which keeps its number. -/
def die (s : Parent) (status : ChildStatus) : Parent :=
  if status.pid ∈ s.children.pending.map ChildStatus.pid then s
  else
    { s with
      signals := s.signals.arrive .linux ⟨sigchld, UInt32.ofNat status.pid⟩
      children := { s.children with pending := s.children.pending ++ [status] }
      died := s.died ++ [status] }

/-- The next step of the loop of the communicator, as far as it is about the `signal_child`. -/
def go (H : Host) (s : Parent) : Parent :=
  match s.place with
  | .idle =>
    -- `poll()` is given the connections of the communicator
    if s.children.registry.listed = true ∧ s.signals.pending sigchld ≠ [] then
      { s with place := .reading }
    else s
  | .reading =>
    match s.signals.read 0 with
    | none => { s with place := .idle }
    | some signals => { s with signals, place := .handling }
  | .handling =>
    if s.children.pending = [] then { s with place := .reading }
    else { s with children := s.children.turn H }

/-- One action. -/
def step (H : Host) (s : Parent) : Action → Parent
  | .die status _ => s.die status
  | .send info => { s with signals := s.signals.arrive .linux info }
  | .call c => { s with children := s.children.exec c }
  | .go => s.go H

/-- **The invariant.** -/
structure Awake (s : Parent) : Prop where
  /-- The `signal_child` is open. -/
  object : ∃ o, s.signals.objects[0]? = some o ∧ o.isOpen = true ∧ o.signal = sigchld
  /-- Its signal is blocked. -/
  blocked : s.signals.blocked sigchld = true
  /-- While a status is pending, the loop runs or the signal is pending. -/
  ahead : s.children.pending ≠ [] → s.place = .handling ∨ s.signals.pending sigchld ≠ []
  /-- The children that died are dead. -/
  dead : ∀ status ∈ s.died, status.code.isDead = true
  /-- Their statuses were handled, or are pending. -/
  reaping : Handling.Reaping s.died s.children
  /-- The object is consistent. -/
  good : s.children.Good

/-! ### The number of listeners -/

lemma states_subset_turn (H : Host) (e : Handling) : e.states ⊆ (e.turn H).states := by
  cases hthrown : e.thrown with
  | some thrown =>
    rw [Handling.turn, if_pos (by simp [hthrown])]
    exact List.Subset.refl _
  | none =>
    cases hpicked : e.pending[H.pick e % e.pending.length]? with
    | none =>
      rw [Handling.turn, if_neg (by simp [hthrown])]
      simp only [hpicked]
      exact List.Subset.refl _
    | some status =>
      rw [Handling.turn_of_picked H hthrown hpicked]
      have hran := (Handling.dispatch_ran H e status).states
      dsimp only
      split_ifs
      · exact List.Subset.trans hran (List.subset_append_left _ _)
      · exact hran

lemma states_subset_step (H : Host) (s : Parent) (a : Action) :
    s.children.states ⊆ (s.step H a).children.states := by
  cases a with
  | die status dead =>
    rw [step, die]
    split_ifs
    · exact List.Subset.refl _
    · exact List.Subset.refl _
  | send info => exact List.Subset.refl _
  | call c => exact List.subset_append_left _ _
  | go =>
    rw [step, go]
    split
    · split_ifs <;> exact List.Subset.refl _
    · split <;> exact List.Subset.refl _
    · split_ifs
      · exact List.Subset.refl _
      · exact states_subset_turn H s.children

/-- A run that ends without too many listeners never had too many. -/
lemma bounded_of_runFrom {H : Host} {s : Parent} {actions : List Action}
    (h : (runFrom (step H) s actions).children.Bounded) : s.children.Bounded := by
  induction actions generalizing s with
  | nil => exact h
  | cons a actions ih =>
    have hnext : (s.step H a).children.Bounded := ih h
    exact fun r hr => hnext r (states_subset_step H s a hr)

/-! ### One step -/

section Arrive

variable {s : Signal.State}

/-- A signal that is pending stays pending when signals are sent. -/
lemma pending_ne_nil_of_arrive (info : Signal.SignalInfo) (h : s.pending sigchld ≠ []) :
    (s.arrive .linux info).pending sigchld ≠ [] := by
  rw [Signal.State.pending_arrive]
  exact List.append_ne_nil_of_left_ne_nil h _

/-- `SIGCHLD` is pending after it is sent. -/
lemma pending_sigchld_arrive (pid : UInt32) (h : s.blocked sigchld = true) :
    (s.arrive .linux ⟨sigchld, pid⟩).pending sigchld ≠ [] := by
  by_cases hempty : s.pending sigchld = []
  · rw [Signal.State.pending_arrive, if_pos ⟨rfl, h, .inr hempty⟩, hempty]
    exact List.cons_ne_nil _ _
  · exact pending_ne_nil_of_arrive _ hempty

end Arrive

namespace Awake

variable {s : Parent} {H : Host}

lemma start (blocked : Int32 → Bool) : (start blocked).Awake where
  object := ⟨{ signal := sigchld }, rfl, rfl, rfl⟩
  blocked := by
    change Function.update blocked sigchld _ sigchld = true
    rw [Function.update_self]
    rfl
  ahead h := absurd rfl h
  dead status h := absurd h List.not_mem_nil
  reaping := ⟨rfl, List.nodup_nil, List.Perm.refl _, fun h hh => absurd hh List.not_mem_nil, rfl⟩
  good := Handling.good_initial []

lemma die (h : s.Awake) {status : ChildStatus} (dead : status.code.isDead = true) :
    (s.die status).Awake := by
  rw [Parent.die]
  split_ifs with hzombie
  · exact h
  · obtain ⟨hobjects, hblocked⟩ :=
      Signal.State.arrive_same (Y := .linux) s.signals ⟨sigchld, UInt32.ofNat status.pid⟩
    refine ⟨?_, ?_, fun _ => .inr (pending_sigchld_arrive _ h.blocked), fun status' hs => ?_,
      ⟨h.reaping.thrown, ?_, ?_, h.reaping.right, h.reaping.reaped⟩,
      ⟨h.good.states, h.good.registry⟩⟩
    · rw [hobjects]
      exact h.object
    · rw [hblocked]
      exact h.blocked
    · rcases List.mem_append.mp hs with hs | hs
      · exact h.dead status' hs
      · rw [List.mem_singleton.mp hs]
        exact dead
    · rw [List.map_append, List.map_singleton, List.nodup_append]
      refine ⟨h.reaping.nodup, List.nodup_singleton _, fun pid hpid pid' hpid' => ?_⟩
      rw [List.mem_singleton.mp hpid']
      rintro rfl
      exact hzombie hpid
    · rw [← List.append_assoc]
      exact h.reaping.perm.append_right _

lemma send (h : s.Awake) (info : Signal.SignalInfo) : (s.step H (.send info)).Awake := by
  obtain ⟨hobjects, hblocked⟩ := Signal.State.arrive_same (Y := .linux) s.signals info
  refine ⟨?_, ?_, fun hne => ?_, h.dead, h.reaping, h.good⟩
  · change ∃ o, (s.signals.arrive .linux info).objects[0]? = some o ∧ _
    rw [hobjects]
    exact h.object
  · change (s.signals.arrive .linux info).blocked sigchld = true
    rw [hblocked]
    exact h.blocked
  · exact (h.ahead hne).imp id (pending_ne_nil_of_arrive info)

lemma call (h : s.Awake) (c : Registry.Command)
    (hbounded : (s.step H (.call c)).children.Bounded) : (s.step H (.call c)).Awake :=
  ⟨h.object, h.blocked, h.ahead, h.dead,
    ⟨h.reaping.thrown, h.reaping.nodup, h.reaping.perm, h.reaping.right, h.reaping.reaped⟩,
    (Handling.Ran.exec s.children c).good h.good hbounded⟩

lemma go (h : s.Awake) (hbounded : (s.go H).children.Bounded) : (s.go H).Awake := by
  rw [Parent.go] at hbounded ⊢
  cases hplace : s.place with
  | idle =>
    dsimp only
    split_ifs with hready
    · exact ⟨h.object, h.blocked, fun _ => .inr hready.2, h.dead, h.reaping, h.good⟩
    · exact h
  | reading =>
    dsimp only
    cases hread : s.signals.read 0 with
    | none =>
      refine ⟨h.object, h.blocked, fun hne => ?_, h.dead, h.reaping, h.good⟩
      refine .inr ((h.ahead hne).resolve_left ?_)
      rw [hplace]
      decide
    | some signals =>
      obtain ⟨o, info, rest, hi, hopen, hpending, rfl⟩ := Signal.State.read_eq_some_iff.mp hread
      refine ⟨⟨{ o with info }, (s.signals.objects_setObject hi _ 0).trans (if_pos rfl), hopen, ?_⟩,
        h.blocked, fun _ => .inl rfl, h.dead, h.reaping, h.good⟩
      obtain ⟨o', hi', -, hsignal⟩ := h.object
      cases hi.symm.trans hi'
      exact hsignal
  | handling =>
    rw [hplace] at hbounded
    dsimp only at hbounded ⊢
    split_ifs at hbounded ⊢ with hempty
    · exact ⟨h.object, h.blocked, fun hne => absurd hempty hne, h.dead, h.reaping, h.good⟩
    · obtain ⟨hreaping, hgood, -⟩ := h.reaping.turn h.dead h.good H hbounded hempty
      exact ⟨h.object, h.blocked, fun _ => .inl rfl, h.dead, hreaping, hgood⟩

/-- What is pending for the first object are the `SIGCHLD`. -/
lemma length_pending (h : s.Awake) :
    (s.signals.pending sigchld).length = s.signals.pendingOf 0 := by
  obtain ⟨o, hi, -, hsignal⟩ := h.object
  rw [Signal.State.pendingOf, hi, ← hsignal]

/-- **Every action keeps the invariant**, unless there are too many listeners. -/
lemma step (h : s.Awake) (a : Action) (hbounded : (s.step H a).children.Bounded) :
    (s.step H a).Awake := by
  cases a with
  | die status dead => exact h.die dead
  | send info => exact h.send info
  | call c => exact h.call c hbounded
  | go => exact h.go hbounded

end Awake

/-- The invariant holds after a run that ends without too many listeners. -/
lemma awake_of_bounded {H : Host} {s : Parent} (h : s.Awake) {actions : List Action}
    (hbounded : (runFrom (step H) s actions).children.Bounded) :
    (runFrom (step H) s actions).Awake := by
  induction actions generalizing s with
  | nil => exact h
  | cons a actions ih => exact ih (h.step a (bounded_of_runFrom hbounded)) hbounded

/-! ### How it goes on -/

/-- There is nothing to do for the loop of the communicator. -/
def Done (s : Parent) : Prop :=
  s.place = .idle ∧ (s.children.registry.listed = true → s.signals.pending sigchld = [])

instance (s : Parent) : Decidable s.Done := inferInstanceAs (Decidable (_ ∧ _))

/-- A bound on the steps that are left. -/
def rest (s : Parent) : ℕ :=
  if s.Done then 0
  else 2 * (s.signals.pending sigchld).length + s.children.pending.length +
    if s.place = .reading then 1 else 2

lemma rest_le (s : Parent) : s.rest ≤ 2 * (s.signals.pending sigchld).length +
    s.children.pending.length + if s.place = .reading then 1 else 2 := by
  rw [rest]
  split_ifs <;> omega

lemma go_of_done {H : Host} {s : Parent} (h : s.Done) : s.go H = s := by
  rw [go, h.1]
  dsimp only
  rw [if_neg fun hready => hready.2 (h.2 hready.1)]

/-- **Each step leaves less to do.** -/
lemma rest_go {H : Host} {s : Parent} (h : s.Awake) (hbounded : (s.go H).children.Bounded)
    (hdone : ¬s.Done) : (s.go H).rest < s.rest := by
  have hrest : s.rest = 2 * (s.signals.pending sigchld).length + s.children.pending.length +
      if s.place = .reading then 1 else 2 := if_neg hdone
  have hle := rest_le (s.go H)
  rw [hrest]
  cases hplace : s.place with
  | idle =>
    have hready : s.children.registry.listed = true ∧ s.signals.pending sigchld ≠ [] := by
      by_contra hnot
      exact hdone ⟨hplace, fun hlisted => by_contra fun hne => hnot ⟨hlisted, hne⟩⟩
    have hgo : s.go H = { s with place := .reading } := by
      rw [go, hplace]
      exact if_pos hready
    rw [hgo] at hle ⊢
    simp only [if_true, reduceCtorEq, if_false] at hle ⊢
    omega
  | reading =>
    obtain ⟨o, hi, hopen, hsignal⟩ := h.object
    cases hread : s.signals.read 0 with
    | none =>
      have hempty := Signal.State.read_eq_none_iff.mp hread o hi hopen
      rw [hsignal] at hempty
      have hgo : s.go H = { s with place := .idle } := by
        rw [go, hplace]
        simp only [hread]
      have hdone' : (s.go H).Done := by
        rw [hgo]
        exact ⟨rfl, fun _ => hempty⟩
      rw [rest, if_pos hdone']
      simp only [if_true]
      omega
    | some signals =>
      have hgo : s.go H = { s with signals, place := .handling } := by
        rw [go, hplace]
        simp only [hread]
      have hless := Signal.State.pendingOf_read hread
      have hlength := (h.go hbounded).length_pending
      rw [hgo] at hle hlength ⊢
      rw [h.length_pending, hless]
      simp only [hlength, if_true, reduceCtorEq, if_false] at hle ⊢
      omega
  | handling =>
    by_cases hempty : s.children.pending = []
    · have hgo : s.go H = { s with place := .reading } := by
        rw [go, hplace]
        exact if_pos hempty
      rw [hgo] at hle ⊢
      simp only [if_true, reduceCtorEq, if_false] at hle ⊢
      omega
    · have hgo : s.go H = { s with children := s.children.turn H } := by
        rw [go, hplace]
        exact if_neg hempty
      rw [hgo] at hbounded hle ⊢
      have hless := (h.reaping.turn h.dead h.good H hbounded hempty).2.2
      simp only [hplace, reduceCtorEq, if_false] at hle ⊢
      omega

/-- The loop of the communicator leaves the children that died. -/
lemma died_go (H : Host) (s : Parent) : (s.go H).died = s.died := by
  rw [go]
  split
  · split_ifs <;> rfl
  · split <;> rfl
  · split_ifs <;> rfl

/-- **The loop comes to its end** when nothing else happens. -/
lemma done_of_rest_le {H : Host} {n : ℕ} {s : Parent} (h : s.Awake) (hrest : s.rest ≤ n)
    (hbounded : (runFrom (step H) s (List.replicate n .go)).children.Bounded) :
    (runFrom (step H) s (List.replicate n .go)).Done ∧
      (runFrom (step H) s (List.replicate n .go)).died = s.died := by
  induction n generalizing s with
  | zero =>
    refine ⟨?_, rfl⟩
    by_contra hdone
    change ¬s.Done at hdone
    rw [rest, if_neg hdone] at hrest
    split_ifs at hrest <;> omega
  | succ n ih =>
    rw [List.replicate_succ] at hbounded ⊢
    have hnext : (s.go H).children.Bounded := bounded_of_runFrom hbounded
    have hless : (s.go H).rest ≤ n := by
      by_cases hdone : s.Done
      · rw [go_of_done hdone, rest, if_pos hdone]
        exact Nat.zero_le n
      · have := rest_go h hnext hdone
        omega
    obtain ⟨hend, hdied⟩ := ih (h.go hnext) hless hbounded
    exact ⟨hend, hdied.trans (died_go H s)⟩

lemma runFrom_of_done {H : Host} {s : Parent} (h : s.Done) (n : ℕ) :
    runFrom (step H) s (List.replicate n .go) = s := by
  induction n with
  | zero => rfl
  | succ n ih =>
    rw [List.replicate_succ]
    change runFrom (step H) (s.go H) (List.replicate n .go) = s
    rw [go_of_done h]
    exact ih

/-- When the loop comes to its end without too many listeners, there are never too many. -/
lemma bounded_of_done {H : Host} {s : Parent} {k : ℕ}
    (hdone : (runFrom (step H) s (List.replicate k .go)).Done)
    (hbounded : (runFrom (step H) s (List.replicate k .go)).children.Bounded) (n : ℕ) :
    (runFrom (step H) s (List.replicate n .go)).children.Bounded := by
  have hlater : (runFrom (step H) s (List.replicate (n + k) .go)).children.Bounded := by
    rw [Nat.add_comm, List.replicate_add, runFrom, List.foldl_append]
    change (runFrom (step H) (runFrom (step H) s (List.replicate k .go))
      (List.replicate n .go)).children.Bounded
    rw [runFrom_of_done hdone]
    exact hbounded
  rw [List.replicate_add, runFrom, List.foldl_append] at hlater
  exact bounded_of_runFrom hlater

/-- Two children die, one after the other, and one of them has a listener. -/
def twoDeaths : List Action :=
  [.call (.addListener 7 (some 0) 4), .die Handling.killedChild rfl,
    .die ⟨8, .exited, 0, Nat.succ_pos 7⟩ rfl]

example : (runFrom (step Handling.removing) (start fun _ => false) twoDeaths).signals.pending
    sigchld = [⟨sigchld, 7⟩] := by decide

end Parent

end EventDispatcher.SignalChild
