import EventDispatcher.Communicator.Turn

/-!
# The order in which the connections are served

The list is sorted by priority, or the flag that has it sorted is up (`Orderly`).  Each call of a
callback keeps this, except `addConnection`: it puts the connection at the end and leaves the
flag alone.  As long as the connections that are added while the flag is down belong at the end,
each iteration serves the connections by priority, ties in the order of the list.
-/

namespace EventDispatcher

open Lib

namespace Communicator

variable {E : Type} {H : Host E}

/-- The list is sorted, or it will be. -/
def Orderly (s : Communicator E) : Prop :=
  s.forceSort = true ∨
    s.connections.list.Pairwise fun a b => (s.heap a).priority ≤ (s.heap b).priority

/-- A connection that is added to the list while the flag is down belongs at its end, and the
flag is not taken down. -/
def AddsInOrder (s : Communicator E) : UserCall → Prop
  | .addConnection c =>
    s.forceSort = false → c ∉ s.connections.list → (s.heap c).validSocket = true →
      ∀ a ∈ s.connections.list, (s.heap a).priority ≤ (s.heap c).priority
  | .setForceSort status => status = true
  | _ => True

variable (H) in
/-- The calls of a callback add connections in order. -/
def Call.AddsInOrder (call : Call E) : Prop :=
  ∀ p ∈ visited (userCall H) (call.start H) (call.behaviour H).calls, p.1.AddsInOrder p.2

/-! ### What the calls keep -/

lemma Orderly.of_same {s s' : Communicator E} (h : s.Orderly)
    (hconnections : s'.connections = s.connections) (hforce : s'.forceSort = s.forceSort)
    (hpriority : ∀ c, (s'.heap c).priority = (s.heap c).priority) : s'.Orderly := by
  rw [Orderly]
  rw [hconnections, hforce]
  simp only [hpriority]
  exact h

lemma Orderly.update {s : Communicator E} (h : s.Orderly) {c : ℕ} {o : Connection}
    (hpriority : o.priority = (s.heap c).priority) : (s.update c o).Orderly := by
  refine h.of_same rfl rfl fun a => ?_
  by_cases ha : a = c
  · subst ha
    rw [heap_update_self]
    exact hpriority
  · rw [heap_update_of_ne s ha]

/-- A connection that is added in order. -/
lemma Orderly.push {s : Communicator E} (h : s.Orderly) {c : ℕ}
    (hsocket : (s.heap c).validSocket = true) (hadd : s.AddsInOrder (.addConnection c)) :
    Orderly { s with connections := s.connections.push c } := by
  rcases h with hforce | hsorted
  · exact Or.inl hforce
  · rw [ConnectionList.push]
    split
    · exact Or.inr hsorted
    · rename_i hc
      cases hforce : s.forceSort with
      | true => exact Or.inl rfl
      | false =>
        refine Or.inr (List.pairwise_append.mpr ⟨hsorted, List.pairwise_singleton _ _, ?_⟩)
        intro a ha b hb
        rw [List.mem_singleton] at hb
        subst hb
        exact hadd hforce hc hsocket a ha

/-- One call of a callback. -/
lemma Orderly.callEffect {s s' : Communicator E} (h : s.Orderly) {call : UserCall}
    (hadd : s.AddsInOrder call) (heffect : CallEffect s call s') : s'.Orderly := by
  cases heffect with
  | connection hpriority => exact (h.update hpriority).of_same rfl rfl fun _ => rfl
  | priority => exact Or.inl rfl
  | added hsocket => exact h.push hsocket hadd
  | removed => exact h.imp id fun hsorted => hsorted.sublist List.erase_sublist
  | forced => exact Or.inl hadd
  | refused => exact h

lemma Orderly.userCalls {s : Communicator E} (h : s.Orderly) {calls : List UserCall}
    (hadd : ∀ p ∈ visited (Communicator.userCall H) s calls, p.1.AddsInOrder p.2) :
    (runFrom (Communicator.userCall H) s calls).Orderly := by
  have hstep : ∀ (s : Communicator E) (call : UserCall), s.Orderly → s.AddsInOrder call →
      (Communicator.userCall H s call).Orderly := fun s call hs hc =>
    hs.callEffect hc (Communicator.callEffect s call)
  exact (invariant_of_visited hstep h hadd).2

/-! ### What the turns keep -/

variable (H) in
/-- The state is orderly when the callbacks that ran added their connections in order. -/
def Progress.Orderly (p : Progress E) : Prop :=
  (∀ call ∈ p.calls, call.AddsInOrder H) → p.state.Orderly

lemma Progress.Orderly.call {p : Progress E} (h : p.Orderly H) (c : ℕ) (callback : Callback) :
    (p.call H c callback).Orderly H := by
  rw [Progress.call]
  split
  · exact h
  · intro hcalls
    have hstart : p.state.Orderly := h fun call hcall => hcalls call (List.mem_append_left _ hcall)
    have hbegin : (Call.start H ⟨c, callback, p.state⟩).Orderly :=
      hstart.of_same rfl rfl fun _ => rfl
    exact hbegin.userCalls (hcalls _ (List.mem_append_right _ (List.mem_singleton_self _)))

/-- One turn. -/
lemma Orderly.serve {s : Communicator E} (h : s.Orderly) (fds : List PollFd) (c : ℕ)
    (hcalls : ∀ call ∈ (Communicator.serve H fds c s).1.calls, call.AddsInOrder H) :
    (Communicator.serve H fds c s).2.state.Orderly := by
  have hturn : (Communicator.serve H fds c s).2.Orderly H := by
    refine serve_induction (Q := Progress.Orderly H) (fun p callback hp => hp.call c callback)
      (fun p _ hp hcalls => (hp hcalls).of_same rfl rfl fun _ => rfl)
      (fun p now tickNow _ hp hcalls => ?_) fds fun _ => h
    have hpriority : ((p.state.heap c).tick now tickNow).priority = (p.state.heap c).priority := by
      obtain ⟨next, date, htick⟩ := (p.state.heap c).exists_tick now tickNow
      rw [htick]
    exact ((hp hcalls).update hpriority).of_same rfl rfl fun _ => rfl
  exact hturn hcalls

/-- All the turns. -/
lemma Orderly.serveAll {fds : List PollFd} {l : List (ℕ × Bool)} {s : Communicator E}
    (h : s.Orderly) (hcalls : ∀ turn ∈ (Communicator.serveAll H fds l s).1,
      ∀ call ∈ turn.calls, call.AddsInOrder H) :
    (Communicator.serveAll H fds l s).2.1.Orderly := by
  induction l generalizing s with
  | nil => exact h
  | cons a l ih =>
    obtain ⟨c, enabled⟩ := a
    rw [Communicator.serveAll] at hcalls ⊢
    cases enabled with
    | false => exact ih h hcalls
    | true =>
      simp only [Bool.not_true, Bool.false_eq_true, if_false] at hcalls ⊢
      cases hthrown : (Communicator.serve H fds c s).2.thrown with
      | some e =>
        simp only [hthrown] at hcalls ⊢
        exact h.serve fds c (hcalls _ (List.mem_singleton_self _))
      | none =>
        simp only [hthrown] at hcalls ⊢
        exact ih (h.serve fds c (hcalls _ List.mem_cons_self))
          fun turn hturn => hcalls turn (List.mem_cons_of_mem _ hturn)

/-- The turns are taken in the order of the copy. -/
lemma sublist_serveAll (fds : List PollFd) (l : List (ℕ × Bool)) (s : Communicator E) :
    List.Sublist ((Communicator.serveAll H fds l s).1.map Turn.connection) (l.map Prod.fst) := by
  induction l generalizing s with
  | nil => exact List.Sublist.refl _
  | cons a l ih =>
    obtain ⟨c, enabled⟩ := a
    rw [Communicator.serveAll, List.map_cons]
    cases enabled with
    | false => exact (ih s).cons c
    | true =>
      simp only [Bool.not_true, Bool.false_eq_true, if_false]
      cases hthrown : (Communicator.serve H fds c s).2.thrown with
      | some e => exact List.Sublist.cons_cons c (List.nil_sublist _)
      | none => exact List.Sublist.cons_cons c (ih _)

/-! ### What an iteration keeps -/

/-- The sort leaves the list sorted, and the flag down. -/
lemma Orderly.sortConnections {s : Communicator E} (h : s.Orderly) :
    s.sortConnections.Orderly ∧
      s.sortConnections.connections.list.Pairwise
        (Before (fun c => (s.heap c).priority) s.connections.list) := by
  rw [Communicator.sortConnections]
  split
  · exact ⟨Or.inr (pairwise_stableSort (fun c => (s.heap c).priority) _),
      before_stableSort s.connections.nodup⟩
  · rename_i hforce
    have hsorted := h.resolve_left hforce
    exact ⟨h, before_of_sorted hsorted⟩

/-- The second half of an iteration. -/
lemma Orderly.pollAndServe {s : Communicator E} (h : s.Orderly) {u : Setup} {timeout : Int64}
    (hcalls : ∀ turn ∈ (Communicator.pollAndServe H u timeout s).turns,
      ∀ call ∈ turn.calls, call.AddsInOrder H) :
    (Communicator.pollAndServe H u timeout s).state.Orderly := by
  unfold Communicator.pollAndServe at hcalls ⊢
  simp only at hcalls ⊢
  split at hcalls
  · exact h.of_same rfl rfl fun _ => rfl
  · rename_i revents outside _
    have hs : Orderly { s with outside := outside } := h.of_same rfl rfl fun _ => rfl
    split at hcalls
    · rename_i hmany
      rw [if_pos hmany]
      exact hs
    · rename_i hmany
      rw [if_neg hmany]
      exact hs.serveAll hcalls

lemma sublist_map_fst_zip {α β : Type*} (l : List α) (l' : List β) :
    List.Sublist ((l.zip l').map Prod.fst) l := by
  induction l generalizing l' with
  | nil => exact List.Sublist.refl _
  | cons a l ih =>
    cases l' with
    | nil => exact List.nil_sublist _
    | cons b l' => exact (ih l').cons_cons a

/-- The turns of the second half are in the order of the copy. -/
lemma sublist_pollAndServe {s : Communicator E} (u : Setup) (timeout : Int64) :
    List.Sublist ((pollAndServe H u timeout s).turns.map Turn.connection)
      s.connections.list := by
  rw [pollAndServe]
  simp only
  split
  · exact List.nil_sublist _
  · split
    · exact List.nil_sublist _
    · exact (sublist_serveAll _ _ _).trans (sublist_map_fst_zip _ _)

/-- The state an iteration calls `poll()` in. -/
lemma iteration_eq (s : Communicator E) :
    s.iteration H =
      if s.connections.list = [] then { state := s, result := .returned true }
      else
        let u := s.sortConnections.setup
        let clock := readClock H (u.nextTimeoutTimestamp ≠ Int64.maxValue)
          s.sortConnections.outside
        let s' := { s.sortConnections with heap := u.heap, outside := clock.2 }
        match pollTimeout u.nextTimeoutTimestamp u.fds.isEmpty clock.1 with
        | none => { state := s', result := .returned false, connections := s'.connections.list }
        | some timeout => pollAndServe H u timeout s' := rfl

/-- An iteration keeps the list sorted, or the flag up. -/
lemma Orderly.iteration {s : Communicator E} (h : s.Orderly)
    (hcalls : ∀ turn ∈ (s.iteration H).turns, ∀ call ∈ turn.calls, call.AddsInOrder H) :
    (s.iteration H).state.Orderly := by
  rw [iteration_eq] at hcalls ⊢
  split at hcalls
  · rename_i hempty
    rw [if_pos hempty]
    exact h
  · rename_i hempty
    rw [if_neg hempty]
    have hs : ∀ outside, Orderly
        { s.sortConnections with heap := s.sortConnections.setup.heap, outside := outside } :=
      fun outside => h.sortConnections.1.of_same rfl rfl fun c => priority_setup _ c
    simp only at hcalls ⊢
    split at hcalls
    · exact hs _
    · exact (hs _).pollAndServe hcalls

/-- An iteration that begins orderly takes the turns in order. -/
lemma Orderly.before {s : Communicator E} (h : s.Orderly) :
    ((s.iteration H).turns.map Turn.connection).Pairwise
      (Before (fun c => (s.heap c).priority) s.connections.list) := by
  refine h.sortConnections.2.sublist ?_
  rw [iteration_eq]
  split
  · exact List.nil_sublist _
  · simp only
    split
    · exact List.nil_sublist _
    · exact sublist_pollAndServe _ _

/-- **The connections are served by priority**, ties in the order of the list, in each iteration
of a run whose callbacks add connections, while the flag is down, only at the end where they
belong. -/
theorem turns_by_priority (s₀ : Communicator E)
    (hadd : ∀ s, InRun H s₀ s → ∀ turn ∈ (s.iteration H).turns, ∀ call ∈ turn.calls,
      call.AddsInOrder H) :
    ∀ s, InRun H s₀ s → ((s.iteration H).turns.map Turn.connection).Pairwise
      (Before (fun c => (s.heap c).priority) s.connections.list) := by
  intro s hs
  have horderly : s.Orderly := by
    induction hs with
    | start => exact Or.inl rfl
    | @again s hs _ ih => exact ih.iteration (hadd s hs)
  exact horderly.before

/-- A connection 0 of the default priority and a connection 1 that comes first, both ready to be
read; only the first one is in the list. -/
def twoReaders : Communicator Unit where
  heap c := { reader := true, socket := c, priority := if c = 1 then 50 else 100 }
  connections := { list := [0] }
  forceSort := true
  outside := ()

/-- A host in which each connection is ready to be read, and each callback makes the same
calls. -/
def allReady (calls : List UserCall) : Host Unit where
  clock outside := (0, outside)
  poll _ _ outside := (.ready fun _ => pollIn, outside)
  callback _ _ _ := { calls := calls, outside := () }

/-- Callbacks that change a priority before they add a connection: the second iteration serves the
new connection first. -/
theorem turns_by_priority_forced :
    let H := allReady [.setPriority 0 70, .addConnection 1]
    let s := (twoReaders.iteration H).state
    (s.iteration H).turns.map Turn.connection = [1, 0] ∧
      [1, 0].Pairwise (Before (fun c => (s.heap c).priority) s.connections.list) := by
  refine ⟨by decide, turns_by_priority (H := allReady [.setPriority 0 70, .addConnection 1])
    twoReaders (fun s _ turn _ call _ p hp => ?_) _ (.again .start (by decide))⟩
  rcases List.mem_cons.mp hp with rfl | hp
  · trivial
  · rw [List.mem_singleton.mp hp]
    exact fun hforce => absurd hforce (by simp [userCall, setPriority, Connection.setPriority])

/-- The calls that change the list or a priority. -/
def UserCall.isListCall : UserCall → Bool
  | .addConnection _ | .removeConnection _ | .setPriority _ _ => true
  | _ => false

/-- A callback adds a connection with a smaller priority: the next iteration serves it last. -/
theorem not_turns_by_priority :
    ¬ ∀ (H : Host Unit) (s₀ : Communicator Unit),
      (∀ callback c s, ∀ call ∈ (H.callback callback c s).calls, UserCall.isListCall call) →
      ∀ s, InRun H s₀ s → ((s.iteration H).turns.map Turn.connection).Pairwise
        (Before (fun c => (s.heap c).priority) s.connections.list) := by
  intro h
  have hrun := h (allReady [.addConnection 1]) twoReaders
    (fun _ _ _ call hcall => by rw [List.mem_singleton.mp hcall]; rfl) _
    (InRun.again (H := allReady [.addConnection 1]) .start (by decide))
  exact absurd hrun (by decide)

end Communicator

end EventDispatcher
