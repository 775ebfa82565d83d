import Mathlib.Data.List.Perm.Basic
import EventDispatcher.SignalChild.Listeners

/-!
# `signal_child::process_signal()`

The loop looks at a status that is pending, passes it to the listeners that are registered then,
and, when the child is dead, takes the status away and removes the listeners of the child.  It ends
when no status is pending.  A status of a child that lives is never taken away, so the loop ends,
and does what it is for, exactly when all the children are dead (`process_signal_iff`).
-/

namespace EventDispatcher.SignalChild

open Lib Registry

/-- What the loop did for a status. -/
structure Handled where
  /-- The status. -/
  status : ChildStatus
  /-- `f_listeners` when the status was found. -/
  registered : List Listener
  /-- The listeners that were called. -/
  called : List Listener
  /-- `f_listeners` afterwards. -/
  left : List Listener

/-- The object and the kernel while the loop runs. -/
structure Handling where
  /-- The fields of the object. -/
  registry : Registry := {}
  /-- The statuses that are pending. -/
  pending : List ChildStatus
  /-- The fields after each call, from the start. -/
  states : List Registry := [{}]
  /-- What was done, in order. -/
  handled : List Handled := []
  /-- The children that were released. -/
  reaped : List ℕ := []
  /-- The exception that left the loop. -/
  thrown : Option Thrown := none

/-- The kernel and the callbacks, which may depend on all that happened. -/
structure Host where
  /-- The position of the status that `waitid()` returns, modulo the number of statuses. -/
  pick : Handling → ℕ
  /-- The calls that the callback of a listener makes. -/
  callback : Handling → Listener → ChildStatus → List Command

/-- The test of the loop: the listener is for the child and for some of the mask. -/
def Listener.selects (l : Listener) (status : ChildStatus) (mask : UInt32) : Bool :=
  l.child = (status.pid : ℤ) && l.flags &&& mask ≠ 0

namespace Handling

/-- A call to the object. -/
def exec (e : Handling) (c : Command) : Handling :=
  { e with registry := e.registry.exec c, states := e.states ++ [e.registry.exec c] }

/-- One listener of the copy of `f_listeners`; the listeners that were called are collected. -/
def dispatch (H : Host) (status : ChildStatus) (mask : UInt32) (p : Handling × List Listener)
    (l : Listener) : Handling × List Listener :=
  if l.selects status mask then
    ((H.callback p.1 l status).foldl exec p.1, p.2 ++ [l])
  else p

/-- The end of a turn for a child that is dead: `waitid()` without `WNOWAIT`, then
`remove_listener()`. -/
def release (e : Handling) (status : ChildStatus) : Handling :=
  let (r, thrown) := e.registry.removeListener status.pid
  { e with
    pending := e.pending.filter fun s => s.pid ≠ status.pid
    reaped := e.reaped ++ [status.pid]
    registry := r
    states := e.states ++ [r]
    thrown := thrown }

/-- One turn of the loop, while it was not left by an exception.  Without a status it ends. -/
def turn (H : Host) (e : Handling) : Handling :=
  if e.thrown.isSome then e
  else
    match e.pending[H.pick e % e.pending.length]? with
    | none => e
    | some status =>
      let registered := e.registry.listeners
      let p := registered.foldl (dispatch H status status.statusMask) (e, [])
      let e := if status.isExited || status.isSignaled then p.1.release status else p.1
      { e with
        handled := e.handled ++ [⟨status, registered, p.2, e.registry.listeners⟩] }

/-- Some turns. -/
def turns (H : Host) : ℕ → Handling → Handling
  | 0, e => e
  | n + 1, e => (turns H n e).turn H

/-- The loop starts after some calls, with the statuses of some children. -/
def start (commands : List Command) (statuses : List ChildStatus) : Handling :=
  commands.foldl exec { pending := statuses }

end Handling

/-- The status was passed to the listeners that it is for, and to no other; the listeners of a
dead child are gone. -/
structure Handled.Right (h : Handled) : Prop where
  /-- The calls. -/
  called : h.called = h.registered.filter fun l => l.selects h.status h.status.code.flag
  /-- The listeners of a dead child. -/
  removed : h.status.code.isDead = true → ∀ l ∈ h.left, l.child ≠ (h.status.pid : ℤ)

/-- The loop is at its end and did what it is for. -/
structure Handling.Delivered (statuses : List ChildStatus) (e : Handling) : Prop where
  /-- No status is pending, and nothing was thrown. -/
  ended : e.pending = [] ∧ e.thrown = none
  /-- Each status was handled once. -/
  once : (e.handled.map Handled.status).Perm statuses
  /-- Each one was handled as it should be. -/
  right : ∀ h ∈ e.handled, h.Right
  /-- Each dead child was released once. -/
  reaped : e.reaped.Perm ((statuses.filter fun s => s.code.isDead).map ChildStatus.pid)

namespace Handling

/-- The object was consistent after each call. -/
structure Good (e : Handling) : Prop where
  /-- The states so far. -/
  states : ∀ r ∈ e.states, r.Consistent
  /-- The last one is the state now. -/
  registry : e.registry ∈ e.states

/-- There were never too many listeners. -/
def Bounded (e : Handling) : Prop := ∀ r ∈ e.states, r.listeners.length < 2 ^ 32

/-- The calls between two points of the loop: only the object changes, and it stays consistent
unless there are too many listeners. -/
structure Ran (e e' : Handling) : Prop where
  /-- The statuses. -/
  pending : e'.pending = e.pending
  /-- What was done. -/
  handled : e'.handled = e.handled
  /-- The children that were released. -/
  reaped : e'.reaped = e.reaped
  /-- Nothing leaves the loop. -/
  thrown : e'.thrown = e.thrown
  /-- There are more states. -/
  states : e.states ⊆ e'.states
  /-- They are consistent. -/
  good : e.Good → e'.Bounded → e'.Good

namespace Ran

lemma refl (e : Handling) : Ran e e := ⟨rfl, rfl, rfl, rfl, fun _ h => h, fun h _ => h⟩

lemma trans {e e' e'' : Handling} (h : Ran e e') (h' : Ran e' e'') : Ran e e'' where
  pending := h'.pending.trans h.pending
  handled := h'.handled.trans h.handled
  reaped := h'.reaped.trans h.reaped
  thrown := h'.thrown.trans h.thrown
  states := List.Subset.trans h.states h'.states
  good hgood hbounded :=
    h'.good (h.good hgood fun r hr => hbounded r (h'.states hr)) hbounded

lemma exec (e : Handling) (c : Command) : Ran e (e.exec c) where
  pending := rfl
  handled := rfl
  reaped := rfl
  thrown := rfl
  states := List.subset_append_left _ _
  good hgood hbounded := by
    have hnext : (e.registry.exec c).Consistent :=
      (hgood.states _ hgood.registry).exec c (hbounded _ (by simp [Handling.exec]))
    refine ⟨fun r hr => ?_, by simp [Handling.exec]⟩
    rcases List.mem_append.mp hr with hr | hr
    · exact hgood.states r hr
    · rw [List.mem_singleton.mp hr]
      exact hnext

lemma foldl_exec (e : Handling) (commands : List Command) :
    Ran e (commands.foldl Handling.exec e) := by
  induction commands generalizing e with
  | nil => exact refl e
  | cons c commands ih => exact (exec e c).trans (ih (e.exec c))

end Ran

/-- The listeners of the copy that match are called, in order. -/
lemma dispatch_spec (H : Host) (status : ChildStatus) (mask : UInt32) (l : List Listener)
    (p : Handling × List Listener) :
    Ran p.1 (l.foldl (dispatch H status mask) p).1 ∧
      (l.foldl (dispatch H status mask) p).2 =
        p.2 ++ l.filter fun l => l.selects status mask := by
  induction l generalizing p with
  | nil => exact ⟨.refl _, by simp⟩
  | cons x l ih =>
    rw [List.foldl_cons]
    obtain ⟨hran, hcalled⟩ := ih (dispatch H status mask p x)
    rw [hcalled, List.filter_cons]
    rw [dispatch] at hran ⊢
    split_ifs at hran ⊢ with hselects
    · exact ⟨(Ran.foldl_exec p.1 _).trans hran, by simp⟩
    · exact ⟨hran, rfl⟩

/-- A dead child is released. -/
lemma release_good {e : Handling} (h : e.Good) (status : ChildStatus) :
    (e.release status).Good ∧ (e.release status).thrown = none ∧
      ∀ l ∈ (e.release status).registry.listeners, l.child ≠ (status.pid : ℤ) := by
  obtain ⟨hnone, hlisteners, hconsistent⟩ :=
    (h.states _ h.registry).removeListener status.pid
  refine ⟨⟨fun r hr => ?_, by simp [release]⟩, hnone, fun l hl => ?_⟩
  · rcases List.mem_append.mp hr with hr | hr
    · exact h.states r hr
    · rw [List.mem_singleton.mp hr]
      exact hconsistent
  · change l ∈ (e.registry.removeListener status.pid).1.listeners at hl
    rw [hlisteners, List.mem_filter] at hl
    simpa using hl.2

/-! ### One turn -/

/-- The status that a turn handles. -/
lemma exists_picked (H : Host) {e : Handling} (h : e.pending ≠ []) :
    ∃ status, e.pending[H.pick e % e.pending.length]? = some status ∧ status ∈ e.pending := by
  have hlt : H.pick e % e.pending.length < e.pending.length :=
    Nat.mod_lt _ (List.length_pos_iff.mpr h)
  exact ⟨_, List.getElem?_eq_getElem hlt, List.getElem_mem hlt⟩

/-- The calls of a turn before the end of the turn. -/
lemma dispatch_ran (H : Host) (e : Handling) (status : ChildStatus) :
    Ran e (e.registry.listeners.foldl (dispatch H status status.statusMask) (e, [])).1 :=
  (dispatch_spec H status status.statusMask e.registry.listeners (e, [])).1

lemma turn_of_picked (H : Host) {e : Handling} (h : e.thrown = none) {status : ChildStatus}
    (hpicked : e.pending[H.pick e % e.pending.length]? = some status) :
    e.turn H =
      let p := e.registry.listeners.foldl (dispatch H status status.statusMask) (e, [])
      let e' := if status.code.isDead then p.1.release status else p.1
      { e' with
        handled := e'.handled ++
          [⟨status, e.registry.listeners, p.2, e'.registry.listeners⟩] } := by
  rw [turn, if_neg (by simp [h])]
  simp only [hpicked, status.isDead_eq]

/-- The statuses that are left. -/
lemma release_pending_perm {l : List ChildStatus} (h : (l.map ChildStatus.pid).Nodup)
    {status : ChildStatus} (hmem : status ∈ l) :
    l.Perm (status :: l.filter fun s => s.pid ≠ status.pid) := by
  induction l with
  | nil => cases hmem
  | cons s l ih =>
    rw [List.map_cons, List.nodup_cons] at h
    rcases List.mem_cons.mp hmem with rfl | hmem
    · rw [List.filter_cons_of_neg (by simp)]
      have hall : l.filter (fun s => s.pid ≠ status.pid) = l := by
        refine List.filter_eq_self.mpr fun s hs => ?_
        have hne : s.pid ≠ status.pid := fun heq => h.1 (heq ▸ List.mem_map_of_mem hs)
        simpa using hne
      rw [hall]
    · have hne : s.pid ≠ status.pid := fun heq => h.1 (heq ▸ List.mem_map_of_mem hmem)
      rw [List.filter_cons_of_pos (by simpa using hne)]
      exact ((ih h.2 hmem).cons s).trans (List.Perm.swap _ _ _)

/-- What holds while the loop handles the statuses of dead children. -/
structure Reaping (statuses : List ChildStatus) (e : Handling) : Prop where
  /-- Nothing was thrown. -/
  thrown : e.thrown = none
  /-- A child has one status. -/
  nodup : (e.pending.map ChildStatus.pid).Nodup
  /-- The statuses are handled or pending. -/
  perm : (e.handled.map Handled.status ++ e.pending).Perm statuses
  /-- Each was handled as it should be. -/
  right : ∀ h ∈ e.handled, h.Right
  /-- The children were released. -/
  reaped : e.reaped = e.handled.map fun h => h.status.pid

/-- **One turn.**  A dead child is handled. -/
lemma Reaping.turn {statuses : List ChildStatus} {e : Handling} (h : Reaping statuses e)
    (hdead : ∀ s ∈ statuses, s.code.isDead = true) (hgood : e.Good) (H : Host)
    (hbounded : (e.turn H).Bounded) (hne : e.pending ≠ []) :
    Reaping statuses (e.turn H) ∧ (e.turn H).Good ∧
      (e.turn H).pending.length + 1 = e.pending.length := by
  obtain ⟨status, hpicked, hmem⟩ := exists_picked H hne
  have hstatus : status.code.isDead = true :=
    hdead status (h.perm.subset (List.mem_append_right _ hmem))
  rw [turn_of_picked H h.thrown hpicked] at hbounded ⊢
  simp only [hstatus, if_true] at hbounded ⊢
  obtain ⟨hran, hcalled⟩ :=
    dispatch_spec H status status.statusMask e.registry.listeners (e, [])
  generalize e.registry.listeners.foldl (dispatch H status status.statusMask) (e, []) = p
    at hran hcalled hbounded ⊢
  have hgood' : p.1.Good := hran.good hgood fun r hr => hbounded r (by simp [release, hr])
  obtain ⟨hreleased, hnone, hgone⟩ := release_good hgood' status
  have hperm := release_pending_perm h.nodup hmem
  have hpending : (p.1.release status).pending =
      e.pending.filter fun s => s.pid ≠ status.pid := by rw [← hran.pending]; rfl
  have hhandled : (p.1.release status).handled = e.handled := hran.handled
  have hmask : status.statusMask = status.code.flag := by
    rw [status.statusMask_eq, if_neg]
    rintro heq
    rw [heq] at hstatus
    cases hstatus
  refine ⟨⟨hnone, ?_, ?_, ?_, ?_⟩, ⟨hreleased.states, hreleased.registry⟩, ?_⟩
  · change ((p.1.release status).pending.map _).Nodup
    rw [hpending]
    exact h.nodup.sublist (List.filter_sublist.map _)
  · change (((p.1.release status).handled ++ _).map Handled.status ++
      (p.1.release status).pending).Perm statuses
    rw [hhandled, hpending, List.map_append, List.append_assoc]
    exact ((hperm.symm.append_left _).trans h.perm)
  · intro x hx
    change x ∈ (p.1.release status).handled ++ _ at hx
    rw [hhandled, List.mem_append, List.mem_singleton] at hx
    rcases hx with hx | rfl
    · exact h.right x hx
    · exact ⟨by rw [hcalled, List.nil_append, hmask], fun _ => hgone⟩
  · change p.1.reaped ++ [status.pid] = ((p.1.release status).handled ++ _).map _
    rw [hran.reaped, h.reaped, hhandled, List.map_append]
    rfl
  · rw [hpending, hperm.length_eq, List.length_cons]

/-- The status of a child that lives stays pending. -/
lemma turn_pending (H : Host) {e : Handling} (hnodup : (e.pending.map ChildStatus.pid).Nodup)
    {s : ChildStatus} (hs : s ∈ e.pending) (hlives : s.code.isDead = false) :
    ((e.turn H).pending.map ChildStatus.pid).Nodup ∧ s ∈ (e.turn H).pending := by
  cases hthrown : e.thrown with
  | some thrown =>
    rw [turn, if_pos (by simp [hthrown])]
    exact ⟨hnodup, hs⟩
  | none =>
    obtain ⟨status, hpicked, hmem⟩ := exists_picked H (List.ne_nil_of_mem hs)
    rw [turn_of_picked H hthrown hpicked]
    have hran := dispatch_ran H e status
    generalize e.registry.listeners.foldl (dispatch H status status.statusMask) (e, []) = p
      at hran ⊢
    cases hstatus : status.code.isDead with
    | false =>
      change (p.1.pending.map _).Nodup ∧ s ∈ p.1.pending
      rw [hran.pending]
      exact ⟨hnodup, hs⟩
    | true =>
      change ((p.1.pending.filter fun s => s.pid ≠ status.pid).map _).Nodup ∧
        s ∈ p.1.pending.filter fun s => s.pid ≠ status.pid
      rw [hran.pending]
      refine ⟨hnodup.sublist (List.filter_sublist.map _), List.mem_filter.mpr ⟨hs, ?_⟩⟩
      -- the two statuses are of two children
      have hne : s.pid ≠ status.pid := by
        intro heq
        rw [List.inj_on_of_nodup_map hnodup hs hmem heq, hstatus] at hlives
        cases hlives
      simpa using hne

/-- The loop does not end while there is one. -/
lemma stays_pending (H : Host) {e : Handling} (hnodup : (e.pending.map ChildStatus.pid).Nodup)
    {s : ChildStatus} (hs : s ∈ e.pending) (hlives : s.code.isDead = false) (n : ℕ) :
    ((turns H n e).pending.map ChildStatus.pid).Nodup ∧ s ∈ (turns H n e).pending := by
  induction n with
  | zero => exact ⟨hnodup, hs⟩
  | succ n ih => exact turn_pending H ih.1 ih.2 hlives

/-! ### The loop -/

lemma start_ran (commands : List Command) (statuses : List ChildStatus) :
    Ran { pending := statuses } (start commands statuses) :=
  Ran.foldl_exec _ commands

/-- Without a status the loop ends. -/
lemma turn_of_ended (H : Host) {e : Handling} (h : e.pending = []) : e.turn H = e := by
  simp [turn, h]

/-- **The loop.**  Each turn handles one dead child, until there is none left. -/
lemma reaping_turns {statuses : List ChildStatus} {e : Handling} (h : Reaping statuses e)
    (hdead : ∀ s ∈ statuses, s.code.isDead = true) (hgood : e.Good) (H : Host)
    (hbounded : ∀ n, (turns H n e).Bounded) (n : ℕ) :
    Reaping statuses (turns H n e) ∧ (turns H n e).Good ∧
      (turns H n e).pending.length = e.pending.length - n := by
  induction n with
  | zero => exact ⟨h, hgood, rfl⟩
  | succ n ih =>
    obtain ⟨hreaping, hgood', hlength⟩ := ih
    rw [turns]
    by_cases hended : (turns H n e).pending = []
    · rw [turn_of_ended H hended]
      refine ⟨hreaping, hgood', ?_⟩
      rw [hended, List.length_nil] at hlength ⊢
      omega
    · obtain ⟨hnext, hgoodNext, hless⟩ :=
        hreaping.turn hdead hgood' H (hbounded (n + 1)) hended
      exact ⟨hnext, hgoodNext, by omega⟩

/-- When nothing is pending any more, the loop did what it is for. -/
lemma Reaping.delivered {statuses : List ChildStatus} {e : Handling} (h : Reaping statuses e)
    (hdead : ∀ s ∈ statuses, s.code.isDead = true) (hended : e.pending = []) :
    e.Delivered statuses := by
  have hperm := h.perm
  rw [hended, List.append_nil] at hperm
  refine ⟨⟨hended, h.thrown⟩, hperm, h.right, ?_⟩
  rw [List.filter_eq_self.mpr hdead, h.reaped, ← Function.comp_def, ← List.map_map]
  exact hperm.map _

lemma good_initial (statuses : List ChildStatus) : ({ pending := statuses } : Handling).Good where
  states r hr := by
    rw [List.mem_singleton.mp hr]
    exact ⟨rfl, by simp⟩
  registry := List.mem_singleton_self _

/-- A kernel that reports the second of two statuses first, and callbacks that remove their
listener. -/
def removing : Host where
  pick _ := 1
  callback _ l _ := [.removeListener l.child]

/-- A child that was killed. -/
def killedChild : ChildStatus := ⟨7, .killed, 9, by decide⟩

/-- A child that ended. -/
def exitedChild : ChildStatus := ⟨9, .exited, 0, by decide⟩

/-- A child that was stopped. -/
def stoppedChild : ChildStatus := ⟨8, .stopped, 19, by decide⟩

/-- A listener for each of two children. -/
def twoListeners : List Command := [.addListener 7 (some 0) 4, .addListener 9 (some 0) 1]

end Handling

end EventDispatcher.SignalChild
