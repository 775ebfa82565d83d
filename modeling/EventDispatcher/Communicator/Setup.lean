import EventDispatcher.Communicator.Communicator

/-!
# What an iteration prepares

The first half of an iteration goes over the connections and collects the flags, the entries of
`poll()` and the earliest timestamp.  The entries are the ones of the connections that can be
polled, in order (`fds_setup`), and each connection knows the position of its own entry
(`heap_setup`).
-/

namespace EventDispatcher

open Lib

namespace Connection

/-- The connection is enabled, waits for events, and has a valid socket. -/
def pollable (o : Connection) : Bool :=
  o.enabled && pollEvents o.toEventSource != 0 && o.validSocket

/-- The entry of a connection. -/
def pollFd (o : Connection) : PollFd :=
  { fd := o.socket, events := pollEvents o.toEventSource }

/-- A connection after its setup, when the number of entries before it is `position`. -/
def prepared (o : Connection) (position : ℕ) : Connection :=
  { if o.enabled then o.saveTimeoutTimestamp else o with
    fdsPosition := if o.pollable then some position else none }

@[simp] lemma priority_prepared (o : Connection) (position : ℕ) :
    (o.prepared position).priority = o.priority := by
  rw [prepared, saveTimeoutTimestamp]
  split <;> rfl

@[simp] lemma fdsPosition_prepared (o : Connection) (position : ℕ) :
    (o.prepared position).fdsPosition = if o.pollable then some position else none := rfl

lemma savedTimeoutStamp_prepared {o : Connection} (h : o.enabled = true) (position : ℕ) :
    (o.prepared position).savedTimeoutStamp = o.getTimeoutTimestamp := by
  rw [prepared, saveTimeoutTimestamp]
  rw [if_pos h]

/-- The smaller of a timestamp and of the one of a connection, if it has one. -/
def earlier (o : Connection) (next : Int64) : Int64 :=
  if o.enabled = true ∧ o.getTimeoutTimestamp ≠ -1 ∧ o.getTimeoutTimestamp < next then
    o.getTimeoutTimestamp
  else next

end Connection

namespace Communicator

variable {E : Type}

/-- The setup of one connection, field by field. -/
lemma Setup.add_eq (u : Setup) (c : ℕ) :
    u.add c =
      { heap := Function.update u.heap c ((u.heap c).prepared u.fds.length)
        enabled := u.enabled ++ [(u.heap c).enabled]
        fds := u.fds ++ if (u.heap c).pollable then [(u.heap c).pollFd] else []
        nextTimeoutTimestamp := (u.heap c).earlier u.nextTimeoutTimestamp } := by
  rw [Setup.add, Connection.prepared, Connection.pollable, Connection.pollFd, Connection.earlier]
  cases henabled : (u.heap c).enabled with
  | false => simp [henabled]
  | true =>
    by_cases hevents : Connection.pollEvents (u.heap c).toEventSource = 0
    · simp [Connection.saveTimeoutTimestamp, Connection.getTimeoutTimestamp, hevents, henabled]
    · cases hsocket : (u.heap c).validSocket with
      | false =>
        simp [Connection.saveTimeoutTimestamp, Connection.getTimeoutTimestamp, hsocket, henabled]
      | true =>
        simp [Connection.saveTimeoutTimestamp, Connection.getTimeoutTimestamp, hsocket, henabled,
          hevents]

/-- The connections that can be polled, in order. -/
def pollables (heap : ℕ → Connection) (l : List ℕ) : List ℕ :=
  l.filter fun c => (heap c).pollable

/-- Which connections can be polled does not depend on a connection that is not among them. -/
lemma pollables_update {heap : ℕ → Connection} {c : ℕ} {l : List ℕ} (hc : c ∉ l)
    (o : Connection) : pollables (Function.update heap c o) l = pollables heap l := by
  refine List.filter_congr fun a ha => ?_
  have hne : a ≠ c := by
    rintro rfl
    exact hc ha
  rw [Function.update_of_ne hne]

lemma enabled_foldl {l : List ℕ} (hl : l.Nodup) (u : Setup) :
    (l.foldl Setup.add u).enabled = u.enabled ++ l.map fun c => (u.heap c).enabled := by
  induction l generalizing u with
  | nil => simp
  | cons c l ih =>
    obtain ⟨hc, hl⟩ := List.nodup_cons.mp hl
    rw [List.foldl_cons, ih hl, Setup.add_eq, List.map_cons, List.append_assoc,
      List.singleton_append]
    congr 2
    refine List.map_congr_left fun a ha => ?_
    have hne : a ≠ c := by
      rintro rfl
      exact hc ha
    simp only [Function.update_of_ne hne]

lemma fds_foldl {l : List ℕ} (hl : l.Nodup) (u : Setup) :
    (l.foldl Setup.add u).fds =
      u.fds ++ (pollables u.heap l).map fun c => (u.heap c).pollFd := by
  induction l generalizing u with
  | nil => simp [pollables]
  | cons c l ih =>
    obtain ⟨hc, hl⟩ := List.nodup_cons.mp hl
    have hrest : ((pollables u.heap l).map fun a =>
        (Function.update u.heap c ((u.heap c).prepared u.fds.length) a).pollFd) =
        (pollables u.heap l).map fun a => (u.heap a).pollFd := by
      refine List.map_congr_left fun a ha => ?_
      have hne : a ≠ c := by
        rintro rfl
        exact hc (List.mem_of_mem_filter ha)
      rw [Function.update_of_ne hne]
    rw [List.foldl_cons, ih hl, Setup.add_eq]
    simp only [pollables_update hc, hrest, List.append_assoc]
    congr 1
    unfold pollables
    rw [List.filter_cons]
    split <;> simp

lemma heap_foldl_of_notMem {l : List ℕ} {c : ℕ} (hc : c ∉ l) (u : Setup) :
    (l.foldl Setup.add u).heap c = u.heap c := by
  induction l generalizing u with
  | nil => rfl
  | cons a l ih =>
    rw [List.mem_cons, not_or] at hc
    rw [List.foldl_cons, ih hc.2, Setup.add_eq]
    exact Function.update_of_ne hc.1 _ _

lemma heap_foldl {l : List ℕ} (hl : l.Nodup) {c : ℕ} (hc : c ∈ l) (u : Setup) :
    (l.foldl Setup.add u).heap c =
      (u.heap c).prepared (u.fds.length + (pollables u.heap l).idxOf c) := by
  induction l generalizing u with
  | nil => cases hc
  | cons a l ih =>
    obtain ⟨ha, hl⟩ := List.nodup_cons.mp hl
    rw [List.foldl_cons]
    by_cases hca : c = a
    · subst hca
      rw [heap_foldl_of_notMem ha, Setup.add_eq]
      simp only [Function.update_self]
      cases hp : (u.heap c).pollable with
      | true => simp [pollables, hp]
      | false => simp [Connection.prepared, hp]
    · have hmem : c ∈ l := (List.mem_cons.mp hc).resolve_left hca
      rw [ih hl hmem, Setup.add_eq]
      simp only [Function.update_of_ne hca, pollables_update ha]
      cases hp : (u.heap a).pollable with
      | true =>
        have hidx : (pollables u.heap (a :: l)).idxOf c = (pollables u.heap l).idxOf c + 1 := by
          simp only [pollables, List.filter_cons, hp, if_true]
          rw [List.idxOf_cons_ne _ (Ne.symm hca)]
        rw [hidx]
        simp [Nat.add_assoc, Nat.add_comm 1]
      | false => simp [pollables, hp]

/-! ### The setup of an iteration -/

/-- The flags. -/
lemma enabled_setup (s : Communicator E) :
    s.setup.enabled = s.connections.list.map fun c => (s.heap c).enabled := by
  rw [setup]
  rw [enabled_foldl s.connections.nodup]
  rfl

/-- The entries of `poll()`: the ones of the connections that can be polled. -/
theorem fds_setup (s : Communicator E) :
    s.setup.fds = (pollables s.heap s.connections.list).map fun c => (s.heap c).pollFd := by
  rw [setup]
  rw [fds_foldl s.connections.nodup]
  rfl

/-- Each connection of the list knows the position of its own entry, and its timestamp. -/
theorem heap_setup (s : Communicator E) {c : ℕ} (hc : c ∈ s.connections.list) :
    s.setup.heap c =
      (s.heap c).prepared ((pollables s.heap s.connections.list).idxOf c) := by
  rw [setup]
  rw [heap_foldl s.connections.nodup hc]
  simp

/-- The setup does not change the priorities. -/
lemma priority_setup (s : Communicator E) (c : ℕ) :
    (s.setup.heap c).priority = (s.heap c).priority := by
  by_cases hc : c ∈ s.connections.list
  · rw [heap_setup s hc, Connection.priority_prepared]
  · rw [setup]
    rw [heap_foldl_of_notMem hc]

end Communicator

end EventDispatcher
