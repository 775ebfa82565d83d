import EventDispatcher.SocketEvents.Listener
import EventDispatcher.Lib.Run

/-!
# Requests and replies

`process_write()` sends the port of an object as `get_ipv4()` gives it, in network byte order, and
the reply of the kernel echoes it.  `process_read()` compares it with `get_port()`, which is in host
byte order: a reply is for the objects with the port whose two bytes are exchanged, and these are
the ones it was asked for exactly when the two bytes are equal (`echo_recognized_iff`).
-/

namespace EventDispatcher.SocketEvents

open Lib

/-- A port in network byte order, on a little endian host. -/
def htons (port : UInt16) : UInt16 := port <<< 8 ||| port >>> 8

/-- What `get_ipv4()` and `get_port()` give for the address of an object. -/
def SocketEvt.FromLibaddr (e : SocketEvt) : Prop :=
  e.addr.isIpv4 = true ∧ e.addr.sinPort = htons e.addr.port

instance (e : SocketEvt) : Decidable e.FromLibaddr := inferInstanceAs (Decidable (_ ∧ _))

/-- The port and the address of the request for an object. -/
def SocketEvt.request (e : SocketEvt) : UInt16 × UInt32 := (e.addr.sinPort, e.addr.sinAddr)

/-- The reply for a socket that is listening: it echoes the id of the request. -/
def Reply.echo (r : UInt16 × UInt32) : Reply := .diag tcpListenState r.1 r.2

/-- The loop over some objects, when `process_listening()` does nothing to the listener. -/
def rounds (n : ℕ) : List Action := (List.replicate n [Action.next, Action.finish]).flatten

/-- `process_read()` with one reply, for some objects. -/
def handled (evts : List SocketEvt) (reply : Reply) : Listener :=
  runFrom Listener.step { instanced := true, evts := evts }
    (.read [reply] :: .next :: rounds (evts.length + 1))

/-- The objects whose `process_listening()` is called for a reply are the ones with an id. -/
def Recognizes (evts : List SocketEvt) (reply : Reply) (ids : ℕ → Prop) : Prop :=
  (handled evts reply).walk = none ∧
    ∀ socketEvents, ⟨socketEvents, .called⟩ ∈ (handled evts reply).log ↔ ids socketEvents

/-- The object waits, and the loop takes the reply for its own. -/
def SocketEvt.Matches (e : SocketEvt) (r : UInt16 × UInt32) : Prop :=
  e.listening = false ∧ e.addr.port = r.1 ∧ e.addr.sinAddr = r.2

instance (e : SocketEvt) (r : UInt16 × UInt32) : Decidable (e.Matches r) :=
  inferInstanceAs (Decidable (_ ∧ _ ∧ _))

/-- The flag of an object that was called is set. -/
def SocketEvt.after (log : List Mark) (e : SocketEvt) : SocketEvt :=
  if ⟨e.socketEvents, .called⟩ ∈ log then { e with listening := true } else e

/-- The loop is at a position: it called the objects before it that match. -/
structure Walked (l : List SocketEvt) (r : UInt16 × UInt32) (p : ℕ) (s : Listener) : Prop where
  /-- Where it is. -/
  position : s.walk = some ⟨r.1, r.2, p, none⟩
  /-- The flags of the objects. -/
  flags : s.evts = l.map (SocketEvt.after s.log)
  /-- The objects that were called. -/
  called : ∀ socketEvents, ⟨socketEvents, .called⟩ ∈ s.log ↔
    ∃ e ∈ l.take p, e.socketEvents = socketEvents ∧ e.Matches r

variable {l : List SocketEvt} {r : UInt16 × UInt32} {p : ℕ} {s : Listener}

lemma rounds_succ (n : ℕ) : rounds (n + 1) = rounds n ++ [.next, .finish] := by
  rw [rounds, rounds, List.replicate_succ', List.flatten_append, List.flatten_singleton]

/-- An object that is called has its flag set. -/
lemma setListening_after (log : List Mark) (socketEvents : ℕ) :
    Listener.setListening socketEvents true (l.map (SocketEvt.after log)) =
      l.map (SocketEvt.after (⟨socketEvents, .called⟩ :: log)) := by
  rw [Listener.setListening, List.map_map]
  refine List.map_congr_left fun e _ => ?_
  have hid (log : List Mark) : (SocketEvt.after log e).socketEvents = e.socketEvents := by
    rw [SocketEvt.after]
    split_ifs <;> rfl
  rw [Function.comp_apply, hid]
  by_cases h : e.socketEvents = socketEvents
  · rw [if_pos h, SocketEvt.after, SocketEvt.after, h]
    split_ifs <;> simp_all
  · rw [if_neg h, SocketEvt.after, SocketEvt.after]
    simp [h]

lemma next_of_walk (hwalk : s.walk = some ⟨r.1, r.2, p, none⟩) :
    s.next = s.nextEvt ⟨r.1, r.2, p, none⟩ := by
  rw [Listener.next, hwalk]
  rfl

/-- The loop takes the reply for an object: it calls it and sets its flag. -/
lemma finish_of_matches (hwalk : s.walk = some ⟨r.1, r.2, p, none⟩) {e : SocketEvt}
    (hget : s.evts[p]? = some e) (hmatches : e.Matches r) :
    s.next.finish = { s with
      evts := Listener.setListening e.socketEvents true s.evts
      walk := some ⟨r.1, r.2, p + 1, none⟩
      log := ⟨e.socketEvents, .called⟩ :: s.log } := by
  rw [next_of_walk hwalk, Listener.nextEvt]
  dsimp only
  rw [hget]
  dsimp only
  rw [if_pos (show e.listening = false ∧ _ from hmatches)]
  rfl

/-- The loop passes an object that does not match. -/
lemma finish_of_not_matches (hwalk : s.walk = some ⟨r.1, r.2, p, none⟩) {e : SocketEvt}
    (hget : s.evts[p]? = some e) (hmatches : ¬ e.Matches r) :
    s.next.finish = { s with walk := some ⟨r.1, r.2, p + 1, none⟩ } := by
  rw [next_of_walk hwalk, Listener.nextEvt]
  dsimp only
  rw [hget]
  dsimp only
  rw [if_neg (show ¬ (e.listening = false ∧ _) from hmatches)]
  rfl

/-- **One object** of the loop. -/
lemma Walked.round (h : Walked l r p s) (hp : p < l.length) : Walked l r (p + 1) s.next.finish := by
  have hget : s.evts[p]? = some (SocketEvt.after s.log l[p]) := by
    rw [h.flags, List.getElem?_map, List.getElem?_eq_getElem hp, Option.map_some]
  have htake (socketEvents : ℕ) :
      (∃ e ∈ l.take (p + 1), e.socketEvents = socketEvents ∧ e.Matches r) ↔
        ⟨socketEvents, .called⟩ ∈ s.log ∨ (l[p].socketEvents = socketEvents ∧ l[p].Matches r) := by
    rw [h.called, List.take_add_one, List.getElem?_eq_getElem hp]
    simp only [Option.toList_some, List.mem_append, List.mem_singleton, or_and_right, exists_or,
      exists_eq_left]
  by_cases hcalled : ⟨l[p].socketEvents, .called⟩ ∈ s.log
  · -- another entry of the same object was called
    have hafter : ¬ (SocketEvt.after s.log l[p]).Matches r := by
      rw [SocketEvt.after, if_pos hcalled]
      exact fun hmatches => absurd hmatches.1 (by simp)
    rw [finish_of_not_matches h.position hget hafter]
    refine ⟨rfl, h.flags, fun socketEvents => ?_⟩
    rw [htake]
    exact ⟨Or.inl, fun h => h.elim id fun h => h.1 ▸ hcalled⟩
  · have hafter : SocketEvt.after s.log l[p] = l[p] := if_neg hcalled
    rw [hafter] at hget
    by_cases hmatches : l[p].Matches r
    · rw [finish_of_matches h.position hget hmatches]
      refine ⟨rfl, ?_, fun socketEvents => ?_⟩
      · exact (congrArg _ h.flags).trans (setListening_after _ _)
      · rw [htake, List.mem_cons, Mark.mk.injEq]
        exact ⟨fun h => h.elim (fun h => Or.inr ⟨h.1.symm, hmatches⟩) Or.inl,
          fun h => h.elim Or.inr fun h => Or.inl ⟨h.1.symm, rfl⟩⟩
    · rw [finish_of_not_matches h.position hget hmatches]
      refine ⟨rfl, h.flags, fun socketEvents => ?_⟩
      rw [htake]
      exact ⟨Or.inl, fun h => h.elim id fun h => absurd h.2 hmatches⟩

/-- Some objects of the loop. -/
lemma Walked.rounds (h : Walked l r 0 s) {n : ℕ} (hn : n ≤ l.length) :
    Walked l r n (runFrom Listener.step s (SocketEvents.rounds n)) := by
  induction n with
  | zero => exact h
  | succ n ih =>
    rw [rounds_succ, runFrom, List.foldl_append]
    exact (ih (by omega)).round hn

/-- **The reply** is for the waiting objects that match, and no others. -/
lemma recognizes_matches (l : List SocketEvt) (r : UInt16 × UInt32) :
    Recognizes l (.echo r) fun socketEvents =>
      ∃ e ∈ l, e.socketEvents = socketEvents ∧ e.Matches r := by
  have hstart : Walked l r 0 (runFrom Listener.step { instanced := true, evts := l }
      [.read [.echo r], .next]) := by
    refine ⟨rfl, ?_, fun socketEvents => ?_⟩
    · exact (List.map_id l).symm
    · rw [List.take_zero]
      simp [runFrom, Listener.step, Listener.read, Listener.next, Listener.nextReply, Reply.echo]
  have hloop := hstart.rounds le_rfl
  have hhandled : handled l (.echo r) =
      (runFrom Listener.step (runFrom Listener.step { instanced := true, evts := l }
        [.read [.echo r], .next]) (rounds l.length)).next.finish := by
    rw [handled, rounds_succ]
    simp only [runFrom, List.foldl_append, List.foldl_cons, List.foldl_nil, Listener.step]
  generalize runFrom Listener.step (runFrom Listener.step _ _) (rounds l.length) = s
    at hloop hhandled
  have hend : s.next = { s with walk := none } := by
    have hnone : s.evts[l.length]? = none := by
      rw [hloop.flags, List.getElem?_eq_none]
      rw [List.length_map]
    rw [next_of_walk hloop.position, Listener.nextEvt]
    dsimp only
    rw [hnone]
  rw [Recognizes, hhandled, hend]
  refine ⟨rfl, fun socketEvents => ?_⟩
  rw [← List.take_length (l := l)]
  exact hloop.called socketEvents

/-! ### The objects it was asked for -/

/-- `process_write()` asks for each object that waits. -/
lemma request_mem_requests {o : SocketEvt} (ho : o ∈ l) (hwaiting : o.listening = false) :
    o.request ∈ ({ instanced := true, evts := l } : Listener).requests :=
  List.mem_map.mpr ⟨o, List.mem_filter.mpr ⟨ho, by simp [hwaiting]⟩, rfl⟩

/-- **Requests and replies agree** for an object exactly when the two bytes of its port are equal:
the reply is then for the waiting objects with its address and its port. -/
theorem echo_recognized_iff (l : List SocketEvt) (o : SocketEvt) (ho : o ∈ l)
    (hwaiting : o.listening = false) (hset : (l.map SocketEvt.socketEvents).Nodup)
    (hlib : ∀ e ∈ l, e.FromLibaddr) :
    o.request ∈ ({ instanced := true, evts := l } : Listener).requests ∧
      (Recognizes l (.echo o.request) (fun socketEvents => ∃ e ∈ l,
          e.socketEvents = socketEvents ∧ e.listening = false ∧ e.addr.port = o.addr.port ∧
            e.addr.sinAddr = o.addr.sinAddr) ↔
        htons o.addr.port = o.addr.port) := by
  refine ⟨request_mem_requests ho hwaiting, ?_⟩
  obtain ⟨hend, hcalled⟩ := recognizes_matches l o.request
  constructor
  · intro h
    -- the object itself is one that the reply is to be for
    obtain ⟨e, he, hid, -, hport, -⟩ := (hcalled o.socketEvents).mp
      ((h.2 o.socketEvents).mpr ⟨o, ho, rfl, hwaiting, rfl, rfl⟩)
    obtain rfl : e = o := List.inj_on_of_nodup_map hset he ho hid
    exact ((hlib e he).2.symm.trans hport.symm)
  · intro h
    have hport : o.addr.sinPort = o.addr.port := (hlib o ho).2.trans h
    refine ⟨hend, fun socketEvents => ?_⟩
    rw [hcalled]
    simp only [SocketEvt.Matches, SocketEvt.request, hport]

/-- Two objects that wait for ports of one address. -/
def twoEvts : List SocketEvt :=
  [⟨1, ⟨true, 80, 0x5000, 0x0100007F⟩, false⟩, ⟨2, ⟨true, 0x0101, 0x0101, 0x0100007F⟩, false⟩]

/-- A port whose two bytes are equal: the reply is for the second of two objects. -/
theorem echo_recognized_257 :
    Recognizes twoEvts (.echo (0x0101, 0x0100007F))
      (fun socketEvents => ∃ e ∈ twoEvts,
        e.socketEvents = socketEvents ∧ e.listening = false ∧ e.addr.port = 0x0101 ∧
          e.addr.sinAddr = 0x0100007F) :=
  (echo_recognized_iff twoEvts ⟨2, ⟨true, 0x0101, 0x0101, 0x0100007F⟩, false⟩ (by decide) rfl
    (by decide) (by decide)).2.mpr (by decide)

/-- The reply for the port 80 is not for the object that asked for it. -/
theorem not_echo_recognized :
    ¬ ∀ (l : List SocketEvt) (o : SocketEvt), o ∈ l → o.listening = false →
      (l.map SocketEvt.socketEvents).Nodup → (∀ e ∈ l, e.FromLibaddr) →
      Recognizes l (.echo o.request) fun socketEvents => ∃ e ∈ l,
        e.socketEvents = socketEvents ∧ e.listening = false ∧ e.addr.port = o.addr.port ∧
          e.addr.sinAddr = o.addr.sinAddr := by
  intro h
  obtain ⟨-, hcalled⟩ := h [⟨1, ⟨true, 80, 0x5000, 0x0100007F⟩, false⟩]
    ⟨1, ⟨true, 80, 0x5000, 0x0100007F⟩, false⟩ (by decide) rfl (by decide) (by decide)
  have hmem := (hcalled 1).mpr ⟨_, List.mem_singleton_self _, rfl, rfl, rfl, rfl⟩
  exact absurd hmem (by decide)

end EventDispatcher.SocketEvents
