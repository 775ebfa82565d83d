import EventDispatcher.Reporter.Lexer
import EventDispatcher.Communicator.Delivery
import EventDispatcher.Lib.SortedMap

/-!
# The events of `wait()` and `exit()`

Both instructions make an entry for each connection that waits for something, and then walk over
all the connections and look for their entries in a map.  The lookup makes up the position 0 for
a connection without an entry, which is so served with the events of another one:
`callsOwned_iff` says when that does not happen.
-/

namespace EventDispatcher.Reporter

open Lib

/-- A connection of the reporter. -/
structure Client extends Connection where
  /-- Its address, the key of the positions. -/
  id : ℕ
  /-- The exceptions that its callbacks let out. -/
  throws : Callback → Option Thrown := fun _ => none

/-- The modes of `wait()`. -/
inductive WaitMode where
  | wait
  | drain
  | timeout
deriving DecidableEq, Repr

/-- The events that `inst_wait::poll()` waits for. -/
def waitEvents (mode : WaitMode) (c : EventSource) : UInt16 :=
  (if mode = .drain then 0
    else (if c.listener || c.signal then pollIn else 0)
      ||| (if c.reader then pollIn ||| pollPri ||| pollRdHup else 0))
    ||| (if c.writer then pollOut ||| pollRdHup else 0)

/-- The events that `inst_exit::poll()` waits for. -/
def exitEvents (c : EventSource) : UInt16 :=
  (if c.listener || c.signal then pollIn else 0)
    ||| (if c.reader then pollIn ||| pollPri ||| pollRdHup else 0)
    ||| (if c.writer then pollOut ||| pollRdHup else 0)

/-- The entries and the map of their positions. -/
structure PollSetup where
  /-- `fds` -/
  fds : List PollFd := []
  /-- `position` -/
  position : SortedMap ℕ ℕ := ∅

/-- The setup of one connection. -/
def PollSetup.add (events : EventSource → UInt16) (u : PollSetup) (c : Client) : PollSetup :=
  let e := events c.toEventSource
  if e = 0 then u
  else
    { fds := u.fds ++ [{ fd := c.socket, events := e }]
      position := u.position.insert c.id u.fds.length }

/-- How `ppoll()` ends. -/
inductive Ppoll where
  /-- The events that occurred, for each position. -/
  | ready (revents : ℕ → UInt16)
  /-- An error with its number and its text. -/
  | failed (errno : ℕ) (text : Str)

/-- `EINTR` -/
def eintr : ℕ := 4

/-- The call of `ppoll()` that counts in `inst_wait::poll()`, which tries again after an interrupt;
there is none as long as all calls were interrupted. -/
def lastPpoll : List Ppoll → Option Ppoll
  | [] => none
  | .ready revents :: _ => some (.ready revents)
  | .failed errno text :: results =>
    if errno = eintr then lastPpoll results else some (.failed errno text)

/-- How a `poll()` ends. -/
inductive Ending where
  | returned (n : ℕ)
  | thrown (t : Thrown)
deriving DecidableEq

/-- The delivery of the events. -/
structure Delivery where
  /-- `position` -/
  position : SortedMap ℕ ℕ := ∅
  /-- The callbacks that were called, in order. -/
  calls : List (Client × Callback) := []
  /-- `timed_out` -/
  timedOut : Bool := true
  /-- How the function ended, if it did. -/
  ended : Option Ending := none

/-- What a function does with the events of a connection. -/
structure Service where
  /-- The callbacks that it calls, in order. -/
  callbacks : Client → UInt16 → List Callback
  /-- What it then returns, if the loop stops there. -/
  returns : UInt16 → Option ℕ
  /-- Without events there is nothing to call. -/
  callbacks_zero : ∀ c, callbacks c 0 = []

namespace Delivery

/-- One callback. -/
def call (c : Client) (d : Delivery) (callback : Callback) : Delivery :=
  match d.ended with
  | some _ => d
  | none =>
    { d with calls := d.calls ++ [(c, callback)], ended := (c.throws callback).map .thrown }

/-- `position[c.get()]`, which inserts 0 for a connection that it does not find -/
def lookUp (d : Delivery) (c : Client) : ℕ × Delivery :=
  match d.position.find? c.id with
  | some i => (i, d)
  | none => (0, { d with position := d.position.insert c.id 0 })

/-- The events of an entry, if there are any. -/
def serve (service : Service) (c : Client) (revents : UInt16) (d : Delivery) : Delivery :=
  if revents = 0 then d
  else
    let d := (service.callbacks c revents).foldl (call c) { d with timedOut := false }
    match d.ended with
    | some _ => d
    | none => { d with ended := (service.returns revents).map .returned }

/-- The turn of one connection. -/
def turn (service : Service) (fds : List PollFd) (d : Delivery) (c : Client) : Delivery :=
  match d.ended with
  | some _ => d
  | none =>
    let (i, d) := d.lookUp c
    d.serve service c ((fds[i]?.map PollFd.revents).getD 0)

end Delivery

/-- The turns of all the connections. -/
def deliver (service : Service) (u : PollSetup) (revents : ℕ → UInt16) (l : List Client) :
    Delivery :=
  let fds := u.fds.mapIdx fun position fd => { fd with revents := revents position }
  l.foldl (Delivery.turn service fds) { position := u.position }

/-- The events in `inst_wait::poll()`. -/
def waitService : Service where
  callbacks c revents := c.selected revents
  returns _ := none
  callbacks_zero c := c.selected_zero

/-- The events in `inst_exit::poll()`. -/
def exitService : Service where
  callbacks _ revents := if revents &&& (pollHup ||| pollRdHup) ≠ 0 then [.hup] else []
  returns revents := if revents &&& (pollHup ||| pollRdHup) ≠ 0 then none else some 1
  callbacks_zero _ := by simp

/-- The text for an error of `ppoll()`. -/
def ppollText (errno : ℕ) (text : Str) : Str :=
  "ppoll() returned an error: ".toList ++ (toString errno).toList ++ ", ".toList ++ text

/-- `inst_wait::poll()`, with the results of the calls of `ppoll()` -/
def waitPoll (mode : WaitMode) (connections : List Client) (listen : Option Client)
    (results : List Ppoll) : Delivery :=
  let connections := connections ++ listen.toList
  let u := connections.foldl (PollSetup.add (waitEvents mode)) {}
  if u.fds = [] then { ended := some (.returned 0) }
  else
    match lastPpoll results with
    | none => {}
    | some (.failed errno text) =>
      { ended := some (.thrown (.runtimeError (ppollText errno text))) }
    | some (.ready revents) =>
      let d := deliver waitService u revents connections
      match d.ended with
      | some _ => d
      | none =>
        if d.timedOut ∧ mode ≠ .timeout then
          { d with ended := some (.thrown (.runtimeError "ppoll() timed out.".toList)) }
        else { d with ended := some (.returned u.fds.length) }

/-- `inst_exit::poll()`, with the location of the statement and the result of `ppoll()` -/
def exitPoll (location : Str) (connections : List Client) (listen : Option Client)
    (result : Ppoll) : Delivery :=
  let connections := connections ++ listen.toList
  let u := connections.foldl (PollSetup.add exitEvents) {}
  if u.fds = [] then { ended := some (.returned 0) }
  else
    match result with
    | .failed errno text =>
      { ended := some (.thrown (.runtimeError (location ++ ppollText errno text))) }
    | .ready revents =>
      let d := deliver exitService u revents connections
      match d.ended with
      | some _ => d
      | none => { d with ended := some (.returned 0) }

/-! ## The owners of the entries -/

/-- The connections that have an entry, in the order of the entries. -/
def owners (events : EventSource → UInt16) (l : List Client) : List Client :=
  l.filter fun c => events c.toEventSource ≠ 0

/-- The entry was created for the connection. -/
def Owns (events : EventSource → UInt16) (l : List Client) (c : Client) (i : ℕ) : Prop :=
  ∃ o, (owners events l)[i]? = some o ∧ o.id = c.id

/-- The callbacks are for the events of an entry that was created for their connection. -/
def CallsOwned (service : Service) (events : EventSource → UInt16) (l : List Client)
    (result : Option Ppoll) (calls : List (Client × Callback)) : Prop :=
  ∀ q ∈ calls, ∃ revents i, result = some (.ready revents) ∧ Owns events l q.1 i ∧
    q.2 ∈ service.callbacks q.1 (revents i)

/-- The entry whose events a connection is served with: its last one, or the first of all when it
has none. -/
def Serves (events : EventSource → UInt16) (l : List Client) (c : Client) (i : ℕ) : Prop :=
  (Owns events l c i ∧ ∀ j, i < j → ¬ Owns events l c j) ∨
    ((∀ j, ¬ Owns events l c j) ∧ i = 0)

/-- The events let the loop go on: the callbacks return, and so does not the function. -/
def Passes (service : Service) (c : Client) (revents : UInt16) : Prop :=
  (∀ callback ∈ service.callbacks c revents, c.throws callback = none) ∧
    (revents = 0 ∨ service.returns revents = none)

/-- The condition: when there are entries, no callback is selected by the events of the first one
for a connection without an entry that the loop comes to. -/
def Undisturbed (service : Service) (events : EventSource → UInt16) (l : List Client)
    (revents : ℕ → UInt16) : Prop :=
  owners events l ≠ [] → ∀ before c after, l = before ++ c :: after →
    (∀ i, ¬ Owns events l c i) →
    (∀ b ∈ before, ∀ i, Serves events l b i → Passes service b (revents i)) →
    service.callbacks c (revents 0) = []

section Owners

variable {events : EventSource → UInt16} {l : List Client} {c d : Client} {i : ℕ}

lemma owners_append (l : List Client) (c : Client) :
    owners events (l ++ [c]) =
      owners events l ++ if events c.toEventSource = 0 then [] else [c] := by
  rw [owners, List.filter_append, ← owners]
  split_ifs with h <;> simp [h]

lemma Owns.lt (h : Owns events l c i) : i < (owners events l).length := by
  obtain ⟨o, ho, -⟩ := h
  exact (List.getElem?_eq_some_iff.mp ho).1

lemma Owns.exists_last (h : Owns events l c i) :
    ∃ k, Owns events l c k ∧ ∀ j, k < j → ¬ Owns events l c j := by
  classical
  let last := Nat.findGreatest (Owns events l c) (owners events l).length
  refine ⟨last, Nat.findGreatest_spec h.lt.le h, fun j hj howns => ?_⟩
  exact Nat.findGreatest_is_greatest hj howns.lt.le howns

/-- One more connection owns one more entry, unless it waits for nothing. -/
lemma owns_append : Owns events (l ++ [c]) d i ↔
    Owns events l d i ∨
      (events c.toEventSource ≠ 0 ∧ i = (owners events l).length ∧ c.id = d.id) := by
  rw [Owns, owners_append]
  split_ifs with h
  · rw [List.append_nil]
    exact ⟨.inl, fun hor => hor.elim id fun hnew => absurd h hnew.1⟩
  · constructor
    · rintro ⟨o, ho, hid⟩
      rcases lt_or_ge i (owners events l).length with hlt | hge
      · rw [List.getElem?_append_left hlt] at ho
        exact .inl ⟨o, ho, hid⟩
      · rw [List.getElem?_append_right hge, List.getElem?_singleton] at ho
        split_ifs at ho with hzero
        cases ho
        exact .inr ⟨h, by omega, hid⟩
    · rintro (⟨o, ho, hid⟩ | ⟨-, rfl, hid⟩)
      · exact ⟨o, by rw [List.getElem?_append_left (Owns.lt ⟨o, ho, hid⟩)]; exact ho, hid⟩
      · exact ⟨c, by simp, hid⟩

/-- A connection that asks for no event has no entry. -/
lemma PollSetup.add_of_none {s : PollSetup} {c : Client} (hc : events c.toEventSource = 0) :
    s.add events c = s := by
  rw [PollSetup.add]
  exact if_pos hc

lemma PollSetup.add_of_some {s : PollSetup} {c : Client} (hc : events c.toEventSource ≠ 0) :
    s.add events c =
      { fds := s.fds ++ [{ fd := c.socket, events := events c.toEventSource }]
        position := s.position.insert c.id s.fds.length } := by
  rw [PollSetup.add]
  exact if_neg hc

/-- The setup of a list makes the entries of its owners and keeps their last positions. -/
lemma setup_spec (events : EventSource → UInt16) (l : List Client) :
    (l.foldl (PollSetup.add events) {}).fds.length = (owners events l).length ∧
      ∀ (d : Client) (i : ℕ),
        (l.foldl (PollSetup.add events) {}).position.find? d.id = some i ↔
          Owns events l d i ∧ ∀ j, i < j → ¬ Owns events l d j := by
  induction l using List.reverseRecOn with
  | nil =>
    refine ⟨rfl, fun d i => ?_⟩
    constructor
    · intro h
      cases h
    · rintro ⟨⟨o, ho, -⟩, -⟩
      cases ho
  | append_singleton l c ih =>
    obtain ⟨hlength, hposition⟩ := ih
    rw [List.foldl_append, List.foldl_cons, List.foldl_nil]
    by_cases hc : events c.toEventSource = 0
    · have howns : ∀ (d : Client) j, Owns events (l ++ [c]) d j ↔ Owns events l d j :=
        fun d j => owns_append.trans (or_iff_left fun h => h.1 hc)
      rw [PollSetup.add_of_none hc, owners_append, if_pos hc, List.append_nil]
      simp only [howns]
      exact ⟨hlength, hposition⟩
    · rw [PollSetup.add_of_some hc, owners_append, if_neg hc]
      refine ⟨by simp [hlength], fun d i => ?_⟩
      change (SortedMap.insert _ _ _).find? d.id = some i ↔ _
      rw [SortedMap.find?_insert, hlength]
      simp only [owns_append]
      split_ifs with hid
      · constructor
        · intro h
          cases h
          refine ⟨.inr ⟨hc, rfl, hid⟩, fun j hj hor => ?_⟩
          rcases hor with h | ⟨-, rfl, -⟩
          · exact absurd h.lt (by omega)
          · omega
        · rintro ⟨h | ⟨-, rfl, -⟩, hlast⟩
          · exact absurd (.inr ⟨hc, rfl, hid⟩) (hlast _ h.lt)
          · rfl
      · rw [hposition]
        have hold : ∀ j, (Owns events l d j ∨ (events c.toEventSource ≠ 0 ∧
            j = (owners events l).length ∧ c.id = d.id)) ↔ Owns events l d j :=
          fun j => or_iff_left fun h => hid h.2.2
        simp only [hold]

/-- The position that the map gives for a connection. -/
lemma serves_iff (l : List Client) (c : Client) (i : ℕ) :
    Serves events l c i ↔
      ((l.foldl (PollSetup.add events) {}).position.find? c.id).getD 0 = i := by
  have hspec := (setup_spec events l).2 c
  cases hfind : (l.foldl (PollSetup.add events) {}).position.find? c.id with
  | some j =>
    obtain ⟨howns, hlast⟩ := (hspec j).mp hfind
    constructor
    · rintro (h | ⟨h, -⟩)
      · have heq := (hspec i).mpr h
        rw [hfind] at heq
        exact Option.some.inj heq
      · exact absurd howns (h j)
    · rintro rfl
      exact .inl ⟨howns, hlast⟩
  | none =>
    have hnone : ∀ j, ¬ Owns events l c j := fun j hj => by
      obtain ⟨k, hk⟩ := hj.exists_last
      rw [(hspec k).mpr hk] at hfind
      cases hfind
    constructor
    · rintro (h | ⟨-, rfl⟩)
      · exact absurd h.1 (hnone i)
      · rfl
    · rintro rfl
      exact .inr ⟨hnone, rfl⟩

end Owners

/-! ## The turns -/

section Turns

variable {service : Service} {c : Client} {d : Delivery}

/-- From `d` to `d'`, some of the callbacks of a connection were called, the first one if there
is one. -/
structure Delivery.Ran (c : Client) (callbacks : List Callback) (d d' : Delivery) : Prop where
  position : d'.position = d.position
  old : ∀ q ∈ d.calls, q ∈ d'.calls
  new : ∀ q ∈ d'.calls, q ∈ d.calls ∨ q.1 = c ∧ q.2 ∈ callbacks
  first : callbacks ≠ [] → ∃ callback, (c, callback) ∈ d'.calls

namespace Delivery

lemma call_of_ended {callback : Callback} (h : d.ended ≠ none) : d.call c callback = d := by
  rw [call]
  cases hended : d.ended with
  | none => exact absurd hended h
  | some e => rfl

lemma foldl_call_of_ended (h : d.ended ≠ none) (callbacks : List Callback) :
    callbacks.foldl (call c) d = d := by
  induction callbacks with
  | nil => rfl
  | cons callback callbacks ih => rw [List.foldl_cons, call_of_ended h, ih]

/-- The calls of some callbacks go on until one lets an exception out. -/
lemma ran_foldl_call (c : Client) (hd : d.ended = none) (callbacks : List Callback) :
    Ran c callbacks d (callbacks.foldl (call c) d) ∧
      ((callbacks.foldl (call c) d).ended = none ↔ ∀ cb ∈ callbacks, c.throws cb = none) := by
  induction callbacks generalizing d with
  | nil => exact ⟨⟨rfl, fun _ => id, fun _ => .inl, fun h => absurd rfl h⟩, by simp [hd]⟩
  | cons callback callbacks ih =>
    have hcall : d.call c callback = { d with
        calls := d.calls ++ [(c, callback)], ended := (c.throws callback).map .thrown } := by
      rw [call, hd]
    have hmem : (c, callback) ∈ (d.call c callback).calls := by
      rw [hcall]
      exact List.mem_append_right _ List.mem_cons_self
    have hold : ∀ q ∈ d.calls, q ∈ (d.call c callback).calls := fun q hq => by
      rw [hcall]
      exact List.mem_append_left _ hq
    have hnew : ∀ q ∈ (d.call c callback).calls, q ∈ d.calls ∨ q = (c, callback) := fun q hq => by
      rw [hcall] at hq
      exact (List.mem_append.mp hq).imp_right List.mem_singleton.mp
    rw [List.foldl_cons]
    cases hthrows : c.throws callback with
    | some t =>
      have hended : (d.call c callback).ended ≠ none := by
        rw [hcall, hthrows]
        exact Option.some_ne_none _
      rw [foldl_call_of_ended hended]
      refine ⟨⟨by rw [hcall], hold, fun q hq => (hnew q hq).imp_right ?_,
        fun _ => ⟨callback, hmem⟩⟩, iff_of_false hended fun h => ?_⟩
      · rintro rfl
        exact ⟨rfl, List.mem_cons_self⟩
      · rw [h callback List.mem_cons_self] at hthrows
        cases hthrows
    | none =>
      have hended : (d.call c callback).ended = none := by
        rw [hcall, hthrows]
        rfl
      obtain ⟨hran, hends⟩ := ih hended
      refine ⟨⟨hran.position.trans (by rw [hcall]), fun q hq => hran.old q (hold q hq),
        fun q hq => ?_, fun _ => ⟨callback, hran.old _ hmem⟩⟩, ?_⟩
      · rcases hran.new q hq with hq | ⟨hc, hcallback⟩
        · refine (hnew q hq).imp_right ?_
          rintro rfl
          exact ⟨rfl, List.mem_cons_self⟩
        · exact .inr ⟨hc, List.mem_cons_of_mem _ hcallback⟩
      · rw [hends, List.forall_mem_cons]
        exact (and_iff_right hthrows).symm

/-- The events of an entry. -/
lemma ran_serve (service : Service) (c : Client) (hd : d.ended = none) (revents : UInt16) :
    Ran c (service.callbacks c revents) d (d.serve service c revents) ∧
      ((d.serve service c revents).ended = none ↔ Passes service c revents) := by
  rw [serve]
  split_ifs with hzero
  · rw [hzero, service.callbacks_zero]
    refine ⟨⟨rfl, fun _ => id, fun _ => .inl, fun h => absurd rfl h⟩, iff_of_true hd ⟨?_, .inl rfl⟩⟩
    rw [service.callbacks_zero]
    exact nofun
  · have hstart : ({ d with timedOut := false } : Delivery).ended = none := hd
    obtain ⟨hran, hends⟩ := ran_foldl_call c hstart (service.callbacks c revents)
    have hran' : Ran c (service.callbacks c revents) d
        ((service.callbacks c revents).foldl (call c) { d with timedOut := false }) :=
      ⟨hran.position, hran.old, hran.new, hran.first⟩
    cases hended : ((service.callbacks c revents).foldl (call c)
        { d with timedOut := false }).ended with
    | some e =>
      simp only [hended]
      refine ⟨hran', iff_of_false (Option.some_ne_none e) fun h => ?_⟩
      rw [hends.mpr h.1] at hended
      cases hended
    | none =>
      simp only [hended]
      refine ⟨⟨hran'.position, hran'.old, hran'.new, hran'.first⟩, ?_⟩
      rw [Option.map_eq_none_iff, Passes, or_iff_right hzero]
      exact (and_iff_right (hends.mp hended)).symm

lemma turn_of_ended {fds : List PollFd} (h : d.ended ≠ none) : d.turn service fds c = d := by
  rw [turn]
  cases hended : d.ended with
  | none => exact absurd hended h
  | some e => rfl

lemma foldl_turn_of_ended {fds : List PollFd} (h : d.ended ≠ none) (l : List Client) :
    l.foldl (turn service fds) d = d := by
  induction l with
  | nil => rfl
  | cons c l ih => rw [List.foldl_cons, turn_of_ended h, ih]

/-- The positions that a map gives, 0 for the connections that it does not have. -/
def slot (d : Delivery) (c : Client) : ℕ := (d.position.find? c.id).getD 0

/-- A lookup gives the position, and changes none. -/
lemma lookUp_spec (d : Delivery) (c : Client) :
    (d.lookUp c).1 = d.slot c ∧ (d.lookUp c).2.calls = d.calls ∧ (d.lookUp c).2.ended = d.ended ∧
      ∀ b : Client, (d.lookUp c).2.slot b = d.slot b := by
  rw [lookUp, slot]
  cases hfind : d.position.find? c.id with
  | some i => exact ⟨rfl, rfl, rfl, fun _ => rfl⟩
  | none =>
    refine ⟨rfl, rfl, rfl, fun b => ?_⟩
    rw [slot, slot, SortedMap.find?_insert]
    split_ifs with hid
    · rw [← hid, hfind]
      rfl
    · rfl

/-- **The turn of a connection**: the callbacks for the events of its entry. -/
lemma ran_turn (service : Service) (c : Client) {fds : List PollFd} (hd : d.ended = none)
    {revents : UInt16}
    (hrevents : (fds[d.slot c]?.map PollFd.revents).getD 0 = revents) :
    (∀ b : Client, (d.turn service fds c).slot b = d.slot b) ∧
      (∀ q ∈ d.calls, q ∈ (d.turn service fds c).calls) ∧
      (∀ q ∈ (d.turn service fds c).calls,
        q ∈ d.calls ∨ q.1 = c ∧ q.2 ∈ service.callbacks c revents) ∧
      (service.callbacks c revents ≠ [] →
        ∃ callback, (c, callback) ∈ (d.turn service fds c).calls) ∧
      ((d.turn service fds c).ended = none ↔ Passes service c revents) := by
  obtain ⟨hslot, hcalls, hended, hslots⟩ := d.lookUp_spec c
  have hturn : d.turn service fds c = (d.lookUp c).2.serve service c revents := by
    rw [turn, hd, ← hrevents, ← hslot]
  obtain ⟨hran, hends⟩ := ran_serve service c (hended.trans hd) revents
  rw [hturn]
  refine ⟨fun b => ?_, fun q hq => hran.old q (hcalls ▸ hq), fun q hq => hcalls ▸ hran.new q hq,
    hran.first, hends⟩
  rw [slot, hran.position]
  exact hslots b

/-- The calls of a delivery stay. -/
lemma mem_calls_foldl {fds : List PollFd} {q : Client × Callback} (l : List Client)
    (hq : q ∈ d.calls) : q ∈ (l.foldl (turn service fds) d).calls := by
  induction l generalizing d with
  | nil => exact hq
  | cons c l ih =>
    rw [List.foldl_cons]
    by_cases hd : d.ended = none
    · exact ih ((ran_turn service c hd rfl).2.1 q hq)
    · rw [turn_of_ended hd]
      exact ih hq

end Delivery

end Turns

/-! ## The delivery -/

section Deliver

variable {service : Service} {events : EventSource → UInt16} {l : List Client}
  {revents : ℕ → UInt16}

/-- A call for the events of an entry of its connection. -/
def CallOwned (service : Service) (events : EventSource → UInt16) (l : List Client)
    (revents : ℕ → UInt16) (q : Client × Callback) : Prop :=
  ∃ i, Owns events l q.1 i ∧ q.2 ∈ service.callbacks q.1 (revents i)

/-- What holds of each item that comes after items that pass, for the first item and the others. -/
lemma forall_split_cons_iff {α : Type} {Pass Holds : α → Prop} (a : α) (rest : List α) :
    (∀ before b after, a :: rest = before ++ b :: after → (∀ x ∈ before, Pass x) → Holds b) ↔
      Holds a ∧ (Pass a → ∀ before b after, rest = before ++ b :: after →
        (∀ x ∈ before, Pass x) → Holds b) := by
  constructor
  · intro h
    refine ⟨h [] a rest rfl (by simp), fun ha before b after heq hbefore => ?_⟩
    exact h (a :: before) b after (congrArg (a :: ·) heq) (List.forall_mem_cons.mpr ⟨ha, hbefore⟩)
  · rintro ⟨ha, hrest⟩ (_ | ⟨x, before⟩) b after heq hbefore
    · cases heq
      exact ha
    · rw [List.cons_append, List.cons.injEq] at heq
      obtain ⟨rfl, heq⟩ := heq
      obtain ⟨hpass, hbefore⟩ := List.forall_mem_cons.mp hbefore
      exact hrest hpass before b after heq hbefore

/-- A connection without an entry is served by the first one. -/
lemma Serves.eq_zero {c : Client} {i : ℕ} (h : Serves events l c i)
    (hnone : ∀ j, ¬ Owns events l c j) : i = 0 :=
  h.elim (fun h => absurd h.1 (hnone i)) fun h => h.2

/-- The turns of the connections that are left, when the calls so far are for the events of their
own entries. -/
lemma callOwned_foldl {fds : List PollFd} (rest : List Client) {d : Delivery}
    (hended : d.ended = none) (hcalls : ∀ q ∈ d.calls, CallOwned service events l revents q)
    (hslot : ∀ c i, Serves events l c i → d.slot c = i)
    (hfds : ∀ c i, Serves events l c i → (fds[i]?.map PollFd.revents).getD 0 = revents i) :
    (∀ q ∈ (rest.foldl (Delivery.turn service fds) d).calls,
        CallOwned service events l revents q) ↔
      ∀ before c after, rest = before ++ c :: after →
        (∀ b ∈ before, ∀ i, Serves events l b i → Passes service b (revents i)) →
        (∀ i, ¬ Owns events l c i) → service.callbacks c (revents 0) = [] := by
  induction rest generalizing d with
  | nil => exact iff_of_true hcalls fun before c after h => by simp at h
  | cons c rest ih =>
    obtain ⟨i, hi⟩ : ∃ i, Serves events l c i := ⟨_, (serves_iff l c _).mpr rfl⟩
    have hrevents : (fds[d.slot c]?.map PollFd.revents).getD 0 = revents i := by
      rw [hslot c i hi]
      exact hfds c i hi
    obtain ⟨hslots, hold, hnew, hfirst, hends⟩ :=
      Delivery.ran_turn service c hended hrevents
    rw [List.foldl_cons, forall_split_cons_iff c rest]
    by_cases hbad : (∀ j, ¬ Owns events l c j) ∧ service.callbacks c (revents i) ≠ []
    · -- the connection has no entry and one of its callbacks is called
      obtain ⟨hnone, hcallbacks⟩ := hbad
      have hzero : i = 0 := hi.eq_zero hnone
      obtain ⟨callback, hcallback⟩ := hfirst hcallbacks
      refine iff_of_false (fun h => ?_) fun h => hcallbacks ?_
      · obtain ⟨j, hj, -⟩ := h _ (Delivery.mem_calls_foldl rest hcallback)
        exact hnone j hj
      · rw [hzero]
        exact h.1 hnone
    · have hcalls' : ∀ q ∈ (d.turn service fds c).calls, CallOwned service events l revents q := by
        intro q hq
        rcases hnew q hq with hq | ⟨hc, hcallback⟩
        · exact hcalls q hq
        · rcases hi with ⟨howns, -⟩ | ⟨hnone, -⟩
          · exact ⟨i, hc ▸ howns, hc ▸ hcallback⟩
          · exact absurd ⟨hnone, List.ne_nil_of_mem hcallback⟩ hbad
      have hfine : (∀ j, ¬ Owns events l c j) → service.callbacks c (revents 0) = [] :=
        fun hnone => by
          by_contra hne
          have hzero : i = 0 := hi.eq_zero hnone
          exact hbad ⟨hnone, hzero ▸ hne⟩
      by_cases hpass : Passes service c (revents i)
      · have hserves : ∀ j, Serves events l c j → Passes service c (revents j) := fun j hj => by
          rw [((serves_iff l c j).mp hj).symm, (serves_iff l c i).mp hi]
          exact hpass
        rw [ih (hends.mpr hpass) hcalls' fun b j hj => (hslots b).trans (hslot b j hj)]
        exact ⟨fun h => ⟨hfine, fun _ => h⟩, fun h => h.2 hserves⟩
      · rw [Delivery.foldl_turn_of_ended fun h => hpass (hends.mp h)]
        exact iff_of_true hcalls' ⟨hfine, fun h => absurd (h i hi) hpass⟩

/-- **The delivery** calls the callbacks for the events of their own entries exactly when no
connection is disturbed by those of the first entry. -/
lemma callOwned_deliver (hl : owners events l ≠ []) :
    (∀ q ∈ (deliver service (l.foldl (PollSetup.add events) {}) revents l).calls,
        CallOwned service events l revents q) ↔ Undisturbed service events l revents := by
  have hlength := (setup_spec events l).1
  have hfds : ∀ c i, Serves events l c i →
      (((l.foldl (PollSetup.add events) {}).fds.mapIdx fun position fd =>
        { fd with revents := revents position })[i]?.map PollFd.revents).getD 0 = revents i := by
    intro c i hi
    have hlt : i < (l.foldl (PollSetup.add events) {}).fds.length := by
      rw [hlength]
      rcases hi with ⟨howns, -⟩ | ⟨-, rfl⟩
      · exact howns.lt
      · exact List.length_pos_of_ne_nil hl
    rw [List.getElem?_mapIdx, List.getElem?_eq_getElem hlt]
    rfl
  let start : Delivery := { position := (l.foldl (PollSetup.add events) {}).position }
  have hslot : ∀ c i, Serves events l c i → start.slot c = i := fun c i => (serves_iff l c i).mp
  have hstart : ∀ q ∈ start.calls, CallOwned service events l revents q := fun q hq => by
    cases hq
  rw [deliver, callOwned_foldl l rfl hstart hslot hfds, Undisturbed]
  exact ⟨fun h _ before c after heq hnone hbefore => h before c after heq hbefore hnone,
    fun h before c after heq hbefore hnone => h hl before c after heq hnone hbefore⟩

/-- Without entries nothing is called, and no connection is disturbed. -/
lemma fds_eq_nil_iff : (l.foldl (PollSetup.add events) {}).fds = [] ↔ owners events l = [] := by
  rw [← List.length_eq_zero_iff, (setup_spec events l).1, List.length_eq_zero_iff]

lemma callsOwned_nil (result : Option Ppoll) : CallsOwned service events l result [] :=
  fun _ hq => absurd hq List.not_mem_nil

/-- The calls for the events of a result. -/
lemma callsOwned_ready {calls : List (Client × Callback)} :
    CallsOwned service events l (some (.ready revents)) calls ↔
      ∀ q ∈ calls, CallOwned service events l revents q := by
  refine forall₂_congr fun q _ => ?_
  constructor
  · rintro ⟨revents', i, h, howns, hcallback⟩
    cases h
    exact ⟨i, howns, hcallback⟩
  · rintro ⟨i, howns, hcallback⟩
    exact ⟨revents, i, rfl, howns, hcallback⟩

/-- The calls of a function that delivers the events of a result, if there are entries. -/
lemma callsOwned_iff_undisturbed {result : Option Ppoll} {calls : List (Client × Callback)}
    (hnone : owners events l = [] ∨ (∀ revents, result ≠ some (.ready revents)) → calls = [])
    (hready : owners events l ≠ [] → ∀ revents, result = some (.ready revents) →
      calls = (deliver service (l.foldl (PollSetup.add events) {}) revents l).calls) :
    CallsOwned service events l result calls ↔
      ∀ revents, result = some (.ready revents) → Undisturbed service events l revents := by
  by_cases hl : owners events l = []
  · rw [hnone (.inl hl)]
    exact iff_of_true (callsOwned_nil result) fun _ _ h => absurd hl h
  · by_cases hresult : ∃ revents, result = some (.ready revents)
    · obtain ⟨revents, rfl⟩ := hresult
      rw [callsOwned_ready, hready hl revents rfl, callOwned_deliver hl]
      refine ⟨fun h revents' heq => ?_, fun h => h revents rfl⟩
      cases heq
      exact h
    · have hno : ∀ revents, result ≠ some (.ready revents) := fun revents h =>
        hresult ⟨revents, h⟩
      rw [hnone (.inr hno)]
      exact iff_of_true (callsOwned_nil result) fun revents h => absurd h (hno revents)

variable {mode : WaitMode} {location : Str} {connections : List Client} {listen : Option Client}

lemma calls_waitPoll_of_ready {results : List Ppoll}
    (hl : owners (waitEvents mode) (connections ++ listen.toList) ≠ [])
    (hresults : lastPpoll results = some (.ready revents)) :
    (waitPoll mode connections listen results).calls =
      (deliver waitService
        ((connections ++ listen.toList).foldl (PollSetup.add (waitEvents mode)) {}) revents
        (connections ++ listen.toList)).calls := by
  rw [waitPoll]
  simp only [fds_eq_nil_iff, if_neg hl, hresults]
  split
  · rfl
  · split_ifs <;> rfl

lemma calls_waitPoll_of_none {results : List Ppoll}
    (h : owners (waitEvents mode) (connections ++ listen.toList) = [] ∨
      ∀ revents, lastPpoll results ≠ some (.ready revents)) :
    (waitPoll mode connections listen results).calls = [] := by
  rw [waitPoll]
  simp only [fds_eq_nil_iff]
  split_ifs with hl
  · rfl
  · cases hresult : lastPpoll results with
    | none => rfl
    | some result =>
      cases result with
      | failed errno text => rfl
      | ready revents => exact absurd hresult (h.resolve_left hl revents)

lemma calls_exitPoll_of_ready (hl : owners exitEvents (connections ++ listen.toList) ≠ []) :
    (exitPoll location connections listen (.ready revents)).calls =
      (deliver exitService ((connections ++ listen.toList).foldl (PollSetup.add exitEvents) {})
        revents (connections ++ listen.toList)).calls := by
  rw [exitPoll]
  simp only [fds_eq_nil_iff, if_neg hl]
  split <;> rfl

lemma calls_exitPoll_of_none {result : Ppoll}
    (h : owners exitEvents (connections ++ listen.toList) = [] ∨
      ∀ revents, some result ≠ some (.ready revents)) :
    (exitPoll location connections listen result).calls = [] := by
  unfold exitPoll
  simp only [fds_eq_nil_iff]
  split_ifs with hl
  · rfl
  · cases result with
    | failed errno text => rfl
    | ready revents => exact absurd rfl (h.resolve_left hl revents)

/-- **The callbacks of a connection** are called only for the events of its own entry exactly when
the events of the first entry select no callback of a connection without an entry that the loop
comes to. -/
theorem callsOwned_iff (mode : WaitMode) (location : Str) (connections : List Client)
    (listen : Option Client) (waitResults : List Ppoll) (exitResult : Ppoll) :
    (CallsOwned waitService (waitEvents mode) (connections ++ listen.toList)
        (lastPpoll waitResults) (waitPoll mode connections listen waitResults).calls ↔
      ∀ revents, lastPpoll waitResults = some (.ready revents) →
        Undisturbed waitService (waitEvents mode) (connections ++ listen.toList) revents) ∧
    (CallsOwned exitService exitEvents (connections ++ listen.toList) (some exitResult)
        (exitPoll location connections listen exitResult).calls ↔
      ∀ revents, some exitResult = some (.ready revents) →
        Undisturbed exitService exitEvents (connections ++ listen.toList) revents) := by
  constructor
  · exact callsOwned_iff_undisturbed calls_waitPoll_of_none fun hl revents =>
      calls_waitPoll_of_ready hl
  · refine callsOwned_iff_undisturbed calls_exitPoll_of_none fun hl revents heq => ?_
    cases heq
    exact calls_exitPoll_of_ready hl

/-- A client with something to write. -/
def writingClient : Client := { id := 0, reader := true, writer := true }

/-- The server that listens for clients. -/
def listeningServer : Client := { id := 1, listener := true }

/-- The socket of the first entry can be written to. -/
def writable : ℕ → UInt16 := fun i => if i = 0 then pollOut else 0

/-- While it drains, `wait()` calls `process_write()` on the listener. -/
theorem not_callsOwned_drain :
    (waitPoll .drain [writingClient] (some listeningServer) [.ready writable]).calls =
        [(writingClient, .write), (listeningServer, .write)] ∧
      ¬ CallsOwned waitService (waitEvents .drain) [writingClient, listeningServer]
        (some (.ready writable))
        (waitPoll .drain [writingClient] (some listeningServer) [.ready writable]).calls := by
  have hcalls : (waitPoll .drain [writingClient] (some listeningServer) [.ready writable]).calls =
      [(writingClient, .write), (listeningServer, .write)] := rfl
  refine ⟨hcalls, fun h => ?_⟩
  rw [hcalls] at h
  obtain ⟨-, i, -, ⟨o, ho, hid⟩, -⟩ := h (listeningServer, .write) (by simp)
  have howners : owners (waitEvents .drain) [writingClient, listeningServer] = [writingClient] :=
    rfl
  rw [howners, List.getElem?_singleton] at ho
  split_ifs at ho
  cases ho
  cases hid

end Deliver

end EventDispatcher.Reporter
