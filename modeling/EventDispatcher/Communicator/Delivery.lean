import EventDispatcher.Communicator.Order

/-!
# The events are delivered to their owners

An iteration that ends without an exception gives each connection that was enabled one turn.  In
it the callbacks for the events of its own entry run, and then its timeout, whatever the
callbacks do to the connections and to the list.
-/

namespace EventDispatcher

open Lib

namespace Connection

/-- The callback for an event to read. -/
def inputCallbacks (o : Connection) : List Callback :=
  if o.signal then (if o.signalObject then [.signal] else [])
  else if o.listener then [.accept]
  else [.read]

/-- The callbacks for the events of an entry, in order. -/
def selected (o : Connection) (revents : UInt16) : List Callback :=
  (if revents &&& (pollIn ||| pollPri) ≠ 0 then o.inputCallbacks else [])
    ++ (if revents &&& pollOut ≠ 0 then [.write] else [])
    ++ (if revents &&& pollErr ≠ 0 then [.error] else [])
    ++ (if revents &&& (pollHup ||| pollRdHup) ≠ 0 then [.hup] else [])
    ++ (if revents &&& pollNval ≠ 0 then [.invalid] else [])

lemma selected_zero (o : Connection) : o.selected 0 = [] := by
  simp [selected]

end Connection

namespace Communicator

variable {E : Type} {H : Host E}

/-! ### The callbacks of a turn -/

/-- The connections and the callbacks of some calls. -/
def Call.names (calls : List (Call E)) : List (ℕ × Callback) :=
  calls.map fun call => (call.connection, call.callback)

/-- From `p` to `p'` the callbacks of the connection ran, if there was no exception. -/
def Progress.Ran (c : ℕ) (callbacks : List Callback) (p p' : Progress E) : Prop :=
  p'.thrown = none →
    p.thrown = none ∧ Call.names p'.calls = Call.names p.calls ++ callbacks.map (Prod.mk c)

namespace Progress.Ran

lemma refl (c : ℕ) (p : Progress E) : Ran c [] p p := fun h => ⟨h, by simp⟩

lemma trans {c : ℕ} {l₁ l₂ : List Callback} {p₁ p₂ p₃ : Progress E} (h₁ : Ran c l₁ p₁ p₂)
    (h₂ : Ran c l₂ p₂ p₃) : Ran c (l₁ ++ l₂) p₁ p₃ := by
  intro h
  obtain ⟨hthrown, hcalls⟩ := h₂ h
  obtain ⟨hthrown', hcalls'⟩ := h₁ hthrown
  refine ⟨hthrown', ?_⟩
  rw [hcalls, hcalls', List.map_append, List.append_assoc]

lemma call (p : Progress E) (c : ℕ) (callback : Callback) :
    Ran c [callback] p (p.call H c callback) := by
  intro h
  unfold Progress.call at h ⊢
  cases hthrown : p.thrown with
  | some e => simp only [hthrown, reduceCtorEq] at h
  | none => exact ⟨rfl, by simp [Call.names]⟩

/-- A callback that runs under a condition. -/
lemma callIf (p : Progress E) (c : ℕ) (callback : Callback) (b : Prop) [Decidable b] :
    Ran c (if b then [callback] else []) p (if b then p.call H c callback else p) := by
  split_ifs
  · exact call p c callback
  · exact refl c p

end Progress.Ran

lemma ran_processInput (c : ℕ) (p : Progress E) :
    p.Ran c (p.state.heap c).inputCallbacks (processInput H c p) := by
  unfold processInput Connection.inputCallbacks
  simp only
  split_ifs
  · exact .call p c .signal
  · exact .refl c p
  · exact .call p c .accept
  · exact .call p c .read

/-- The events of an entry run the callbacks they select. -/
lemma ran_processEvents (c : ℕ) (revents : UInt16) (p : Progress E) :
    p.Ran c ((p.state.heap c).selected revents) (processEvents H c revents p) := by
  rw [processEvents]
  by_cases hzero : revents = 0
  · rw [if_neg (not_not.mpr hzero), hzero, Connection.selected_zero]
    exact .refl c p
  · rw [if_pos hzero]
    rw [Connection.selected]
    have hinput : p.Ran c
        (if revents &&& (pollIn ||| pollPri) ≠ 0 then (p.state.heap c).inputCallbacks else [])
        (if revents &&& (pollIn ||| pollPri) ≠ 0 then processInput H c p else p) := by
      split_ifs
      · exact ran_processInput c p
      · exact .refl c p
    exact (((hinput.trans (.callIf _ c .write _)).trans (.callIf _ c .error _)).trans
      (.callIf _ c .hup _)).trans (.callIf _ c .invalid _)

/-- The timeout runs when the saved timestamp is reached. -/
lemma ran_processTimer (c : ℕ) (p : Progress E) :
    p.Ran c (if (p.state.heap c).savedTimeoutStamp ≠ -1 ∧
        (p.state.heap c).savedTimeoutStamp ≤ (H.clock p.state.outside).1 then [.timeout] else [])
      (processTimer H c p) := by
  intro h
  unfold processTimer at h ⊢
  cases hthrown : p.thrown with
  | some e => simp [hthrown] at h
  | none =>
    simp only [hthrown, true_and] at h ⊢
    by_cases hstamp : (p.state.heap c).savedTimeoutStamp = -1
    · rw [if_pos hstamp, if_neg fun h => h.1 hstamp]
      simp
    · rw [if_neg hstamp] at h ⊢
      have htimedOut : (p.state.heap c).timedOut (H.clock p.state.outside).1 = true ↔
          (p.state.heap c).savedTimeoutStamp ≠ -1 ∧
            (p.state.heap c).savedTimeoutStamp ≤ (H.clock p.state.outside).1 := by
        simp [Connection.timedOut]
      by_cases hout : (p.state.heap c).timedOut (H.clock p.state.outside).1 = true
      · rw [if_pos (htimedOut.mp hout)]
        rw [if_pos hout] at h ⊢
        exact (Progress.Ran.call _ c .timeout h).2
      · rw [if_neg (fun h => hout (htimedOut.mpr h)), if_neg hout]
        simp

/-- What the events of an entry do not write. -/
lemma sameSaved_processEvents (c : ℕ) (revents : UInt16) (p : Progress E) :
    p.state.SameSaved (processEvents H c revents p).state :=
  processEvents_induction (Q := fun p' => p.state.SameSaved p'.state)
    (fun p' callback hp => hp.trans (sameSaved_call p' c callback)) revents (.refl _)

/-- The callbacks of a turn. -/
lemma names_serve {fds : List PollFd} {c : ℕ} {s : Communicator E}
    (h : (serve H fds c s).2.thrown = none) :
    Call.names (serve H fds c s).1.calls =
      ((match (s.heap c).fdsPosition with
        | none => []
        | some position =>
          (s.heap c).selected ((fds[position]?.map PollFd.revents).getD 0)) ++
      (if (s.heap c).savedTimeoutStamp ≠ -1 ∧ (s.heap c).savedTimeoutStamp ≤
          (H.clock (serve H fds c s).1.tested.outside).1 then [.timeout] else [])).map
        (Prod.mk c) := by
  unfold serve at h ⊢
  cases hposition : (s.heap c).fdsPosition with
  | none =>
    simp only [hposition] at h ⊢
    obtain ⟨-, hnames⟩ := ran_processTimer c _ h
    rw [hnames]
    rfl
  | some position =>
    simp only [hposition] at h ⊢
    have hran := (ran_processEvents (H := H) c ((fds[position]?.map PollFd.revents).getD 0)
      { state := s }).trans (ran_processTimer (H := H) c _)
    have hsaved := (sameSaved_processEvents (H := H) c
      ((fds[position]?.map PollFd.revents).getD 0) { state := s } c).2
    rw [hsaved] at hran
    obtain ⟨-, hnames⟩ := hran h
    rw [hnames]
    rfl

/-! ### The turns of an iteration -/

/-- The enabled connections have their turns, in order, each in a state with the saved fields. -/
lemma turns_serveAll {fds : List PollFd} {l : List (ℕ × Bool)} {s : Communicator E}
    (h : (serveAll H fds l s).2.2 = none) :
    (serveAll H fds l s).1.map Turn.connection = (l.filter Prod.snd).map Prod.fst ∧
      ∀ turn ∈ (serveAll H fds l s).1, s.SameSaved turn.start ∧
        turn = (serve H fds turn.connection turn.start).1 ∧
        (serve H fds turn.connection turn.start).2.thrown = none := by
  induction l generalizing s with
  | nil => exact ⟨rfl, fun turn hturn => by cases hturn⟩
  | cons a l ih =>
    obtain ⟨c, enabled⟩ := a
    rw [serveAll] at h ⊢
    cases enabled with
    | false => exact ih h
    | true =>
      simp only [Bool.not_true, Bool.false_eq_true, if_false] at h ⊢
      cases hthrown : (serve H fds c s).2.thrown with
      | some e => simp [hthrown] at h
      | none =>
        simp only [hthrown] at h ⊢
        obtain ⟨hmap, hturns⟩ := ih h
        refine ⟨?_, fun turn hturn => ?_⟩
        · rw [List.map_cons, hmap, List.filter_cons_of_pos rfl]
          rfl
        rcases List.mem_cons.mp hturn with rfl | hturn
        · exact ⟨.refl s, rfl, hthrown⟩
        · obtain ⟨hsaved, hrest⟩ := hturns turn hturn
          exact ⟨(sameSaved_serve fds c s).trans hsaved, hrest⟩

/-- The events that `poll()` found for a connection: the ones of its own entry. -/
def Iteration.reventsOf (i : Iteration E) (s : Communicator E) (c : ℕ) : UInt16 :=
  ((i.fds[(pollables s.heap i.connections).idxOf c]?).map PollFd.revents).getD 0

variable (H) in
/-- What an iteration that begins in the state `s` delivers. -/
structure Delivered (s : Communicator E) (i : Iteration E) : Prop where
  /-- The copy holds the connections of the list. -/
  connections : i.connections.Perm s.connections.list
  /-- The entries are the ones of the connections that can be polled, in order. -/
  entries : i.fds.map (fun fd => (fd.fd, fd.events)) =
    (pollables s.heap i.connections).map fun c =>
      ((s.heap c).socket, Connection.pollEvents (s.heap c).toEventSource)
  /-- Each enabled connection has one turn, in the order of the copy. -/
  turns : i.turns.map Turn.connection = i.connections.filter fun c => (s.heap c).enabled
  /-- In its turn, the callbacks for the events of its own entry run, and then its timeout, if
  the timestamp it had is reached. -/
  calls : ∀ turn ∈ i.turns, Call.names turn.calls =
    ((if (s.heap turn.connection).pollable then
        (turn.start.heap turn.connection).selected (i.reventsOf s turn.connection) else []) ++
      (if (s.heap turn.connection).getTimeoutTimestamp ≠ -1 ∧
          (s.heap turn.connection).getTimeoutTimestamp ≤ (H.clock turn.tested.outside).1
        then [Callback.timeout] else [])).map (Prod.mk turn.connection)

/-- The second half of an iteration that goes on. -/
lemma pollAndServe_again {u : Setup} {timeout : Int64} {s : Communicator E}
    (h : (pollAndServe H u timeout s).result = .again) :
    ∃ (revents : ℕ → UInt16) (outside : E), let i := pollAndServe H u timeout s
      i.connections = s.connections.list ∧
      i.fds = u.fds.mapIdx (fun position fd => { fd with revents := revents position }) ∧
      i.turns = (serveAll H i.fds (s.connections.list.zip u.enabled)
        { s with outside := outside }).1 ∧
      (serveAll H i.fds (s.connections.list.zip u.enabled)
        { s with outside := outside }).2.2 = none := by
  unfold pollAndServe at h ⊢
  simp only at h ⊢
  split at h
  · cases h
  · rename_i revents outside hpoll
    split at h
    · cases h
    · rename_i hfew
      refine ⟨revents, outside, ?_⟩
      rw [if_neg hfew]
      refine ⟨rfl, rfl, rfl, ?_⟩
      simp only at h ⊢
      cases hthrown : (serveAll H (u.fds.mapIdx fun position fd =>
          { fd with revents := revents position }) (s.connections.list.zip u.enabled)
          { s with outside := outside }).2.2 with
      | some e => rw [hthrown] at h; cases h
      | none => rfl

/-- What an iteration that goes on delivers, in terms of the sorted list. -/
lemma delivered_pollAndServe {s : Communicator E} {outside : E} {timeout : Int64}
    (h : (pollAndServe H s.setup timeout
      { s with heap := s.setup.heap, outside := outside }).result = .again) :
    Delivered H s (pollAndServe H s.setup timeout
      { s with heap := s.setup.heap, outside := outside }) := by
  obtain ⟨revents, outside', hconnections, hfds, hturns, hthrown⟩ := pollAndServe_again h
  generalize pollAndServe H s.setup timeout
    { s with heap := s.setup.heap, outside := outside } = i at *
  simp only at hconnections hfds hturns hthrown
  obtain ⟨hmap, hserved⟩ := turns_serveAll hthrown
  rw [← hturns] at hmap hserved
  -- the flags of the setup select the enabled connections
  have hzip : ∀ l : List ℕ, ((l.zip (l.map fun c => (s.heap c).enabled)).filter Prod.snd).map
      Prod.fst = l.filter fun c => (s.heap c).enabled := by
    intro l
    induction l with
    | nil => rfl
    | cons c l ih =>
      rw [List.map_cons, List.zip_cons_cons, List.filter_cons, List.filter_cons, ← ih]
      split <;> rfl
  rw [enabled_setup, hzip] at hmap
  refine ⟨hconnections ▸ List.Perm.refl _, ?_, hconnections ▸ hmap, fun turn hturn => ?_⟩
  · rw [hfds, fds_setup, hconnections]
    refine List.ext_getElem (by simp) fun position h₁ h₂ => ?_
    simp [Connection.pollFd]
  · obtain ⟨hsaved, heq, hok⟩ := hserved turn hturn
    have hmem : turn.connection ∈ s.connections.list ∧
        (s.heap turn.connection).enabled = true := by
      have := List.mem_map_of_mem (f := Turn.connection) hturn
      rw [hmap, List.mem_filter] at this
      exact this
    -- what the setup saved is still there when the turn comes, whatever ran before
    obtain ⟨hposition, hstamp⟩ := hsaved turn.connection
    simp only [heap_setup s hmem.1, Connection.fdsPosition_prepared,
      Connection.savedTimeoutStamp_prepared hmem.2] at hposition hstamp
    have hnames := names_serve hok
    rw [← heq, hposition, hstamp] at hnames
    rw [hnames, Iteration.reventsOf, hconnections]
    cases (s.heap turn.connection).pollable <;> rfl

/-- What is delivered does not depend on the order of the list. -/
lemma Delivered.of_perm {s s' : Communicator E} {i : Iteration E} (h : Delivered H s' i)
    (hheap : s'.heap = s.heap) (hperm : s'.connections.list.Perm s.connections.list) :
    Delivered H s i := by
  obtain ⟨hconnections, hentries, hturns, hcalls⟩ := h
  have hrevents : ∀ c, i.reventsOf s' c = i.reventsOf s c := by
    intro c
    rw [Iteration.reventsOf, Iteration.reventsOf, hheap]
  rw [hheap] at hentries hturns
  simp only [hheap, hrevents] at hcalls
  exact ⟨hconnections.trans hperm, hentries, hturns, hcalls⟩

/-- Two readers that time out at once. -/
def twoTimedReaders : Communicator Unit where
  heap c := { reader := true, socket := c, timeoutDate := 0 }
  connections := { list := [0, 1] }
  forceSort := true
  outside := ()

end Communicator

end EventDispatcher
