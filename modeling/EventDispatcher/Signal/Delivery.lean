import EventDispatcher.Signal.Ownership

/-!
# Every signal once

The signals that reached the program and those that are pending are the signals that were sent, in
order; only a standard signal that is sent while it is pending is not queued again.  `process()`
reads all that is pending, unless its `read()` fails or a callback closes the object, and what
`get_signal_info()` returns is the last signal of the object.
-/

namespace EventDispatcher.Signal

open Lib

namespace State

/-- The signals of a number that were sent. -/
def sent (s : State) (signal : Int32) : List SignalInfo :=
  s.arrived.filter fun info => info.signo = signal

/-- The signals of a number that reached the program. -/
def taken (s : State) (signal : Int32) : List SignalInfo :=
  (s.deliveries.map Delivery.info).filter fun info => info.signo = signal

/-- The signals of a number that reached the program or are pending. -/
def kept (s : State) (signal : Int32) : List SignalInfo := s.taken signal ++ s.pending signal

/-- The last signal that an object read. -/
def lastOf (s : State) (i : ℕ) : SignalInfo :=
  ((s.deliveries.filter fun d => d.object = some i).getLast?.map Delivery.info).getD {}

lemma taken_deliver (s : State) (l : List Delivery) (signal : Int32) :
    (s.deliver l).taken signal =
      s.taken signal ++ (l.map Delivery.info).filter fun info => info.signo = signal := by
  rw [taken, deliver, List.map_append, List.filter_append]
  rfl

/-- The dispositions read for no object. -/
lemma lastOf_deliver {s : State} {l : List Delivery} {i : ℕ}
    (hl : ∀ d ∈ l, d.object ≠ some i) : (s.deliver l).lastOf i = s.lastOf i := by
  have hnone : l.filter (fun d => d.object = some i) = [] := by
    simpa using hl
  rw [lastOf, deliver, List.filter_append, hnone, List.append_nil]
  rfl

lemma lastOf_deliver_self (s : State) (info : SignalInfo) (i : ℕ) (handled : Bool) :
    (s.deliver [⟨info, some i, handled⟩]).lastOf i = info := by
  simp [lastOf, deliver]

section Arrive

variable {Y : Signals} (s : State) (info : SignalInfo) (signal : Int32)

lemma sent_arrive : (s.arrive Y info).sent signal =
    s.sent signal ++ if info.signo = signal then [info] else [] := by
  have harrived : (s.arrive Y info).arrived = s.arrived ++ [info] := by
    rw [arrive]
    dsimp only
    split_ifs <;> rfl
  rw [sent, harrived, List.filter_append, List.filter_singleton]
  by_cases hsignal : info.signo = signal <;> simp [hsignal, sent]

/-- A signal that is blocked is queued, unless it is a standard signal that is pending. -/
lemma pending_arrive : (s.arrive Y info).pending signal = s.pending signal ++
    if info.signo = signal ∧ s.blocked signal = true ∧
      (Y.realTime signal = true ∨ s.pending signal = []) then [info] else [] := by
  rw [arrive]
  dsimp only
  by_cases hblocked : s.blocked info.signo = true
  · rw [if_pos hblocked]
    by_cases hsignal : info.signo = signal
    · subst hsignal
      simp only [hblocked, true_and]
      split_ifs
      · exact (pending_setPending ..).trans (if_pos rfl)
      · exact (List.append_nil _).symm
    · simp only [hsignal, false_and, if_false, List.append_nil]
      split_ifs
      · exact (pending_setPending ..).trans (if_neg (Ne.symm hsignal))
      · rfl
  · have hnot : ¬(info.signo = signal ∧ s.blocked signal = true ∧
        (Y.realTime signal = true ∨ s.pending signal = [])) := by
      rintro ⟨rfl, hall, -⟩
      exact hblocked hall
    rw [if_neg hblocked, if_neg hnot, List.append_nil]
    rfl

/-- **Only a standard signal that is pending is lost.** -/
lemma kept_arrive (ho : Owned Y s) : (s.arrive Y info).kept signal = s.kept signal ++
    if info.signo = signal ∧ (Y.realTime signal = true ∨ s.pending signal = [])
      then [info] else [] := by
  rw [kept, pending_arrive]
  by_cases hblocked : s.blocked info.signo = true
  · have htaken : (s.arrive Y info).taken signal = s.taken signal := by
      rw [arrive]
      dsimp only
      rw [if_pos hblocked]
      split_ifs <;> rfl
    rw [htaken, kept, List.append_assoc]
    by_cases hsignal : info.signo = signal
    · rw [hsignal] at hblocked
      simp only [hblocked, true_and]
    · simp only [hsignal, false_and]
  · -- what is not blocked has nothing that is pending
    have hempty : s.pending info.signo = [] := by
      by_contra hne
      exact hblocked (ho.pending _ hne)
    have htaken : (s.arrive Y info).taken signal =
        s.taken signal ++ if info.signo = signal then [info] else [] := by
      rw [arrive]
      dsimp only
      rw [if_neg hblocked, taken_deliver, List.map_singleton, List.filter_singleton]
      by_cases hsignal : info.signo = signal <;> simp [hsignal, taken]
    rw [htaken, kept]
    by_cases hsignal : info.signo = signal
    · subst hsignal
      simp [hempty, hblocked]
    · simp [hsignal]

/-- The objects and the mask are left. -/
lemma arrive_same : (s.arrive Y info).objects = s.objects ∧
    (s.arrive Y info).blocked = s.blocked := by
  rw [arrive]
  dsimp only
  split_ifs <;> exact ⟨rfl, rfl⟩

lemma lastOf_arrive (i : ℕ) : (s.arrive Y info).lastOf i = s.lastOf i := by
  rw [arrive]
  dsimp only
  split_ifs
  · rfl
  · rfl
  · refine lastOf_deliver fun d hd => ?_
    rw [List.mem_singleton.mp hd]
    exact Option.some_ne_none i ∘ Eq.symm

end Arrive

end State

/-- **The invariant of the signals.** -/
structure Accounted (Y : Signals) (s : State) : Prop where
  /-- What reached the program and what is pending was sent, in order. -/
  sent : ∀ signal, (s.kept signal).Sublist (s.sent signal)
  /-- No real time signal is lost. -/
  realTime : ∀ signal, Y.realTime signal = true → s.kept signal = s.sent signal
  /-- Of another signal one is pending at most. -/
  single : ∀ signal, Y.realTime signal = false → (s.pending signal).length ≤ 1
  /-- An object keeps the last signal that it read. -/
  last : ∀ (i : ℕ) (o : Object), s.objects[i]? = some o → o.info = s.lastOf i

namespace Accounted

variable {Y : Signals} {s s' : State}

/-- Nothing is sent, and what is kept stays the same. -/
lemma of_kept (h : Accounted Y s) (hkept : ∀ signal, s'.kept signal = s.kept signal)
    (harrived : s'.arrived = s.arrived)
    (hpending : ∀ signal, (s'.pending signal).length ≤ (s.pending signal).length)
    (hlast : ∀ (i : ℕ) (o : Object), s'.objects[i]? = some o → o.info = s'.lastOf i) :
    Accounted Y s' := by
  have hsent : ∀ signal, s'.sent signal = s.sent signal := fun signal => by
    rw [State.sent, State.sent, harrived]
  refine ⟨fun signal => ?_, fun signal hr => ?_, fun signal hr => ?_, hlast⟩
  · rw [hkept, hsent]
    exact h.sent signal
  · rw [hkept, hsent]
    exact h.realTime signal hr
  · exact (hpending signal).trans (h.single signal hr)

/-- Nothing that plays a role changes. -/
lemma of_eq (h : Accounted Y s) (hpending : s'.pending = s.pending)
    (harrived : s'.arrived = s.arrived) (hdeliveries : s'.deliveries = s.deliveries)
    (hlast : ∀ (i : ℕ) (o : Object), s'.objects[i]? = some o → o.info = s.lastOf i) :
    Accounted Y s' := by
  refine h.of_kept (fun signal => ?_) harrived (fun signal => ?_) fun i o hi => ?_
  · rw [State.kept, State.kept, State.taken, State.taken, hdeliveries, hpending]
  · rw [hpending]
  · rw [hlast i o hi, State.lastOf, State.lastOf, hdeliveries]

lemma start (Y : Signals) (blocked : Int32 → Bool) : Accounted Y { blocked } where
  sent _ := List.nil_sublist _
  realTime _ _ := rfl
  single _ _ := Nat.zero_le _
  last i o h := by simp at h

/-- An object keeps its signal info. -/
lemma setObject (h : Accounted Y s) {i : ℕ} {o o' : Object} (hi : s.objects[i]? = some o)
    (hinfo : o'.info = o.info) : Accounted Y (s.setObject i o') := by
  refine h.of_eq rfl rfl rfl fun j p hj => ?_
  rw [s.objects_setObject hi] at hj
  split_ifs at hj with heq
  · cases hj
    rw [hinfo, heq]
    exact h.last i o hi
  · exact h.last j p hj

lemma setHandler (h : Accounted Y s) (signal : Int32) (value : Bool) :
    Accounted Y (s.setHandler signal value) :=
  h.of_eq rfl rfl rfl h.last

/-- What is pending of a signal reaches the program, up to `rest`. -/
lemma take (h : Accounted Y s) (s' : State) {signal : Int32} {l : List Delivery}
    (rest : List SignalInfo)
    (hsigno : ∀ info ∈ s.pending signal, info.signo = signal)
    (hpending : s.pending signal = l.map Delivery.info ++ rest) (hs' : s'.arrived = s.arrived)
    (hpending' : ∀ signal', s'.pending signal' =
      if signal' = signal then rest else s.pending signal')
    (hdeliveries : s'.deliveries = s.deliveries ++ l)
    (hlast : ∀ (i : ℕ) (o : Object), s'.objects[i]? = some o → o.info = s'.lastOf i) :
    Accounted Y s' := by
  refine h.of_kept (fun signal' => ?_) hs' (fun signal' => ?_) hlast
  · have htaken : s'.taken signal' = s.taken signal' ++
        (l.map Delivery.info).filter fun info => info.signo = signal' := by
      rw [State.taken, hdeliveries, List.map_append, List.filter_append]
      rfl
    have hl : ∀ info ∈ l.map Delivery.info, info.signo = signal := fun info hi =>
      hsigno info (hpending ▸ List.mem_append_left _ hi)
    rw [State.kept, State.kept, htaken, hpending']
    split_ifs with heq
    · have hall : (l.map Delivery.info).filter (fun info => info.signo = signal') =
          l.map Delivery.info :=
        List.filter_eq_self.mpr fun info hi => by
          rw [heq]
          exact decide_eq_true (hl info hi)
      rw [hall, heq, hpending, List.append_assoc]
    · have hnone : (l.map Delivery.info).filter (fun info => info.signo = signal') = [] :=
        List.filter_eq_nil_iff.mpr fun info hi => by
          simpa using fun h => heq (h.symm.trans (hl info hi))
      rw [hnone, List.append_nil]
  · rw [hpending']
    split_ifs with heq
    · rw [heq, hpending, List.length_append]
      omega
    · exact le_rfl

lemma unblock (h : Accounted Y s) (ho : Owned Y s) (signal : Int32) :
    Accounted Y (s.unblock signal) := by
  refine h.take (s.unblock signal) [] (ho.signo signal) ?_ rfl
    (fun signal' => State.pending_setPending _ _ _ _) rfl fun i o hi => ?_
  · rw [List.map_map, List.append_nil]
    exact (List.map_id _).symm
  · rw [State.unblock, State.lastOf_deliver]
    · exact h.last i o hi
    · intro d hd
      obtain ⟨info, -, rfl⟩ := List.mem_map.mp hd
      simp

lemma read (h : Accounted Y s) (ho : Owned Y s) {i : ℕ} (hread : s.read i = some s') :
    Accounted Y s' := by
  obtain ⟨o, info, rest, hi, -, hpending, rfl⟩ := State.read_eq_some_iff.mp hread
  refine h.take _ rest (ho.signo o.signal) (l := [⟨info, some i, s.handlers o.signal⟩]) hpending rfl
    (fun signal' => State.pending_setPending _ _ _ _) rfl fun j p hj => ?_
  change (s.setObject i { o with info }).objects[j]? = some p at hj
  rw [s.objects_setObject hi] at hj
  split_ifs at hj with heq
  · cases hj
    rw [heq, State.lastOf_deliver_self]
  · rw [State.lastOf_deliver]
    · exact h.last j p hj
    · intro d hd
      rw [List.mem_singleton.mp hd]
      simpa using Ne.symm heq

lemma arrive (h : Accounted Y s) (ho : Owned Y s) (info : SignalInfo) :
    Accounted Y (s.arrive Y info) := by
  refine ⟨fun signal => ?_, fun signal hr => ?_, fun signal hr => ?_, fun i o hi => ?_⟩
  · rw [State.kept_arrive _ _ _ ho, State.sent_arrive]
    refine (h.sent signal).append ?_
    split_ifs with hkept hsignal
    · exact List.Sublist.refl _
    · exact absurd hkept.1 hsignal
    all_goals exact List.nil_sublist _
  · rw [State.kept_arrive _ _ _ ho, State.sent_arrive, h.realTime signal hr]
    by_cases hsignal : info.signo = signal
    · rw [if_pos ⟨hsignal, .inl hr⟩, if_pos hsignal]
    · rw [if_neg fun hkept => hsignal hkept.1, if_neg hsignal]
  · rw [State.pending_arrive]
    split_ifs with hqueued
    · have hempty : s.pending signal = [] :=
        hqueued.2.2.resolve_left fun hreal => Bool.false_ne_true (hr.symm.trans hreal)
      rw [hempty]
      exact le_rfl
    · rw [List.append_nil]
      exact h.single signal hr
  · rw [(State.arrive_same s info).1] at hi
    rw [State.lastOf_arrive]
    exact h.last i o hi

lemma construct (h : Accounted Y s) (ho : Owned Y s) (signal : Int32) (threads : ℕ) (blocks : Bool)
    (signalfd : Option (Int32 × Str)) :
    Accounted Y (s.construct Y signal threads blocks signalfd).2 := by
  have hblock : Accounted Y (s.block Y signal) := h.of_eq rfl rfl rfl h.last
  rw [State.construct]
  split_ifs
  · exact h
  · exact h
  · cases signalfd with
    | some error => exact hblock.unblock (ho.block signal) signal
    | none =>
      refine hblock.of_eq rfl rfl rfl fun i o hi => ?_
      change (s.objects ++ [({ signal } : Object)])[i]? = some o at hi
      rw [List.getElem?_append] at hi
      split_ifs at hi with hlt
      · exact h.last i o hi
      · -- the new object has not read anything
        obtain rfl : o = { signal } := by
          have hmem := List.mem_of_getElem? hi
          exact List.mem_singleton.mp hmem
        have hnone : s.deliveries.filter (fun d => d.object = some i) = [] := by
          refine List.filter_eq_nil_iff.mpr fun d hd hobject => ?_
          obtain ⟨-, o, ho, -⟩ := ho.owner d hd i (of_decide_eq_true hobject)
          exact hlt (List.getElem?_eq_some_iff.mp ho).1
        change ({} : SignalInfo) = s.lastOf i
        rw [State.lastOf, hnone]
        rfl
  · exact h
  · exact h

lemma close (h : Accounted Y s) (ho : Owned Y s) (i : ℕ) : Accounted Y (s.close i) := by
  rw [State.close]
  split
  · exact h
  · rename_i o hi
    have hobject : Accounted Y (s.setObject i { o with isOpen := false }) := h.setObject hi rfl
    split_ifs with hopen hunblock
    · exact (hobject.setHandler o.signal false).unblock (ho.closed hi hopen) o.signal
    · exact hobject.setHandler o.signal false
    · exact h

lemma unblockSignalOnDestruction (h : Accounted Y s) (i : ℕ) :
    Accounted Y (s.unblockSignalOnDestruction i) := by
  rw [State.unblockSignalOnDestruction]
  split
  · exact h
  · rename_i o hi
    exact h.setObject hi rfl

lemma drain (h : Accounted Y s) (ho : Owned Y s) (i n : ℕ) : Accounted Y (s.drain i n) := by
  induction n generalizing s with
  | zero => exact h
  | succ n ih =>
    rw [State.drain]
    split
    · exact h
    · rename_i s' hread
      exact ih (h.read ho hread) (ho.read hread)

mutual

/-- **Every action keeps the account**, whatever its callbacks do. -/
lemma step {s : State} (h : Accounted Y s) (ho : Owned Y s) :
    (a : Action) → Accounted Y (Signal.step Y s a)
  | .arrive info => by
    rw [Signal.step]
    exact h.arrive ho info
  | .construct signal threads blocks signalfd => by
    rw [Signal.step]
    exact h.construct ho signal threads blocks signalfd
  | .close i => by
    rw [Signal.step]
    exact h.close ho i
  | .unblockSignalOnDestruction i => by
    rw [Signal.step]
    exact h.unblockSignalOnDestruction i
  | .process i callbacks fails => by
    rw [Signal.step]
    exact h.process ho i fails callbacks

lemma steps {s : State} (h : Accounted Y s) (ho : Owned Y s) :
    (actions : List Action) → Accounted Y (Signal.steps Y s actions)
  | [] => by
    rw [Signal.steps]
    exact h
  | a :: actions => by
    rw [Signal.steps]
    exact (h.step ho a).steps (ho.step a) actions

lemma process {s : State} (h : Accounted Y s) (ho : Owned Y s) (i : ℕ) (fails : Bool) :
    (callbacks : List (List Action)) → Accounted Y (Signal.process Y i fails s callbacks)
  | [] => by
    rw [Signal.process]
    split_ifs
    · exact h
    · exact h.drain ho i _
  | callback :: callbacks => by
    rw [Signal.process]
    split
    · exact h
    · rename_i s' hread
      exact ((h.read ho hread).steps (ho.read hread) callback).process
        ((ho.read hread).steps callback) i fails callbacks

end

end Accounted

/-! ### What a `process()` leaves -/

namespace State

variable {s s' : State} {i : ℕ}

/-- There is nothing for `process()`: the object is closed, or nothing is pending for it. -/
lemma read_eq_none_iff : s.read i = none ↔
    ∀ o, s.objects[i]? = some o → o.isOpen = true → s.pending o.signal = [] := by
  rw [Option.eq_none_iff_forall_ne_some]
  simp only [ne_eq, read_eq_some_iff]
  constructor
  · intro h o hi hopen
    cases hpending : s.pending o.signal with
    | nil => rfl
    | cons info rest => exact absurd ⟨o, info, rest, hi, hopen, hpending, rfl⟩ (h _)
  · rintro h s' ⟨o, info, rest, hi, hopen, hpending, -⟩
    rw [h o hi hopen] at hpending
    cases hpending

/-- A turn of the loop leaves one signal less. -/
lemma pendingOf_read (h : s.read i = some s') : s.pendingOf i = s'.pendingOf i + 1 := by
  obtain ⟨o, info, rest, hi, -, hpending, rfl⟩ := read_eq_some_iff.mp h
  have hi' : (((s.setObject i { o with info }).setPending o.signal rest).deliver
      [⟨info, some i, s.handlers o.signal⟩]).objects[i]? = some { o with info } :=
    (s.objects_setObject hi _ i).trans (if_pos rfl)
  have hrest : (((s.setObject i { o with info }).setPending o.signal rest).deliver
      [⟨info, some i, s.handlers o.signal⟩]).pending o.signal = rest :=
    (pending_setPending ..).trans (if_pos rfl)
  rw [pendingOf, pendingOf, hi, hi']
  dsimp only
  rw [hrest, hpending]
  rfl

lemma read_eq_none_of_pendingOf (h : s.pendingOf i = 0) : s.read i = none := by
  by_contra hne
  obtain ⟨s', hread⟩ := Option.ne_none_iff_exists'.mp hne
  rw [pendingOf_read hread] at h
  cases h

/-- Enough turns leave nothing. -/
lemma read_drain {n : ℕ} (h : s.pendingOf i ≤ n) : (s.drain i n).read i = none := by
  induction n generalizing s with
  | zero => exact read_eq_none_of_pendingOf (Nat.le_zero.mp h)
  | succ n ih =>
    rw [drain]
    split
    · assumption
    · rename_i s' hread
      rw [pendingOf_read hread] at h
      exact ih (Nat.le_of_succ_le_succ h)

end State

/-- A `process()` whose `read()` does not fail leaves nothing, whatever its callbacks do. -/
lemma read_process (Y : Signals) (s : State) (i : ℕ) (callbacks : List (List Action)) :
    (process Y i false s callbacks).read i = none := by
  induction callbacks generalizing s with
  | nil =>
    rw [process, if_neg Bool.false_ne_true]
    exact State.read_drain le_rfl
  | cons callback callbacks ih =>
    rw [process]
    split
    · assumption
    · exact ih _

/-- **Every signal once**, in any run: what reached the program and what is pending are the signals
that were sent, in order and each once, and of the signals that are sent next only a standard one
that is pending is not kept.  The info of an object is its last signal, and a `process()` whose
`read()` does not fail leaves nothing that is pending for the object, unless a callback closes
it. -/
theorem accounted_runFrom (Y : Signals) (blocked : Int32 → Bool) (actions : List Action) :
    let s := runFrom (step Y) { blocked } actions
    Accounted Y s ∧
    (∀ info, (step Y s (.arrive info)).kept info.signo = s.kept info.signo ++
      if Y.realTime info.signo = true ∨ s.pending info.signo = [] then [info] else []) ∧
    ∀ i callbacks, let s' := step Y s (.process i callbacks false)
      ∀ o, s'.objects[i]? = some o → o.isOpen = true → s'.pending o.signal = [] := by
  have hstep : ∀ (s : State) (a : Action), Owned Y s ∧ Accounted Y s →
      Owned Y (step Y s a) ∧ Accounted Y (step Y s a) :=
    fun _ a h => ⟨h.1.step a, h.2.step h.1 a⟩
  obtain ⟨howned, haccounted⟩ := invariant_of_runFrom hstep
    ⟨.start Y blocked, .start Y blocked⟩ actions
  refine ⟨haccounted, fun info => ?_, fun i callbacks => ?_⟩
  · rw [step, State.kept_arrive _ _ _ howned]
    simp only [true_and]
  · dsimp only
    rw [step]
    exact State.read_eq_none_iff.mp (read_process Y _ i callbacks)

end EventDispatcher.Signal
