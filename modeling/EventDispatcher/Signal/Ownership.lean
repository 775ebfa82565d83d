import EventDispatcher.Signal.Signal

/-!
# One object for each signal

The open objects have signals of their own, which `g_signal_handlers` lists, and which stay blocked:
while an object is open its signal reaches the program through `process_signal()` of this object
only.  A signal reaches the program by its disposition when no object is open for it: when it is
sent then, when an object that unblocks it is closed, and when `signalfd()` fails.
-/

namespace EventDispatcher.Signal

open Lib

/-- **The invariant of the objects.** -/
structure Owned (Y : Signals) (s : State) : Prop where
  /-- The set lists the signals of the open objects. -/
  handlers : ∀ signal, s.handlers signal = true ↔
    ∃ (i : ℕ) (o : Object), s.objects[i]? = some o ∧ o.isOpen = true ∧ o.signal = signal
  /-- Two open objects have two signals. -/
  unique : ∀ (i j : ℕ) (o o' : Object), s.objects[i]? = some o → s.objects[j]? = some o' →
    o.isOpen = true → o'.isOpen = true → o.signal = o'.signal → i = j
  /-- The signals of the open objects are blocked. -/
  blocked : ∀ signal, s.handlers signal = true → Y.blockable signal = true →
    s.blocked signal = true
  /-- What is pending is blocked. -/
  pending : ∀ signal, s.pending signal ≠ [] → s.blocked signal = true
  /-- What is pending has its number. -/
  signo : ∀ signal, ∀ info ∈ s.pending signal, info.signo = signal
  /-- A signal that is not read by an object has none. -/
  interrupted : ∀ d ∈ s.deliveries, d.object = none → Y.blockable d.info.signo = true →
    d.handled = false
  /-- A signal that is read by an object is its signal. -/
  owner : ∀ d ∈ s.deliveries, ∀ i, d.object = some i →
    d.handled = true ∧ ∃ o, s.objects[i]? = some o ∧ o.signal = d.info.signo

namespace Owned

variable {Y : Signals} {s : State}

/-- No signal arrived yet, and there is no object. -/
lemma start (Y : Signals) (blocked : Int32 → Bool) : Owned Y { blocked } where
  handlers signal := by simp
  unique i j o o' h := by simp at h
  blocked signal h := by simp at h
  pending signal h := absurd rfl h
  signo signal info h := absurd h List.not_mem_nil
  interrupted d h := absurd h List.not_mem_nil
  owner d h := absurd h List.not_mem_nil

/-- What is pending of a blocked signal may change. -/
lemma setPending (h : Owned Y s) {signal : Int32} {l : List SignalInfo}
    (hblocked : l ≠ [] → s.blocked signal = true) (hl : ∀ info ∈ l, info.signo = signal) :
    Owned Y (s.setPending signal l) := by
  refine ⟨h.handlers, h.unique, h.blocked, fun signal' hne => ?_, fun signal' info hi => ?_,
    h.interrupted, h.owner⟩
  · rw [State.pending_setPending] at hne
    split_ifs at hne with heq
    · rw [heq]
      exact hblocked hne
    · exact h.pending signal' hne
  · rw [State.pending_setPending] at hi
    split_ifs at hi with heq
    · rw [heq]
      exact hl info hi
    · exact h.signo signal' info hi

/-- The disposition takes signals that no object has. -/
lemma deliver (h : Owned Y s) {l : List Delivery}
    (hl : ∀ d ∈ l, d.object = none ∧ (Y.blockable d.info.signo = true → d.handled = false)) :
    Owned Y (s.deliver l) := by
  refine ⟨h.handlers, h.unique, h.blocked, h.pending, h.signo, fun d hd hobject => ?_,
    fun d hd i hi => ?_⟩
  · exact (List.mem_append.mp hd).elim (fun hd => h.interrupted d hd hobject) fun hd => (hl d hd).2
  · rcases List.mem_append.mp hd with hd | hd
    · exact h.owner d hd i hi
    · rw [(hl d hd).1] at hi
      cases hi

lemma arrive (h : Owned Y s) (info : SignalInfo) : Owned Y (s.arrive Y info) := by
  have harrived : Owned Y { s with arrived := s.arrived ++ [info] } :=
    ⟨h.handlers, h.unique, h.blocked, h.pending, h.signo, h.interrupted, h.owner⟩
  rw [State.arrive]
  dsimp only
  split_ifs with hblocked
  · refine harrived.setPending (fun _ => hblocked) fun i hi => ?_
    rcases List.mem_append.mp hi with hi | hi
    · exact h.signo _ i hi
    · rw [List.mem_singleton.mp hi]
  · exact harrived
  · refine harrived.deliver fun d hd => ?_
    rw [List.mem_singleton.mp hd]
    exact ⟨rfl, fun hblockable => Bool.eq_false_iff.mpr fun hhandled =>
      hblocked (h.blocked _ hhandled hblockable)⟩

/-- The mask only changes for a signal that no object has, or to block it. -/
lemma setBlocked (h : Owned Y s) {signal : Int32} {value : Bool}
    (hhandled : s.handlers signal = true → Y.blockable signal = true → value = true)
    (hpending : s.pending signal ≠ [] → value = true) : Owned Y (s.setBlocked signal value) := by
  refine ⟨h.handlers, h.unique, fun signal' hh hb => ?_, fun signal' hne => ?_, h.signo,
    h.interrupted, h.owner⟩
  all_goals
    rw [State.blocked_setBlocked]
    split_ifs with heq
  · rw [heq] at hh hb
    exact hhandled hh hb
  · exact h.blocked signal' hh hb
  · rw [heq] at hne
    exact hpending hne
  · exact h.pending signal' hne

lemma block (h : Owned Y s) (signal : Int32) : Owned Y (s.block Y signal) :=
  h.setBlocked (fun _ hblockable => by rw [hblockable, Bool.true_or])
    fun hne => by rw [h.pending signal hne, Bool.or_true]

/-- A signal that no object has may be unblocked. -/
lemma unblock (h : Owned Y s) {signal : Int32} (hsignal : s.handlers signal = false) :
    Owned Y (s.unblock signal) := by
  have hempty : Owned Y (s.setPending signal []) :=
    h.setPending (fun hne => absurd rfl hne) fun _ hi => absurd hi List.not_mem_nil
  have hunblocked : Owned Y ((s.setPending signal []).setBlocked signal false) :=
    hempty.setBlocked (fun hh => absurd (hsignal.symm.trans hh) Bool.false_ne_true)
      fun hne => absurd ((State.pending_setPending ..).trans (if_pos rfl)) hne
  refine Owned.deliver hunblocked fun d hd => ?_
  obtain ⟨info, -, rfl⟩ := List.mem_map.mp hd
  exact ⟨rfl, fun _ => hsignal⟩

/-- An object keeps its signal, and whether it is open. -/
lemma setObject (h : Owned Y s) {i : ℕ} {o o' : Object} (hi : s.objects[i]? = some o)
    (hsignal : o'.signal = o.signal) (hopen : o'.isOpen = o.isOpen) :
    Owned Y (s.setObject i o') := by
  -- each object is there before, with the same signal
  have hback : ∀ (j : ℕ) (p' : Object), (s.setObject i o').objects[j]? = some p' →
      ∃ p, s.objects[j]? = some p ∧ p'.signal = p.signal ∧ p'.isOpen = p.isOpen := by
    intro j p' hj
    rw [s.objects_setObject hi] at hj
    split_ifs at hj with heq
    · cases hj
      exact ⟨o, heq ▸ hi, hsignal, hopen⟩
    · exact ⟨p', hj, rfl, rfl⟩
  have hforth : ∀ (j : ℕ) (p : Object), s.objects[j]? = some p →
      ∃ p', (s.setObject i o').objects[j]? = some p' ∧ p'.signal = p.signal ∧
        p'.isOpen = p.isOpen := by
    intro j p hj
    rw [s.objects_setObject hi]
    split_ifs with heq
    · subst heq
      cases hi.symm.trans hj
      exact ⟨o', rfl, hsignal, hopen⟩
    · exact ⟨p, hj, rfl, rfl⟩
  refine ⟨fun signal => (h.handlers signal).trans ⟨?_, ?_⟩, fun j k p p' hj hk hp hp' heq => ?_,
    h.blocked, h.pending, h.signo, h.interrupted, fun d hd j hj => ?_⟩
  · rintro ⟨j, p, hj, hp, rfl⟩
    obtain ⟨p', hj', hsame, hsame'⟩ := hforth j p hj
    exact ⟨j, p', hj', hsame'.trans hp, hsame⟩
  · rintro ⟨j, p', hj, hp, rfl⟩
    obtain ⟨p, hj', hsame, hsame'⟩ := hback j p' hj
    exact ⟨j, p, hj', hsame'.symm.trans hp, hsame.symm⟩
  · obtain ⟨q, hj, hq, hqo⟩ := hback j p hj
    obtain ⟨q', hk, hq', hqo'⟩ := hback k p' hk
    exact h.unique j k q q' hj hk (hqo ▸ hp) (hqo' ▸ hp') (by rw [← hq, ← hq', heq])
  · obtain ⟨hhandled, p, hp, hsame⟩ := h.owner d hd j hj
    obtain ⟨p', hp', hsame', -⟩ := hforth j p hp
    exact ⟨hhandled, p', hp', hsame'.trans hsame⟩

/-- An object is closed. -/
lemma closed (h : Owned Y s) {i : ℕ} {o : Object} (hi : s.objects[i]? = some o)
    (hopen : o.isOpen = true) :
    Owned Y ((s.setObject i { o with isOpen := false }).setHandler o.signal false) := by
  have hobjects : ∀ (j : ℕ) (p : Object),
      ((s.setObject i { o with isOpen := false }).setHandler o.signal false).objects[j]? =
        some p → p.isOpen = true → j ≠ i ∧ s.objects[j]? = some p := by
    intro j p hj hp
    change (s.setObject i { o with isOpen := false }).objects[j]? = some p at hj
    rw [s.objects_setObject hi] at hj
    split_ifs at hj with heq
    · cases hj
      cases hp
    · exact ⟨heq, hj⟩
  refine ⟨fun signal => ?_, fun j k p p' hj hk hp hp' => ?_, fun signal hh => ?_, h.pending,
    h.signo, h.interrupted, fun d hd j hj => ?_⟩
  · rw [State.handlers_setHandler]
    split_ifs with heq
    · -- no other object has this signal
      refine iff_of_false (by simp) ?_
      rintro ⟨j, p, hj, hp, hsignal⟩
      obtain ⟨hne, hj⟩ := hobjects j p hj hp
      exact hne (h.unique j i p o hj hi hp hopen (hsignal.trans heq))
    · refine (h.handlers signal).trans ⟨?_, ?_⟩
      · rintro ⟨j, p, hj, hp, rfl⟩
        refine ⟨j, p, (s.objects_setObject hi _ j).trans ?_, hp, rfl⟩
        rw [if_neg ?_, hj]
        rintro rfl
        cases hi.symm.trans hj
        exact heq rfl
      · rintro ⟨j, p, hj, hp, rfl⟩
        exact ⟨j, p, (hobjects j p hj hp).2, hp, rfl⟩
  · exact h.unique j k p p' (hobjects j p hj hp).2 (hobjects k p' hk hp').2 hp hp'
  · rw [State.handlers_setHandler] at hh
    split_ifs at hh
    exact h.blocked signal hh
  · obtain ⟨hhandled, p, hp, hsignal⟩ := h.owner d hd j hj
    refine ⟨hhandled, ?_⟩
    change ∃ o', (s.setObject i { o with isOpen := false }).objects[j]? = some o' ∧ _
    rw [s.objects_setObject hi]
    split_ifs with heq
    · subst heq
      cases hi.symm.trans hp
      exact ⟨_, rfl, hsignal⟩
    · exact ⟨p, hp, hsignal⟩

/-- An object is created for a signal that no other has. -/
lemma opened (h : Owned Y s) {signal : Int32} (hfree : s.handlers signal = false)
    (hblocked : Y.blockable signal = true → s.blocked signal = true) :
    Owned Y (State.setHandler { s with objects := s.objects ++ [{ signal }] } signal true) := by
  have hobjects : ∀ (j : ℕ) (p : Object), (s.objects ++ [({ signal } : Object)])[j]? = some p ↔
      s.objects[j]? = some p ∨ (j = s.objects.length ∧ p = { signal }) := by
    intro j p
    rw [List.getElem?_append]
    split_ifs with hlt
    · exact (or_iff_left fun heq => absurd heq.1 hlt.ne).symm
    · rw [List.getElem?_eq_none (not_lt.mp hlt), List.getElem?_singleton]
      split_ifs with hzero
      · have : j = s.objects.length := by omega
        simp [this, eq_comm]
      · have : j ≠ s.objects.length := by omega
        simp [this]
  have hother : ∀ (j : ℕ) (p : Object), s.objects[j]? = some p → p.isOpen = true →
      p.signal ≠ signal := by
    rintro j p hj hp rfl
    exact Bool.false_ne_true (hfree.symm.trans ((h.handlers _).mpr ⟨j, p, hj, hp, rfl⟩))
  refine ⟨fun signal' => ?_, fun j k p p' hj hk hp hp' heq => ?_, fun signal' hh hb => ?_,
    h.pending, h.signo, h.interrupted, fun d hd j hj => ?_⟩
  · rw [State.handlers_setHandler]
    change _ ↔ ∃ (j : ℕ) (p : Object), (s.objects ++ [({ signal } : Object)])[j]? = some p ∧ _
    simp only [hobjects]
    split_ifs with heq
    · exact iff_of_true rfl ⟨s.objects.length, { signal }, .inr ⟨rfl, rfl⟩, rfl, heq.symm⟩
    · refine (h.handlers signal').trans ⟨?_, ?_⟩
      · rintro ⟨j, p, hj, hp, rfl⟩
        exact ⟨j, p, .inl hj, hp, rfl⟩
      · rintro ⟨j, p, hj | ⟨-, rfl⟩, hp, rfl⟩
        · exact ⟨j, p, hj, hp, rfl⟩
        · exact absurd rfl heq
  · rcases (hobjects j p).mp hj with hj | ⟨rfl, rfl⟩
    · rcases (hobjects k p').mp hk with hk | ⟨-, rfl⟩
      · exact h.unique j k p p' hj hk hp hp' heq
      · exact absurd heq (hother j p hj hp)
    · rcases (hobjects k p').mp hk with hk | ⟨rfl, -⟩
      · exact absurd heq.symm (hother k p' hk hp')
      · rfl
  · rw [State.handlers_setHandler] at hh
    split_ifs at hh with heq
    · rw [heq] at hb ⊢
      exact hblocked hb
    · exact h.blocked signal' hh hb
  · obtain ⟨hhandled, p, hp, hsignal⟩ := h.owner d hd j hj
    exact ⟨hhandled, p, (hobjects j p).mpr (.inl hp), hsignal⟩

/-! ### The functions -/

lemma construct (h : Owned Y s) (signal : Int32) (threads : ℕ) (blocks : Bool)
    (signalfd : Option (Int32 × Str)) :
    Owned Y (s.construct Y signal threads blocks signalfd).2 := by
  rw [State.construct]
  by_cases hfree : s.handlers signal = true
  · rw [if_pos hfree]
    exact h
  · rw [if_neg hfree]
    rw [Bool.not_eq_true] at hfree
    have hblock := h.block signal
    split_ifs
    · exact h
    · cases signalfd with
      | some error => exact hblock.unblock hfree
      | none =>
        refine hblock.opened hfree fun hblockable => ?_
        rw [State.block, State.blocked_setBlocked, if_pos rfl, hblockable, Bool.true_or]
    · exact h
    · exact h

lemma close (h : Owned Y s) (i : ℕ) : Owned Y (s.close i) := by
  rw [State.close]
  split
  · exact h
  · rename_i o hi
    split_ifs with hopen hunblock
    · refine (h.closed hi hopen).unblock ?_
      rw [State.handlers_setHandler, if_pos rfl]
    · exact h.closed hi hopen
    · exact h

lemma unblockSignalOnDestruction (h : Owned Y s) (i : ℕ) :
    Owned Y (s.unblockSignalOnDestruction i) := by
  rw [State.unblockSignalOnDestruction]
  split
  · exact h
  · rename_i o hi
    exact h.setObject hi rfl rfl

lemma read (h : Owned Y s) {i : ℕ} {s' : State} (hread : s.read i = some s') : Owned Y s' := by
  obtain ⟨o, info, rest, hi, hopen, hpending, rfl⟩ := State.read_eq_some_iff.mp hread
  have hhandled : s.handlers o.signal = true := (h.handlers _).mpr ⟨i, o, hi, hopen, rfl⟩
  have hsigno := h.signo o.signal
  rw [hpending] at hsigno
  have hobject : Owned Y (s.setObject i { o with info }) := h.setObject hi rfl rfl
  have hrest : Owned Y ((s.setObject i { o with info }).setPending o.signal rest) :=
    hobject.setPending (fun _ => h.pending _ (by rw [hpending]; exact List.cons_ne_nil _ _))
      fun info hi => hsigno info (List.mem_cons_of_mem _ hi)
  refine ⟨hrest.handlers, hrest.unique, hrest.blocked, hrest.pending, hrest.signo,
    fun d hd hnone => ?_, fun d hd j hj => ?_⟩
  · rcases List.mem_append.mp hd with hd | hd
    · exact h.interrupted d hd hnone
    · rw [List.mem_singleton.mp hd] at hnone
      cases hnone
  · rcases List.mem_append.mp hd with hd | hd
    · exact hrest.owner d hd j hj
    · obtain rfl := List.mem_singleton.mp hd
      cases hj
      refine ⟨hhandled, { o with info }, (s.objects_setObject hi _ i).trans (if_pos rfl), ?_⟩
      exact (hsigno info List.mem_cons_self).symm

lemma drain (h : Owned Y s) (i n : ℕ) : Owned Y (s.drain i n) := by
  induction n generalizing s with
  | zero => exact h
  | succ n ih =>
    rw [State.drain]
    split
    · exact h
    · rename_i s' hread
      exact ih (h.read hread)

mutual

/-- **Every action keeps the objects**, whatever its callbacks do. -/
lemma step {s : State} (h : Owned Y s) : (a : Action) → Owned Y (Signal.step Y s a)
  | .arrive info => by
    rw [Signal.step]
    exact h.arrive info
  | .construct signal threads blocks signalfd => by
    rw [Signal.step]
    exact h.construct signal threads blocks signalfd
  | .close i => by
    rw [Signal.step]
    exact h.close i
  | .unblockSignalOnDestruction i => by
    rw [Signal.step]
    exact h.unblockSignalOnDestruction i
  | .process i callbacks fails => by
    rw [Signal.step]
    exact h.process i fails callbacks

lemma steps {s : State} (h : Owned Y s) :
    (actions : List Action) → Owned Y (Signal.steps Y s actions)
  | [] => by
    rw [Signal.steps]
    exact h
  | a :: actions => by
    rw [Signal.steps]
    exact (h.step a).steps actions

lemma process {s : State} (h : Owned Y s) (i : ℕ) (fails : Bool) :
    (callbacks : List (List Action)) → Owned Y (Signal.process Y i fails s callbacks)
  | [] => by
    rw [Signal.process]
    split_ifs
    · exact h
    · exact h.drain i _
  | callback :: callbacks => by
    rw [Signal.process]
    split
    · exact h
    · rename_i s' hread
      exact ((h.read hread).steps callback).process i fails callbacks

end

end Owned

/-- **One object for each signal**, in any run: the set lists the signals of the open objects, the
constructor refuses a signal exactly when an object is open for it, and while an object is open its
signal is blocked and reaches the program through this object. -/
theorem owned_runFrom (Y : Signals) (blocked : Int32 → Bool) (actions : List Action) :
    let s := runFrom (step Y) { blocked } actions
    Owned Y s ∧ ∀ signal threads blocks signalfd,
      (s.construct Y signal threads blocks signalfd).1 =
          .error ⟨.initializationError, State.sameText⟩ ↔
        ∃ (i : ℕ) (o : Object), s.objects[i]? = some o ∧ o.isOpen = true ∧ o.signal = signal := by
  have howned : Owned Y (runFrom (step Y) { blocked } actions) :=
    invariant_of_runFrom (fun _ a h => h.step a) (.start Y blocked) actions
  refine ⟨howned, fun signal threads blocks signalfd => ?_⟩
  rw [← howned.handlers signal, State.construct]
  split_ifs with hhandled
  · exact iff_of_true rfl hhandled
  all_goals refine iff_of_false ?_ hhandled
  · exact fun h => State.text_ne_sameText.1 (congrArg Thrown.what (Except.error.inj h))
  · cases signalfd <;> simp
  · simp
  · exact fun h => State.text_ne_sameText.2 (congrArg Thrown.what (Except.error.inj h))

end EventDispatcher.Signal
