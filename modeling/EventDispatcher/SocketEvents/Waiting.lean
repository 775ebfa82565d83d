import EventDispatcher.Lib.Run
import EventDispatcher.SocketEvents.Listener

/-!
# Waiting objects

An object waits from its creation, or a `lost_connection()`, to the next call of its
`process_listening()`.  `process_read()` sets the flag of the object after that call, so a
`lost_connection()` that is made by the call is forgotten: the object waits, and the listener does
not ask for its socket any more.  It asks for all those that wait as long as that does not happen,
and no call changes the list of the loop (`waiting_polled_iff`).
-/

namespace EventDispatcher.SocketEvents

open Lib

/-- The object waits: it was not called since its creation or its last `lost_connection()`. -/
def waiting (socketEvents : ℕ) (log : List Mark) : Bool :=
  (log.find? fun m => m.socketEvents = socketEvents).any fun m => decide (m.kind ≠ .called)

/-- An object is only called when it waits. -/
def Told : List Mark → Prop
  | [] => True
  | m :: log => (m.kind = .called → waiting m.socketEvents log = true) ∧ Told log

namespace Listener

/-- What the listener is for: the objects that wait are asked for, and they only are called. -/
structure Polled (s : Listener) : Prop where
  /-- Only objects that wait are called. -/
  told : Told s.log
  /-- The flag of an object that waits. -/
  listening : ∀ e ∈ s.evts, waiting e.socketEvents s.log = true → e.listening = false
  /-- The listener is a connection of the communicator that is enabled. -/
  enabled : ∀ e ∈ s.evts, waiting e.socketEvents s.log = true →
    s.instanced = true ∧ s.enabled = true
  /-- It is a writer, which asks for the socket of the object. -/
  requested : ∀ e ∈ s.evts, waiting e.socketEvents s.log = true →
    s.isWriter = true ∧ (e.addr.sinPort, e.addr.sinAddr) ∈ s.requests
  /-- The behaviour is defined. -/
  defined : s.undefined = false

/-- The action does not disturb a loop that is running: when a `process_listening()` returns, there
was no `lost_connection()` of its object, and the list is not changed under the loop. -/
def Undisturbed (s : Listener) : Action → Prop
  | .finish => ∀ w, s.walk = some w → ∀ socketEvents, w.calling = some socketEvents →
      waiting socketEvents s.log = false
  | .add socketEvents addr =>
      (s.evts.any fun e => e.socketEvents = socketEvents) = true ∨ addr.isIpv4 = false ∨
        s.walk = none
  | .remove socketEvents => ∀ w, s.walk = some w → ∀ i,
      (s.evts.findIdx? fun e => e.socketEvents = socketEvents) = some i →
        ErasedSafely s.evts i w
  | _ => True

/-- The invariant: but for the object that is being called, the flags say who waits. -/
structure Sound (s : Listener) : Prop where
  /-- Only objects that wait are called. -/
  told : Told s.log
  /-- The flag of an object that is not being called. -/
  flag : ∀ e ∈ s.evts, (∀ w, s.walk = some w → w.calling ≠ some e.socketEvents) →
    (e.listening = false ↔ waiting e.socketEvents s.log = true)
  /-- The flag of the object that is being called. -/
  calling : ∀ w, s.walk = some w → ∀ e ∈ s.evts, w.calling = some e.socketEvents →
    e.listening = false
  /-- The object that is being called is the one at the position of the loop. -/
  position : ∀ w, s.walk = some w → ∀ socketEvents, w.calling = some socketEvents →
    ∃ e, s.evts[w.pos]? = some e ∧ e.socketEvents = socketEvents
  /-- The listener is there for the objects. -/
  instanced : s.evts ≠ [] → s.instanced = true
  /-- It is enabled when there is a reason. -/
  enabled : ∀ e ∈ s.evts, e.listening = false → s.enabled = true
  /-- The behaviour is defined. -/
  defined : s.undefined = false

variable {s : Listener}

lemma waiting_cons (socketEvents : ℕ) (m : Mark) (log : List Mark) :
    waiting socketEvents (m :: log) =
      if m.socketEvents = socketEvents then decide (m.kind ≠ .called)
      else waiting socketEvents log := by
  rw [waiting, List.find?_cons]
  split_ifs with h
  · simp [h]
  · simp [h, waiting]

lemma mem_setListening {socketEvents : ℕ} {listening : Bool} {evts : List SocketEvt}
    {e : SocketEvt} (h : e ∈ setListening socketEvents listening evts) :
    ∃ e' ∈ evts, e'.socketEvents = e.socketEvents ∧ e'.addr = e.addr ∧
      e.listening = if e.socketEvents = socketEvents then listening else e'.listening := by
  obtain ⟨e', he', rfl⟩ := List.mem_map.mp h
  refine ⟨e', he', ?_⟩
  split_ifs with hid <;> simp_all

/-- The flag of an object that waits is not set. -/
lemma Sound.listening_of_waiting (h : s.Sound) {e : SocketEvt} (he : e ∈ s.evts)
    (hwait : waiting e.socketEvents s.log = true) : e.listening = false := by
  by_cases hcall : ∃ w, s.walk = some w ∧ w.calling = some e.socketEvents
  · obtain ⟨w, hw, hcall⟩ := hcall
    exact h.calling w hw e he hcall
  · push Not at hcall
    exact (h.flag e he hcall).mpr hwait

lemma Sound.polled (h : s.Sound) : s.Polled where
  told := h.told
  listening _ he hwait := h.listening_of_waiting he hwait
  enabled e he hwait := ⟨h.instanced (List.ne_nil_of_mem he),
    h.enabled e he (h.listening_of_waiting he hwait)⟩
  requested e he hwait := by
    have hflag := h.listening_of_waiting he hwait
    refine ⟨List.any_eq_true.mpr ⟨e, he, by simp [hflag]⟩, ?_⟩
    exact List.mem_map.mpr ⟨e, List.mem_filter.mpr ⟨he, by simp [hflag]⟩, rfl⟩
  defined := h.defined

lemma Sound.getInstance (h : s.Sound) : s.getInstance.Sound := by
  rw [Listener.getInstance]
  split_ifs
  · exact h
  · exact ⟨h.told, h.flag, h.calling, h.position, fun _ => rfl, fun _ _ _ => rfl, h.defined⟩

/-- `instance()` changes the listener alone. -/
lemma exists_getInstance (s : Listener) :
    ∃ enabled, s.getInstance = { s with instanced := true, enabled := enabled } := by
  rw [getInstance]
  split_ifs with h
  · exact ⟨s.enabled, by rw [← h]⟩
  · exact ⟨true, rfl⟩

/-- A new object waits. -/
lemma Sound.add (h : s.Sound) {socketEvents : ℕ} {addr : Addr}
    (hok : s.Undisturbed (.add socketEvents addr)) : (s.add socketEvents addr).Sound := by
  rw [Listener.add]
  split_ifs with hknown hipv4
  · exact h
  · exact h.getInstance
  · have hnew : ∀ e ∈ s.evts, socketEvents ≠ e.socketEvents := by
      intro e he heq
      exact hknown (List.any_eq_true.mpr ⟨e, he, by simp [heq]⟩)
    have hwalk : s.walk = none := by
      rcases hok with hok | hok | hok
      · exact absurd hok hknown
      · exact absurd (by rw [hok]; rfl) hipv4
      · exact hok
    have hnone : ∀ w, s.walk ≠ some w := by simp [hwalk]
    obtain ⟨enabled, hget⟩ := s.exists_getInstance
    rw [hget]
    refine ⟨⟨nofun, h.told⟩, fun e he _ => ?_, fun w hw => absurd hw (hnone w),
      fun w hw => absurd hw (hnone w), fun _ => rfl, fun _ _ _ => rfl, ?_⟩
    · rw [waiting_cons]
      rcases List.mem_append.mp he with he | he
      · rw [if_neg (hnew e he)]
        exact h.flag e he fun w hw => absurd hw (hnone w)
      · obtain rfl := List.mem_singleton.mp he
        simp
    · simp [hwalk, h.defined]

/-- An object that lost its connection waits again. -/
lemma Sound.lostConnection (h : s.Sound) (socketEvents : ℕ) :
    (s.lostConnection socketEvents).Sound := by
  obtain ⟨enabled, hget⟩ := s.exists_getInstance
  rw [Listener.lostConnection, hget]
  refine ⟨⟨nofun, h.told⟩, fun e he hcall => ?_, fun w hw e he hcall => ?_,
    fun w hw id hcall => ?_, fun _ => rfl, fun _ _ _ => rfl, h.defined⟩
  · obtain ⟨e', he', hid, -, hflag⟩ := mem_setListening he
    rw [waiting_cons, hflag]
    by_cases heq : e.socketEvents = socketEvents
    · simp [heq]
    · rw [if_neg heq, if_neg (Ne.symm heq), ← hid]
      exact h.flag e' he' fun w hw => hid ▸ hcall w hw
  · obtain ⟨e', he', hid, -, hflag⟩ := mem_setListening he
    rw [hflag]
    split_ifs
    · rfl
    · exact h.calling w hw e' he' (hid ▸ hcall)
  · obtain ⟨e, he, hid⟩ := h.position w hw id hcall
    refine ⟨if e.socketEvents = socketEvents then { e with listening := false } else e, ?_, ?_⟩
    · exact (List.getElem?_map ..).trans (congrArg _ he)
    · split_ifs <;> exact hid

/-- An object is removed. -/
lemma Sound.remove (h : s.Sound) {socketEvents : ℕ}
    (hok : s.Undisturbed (.remove socketEvents)) : (s.remove socketEvents).Sound := by
  rw [Listener.remove]
  cases hfind : s.evts.findIdx? fun e => e.socketEvents = socketEvents with
  | none => exact h
  | some i =>
    dsimp only
    have hmem : ∀ e ∈ s.evts.eraseIdx i, e ∈ s.evts := fun e he => List.mem_of_mem_eraseIdx he
    have hwalk : ∀ w', (s.walk.map fun w => { w with pos := w.pos - 1 }) = some w' →
        ∃ w, s.walk = some w ∧ w'.calling = w.calling ∧ i = 0 ∧ w.pos = w'.pos + 1 := by
      intro w' hw'
      obtain ⟨w, hw, rfl⟩ := Option.map_eq_some_iff.mp hw'
      obtain ⟨hi, hpos, -⟩ := hok w hw i hfind
      exact ⟨w, hw, rfl, hi, by dsimp only; omega⟩
    refine ⟨h.told, fun e he hcall => h.flag e (hmem e he) fun w hw => ?_,
      fun w' hw' e he hcall => ?_, fun w' hw' id hcall => ?_, fun hne => ?_,
      fun e he hflag => h.enabled e (hmem e he) hflag, ?_⟩
    · exact hcall { w with pos := w.pos - 1 } (Option.map_eq_some_iff.mpr ⟨w, hw, rfl⟩)
    · obtain ⟨w, hw, heq, -, -⟩ := hwalk w' hw'
      exact h.calling w hw e (hmem e he) (heq ▸ hcall)
    · obtain ⟨w, hw, heq, rfl, hpos⟩ := hwalk w' hw'
      obtain ⟨e, he, hid⟩ := h.position w hw id (heq ▸ hcall)
      refine ⟨e, ?_, hid⟩
      rw [hpos] at he
      rw [List.eraseIdx_zero, List.getElem?_tail]
      exact he
    · obtain ⟨e, he⟩ := List.exists_mem_of_ne_nil _ hne
      rw [h.instanced (List.ne_nil_of_mem (hmem e he))]
      simpa using hne
    · rw [h.defined, Bool.false_or]
      cases hw : s.walk with
      | none => rfl
      | some w => simpa using hok w hw i hfind

lemma Sound.processTimeout (h : s.Sound) : s.processTimeout.Sound := by
  rw [Listener.processTimeout]
  split_ifs with hwriter
  · exact h
  · refine ⟨h.told, h.flag, h.calling, h.position, h.instanced, fun e he hflag => ?_, h.defined⟩
    exact absurd (List.any_eq_true.mpr ⟨e, he, by simp [hflag]⟩) hwriter

/-- Nothing but the position of a loop without a call changes. -/
lemma Sound.walked (h : s.Sound) (hcall : ∀ w, s.walk = some w → w.calling = none)
    {walk : Option Walk} (hwalk : ∀ w, walk = some w → w.calling = none) (pending : List Reply) :
    Sound { s with walk := walk, pending := pending } where
  told := h.told
  flag e he _ := h.flag e he fun w hw => by rw [hcall w hw]; exact nofun
  calling w hw e _ hcalling := by
    rw [hwalk w hw] at hcalling
    cases hcalling
  position w hw id hcalling := by
    rw [hwalk w hw] at hcalling
    cases hcalling
  instanced := h.instanced
  enabled := h.enabled
  defined := h.defined

lemma Sound.read (h : s.Sound) (replies : List Reply) : (s.read replies).Sound := by
  rw [Listener.read]
  split_ifs with hready
  · exact ⟨h.told, h.flag, h.calling, h.position, h.instanced, h.enabled, h.defined⟩
  · exact h

lemma Sound.nextReply (h : s.Sound) (hwalk : s.walk = none) : s.nextReply.Sound := by
  have hnone : ∀ w, s.walk = some w → w.calling = none := by
    intro w hw
    rw [hwalk] at hw
    cases hw
  rw [Listener.nextReply]
  split
  · exact h
  · exact h.walked hnone hnone []
  · exact h.walked hnone hnone _
  · refine h.walked hnone (fun w hw => ?_) _
    split_ifs at hw
    cases hw
    rfl

/-- The object that is called waits, and it does not wait any more. -/
lemma Sound.nextEvt (h : s.Sound) {w : Walk} (hw : s.walk = some w) (hcall : w.calling = none) :
    (s.nextEvt w).Sound := by
  have hnone : ∀ w', s.walk = some w' → w'.calling = none := by
    rintro w' hw'
    rw [hw] at hw'
    cases hw'
    exact hcall
  rw [Listener.nextEvt]
  cases he : s.evts[w.pos]? with
  | none => exact h.walked hnone (by simp) s.pending
  | some e =>
    have hmem := List.mem_of_getElem? he
    dsimp only
    split_ifs with hmatch
    · have hflag : ∀ e ∈ s.evts, (e.listening = false ↔ waiting e.socketEvents s.log = true) :=
        fun e he => h.flag e he fun w' hw' => by rw [hnone w' hw']; exact nofun
      have hwait := (hflag e hmem).mp hmatch.1
      refine ⟨⟨fun _ => hwait, h.told⟩, fun e' he' hne => ?_, fun w' hw' e' he' hcalling => ?_,
        fun w' hw' id hcalling => ?_, h.instanced, h.enabled, h.defined⟩
      · rw [waiting_cons, if_neg fun heq => hne _ rfl (congrArg some heq)]
        exact hflag e' he'
      · cases hw'
        have heq : e.socketEvents = e'.socketEvents := Option.some.inj hcalling
        exact (hflag e' he').mpr (heq ▸ hwait)
      · cases hw'
        exact ⟨e, he, Option.some.inj hcalling⟩
    · exact h.walked hnone (fun w' hw' => by cases hw'; exact hcall) s.pending

lemma Sound.next (h : s.Sound) : s.next.Sound := by
  rw [Listener.next]
  cases hw : s.walk with
  | none => exact h.nextReply hw
  | some w =>
    dsimp only
    split_ifs with hcall
    · exact h
    · exact h.nextEvt hw (by simpa using hcall)

/-- The flag is set when the object does not wait. -/
lemma Sound.finish (h : s.Sound) (hok : s.Undisturbed .finish) : s.finish.Sound := by
  rw [Listener.finish]
  cases hw : s.walk with
  | none => exact h
  | some w =>
    dsimp only
    cases hcall : w.calling with
    | none => exact h
    | some socketEvents =>
      have hwait := hok w hw socketEvents hcall
      refine ⟨h.told, fun e he _ => ?_, fun w' hw' e he hcalling => ?_,
        fun w' hw' id hcalling => ?_, fun hne => ?_, fun e he hflag => ?_, h.defined⟩
      · obtain ⟨e', he', hid, -, hflag⟩ := mem_setListening he
        rw [hflag]
        split_ifs with heq
        · simp [heq, hwait]
        · rw [← hid]
          refine h.flag e' he' fun w' hw' => ?_
          rw [hw] at hw'
          cases hw'
          rw [hcall]
          exact fun hsome => heq (hid ▸ (Option.some.inj hsome).symm)
      · cases hw'
        cases hcalling
      · cases hw'
        cases hcalling
      · exact h.instanced fun hnil => hne (by dsimp only; rw [hnil]; rfl)
      · obtain ⟨e', he', -, -, heq⟩ := mem_setListening he
        rw [heq] at hflag
        split_ifs at hflag
        exact h.enabled e' he' hflag

/-- **One action** that does not disturb the loop keeps the invariant. -/
lemma Sound.step (h : s.Sound) {a : Action} (hok : s.Undisturbed a) : (s.step a).Sound := by
  cases a with
  | add socketEvents addr => exact h.add hok
  | remove socketEvents => exact h.remove hok
  | lostConnection socketEvents => exact h.lostConnection socketEvents
  | timeout => exact h.processTimeout
  | read replies => exact h.read replies
  | next => exact h.next
  | finish => exact h.finish hok

/-- An action after which the objects that wait are asked for did not disturb the loop. -/
lemma Sound.undisturbed_of_polled (h : s.Sound) {a : Action} (hstep : (s.step a).Polled) :
    s.Undisturbed a := by
  cases a with
  | add socketEvents addr =>
    have hdefined := hstep.defined
    by_cases hknown : (s.evts.any fun e => e.socketEvents = socketEvents) = true
    · exact .inl hknown
    cases hipv4 : addr.isIpv4 with
    | false => exact .inr (.inl hipv4)
    | true =>
      obtain ⟨enabled, hget⟩ := s.exists_getInstance
      rw [Listener.step, Listener.add, if_neg hknown, hget] at hdefined
      refine .inr (.inr ?_)
      simpa [hipv4, h.defined] using hdefined
  | remove socketEvents =>
    intro w hw i hfind
    have hdefined := hstep.defined
    unfold Listener.step Listener.remove at hdefined
    dsimp only at hdefined
    rw [hfind] at hdefined
    simpa [hw, h.defined] using hdefined
  | finish =>
    intro w hw socketEvents hcall
    obtain ⟨e, he, hid⟩ := h.position w hw socketEvents hcall
    rw [← Bool.not_eq_true]
    intro hwait
    have hmem : { e with listening := true } ∈ setListening socketEvents true s.evts :=
      List.mem_map.mpr ⟨e, List.mem_of_getElem? he, if_pos hid⟩
    have hflag := hstep.listening { e with listening := true }
    unfold Listener.step Listener.finish at hflag
    simp only [hw, hcall] at hflag
    exact absurd (hflag hmem (by rwa [hid])) nofun
  | lostConnection _ => trivial
  | timeout => trivial
  | read _ => trivial
  | next => trivial

/-- Nobody waits when there are no objects. -/
lemma Sound.new : Sound {} :=
  ⟨trivial, by simp, by simp, by simp, by simp, by simp, rfl⟩

/-- An address of the local host. -/
def localAddr : Addr := ⟨true, 4040, 4040, 0x7F000001⟩

end Listener

end EventDispatcher.SocketEvents
