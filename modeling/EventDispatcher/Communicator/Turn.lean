import EventDispatcher.Communicator.Setup

/-!
# What a turn can change

The turn of a connection runs callbacks, reads the clock and moves the date of a timer.  What is
kept by these three is kept by the turn (`serve_induction`).  None of them touches the positions
of the entries of `poll()` and the saved timestamps (`SameSaved`).
-/

namespace EventDispatcher

open Lib

namespace Communicator

variable {E : Type} {H : Host E}

/-! ### Rules for a turn -/

/-- What the callbacks of a connection keep, the processing of its events keeps. -/
lemma processEvents_induction {Q : Progress E → Prop} {c : ℕ}
    (hcall : ∀ p callback, Q p → Q (p.call H c callback)) (revents : UInt16) {p : Progress E}
    (hp : Q p) : Q (processEvents H c revents p) := by
  have hinput : ∀ p, Q p → Q (processInput H c p) := by
    intro p hp
    unfold processInput
    simp only
    split_ifs
    · exact hcall _ _ hp
    · exact hp
    · exact hcall _ _ hp
    · exact hcall _ _ hp
  have hif : ∀ {b : Prop} [Decidable b] {f : Progress E → Progress E} (p : Progress E),
      (∀ p, Q p → Q (f p)) → Q p → Q (if b then f p else p) := by
    intro b _ f p hf hp
    split_ifs
    · exact hf p hp
    · exact hp
  rw [processEvents]
  split
  · exact hif _ (fun p => hcall p .invalid) (hif _ (fun p => hcall p .hup)
      (hif _ (fun p => hcall p .error) (hif _ (fun p => hcall p .write) (hif _ hinput hp))))
  · exact hp

/-- What is kept by the callbacks, by a reading of the clock and by a tick, the timeout of a
connection keeps. -/
lemma processTimer_induction {Q : Progress E → Prop} {c : ℕ}
    (hcall : ∀ p callback, Q p → Q (p.call H c callback))
    (hclock : ∀ p outside, Q p → Q { p with state := { p.state with outside := outside } })
    (htick : ∀ p now tickNow outside, Q p → Q { p with state :=
      { p.state.update c ((p.state.heap c).tick now tickNow) with outside := outside } })
    {p : Progress E} (hp : Q p) : Q (processTimer H c p) := by
  rw [processTimer]
  split
  · exact hp
  · simp only
    split_ifs
    · exact hp
    · exact hcall _ _ (htick _ _ _ _ hp)
    · exact hclock _ _ hp

/-- What is kept by all three, the turn of a connection keeps. -/
lemma serve_induction {Q : Progress E → Prop} {c : ℕ}
    (hcall : ∀ p callback, Q p → Q (p.call H c callback))
    (hclock : ∀ p outside, Q p → Q { p with state := { p.state with outside := outside } })
    (htick : ∀ p now tickNow outside, Q p → Q { p with state :=
      { p.state.update c ((p.state.heap c).tick now tickNow) with outside := outside } })
    (fds : List PollFd) {s : Communicator E} (hs : Q { state := s }) :
    Q (serve H fds c s).2 := by
  rw [serve]
  refine processTimer_induction hcall hclock htick ?_
  split
  · exact hs
  · exact processEvents_induction hcall _ hs

/-! ### One call of a callback -/

/-- What a call leaves: a connection whose priority and saved fields are as they were, a priority
with the flag up, the list changed, the flag changed, or nothing. -/
inductive CallEffect (s : Communicator E) : UserCall → Communicator E → Prop
  /-- One connection changed. -/
  | connection {call : UserCall} {c : ℕ} {o : Connection} {outside : E} :
      o.priority = (s.heap c).priority → o.fdsPosition = (s.heap c).fdsPosition →
      o.savedTimeoutStamp = (s.heap c).savedTimeoutStamp →
      CallEffect s call { s.update c o with outside := outside }
  /-- A priority changed. -/
  | priority {c : ℕ} {priority : ℤ} : CallEffect s (.setPriority c priority)
      { s.update c { s.heap c with priority := priority } with forceSort := true }
  /-- A connection was added. -/
  | added {c : ℕ} : (s.heap c).validSocket = true →
      CallEffect s (.addConnection c) { s with connections := s.connections.push c }
  /-- A connection was removed. -/
  | removed {c : ℕ} :
      CallEffect s (.removeConnection c) { s with connections := s.connections.erase c }
  /-- The flag changed. -/
  | forced {status : Bool} :
      CallEffect s (.setForceSort status) { s with forceSort := status }
  /-- The call threw. -/
  | refused {call : UserCall} {outside : E} : CallEffect s call { s with outside := outside }

lemma callEffect_updateOk (s : Communicator E) (call : UserCall) (c : ℕ) (outside : E)
    {r : Except Exception Connection} (h : ∀ o, r = .ok o →
      o.priority = (s.heap c).priority ∧ o.fdsPosition = (s.heap c).fdsPosition ∧
        o.savedTimeoutStamp = (s.heap c).savedTimeoutStamp) :
    CallEffect s call { s.updateOk c r with outside := outside } := by
  cases r with
  | error e => exact .refused
  | ok o =>
    obtain ⟨hpriority, hposition, hsaved⟩ := h o rfl
    exact .connection hpriority hposition hsaved

lemma callEffect (s : Communicator E) (call : UserCall) :
    CallEffect s call (userCall H s call) := by
  cases call with
  | addConnection c =>
    unfold userCall addConnection
    simp only
    split
    · rename_i hsocket
      exact .added hsocket
    · exact .refused
  | removeConnection c => exact .removed
  | setForceSort status => exact .forced
  | setPriority c priority =>
    rw [userCall, setPriority, Connection.setPriority]
    simp only
    split_ifs
    · exact .refused
    · exact .priority
  | setEnable c enabled => exact .connection rfl rfl rfl
  | setTimeoutDelay c timeoutUs =>
    refine callEffect_updateOk s _ c _ fun o ho => ?_
    obtain ⟨start, next, rfl⟩ := Connection.exists_of_setTimeoutDelay ho
    exact ⟨rfl, rfl, rfl⟩
  | setTimeoutDate c dateUs =>
    show CallEffect s _ (s.updateOk c ((s.heap c).setTimeoutDate dateUs))
    cases ho : (s.heap c).setTimeoutDate dateUs with
    | error e => exact .refused
    | ok o =>
      rw [Connection.eq_of_setTimeoutDate ho]
      exact .connection rfl rfl rfl
  | calculateNextTick c =>
    have hkept : ∀ now, ((s.heap c).calculateNextTick now).priority = (s.heap c).priority ∧
        ((s.heap c).calculateNextTick now).fdsPosition = (s.heap c).fdsPosition ∧
        ((s.heap c).calculateNextTick now).savedTimeoutStamp = (s.heap c).savedTimeoutStamp := by
      intro now
      obtain ⟨next, hnext⟩ := (s.heap c).exists_calculateNextTick now
      rw [hnext]
      exact ⟨rfl, rfl, rfl⟩
    exact .connection (c := c) (hkept _).1 (hkept _).2.1 (hkept _).2.2
  | setEventSource c source => exact .connection rfl rfl rfl

/-! ### The saved fields -/

/-- The fields that only the setup of an iteration writes are the same. -/
def SameSaved (s s' : Communicator E) : Prop :=
  ∀ c, (s'.heap c).fdsPosition = (s.heap c).fdsPosition ∧
    (s'.heap c).savedTimeoutStamp = (s.heap c).savedTimeoutStamp

lemma SameSaved.refl (s : Communicator E) : s.SameSaved s := fun _ => ⟨rfl, rfl⟩

lemma SameSaved.trans {s₁ s₂ s₃ : Communicator E} (h₁ : s₁.SameSaved s₂)
    (h₂ : s₂.SameSaved s₃) : s₁.SameSaved s₃ :=
  fun c => ⟨(h₂ c).1.trans (h₁ c).1, (h₂ c).2.trans (h₁ c).2⟩

lemma sameSaved_update {s : Communicator E} {c : ℕ} {o : Connection}
    (hposition : o.fdsPosition = (s.heap c).fdsPosition)
    (hsaved : o.savedTimeoutStamp = (s.heap c).savedTimeoutStamp) :
    s.SameSaved (s.update c o) := by
  intro a
  by_cases h : a = c
  · subst h
    rw [heap_update_self]
    exact ⟨hposition, hsaved⟩
  · rw [heap_update_of_ne s h]
    exact ⟨rfl, rfl⟩

lemma sameSaved_tick (s : Communicator E) (c : ℕ) (now tickNow : Int64) :
    s.SameSaved (s.update c ((s.heap c).tick now tickNow)) := by
  obtain ⟨next, date, htick⟩ := (s.heap c).exists_tick now tickNow
  rw [htick]
  exact sameSaved_update rfl rfl

lemma CallEffect.sameSaved {s s' : Communicator E} {call : UserCall} (h : CallEffect s call s') :
    s.SameSaved s' := by
  cases h with
  | connection _ hposition hsaved => exact sameSaved_update hposition hsaved
  | priority => exact sameSaved_update rfl rfl
  | _ => exact .refl s

lemma sameSaved_userCalls (s : Communicator E) (calls : List UserCall) :
    s.SameSaved (runFrom (userCall H) s calls) := by
  induction calls generalizing s with
  | nil => exact .refl s
  | cons call calls ih => exact (callEffect s call).sameSaved.trans (ih _)

lemma sameSaved_call (p : Progress E) (c : ℕ) (callback : Callback) :
    p.state.SameSaved (p.call H c callback).state := by
  rw [Progress.call]
  split
  · exact .refl _
  · exact sameSaved_userCalls (H := H) _ _

/-- A turn does not write the saved fields. -/
theorem sameSaved_serve (fds : List PollFd) (c : ℕ) (s : Communicator E) :
    s.SameSaved (serve H fds c s).2.state :=
  serve_induction (Q := fun p => s.SameSaved p.state)
    (fun p callback hp => hp.trans (sameSaved_call p c callback))
    (fun _ _ hp => hp)
    (fun p now tickNow _ hp => hp.trans (sameSaved_tick p.state c now tickNow)) fds (.refl s)

end Communicator

end EventDispatcher
