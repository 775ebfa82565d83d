import EventDispatcher.CppProcess.Process
import EventDispatcher.Lib.Run

/-!
# The life of a process object

A process object is configured, started, told that its child died, and may be started again.
`start_process()` sets `f_running` and `child_done()` resets `f_child`; nothing resets `f_running`
or `f_prepared_output`.  So the object follows its child as long as no death is reported
(`follows_child_iff`).
-/

namespace EventDispatcher.CppProcess

open Lib

/-- An `io` object. -/
structure Io where
  /-- What `get_other_fd()` returns. -/
  otherFd : Descriptor
  /-- Whether it is an `io_pipe`, or else an `io_file`. -/
  isPipe : Bool
  /-- `IO_FLAG_INPUT` -/
  input : Bool
  /-- `IO_FLAG_OUTPUT` -/
  output : Bool
deriving DecidableEq, Repr

/-- `close_other()`: a pipe closes the end of the child, a file does nothing. -/
def Io.closeOther (io : Io) : Io := if io.isPipe then { io with otherFd := .invalid } else io

/-- What a call of `start_process()` did. -/
inductive Outcome where
  /-- The process is already running. -/
  | refused
  /-- The configuration is invalid. -/
  | thrown (e : Thrown)
  /-- `fork()` failed. -/
  | failed
  /-- There is a new child. -/
  | forked (pid : ℕ) (child : Execution)
deriving DecidableEq, Repr

/-- There is a new child. -/
def Outcome.isForked : Outcome → Bool
  | .forked _ _ => true
  | _ => false

/-- A call of `start()`, with what was so when it was made. -/
structure Start where
  /-- Whether there was a child whose death was not reported. -/
  alive : Bool
  /-- Whether the death of a child was reported before. -/
  ended : Bool
  /-- The configuration. -/
  fields : Fields
  /-- `f_next.size()` -/
  next : ℕ
  /-- The pipes that were created before. -/
  sys : System
  /-- What `start_process()` did. -/
  outcome : Outcome

/-- A process object, with what happened to its children. -/
structure Object where
  /-- The fields.  The descriptors of the `io` objects are those of the last start. -/
  fields : Fields := {}
  /-- `f_input` -/
  input : Option Io := none
  /-- `f_output` -/
  output : Option Io := none
  /-- `f_error` -/
  error : Option Io := none
  /-- `f_next.size()` -/
  next : ℕ := 0
  /-- `f_exit_code` -/
  exitCode : ℤ := -1
  /-- The system. -/
  sys : System := {}
  /-- The child that was forked, until its death is reported. -/
  alive : Option ℕ := none
  /-- Whether the death of a child was reported. -/
  ended : Bool := false
  /-- The calls of `start()`. -/
  starts : List Start := []
  /-- The signals that were sent. -/
  signals : List (ℕ × ℤ) := []

namespace Object

/-- The fields with the descriptors that the `io` objects have now. -/
def configured (o : Object) : Fields :=
  { o.fields with
    input := o.input.map Io.otherFd
    output := o.output.map Io.otherFd
    error := o.error.map Io.otherFd }

/-- `start_process()`, also when it throws. -/
def startProcess (fork : ℕ → Option ℕ) (fifo : Option Intermediate) (idx : ℕ) (o : Object) :
    Object × Outcome :=
  if o.fields.running then (o, .refused)
  else
    match o.configured.startProcess fork o.sys o.next fifo idx with
    | .error e =>
      -- what `prepare_input()` stored stays when `prepare_output()` throws
      ({ o with fields := (o.configured.prepareInput fifo).toOption.getD o.configured },
        .thrown e)
    | .ok (s, p, _) =>
      match p.child with
      | none => ({ o with sys := s, fields := p }, .failed)
      | some pid =>
        ({ o with
            sys := s
            fields := p
            input := o.input.map .closeOther
            output := o.output.map .closeOther
            error := o.error.map .closeOther
            alive := some pid },
          .forked pid (p.executeCommand idx))

/-- A call of `start()` is recorded, with what `start_process()` made of the object. -/
def recorded (o : Object) (r : Object × Outcome) : Object :=
  { r.1 with
    starts := r.1.starts ++ [⟨o.alive.isSome, o.ended, o.configured, o.next, o.sys, r.2⟩] }

/-- `forked()` of the intermediate pipe. -/
def intermediateForked (o : Object) : Object :=
  { o with fields := { o.fields with intermediate := o.fields.intermediate.map .forked } }

/-- `start()`.  `others` says whether the next processes were started: when they are not, or when
there is not one output for each of them, the intermediate pipe is left open. -/
def start (fork : ℕ → Option ℕ) (others : Bool) (o : Object) : Object :=
  let r := o.startProcess fork none 0
  let o' := o.recorded r
  if r.2.isForked ∧ others ∧ (o'.next = 0 ∨ o'.next = o'.fields.preparedOutput.length) then
    o'.intermediateForked
  else o'

/-- `kill()` -/
def kill (sig : ℤ) (o : Object) : Object :=
  match o.fields.child, o.fields.running with
  | some pid, true => { o with signals := o.signals ++ [(pid, sig)] }
  | _, _ => o

/-- `set_input_io()`: it throws when the object does not support input. -/
def setInputIo (io : Io) (o : Object) : Object :=
  if io.input then { o with input := some io } else o

/-- `set_output_io()` -/
def setOutputIo (io : Io) (o : Object) : Object :=
  if io.output then { o with output := some io } else o

/-- `set_error_io()` -/
def setErrorIo (io : Io) (o : Object) : Object :=
  if io.output then { o with error := some io } else o

/-- The public functions.  An `io` object that changes while it is configured is set again. -/
inductive Call where
  | start (others : Bool)
  | kill (sig : ℤ)
  | setInputIo (io : Io)
  | setOutputIo (io : Io)
  | setErrorIo (io : Io)
  | addNextProcess
  | clearNextProcess

/-- A call of a public function. -/
def call (fork : ℕ → Option ℕ) (o : Object) : Call → Object
  | .start others => o.start fork others
  | .kill sig => o.kill sig
  | .setInputIo io => o.setInputIo io
  | .setOutputIo io => o.setOutputIo io
  | .setErrorIo io => o.setErrorIo io
  | .addNextProcess => { o with next := o.next + 1 }
  | .clearNextProcess => { o with next := 0 }

/-- `child_done()`, with the calls that `f_process_done()` makes. -/
def childDone (fork : ℕ → Option ℕ) (exitCode : ℤ) (processDone : List Call) (o : Object) :
    Object :=
  let o := { o with exitCode := exitCode, alive := none, ended := true }
  let o := runFrom (call fork) o processDone
  { o with fields := { o.fields with child := none } }

/-- What happens to a process object. -/
inductive Event where
  /-- A public function is called. -/
  | call (c : Call)
  /-- The `start()` of the process before it starts it. -/
  | started (fifo : Intermediate) (idx : ℕ)
  /-- The death of the child is reported. -/
  | childDone (exitCode : ℤ) (processDone : List Call)

/-- One event.  A death is reported only of a child that there is. -/
def step (fork : ℕ → Option ℕ) (o : Object) : Event → Object
  | .call c => o.call fork c
  | .started fifo idx => (o.startProcess fork (some fifo) idx).1
  | .childDone exitCode processDone =>
    if o.alive.isSome then o.childDone fork exitCode processDone else o

end Object

/-- The standard output that is configured: the output object or stdout, or else the end of a pipe
that this call created. -/
def Start.Configured (c : Start) (d : Descriptor) : Prop :=
  match c.next with
  | 0 => d = Fields.dup2 (c.fields.output.getD .stdout) .stdout
  | _ + 1 => ∃ n, c.sys.pipes ≤ n ∧ d = .writeEnd n

/-- The call was not refused, and its child, if `fork()` returned one, writes to the standard
output that was configured. -/
def Start.RunsAgain (c : Start) : Prop :=
  c.outcome ≠ .refused ∧
    ∀ pid child, c.outcome = .forked pid child → ∃ d ∈ child.stdout, c.Configured d

/-- The object follows its child and can run again. -/
structure Object.Follows (o : Object) : Prop where
  /-- It runs while there is a child whose death was not reported. -/
  running : o.fields.running = true ↔ o.alive.isSome = true
  /-- It refuses to run only while there is one. -/
  refuses : ∀ c ∈ o.starts, c.outcome = .refused → c.alive = true
  /-- It runs again when the child ended. -/
  again : ∀ c ∈ o.starts, c.ended = true → c.alive = false → c.RunsAgain

/-- The event reports the death of the child. -/
def Object.ReportsDeath (o : Object) (e : Object.Event) : Prop :=
  o.alive.isSome = true ∧ ∃ exitCode processDone, e = .childDone exitCode processDone

namespace Object

variable {fork : ℕ → Option ℕ}

lemma prepareInput_running {p p' : Fields} {fifo : Option Intermediate}
    (h : p.prepareInput fifo = .ok p') : p'.running = p.running := by
  unfold Fields.prepareInput at h
  split at h
  · split_ifs at h
    cases h
    rfl
  · cases h
    rfl

lemma prepareOutput_running {p p' : Fields} {s s' : System} {next : ℕ}
    (h : p.prepareOutput s next = .ok (s', p')) : p'.running = p.running := by
  unfold Fields.prepareOutput at h
  split at h
  · cases h
    rfl
  · split_ifs at h
    cases h
    rfl
  · split_ifs at h
    cases h
    rfl

/-- Only a `fork()` that succeeds makes a process run. -/
lemma startProcess_fields_running {p p' : Fields} (hp : p.running = false) {s s' : System}
    {next idx : ℕ} {fifo : Option Intermediate} {r : ℤ}
    (h : p.startProcess fork s next fifo idx = .ok (s', p', r)) :
    p'.running = p'.child.isSome := by
  rw [Fields.startProcess, if_neg (by simp [hp])] at h
  obtain ⟨p₁, hinput, h⟩ := exists_of_bind_eq_ok h
  obtain ⟨⟨s₂, p₂⟩, houtput, h⟩ := exists_of_bind_eq_ok h
  have hkeeps : p₂.running = false := by
    rw [prepareOutput_running houtput, prepareInput_running hinput, hp]
  simp only at h
  cases hfork : fork s₂.forks with
  | none =>
    rw [hfork] at h
    cases h
    exact hkeeps
  | some pid =>
    rw [hfork] at h
    cases h
    rfl

/-- A process that runs is not started. -/
lemma startProcess_of_running {o : Object} (h : o.fields.running = true)
    (fifo : Option Intermediate) (idx : ℕ) : o.startProcess fork fifo idx = (o, .refused) := by
  rw [startProcess, if_pos h]

variable (fork) in
/-- **One start.**  It runs afterwards when there is a child afterwards, and is refused only when
there was one. -/
lemma startProcess_spec {o : Object} (h : o.fields.running = o.alive.isSome)
    (fifo : Option Intermediate) (idx : ℕ) :
    (o.startProcess fork fifo idx).1.fields.running =
        (o.startProcess fork fifo idx).1.alive.isSome ∧
      (o.startProcess fork fifo idx).1.ended = o.ended ∧
      (o.startProcess fork fifo idx).1.starts = o.starts ∧
      ((o.startProcess fork fifo idx).2 = .refused → o.alive.isSome = true) := by
  cases hrunning : o.fields.running with
  | true =>
    rw [startProcess_of_running hrunning]
    exact ⟨h, rfl, rfl, fun _ => by rw [← h, hrunning]⟩
  | false =>
    have halive : o.alive = none := by simpa [hrunning] using h.symm
    have hconfigured : o.configured.running = false := hrunning
    rw [startProcess, if_neg (by simp [hrunning])]
    cases hstart : o.configured.startProcess fork o.sys o.next fifo idx with
    | error e =>
      refine ⟨?_, rfl, rfl, nofun⟩
      change ((o.configured.prepareInput fifo).toOption.getD o.configured).running = _
      rw [halive]
      cases hinput : o.configured.prepareInput fifo with
      | error e => exact hconfigured
      | ok p => exact (prepareInput_running hinput).trans hconfigured
    | ok r =>
      obtain ⟨s, p, r⟩ := r
      have hp : p.running = p.child.isSome := startProcess_fields_running hconfigured hstart
      cases hchild : p.child with
      | none =>
        dsimp only
        rw [hchild]
        exact ⟨by rw [hp, hchild, halive], rfl, rfl, nofun⟩
      | some pid =>
        dsimp only
        rw [hchild]
        exact ⟨by rw [hp, hchild], rfl, rfl, nofun⟩

/-- What holds of an object while no death is reported. -/
structure Steady (o : Object) : Prop where
  /-- It runs while there is a child. -/
  running : o.fields.running = o.alive.isSome
  /-- No death was reported. -/
  ended : o.ended = false
  /-- No start was made after a death, or refused without a child. -/
  starts : ∀ c ∈ o.starts, c.ended = false ∧ (c.outcome = .refused → c.alive = true)

lemma Steady.follows {o : Object} (h : o.Steady) : o.Follows where
  running := by rw [h.running]
  refuses c hc := (h.starts c hc).2
  again c hc hended := absurd ((h.starts c hc).1.symm.trans hended) (by simp)

lemma Steady.startProcess {o : Object} (h : o.Steady) (fifo : Option Intermediate) (idx : ℕ) :
    (o.startProcess fork fifo idx).1.Steady := by
  obtain ⟨hrunning, hended, hstarts, -⟩ := startProcess_spec fork h.running fifo idx
  exact ⟨hrunning, hended.trans h.ended, by rw [hstarts]; exact h.starts⟩

lemma Steady.start {o : Object} (h : o.Steady) (others : Bool) :
    (o.start fork others).Steady := by
  obtain ⟨hrunning, hended, hstarts, hrefused⟩ :=
    startProcess_spec fork h.running none 0
  have hrecorded : (o.recorded (o.startProcess fork none 0)).Steady := by
    refine ⟨hrunning, hended.trans h.ended, fun c hc => ?_⟩
    rw [recorded, hstarts, List.mem_append, List.mem_singleton] at hc
    rcases hc with hc | rfl
    · exact h.starts c hc
    · exact ⟨h.ended, hrefused⟩
  rw [Object.start]
  split_ifs
  · exact ⟨hrecorded.running, hrecorded.ended, hrecorded.starts⟩
  · exact hrecorded

lemma Steady.call {o : Object} (h : o.Steady) (c : Call) : (o.call fork c).Steady := by
  cases c with
  | start others => exact h.start others
  | kill sig =>
    rw [Object.call, kill]
    split
    · exact ⟨h.running, h.ended, h.starts⟩
    · exact h
  | setInputIo io =>
    rw [Object.call, setInputIo]
    split_ifs
    · exact ⟨h.running, h.ended, h.starts⟩
    · exact h
  | setOutputIo io =>
    rw [Object.call, setOutputIo]
    split_ifs
    · exact ⟨h.running, h.ended, h.starts⟩
    · exact h
  | setErrorIo io =>
    rw [Object.call, setErrorIo]
    split_ifs
    · exact ⟨h.running, h.ended, h.starts⟩
    · exact h
  | addNextProcess => exact ⟨h.running, h.ended, h.starts⟩
  | clearNextProcess => exact ⟨h.running, h.ended, h.starts⟩

/-- **One event.**  Without a death the object keeps following its child. -/
lemma Steady.step {o : Object} (h : o.Steady) {e : Event} (he : ¬ o.ReportsDeath e) :
    (step fork o e).Steady := by
  cases e with
  | call c => exact h.call c
  | started fifo idx => exact h.startProcess (some fifo) idx
  | childDone exitCode processDone =>
    rw [Object.step, if_neg fun halive => he ⟨halive, exitCode, processDone, rfl⟩]
    exact h

/-- An object that runs without a child does so after every call. -/
lemma call_running {o : Object} (h : o.fields.running = true ∧ o.alive = none) (c : Call) :
    (o.call fork c).fields.running = true ∧ (o.call fork c).alive = none := by
  cases c with
  | start others =>
    rw [Object.call, Object.start, startProcess_of_running h.1]
    exact h
  | kill sig =>
    rw [Object.call, kill]
    split <;> exact h
  | setInputIo io =>
    rw [Object.call, setInputIo]
    split_ifs <;> exact h
  | setOutputIo io =>
    rw [Object.call, setOutputIo]
    split_ifs <;> exact h
  | setErrorIo io =>
    rw [Object.call, setErrorIo]
    split_ifs <;> exact h
  | addNextProcess => exact h
  | clearNextProcess => exact h

/-- After a reported death the object says that it runs. -/
lemma not_follows_of_reportsDeath {o : Object} (h : o.Steady) {e : Event}
    (he : o.ReportsDeath e) : ¬ (step fork o e).Follows := by
  obtain ⟨halive, exitCode, processDone, rfl⟩ := he
  rw [Object.step, if_pos halive, childDone]
  have hcall : ∀ (o : Object) (c : Call), o.fields.running = true ∧ o.alive = none →
      (o.call fork c).fields.running = true ∧ (o.call fork c).alive = none :=
    fun o c h => call_running h c
  let dead : Object := { o with exitCode := exitCode, alive := none, ended := true }
  have hdead : dead.fields.running = true ∧ dead.alive = none := ⟨h.running.trans halive, rfl⟩
  obtain ⟨hrunning, hnone⟩ := invariant_of_runFrom hcall hdead processDone
  intro hfollows
  have := hfollows.running.mp hrunning
  rw [hnone] at this
  simp at this

/-- A new object follows its child in every state of a run (`f_running` is set exactly while there
is a child whose death was not reported, `start()` is refused only while there is one, and runs
again afterwards with the standard output that is configured) exactly when no death is reported in
the run. -/
theorem follows_child_iff (fork : ℕ → Option ℕ) (events : List Event) :
    ((∀ p ∈ visited (step fork) {} events, p.1.Follows) ∧
        (runFrom (step fork) {} events).Follows) ↔
      ∀ p ∈ visited (step fork) {} events, ¬ p.1.ReportsDeath p.2 := by
  refine holds_always_iff (fun o e (h : Steady o) he => h.step he) (fun o h => h.follows)
    (fun o e h hfollows hdeath => ?_) ⟨rfl, rfl, by simp⟩ events
  exact not_follows_of_reportsDeath h hdeath hfollows

/-- A start, the death of the child, and a start: there is no child, and the object refuses. -/
theorem not_follows_child :
    ¬ ∀ events : List Event, (∀ p ∈ visited (step some) {} events, p.1.Follows) ∧
      (runFrom (step some) {} events).Follows := by
  intro h
  have hfollows := (h [.call (.start true), .childDone 0 [], .call (.start true)]).2
  have hrefused : ∃ c ∈ (runFrom (step some) {}
      [.call (.start true), .childDone 0 [], .call (.start true)]).starts,
      c.outcome = .refused ∧ c.alive = false := by
    refine ⟨_, List.mem_cons_of_mem _ List.mem_cons_self, rfl, rfl⟩
  obtain ⟨c, hc, hrefused, halive⟩ := hrefused
  have := hfollows.refuses c hc hrefused
  rw [halive] at this
  cases this

end Object

end EventDispatcher.CppProcess
