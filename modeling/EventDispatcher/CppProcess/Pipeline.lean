import EventDispatcher.CppProcess.Process
import EventDispatcher.Lib.Run

/-!
# What `start()` starts

`start()` forks the root and its next processes, and no process further down the tree.  The next
processes of a tee are given the wrong end of its pipe.  So a whole tree runs exactly when it is
a single process, or two processes one after the other (`start_runs_iff`).
-/

namespace EventDispatcher.CppProcess

open Lib

/-- What is written to `output` arrives at `input`, through a pipe or through a tee. -/
def System.Feeds (s : System) (output input : Descriptor) : Prop :=
  ∃ n, output = .writeEnd n ∧
    (input = .readEnd n ∨ ∃ t ∈ s.tees, t.1 = n ∧ ∃ i ∈ t.2, input = .readEnd i)

namespace Process

/-- The whole tree runs. -/
structure Runs (s : System) (p : Process) : Prop where
  /-- Each process was forked once. -/
  forked : ∀ q ∈ p.nodes, q.fields.executed.length = 1
  /-- Each next process reads what the process before it writes. -/
  piped : ∀ q ∈ p.nodes, ∀ n ∈ q.next, ∀ e ∈ q.fields.executed, ∀ e' ∈ n.fields.executed,
    ∃ output ∈ e.stdout, s.Feeds output e'.stdin
  /-- Each child finds its descriptor in its own `f_prepared_output`. -/
  indexed : ∀ q ∈ p.nodes, ∀ e ∈ q.fields.executed, e.stdout.isSome = true
  /-- `wait()` does not find a process that was not started. -/
  waited : ∀ what, p.wait false ≠ .error (.notStarted what)

end Process

/-- The fields of a process that was not started. -/
structure Fields.Initial (p : Fields) : Prop where
  /-- It does not run. -/
  running : p.running = false
  /-- No output was prepared. -/
  preparedOutput : p.preparedOutput = []
  /-- There is no pipe. -/
  intermediate : p.intermediate = none
  /-- There is no child. -/
  child : p.child = none
  /-- Nothing was forked. -/
  executed : p.executed = []

namespace Process

/-- The trees that are built from new processes with `add_next_process()`. -/
inductive Built : Process → Prop where
  /-- A new process with the `io` objects that it was given. -/
  | new (input output error : Option Descriptor) :
    Built (mk { input := input, output := output, error := error } [])
  /-- `add_next_process()` -/
  | add {p n : Process} (hp : Built p) (hn : Built n) : Built (p.addNextProcess n)

/-- The outputs and inputs of the user are at the ends of the pipelines. -/
def Arranged (p : Process) : Prop :=
  ∀ q ∈ p.nodes, q.next ≠ [] → q.fields.output = none ∧ ∀ n ∈ q.next, n.fields.input = none

lemma Built.initial {p : Process} (h : Built p) : p.fields.Initial := by
  induction h with
  | new input output error => exact ⟨rfl, rfl, rfl, rfl, rfl⟩
  | add hp hn ihp ihn => exact ihp

lemma Built.next {p : Process} (h : Built p) : ∀ n ∈ p.next, Built n := by
  induction h with
  | new input output error => simp [Process.next]
  | @add p n hp hn ihp ihn =>
    intro q hq
    change q ∈ p.next ++ [n] at hq
    rcases List.mem_append.mp hq with hq | hq
    · exact ihp q hq
    · rw [List.mem_singleton.mp hq]
      exact hn

lemma mem_nodes_self (p : Process) : p ∈ p.nodes := by
  rw [nodes_eq]
  exact List.mem_cons_self

lemma mem_nodesAll {l : List Process} {p q : Process} (hp : p ∈ l) (hq : q ∈ p.nodes) :
    q ∈ nodesAll l := by
  induction l with
  | nil => cases hp
  | cons p' l ih =>
    rw [nodesAll, List.mem_append]
    rcases List.mem_cons.mp hp with rfl | hp
    · exact .inl hq
    · exact .inr (ih hp)

lemma mem_nodes_of_next {p n q : Process} (hn : n ∈ p.next) (hq : q ∈ n.nodes) :
    q ∈ p.nodes := by
  rw [nodes_eq]
  exact List.mem_cons_of_mem _ (mem_nodesAll hn hq)

end Process

/-! ### One process -/

variable {fork : ℕ → Option ℕ}

namespace Fields

/-- What `start_process()` leaves when the child was forked. -/
structure Started (p p' : Fields) (s : System) (next : ℕ) (fifo : Option Intermediate)
    (idx : ℕ) : Prop where
  /-- The child runs. -/
  running : p'.child.isSome = true ∧ p'.running = true
  /-- There is one more child. -/
  executed : p'.executed = p.executed ++ [p'.executeCommand idx]
  /-- Its standard input is the socket of the pipe before it. -/
  input : ∀ f, fifo = some f → p'.preparedInput = f.getSocket
  /-- Without next processes there is one output. -/
  last : next = 0 → ∃ output, p'.preparedOutput = p.preparedOutput ++ [output]
  /-- With one next process there is a pipe. -/
  direct : next = 1 → p'.preparedOutput = p.preparedOutput ++ [.writeEnd s.pipes] ∧
    p'.intermediate = some (.direct (.new s.pipes .childOutput))
  /-- With more there is a tee. -/
  tee : 2 ≤ next → ∃ output, p'.intermediate = some (.tee (.new s.pipes .childInput) output)

lemma prepareInput_eq_ok {p p' : Fields} {fifo : Option Intermediate}
    (h : p.prepareInput fifo = .ok p') :
    (∀ f, fifo = some f → p'.preparedInput = f.getSocket) ∧
      p' = { p with preparedInput := p'.preparedInput } := by
  cases fifo with
  | none =>
    cases h
    exact ⟨fun f hf => (nomatch hf), rfl⟩
  | some fifo =>
    simp only [prepareInput] at h
    split_ifs at h
    cases h
    refine ⟨fun f hf => ?_, rfl⟩
    cases hf
    rfl

lemma prepareOutput_eq_ok {p p' : Fields} {s s' : System} {next : ℕ}
    (h : p.prepareOutput s next = .ok (s', p')) :
    p'.executed = p.executed ∧ p'.preparedInput = p.preparedInput ∧
      (next = 0 → ∃ output, p'.preparedOutput = p.preparedOutput ++ [output]) ∧
      (next = 1 → p'.preparedOutput = p.preparedOutput ++ [.writeEnd s.pipes] ∧
        p'.intermediate = some (.direct (.new s.pipes .childOutput))) ∧
      (2 ≤ next →
        ∃ output, p'.intermediate = some (.tee (.new s.pipes .childInput) output)) := by
  match next with
  | 0 =>
    cases h
    exact ⟨rfl, rfl, fun _ => ⟨_, rfl⟩, fun h => by omega, fun h => by omega⟩
  | 1 =>
    simp only [prepareOutput] at h
    split_ifs at h
    cases h
    exact ⟨rfl, rfl, fun h => by omega, fun _ => ⟨rfl, rfl⟩, fun h => by omega⟩
  | n + 2 =>
    simp only [prepareOutput] at h
    split_ifs at h
    cases h
    exact ⟨rfl, rfl, fun h => by omega, fun h => by omega, fun _ => ⟨_, rfl⟩⟩

lemma startProcess_eq_ok {p p' : Fields} (hp : p.running = false) {s s' : System} {next : ℕ}
    {fifo : Option Intermediate} {idx : ℕ}
    (h : p.startProcess fork s next fifo idx = .ok (s', p', 0)) :
    Started p p' s next fifo idx := by
  rw [startProcess, if_neg (by simp [hp])] at h
  obtain ⟨p₁, hinput, h⟩ := exists_of_bind_eq_ok h
  obtain ⟨⟨s₂, p₂⟩, houtput, h⟩ := exists_of_bind_eq_ok h
  obtain ⟨hfifo, hp₁⟩ := prepareInput_eq_ok hinput
  obtain ⟨hexecuted, hprepared, hlast, hdirect, htee⟩ := prepareOutput_eq_ok houtput
  have houtputs : p₁.preparedOutput = p.preparedOutput := by rw [hp₁]
  have hbefore : p₁.executed = p.executed := by rw [hp₁]
  rw [houtputs] at hlast hdirect
  simp only at h
  cases hfork : fork s₂.forks with
  | none =>
    rw [hfork] at h
    simp at h
  | some pid =>
    rw [hfork] at h
    cases h
    refine ⟨⟨rfl, rfl⟩, ?_, fun f hf => hprepared.trans (hfifo f hf), hlast, hdirect, htee⟩
    change p₂.executed ++ _ = p.executed ++ _
    rw [hexecuted, hbefore]
    rfl

end Fields

namespace Process

/-! ### The tree -/

lemma startNext_cons_eq_ok {fifo : Option Intermediate} {s s' : System} {idx : ℕ} {n : Process}
    (hn : n.fields.running = false) {l l' : List Process}
    (h : startNext fork fifo s idx (n :: l) = .ok (s', l', 0)) :
    ∃ s₁ n' rest, n'.next = n.next ∧
      Fields.Started n.fields n'.fields s n.next.length fifo idx ∧
      startNext fork fifo s₁ (idx + 1) l = .ok (s', rest, 0) ∧ l' = n' :: rest := by
  obtain ⟨n, next⟩ := n
  rw [startNext] at h
  obtain ⟨⟨s₁, n', r⟩, hstart, h⟩ := exists_of_bind_eq_ok h
  simp only at h
  split_ifs at h with hr
  · simp at h
  · obtain rfl : r = 0 := not_not.mp hr
    obtain ⟨⟨s₂, rest, r'⟩, hrest, h⟩ := exists_of_bind_eq_ok h
    cases h
    exact ⟨s₁, mk n' next, rest, rfl, Fields.startProcess_eq_ok hn hstart, hrest, rfl⟩

/-- The root and its next processes are started; the pipes are closed at the end. -/
lemma start_eq_ok {s s' : System} {p p' : Process} (hp : p.fields.running = false)
    (h : p.start fork s = .ok (s', p', 0)) :
    ∃ s₁ p₁ next, Fields.Started p.fields p₁ s p.next.length none 0 ∧
      startNext fork p₁.intermediate s₁ 0 p.next = .ok (s', next, 0) ∧
      p'.fields.executed = p₁.executed ∧ p'.isStarted = true ∧
      p'.next = match next with
        | [n] => [forkedLast n]
        | _ => next := by
  obtain ⟨p, next⟩ := p
  rw [start] at h
  obtain ⟨⟨s₁, p₁, r⟩, hstart, h⟩ := exists_of_bind_eq_ok h
  simp only at h
  split_ifs at h with hr
  · simp at h
  · obtain rfl : r = 0 := not_not.mp hr
    have hstarted := Fields.startProcess_eq_ok hp hstart
    obtain ⟨⟨s₂, next', r'⟩, hnext, h⟩ := exists_of_bind_eq_ok h
    simp only at h
    split_ifs at h with hr'
    · simp at h
    · obtain rfl : r' = 0 := not_not.mp hr'
      obtain ⟨hchild, hrunning⟩ := hstarted.running
      refine ⟨s₁, p₁, next', hstarted, ?_⟩
      match next', hnext, h with
      | [], hnext, h | [n], hnext, h | n :: m :: l, hnext, h =>
        cases h
        exact ⟨hnext, rfl, by simp [isStarted, fields, hchild, hrunning], rfl⟩

/-- Only the intermediate pipe changes at the end. -/
lemma forkedLast_fields (p : Process) :
    (forkedLast p).fields.executed = p.fields.executed ∧
      (forkedLast p).isStarted = p.isStarted := by
  obtain ⟨p, next⟩ := p
  match next with
  | [] => exact ⟨rfl, rfl⟩
  | [_] => exact ⟨rfl, rfl⟩
  | _ :: _ :: _ => exact ⟨rfl, rfl⟩

lemma forkedLast_next {p : Process} (h : p.next = []) : (forkedLast p).next = [] := by
  obtain ⟨p, next⟩ := p
  obtain rfl : next = [] := h
  rfl

/-- The first child of a process that was not started before. -/
lemma executed_eq {p p' : Fields} (hp : p.Initial) {s : System} {next idx : ℕ}
    {fifo : Option Intermediate} (h : Fields.Started p p' s next fifo idx) :
    p'.executed = [p'.executeCommand idx] := by
  rw [h.executed, hp.executed, List.nil_append]

/-- The child finds the output when there is only one. -/
lemma stdout_executeCommand {p : Fields} {output : Descriptor} (h : p.preparedOutput = [output]) :
    (p.executeCommand 0).stdout = some (Fields.dup2 output .stdout) := by
  rw [Fields.executeCommand, h]
  rfl

/-- A tree runs when each process was forked once, with an output. -/
lemma Runs.of_forked {s : System} {p : Process}
    (hforked : ∀ q ∈ p.nodes, ∃ e, q.fields.executed = [e] ∧ e.stdout.isSome = true)
    (hpiped : ∀ q ∈ p.nodes, ∀ n ∈ q.next, ∀ e ∈ q.fields.executed, ∀ e' ∈ n.fields.executed,
      ∃ output ∈ e.stdout, s.Feeds output e'.stdin)
    (hwaited : ∀ what, p.wait false ≠ .error (.notStarted what)) : p.Runs s where
  forked q hq := by
    obtain ⟨e, he, -⟩ := hforked q hq
    rw [he, List.length_singleton]
  piped := hpiped
  indexed q hq e he := by
    obtain ⟨e', he', houtput⟩ := hforked q hq
    rw [he', List.mem_singleton] at he
    rwa [he]
  waited := hwaited

/-- A process without next processes runs. -/
lemma runs_of_single {s s' : System} {p p' : Process} (hp : p.Built) (hnext : p.next = [])
    (h : p.start fork s = .ok (s', p', 0)) : p'.Runs s' := by
  obtain ⟨s₁, p₁, next, hstarted, hnexts, hexecuted, hisStarted, hnext'⟩ :=
    start_eq_ok hp.initial.running h
  rw [hnext, startNext] at hnexts
  cases hnexts
  have hnodes : p'.nodes = [p'] := by rw [nodes_eq, hnext', nodesAll]
  obtain ⟨output, houtput⟩ := hstarted.last (by rw [hnext]; rfl)
  rw [hp.initial.preparedOutput] at houtput
  refine .of_forked (fun q hq => ?_) (fun q hq n hn => ?_) fun what => ?_
  · rw [hnodes, List.mem_singleton] at hq
    refine ⟨p₁.executeCommand 0, ?_, ?_⟩
    · rw [hq, hexecuted, executed_eq hp.initial hstarted]
    · rw [stdout_executeCommand houtput]
      rfl
  · rw [hnodes, List.mem_singleton] at hq
    rw [hq, hnext'] at hn
    cases hn
  · rw [wait, hnext']
    simp [hisStarted, allStarted]

/-- Two processes one after the other run. -/
lemma runs_of_pair {s s' : System} {p p' n : Process} (hp : p.Built) (hnext : p.next = [n])
    (hlast : n.next = []) (h : p.start fork s = .ok (s', p', 0)) : p'.Runs s' := by
  have hn : n.Built := hp.next n (by rw [hnext]; exact List.mem_singleton_self n)
  obtain ⟨s₁, p₁, next, hstarted, hnexts, hexecuted, hisStarted, hnext'⟩ :=
    start_eq_ok hp.initial.running h
  rw [hnext] at hnexts
  obtain ⟨s₂, n', rest, hlast', hstartedNext, hrest, rfl⟩ :=
    startNext_cons_eq_ok hn.initial.running hnexts
  rw [startNext] at hrest
  cases hrest
  obtain ⟨hsame, hsame'⟩ := forkedLast_fields n'
  have hleaf : (forkedLast n').next = [] := forkedLast_next (hlast'.trans hlast)
  have hnodes : ∀ q ∈ p'.nodes, q = p' ∨ q = forkedLast n' := by
    intro q hq
    rw [nodes_eq, hnext', nodesAll, nodesAll, nodes_eq, hleaf, nodesAll] at hq
    simpa using hq
  have hone : p'.fields.executed = [p₁.executeCommand 0] :=
    hexecuted.trans (executed_eq hp.initial hstarted)
  have htwo : (forkedLast n').fields.executed = [n'.fields.executeCommand 0] :=
    hsame.trans (executed_eq hn.initial hstartedNext)
  -- the pipe between the two
  obtain ⟨houtput, hpipe⟩ := hstarted.direct (by rw [hnext]; rfl)
  rw [hp.initial.preparedOutput] at houtput
  have hinput : n'.fields.preparedInput = .readEnd s.pipes := hstartedNext.input _ hpipe
  obtain ⟨output, houtput'⟩ := hstartedNext.last (by rw [hlast]; rfl)
  rw [hn.initial.preparedOutput] at houtput'
  refine .of_forked (fun q hq => ?_) (fun q hq m hm e he e' he' => ?_) fun what => ?_
  · rcases hnodes q hq with rfl | rfl
    · exact ⟨_, hone, by rw [stdout_executeCommand houtput]; rfl⟩
    · exact ⟨_, htwo, by rw [stdout_executeCommand houtput']; rfl⟩
  · rcases hnodes q hq with rfl | rfl
    · rw [hnext', List.mem_singleton] at hm
      rw [hm, htwo, List.mem_singleton] at he'
      rw [hone, List.mem_singleton] at he
      rw [he, he']
      refine ⟨.writeEnd s.pipes, stdout_executeCommand houtput, s.pipes, rfl, .inl ?_⟩
      simp [Fields.executeCommand, hinput, Fields.dup2]
    · rw [hleaf] at hm
      cases hm
  · have hstartedLast : (forkedLast n').isStarted = true := by
      rw [hsame', isStarted, hstartedNext.running.1, hstartedNext.running.2]
      rfl
    rw [wait, hnext']
    simp [hisStarted, hstartedLast, allStarted, hleaf]

/-- A process at the third place of a chain is not forked. -/
lemma not_runs_of_chain {s s' : System} {p p' n : Process} (hp : p.Built) (hnext : p.next = [n])
    (hmore : n.next ≠ []) (h : p.start fork s = .ok (s', p', 0)) : ¬ p'.Runs s' := by
  have hn : n.Built := hp.next n (by rw [hnext]; exact List.mem_singleton_self n)
  obtain ⟨s₁, p₁, next, hstarted, hnexts, hexecuted, hisStarted, hnext'⟩ :=
    start_eq_ok hp.initial.running h
  rw [hnext] at hnexts
  obtain ⟨s₂, n', rest, hmore', -, hrest, rfl⟩ :=
    startNext_cons_eq_ok hn.initial.running hnexts
  rw [startNext] at hrest
  cases hrest
  -- it keeps the fields that it had before
  obtain ⟨q, hq, hexecuted'⟩ : ∃ q ∈ (forkedLast n').next, q.fields.executed = [] := by
    obtain ⟨m, l, hl⟩ := List.exists_cons_of_ne_nil hmore
    have hm : m.fields.executed = [] := (hn.next m (by rw [hl]; simp)).initial.executed
    obtain ⟨n', next'⟩ := n'
    obtain rfl : next' = m :: l := hmore'.trans hl
    cases l with
    | nil => exact ⟨forkedLast m, by simp [forkedLast, Process.next],
        (forkedLast_fields m).1.trans hm⟩
    | cons m' l => exact ⟨m, by simp [forkedLast, Process.next], hm⟩
  intro hruns
  have hmem : forkedLast n' ∈ p'.next := by rw [hnext']; exact List.mem_singleton_self _
  have hone := hruns.forked q (mem_nodes_of_next hmem (mem_nodes_of_next hq (mem_nodes_self q)))
  rw [hexecuted'] at hone
  cases hone

/-- The standard input of the first next process of a tee is the end of its pipe that is
written. -/
lemma not_runs_of_tee {s s' : System} {p p' n m : Process} {l : List Process} (hp : p.Built)
    (hnext : p.next = n :: m :: l) (h : p.start fork s = .ok (s', p', 0)) : ¬ p'.Runs s' := by
  have hmem : ∀ q ∈ n :: m :: l, q.Built := by
    rw [← hnext]
    exact hp.next
  obtain ⟨s₁, p₁, next, hstarted, hnexts, hexecuted, hisStarted, hnext'⟩ :=
    start_eq_ok hp.initial.running h
  rw [hnext] at hnexts
  have hn : n.Built := hmem n (by simp)
  have hm : m.Built := hmem m (by simp)
  obtain ⟨s₂, n', rest, -, hstartedNext, hrest, rfl⟩ :=
    startNext_cons_eq_ok hn.initial.running hnexts
  obtain ⟨s₃, m', rest', -, -, -, rfl⟩ := startNext_cons_eq_ok hm.initial.running hrest
  -- the pipe of a tee is the input of a child, seen by the parent
  obtain ⟨output, htee⟩ := hstarted.tee (by rw [hnext]; simp)
  have hinput : n'.fields.preparedInput = .writeEnd s.pipes := hstartedNext.input _ htee
  intro hruns
  obtain ⟨output, -, k, -, hread⟩ := hruns.piped p' (mem_nodes_self p') n' (by rw [hnext']; simp)
    (p₁.executeCommand 0) (by rw [hexecuted, executed_eq hp.initial hstarted]; simp)
    (n'.fields.executeCommand 0) (by rw [executed_eq hn.initial hstartedNext]; simp)
  simp [Fields.executeCommand, hinput, Fields.dup2] at hread

/-- When `start()` returns 0 the whole tree runs (each process is forked once, reads what the
process before it writes, finds its output descriptor, and `wait()` does not throw) exactly when
the root has no next process, or a single one that has none. -/
theorem start_runs_iff {s s' : System} {p p' : Process} (hp : p.Built)
    (h : p.start fork s = .ok (s', p', 0)) :
    p'.Runs s' ↔ p.next = [] ∨ ∃ n, p.next = [n] ∧ n.next = [] := by
  constructor
  · intro hruns
    cases hnext : p.next with
    | nil => exact .inl rfl
    | cons n l =>
      cases l with
      | nil =>
        refine .inr ⟨n, rfl, ?_⟩
        by_contra hmore
        exact not_runs_of_chain hp hnext hmore h hruns
      | cons m l => exact (not_runs_of_tee hp hnext h hruns).elim
  · rintro (hnext | ⟨n, hnext, hlast⟩)
    · exact runs_of_single hp hnext h
    · exact runs_of_pair hp hnext hlast h

/-- `a | b`, with an input for `a` and an output for `b`. -/
theorem start_runs_iff_pair :
    ∃ s' p', (addNextProcess (mk { input := some (.io 0) } [])
      (mk { output := some (.io 1) } [])).start some {} = .ok (s', p', 0) ∧ p'.Runs s' := by
  obtain ⟨s', p', h⟩ : ∃ s' p', (addNextProcess (mk { input := some (.io 0) } [])
      (mk { output := some (.io 1) } [])).start some {} = .ok (s', p', 0) := ⟨_, _, rfl⟩
  have hbuilt : Built (addNextProcess (mk { input := some (.io 0) } [])
      (mk { output := some (.io 1) } [])) :=
    .add (.new (some (.io 0)) none none) (.new none (some (.io 1)) none)
  exact ⟨s', p', h, (start_runs_iff hbuilt h).mpr (.inr ⟨_, rfl, rfl⟩)⟩

/-- `a | b | c`: the last process is not started. -/
theorem not_start_runs :
    ¬ ∀ p : Process, p.Built → p.Arranged →
      ∀ s' p', p.start some {} = .ok (s', p', 0) → p'.Runs s' := by
  intro h
  have hnew : Built (mk {} []) := .new none none none
  have hpair : Built (mk {} [mk {} []]) := .add hnew hnew
  have hchain : Built (mk {} [mk {} [mk {} []]]) := .add hnew hpair
  obtain ⟨s', p', hstart⟩ : ∃ s' p',
      (mk {} [mk {} [mk {} []]]).start some {} = .ok (s', p', 0) := ⟨_, _, rfl⟩
  refine not_runs_of_chain hchain rfl (by simp [Process.next]) hstart
    (h _ hchain ?_ s' p' hstart)
  intro q hq hnext
  simp only [nodes, nodesAll, List.append_nil, List.mem_cons, List.not_mem_nil, or_false] at hq
  rcases hq with rfl | rfl | rfl
  · exact ⟨rfl, by simp [Process.next, fields]⟩
  · exact ⟨rfl, by simp [Process.next, fields]⟩
  · exact absurd rfl hnext

end Process

end EventDispatcher.CppProcess
