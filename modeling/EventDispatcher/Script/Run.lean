import EventDispatcher.Script.Step

/-!
# The runs of a script

An execution is a list of steps from the start of the script, each with what the rest of the world
answers.  A variable is used as one of a class that it is not of exactly when a step misuses an
item of an array (`wrongClass_iff`), a part of the state and a variable are left alone by the
instructions that are not about them (`same_runFrom`), the messages and the data are queues of what
the clients received (`queues_runFrom`), and nothing is executed after an `exit()`
(`exit_runFrom`).
-/

namespace EventDispatcher.Script

open Lib Reporter

/-- An execution. -/
structure Execution where
  /-- The state of the script; when the execution stopped, what the last step left. -/
  state : State := {}
  /-- Why the execution stopped, if it did. -/
  halted : Option Halted := none

/-- The messages among what the clients did. -/
def messagesOf (arrivals : List Arrival) : List Message :=
  arrivals.filterMap fun
    | .message msg => some msg
    | _ => none

/-- The bytes of the data among what the clients did. -/
def bytesOf (arrivals : List Arrival) : Block :=
  arrivals.flatMap fun
    | .data block => block
    | _ => []

@[simp] lemma messagesOf_append (l l' : List Arrival) :
    messagesOf (l ++ l') = messagesOf l ++ messagesOf l' := List.filterMap_append

@[simp] lemma bytesOf_append (l l' : List Arrival) : bytesOf (l ++ l') = bytesOf l ++ bytesOf l' :=
  List.flatMap_append

namespace Execution

/-- One instruction. -/
def step (M : Machine) (p : Program) (e : Execution) (E : Environment) : Execution :=
  match e.halted with
  | some _ => e
  | none =>
    match executeInstruction M E p e.state with
    | .error ⟨h, s⟩ => { state := s, halted := some h }
    | .ok s => { state := s }

/-- The instruction that the next step executes, if the execution did not stop. -/
def next (M : Machine) (p : Program) (e : Execution) : Option (Op × Parameters) :=
  match e.halted with
  | some _ => none
  | none => executed M p e.state

/-- The instructions that a run executes, with their parameters. -/
def trace (M : Machine) (p : Program) (e : Execution) (l : List Environment) :
    List (Op × Parameters) :=
  (visited (step M p) e l).filterMap fun q => q.1.next M p

/-- The next step removes a message. -/
def clears (M : Machine) (p : Program) (e : Execution) : Bool :=
  (e.next M p).any (fun i => i.1 = .clearMessage) && !e.state.messages.isEmpty

/-- What the clients and the server do in the next step: only `wait()` lets them. -/
def arrivals (M : Machine) (p : Program) (e : Execution) (E : Environment) : List Arrival :=
  match e.next M p with
  | some (.wait, params) =>
    if e.state.inThread then
      (waitParameters M.A.toConversions (locationAt p e.state) params).toOption.elim []
        fun given => polled given.2 (E.waitPoll given.2 given.1)
    else []
  | _ => []

variable {M : Machine} {E : Environment} {p : Program} {e : Execution}

lemma step_of_halted {h : Halted} (he : e.halted = some h) : e.step M p E = e := by
  rw [step, he]

lemma step_of_error (he : e.halted = none) {h : Halted} {s : State}
    (hs : executeInstruction M E p e.state = .error ⟨h, s⟩) :
    e.step M p E = { state := s, halted := some h } := by
  rw [step, he]
  simp only [hs]

lemma step_of_ok (he : e.halted = none) {s : State}
    (hs : executeInstruction M E p e.state = .ok s) : e.step M p E = { state := s } := by
  rw [step, he]
  simp only [hs]

lemma next_of_running (he : e.halted = none) : e.next M p = executed M p e.state := by
  rw [next, he]

/-- What a step does to the state: an instruction has its effect, or stops. -/
def Changes (M : Machine) (p : Program) (s s' : State) : Prop :=
  s' = s ∨ s' = { s with ip := s.ip + 1 } ∧ s.ip.toNat < p.statements.length ∨
    ∃ op params, executed M p s = some (op, params) ∧
      (op.Effect p params { s with ip := s.ip + 1 } s' ∨ op.Leaves { s with ip := s.ip + 1 } s')

lemma Changes.of_left {s s' : State} (h : Left M p s s') : Changes M p s s' := by
  rw [Left] at h
  cases hexecuted : executed M p s with
  | none =>
    rw [hexecuted] at h
    rcases h with h | h
    · exact .inl h
    · exact .inr (.inl h)
  | some i =>
    rw [hexecuted] at h
    exact .inr (.inr ⟨i.1, i.2, hexecuted, .inr h⟩)

/-- **A step** of an execution that did not stop runs an instruction; else nothing changes. -/
lemma step_cases (hs : e.state.Formed) :
    e.halted ≠ none ∧ e.step M p E = e ∨
      e.halted = none ∧ Changes M p e.state (e.step M p E).state := by
  cases he : e.halted with
  | some h => exact .inl ⟨Option.some_ne_none h, step_of_halted he⟩
  | none =>
    refine .inr ⟨rfl, ?_⟩
    cases hexecute : executeInstruction M E p e.state with
    | error h =>
      rw [step_of_error he hexecute]
      exact .of_left ((ensures_executeInstruction hs).of_eq_error hexecute).2
    | ok s =>
      obtain ⟨op, params, hexecuted, heffect⟩ :=
        (ensures_executeInstruction hs).of_eq_ok hexecute
      rw [step_of_ok he hexecute]
      exact .inr (.inr ⟨op, params, hexecuted, .inl heffect⟩)

/-- The variables stay of the class of their type. -/
lemma formed_step (hs : e.state.Formed) (E : Environment) : (e.step M p E).state.Formed := by
  rcases step_cases (M := M) (E := E) (p := p) hs with
    ⟨-, h⟩ | ⟨-, h | ⟨h, -⟩ | ⟨op, params, -, heffect | hleaves⟩⟩
  · rwa [h]
  · rwa [h]
  · rw [h]
    exact hs
  · exact heffect.formed hs
  · intro name v hv
    rw [State.getVariable, hleaves.vars] at hv
    exact hs name v hv

lemma formed_start : ({} : State).Formed := fun name v hv => by cases hv

/-! ## The classes of the variables -/

/-- How a step comes to stop for a reason. -/
lemma step_halted_iff {h : Halted} {P : Prop}
    (hiff : (∃ s', executeInstruction M E p e.state = .error ⟨h, s'⟩) ↔ P) :
    (e.step M p E).halted = some h ↔ e.halted = some h ∨ e.halted = none ∧ P := by
  cases he : e.halted with
  | some h' =>
    rw [step_of_halted he, he]
    simp
  | none =>
    rw [← hiff]
    cases hexecute : executeInstruction M E p e.state with
    | error stopped =>
      rw [step_of_error he hexecute]
      constructor
      · intro hwhy
        exact .inr ⟨rfl, stopped.state, by rw [← Option.some.inj hwhy]⟩
      · rintro (hnone | ⟨-, s', hstopped⟩)
        · cases hnone
        · rw [Except.error.inj hstopped]
    | ok s =>
      rw [step_of_ok he hexecute]
      simp

lemma step_wrongClass_iff (hs : e.state.Formed) :
    (e.step M p E).halted = some .wrongClass ↔
      e.halted = some .wrongClass ∨ e.halted = none ∧ Misused M p e.state :=
  step_halted_iff (executeInstruction_eq_wrongClass_iff hs)

/-- **No variable is used as one of another class**, except for the items of the arrays: a run
stops so exactly when `send_data()` or `verify_data()` comes to an item that is not an integer. -/
theorem wrongClass_iff (M : Machine) (p : Program) (l : List Environment) :
    (runFrom (step M p) {} l).halted = some .wrongClass ↔
      ∃ q ∈ visited (step M p) {} l, q.1.halted = none ∧ Misused M p q.1.state := by
  have hinv (e : Execution) (E : Environment) (h : e.state.Formed) :
      (e.step M p E).state.Formed := formed_step h E
  have hstep (e : Execution) (E : Environment) (h : e.state.Formed) :
      (e.step M p E).halted = some .wrongClass ↔
        e.halted = some .wrongClass ∨ e.halted = none ∧ Misused M p e.state :=
    step_wrongClass_iff h
  rw [reached_iff (P := fun e : Execution => e.halted = some .wrongClass) hinv hstep formed_start l]
  exact or_iff_right (by simp)

/-! ## What a run leaves alone -/

lemma next_mem_trace {l : List Environment} {q : Execution × Environment}
    (hq : q ∈ visited (step M p) e l) {i : Op × Parameters} (hi : q.1.next M p = some i) :
    i ∈ trace M p e l :=
  List.mem_filterMap.mpr ⟨q, hq, hi⟩

namespace Changes

variable {s s' : State}

/-- The frame of a step, which moves the instruction pointer. -/
lemma same (h : Changes M p s s') {part : Part} (hip : part ≠ .ip)
    (hpart : ∀ i, executed M p s = some i → part ∉ i.1.footprint) : part.Same s s' := by
  have hmoved : part.Same s { s with ip := s.ip + 1 } := by
    cases part <;> first | rfl | exact ⟨rfl, rfl⟩ | exact absurd rfl hip
  rcases h with rfl | ⟨rfl, -⟩ | ⟨op, params, hop, heffect | hleaves⟩
  · exact .refl _ part
  · exact hmoved
  · exact hmoved.trans (heffect.same (hpart _ hop))
  · exact hmoved.trans (hleaves.same (hpart _ hop))

lemma getVariable (h : Changes M p s s') {name : Str}
    (hname : ∀ i, executed M p s = some i → name ∉ i.1.targets i.2) :
    s'.getVariable name = s.getVariable name := by
  rcases h with rfl | ⟨rfl, -⟩ | ⟨op, params, hop, heffect | hleaves⟩
  · rfl
  · rfl
  · exact heffect.getVariable (hname _ hop)
  · rw [State.getVariable, hleaves.vars, State.getVariable]

end Changes

/-- The executions that start with variables of the class of their type. -/
lemma formed_runFrom (l : List Environment) : (runFrom (step M p) {} l).state.Formed := by
  have hstep (e : Execution) (E : Environment) (h : e.state.Formed) :
      (e.step M p E).state.Formed := formed_step h E
  exact invariant_of_runFrom hstep formed_start l

/-- **The frame of a run.**  From any state of a run, the parts of the state that no executed
instruction is about stay as they are, and so does a variable that no executed instruction sets.
The instruction pointer apart, which each step moves. -/
theorem same_runFrom (M : Machine) (p : Program) (l l' : List Environment) :
    let e := runFrom (step M p) {} l
    (∀ part, part ≠ .ip → (∀ i ∈ trace M p e l', part ∉ i.1.footprint) →
      part.Same e.state (runFrom (step M p) e l').state) ∧
    ∀ name, (∀ i ∈ trace M p e l', name ∉ i.1.targets i.2) →
      (runFrom (step M p) e l').state.getVariable name = e.state.getVariable name := by
  intro e
  have he : e.state.Formed := formed_runFrom l
  constructor
  · intro part hip hpart
    -- each step keeps the part, as long as its instruction is not about it
    have hstep (e' : Execution) (E : Environment)
        (h : e'.state.Formed ∧ part.Same e.state e'.state)
        (hnext : ∀ i, e'.next M p = some i → part ∉ i.1.footprint) :
        (e'.step M p E).state.Formed ∧ part.Same e.state (e'.step M p E).state := by
      refine ⟨formed_step h.1 E, ?_⟩
      rcases step_cases (M := M) (E := E) (p := p) h.1 with ⟨-, heq⟩ | ⟨he, hchanges⟩
      · rw [heq]
        exact h.2
      · rw [next_of_running he] at hnext
        exact h.2.trans (hchanges.same hip hnext)
    exact (invariant_of_visited hstep ⟨he, .refl e.state part⟩
      fun q hq i hi => hpart i (next_mem_trace hq hi)).2.2
  · intro name hname
    have hstep (e' : Execution) (E : Environment)
        (h : e'.state.Formed ∧ e'.state.getVariable name = e.state.getVariable name)
        (hnext : ∀ i, e'.next M p = some i → name ∉ i.1.targets i.2) :
        (e'.step M p E).state.Formed ∧
          (e'.step M p E).state.getVariable name = e.state.getVariable name := by
      refine ⟨formed_step h.1 E, ?_⟩
      rcases step_cases (M := M) (E := E) (p := p) h.1 with ⟨-, heq⟩ | ⟨he, hchanges⟩
      · rw [heq]
        exact h.2
      · rw [next_of_running he] at hnext
        exact (hchanges.getVariable hnext).trans h.2
    exact (invariant_of_visited hstep ⟨he, rfl⟩
      fun q hq i hi => hname i (next_mem_trace hq hi)).2.2

end Execution

/-! ## The queues -/

/-- The messages are what the clients received but for the `n` first ones, the data are the end of
the bytes that they received. -/
structure State.Queued (s : State) (n : ℕ) : Prop where
  le : n ≤ (messagesOf s.received).length
  messages : s.messages = (messagesOf s.received).drop n
  valid : s.data.Valid
  contents : s.data.contents <:+ bytesOf s.received

lemma contents_addData {d : Data} (h : d.Valid) (block : Block) :
    (d.addData block).Valid ∧ (d.addData block).contents = d.contents ++ block := by
  have hrun : DataRun.Follows ⟨d, d.contents, []⟩ := ⟨h, rfl, Nat.zero_le _⟩
  obtain ⟨hvalid, hcontents, -⟩ := hrun.step (.addData block)
  exact ⟨hvalid, hcontents⟩

namespace State.Queued

variable {s s' : State} {n : ℕ}

lemma of_same (h : s.Queued n) (hmessages : s'.messages = s.messages) (hdata : s'.data = s.data)
    (hreceived : s'.received = s.received) : s'.Queued n := by
  refine ⟨?_, ?_, ?_, ?_⟩
  · rw [hreceived]
    exact h.le
  · rw [hmessages, hreceived]
    exact h.messages
  · rw [hdata]
    exact h.valid
  · rw [hdata, hreceived]
    exact h.contents

lemma accepted (h : s.Queued n) : (s.arrive .accepted).Queued n := by
  have hmessages : messagesOf (s.received ++ [.accepted]) = messagesOf s.received := by
    rw [messagesOf_append]
    exact List.append_nil _
  have hbytes : bytesOf (s.received ++ [.accepted]) = bytesOf s.received := by
    rw [bytesOf_append]
    exact List.append_nil _
  obtain ⟨connections, hadd⟩ := Op.exists_add_accepted s
  rw [State.arrive, hadd]
  exact ⟨hmessages ▸ h.le, hmessages ▸ h.messages, h.valid, hbytes ▸ h.contents⟩

lemma message (h : s.Queued n) (msg : Message) : (s.arrive (.message msg)).Queued n := by
  have hmessages : messagesOf (s.arrive (.message msg)).received
      = messagesOf s.received ++ [msg] := messagesOf_append _ _
  have hbytes : bytesOf (s.arrive (.message msg)).received = bytesOf s.received :=
    (bytesOf_append _ _).trans (List.append_nil _)
  refine ⟨?_, ?_, h.valid, hbytes ▸ h.contents⟩
  · rw [hmessages, List.length_append]
    exact h.le.trans (Nat.le_add_right _ _)
  · rw [hmessages, List.drop_append_of_le_length h.le, ← h.messages]
    rfl

lemma data (h : s.Queued n) (block : Block) : (s.arrive (.data block)).Queued n := by
  have hmessages : messagesOf (s.arrive (.data block)).received = messagesOf s.received :=
    (messagesOf_append _ _).trans (List.append_nil _)
  have hbytes : bytesOf (s.arrive (.data block)).received = bytesOf s.received ++ block := by
    refine (bytesOf_append _ _).trans (congrArg _ ?_)
    exact List.append_nil block
  obtain ⟨hvalid, hcontents⟩ := contents_addData h.valid block
  refine ⟨hmessages ▸ h.le, hmessages ▸ h.messages, hvalid, ?_⟩
  obtain ⟨front, hfront⟩ := h.contents
  refine ⟨front, ?_⟩
  change front ++ (s.data.addData block).contents = _
  rw [hcontents, ← List.append_assoc, hfront, hbytes]

lemma arrivals (h : s.Queued n) (arrivals : List Arrival) :
    (arrivals.foldl State.arrive s).Queued n := by
  induction arrivals generalizing s with
  | nil => exact h
  | cons a arrivals ih =>
    refine ih ?_
    cases a with
    | accepted => exact h.accepted
    | message msg => exact h.message msg
    | data block => exact h.data block

lemma read (h : s.Queued n) (size : ℕ) :
    ({ s with data := (s.data.readData [] size).2 } : State).Queued n := by
  obtain ⟨-, hcontents, hvalid⟩ := Data.readData_eq h.valid [] size
  refine ⟨h.le, h.messages, hvalid, ?_⟩
  change (s.data.readData [] size).2.contents <:+ bytesOf s.received
  rw [hcontents]
  exact (List.drop_suffix _ _).trans h.contents

/-- What an instruction does to the queues: only `clear_message()` removes a message. -/
lemma effect {p : Program} {params : Parameters} {op : Op} (h : s.Queued n)
    (heffect : op.Effect p params s s') :
    s'.Queued (if op = .clearMessage ∧ s.messages ≠ [] then n + 1 else n) := by
  have hother (hop : op ≠ .clearMessage) (hmessages : Part.messages ∉ op.footprint)
      (hdata : Part.data ∉ op.footprint) (hreceived : Part.received ∉ op.footprint) :
      s'.Queued (if op = .clearMessage ∧ s.messages ≠ [] then n + 1 else n) := by
    rw [if_neg fun hclear => hop hclear.1]
    exact h.of_same (heffect.same hmessages) (heffect.same hdata) (heffect.same hreceived)
  cases op with
  | clearMessage =>
    cases heffect
    rw [State.clearMessage]
    cases hs : s.messages with
    | nil =>
      rw [if_neg (by simp)]
      exact h
    | cons msg messages =>
      have hdrop := h.messages
      rw [hs] at hdrop
      rw [if_pos ⟨rfl, List.cons_ne_nil _ _⟩]
      refine ⟨?_, ?_, h.valid, h.contents⟩
      · have hlen := congrArg List.length hdrop
        rw [List.length_cons, List.length_drop] at hlen
        change n + 1 ≤ (messagesOf s.received).length
        omega
      · change messages = (messagesOf s.received).drop (n + 1)
        rw [← List.tail_drop, ← hdrop]
        rfl
  | clearData =>
    cases heffect
    exact ⟨h.le, h.messages, .inl rfl, List.nil_suffix⟩
  | verifyData =>
    obtain ⟨size, rfl⟩ := heffect
    exact h.read size
  | wait =>
    obtain ⟨arrivals, rfl⟩ := heffect
    exact h.arrivals arrivals
  | _ => exact hother (by decide) (by decide) (by decide) (by decide)

/-- What an instruction that stops does to the queues: it removes no message. -/
lemma leaves {op : Op} (h : s.Queued n) (hleaves : op.Leaves s s') : s'.Queued n := by
  cases op with
  | verifyData =>
    rcases hleaves with rfl | ⟨size, rfl⟩
    · exact h
    · exact h.read size
  | wait =>
    obtain ⟨arrivals, rfl⟩ := hleaves
    exact h.arrivals arrivals
  | listen =>
    obtain ⟨_, rfl⟩ := hleaves
    exact h.of_same rfl rfl rfl
  | _ =>
    cases hleaves
    exact h.of_same rfl rfl rfl

lemma left {M : Machine} {p : Program} (h : s.Queued n) (hleft : Left M p s s') :
    s'.Queued n := by
  have hmoved : ({ s with ip := s.ip + 1 } : State).Queued n := h.of_same rfl rfl rfl
  rw [Left] at hleft
  cases hexecuted : executed M p s with
  | none =>
    rw [hexecuted] at hleft
    rcases hleft with rfl | ⟨rfl, -⟩
    · exact h
    · exact hmoved
  | some i =>
    rw [hexecuted] at hleft
    exact hmoved.leaves hleft

end State.Queued

namespace Execution

variable {M : Machine} {E : Environment} {p : Program} {e : Execution}

lemma clears_iff (he : e.halted = none) {op : Op} {params : Parameters}
    (h : executed M p e.state = some (op, params)) :
    e.clears M p = true ↔ op = .clearMessage ∧ e.state.messages ≠ [] := by
  rw [clears, next_of_running he, h]
  simp

lemma queued_step (hs : e.state.Formed) {n : ℕ} (h : e.state.Queued n) :
    (e.step M p E).state.Queued (if e.clears M p then n + 1 else n) := by
  cases he : e.halted with
  | some halted =>
    have hclears : e.clears M p = false := by
      rw [clears, next, he]
      rfl
    rw [step_of_halted he, hclears]
    exact h
  | none =>
    cases hexecute : executeInstruction M E p e.state with
    | error halted =>
      rw [step_of_error he hexecute]
      -- `clear_message()` does not fail
      have hclears : e.clears M p = false := by
        rw [Bool.eq_false_iff]
        intro hclears
        cases hexecuted : executed M p e.state with
        | none =>
          rw [clears, next_of_running he, hexecuted] at hclears
          cases hclears
        | some i =>
          obtain ⟨op, params⟩ := i
          obtain ⟨rfl, -⟩ := (clears_iff he hexecuted).mp hclears
          rw [executeInstruction_of_executed hexecuted (by decide)] at hexecute
          cases hexecute
      rw [hclears]
      exact h.left ((ensures_executeInstruction hs).of_eq_error hexecute).2
    | ok s =>
      rw [step_of_ok he hexecute]
      obtain ⟨op, params, hexecuted, heffect⟩ :=
        (ensures_executeInstruction hs).of_eq_ok hexecute
      have hmoved : ({ e.state with ip := e.state.ip + 1 } : State).Queued n :=
        h.of_same rfl rfl rfl
      simp only [clears_iff he hexecuted]
      exact hmoved.effect heffect

lemma received_foldl (arrivals : List Arrival) (s : State) :
    (arrivals.foldl State.arrive s).received = s.received ++ arrivals := by
  induction arrivals generalizing s with
  | nil => exact (List.append_nil _).symm
  | cons a arrivals ih =>
    rw [List.foldl_cons, ih, State.arrive, List.append_assoc, List.singleton_append]

/-- A `wait()` leaves what happened during its calls of `poll()`, however it ends. -/
lemma received_wait {params : Parameters} (he : e.halted = none)
    (h : executed M p e.state = some (.wait, params)) :
    (e.step M p E).state.received = e.state.received ++ e.arrivals M p E := by
  have hwait : executeInstruction M E p e.state =
      instWait M E (locationAt p e.state) params { e.state with ip := e.state.ip + 1 } :=
    executeInstruction_of_executed h (by decide)
  rw [arrivals, next_of_running he, h]
  dsimp only
  rw [instWait] at hwait
  dsimp only at hwait
  split_ifs at hwait ⊢ with hthread
  · cases hgiven : waitParameters M.A.toConversions (locationAt p e.state) params with
    | error e' =>
      rw [hgiven] at hwait
      rw [step_of_error he hwait]
      exact (List.append_nil _).symm
    | ok given =>
      obtain ⟨timeout, mode⟩ := given
      rw [hgiven] at hwait
      have hloop : Ensures (waitLoop mode (E.waitPoll mode timeout)
          { e.state with ip := e.state.ip + 1 }) _ _ := ensures_waitLoop mode _
      cases hresult : waitLoop mode (E.waitPoll mode timeout)
          { e.state with ip := e.state.ip + 1 } with
      | error stopped =>
        rw [step_of_error he (hwait.trans hresult)]
        change stopped.state.received = _
        rw [(hloop.of_eq_error hresult).2, received_foldl]
        rfl
      | ok s =>
        rw [step_of_ok he (hwait.trans hresult), hloop.of_eq_ok hresult, received_foldl]
        rfl
  · rw [step_of_error he hwait]
    exact (List.append_nil _).symm

lemma arrivals_of_ne (h : ∀ params, e.next M p ≠ some (.wait, params)) : e.arrivals M p E = [] := by
  rw [arrivals]
  split
  · rename_i params hnext
    exact absurd hnext (h params)
  · rfl

/-- Only `wait()` lets the clients and the server do something. -/
lemma received_step (hs : e.state.Formed) :
    (e.step M p E).state.received = e.state.received ++ e.arrivals M p E := by
  by_cases hwait : ∃ params, e.next M p = some (.wait, params)
  · obtain ⟨params, hnext⟩ := hwait
    cases he : e.halted with
    | some h =>
      rw [next, he] at hnext
      cases hnext
    | none => exact received_wait he (next_of_running he ▸ hnext)
  · rw [arrivals_of_ne fun params hnext => hwait ⟨params, hnext⟩, List.append_nil]
    rcases step_cases (M := M) (E := E) (p := p) hs with ⟨-, heq⟩ | ⟨he, hchanges⟩
    · rw [heq]
    · rw [next_of_running he] at hwait
      have hfootprint (op : Op) (hmem : Part.received ∈ op.footprint) : op = .wait := by
        cases op <;> first | rfl | exact absurd hmem (by decide)
      have hsame : Part.received.Same e.state (e.step M p E).state :=
        hchanges.same (by decide) fun i hi hmem => hwait ⟨i.2, hfootprint i.1 hmem ▸ hi⟩
      exact hsame

/-- **The queues of a run.**  What the clients and the server did is what happened during the
`wait()`s.  The messages of the script are those that its clients received, in their order, but for
one at the front for each `clear_message()` that found one; the data that it did not read are the
end of what its clients received. -/
theorem queues_runFrom (M : Machine) (p : Program) (l : List Environment) :
    ((runFrom (step M p) {} l).state.received =
        (visited (step M p) {} l).flatMap fun q => q.1.arrivals M p q.2) ∧
      (runFrom (step M p) {} l).state.Queued
        ((visited (step M p) {} l).countP fun q => q.1.clears M p) := by
  suffices hrun : ∀ (e : Execution) (n : ℕ), e.state.Formed → e.state.Queued n →
      (runFrom (step M p) e l).state.received =
          e.state.received ++ (visited (step M p) e l).flatMap (fun q => q.1.arrivals M p q.2) ∧
        (runFrom (step M p) e l).state.Queued
          (n + (visited (step M p) e l).countP fun q => q.1.clears M p) by
    have hstart : ({} : State).Queued 0 := ⟨le_rfl, rfl, .inl rfl, List.nil_suffix⟩
    simpa using hrun {} 0 formed_start hstart
  induction l with
  | nil => exact fun e n _ h => ⟨(List.append_nil _).symm, h⟩
  | cons E l ih =>
    intro e n hs h
    rw [visited_cons, List.countP_cons, List.flatMap_cons]
    obtain ⟨hreceived, hqueued⟩ :=
      ih (e.step M p E) _ (formed_step hs E) (queued_step (E := E) hs h)
    rw [received_step hs, List.append_assoc] at hreceived
    have hcount : n + ((visited (step M p) (e.step M p E) l).countP (fun q => q.1.clears M p)
        + if e.clears M p then 1 else 0)
        = (if e.clears M p then n + 1 else n)
          + (visited (step M p) (e.step M p E) l).countP fun q => q.1.clears M p := by
      split_ifs <;> omega
    rw [hcount]
    exact ⟨hreceived, hqueued⟩

/-- Functions for the scripts that call none of them. -/
def standard : Machine where
  A := .blank
  S := .standard
  T := .standard
  intToHex _ _ _ := []
  toUpper name := name.map Char.toUpper
  sigabbrev _ := none

/-- Answers of a system on which nothing happens. -/
def quiet : Environment where
  hostname := []
  pidMax := 32768
  now := (0, 0)
  rand := (0, 0, 0, 0)
  pthreadKill _ := none
  nanosleep _ := true
  server _ _ := none
  resize _ := none
  exitPoll _ := .ok false
  waitPoll _ _ := []

/-- The script `run() wait(timeout: 1) clear_message()`. -/
def waitProgram : Program where
  statements :=
    [{ instruction := Op.run.instruction, filename := [], line := 0 },
      { instruction := Op.wait.instruction, filename := [], line := 0
        parameters :=
          SortedMap.insert ∅ "timeout".toList (.expression (.primary (integerToken 1))) },
      { instruction := Op.clearMessage.instruction, filename := [], line := 0 }]

/-- Answers of a system on which a client connects, and sends two messages and three bytes. -/
def speaking : Environment :=
  { quiet with
    waitPoll _ _ := [.called [.accepted, .message { command := "FIRST".toList },
      .data [1, 2, 3], .message { command := "SECOND".toList }] none] }

/-- After two messages and a `clear_message()` the second one is left. -/
theorem queues_runFrom_waitProgram :
    let l := [quiet, speaking, quiet]
    let s := (runFrom (step standard waitProgram) {} l).state
    s.messages.map (fun msg => msg.command) = ["SECOND".toList] ∧ s.data.contents = [1, 2, 3] ∧
      s.received = (visited (step standard waitProgram) {} l).flatMap
        (fun q => q.1.arrivals standard waitProgram q.2) ∧
      s.Queued ((visited (step standard waitProgram) {} l).countP
        fun q => q.1.clears standard waitProgram) :=
  ⟨by decide, by decide, queues_runFrom standard waitProgram _⟩

/-! ## The end of a script -/

/-- The next step executes an `exit()`. -/
def Exits (M : Machine) (p : Program) (e : Execution) : Prop :=
  ∃ params, e.next M p = some (.exit, params)

/-- What an execution is behind an `exit()`. -/
inductive Exited (p : Program) (e : Execution) : Prop where
  /-- It failed, after it set the exit code to 0. -/
  | failed (h : Halted) (halted : e.halted = some h) (ordinary : Ordinary h)
    (exitCode : e.state.exitCode = 0)
  /-- The instruction pointer is behind the last statement. -/
  | ended (halted : e.halted = none ∨ e.halted = some .done)
    (ip : e.state.ip = UInt32.ofNat p.statements.length)
    (exitCode : e.state.exitCode = 0 ∨ e.state.exitCode = 1)

lemma next_eq_none_of_halted {h : Halted} (he : e.halted = some h) : e.next M p = none := by
  rw [next, he]

/-- A step without an `exit()` keeps the exit code. -/
lemma exitCode_step (hs : e.state.Formed) (h : ¬ e.Exits M p) :
    (e.step M p E).state.exitCode = e.state.exitCode := by
  rcases step_cases (M := M) (E := E) (p := p) hs with ⟨-, heq⟩ | ⟨he, hchanges⟩
  · rw [heq]
  · rw [Exits, next_of_running he] at h
    have hfootprint (op : Op) (hmem : Part.exitCode ∈ op.footprint) : op = .exit := by
      cases op <;> first | rfl | exact absurd hmem (by decide)
    have hsame : Part.exitCode.Same e.state (e.step M p E).state :=
      hchanges.same (by decide) fun i hi hmem => h ⟨i.2, hfootprint i.1 hmem ▸ hi⟩
    exact hsame

/-- An `exit()` only stops for an ordinary reason. -/
lemma ordinary_of_mayStop {s : State} {params : Parameters}
    (hexecuted : executed M p s = some (.exit, params)) {h : Halted} (hstop : MayStop M p s h) :
    Ordinary h := by
  obtain ⟨stmt, hstmt, hop, -⟩ := exists_of_executed hexecuted
  have hordinary (hstops : ∃ op params, executed M p s = some (op, params) ∧
      op.Stops p params s h) : Ordinary h := by
    obtain ⟨op, params', hexecuted', hstops⟩ := hstops
    rw [hexecuted] at hexecuted'
    cases hexecuted'
    cases h with
    | emptyStack => cases hstops.1
    | outOfRange what => exact absurd hstops.1 (by decide)
    | done | missing | unknown | wrongClass => exact False.elim hstops
    | _ => exact trivial
  cases h with
  | done =>
    rw [MayStop, hstmt] at hstop
    cases hstop
  | unknown =>
    obtain ⟨stmt', hstmt', hop'⟩ := hstop
    rw [hstmt] at hstmt'
    cases hstmt'
    rw [hop] at hop'
    cases hop'
  | _ => exact hstop.elim id hordinary

lemma exited_step (hs : e.state.Formed) (h : e.Exits M p) : (e.step M p E).Exited p := by
  obtain ⟨params, hexit⟩ := h
  cases he : e.halted with
  | some halted =>
    rw [next_eq_none_of_halted he] at hexit
    cases hexit
  | none =>
    rw [next_of_running he] at hexit
    cases hexecute : executeInstruction M E p e.state with
    | error stopped =>
      obtain ⟨hstop, hleft⟩ := (ensures_executeInstruction hs).of_eq_error hexecute
      rw [Left, hexit] at hleft
      rw [step_of_error he hexecute]
      refine .failed stopped.why rfl (ordinary_of_mayStop hexit hstop) ?_
      change stopped.state.exitCode = 0
      rw [hleft]
    | ok s =>
      obtain ⟨op, params', hop, heffect⟩ := (ensures_executeInstruction hs).of_eq_ok hexecute
      rw [hop] at hexit
      cases hexit
      obtain ⟨exitCode, hcode, rfl⟩ := heffect
      rw [step_of_ok he hexecute]
      exact .ended (.inl rfl) rfl hcode

lemma Exited.exitCode_ne (h : e.Exited p) : e.state.exitCode ≠ -1 := by
  cases h with
  | failed halted hhalted hordinary hcode =>
    rw [hcode]
    decide
  | ended hhalted hip hcode => rcases hcode with hcode | hcode <;> rw [hcode] <;> decide

lemma exitCode_ne_iff (hs : e.state.Formed) :
    (e.step M p E).state.exitCode ≠ -1 ↔ e.state.exitCode ≠ -1 ∨ e.Exits M p := by
  by_cases h : e.Exits M p
  · exact iff_of_true (exited_step hs h).exitCode_ne (.inr h)
  · rw [exitCode_step hs h]
    exact (or_iff_left h).symm

/-- The step after an `exit()` finds no statement, or an execution that stopped. -/
lemma Exited.step (h : e.Exited p) (hp : p.statements.length < 2 ^ 32) (E : Environment) :
    (e.step M p E).state = e.state ∧ (e.step M p E).halted = some (e.halted.getD .done) ∧
      (e.step M p E).Exited p := by
  cases he : e.halted with
  | some halted =>
    rw [step_of_halted he]
    exact ⟨rfl, he, h⟩
  | none =>
    cases h with
    | failed halted hhalted =>
      rw [he] at hhalted
      cases hhalted
    | ended hhalted hip hcode =>
      have hnone : p.statements[e.state.ip.toNat]? = none := by
        rw [hip, UInt32.toNat_ofNat', Nat.mod_eq_of_lt hp]
        exact List.getElem?_eq_none le_rfl
      have hexecute : executeInstruction M E p e.state = .error ⟨.done, e.state⟩ := by
        rw [executeInstruction, hnone]
      rw [step_of_error he hexecute]
      exact ⟨rfl, rfl, .ended (.inr rfl) hip hcode⟩

/-- An execution whose exit code is set is behind an `exit()`. -/
lemma exited_of_exitCode_ne (hp : p.statements.length < 2 ^ 32) (l : List Environment)
    (h : (runFrom (step M p) {} l).state.exitCode ≠ -1) : (runFrom (step M p) {} l).Exited p := by
  have hstep (e : Execution) (E : Environment)
      (h : e.state.Formed ∧ (e.state.exitCode ≠ -1 → e.Exited p)) :
      (e.step M p E).state.Formed ∧
        ((e.step M p E).state.exitCode ≠ -1 → (e.step M p E).Exited p) := by
    refine ⟨formed_step h.1 E, fun hcode => ?_⟩
    rcases (exitCode_ne_iff h.1).mp hcode with hold | hexits
    · exact ((h.2 hold).step hp E).2.2
    · exact exited_step h.1 hexits
  have hstart : ({} : State).Formed ∧ (({} : State).exitCode ≠ -1 → Exited p {}) :=
    ⟨formed_start, fun h => absurd rfl h⟩
  exact (invariant_of_runFrom hstep hstart l).2 h

/-- **The end of a script.**  The exit code is set exactly by the execution of an `exit()`.  It is
then 0 or 1 and nothing changes any more: either the `exit()` failed, its code is 0 and the
execution stopped there, or no instruction is found after it. -/
theorem exit_runFrom (M : Machine) (p : Program) (hp : p.statements.length < 2 ^ 32)
    (l l' : List Environment) :
    let e := runFrom (step M p) {} l
    (e.state.exitCode ≠ -1 ↔ ∃ q ∈ visited (step M p) {} l, q.1.Exits M p) ∧
      (e.state.exitCode ≠ -1 → e.Exited p ∧ (runFrom (step M p) e l').state = e.state ∧
        (l' ≠ [] → (runFrom (step M p) e l').halted = some (e.halted.getD .done))) := by
  intro e
  have hinv (e : Execution) (E : Environment) (h : e.state.Formed) :
      (e.step M p E).state.Formed := formed_step h E
  have hstep (e : Execution) (E : Environment) (h : e.state.Formed) :
      (e.step M p E).state.exitCode ≠ -1 ↔ e.state.exitCode ≠ -1 ∨ e.Exits M p :=
    exitCode_ne_iff h
  refine ⟨?_, fun hcode => ?_⟩
  · rw [reached_iff (P := fun e : Execution => e.state.exitCode ≠ -1) hinv hstep formed_start l]
    exact or_iff_right (by simp)
  · have hexited := exited_of_exitCode_ne hp l hcode
    have hkeep (e' : Execution) (E : Environment) (h : e'.state = e.state ∧ e'.Exited p) :
        (e'.step M p E).state = e.state ∧ (e'.step M p E).Exited p := by
      obtain ⟨hstate, -, hexited⟩ := h.2.step (M := M) hp E
      exact ⟨hstate.trans h.1, hexited⟩
    refine ⟨hexited, (invariant_of_runFrom hkeep ⟨rfl, hexited⟩ l').1, fun hne => ?_⟩
    obtain ⟨E, l', rfl⟩ := List.exists_cons_of_ne_nil hne
    have hhalted := (hexited.step (M := M) hp E).2.1
    -- an execution that stopped stays so
    have hstay (e' : Execution) (E : Environment) (h : e'.halted = some (e.halted.getD .done)) :
        (e'.step M p E).halted = some (e.halted.getD .done) := by rwa [step_of_halted h]
    exact invariant_of_runFrom hstay hhalted l'

/-- The script `exit(error_message: 'no', timeout: 1)`, which `exit()` refuses. -/
def badExitProgram : Program :=
  let message : ValueToken := ⟨{ token := .singleString, string := "no".toList }, rfl⟩
  { statements :=
      [{ instruction := Op.exit.instruction, filename := [], line := 0
         parameters := SortedMap.insert (SortedMap.insert ∅ "error_message".toList
           (.expression (.primary message))) "timeout".toList
           (.expression (.primary (integerToken 1))) }] }

/-- An `exit()` that fails leaves the exit code 0. -/
theorem exit_runFrom_badExitProgram :
    let e := runFrom (step standard badExitProgram) {} [quiet]
    e.halted.isSome = true ∧ e.state.exitCode = 0 ∧ e.Exited badExitProgram ∧
      (runFrom (step standard badExitProgram) e [quiet]).state = e.state ∧
      ([quiet] ≠ [] → (runFrom (step standard badExitProgram) e [quiet]).halted
        = some (e.halted.getD .done)) := by
  have hcode : (runFrom (step standard badExitProgram) {} [quiet]).state.exitCode = 0 := by decide
  have hexit := exit_runFrom standard badExitProgram (by decide) [quiet] [quiet]
  exact ⟨by decide, hcode, hexit.2 (by rw [hcode]; decide)⟩

end Execution

end EventDispatcher.Script
