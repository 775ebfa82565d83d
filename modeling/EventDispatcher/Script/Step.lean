import EventDispatcher.Script.Effects

/-!
# One step of a script

A step runs the instruction at the instruction pointer, which has its effect, or stops and leaves
what it did before (`ensures_executeInstruction`), and both leave the rest of the state alone
(`Op.Effect.same`, `Op.Leaves.same`).  The variables stay of the class of their type
(`Op.Effect.formed`), and so a step is undefined because of the class of a variable exactly when it
misuses an item of an array (`executeInstruction_eq_wrongClass_iff`).
-/

namespace EventDispatcher.Script

open Lib Reporter

/-! ## The parts of the state -/

/-- The parts of the state. -/
inductive Part where
  | ip
  | stack
  | vars
  | compare
  | inThread
  | exitCode
  | messages
  | data
  /-- `f_connection_type` and `f_listen` -/
  | listen
  | connections
  | sent
  | received
deriving DecidableEq, Repr

/-- The part is the same in the two states. -/
def Part.Same (s s' : State) : Part → Prop
  | ip => s'.ip = s.ip
  | stack => s'.stack = s.stack
  | vars => s'.vars = s.vars
  | compare => s'.compare = s.compare
  | inThread => s'.inThread = s.inThread
  | exitCode => s'.exitCode = s.exitCode
  | messages => s'.messages = s.messages
  | data => s'.data = s.data
  | listen => s'.connectionType = s.connectionType ∧ s'.listen = s.listen
  | connections => s'.connections = s.connections
  | sent => s'.sent = s.sent
  | received => s'.received = s.received

namespace Part.Same

variable {s s' s'' : State} {part : Part}

lemma refl (s : State) (part : Part) : part.Same s s := by
  cases part <;> first | rfl | exact ⟨rfl, rfl⟩

lemma trans (h : part.Same s s') (h' : part.Same s' s'') : part.Same s s'' := by
  cases part <;> first | exact Eq.trans h' h | exact ⟨h'.1.trans h.1, h'.2.trans h.2⟩

end Part.Same

namespace Op

/-- The parts of the state that an instruction is about. -/
def footprint : Op → List Part
  | call => [.ip, .stack]
  | goto | ifs => [.ip]
  | exit => [.ip, .exitCode]
  | returns => [.ip, .stack]
  | compare | hasData | hasMessage | hasType => [.compare]
  | hex | hostname | maxPid | now | random | saveParameterValue | strlen | setVariable
  | unsetVariable | sort => [.vars]
  | clearData | verifyData => [.data]
  | clearMessage => [.messages]
  | wait => [.messages, .data, .connections, .received]
  | listen | disconnect => [.listen]
  | sendData | sendMessage => [.sent]
  | run => [.inThread]
  | kill | label | print | showData | showMessage | sleep | verifyMessage => []

/-- The names of the variables that an instruction sets. -/
def targets (op : Op) (params : Parameters) : List Str :=
  match op with
  | hex | hostname | maxPid | now | random | saveParameterValue | strlen =>
    (params.given asString "variable_name").toOption.toList
  | setVariable | unsetVariable => (params.given asString "name").toOption.toList
  | sort => sortNames params
  | _ => []

variable {p : Program} {params : Parameters} {s s' : State} {op : Op} {part : Part} {name : Str}

lemma exists_add_accepted (s : State) :
    ∃ connections, s.add .accepted = { s with connections } := by
  rw [State.add]
  split
  · exact ⟨s.connections, rfl⟩
  · exact ⟨_, rfl⟩

/-- What the clients and the server do is about the connections and what is received. -/
lemma same_arrive (a : Arrival) (h : part ∉ wait.footprint) : part.Same s (s.arrive a) := by
  have hadd : part.Same s (s.add a) := by
    cases a with
    | accepted =>
      obtain ⟨connections, hadd⟩ := exists_add_accepted s
      rw [hadd]
      cases part <;> first | rfl | exact ⟨rfl, rfl⟩ | exact absurd (by decide) h
    | message msg => cases part <;> first | rfl | exact ⟨rfl, rfl⟩ | exact absurd (by decide) h
    | data block => cases part <;> first | rfl | exact ⟨rfl, rfl⟩ | exact absurd (by decide) h
  refine hadd.trans ?_
  cases part <;> first | rfl | exact ⟨rfl, rfl⟩ | exact absurd (by decide) h

lemma same_arrivals (arrivals : List Arrival) (h : part ∉ wait.footprint) :
    part.Same s (arrivals.foldl State.arrive s) := by
  induction arrivals generalizing s with
  | nil => exact .refl s part
  | cons a arrivals ih => exact (same_arrive a h).trans ih

/-- **The frame of an instruction**: it leaves the other parts alone. -/
lemma Effect.same (h : op.Effect p params s s') (hpart : part ∉ op.footprint) :
    part.Same s s' := by
  cases op with
  | call | goto | ifs | exit | listen =>
    obtain ⟨_, -, rfl⟩ := h
    cases part <;> first | rfl | exact ⟨rfl, rfl⟩ | exact absurd (by decide) hpart
  | returns =>
    obtain ⟨_, _, -, rfl⟩ := h
    cases part <;> first | rfl | exact ⟨rfl, rfl⟩ | exact absurd (by decide) hpart
  | compare | hasData | hasMessage | hasType | verifyData | sendData | sendMessage | sort =>
    obtain ⟨_, rfl⟩ := h
    cases part <;> first | rfl | exact ⟨rfl, rfl⟩ | exact absurd (by decide) hpart
  | hex | hostname | maxPid | now | random | saveParameterValue | strlen | setVariable =>
    obtain ⟨_, _, -, -, rfl⟩ := h
    cases part <;> first | rfl | exact ⟨rfl, rfl⟩ | exact absurd (by decide) hpart
  | unsetVariable =>
    obtain ⟨_, -, rfl⟩ := h
    cases part <;> first | rfl | exact ⟨rfl, rfl⟩ | exact absurd (by decide) hpart
  | run =>
    obtain ⟨-, rfl⟩ := h
    cases part <;> first | rfl | exact ⟨rfl, rfl⟩ | exact absurd (by decide) hpart
  | clearData | disconnect =>
    cases h
    cases part <;> first | rfl | exact ⟨rfl, rfl⟩ | exact absurd (by decide) hpart
  | clearMessage =>
    cases h
    rw [State.clearMessage]
    split
    · exact .refl s part
    · cases part <;> first | rfl | exact ⟨rfl, rfl⟩ | exact absurd (by decide) hpart
  | wait =>
    obtain ⟨arrivals, rfl⟩ := h
    exact same_arrivals arrivals hpart
  | kill | label | print | showData | showMessage | sleep | verifyMessage =>
    cases h
    exact .refl s part

/-- An instruction that stops leaves the other parts alone, too. -/
lemma Leaves.same (h : op.Leaves s s') (hpart : part ∉ op.footprint) : part.Same s s' := by
  cases op with
  | call | exit =>
    cases h
    cases part <;> first | rfl | exact ⟨rfl, rfl⟩ | exact absurd (by decide) hpart
  | listen =>
    obtain ⟨_, rfl⟩ := h
    cases part <;> first | rfl | exact ⟨rfl, rfl⟩ | exact absurd (by decide) hpart
  | verifyData =>
    rcases h with rfl | ⟨_, rfl⟩
    · exact .refl _ part
    · cases part <;> first | rfl | exact ⟨rfl, rfl⟩ | exact absurd (by decide) hpart
  | wait =>
    obtain ⟨arrivals, rfl⟩ := h
    exact same_arrivals arrivals hpart
  | _ =>
    cases h
    exact .refl s part

/-! The variables. -/

/-- An instruction that stops leaves the variables alone. -/
lemma Leaves.vars (h : op.Leaves s s') : s'.vars = s.vars := by
  cases op with
  | verifyData =>
    rcases h with rfl | ⟨_, rfl⟩
    · rfl
    · rfl
  | listen =>
    obtain ⟨_, rfl⟩ := h
    rfl
  | wait =>
    have hvars : Part.vars.Same s s' := Leaves.same h (by decide)
    exact hvars
  | _ =>
    cases h
    rfl

lemma toOption_of_gives {α : Type} {cast : Variable → Except Halted α} {key : String} {a : α}
    (h : Gives cast params key a) : (params.given cast key).toOption.toList = [a] := by
  rw [given_of_gives h]
  rfl

lemma find?_foldl_writeSorted {sorted : InstSort.Vars} {names : List Str} (h : name ∉ names)
    (vars : SortedMap Str Variable) :
    (names.foldl (writeSorted sorted) vars).find? name = vars.find? name := by
  induction names generalizing vars with
  | nil => rfl
  | cons other names ih =>
    obtain ⟨hne, hnames⟩ := List.ne_and_not_mem_of_not_mem_cons h
    rw [List.foldl_cons, ih hnames, writeSorted]
    split
    · rfl
    · rw [SortedMap.find?_insert, if_neg (Ne.symm hne)]

/-- An instruction leaves the variables that it does not set alone. -/
lemma Effect.getVariable (h : op.Effect p params s s') (hname : name ∉ op.targets params) :
    s'.getVariable name = s.getVariable name := by
  have hother (hvars : Part.vars ∉ op.footprint) : s'.getVariable name = s.getVariable name := by
    have hsame : s'.vars = s.vars := h.same hvars
    rw [State.getVariable, hsame, State.getVariable]
  cases op with
  | hex | hostname | maxPid | now | random | saveParameterValue | strlen | setVariable =>
    obtain ⟨target, v, hgives, -, rfl⟩ := h
    rw [targets, toOption_of_gives hgives, List.mem_singleton] at hname
    rw [State.getVariable, State.setVariable, SortedMap.find?_insert, if_neg (Ne.symm hname),
      State.getVariable]
  | unsetVariable =>
    obtain ⟨target, hgives, rfl⟩ := h
    rw [targets, toOption_of_gives hgives, List.mem_singleton] at hname
    rw [State.getVariable, State.unsetVariable, SortedMap.find?_erase, if_neg hname,
      State.getVariable]
  | sort =>
    obtain ⟨sorted, rfl⟩ := h
    exact find?_foldl_writeSorted hname s.vars
  | _ => exact hother (by decide)

lemma formed_ofContent {c : InstSort.Content} {v : Variable} (h : ofContent c = some v) :
    v.Formed := by
  cases c <;> cases h <;> exact fun _ => VariableValue.noConfusion

lemma formed_insert (hs : s.Formed) {v : Variable} (hv : v.Formed) :
    (s.setVariable name v).Formed := by
  intro other w hw
  rw [State.getVariable, State.setVariable, SortedMap.find?_insert] at hw
  split_ifs at hw
  · exact Option.some.inj hw ▸ hv
  · exact hs other w hw

lemma formed_foldl_writeSorted (sorted : InstSort.Vars) (names : List Str) (hs : s.Formed) :
    ({ s with vars := names.foldl (writeSorted sorted) s.vars } : State).Formed := by
  induction names generalizing s with
  | nil => exact hs
  | cons name names ih =>
    have hwrite : ({ s with vars := writeSorted sorted s.vars name } : State).Formed := by
      rw [writeSorted]
      split
      · exact hs
      · rename_i v hv
        obtain ⟨c, -, hc⟩ := Option.bind_eq_some_iff.mp hv
        exact formed_insert hs (formed_ofContent hc)
    exact ih hwrite

/-- **An instruction keeps the variables** of the class of their type. -/
lemma Effect.formed (h : op.Effect p params s s') (hs : s.Formed) : s'.Formed := by
  have hother (hvars : Part.vars ∉ op.footprint) : s'.Formed := by
    have hsame : s'.vars = s.vars := h.same hvars
    intro name v hv
    rw [State.getVariable, hsame] at hv
    exact hs name v hv
  cases op with
  | hex | hostname | maxPid | now | random | saveParameterValue | strlen | setVariable =>
    obtain ⟨target, v, -, hv, rfl⟩ := h
    exact formed_insert hs hv
  | unsetVariable =>
    obtain ⟨target, -, rfl⟩ := h
    intro name v hv
    rw [State.getVariable, State.unsetVariable, SortedMap.find?_erase] at hv
    split_ifs at hv
    exact hs name v hv
  | sort =>
    obtain ⟨sorted, rfl⟩ := h
    exact formed_foldl_writeSorted sorted _ hs
  | _ => exact hother (by decide)

/-! ## The table -/

/-- No instruction declares a parameter twice. -/
lemma nodup_declarations (op : Op) :
    (op.declarations.map ParameterDeclaration.name).Nodup := by
  cases op <;> decide

lemma instruction_of_of? {i : Instruction} (h : of? i = some op) : op.instruction = i := by
  simpa using List.find?_some h

/-- The instructions that are registered are in the table. -/
lemma exists_of? {i : Instruction} (h : i ∈ instructions) : ∃ op, of? i = some op := by
  obtain ⟨op, hop, rfl⟩ := List.mem_map.mp h
  rw [← Option.isSome_iff_exists, of?, List.find?_isSome]
  exact ⟨op, hop, by simp⟩

end Op

/-! ## One step -/

section Step

variable {M : Machine} {E : Environment} {p : Program} {s s' : State} {stmt : Statement} {op : Op}
  {params : Parameters}

/-- The instruction that the next step executes, with its parameters. -/
def executed (M : Machine) (p : Program) (s : State) : Option (Op × Parameters) := do
  let stmt ← p.statements[s.ip.toNat]?
  let op ← Op.of? stmt.instruction
  let params ← (parametersOf (evaluate M.A (s.script stmt.location)) stmt op.declarations).toOption
  return (op, params)

/-- The location of the next statement. -/
def locationAt (p : Program) (s : State) : Str :=
  (p.statements[s.ip.toNat]?).elim [] Statement.location

/-- The next step uses an item of an array as an integer, and it is not one. -/
def Misused (M : Machine) (p : Program) (s : State) : Prop :=
  ∃ op params, executed M p s = some (op, params) ∧ op.Misuses params s

/-- How a step may stop the execution. -/
def MayStop (M : Machine) (p : Program) (s : State) : Halted → Prop
  | .done => p.statements[s.ip.toNat]? = none
  | .unknown => ∃ stmt, p.statements[s.ip.toNat]? = some stmt ∧ Op.of? stmt.instruction = none
  | h => Ordinary h ∨ ∃ op params, executed M p s = some (op, params) ∧ op.Stops p params s h

lemma Ordinary.mayStop {h : Halted} (hordinary : Ordinary h) : MayStop M p s h := by
  cases h <;> first | exact .inl trivial | exact False.elim hordinary

/-- What a step that stops leaves of the state: the instruction pointer is past the statement, if
there is one. -/
def Left (M : Machine) (p : Program) (s s' : State) : Prop :=
  match executed M p s with
  | none => s' = s ∨ s' = { s with ip := s.ip + 1 } ∧ s.ip.toNat < p.statements.length
  | some (op, _) => op.Leaves { s with ip := s.ip + 1 } s'

lemma mayStop_of_stops {h : Halted} (hexecuted : executed M p s = some (op, params))
    (hstops : op.Stops p params s h) : MayStop M p s h := by
  cases h <;> first | exact False.elim hstops | exact .inr ⟨op, params, hexecuted, hstops⟩

lemma executed_eq (hstmt : p.statements[s.ip.toNat]? = some stmt)
    (hop : Op.of? stmt.instruction = some op) :
    executed M p s = (parametersOf (evaluate M.A (s.script stmt.location)) stmt
      op.declarations).toOption.map (op, ·) := by
  rw [executed, hstmt]
  change (Op.of? stmt.instruction).bind _ = _
  rw [hop]
  exact (Option.map_eq_bind).symm

lemma exists_of_executed (h : executed M p s = some (op, params)) :
    ∃ stmt, p.statements[s.ip.toNat]? = some stmt ∧ Op.of? stmt.instruction = some op ∧
      parametersOf (evaluate M.A (s.script stmt.location)) stmt op.declarations = .ok params := by
  rw [executed] at h
  obtain ⟨stmt, hstmt, h⟩ := Option.bind_eq_some_iff.mp h
  obtain ⟨op', hop, h⟩ := Option.bind_eq_some_iff.mp h
  obtain ⟨params', hparams, h⟩ := Option.bind_eq_some_iff.mp h
  cases h
  refine ⟨stmt, hstmt, hop, ?_⟩
  cases hx : parametersOf (evaluate M.A (s.script stmt.location)) stmt op.declarations with
  | error e =>
    rw [hx] at hparams
    cases hparams
  | ok ps =>
    rw [hx] at hparams
    exact congrArg Except.ok (Option.some.inj hparams)

lemma locationAt_eq (hstmt : p.statements[s.ip.toNat]? = some stmt) :
    locationAt p s = stmt.location := by
  rw [locationAt, hstmt]
  rfl

lemma setIp_next (hstmt : p.statements[s.ip.toNat]? = some stmt) :
    s.setIp p (s.ip + 1) = .ok { s with ip := s.ip + 1 } := by
  have hle := Control.toNat_succ_le (List.getElem?_eq_some_iff.mp hstmt).1
  rw [State.setIp, if_neg (not_lt.mpr hle)]

lemma executeInstruction_of_unknown (hstmt : p.statements[s.ip.toNat]? = some stmt)
    (hop : Op.of? stmt.instruction = none) :
    executeInstruction M E p s = .error ⟨.unknown, { s with ip := s.ip + 1 }⟩ := by
  rw [executeInstruction, hstmt]
  dsimp only
  rw [setIp_next hstmt]
  simp only [inState, bind, Except.bind, hop]

/-- The step of an instruction that is known. -/
lemma executeInstruction_eq (hstmt : p.statements[s.ip.toNat]? = some stmt)
    (hop : Op.of? stmt.instruction = some op) :
    executeInstruction M E p s =
      if op = .run then
        if s.inThread then
          inState { s with ip := s.ip + 1 }
            (raise "run() instruction found when already running in the background.".toList)
        else .ok { s with ip := s.ip + 1, inThread := true }
      else
        inState { s with ip := s.ip + 1 }
          (parametersOf (evaluate M.A (s.script stmt.location)) stmt op.declarations) >>=
            fun params => op.func M E p stmt.location params { s with ip := s.ip + 1 } := by
  rw [executeInstruction, hstmt]
  dsimp only
  rw [setIp_next hstmt]
  simp only [inState, bind, Except.bind, hop]
  rfl

/-- The step of an instruction whose parameters are known. -/
lemma executeInstruction_of_executed (h : executed M p s = some (op, params)) (hrun : op ≠ .run) :
    executeInstruction M E p s =
      op.func M E p (locationAt p s) params { s with ip := s.ip + 1 } := by
  obtain ⟨stmt, hstmt, hop, hparams⟩ := exists_of_executed h
  rw [executeInstruction_eq hstmt hop, if_neg hrun, hparams, locationAt_eq hstmt]
  rfl

/-- **A step** has the effect of the instruction that it executes, or stops as the instruction
may. -/
lemma ensures_executeInstruction (hs : s.Formed) :
    Ensures (executeInstruction M E p s)
      (fun s' => ∃ op params, executed M p s = some (op, params) ∧
        op.Effect p params { s with ip := s.ip + 1 } s')
      (fun e => MayStop M p s e.why ∧ Left M p s e.state) := by
  cases hstmt : p.statements[s.ip.toNat]? with
  | none =>
    have hexecuted : executed M p s = none := by
      rw [executed, hstmt]
      rfl
    rw [executeInstruction, hstmt]
    refine ⟨hstmt, ?_⟩
    rw [Left, hexecuted]
    exact .inl rfl
  | some stmt =>
    have hlt := (List.getElem?_eq_some_iff.mp hstmt).1
    cases hop : Op.of? stmt.instruction with
    | none =>
      have hexecuted : executed M p s = none := by
        rw [executed, hstmt]
        change (Op.of? stmt.instruction).bind _ = _
        rw [hop]
        rfl
      rw [executeInstruction_of_unknown hstmt hop]
      refine ⟨⟨stmt, hstmt, hop⟩, ?_⟩
      rw [Left, hexecuted]
      exact .inr ⟨rfl, hlt⟩
    | some op =>
      rw [executeInstruction_eq hstmt hop]
      refine .ite (fun hrun => ?_) fun _ => ?_
      · subst hrun
        have hexecuted : executed M p s = some (.run, []) := executed_eq hstmt hop
        refine .ite (fun _ => ⟨.inl trivial, ?_⟩) fun hthread =>
          ⟨.run, [], hexecuted, by simpa using hthread, rfl⟩
        rw [Left, hexecuted]
        exact rfl
      · cases hparams : parametersOf (evaluate M.A (s.script stmt.location)) stmt
            op.declarations with
        | error e =>
          have hexecuted : executed M p s = none := by
            rw [executed_eq hstmt hop, hparams]
            rfl
          refine ⟨((ensures_parametersOf stmt op.nodup_declarations).of_eq_error hparams).mayStop,
            ?_⟩
          rw [Left, hexecuted]
          exact .inr ⟨rfl, hlt⟩
        | ok params =>
          have hdeclared := (ensures_parametersOf stmt op.nodup_declarations).of_eq_ok hparams
          have hexecuted : executed M p s = some (op, params) := by
            rw [executed_eq hstmt hop, hparams]
            rfl
          have hfunc : Ensures (op.func M E p stmt.location params { s with ip := s.ip + 1 })
              (op.Effect p params { s with ip := s.ip + 1 })
              (op.StopsIn p params { s with ip := s.ip + 1 }) := ensures_func hdeclared hs
          refine hfunc.mono ?_ ?_
          · exact fun s' h => ⟨op, params, hexecuted, h⟩
          · intro e h
            refine ⟨mayStop_of_stops hexecuted h.why, ?_⟩
            rw [Left, hexecuted]
            exact h.state

/-- **The only misuses of a variable** are those of the items of an array. -/
lemma executeInstruction_eq_wrongClass_iff (hs : s.Formed) :
    (∃ s', executeInstruction M E p s = .error ⟨.wrongClass, s'⟩) ↔ Misused M p s := by
  constructor
  · rintro ⟨s', h⟩
    rcases ((ensures_executeInstruction hs).of_eq_error h).1 with hordinary | hmisuses
    · exact False.elim hordinary
    · exact hmisuses
  · rintro ⟨op, params, hexecuted, hmisuses⟩
    have hrun : op ≠ .run := by
      rintro rfl
      exact hmisuses
    rw [executeInstruction_of_executed hexecuted hrun]
    exact func_of_misuses hmisuses

end Step

end EventDispatcher.Script
