import EventDispatcher.Script.Run

/-!
# The flow of control of a script

The control flow of a test program is a machine of its own (`Reporter.Execution`), which takes the
values of the parameters and what the other instructions do as inputs.  A run of a script is one of
its runs, with the inputs that the script computes (`control_runFrom`): so what is known about the
calls and the jumps holds of the scripts that the parser accepts.
-/

namespace EventDispatcher.Script

open Lib Reporter

namespace Halted

/-- The exception for an execution that does not stop because of the flow of control. -/
def toThrown : Halted → Thrown
  | .raised (.exception ⟨.runtimeError, what⟩) => .runtimeError what
  | .raised (.exception ⟨_, what⟩) | .raised (.library what) => .library what
  | .missing name => .runtimeError ("parameter \"".toList ++ name ++ "\" is required.".toList)
  | _ => .library []

/-- Why an execution stops, as the flow of control sees it. -/
def toHalt : Halted → Halt
  | .done => .done
  | .outOfRange what => .outOfRange what
  | .emptyStack => .emptyStack
  | h => .thrown h.toThrown

end Halted

/-- Why an execution stops, as the flow of control sees it. -/
def Stopped.toHalt (e : Stopped) : Halt := e.why.toHalt

/-- The exception for an execution that does not stop because of the flow of control. -/
def Stopped.toThrown (e : Stopped) : Thrown := e.why.toThrown

lemma through_inState {α : Type} {β δ : Type} (f : α → β) (g : Halted → δ) (s : State)
    (x : Except Halted α) :
    through f (fun e : Stopped => g e.why) (inState s x) = through f g x := by
  cases x <;> rfl

lemma toHalt_of_ordinary {h : Halted} (hordinary : Ordinary h) : h.toHalt = .thrown h.toThrown := by
  cases h <;> first | rfl | exact False.elim hordinary

/-! ## The parameters -/

/-- The parameters, as the flow of control sees them. -/
def Parameters.toControl (params : Parameters) : List (Str × Reporter.Variable) :=
  params.map fun param => (param.1, param.2.toControl)

lemma lookup_toControl (params : Parameters) (name : Str) :
    params.toControl.lookup name = (params.lookup name).map Variable.toControl := by
  induction params with
  | nil => rfl
  | cons param params ih =>
    change ((param.1, param.2.toControl) :: Parameters.toControl params).lookup name
      = (List.lookup name ((param.1, param.2) :: params)).map _
    rw [List.lookup_cons, List.lookup_cons]
    cases name == param.1
    · exact ih
    · rfl

/-- The parameters of a statement, as the flow of control sees them. -/
lemma through_parametersOf {evaluate : Argument → Except Halted Variable}
    (hevaluate : ∀ value, Ensures (evaluate value) (fun _ => True) Ordinary) (stmt : Statement)
    (decls : List ParameterDeclaration) :
    through Parameters.toControl Halted.toHalt (parametersOf evaluate stmt decls) =
      Control.parametersOf
        (fun value => through Variable.toControl Halted.toThrown (evaluate value)) stmt decls := by
  induction decls with
  | nil => rfl
  | cons decl decls ih =>
    rw [parametersOf, Control.parametersOf]
    cases stmt.getParameter decl.name with
    | none =>
      dsimp only
      split_ifs
      · rfl
      · exact ih
    | some value =>
      dsimp only
      cases hvalue : evaluate value with
      | error h =>
        have hordinary := (hevaluate value).of_eq_error hvalue
        change Except.error h.toHalt = Except.error (Halt.thrown h.toThrown)
        rw [toHalt_of_ordinary hordinary]
      | ok v =>
        change through _ _ (if typeMatches decl.type v.toControl then _ else _)
          = if typeMatches decl.type v.toControl then _ else _
        split_ifs
        · rw [← ih]
          cases parametersOf evaluate stmt decls <;> rfl
        · rw [Variable.type_toControl]
          rfl

section Labels

variable {decls : List ParameterDeclaration} {params : Parameters} {name : String}

/-- The label that a variable of the type `identifier` gives. -/
lemma labelOf_toControl {v : Variable} (h : Accepted "identifier".toList v) :
    Control.labelOf v.toControl = through id Halted.toHalt (asString v) := by
  have htype := h.type_of_plain (by decide)
  obtain ⟨-, hformed⟩ := h
  rcases v with (_ | text | _ | _ | _ | _ | _ | type) | _ | _
  case value.identifier => rfl
  case value.other => exact absurd rfl (hformed type)
  all_goals cases htype

lemma accepted_of_get (h : Typed decls params)
    (htype : typeOf decls name.toList = some "identifier".toList) {v : Variable}
    (hv : params.get name = some v) : Accepted "identifier".toList v := by
  obtain ⟨type, htype', haccepted⟩ := h.lookup hv
  rw [htype, Option.some.injEq] at htype'
  exact htype' ▸ haccepted

/-- The label of `call()` and `goto()`. -/
lemma through_label (h : Typed decls params)
    (htype : typeOf decls "label".toList = some "identifier".toList) :
    through id Halted.toHalt (params.given asString "label") =
      Control.requiredLabel params.toControl := by
  rw [Control.requiredLabel, lookup_toControl, Parameters.given, Parameters.required]
  cases hv : params.get "label" with
  | none =>
    have hlookup : params.lookup "label".toList = none := hv
    rw [hlookup]
    rfl
  | some v =>
    have hlookup : params.lookup "label".toList = some v := hv
    rw [hlookup]
    exact (labelOf_toControl (accepted_of_get h htype hv)).symm

/-! The comparison of `if()`. -/

lemma through_compareWithZero (v : Variable) :
    through id Halted.toHalt (compareWithZero v) = Control.compareWithZero v.toControl := by
  rcases v with (_ | _ | _ | (_ | _ | _) | _ | _ | _ | _) | _ | _ <;> rfl

lemma through_ifCompare {s : State} (h : Typed Op.ifs.declarations params) :
    through id Halted.toHalt (ifCompare params s) =
      Control.ifCompare params.toControl s.control := by
  rw [Control.ifCompare, lookup_toControl, ifCompare, Parameters.optional]
  cases hv : params.get "variable" with
  | none =>
    have hlookup : params.lookup "variable".toList = none := hv
    rw [hlookup]
    change through id Halted.toHalt s.getCompare = if s.compare = .undefined then _ else _
    rw [State.getCompare]
    split_ifs <;> rfl
  | some v =>
    have hlookup : params.lookup "variable".toList = some v := hv
    have htype := (accepted_of_get h rfl hv).type_of_plain (by decide)
    rw [hlookup]
    obtain ⟨-, hformed⟩ := accepted_of_get h rfl hv
    rcases v with (_ | name | _ | _ | _ | _ | _ | type) | _ | _
    case value.identifier =>
      have hvars : s.control.vars.find? name = (s.getVariable name).map Variable.toControl :=
        SortedMap.find?_mapTo s.vars Variable.toControl name
      simp only [Option.map_some, Variable.toControl, asString, Except.map, bind, Except.bind,
        hvars]
      cases s.getVariable name with
      | none => rfl
      | some v => exact through_compareWithZero v
    case value.other => exact absurd rfl (hformed type)
    all_goals cases htype

end Labels

/-! ## The instructions -/

section Instructions

variable {M : Machine} {E : Environment} {p : Program} {params : Parameters} {s s' : State}
  {stmt : Statement} {op : Op} {inputs : Inputs}

lemma through_jump (name : Str) :
    through State.control Halted.toHalt (jump p stmt.location name s) =
      Control.jump p stmt (some name) s.control := by
  rw [jump, Control.jump]
  cases p.labels.find? name with
  | none => rfl
  | some ip =>
    dsimp only
    rw [State.setIp, Control.setIp]
    split_ifs <;> rfl

/-- A jump to the label of a parameter. -/
lemma through_jumpTo {x : Except Halted Str} {y : Except Halt Str}
    (hx : through id Halted.toHalt x = y) :
    through State.control Halted.toHalt (x >>= fun name => jump p stmt.location name s) =
      y.map some >>= fun label => Control.jump p stmt label s.control := by
  subst hx
  cases x with
  | ok name => exact through_jump name
  | error h => rfl

lemma through_ifs (h : Typed Op.ifs.declarations params) :
    through State.control Halted.toHalt (instIf p stmt.location params s) =
      Control.target .ifs params.toControl s.control >>= fun label =>
        Control.jump p stmt label s.control := by
  rw [Control.target, Control.ifLabel, ← through_ifCompare h, instIf]
  cases ifCompare params s with
  | error halted => rfl
  | ok compare =>
    have hlabels : ((Control.ifLabels compare).findSome? fun name =>
        params.toControl.lookup name.toList) =
        ((Control.ifLabels compare).findSome? params.get).map Variable.toControl := by
      rw [List.map_findSome?]
      exact congrArg (fun f => (Control.ifLabels compare).findSome? f)
        (funext fun name => lookup_toControl params name.toList)
    have hok : ∀ f : Compare → Except Halted State, (Except.ok compare >>= f) = f compare :=
      fun _ => rfl
    simp only [through_ok, id, hlabels, hok]
    cases hlabel : (Control.ifLabels compare).findSome? params.get with
    | none => rfl
    | some label =>
      obtain ⟨name, hname, hget⟩ := List.exists_of_findSome?_eq_some hlabel
      exact through_jumpTo (labelOf_toControl (accepted_of_get h (typeOf_ifLabels hname) hget)).symm

/-- The kinds of the instructions. -/
lemma kind_instruction (op : Op) : op.instruction.kind = match op with
    | .call => .call
    | .exit => .exit
    | .goto => .goto
    | .ifs => .ifs
    | .label => .label
    | .returns => .returns
    | .run => .run
    | _ => .other := by
  cases op <;> decide

/-- What the flow of control is told of the instruction. -/
def EffectOf (inputs : Inputs) (x : Except Stopped State) : Prop :=
  inputs.effect =
    through (fun s => (s.compare, s.vars.mapTo Variable.toControl)) Stopped.toThrown x

lemma toHalt_of_stops {h : Halted} (hreturns : op ≠ .returns) (hjumps : op ∉ [.call, .goto, .ifs])
    (hstops : op.Stops p params s h) : h.toHalt = .thrown h.toThrown := by
  cases h with
  | done => exact False.elim hstops
  | outOfRange what => exact absurd hstops.1 hjumps
  | emptyStack => exact absurd hstops.1 hreturns
  | _ => rfl

/-- An instruction that is not about the flow of control. -/
lemma through_other (hkind : stmt.instruction.kind = .other) {x : Except Stopped State}
    (hx : Ensures x (op.Effect p params s) (op.StopsIn p params s)) (heffect : EffectOf inputs x)
    (hparts : ∀ part ∈ [Part.ip, .stack, .inThread], part ∉ op.footprint)
    (hreturns : op ≠ .returns) (hjumps : op ∉ [.call, .goto, .ifs]) :
    through State.control Stopped.toHalt x =
      Control.func p inputs stmt params.toControl s.control := by
  rw [Control.func, hkind]
  dsimp only
  rw [heffect]
  cases x with
  | ok s' =>
    have hip : s'.ip = s.ip := hx.same (hparts .ip (by decide))
    have hstack : s'.stack = s.stack := hx.same (hparts .stack (by decide))
    have hthread : s'.inThread = s.inThread := hx.same (hparts .inThread (by decide))
    change Except.ok s'.control = Except.ok { s.control with
      compare := s'.compare, vars := s'.vars.mapTo Variable.toControl }
    rw [State.control, State.control, hip, hstack, hthread]
  | error h => exact congrArg Except.error (toHalt_of_stops hreturns hjumps hx.why)

/-- **An instruction**, as the flow of control sees it. -/
lemma through_func (h : Declared op.declarations params) (hs : s.Formed)
    (hop : op.instruction = stmt.instruction) (hrun : op ≠ .run)
    (heffect : EffectOf inputs (op.func M E p stmt.location params s)) :
    through State.control Stopped.toHalt (op.func M E p stmt.location params s) =
      Control.func p inputs stmt params.toControl s.control := by
  have hkind := kind_instruction op
  rw [hop] at hkind
  have hfunc : Ensures (op.func M E p stmt.location params s) (op.Effect p params s)
      (op.StopsIn p params s) := ensures_func h hs
  cases op with
  | run => exact absurd rfl hrun
  | label =>
    rw [Control.func, hkind]
    rfl
  | returns =>
    rw [Control.func, hkind]
    refine (through_inState _ Halted.toHalt s s.popIp).trans ?_
    rw [State.popIp, Control.popIp]
    rw [show s.control.stack = s.stack from rfl]
    cases s.stack <;> rfl
  | call =>
    rw [Control.func, hkind]
    have hcall : instCall p stmt.location params s = inState s.pushIp
        (params.given asString "label" >>= fun name => jump p stmt.location name s.pushIp) := by
      rw [instCall]
      cases params.given asString "label" <;> rfl
    change through State.control Stopped.toHalt (instCall p stmt.location params s) = _
    rw [hcall]
    exact (through_inState _ _ _ _).trans (through_jumpTo (through_label h.typed rfl))
  | goto =>
    rw [Control.func, hkind]
    exact (through_inState _ _ _ _).trans (through_jumpTo (through_label h.typed rfl))
  | ifs =>
    rw [Control.func, hkind]
    exact (through_inState _ _ _ _).trans (through_ifs h.typed)
  | exit =>
    rw [Control.func, hkind]
    dsimp only
    rw [heffect]
    cases hx : Op.exit.func M E p stmt.location params s with
    | ok s' =>
      rw [hx] at hfunc
      obtain ⟨exitCode, -, rfl⟩ := hfunc
      change Except.ok _ = Control.setIp p (UInt32.ofNat p.statements.length) s.control
      have hle : (UInt32.ofNat p.statements.length).toNat ≤ p.statements.length :=
        Reporter.Execution.toNat_ofNat_le _
      rw [Control.setIp, if_neg (not_lt.mpr hle)]
      rfl
    | error halted =>
      rw [hx] at hfunc
      exact congrArg Except.error (toHalt_of_stops (by decide) (by decide) hfunc.why)
  | _ =>
    exact through_other hkind hfunc heffect (by decide) (by decide) (by decide)

/-- What a step of a script tells the flow of control. -/
def inputsOf (M : Machine) (p : Program) (s : State) (E : Environment) : Inputs where
  evaluate value :=
    through Variable.toControl Halted.toThrown (evaluate M.A (s.script (locationAt p s)) value)
  effect :=
    through (fun s => (s.compare, s.vars.mapTo Variable.toControl)) Stopped.toThrown
      (executeInstruction M E p s)

/-- The instructions of the program are in the table. -/
def Known (p : Program) : Prop := ∀ stmt ∈ p.statements, ∃ op, Op.of? stmt.instruction = some op

/-- **A step** of a script is a step of the flow of control. -/
lemma through_executeInstruction (hp : Known p) (hs : s.Formed) :
    through State.control Stopped.toHalt (executeInstruction M E p s) =
      s.control.executeInstruction p (inputsOf M p s E) := by
  cases hstmt : p.statements[s.ip.toNat]? with
  | none =>
    have hstmt' : p.statements[s.control.ip.toNat]? = none := hstmt
    rw [executeInstruction, hstmt, Control.executeInstruction, hstmt']
    rfl
  | some stmt =>
    obtain ⟨op, hop⟩ := hp stmt (List.mem_of_getElem? hstmt)
    have hinstruction := Op.instruction_of_of? hop
    have hdeclarations : stmt.instruction.parameterDeclarations = op.declarations := by
      rw [← hinstruction]
      rfl
    have hkind : stmt.instruction.kind = .run ↔ op = .run := by
      rw [← hinstruction, kind_instruction]
      cases op <;> decide
    have hlocation : locationAt p s = stmt.location := locationAt_eq hstmt
    rw [Control.executeInstruction_eq (s := s.control) hstmt]
    by_cases hrun : op = .run
    · rw [executeInstruction_eq hstmt hop, if_pos hrun, if_pos (hkind.mpr hrun)]
      change _ = if s.inThread then _ else _
      split_ifs <;> rfl
    · rw [if_neg fun h => hrun (hkind.mp h)]
      have heffect : (inputsOf M p s E).effect = through
          (fun s => (s.compare, s.vars.mapTo Variable.toControl)) Stopped.toThrown
          (executeInstruction M E p s) := rfl
      rw [executeInstruction_eq hstmt hop, if_neg hrun] at heffect ⊢
      have hevaluate : (fun value => through Variable.toControl Halted.toThrown
          (evaluate M.A (s.script stmt.location) value)) = (inputsOf M p s E).evaluate := by
        rw [← hlocation]
        rfl
      rw [hdeclarations, ← hevaluate, ← through_parametersOf fun value =>
        (ensures_evaluate value).mono (fun _ _ => trivial) fun _ => id]
      rw [← through_inState Parameters.toControl Halted.toHalt { s with ip := s.ip + 1 }]
      refine through_bind fun params hparams => ?_
      rw [hparams] at heffect
      have hdeclared :=
        (ensures_parametersOf stmt op.nodup_declarations).of_eq_ok (inState_eq_ok.mp hparams)
      exact through_func hdeclared hs hinstruction hrun heffect

end Instructions

namespace Execution

variable {M : Machine} {E : Environment} {p : Program} {e : Execution}

/-- What a run of a script tells the flow of control. -/
def inputs (M : Machine) (p : Program) (e : Execution) (l : List Environment) : List Inputs :=
  (visited (step M p) e l).map fun q => inputsOf M p q.1.state q.2

/-- What a step that stops leaves of the flow of control: the statement is passed, if there is one,
and the position behind a `call()` may be on the stack. -/
def LeftFrom (s s' : Control) : Prop :=
  s' = s ∨ s' = { s with ip := s.ip + 1 } ∨ s' = ({ s with ip := s.ip + 1 } : Control).pushIp

/-- The execution, as the flow of control sees it, which keeps the state before the step that
stops. -/
structure Simulates (e : Execution) (c : Reporter.Execution) : Prop where
  running : e.halted = none → c.control = e.state.control
  stopped : e.halted ≠ none → LeftFrom c.control e.state.control
  halted : c.halted = e.halted.map Halted.toHalt

lemma control_arrivals (arrivals : List Arrival) (s : State) :
    (arrivals.foldl State.arrive s).control = s.control := by
  have hsame (part : Part) (hpart : part ∉ Op.wait.footprint) :
      part.Same s (arrivals.foldl State.arrive s) := Op.same_arrivals arrivals hpart
  have hip : _ = s.ip := hsame .ip (by decide)
  have hstack : _ = s.stack := hsame .stack (by decide)
  have hcompare : _ = s.compare := hsame .compare (by decide)
  have hvars : _ = s.vars := hsame .vars (by decide)
  have hthread : _ = s.inThread := hsame .inThread (by decide)
  rw [State.control, State.control, hip, hstack, hcompare, hvars, hthread]

lemma leftFrom_of_left {s s' : State} (h : Left M p s s') : LeftFrom s.control s'.control := by
  rw [Left] at h
  cases hexecuted : executed M p s with
  | none =>
    rw [hexecuted] at h
    rcases h with rfl | ⟨rfl, -⟩
    · exact .inl rfl
    · exact .inr (.inl rfl)
  | some i =>
    rw [hexecuted] at h
    obtain ⟨op, params⟩ := i
    change op.Leaves { s with ip := s.ip + 1 } s' at h
    cases op with
    | call =>
      cases h
      exact .inr (.inr rfl)
    | listen =>
      obtain ⟨_, rfl⟩ := h
      exact .inr (.inl rfl)
    | verifyData =>
      rcases h with rfl | ⟨_, rfl⟩ <;> exact .inr (.inl rfl)
    | wait =>
      obtain ⟨arrivals, rfl⟩ := h
      exact .inr (.inl (control_arrivals arrivals _))
    | _ =>
      cases h
      exact .inr (.inl rfl)

lemma Simulates.step {c : Reporter.Execution} (hp : Known p) (hs : e.state.Formed)
    (h : e.Simulates c) :
    (e.step M p E).Simulates (c.step p (inputsOf M p e.state E)) := by
  cases he : e.halted with
  | some halted =>
    have hhalted := h.halted
    rw [he] at hhalted
    have hstep : c.step p (inputsOf M p e.state E) = c := by
      rw [Reporter.Execution.step, hhalted]
      rfl
    rw [step_of_halted he, hstep]
    exact h
  | none =>
    have hcontrol := h.running he
    have hhalted := h.halted
    rw [he] at hhalted
    have hthrough := through_executeInstruction (M := M) (E := E) hp hs
    rw [← hcontrol] at hthrough
    cases hexecute : executeInstruction M E p e.state with
    | error stopped =>
      rw [hexecute] at hthrough
      rw [step_of_error he hexecute, Reporter.Execution.step_of_error hhalted hthrough.symm]
      refine ⟨fun hnone => absurd hnone (Option.some_ne_none _), fun _ => ?_, rfl⟩
      change LeftFrom c.control stopped.state.control
      rw [hcontrol]
      exact leftFrom_of_left ((ensures_executeInstruction hs).of_eq_error hexecute).2
    | ok s =>
      rw [hexecute] at hthrough
      rw [step_of_ok he hexecute, Reporter.Execution.step_of_ok hhalted hthrough.symm]
      exact ⟨fun _ => rfl, fun hne => absurd rfl hne, rfl⟩

lemma simulates_runFrom {c : Reporter.Execution} (hp : Known p) (hs : e.state.Formed)
    (h : e.Simulates c) (l : List Environment) :
    (runFrom (step M p) e l).Simulates
      (runFrom (Reporter.Execution.step p) c (inputs M p e l)) := by
  induction l generalizing e c with
  | nil => exact h
  | cons E l ih => exact ih (formed_step hs E) (h.step hp hs)

lemma known_of_parseProgram {filename : Str} {toks : List Token}
    (hp : parseProgram instructions filename {} toks = .ok p) : Known p := by
  obtain ⟨w, rest, calls, stmts, -, -, -, hcalls, -, rfl⟩ := parseProgram_eq_ok.mp hp
  intro stmt hstmt
  rw [Program.statements_foldl_push, List.nil_append] at hstmt
  obtain ⟨c, hc⟩ := exists_checked hcalls hstmt
  exact Op.exists_of? (List.mem_of_find?_eq_some hc.known)

/-- **The flow of control** of a script that the parser accepts: a run of the script is a run of
the machine of the control flow. -/
theorem control_runFrom (M : Machine) (filename : Str) (toks : List Token) (p : Program)
    (hp : parseProgram instructions filename {} toks = .ok p) (l : List Environment) :
    (runFrom (step M p) {} l).Simulates
      (runFrom (Reporter.Execution.step p) {} (inputs M p {} l)) := by
  have hstart : ({} : Execution).Simulates {} := ⟨fun _ => rfl, fun hne => absurd rfl hne, rfl⟩
  exact simulates_runFrom (known_of_parseProgram hp) formed_start hstart l

lemma parseProgram_instructions_callTokens :
    parseProgram instructions [] {} Reporter.Execution.callTokens
      = .ok Reporter.Execution.callProgram := by
  decide

/-- A script with a call, a return and an exit, as the flow of control sees it. -/
theorem control_runFrom_callProgram :
    let p := Reporter.Execution.callProgram
    let l := [quiet, quiet, quiet, quiet]
    (runFrom (step standard p) {} l).state.exitCode = 0 ∧
      (runFrom (step standard p) {} l).Simulates
        (runFrom (Reporter.Execution.step p) {} (inputs standard p {} l)) :=
  ⟨by decide, control_runFrom standard [] Reporter.Execution.callTokens
    Reporter.Execution.callProgram parseProgram_instructions_callTokens _⟩

end Execution

end EventDispatcher.Script
