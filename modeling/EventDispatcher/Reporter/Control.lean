import EventDispatcher.Reporter.Grammar

/-!
# The control flow of a test program

`executeInstruction` is one step of the executor.  The instructions `call()`, `return()`,
`goto()`, `if()`, `exit()` and `run()` are modelled; the others do not touch the instruction
pointer and the stack, and what they do, like the values of the parameters, is an input of the
step.  Along a run `pending` keeps the calls that were not returned from.  The jumps go to their
label and each `return()` resumes after the last pending call, as long as no `return()` is
executed without a pending call: `pop_ip()` then reads an empty stack (`safeStep_iff`).
-/

namespace EventDispatcher.Reporter

open Lib

/-- `compare_t` -/
inductive Compare where
  | undefined
  | unordered
  | less
  | equal
  | greater
deriving DecidableEq, Repr

/-- A variable, as far as the control flow reads it. -/
inductive Variable where
  | integer (n : Int64)
  | floatingPoint (d : Double)
  /-- A `variable_string` of the type `identifier`. -/
  | identifier (s : Str)
  /-- A variable of another type. -/
  | other (type : Str)

/-- `variable::get_type()` -/
def Variable.type : Variable → Str
  | integer _ => "integer".toList
  | floatingPoint _ => "floating_point".toList
  | identifier _ => "identifier".toList
  | other type => type

/-- The check of the type of a parameter. -/
def typeMatches (expected : Str) (v : Variable) : Bool :=
  expected = v.type || expected = "any".toList
    || (expected = "number".toList
      && (v.type = "integer".toList || v.type = "floating_point".toList))
    || (expected = "string_or_identifier".toList
      && (v.type = "identifier".toList || v.type = "string".toList))

/-- Why an execution stops. -/
inductive Halt where
  /-- `STEP_DONE` -/
  | done
  | thrown (t : Thrown)
  /-- An `ed::out_of_range`. -/
  | outOfRange (what : Str)
  /-- Undefined: `back()` and `pop_back()` of an empty vector. -/
  | emptyStack
  /-- Undefined: a variable is used as one of another class. -/
  | wrongClass
deriving DecidableEq

/-- The instructions that the executor and the model tell apart. -/
inductive Kind where
  | call
  | exit
  | goto
  | ifs
  | label
  | returns
  | run
  | other
deriving DecidableEq, Repr

/-- A declaration of a parameter with a label. -/
def labelDeclaration (name : String) (required : Bool) : ParameterDeclaration :=
  { name := name.toList, type := "identifier".toList, required := required }

/-- The instructions about the flow of control, with their parameters. -/
def controlInstructions : List Instruction :=
  [{ name := "call".toList, parameterDeclarations := [labelDeclaration "label" true] },
    { name := "exit".toList
      parameterDeclarations :=
        [{ name := "error_message".toList, type := "string".toList, required := false },
          { name := "timeout".toList, type := "number".toList, required := false }] },
    { name := "goto".toList, parameterDeclarations := [labelDeclaration "label" true] },
    { name := "if".toList
      parameterDeclarations :=
        ["variable", "unordered", "ordered", "less", "less_or_equal", "greater",
          "greater_or_equal", "equal", "false", "not_equal", "true"].map
            fun name => labelDeclaration name false },
    labelInstruction,
    { name := "return".toList },
    { name := "run".toList }]

/-- The kind of an instruction. -/
def Instruction.kind (i : Instruction) : Kind :=
  if i.name = "call".toList then .call
  else if i.name = "exit".toList then .exit
  else if i.name = "goto".toList then .goto
  else if i.name = "if".toList then .ifs
  else if i.name = "label".toList then .label
  else if i.name = "return".toList then .returns
  else if i.name = "run".toList then .run
  else .other

/-- `statement::get_location()` -/
def Statement.location (s : Statement) : Str :=
  s.filename ++ ":".toList ++ decimal s.line ++ ": ".toList

/-! ## One instruction -/

/-- The members of the state about the flow of control. -/
structure Control where
  /-- `f_ip` -/
  ip : UInt32 := 0
  /-- `f_stack`, the last element first -/
  stack : List UInt32 := []
  /-- `f_compare` -/
  compare : Compare := .undefined
  /-- `f_variables` -/
  vars : SortedMap Str Variable := ∅
  /-- `f_in_thread` -/
  inThread : Bool := false

/-- What a step takes from the rest of the program. -/
structure Inputs where
  /-- `compute()` and the conversion of its result to a variable -/
  evaluate : Argument → Except Thrown Variable
  /-- An instruction that is not about control: an exception, or the flag and the variables. -/
  effect : Except Thrown (Compare × SortedMap Str Variable)

namespace Control

/-- `state::set_ip()` -/
def setIp (p : Program) (ip : UInt32) (s : Control) : Except Halt Control :=
  if p.statements.length < ip.toNat then
    .error (.outOfRange "ip out of program not allowed.".toList)
  else .ok { s with ip := ip }

/-- `state::push_ip()` -/
def pushIp (s : Control) : Control := { s with stack := s.ip :: s.stack }

/-- `state::pop_ip()` -/
def popIp (s : Control) : Except Halt Control :=
  match s.stack with
  | [] => .error .emptyStack
  | ip :: stack => .ok { s with ip := ip, stack := stack }

/-- An `ed::runtime_error`. -/
def throw {α : Type} (what : Str) : Except Halt α := .error (.thrown (.runtimeError what))

/-- The parameters of a statement: the values of those that it gives, in the order of their
declarations. -/
def parametersOf (evaluate : Argument → Except Thrown Variable) (stmt : Statement) :
    List ParameterDeclaration → Except Halt (List (Str × Variable))
  | [] => .ok []
  | decl :: decls =>
    match stmt.getParameter decl.name with
    | none =>
      if decl.required then
        throw ("parameter \"".toList ++ decl.name ++ "\" was expected for instruction \"".toList
          ++ stmt.instruction.name ++ "\".".toList)
      else parametersOf evaluate stmt decls
    | some value =>
      match evaluate value with
      | .error t => .error (.thrown t)
      | .ok param =>
        if typeMatches decl.type param then
          (parametersOf evaluate stmt decls).map ((decl.name, param) :: ·)
        else
          throw (stmt.location ++ "parameter type mismatch for ".toList ++ decl.name
            ++ ", expected \"".toList ++ decl.type ++ "\", got \"".toList ++ param.type
            ++ "\" instead.".toList)

/-- The name that a parameter with a label gives; the type of the parameter was checked. -/
def labelOf : Variable → Except Halt Str
  | .identifier s => .ok s
  | _ => .error .wrongClass

/-- The label in `inst_call` and `inst_goto`. -/
def requiredLabel (params : List (Str × Variable)) : Except Halt Str :=
  match params.lookup "label".toList with
  | none => throw "parameter \"label\" is required.".toList
  | some param => labelOf param

/-- The comparison with zero in `inst_if`. -/
def compareWithZero : Variable → Except Halt Compare
  | .integer n =>
    -- the value is first converted to an `int`
    let v := n.toInt32
    .ok (if v = 0 then .equal else if v < 0 then .less else .greater)
  | .floatingPoint none => .ok .unordered
  | .floatingPoint (some (.finite q)) =>
    .ok (if q = 0 then .equal else if q < 0 then .less else .greater)
  | .floatingPoint (some (.infinite negative)) => .ok (if negative then .less else .greater)
  | _ => throw
    "if(variable: ...) only supports variables of type integer or floating point.".toList

/-- The comparison that `inst_if` looks at. -/
def ifCompare (params : List (Str × Variable)) (s : Control) : Except Halt Compare :=
  match params.lookup "variable".toList with
  | none =>
    if s.compare = .undefined then
      throw "trying to use a 'compare' result when none are currently defined.".toList
    else .ok s.compare
  | some (.identifier name) =>
    match s.vars.find? name with
    | none => .ok .unordered
    | some value => compareWithZero value
  | some _ => .error .wrongClass

/-- The parameters of `inst_if` that a comparison selects, the preferred one first. -/
def ifLabels : Compare → List String
  | .undefined => []
  | .unordered => ["unordered"]
  | .less => ["less", "less_or_equal", "not_equal", "true", "ordered"]
  | .equal => ["equal", "less_or_equal", "greater_or_equal", "false", "ordered"]
  | .greater => ["greater", "greater_or_equal", "not_equal", "true", "ordered"]

/-- The label in `inst_if`, when it jumps. -/
def ifLabel (params : List (Str × Variable)) (s : Control) : Except Halt (Option Str) :=
  match ifCompare params s with
  | .error h => .error h
  | .ok compare =>
    match (ifLabels compare).findSome? fun name => params.lookup name.toList with
    | none => .ok none
    | some param => (labelOf param).map some

/-- The label that an instruction goes to. -/
def target (kind : Kind) (params : List (Str × Variable)) (s : Control) :
    Except Halt (Option Str) :=
  match kind with
  | .call | .goto => (requiredLabel params).map some
  | .ifs => ifLabel params s
  | _ => .ok none

/-- Go to a label, if there is one. -/
def jump (p : Program) (stmt : Statement) (label : Option Str) (s : Control) :
    Except Halt Control :=
  match label with
  | none => .ok s
  | some name =>
    match p.labels.find? name with
    | none => throw (stmt.location ++ "label \"".toList ++ name ++ "\" not found.".toList)
    | some ip => setIp p ip s

/-- The functions of the instructions. -/
def func (p : Program) (inputs : Inputs) (stmt : Statement) (params : List (Str × Variable))
    (s : Control) : Except Halt Control :=
  match stmt.instruction.kind with
  | .call => do
    let s := s.pushIp
    let label ← target .call params s
    jump p stmt label s
  | .goto => do
    let label ← target .goto params s
    jump p stmt label s
  | .ifs => do
    let label ← target .ifs params s
    jump p stmt label s
  | .exit =>
    match inputs.effect with
    | .error t => .error (.thrown t)
    | .ok _ => setIp p (UInt32.ofNat p.statements.length) s
  | .returns => s.popIp
  | .label | .run => .ok s
  | .other =>
    match inputs.effect with
    | .error t => .error (.thrown t)
    | .ok (compare, vars) => .ok { s with compare := compare, vars := vars }

/-- `execute_instruction()`; `STEP_START` starts the thread, which takes over. -/
def executeInstruction (p : Program) (inputs : Inputs) (s : Control) : Except Halt Control :=
  match p.statements[s.ip.toNat]? with
  | none => .error .done
  | some stmt => do
    let s ← setIp p (s.ip + 1) s
    if stmt.instruction.kind = .run then
      if s.inThread then
        throw "run() instruction found when already running in the background.".toList
      else .ok { s with inThread := true }
    else do
      let params ← parametersOf inputs.evaluate stmt stmt.instruction.parameterDeclarations
      func p inputs stmt params s

/-- The label that the next instruction goes to. -/
def jumpsTo (p : Program) (inputs : Inputs) (s : Control) : Option Str :=
  match p.statements[s.ip.toNat]? with
  | none => none
  | some stmt =>
    match parametersOf inputs.evaluate stmt stmt.instruction.parameterDeclarations with
    | .error _ => none
    | .ok params =>
      match target stmt.instruction.kind params s with
      | .error _ => none
      | .ok label => label

/-- The statement at a position is of a kind. -/
def KindAt (p : Program) (i : ℕ) (kind : Kind) : Prop :=
  ∃ stmt, p.statements[i]? = some stmt ∧ stmt.instruction.kind = kind

end Control

/-! ## Executions -/

/-- An execution, with the calls that are pending. -/
structure Execution where
  /-- The state of the interpreter. -/
  control : Control := {}
  /-- Why the execution stopped, if it did. -/
  halted : Option Halt := none
  /-- The positions of the calls that were not returned from, the last one first. -/
  pending : List ℕ := []

namespace Execution

/-- The pending calls after the instruction at the instruction pointer. -/
def pendingAfter (p : Program) (e : Execution) : List ℕ :=
  match p.statements[e.control.ip.toNat]? with
  | none => e.pending
  | some stmt =>
    match stmt.instruction.kind with
    | .call => e.control.ip.toNat :: e.pending
    | .returns => e.pending.tail
    | _ => e.pending

/-- One instruction. -/
def step (p : Program) (e : Execution) (inputs : Inputs) : Execution :=
  match e.halted with
  | some _ => e
  | none =>
    match e.control.executeInstruction p inputs with
    | .error h => { e with halted := some h }
    | .ok s => { control := s, halted := none, pending := e.pendingAfter p }

/-- What the next instruction has to do about the flow of control. -/
structure SafeStep (p : Program) (e : Execution) (inputs : Inputs) : Prop where
  inProgram : (e.step p inputs).control.ip.toNat ≤ p.statements.length
  jumps : ∀ name, e.halted = none → e.control.jumpsTo p inputs = some name →
    (∃ i, p.LabelAt name i ∧ (e.step p inputs).halted = none ∧
      (e.step p inputs).control.ip.toNat = i) ∨
    ((∀ i, ¬ p.LabelAt name i) ∧ ∃ t, (e.step p inputs).halted = some (.thrown t))
  resumes : e.halted = none → Control.KindAt p e.control.ip.toNat .returns →
    (∃ c pending, e.pending = c :: pending ∧ Control.KindAt p c .call ∧
      (e.step p inputs).halted = none ∧ (e.step p inputs).control.ip.toNat = c + 1 ∧
      (e.step p inputs).pending = pending) ∨
    (e.pending = [] ∧ ∃ t, (e.step p inputs).halted = some (.thrown t))

/-- The condition: a label is at a position of 32 bits, and a `return()` has a pending call, which
is not the last statement that 32 bits can number. -/
structure Condition (p : Program) (e : Execution) (inputs : Inputs) : Prop where
  label : ∀ name i, e.halted = none → e.control.jumpsTo p inputs = some name →
    p.LabelAt name i → i < 2 ^ 32
  pending : e.halted = none → Control.KindAt p e.control.ip.toNat .returns →
    ∃ c pending, e.pending = c :: pending ∧ c + 1 < 2 ^ 32

/-- The instruction pointer is in the program and the stack is that of the pending calls. -/
structure Sound (p : Program) (e : Execution) : Prop where
  inProgram : e.control.ip.toNat ≤ p.statements.length
  stack : e.control.stack = e.pending.map fun c => UInt32.ofNat (c + 1)
  calls : ∀ c ∈ e.pending, Control.KindAt p c .call

end Execution

namespace Control

variable {p : Program} {inputs : Inputs} {s s' : Control}

lemma setIp_eq_ok {ip : UInt32} :
    setIp p ip s = .ok s' ↔ ip.toNat ≤ p.statements.length ∧ { s with ip := ip } = s' := by
  rw [setIp]
  split
  · exact iff_of_false nofun fun h => by omega
  · rw [Except.ok.injEq]
    exact (and_iff_right (by omega)).symm

/-- The instruction pointer goes past a statement of the program. -/
lemma toNat_succ_le {ip : UInt32} {n : ℕ} (h : ip.toNat < n) : (ip + 1).toNat ≤ n := by
  have : (ip + 1).toNat = (ip.toNat + 1) % 2 ^ 32 := UInt32.toNat_add ip 1
  have := Nat.mod_le (ip.toNat + 1) (2 ^ 32)
  omega

/-- **One instruction**, when it does not stop: `run()`, or the function of the instruction with
the instruction pointer past the statement. -/
lemma executeInstruction_eq {stmt : Statement} (hstmt : p.statements[s.ip.toNat]? = some stmt) :
    executeInstruction p inputs s =
      if stmt.instruction.kind = .run then
        if s.inThread then
          throw "run() instruction found when already running in the background.".toList
        else .ok { s with ip := s.ip + 1, inThread := true }
      else
        (parametersOf inputs.evaluate stmt stmt.instruction.parameterDeclarations).bind
          fun params => func p inputs stmt params { s with ip := s.ip + 1 } := by
  have hlt := (List.getElem?_eq_some_iff.mp hstmt).1
  have hset : setIp p (s.ip + 1) s = .ok { s with ip := s.ip + 1 } :=
    setIp_eq_ok.mpr ⟨toNat_succ_le hlt, rfl⟩
  rw [executeInstruction, hstmt]
  change (setIp p (s.ip + 1) s).bind _ = _
  rw [hset]
  rfl

lemma jump_stack {stmt : Statement} {label : Option Str} (h : jump p stmt label s = .ok s') :
    s'.stack = s.stack ∧
      (s.ip.toNat ≤ p.statements.length → s'.ip.toNat ≤ p.statements.length) := by
  unfold jump at h
  split at h
  · cases h
    exact ⟨rfl, id⟩
  · split at h
    · cases h
    · obtain ⟨hle, rfl⟩ := setIp_eq_ok.mp h
      exact ⟨rfl, fun _ => hle⟩

/-- **The functions of the instructions** keep the instruction pointer in the program; `call()`
puts it on the stack, `return()` takes it from there, and the others leave the stack alone. -/
lemma func_eq_ok {stmt : Statement} {params : List (Str × Variable)}
    (h : func p inputs stmt params s = .ok s') (hs : s.ip.toNat ≤ p.statements.length) :
    (stmt.instruction.kind = .call ∧ s'.stack = s.ip :: s.stack ∧
        s'.ip.toNat ≤ p.statements.length) ∨
      (stmt.instruction.kind = .returns ∧ s.stack = s'.ip :: s'.stack) ∨
      (stmt.instruction.kind ≠ .call ∧ stmt.instruction.kind ≠ .returns ∧ s'.stack = s.stack ∧
        s'.ip.toNat ≤ p.statements.length) := by
  rw [func] at h
  split at h
  · rename_i hkind
    obtain ⟨label, -, hjump⟩ := exists_of_bind_eq_ok h
    exact .inl ⟨hkind, (jump_stack hjump).1, (jump_stack hjump).2 hs⟩
  · rename_i hkind
    obtain ⟨label, -, hjump⟩ := exists_of_bind_eq_ok h
    exact .inr (.inr ⟨by rw [hkind]; decide, by rw [hkind]; decide, (jump_stack hjump).1,
      (jump_stack hjump).2 hs⟩)
  · rename_i hkind
    obtain ⟨label, -, hjump⟩ := exists_of_bind_eq_ok h
    exact .inr (.inr ⟨by rw [hkind]; decide, by rw [hkind]; decide, (jump_stack hjump).1,
      (jump_stack hjump).2 hs⟩)
  · rename_i hkind
    split at h
    · cases h
    · obtain ⟨hle, rfl⟩ := setIp_eq_ok.mp h
      exact .inr (.inr ⟨by rw [hkind]; decide, by rw [hkind]; decide, rfl, hle⟩)
  · rename_i hkind
    rw [popIp] at h
    split at h
    · cases h
    · rename_i ip stack hstack
      cases h
      exact .inr (.inl ⟨hkind, hstack⟩)
  · rename_i hkind
    cases h
    exact .inr (.inr ⟨by rw [hkind]; decide, by rw [hkind]; decide, rfl, hs⟩)
  · rename_i hkind
    cases h
    exact .inr (.inr ⟨by rw [hkind]; decide, by rw [hkind]; decide, rfl, hs⟩)
  · rename_i hkind
    split at h
    · cases h
    · cases h
      exact .inr (.inr ⟨by rw [hkind]; decide, by rw [hkind]; decide, rfl, hs⟩)

/-- An instruction that goes to a label does it at its end. -/
lemma executeInstruction_of_jumpsTo {name : Str} (h : s.jumpsTo p inputs = some name) :
    ∃ stmt s₁, executeInstruction p inputs s = jump p stmt (some name) s₁ := by
  rw [jumpsTo] at h
  split at h
  · cases h
  · rename_i stmt hstmt
    split at h
    · cases h
    · rename_i params hparams
      split at h
      · cases h
      · rename_i label htarget
        subst h
        rw [executeInstruction_eq hstmt, hparams]
        have hrun : stmt.instruction.kind ≠ .run := fun hkind => by
          rw [hkind] at htarget
          cases htarget
        rw [if_neg hrun]
        change ∃ stmt' s₁, func p inputs stmt params { s with ip := s.ip + 1 } = _
        rw [func]
        -- the label does not depend on the instruction pointer and the stack
        cases hkind : stmt.instruction.kind <;> rw [hkind] at htarget
        case call =>
          have htarget' : target .call params (pushIp { s with ip := s.ip + 1 })
              = .ok (some name) := htarget
          exact ⟨stmt, pushIp { s with ip := s.ip + 1 }, by
            change (target .call params (pushIp { s with ip := s.ip + 1 })).bind _ = _
            rw [htarget']
            rfl⟩
        case goto =>
          exact ⟨stmt, { s with ip := s.ip + 1 }, by
            change (target .goto params s).bind _ = _
            rw [htarget]
            rfl⟩
        case ifs =>
          exact ⟨stmt, { s with ip := s.ip + 1 }, by
            change (target .ifs params s).bind _ = _
            rw [htarget]
            rfl⟩
        all_goals cases htarget

end Control

/-- What the parser gives of a program. -/
structure Program.Accepted (p : Program) : Prop where
  labels : p.LabelTable
  returns : ∀ stmt ∈ p.statements, stmt.instruction.kind = .returns →
    stmt.instruction.parameterDeclarations = []

lemma name_of_returns {i : Instruction} (h : i.kind = .returns) : i.name = "return".toList := by
  rw [Instruction.kind] at h
  split_ifs at h with h₁ h₂ h₃ h₄ h₅ h₆
  exact h₆

/-- Each statement of a program was checked. -/
lemma exists_checked {instructions : List Instruction} {filename : Str} {calls : List Call}
    {stmts : List Statement} (h : List.Forall₂ (Checked instructions filename) calls stmts)
    {stmt : Statement} (hstmt : stmt ∈ stmts) : ∃ c, Checked instructions filename c stmt := by
  induction h with
  | nil => cases hstmt
  | cons hc _ ih =>
    rcases List.mem_cons.mp hstmt with rfl | hstmt
    · exact ⟨_, hc⟩
    · exact ih hstmt

/-- **A program that the parser accepts**: its table of labels is right, and its `return()` take
no parameters. -/
lemma accepted_of_parseProgram {others : List Instruction} {filename : Str} {toks : List Token}
    {p : Program} (hp : parseProgram (controlInstructions ++ others) filename {} toks = .ok p) :
    p.Accepted := by
  obtain ⟨w, rest, calls, stmts, -, -, -, hcalls, hlabels, rfl⟩ := parseProgram_eq_ok.mp hp
  refine ⟨Program.labelTable_empty.foldl_push hlabels, fun stmt hstmt hkind => ?_⟩
  rw [Program.statements_foldl_push, List.nil_append] at hstmt
  obtain ⟨c, hc⟩ := exists_checked hcalls hstmt
  have hname := name_of_returns hkind
  have hknown := hc.known
  have hfound : stmt.instruction.name = c.name.string := by
    simpa using List.find?_some hknown
  rw [getInstruction, List.find?_append, ← hfound, hname] at hknown
  have hcontrol : (controlInstructions.find? fun i => i.name = "return".toList)
      = some { name := "return".toList } := by decide
  rw [hcontrol] at hknown
  rw [← Option.some.inj hknown]

namespace Execution

variable {p : Program} {inputs : Inputs} {e : Execution}

lemma step_of_error (he : e.halted = none) {h : Halt}
    (hs : e.control.executeInstruction p inputs = .error h) :
    e.step p inputs = { e with halted := some h } := by
  rw [step, he]
  simp only [hs]

lemma step_of_ok (he : e.halted = none) {s : Control}
    (hs : e.control.executeInstruction p inputs = .ok s) :
    e.step p inputs = { control := s, halted := none, pending := e.pendingAfter p } := by
  rw [step, he]
  simp only [hs]

lemma pendingAfter_eq {stmt : Statement} (h : p.statements[e.control.ip.toNat]? = some stmt) :
    e.pendingAfter p = match stmt.instruction.kind with
      | .call => e.control.ip.toNat :: e.pending
      | .returns => e.pending.tail
      | _ => e.pending := by
  rw [pendingAfter, h]

lemma toNat_ofNat_le (n : ℕ) : (UInt32.ofNat n).toNat ≤ n := by
  rw [UInt32.toNat_ofNat']
  exact Nat.mod_le _ _

lemma lt_of_kindAt {i : ℕ} {kind : Kind} (h : Control.KindAt p i kind) :
    i < p.statements.length := by
  obtain ⟨stmt, hstmt, -⟩ := h
  exact (List.getElem?_eq_some_iff.mp hstmt).1

/-- A `call()` adds its position to the pending calls. -/
lemma Sound.called (he : Sound p e) {s : Control}
    (hkind : Control.KindAt p e.control.ip.toNat .call)
    (hstack : s.stack = (e.control.ip + 1) :: e.control.stack)
    (hle : s.ip.toNat ≤ p.statements.length) :
    Sound p { control := s, halted := none, pending := e.control.ip.toNat :: e.pending } := by
  have hip : e.control.ip + 1 = UInt32.ofNat (e.control.ip.toNat + 1) := by
    rw [← UInt32.toNat_inj, UInt32.toNat_ofNat', UInt32.toNat_add]
    rfl
  refine ⟨hle, ?_, ?_⟩
  · change s.stack = _ :: _
    rw [hstack, hip, he.stack]
  · rintro c (_ | ⟨_, hc⟩)
    · exact hkind
    · exact he.calls c hc

/-- A `return()` goes behind the last pending call. -/
lemma Sound.returned (he : Sound p e) {s : Control} (hstack : e.control.stack = s.ip :: s.stack) :
    Sound p { control := s, halted := none, pending := e.pending.tail } := by
  rw [he.stack] at hstack
  cases hp : e.pending with
  | nil =>
    rw [hp] at hstack
    cases hstack
  | cons c pending =>
    rw [hp, List.map_cons, List.cons.injEq] at hstack
    have hc := lt_of_kindAt (he.calls c (hp ▸ List.mem_cons_self))
    refine ⟨?_, hstack.2.symm, fun c' hc' => he.calls c' ?_⟩
    · change s.ip.toNat ≤ _
      rw [← hstack.1]
      exact (toNat_ofNat_le _).trans hc
    · rw [hp]
      exact List.mem_cons_of_mem _ hc'

/-- **Each instruction** keeps the stack that of the pending calls. -/
lemma Sound.step (he : Sound p e) (inputs : Inputs) : Sound p (e.step p inputs) := by
  cases hhalted : e.halted with
  | some h =>
    have hstep : e.step p inputs = e := by rw [Execution.step, hhalted]
    rwa [hstep]
  | none =>
    cases hexecute : e.control.executeInstruction p inputs with
    | error h =>
      rw [step_of_error hhalted hexecute]
      exact ⟨he.inProgram, he.stack, he.calls⟩
    | ok s =>
      rw [step_of_ok hhalted hexecute]
      cases hstmt : p.statements[e.control.ip.toNat]? with
      | none =>
        rw [Control.executeInstruction, hstmt] at hexecute
        cases hexecute
      | some stmt =>
        have hlt := (List.getElem?_eq_some_iff.mp hstmt).1
        have hnext := Control.toNat_succ_le hlt
        rw [pendingAfter_eq hstmt]
        rw [Control.executeInstruction_eq hstmt] at hexecute
        split at hexecute
        · rename_i hkind
          split at hexecute
          · cases hexecute
          · cases hexecute
            rw [hkind]
            exact ⟨hnext, he.stack, he.calls⟩
        · obtain ⟨params, -, hfunc⟩ := exists_of_bind_eq_ok hexecute
          rcases Control.func_eq_ok hfunc hnext with ⟨hkind, hstack, hle⟩ | ⟨hkind, hstack⟩ |
            ⟨hcall, hreturns, hstack, hle⟩
          · rw [hkind]
            exact he.called ⟨stmt, hstmt, hkind⟩ hstack hle
          · rw [hkind]
            exact he.returned hstack
          · have hsame : (match stmt.instruction.kind with
                | .call => e.control.ip.toNat :: e.pending
                | .returns => e.pending.tail
                | _ => e.pending) = e.pending := by
              cases hkind : stmt.instruction.kind <;> first | rfl | exact absurd hkind hcall |
                exact absurd hkind hreturns
            rw [hsame]
            exact ⟨hle, hstack.trans he.stack, he.calls⟩

/-- A jump goes to its label exactly when the position of the label has 32 bits. -/
lemma jumps_iff (hp : p.Accepted) (he : e.halted = none) {name : Str}
    (hname : e.control.jumpsTo p inputs = some name) :
    ((∃ i, p.LabelAt name i ∧ (e.step p inputs).halted = none ∧
        (e.step p inputs).control.ip.toNat = i) ∨
      ((∀ i, ¬ p.LabelAt name i) ∧ ∃ t, (e.step p inputs).halted = some (.thrown t))) ↔
      ∀ i, p.LabelAt name i → i < 2 ^ 32 := by
  obtain ⟨stmt, s₁, hexecute⟩ := Control.executeInstruction_of_jumpsTo hname
  cases hfind : p.labels.find? name with
  | none =>
    have hnone : ∀ i, ¬ p.LabelAt name i := fun i hi => by
      rw [(hp.labels.find?_iff name _).mpr ⟨i, hi, rfl⟩] at hfind
      cases hfind
    have hthrow : e.control.executeInstruction p inputs = Control.throw
        (stmt.location ++ "label \"".toList ++ name ++ "\" not found.".toList) := by
      rw [hexecute, Control.jump]
      simp only [hfind]
    refine iff_of_true (.inr ⟨hnone, ?_⟩) fun i hi => absurd hi (hnone i)
    rw [step_of_error he hthrow]
    exact ⟨_, rfl⟩
  | some u =>
    obtain ⟨i, hi, rfl⟩ := (hp.labels.find?_iff name u).mp hfind
    have hset : Control.setIp p (UInt32.ofNat i) s₁ = .ok { s₁ with ip := UInt32.ofNat i } :=
      Control.setIp_eq_ok.mpr ⟨(toNat_ofNat_le i).trans (Nat.le_of_lt hi.lt), rfl⟩
    have hjump : e.control.executeInstruction p inputs
        = .ok { s₁ with ip := UInt32.ofNat i } := by
      rw [hexecute, Control.jump]
      simp only [hfind]
      exact hset
    rw [step_of_ok he hjump]
    constructor
    · rintro (⟨j, hj, -, hip⟩ | ⟨hnone, -⟩) k hk
      · rw [← hp.labels.unique name j k hj hk, ← hip]
        exact UInt32.toNat_lt _
      · exact absurd hi (hnone i)
    · intro h
      refine .inl ⟨i, hi, rfl, ?_⟩
      change (UInt32.ofNat i).toNat = i
      rw [UInt32.toNat_ofNat', Nat.mod_eq_of_lt (h i hi)]

/-- A `return()` resumes after the last pending call exactly when there is one, at a position such
that the next one has 32 bits; without a pending call it reads an empty stack. -/
lemma resumes_iff (hp : p.Accepted) (hs : Sound p e) (he : e.halted = none)
    (hreturns : Control.KindAt p e.control.ip.toNat .returns) :
    ((∃ c pending, e.pending = c :: pending ∧ Control.KindAt p c .call ∧
        (e.step p inputs).halted = none ∧ (e.step p inputs).control.ip.toNat = c + 1 ∧
        (e.step p inputs).pending = pending) ∨
      (e.pending = [] ∧ ∃ t, (e.step p inputs).halted = some (.thrown t))) ↔
      ∃ c pending, e.pending = c :: pending ∧ c + 1 < 2 ^ 32 := by
  obtain ⟨stmt, hstmt, hkind⟩ := hreturns
  have hparams := hp.returns stmt (List.mem_of_getElem? hstmt) hkind
  have hexecute : e.control.executeInstruction p inputs
      = Control.popIp { e.control with ip := e.control.ip + 1 } := by
    rw [Control.executeInstruction_eq hstmt, hparams, hkind, if_neg (by decide)]
    change Control.func p inputs stmt [] _ = _
    rw [Control.func, hkind]
  have hstack := hs.stack
  cases hpending : e.pending with
  | nil =>
    rw [hpending] at hstack
    have hempty : e.control.executeInstruction p inputs = .error .emptyStack := by
      rw [hexecute, Control.popIp]
      simp only [hstack, List.map_nil]
    rw [step_of_error he hempty]
    refine iff_of_false ?_ fun ⟨c, pending, h, _⟩ => by cases h
    rintro (⟨c, pending, h, -⟩ | ⟨-, t, h⟩)
    · cases h
    · cases h
  | cons c pending =>
    rw [hpending] at hstack
    have hpop : e.control.executeInstruction p inputs
        = .ok { e.control with
          ip := UInt32.ofNat (c + 1), stack := pending.map fun c => UInt32.ofNat (c + 1) } := by
      rw [hexecute, Control.popIp]
      simp only [hstack, List.map_cons]
    rw [step_of_ok he hpop, pendingAfter_eq hstmt, hkind, hpending]
    constructor
    · rintro (⟨c', pending', h, -, -, hip, -⟩ | ⟨h, -⟩)
      · cases h
        refine ⟨c, pending, rfl, ?_⟩
        rw [← hip]
        exact UInt32.toNat_lt _
      · cases h
    · rintro ⟨c', pending', h, hlt⟩
      cases h
      refine .inl ⟨c, pending, rfl, hs.calls c (hpending ▸ List.mem_cons_self), rfl, ?_, rfl⟩
      change (UInt32.ofNat (c + 1)).toNat = c + 1
      rw [UInt32.toNat_ofNat', Nat.mod_eq_of_lt hlt]

/-- One instruction is safe exactly when it meets the condition. -/
lemma safeStep_iff_condition (hp : p.Accepted) (hs : Sound p e) :
    SafeStep p e inputs ↔ Condition p e inputs := by
  constructor
  · intro h
    exact ⟨fun name i he hname => (jumps_iff hp he hname).mp (h.jumps name he hname) i,
      fun he hreturns => (resumes_iff hp hs he hreturns).mp (h.resumes he hreturns)⟩
  · intro h
    exact ⟨(hs.step inputs).inProgram,
      fun name he hname => (jumps_iff hp he hname).mpr fun i => h.label name i he hname,
      fun he hreturns => (resumes_iff hp hs he hreturns).mpr (h.pending he hreturns)⟩

lemma sound_start (p : Program) : Sound p {} := ⟨Nat.zero_le _, rfl, nofun⟩

/-- **The control flow** of an execution of a program that the parser accepts is safe in each
step exactly when each step meets the condition. -/
theorem safeStep_iff (others : List Instruction) (filename : Str) (toks : List Token)
    (p : Program) (hp : parseProgram (controlInstructions ++ others) filename {} toks = .ok p)
    (l : List Inputs) :
    (∀ q ∈ visited (step p) {} l, SafeStep p q.1 q.2) ↔
      ∀ q ∈ visited (step p) {} l, Condition p q.1 q.2 := by
  have hstep : ∀ e inputs, Sound p e → True → Sound p (e.step p inputs) :=
    fun e inputs he _ => he.step inputs
  have hsound := (invariant_of_visited hstep (sound_start p) (l := l) fun _ _ => trivial).1
  have haccepted := accepted_of_parseProgram hp
  exact forall₂_congr fun q hq => safeStep_iff_condition haccepted (hsound q hq)

/-- The tokens of `return()`. -/
def returnAlone : List Token :=
  [{ token := .identifier, string := "return".toList }, punctuation .openParenthesis,
    punctuation .closeParenthesis]

/-- The program `return()`. -/
def returnProgram : Program :=
  { statements := [{ instruction := { name := "return".toList }, filename := [], line := 0 }] }

lemma parseProgram_returnAlone :
    parseProgram (controlInstructions ++ []) [] {} returnAlone = .ok returnProgram := by
  decide

/-- Inputs of steps that evaluate nothing. -/
def noInputs : Inputs where
  evaluate _ := .error (.runtimeError [])
  effect := .error (.runtimeError [])

/-- The first instruction of `return()` reads the top of an empty stack. -/
theorem not_safeStep_returnAlone :
    parseProgram (controlInstructions ++ []) [] {} returnAlone = .ok returnProgram ∧
      (({} : Execution).step returnProgram noInputs).halted = some .emptyStack ∧
      ¬ SafeStep returnProgram {} noInputs := by
  have hhalted : (({} : Execution).step returnProgram noInputs).halted = some .emptyStack := by
    decide
  refine ⟨parseProgram_returnAlone, hhalted, fun h => ?_⟩
  have hreturns : Control.KindAt returnProgram 0 .returns := ⟨_, rfl, by decide⟩
  rcases h.resumes rfl hreturns with ⟨c, pending, hpending, -⟩ | ⟨-, t, ht⟩
  · cases hpending
  · rw [hhalted] at ht
    cases ht

/-- The name of an instruction, a parameter or a label. -/
def identifierToken (name : String) : ValueToken :=
  ⟨{ token := .identifier, string := name.toList }, rfl⟩

/-- The tokens of `call(label: sub) exit() label(name: sub) return()`. -/
def callTokens : List Token :=
  [(identifierToken "call").1, punctuation .openParenthesis, (identifierToken "label").1,
    punctuation .colon, (identifierToken "sub").1, punctuation .closeParenthesis,
    (identifierToken "exit").1, punctuation .openParenthesis, punctuation .closeParenthesis,
    (identifierToken "label").1, punctuation .openParenthesis, (identifierToken "name").1,
    punctuation .colon, (identifierToken "sub").1, punctuation .closeParenthesis,
    (identifierToken "return").1, punctuation .openParenthesis, punctuation .closeParenthesis]

/-- A statement without parameters. -/
def statementOf (i : Instruction) : Statement := { instruction := i, filename := [], line := 0 }

/-- A statement with the label `sub` for a parameter. -/
def subStatement (i : Instruction) (name : String) : Statement :=
  { statementOf i with
    parameters := SortedMap.insert ∅ name.toList (.expression (.primary (identifierToken "sub"))) }

/-- The program `call(label: sub) exit() label(name: sub) return()`. -/
def callProgram : Program where
  statements :=
    [subStatement ⟨"call".toList, [labelDeclaration "label" true]⟩ "label",
      statementOf ⟨"exit".toList,
        [{ name := "error_message".toList, type := "string".toList, required := false },
          { name := "timeout".toList, type := "number".toList, required := false }]⟩,
      subStatement labelInstruction "name", statementOf ⟨"return".toList, []⟩]
  labels := SortedMap.insert ∅ "sub".toList 2

/-- Inputs of steps whose parameters are all the label `sub`. -/
def subInputs : Inputs where
  evaluate _ := .ok (.identifier "sub".toList)
  effect := .ok (.undefined, ∅)

lemma parseProgram_callTokens :
    parseProgram (controlInstructions ++ []) [] {} callTokens = .ok callProgram := by
  decide

/-- The call, the label, the return behind the call and the exit of a program. -/
theorem safeStep_iff_callProgram :
    let l := [subInputs, subInputs, subInputs, subInputs]
    (runFrom (step callProgram) {} l).control.ip = 4 ∧
      ((∀ q ∈ visited (step callProgram) {} l, SafeStep callProgram q.1 q.2) ↔
        ∀ q ∈ visited (step callProgram) {} l, Condition callProgram q.1 q.2) :=
  ⟨by decide, safeStep_iff [] [] callTokens callProgram parseProgram_callTokens _⟩

end Execution

end EventDispatcher.Reporter
