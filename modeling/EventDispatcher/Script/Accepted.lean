import EventDispatcher.Script.Flow

/-!
# The scripts that the parser accepts

The parser looks for the instruction of each statement, for its parameters and for the labels.  In
a run of a script that it accepts, each instruction is called with the parameters that it requires,
of the types that it declares (`wellCalled_of_visited`), and the calls and the jumps find their
positions (`inFlow_runFrom`).
-/

namespace EventDispatcher.Script

open Lib Reporter

/-- An instruction is called with the parameters that its statement gives. -/
structure WellCalled (M : Machine) (s : State) (stmt : Statement) (op : Op) (params : Parameters) :
    Prop where
  instruction : op.instruction = stmt.instruction
  declared : Declared op.declarations params
  distinct : (params.map Prod.fst).Nodup
  names : ∀ name, name ∈ params.map Prod.fst ↔ (stmt.getParameter name).isSome
  values : ∀ param ∈ params, ∃ value, stmt.getParameter param.1 = some value ∧
    evaluate M.A (s.script stmt.location) value = .ok param.2

/-! ## What the parser checks -/

section Parsed

variable {p : Program} {filename : Str} {toks : List Token} {stmt : Statement}

/-- The parameters of a statement that was checked. -/
lemma isSome_getParameter {c : Reporter.Call} (hc : Checked instructions filename c stmt)
    (name : Str) :
    (stmt.getParameter name).isSome ↔ name ∈ c.parameters.map Prod.fst := by
  rw [Statement.getParameter, hc.parameters, Option.isSome_iff_exists]
  simp only [SortedMap.find?_eq_some_iff]
  rw [← SortedMap.mem_keys_iff, SortedMap.mem_keys_ofEntries]

lemma exists_checked_of_parseProgram (hp : parseProgram instructions filename {} toks = .ok p)
    (hstmt : stmt ∈ p.statements) : ∃ c, Checked instructions filename c stmt := by
  obtain ⟨w, rest, calls, stmts, -, -, -, hcalls, -, rfl⟩ := parseProgram_eq_ok.mp hp
  rw [Program.statements_foldl_push, List.nil_append] at hstmt
  exact exists_checked hcalls hstmt

/-- The parser lets no statement through without the parameters that are required. -/
lemma isSome_of_required (hp : parseProgram instructions filename {} toks = .ok p)
    (hstmt : stmt ∈ p.statements) {d : ParameterDeclaration}
    (hd : d ∈ stmt.instruction.parameterDeclarations) (hrequired : d.required) :
    (stmt.getParameter d.name).isSome := by
  obtain ⟨c, hc⟩ := exists_checked_of_parseProgram hp hstmt
  exact (isSome_getParameter hc d.name).mpr (hc.complete d hd hrequired)

/-- The parser lets no parameter through that is not declared. -/
lemma exists_declaration (hp : parseProgram instructions filename {} toks = .ok p)
    (hstmt : stmt ∈ p.statements) {name : Str} (hname : (stmt.getParameter name).isSome) :
    ∃ d ∈ stmt.instruction.parameterDeclarations, d.name = name := by
  obtain ⟨c, hc⟩ := exists_checked_of_parseProgram hp hstmt
  obtain ⟨param, hparam, rfl⟩ := List.mem_map.mp ((isSome_getParameter hc name).mp hname)
  exact hc.accepted param hparam

lemma wellCalled_of_executed {M : Machine} {s : State} {op : Op} {params : Parameters}
    (hp : parseProgram instructions filename {} toks = .ok p)
    (h : executed M p s = some (op, params)) :
    ∃ stmt, p.statements[s.ip.toNat]? = some stmt ∧ WellCalled M s stmt op params := by
  obtain ⟨stmt, hstmt, hop, hparams⟩ := exists_of_executed h
  have hmem := List.mem_of_getElem? hstmt
  have hinstruction := Op.instruction_of_of? hop
  have hgiven := givenBy_of_parametersOf hparams
  refine ⟨stmt, hstmt, hinstruction,
    (ensures_parametersOf stmt op.nodup_declarations).of_eq_ok hparams,
    op.nodup_declarations.sublist hgiven.sublist, fun name => ⟨fun hname => ?_, fun hname => ?_⟩,
    hgiven.values⟩
  · obtain ⟨param, hparam, rfl⟩ := List.mem_map.mp hname
    obtain ⟨value, hvalue, -⟩ := hgiven.values param hparam
    rw [hvalue]
    rfl
  · obtain ⟨d, hd, rfl⟩ := exists_declaration hp hmem hname
    rw [← hinstruction] at hd
    exact hgiven.given d hd hname

end Parsed

namespace Execution

variable {M : Machine} {E : Environment} {p : Program} {e : Execution}

/-! ## The calls -/

lemma accepted_of_instructions {filename : Str} {toks : List Token}
    (hp : parseProgram instructions filename {} toks = .ok p) : p.Accepted := by
  have hknown := known_of_parseProgram hp
  obtain ⟨w, rest, calls, stmts, -, -, -, -, hlabels, rfl⟩ := parseProgram_eq_ok.mp hp
  refine ⟨Program.labelTable_empty.foldl_push hlabels, fun stmt hstmt hkind => ?_⟩
  obtain ⟨op, hop⟩ := hknown stmt hstmt
  have hinstruction := Op.instruction_of_of? hop
  rw [← hinstruction, kind_instruction] at hkind
  rw [← hinstruction]
  cases op <;> first | rfl | cases hkind

/-- The next step is a `return()` without a call. -/
def Underflows (M : Machine) (p : Program) (e : Execution) : Prop :=
  (∃ params, e.next M p = some (.returns, params)) ∧ e.state.stack = []

lemma executeInstruction_eq_emptyStack_iff {s : State} (hs : s.Formed) :
    (∃ s', executeInstruction M E p s = .error ⟨.emptyStack, s'⟩) ↔
      (∃ params, executed M p s = some (.returns, params)) ∧ s.stack = [] := by
  constructor
  · rintro ⟨s', h⟩
    rcases ((ensures_executeInstruction hs).of_eq_error h).1 with
      hordinary | ⟨op, params, hexecuted, rfl, hstack⟩
    · exact False.elim hordinary
    · exact ⟨⟨params, hexecuted⟩, hstack⟩
  · rintro ⟨⟨params, hexecuted⟩, hstack⟩
    refine ⟨{ s with ip := s.ip + 1 }, ?_⟩
    rw [executeInstruction_of_executed hexecuted (by decide)]
    change inState _ (State.popIp _) = _
    rw [State.popIp, hstack]
    rfl

lemma step_emptyStack_iff (hs : e.state.Formed) :
    (e.step M p E).halted = some .emptyStack ↔
      e.halted = some .emptyStack ∨ e.Underflows M p := by
  have hunderflows : e.Underflows M p ↔ e.halted = none ∧
      (∃ params, executed M p e.state = some (.returns, params)) ∧ e.state.stack = [] := by
    cases he : e.halted with
    | some h =>
      rw [Underflows, next_eq_none_of_halted he]
      simp
    | none =>
      rw [Underflows, next_of_running he]
      simp
  rw [hunderflows]
  exact step_halted_iff (executeInstruction_eq_emptyStack_iff hs)

/-- What a run of a script that the parser accepts keeps. -/
structure InFlow (p : Program) (e : Execution) : Prop where
  inProgram : e.state.ip.toNat ≤ p.statements.length
  calls : ∀ ip ∈ e.state.stack, ∃ i, Control.KindAt p i .call ∧ ip = UInt32.ofNat (i + 1)
  labels : ∀ what, e.halted ≠ some (.outOfRange what)
  known : e.halted ≠ some .unknown

/-- The instruction pointer is in the program, and the stack holds positions behind calls. -/
structure Inside (p : Program) (s : State) : Prop where
  inProgram : s.ip.toNat ≤ p.statements.length
  calls : ∀ ip ∈ s.stack, ∃ i, Control.KindAt p i .call ∧ ip = UInt32.ofNat (i + 1)

namespace Inside

variable {s s' : State} {op : Op} {params : Parameters}

lemma moved (h : Inside p s) (hlt : s.ip.toNat < p.statements.length) :
    Inside p { s with ip := s.ip + 1 } :=
  ⟨Control.toNat_succ_le hlt, h.calls⟩

lemma of_same (h : Inside p s) (hip : Part.ip.Same s s') (hstack : Part.stack.Same s s') :
    Inside p s' :=
  ⟨hip.symm ▸ h.inProgram, hstack.symm ▸ h.calls⟩

/-- `push_ip()` behind a `call()`. -/
lemma pushIp (h : Inside p { s with ip := s.ip + 1 })
    (hexecuted : executed M p s = some (.call, params)) :
    Inside p ({ s with ip := s.ip + 1 } : State).pushIp := by
  obtain ⟨stmt, hstmt, hop, -⟩ := exists_of_executed hexecuted
  have hkind : stmt.instruction.kind = .call := by
    rw [← Op.instruction_of_of? hop, kind_instruction]
  have hip : s.ip + 1 = UInt32.ofNat (s.ip.toNat + 1) := by
    rw [← UInt32.toNat_inj, UInt32.toNat_ofNat', UInt32.toNat_add]
    rfl
  exact ⟨h.inProgram, List.forall_mem_cons.mpr ⟨⟨_, ⟨stmt, hstmt, hkind⟩, hip⟩, h.calls⟩⟩

lemma effect (h : Inside p { s with ip := s.ip + 1 })
    (hexecuted : executed M p s = some (op, params))
    (heffect : op.Effect p params { s with ip := s.ip + 1 } s') : Inside p s' := by
  cases op with
  | call =>
    obtain ⟨ip, hip, rfl⟩ := heffect
    exact ⟨hip, (h.pushIp hexecuted).calls⟩
  | goto | ifs =>
    obtain ⟨ip, rfl | hip, rfl⟩ := heffect
    · exact h
    · exact ⟨hip, h.calls⟩
  | exit =>
    obtain ⟨exitCode, -, rfl⟩ := heffect
    exact ⟨Reporter.Execution.toNat_ofNat_le _, h.calls⟩
  | returns =>
    obtain ⟨ip, stack, hstack, rfl⟩ := heffect
    have hcalls := h.calls
    rw [hstack] at hcalls
    obtain ⟨⟨i, hi, rfl⟩, hrest⟩ := List.forall_mem_cons.mp hcalls
    exact ⟨(Reporter.Execution.toNat_ofNat_le _).trans (Reporter.Execution.lt_of_kindAt hi), hrest⟩
  | _ => exact h.of_same (heffect.same (by decide)) (heffect.same (by decide))

lemma leaves (h : Inside p { s with ip := s.ip + 1 })
    (hexecuted : executed M p s = some (op, params))
    (hleaves : op.Leaves { s with ip := s.ip + 1 } s') : Inside p s' := by
  cases op with
  | call =>
    cases hleaves
    exact h.pushIp hexecuted
  | exit =>
    cases hleaves
    exact ⟨h.inProgram, h.calls⟩
  | listen | verifyData | wait =>
    exact h.of_same (hleaves.same (by decide)) (hleaves.same (by decide))
  | _ =>
    cases hleaves
    exact h

lemma changes (h : Inside p s) (hchanges : Changes M p s s') : Inside p s' := by
  rcases hchanges with rfl | ⟨rfl, hlt⟩ | ⟨op, params, hexecuted, hop⟩
  · exact h
  · exact h.moved hlt
  · obtain ⟨stmt, hstmt, -, -⟩ := exists_of_executed hexecuted
    have hmoved := h.moved (List.getElem?_eq_some_iff.mp hstmt).1
    exact hop.elim (hmoved.effect hexecuted) (hmoved.leaves hexecuted)

end Inside

/-- A step of a script that the parser accepts finds its instruction and its label. -/
lemma step_halted (hp : p.Accepted) (hknown : Known p) (hs : e.state.Formed) {h : Halted}
    (hstep : (e.step M p E).halted = some h) :
    e.halted = some h ∨ (∀ what, h ≠ .outOfRange what) ∧ h ≠ .unknown := by
  cases he : e.halted with
  | some halted =>
    rw [step_of_halted he, he] at hstep
    exact .inl hstep
  | none =>
    cases hexecute : executeInstruction M E p e.state with
    | ok s =>
      rw [step_of_ok he hexecute] at hstep
      cases hstep
    | error stopped =>
      rw [step_of_error he hexecute] at hstep
      obtain ⟨why, s⟩ := stopped
      cases hstep
      have hstops := ((ensures_executeInstruction hs).of_eq_error hexecute).1
      refine .inr ⟨?_, ?_⟩
      · rintro what rfl
        rcases hstops with hordinary | ⟨op, params, -, -, name, ip, hlabel, hlt⟩
        · exact hordinary
        · obtain ⟨i, hi, rfl⟩ := (hp.labels.find?_iff name ip).mp hlabel
          have hle := Reporter.Execution.toNat_ofNat_le i
          have hin := hi.lt
          omega
      · rintro rfl
        obtain ⟨stmt, hstmt, hnone⟩ := hstops
        obtain ⟨op, hop⟩ := hknown stmt (List.mem_of_getElem? hstmt)
        rw [hop] at hnone
        cases hnone

lemma inFlow_step (hp : p.Accepted) (hknown : Known p) (hs : e.state.Formed) (h : e.InFlow p) :
    (e.step M p E).InFlow p := by
  have hinside : Inside p (e.step M p E).state := by
    have hold : Inside p e.state := ⟨h.inProgram, h.calls⟩
    rcases step_cases (M := M) (E := E) (p := p) hs with ⟨-, heq⟩ | ⟨-, hchanges⟩
    · rwa [heq]
    · exact hold.changes hchanges
  refine ⟨hinside.inProgram, hinside.calls, fun what hwhat => ?_, fun hunknown => ?_⟩
  · rcases step_halted hp hknown hs hwhat with hold | ⟨hnew, -⟩
    · exact h.labels what hold
    · exact hnew what rfl
  · rcases step_halted hp hknown hs hunknown with hold | ⟨-, hnew⟩
    · exact h.known hold
    · exact hnew rfl

/-- **The calls of a script** that the parser accepts.  In a run, the instruction pointer stays in
the program, the stack holds the positions behind calls, each instruction and each label that is
looked up is found; and an empty stack is read exactly by a `return()` without a call. -/
theorem inFlow_runFrom (M : Machine) (filename : Str) (toks : List Token) (p : Program)
    (hp : parseProgram instructions filename {} toks = .ok p) (l : List Environment) :
    (runFrom (step M p) {} l).InFlow p ∧
      ((runFrom (step M p) {} l).halted = some .emptyStack ↔
        ∃ q ∈ visited (step M p) {} l, q.1.Underflows M p) := by
  have hknown := known_of_parseProgram hp
  have haccepted := accepted_of_instructions hp
  constructor
  · have hkeep (e : Execution) (E : Environment) (h : e.state.Formed ∧ e.InFlow p) :
        (e.step M p E).state.Formed ∧ (e.step M p E).InFlow p :=
      ⟨formed_step h.1 E, inFlow_step haccepted hknown h.1 h.2⟩
    have hstart : ({} : Execution).InFlow p :=
      ⟨Nat.zero_le _, fun ip hip => absurd hip List.not_mem_nil, nofun, nofun⟩
    exact (invariant_of_runFrom hkeep ⟨formed_start, hstart⟩ l).2
  · have hinv (e : Execution) (E : Environment) (h : e.state.Formed) :
        (e.step M p E).state.Formed := formed_step h E
    have hstep (e : Execution) (E : Environment) (h : e.state.Formed) :
        (e.step M p E).halted = some .emptyStack ↔
          e.halted = some .emptyStack ∨ e.Underflows M p := step_emptyStack_iff h
    rw [reached_iff (P := fun e : Execution => e.halted = some .emptyStack) hinv hstep
      formed_start l]
    exact or_iff_right (by simp)

/-! ## The parameters -/

/-- An instruction finds the parameters that are required: the executor looked for them before. -/
lemma not_missing_step (hs : e.state.Formed) {name : Str} (h : e.halted ≠ some (.missing name)) :
    (e.step M p E).halted ≠ some (.missing name) := by
  intro hmissing
  cases he : e.halted with
  | some halted =>
    rw [step_of_halted he] at hmissing
    exact h hmissing
  | none =>
    cases hexecute : executeInstruction M E p e.state with
    | ok s =>
      rw [step_of_ok he hexecute] at hmissing
      cases hmissing
    | error stopped =>
      rw [step_of_error he hexecute] at hmissing
      obtain ⟨why, s⟩ := stopped
      cases hmissing
      rcases ((ensures_executeInstruction hs).of_eq_error hexecute).1 with
        hordinary | ⟨op, params, -, hstops⟩
      · exact hordinary
      · exact hstops

/-- **The parameters of the instructions** of a script that the parser accepts.  A parameter that is
required is never missing, neither in a statement nor for `get_parameter()`, and each instruction
that a run executes gets exactly the parameters that its statement gives, once each, with their
values, of the types that it declares. -/
theorem wellCalled_of_visited (M : Machine) (filename : Str) (toks : List Token) (p : Program)
    (hp : parseProgram instructions filename {} toks = .ok p) (l : List Environment) :
    (∀ stmt ∈ p.statements, ∀ d ∈ stmt.instruction.parameterDeclarations, d.required →
      (stmt.getParameter d.name).isSome) ∧
    (∀ name, (runFrom (step M p) {} l).halted ≠ some (.missing name)) ∧
    ∀ q ∈ visited (step M p) {} l, ∀ op params, q.1.next M p = some (op, params) →
      ∃ stmt, p.statements[q.1.state.ip.toNat]? = some stmt ∧
        WellCalled M q.1.state stmt op params := by
  refine ⟨fun stmt hstmt d hd hrequired => isSome_of_required hp hstmt hd hrequired,
    fun name => ?_, fun q _ op params hnext => ?_⟩
  · have hkeep (e : Execution) (E : Environment)
        (h : e.state.Formed ∧ e.halted ≠ some (.missing name)) :
        (e.step M p E).state.Formed ∧ (e.step M p E).halted ≠ some (.missing name) :=
      ⟨formed_step h.1 E, not_missing_step h.1 h.2⟩
    exact (invariant_of_runFrom hkeep ⟨formed_start, fun h => by cases h⟩ l).2
  cases he : q.1.halted with
  | some h =>
    rw [next_eq_none_of_halted he] at hnext
    cases hnext
  | none =>
    rw [next_of_running he] at hnext
    exact wellCalled_of_executed hp hnext

/-- A script in the call: the position behind the call is on the stack. -/
theorem inFlow_runFrom_callProgram :
    let p := Reporter.Execution.callProgram
    let l := [quiet, quiet]
    (runFrom (step standard p) {} l).state.stack = [1] ∧
      (runFrom (step standard p) {} l).InFlow p ∧
      ((runFrom (step standard p) {} l).halted = some .emptyStack ↔
        ∃ q ∈ visited (step standard p) {} l, q.1.Underflows standard p) :=
  ⟨by decide, inFlow_runFrom standard [] Reporter.Execution.callTokens
    Reporter.Execution.callProgram parseProgram_instructions_callTokens _⟩

/-- The call of a script, with its label. -/
theorem wellCalled_of_visited_callProgram :
    ∃ stmt, Reporter.Execution.callProgram.statements[0]? = some stmt ∧
      WellCalled standard {} stmt .call
        [("label".toList, .value (.identifier "sub".toList))] :=
  (wellCalled_of_visited standard [] Reporter.Execution.callTokens
    Reporter.Execution.callProgram parseProgram_instructions_callTokens [quiet]).2.2
    ({}, quiet) List.mem_cons_self .call _ rfl

end Execution

end EventDispatcher.Script
