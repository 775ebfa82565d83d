import EventDispatcher.Script.Instructions

/-!
# What an instruction does

`Op.Effect` says what each instruction makes of the state, `Op.Stops` how it may stop the program,
`Op.Leaves` what it leaves of the state then, and `Op.Misuses` when it uses a variable as one of a
class that it is not of: only `send_data()` and `verify_data()` do, with an item of their array that
is not an integer.  Each instruction ensures its effect (`ensures_func`), when its parameters are
those of its declarations and the variables of the class of their type.
-/

namespace EventDispatcher.Script

open Lib Reporter

/-- The variables of the state are of the class of their type. -/
def State.Formed (s : State) : Prop := ∀ name v, s.getVariable name = some v → v.Formed

/-- The names that `sort()` is given. -/
def sortNames (params : Parameters) : List Str :=
  params.filterMap fun param => (asString param.2).toOption

namespace Op

/-- What an instruction makes of the state. -/
def Effect (p : Program) (params : Parameters) (s : State) (op : Op) (s' : State) : Prop :=
  match op with
  | call => ∃ ip : UInt32, ip.toNat ≤ p.statements.length ∧ s' = { s.pushIp with ip }
  | goto | ifs =>
    ∃ ip : UInt32, (ip = s.ip ∨ ip.toNat ≤ p.statements.length) ∧ s' = { s with ip }
  | exit =>
    ∃ exitCode : ℤ, (exitCode = 0 ∨ exitCode = 1) ∧
      s' = { s with ip := UInt32.ofNat p.statements.length, exitCode }
  | returns => ∃ ip stack, s.stack = ip :: stack ∧ s' = { s with ip, stack }
  | compare | hasData | hasMessage | hasType => ∃ compare, s' = { s with compare }
  | hex | hostname | maxPid | now | random | saveParameterValue | strlen =>
    ∃ name v, Gives asString params "variable_name" name ∧ v.Formed ∧ s' = s.setVariable name v
  | setVariable =>
    ∃ name v, Gives asString params "name" name ∧ v.Formed ∧ s' = s.setVariable name v
  | unsetVariable => ∃ name, Gives asString params "name" name ∧ s' = s.unsetVariable name
  | sort => ∃ sorted, s' = { s with vars := (sortNames params).foldl (writeSorted sorted) s.vars }
  | clearData => s' = { s with data := s.data.clearData }
  | clearMessage => s' = s.clearMessage
  | verifyData => ∃ size : ℕ, s' = { s with data := (s.data.readData [] size).2 }
  | wait => ∃ arrivals : List Arrival, s' = arrivals.foldl State.arrive s
  | listen =>
    ∃ connectionType, s.listen = none ∧
      s' = { s with connectionType, listen := some connectionType }
  | disconnect => s' = s.disconnect
  | sendData | sendMessage => ∃ output, s' = { s with sent := s.sent ++ [output] }
  | kill | label | print | showData | showMessage | sleep | verifyMessage => s' = s
  -- the executor does it
  | run => s.inThread = false ∧ s' = { s with inThread := true }

/-- An item that is not an integer, behind the integers `values`. -/
def FirstOther (items : List VariableValue) (values : List Int64) : Prop :=
  ∃ item rest, items = values.map .integer ++ item :: rest ∧ ∀ n, item ≠ .integer n

/-- The instruction uses an item of an array as an integer, and it is not one. -/
def Misuses (params : Parameters) (s : State) (op : Op) : Prop :=
  match op with
  | sendData =>
    s.connections ≠ [] ∧ ∃ items values, Gives asArray params "values" items ∧
      FirstOther items values ∧ ∀ n ∈ values, InstSendData.Accepts n
  | verifyData =>
    ∃ items values, Gives asArray params "values" items ∧ FirstOther items values ∧
      (s.data.readData [] items.length).1.result = items.length ∧
      values <+: (s.data.readData [] items.length).1.buf.map fun byte => Int64.ofNat byte.toNat
  | _ => False

/-- How an instruction may stop the execution. -/
def Stops (p : Program) (params : Parameters) (s : State) (op : Op) : Halted → Prop
  | .wrongClass => op.Misuses params s
  | .emptyStack => op = .returns ∧ s.stack = []
  | .outOfRange _ => op ∈ [call, goto, ifs] ∧ ∃ name ip, p.labels.find? name = some ip ∧
    p.statements.length < ip.toNat
  | .done | .missing _ | .unknown => False
  | .raised _ | .arithmetic _ | .pastTheEnd | .notOrdered | .waiting => True

/-- What an instruction leaves of the state when it stops the execution. -/
def Leaves (s : State) (op : Op) (s' : State) : Prop :=
  match op with
  | call => s' = s.pushIp
  | exit => s' = { s with exitCode := 0 }
  | listen => ∃ connectionType, s' = { s with connectionType }
  | verifyData => s' = s ∨ ∃ size : ℕ, s' = { s with data := (s.data.readData [] size).2 }
  | wait => ∃ arrivals : List Arrival, s' = arrivals.foldl State.arrive s
  | _ => s' = s

/-- How an instruction may stop the execution, and in which state. -/
structure StopsIn (p : Program) (params : Parameters) (s : State) (op : Op) (e : Stopped) :
    Prop where
  why : op.Stops p params s e.why
  state : op.Leaves s e.state

end Op

lemma ordinary_raised (r : Raised) : Ordinary (.raised r) := trivial

lemma Ordinary.stops {p : Program} {params : Parameters} {s : State} {op : Op} {e : Halted}
    (h : Ordinary e) : op.Stops p params s e := by
  cases e <;> first | exact trivial | exact False.elim h

/-- What stops for an ordinary reason. -/
lemma ensures_of_ordinary {α : Type} {p : Program} {params : Parameters} {s : State}
    {x : Except Halted α} {op : Op} {ok : α → Prop} (h : Ensures x ok Ordinary) :
    Ensures x ok (op.Stops p params s) :=
  h.mono (fun _ => id) fun _ => Ordinary.stops

lemma inState_eq_ok {α : Type} {s : State} {x : Except Halted α} {a : α} :
    inState s x = .ok a ↔ x = .ok a := by
  cases x with
  | ok b => exact Iff.of_eq (by rw [inState, Except.ok.injEq, Except.ok.injEq])
  | error e => exact iff_of_false (fun h => by cases h) fun h => by cases h

/-- A part that leaves the state as it is. -/
lemma ensures_inState {α : Type} {s : State} {x : Except Halted α} {ok : α → Prop}
    {err : Halted → Prop} (h : Ensures x ok err) :
    Ensures (inState s x) ok fun e => err e.why ∧ e.state = s := by
  cases x with
  | ok a => exact h
  | error e => exact ⟨h, rfl⟩

/-- A part of an instruction, in the state that the instruction leaves. -/
lemma stopsIn_of_stops {α : Type} {p : Program} {params : Parameters} {s s' : State} {op : Op}
    {x : Except Halted α} {ok : α → Prop} (h : Ensures x ok (op.Stops p params s))
    (hleaves : op.Leaves s s') : Ensures (inState s' x) ok (op.StopsIn p params s) :=
  (ensures_inState h).mono (fun _ => id) fun _ he => ⟨he.1, he.2 ▸ hleaves⟩

lemma stopsIn_of_ordinary {α : Type} {p : Program} {params : Parameters} {s s' : State} {op : Op}
    {x : Except Halted α} {ok : α → Prop} (h : Ensures x ok Ordinary) (hleaves : op.Leaves s s') :
    Ensures (inState s' x) ok (op.StopsIn p params s) :=
  stopsIn_of_stops (ensures_of_ordinary h) hleaves

/-! ## The instructions one by one -/

section Instructions

variable {M : Machine} {E : Environment} {p : Program} {location : Str} {params : Parameters}
  {s : State} {ok : State → Prop}

lemma setIp_of_le {ip : UInt32} (h : ip.toNat ≤ p.statements.length) :
    s.setIp p ip = .ok { s with ip } := by
  rw [State.setIp, if_neg (not_lt.mpr h)]

/-- A jump, by an instruction that jumps. -/
lemma ensures_jump {op : Op} (hop : op ∈ [.call, .goto, .ifs]) {s₀ : State} {name : Str}
    (h : ∀ ip : UInt32, ip.toNat ≤ p.statements.length → ok { s with ip }) :
    Ensures (jump p location name s) ok (op.Stops p params s₀) := by
  rw [jump]
  cases hlabel : p.labels.find? name with
  | none => exact trivial
  | some ip =>
    dsimp only
    rw [State.setIp]
    exact .ite (fun hlt => ⟨hop, name, ip, hlabel, hlt⟩) fun hle => h ip (not_lt.mp hle)

lemma ensures_setCompare (c : Compare) :
    Ensures (s.setCompare c) (fun s' => ∃ compare, s' = { s with compare }) Ordinary := by
  rw [State.setCompare]
  exact .ite (fun _ => trivial) fun _ => ⟨c, rfl⟩

/-- A variable that an instruction sets. -/
lemma ensures_setVariable {key : String} {name : Str} (hname : Gives asString params key name)
    {x : Except Halted Variable} (hx : Ensures x Variable.Formed Ordinary) :
    Ensures (x >>= fun v => return s.setVariable name v)
      (fun s' => ∃ name v, Gives asString params key name ∧ v.Formed ∧ s' = s.setVariable name v)
      Ordinary :=
  hx.bind fun v hv => ⟨name, v, hname, hv, rfl⟩

lemma ensures_call (h : Declared Op.call.declarations params) :
    Ensures (instCall p location params s) (Op.call.Effect p params s)
      (Op.call.StopsIn p params s) := by
  have hleaves : Op.call.Leaves s s.pushIp := rfl
  exact (stopsIn_of_ordinary (ensures_given casts_identifier h rfl) hleaves).bind fun _ _ =>
    stopsIn_of_stops (ensures_jump (by decide) fun ip hip => ⟨ip, hip, rfl⟩) hleaves

lemma ensures_goto (h : Declared Op.goto.declarations params) :
    Ensures (instGoto p location params s) (Op.goto.Effect p params s)
      (Op.goto.Stops p params s) :=
  (ensures_of_ordinary (ensures_given casts_identifier h rfl)).bind fun _ _ =>
    ensures_jump (by decide) fun ip hip => ⟨ip, .inr hip, rfl⟩

lemma ensures_compare (h : Declared Op.compare.declarations params) :
    Ensures (instCompare location params s) (Op.compare.Effect p params s) Ordinary :=
  (ensures_given casts_integer h rfl).bind fun _ _ =>
    .ite (fun _ => trivial) fun _ => ensures_setCompare _

lemma ensures_exit (h : Declared Op.exit.declarations params) :
    Ensures (instExit M E p location params s) (Op.exit.Effect p params s)
      (Op.exit.StopsIn p params s) := by
  have hcode : Ensures (exitCodeOf M E location params) (fun code => code = 0 ∨ code = 1)
      Ordinary := by
    rw [exitCodeOf]
    cases herror : params.get "error_message" with
    | some v =>
      cases params.get "timeout" with
      | some _ => exact trivial
      | none => exact (ensures_cast casts_string h rfl herror).bind fun _ _ => .inr rfl
    | none =>
      refine (ensures_optional (casts_duration _) h rfl).bind fun timeout _ => ?_
      cases timeout with
      | none => exact .inl rfl
      | some timeout =>
        refine (ensures_within ordinary_raised _).bind fun received _ => ?_
        cases received with
        | true => exact .inr rfl
        | false => exact .inl rfl
  have hleaves : Op.exit.Leaves s { s with exitCode := 0 } := rfl
  refine (stopsIn_of_ordinary hcode hleaves).bind fun code hcode => ?_
  dsimp only
  rw [setIp_of_le (Reporter.Execution.toNat_ofNat_le _)]
  exact ⟨code, hcode, rfl⟩

lemma ensures_hasData (h : Declared Op.hasData.declarations params) :
    Ensures (instHasData params s) (Op.hasData.Effect p params s) Ordinary :=
  .ite (fun _ => (ensures_optional casts_integer h rfl).bind fun _ _ => ensures_setCompare _)
    fun _ => ensures_setCompare _

lemma ensures_hasMessage (h : Declared Op.hasMessage.declarations params) :
    Ensures (instHasMessage params s) (Op.hasMessage.Effect p params s) Ordinary :=
  .ite (fun _ => (ensures_optional casts_identifier h rfl).bind fun _ _ => ensures_setCompare _)
    fun _ => ensures_setCompare _

lemma ensures_hasType (h : Declared Op.hasType.declarations params) :
    Ensures (instHasType params s) (Op.hasType.Effect p params s) Ordinary := by
  refine (ensures_given casts_identifier h rfl).bind fun name _ => ?_
  cases s.getVariable name with
  | none => exact ensures_setCompare _
  | some v =>
    exact (ensures_given casts_identifier h rfl).bind fun _ _ => ensures_setCompare _

lemma ensures_hex (h : Declared Op.hex.declarations params) :
    Ensures (instHex M params s) (Op.hex.Effect p params s) Ordinary :=
  (ensures_given casts_identifier h rfl).bind fun _ hname =>
    (ensures_given casts_integer h rfl).bind fun _ _ =>
      (ensures_optional casts_integer h rfl).bind fun _ _ =>
        ⟨_, .value (.string _), hname, fun _ => VariableValue.noConfusion, rfl⟩

lemma ensures_hostname (h : Declared Op.hostname.declarations params) :
    Ensures (instHostname E params s) (Op.hostname.Effect p params s) Ordinary :=
  (ensures_given casts_identifier h rfl).bind fun _ hname =>
    ⟨_, .value (.string _), hname, fun _ => VariableValue.noConfusion, rfl⟩

lemma ensures_maxPid (h : Declared Op.maxPid.declarations params) :
    Ensures (instMaxPid E params s) (Op.maxPid.Effect p params s) Ordinary :=
  (ensures_given casts_identifier h rfl).bind fun _ hname =>
    ⟨_, .value (.integer _), hname, fun _ => VariableValue.noConfusion, rfl⟩

lemma ensures_now (h : Declared Op.now.declarations params) :
    Ensures (instNow E params s) (Op.now.Effect p params s) Ordinary :=
  (ensures_given casts_identifier h rfl).bind fun _ hname =>
    ⟨_, .value (.timestamp _), hname, fun _ => VariableValue.noConfusion, rfl⟩

lemma ensures_random (h : Declared Op.random.declarations params) :
    Ensures (instRandom E params s) (Op.random.Effect p params s) Ordinary :=
  (ensures_given casts_identifier h rfl).bind fun _ hname =>
    (ensures_optional casts_integer h rfl).bind fun _ _ =>
      ⟨_, .value (.integer _), hname, fun _ => VariableValue.noConfusion, rfl⟩

lemma ensures_strlen (h : Declared Op.strlen.declarations params) :
    Ensures (instStrlen params s) (Op.strlen.Effect p params s) Ordinary :=
  (ensures_given casts_string h rfl).bind fun _ _ =>
    (ensures_given casts_string_or_identifier h rfl).bind fun _ hname =>
      ⟨_, .value (.integer _), hname, fun _ => VariableValue.noConfusion, rfl⟩

/-- The comparison with zero needs no cast that the type was not tested for. -/
lemma ensures_compareWithZero (v : Variable) :
    Ensures (compareWithZero v) (fun _ => True) Ordinary := by
  unfold compareWithZero
  split
  · exact trivial
  · exact trivial
  · exact trivial
  · exact trivial
  · exact trivial

lemma ensures_ifCompare (h : Declared Op.ifs.declarations params) :
    Ensures (ifCompare params s) (fun _ => True) Ordinary := by
  refine (ensures_optional casts_identifier h rfl).bind fun name _ => ?_
  cases name with
  | none => exact .ite (fun _ => trivial) fun _ => trivial
  | some name =>
    dsimp only
    cases s.getVariable name with
    | none => exact trivial
    | some v => exact ensures_compareWithZero v

/-- The parameters with the labels are declared as identifiers. -/
lemma typeOf_ifLabels {compare : Compare} {name : String} (h : name ∈ Control.ifLabels compare) :
    typeOf Op.ifs.declarations name.toList = some "identifier".toList := by
  revert name
  cases compare <;> decide

lemma ensures_ifs (h : Declared Op.ifs.declarations params) :
    Ensures (instIf p location params s) (Op.ifs.Effect p params s)
      (Op.ifs.Stops p params s) := by
  refine (ensures_of_ordinary (ensures_ifCompare h)).bind fun compare _ => ?_
  cases hlabel : (Control.ifLabels compare).findSome? params.get with
  | none => exact ⟨s.ip, .inl rfl, rfl⟩
  | some label =>
    obtain ⟨name, hname, hget⟩ := List.exists_of_findSome?_eq_some hlabel
    exact (ensures_of_ordinary (ensures_cast casts_identifier h (typeOf_ifLabels hname) hget)).bind
      fun _ _ => ensures_jump (by decide) fun ip hip => ⟨ip, .inr hip, rfl⟩

lemma ensures_kill (h : Declared Op.kill.declarations params) :
    Ensures (instKill M E location params s) (Op.kill.Effect p params s) Ordinary := by
  have hsignal : Ensures (killSignal M location params) (fun _ => True) Ordinary := by
    rw [killSignal]
    cases hv : params.get "signal" with
    | none => exact trivial
    | some v =>
      obtain ⟨-, -, -, hformed⟩ := h.typed.lookup hv
      have hsig : Ensures (signalOf M location v) (fun _ => True) Ordinary := by
        -- the type is tested before the cast
        refine .ite (fun htype => ?_) fun _ => .ite (fun htype => ?_) fun _ => trivial
        · obtain ⟨n, rfl⟩ := exists_asInteger hformed htype
          exact trivial
        · obtain ⟨text, htext⟩ := exists_asString hformed htype
          rw [htext]
          exact trivial
      exact hsig.bind fun sig _ => .ite (fun _ => trivial) fun _ => trivial
  refine hsignal.bind fun sig _ => ?_
  cases E.pthreadKill sig with
  | none => exact rfl
  | some e => exact trivial

lemma ensures_listen (h : Declared Op.listen.declarations params) :
    Ensures (instListen E params s) (Op.listen.Effect p params s)
      (Op.listen.StopsIn p params s) := by
  have hleaves (connectionType : ConnectionType) :
      Op.listen.Leaves s { s with connectionType } := ⟨connectionType, rfl⟩
  refine (stopsIn_of_ordinary (ensures_optional casts_identifier h rfl) (hleaves _)).bind
    fun given _ => ?_
  have htype : Ensures (connectionTypeOf given) (fun _ => True) Ordinary := by
    cases given with
    | none => exact trivial
    | some type => exact .ite (fun _ => trivial) fun _ => .ite (fun _ => trivial) fun _ => trivial
  refine (stopsIn_of_ordinary htype (hleaves _)).bind fun type _ =>
    (stopsIn_of_ordinary (ensures_given casts_address h rfl) (hleaves type)).bind fun a _ =>
      stopsIn_of_ordinary ?_ (hleaves type)
  rw [State.listenOn]
  cases hlisten : s.listen with
  | some _ => exact trivial
  | none =>
    cases E.server type a with
    | some r => exact trivial
    | none => exact ⟨type, hlisten, rfl⟩

lemma ensures_print (h : Declared Op.print.declarations params) :
    Ensures (instPrint params s) (Op.print.Effect p params s) Ordinary :=
  (ensures_given casts_string h rfl).bind fun _ _ => rfl

lemma ensures_savedVariable (T : MessageTools) (type value : Str) :
    Ensures (savedVariable T type value) Variable.Formed Ordinary := by
  rw [savedVariable]
  refine .ite (fun _ _ => VariableValue.noConfusion) fun _ =>
    .ite (fun _ _ => VariableValue.noConfusion) fun _ =>
      .ite (fun _ => .ite (fun _ _ => VariableValue.noConfusion) fun _ => ?_) fun _ =>
        .ite (fun _ => .ite (fun _ _ => VariableValue.noConfusion) fun _ => ?_) fun _ =>
          trivial
  · cases T.convertString value with
    | none => exact trivial
    | some n => exact fun _ => VariableValue.noConfusion
  · cases T.timespecEx value with
    | error what => exact trivial
    | ok t => exact fun _ => VariableValue.noConfusion

lemma ensures_saveParameterValue (h : Declared Op.saveParameterValue.declarations params) :
    Ensures (instSaveParameterValue M params s) (Op.saveParameterValue.Effect p params s)
      Ordinary := by
  have hexception : ∀ e, Ordinary (ofException e) := fun _ => trivial
  have hvalue (msg : Message) (name : Str) :
      Ensures (parameterValue M.S msg name) (fun _ => True) Ordinary := by
    refine (ensures_within hexception _).bind fun found _ => ?_
    refine .ite (fun _ => (ensures_within hexception _).mono (fun _ _ => trivial) fun _ => id)
      fun _ => ?_
    split_ifs <;> exact trivial
  exact (ensures_given casts_identifier h rfl).bind fun _ _ => (hvalue _ _).bind fun _ _ =>
    (ensures_given casts_identifier h rfl).bind fun _ hname =>
      (ensures_optional casts_identifier h rfl).bind fun _ _ =>
        ensures_setVariable hname (ensures_savedVariable _ _ _)

lemma casts_variableString : Casts "string_or_identifier" asVariableString := fun v h => by
  obtain ⟨text, htext⟩ := casts_string_or_identifier v h
  rcases v with (text | text | _ | _ | _ | _ | _ | _) | _ | _
  case value.string => exact ⟨_, rfl⟩
  case value.identifier => exact ⟨_, rfl⟩
  all_goals cases htext

lemma ensures_sendMessage (h : Declared Op.sendMessage.declarations params) :
    Ensures (instSendMessage M params s) (Op.sendMessage.Effect p params s) Ordinary := by
  have hparameters : Ensures (sendParameters params) (fun _ => True) Ordinary :=
    (ensures_optional casts_variableString h rfl).bind fun _ _ =>
      (ensures_optional casts_variableString h rfl).bind fun _ _ =>
        (ensures_optional casts_variableString h rfl).bind fun _ _ =>
          (ensures_optional casts_variableString h rfl).bind fun _ _ =>
            (ensures_given casts_identifier h rfl).bind fun _ _ =>
              (ensures_optional casts_list h rfl).bind fun _ _ => trivial
  exact hparameters.bind fun _ _ =>
    (ensures_within ordinary_raised _).bind fun msg _ => ⟨.message msg, rfl⟩

lemma castVariable_ne_other {C : Conversions} {v w : VariableValue} {cast : Str}
    (h : ScriptState.castVariable C v cast = .ok w) (hcast : cast ≠ []) (type : Str) :
    w ≠ .other type := by
  rintro rfl
  rcases v with text | _ | _ | _ | _ | t | _ | _
  case string =>
    simp only [ScriptState.castVariable, if_neg hcast] at h
    split_ifs at h
    · cases h
    · cases hd : C.convertDouble text <;> rw [hd] at h <;> cases h
  case timestamp =>
    simp only [ScriptState.castVariable, if_neg hcast] at h
    split_ifs at h
    cases h
  all_goals
    simp only [ScriptState.castVariable, if_neg hcast] at h
    cases h

lemma ensures_setVariable_inst (h : Declared Op.setVariable.declarations params) :
    Ensures (instSetVariable M params s) (Op.setVariable.Effect p params s) Ordinary := by
  refine (ensures_given casts_identifier h rfl).bind fun name hname =>
    (ensures_required h rfl).bind fun v hv =>
      (ensures_optional casts_identifier h rfl).bind fun type _ => ?_
  obtain ⟨-, -, -, hformed⟩ := h.typed.lookup hv
  cases hcast : type.getD [] with
  | nil => exact ⟨name, v, hname, hformed, rfl⟩
  | cons c cast =>
    have hvalue := ensures_within (fun t => ordinary_ofThrown t)
      (ScriptState.castVariable M.A.toConversions v.toValue (c :: cast))
    exact hvalue.bind fun w hw =>
      ⟨name, .value w, hname, castVariable_ne_other hw (List.cons_ne_nil c cast), rfl⟩

lemma ensures_showData (h : Declared Op.showData.declarations params) :
    Ensures (instShowData E params s) (Op.showData.Effect p params s) Ordinary := by
  refine (ensures_given casts_integer h rfl).bind fun size _ => .ite (fun _ => rfl) fun _ => ?_
  cases E.resize size.toUInt64.toNat with
  | some r => exact trivial
  | none => exact rfl

lemma ensures_sleep (h : Declared Op.sleep.declarations params) :
    Ensures (instSleep M E params s) (Op.sleep.Effect p params s) Ordinary :=
  (ensures_given (casts_duration _) h rfl).bind fun _ _ =>
    .ite (fun _ => rfl) fun _ => trivial

lemma ensures_unsetVariable (h : Declared Op.unsetVariable.declarations params) :
    Ensures (instUnsetVariable params s) (Op.unsetVariable.Effect p params s) Ordinary :=
  (ensures_given casts_identifier h rfl).bind fun name hname => ⟨name, hname, rfl⟩

lemma ensures_verifyMessage (h : Declared Op.verifyMessage.declarations params) :
    Ensures (instVerifyMessage M location params s) (Op.verifyMessage.Effect p params s)
      Ordinary := by
  have hparameters : Ensures (verifyParameters params) (fun _ => True) Ordinary :=
    (ensures_required h rfl).bind fun _ _ =>
      (ensures_optional casts_list h rfl).bind fun _ _ =>
        (ensures_optional casts_list h rfl).bind fun _ _ =>
          (ensures_optional casts_list h rfl).bind fun _ _ => trivial
  exact hparameters.bind fun _ _ =>
    (ensures_within ordinary_raised _).bind fun _ _ => rfl

/-- The loop of `wait()` leaves what the callbacks did, however it ends. -/
lemma ensures_waitLoop (mode : WaitMode) (polls : List Polled) :
    Ensures (waitLoop mode polls s) (fun s' => s' = (polled mode polls).foldl State.arrive s)
      fun e => Ordinary e.why ∧ e.state = (polled mode polls).foldl State.arrive s := by
  induction polls generalizing s with
  | nil => exact ⟨trivial, rfl⟩
  | cons poll polls ih =>
    cases poll with
    | nothing => exact .ite (fun _ => rfl) fun _ => ⟨trivial, rfl⟩
    | called arrivals thrown =>
      rw [polled]
      cases thrown with
      | some r =>
        rw [if_neg (by simp), List.append_nil]
        exact ⟨trivial, rfl⟩
      | none =>
        refine .ite (fun hmode => ?_) fun hmode => ?_
        · rw [if_pos ⟨hmode, rfl⟩, List.foldl_append]
          exact ih
        · rw [if_neg fun h => hmode h.1, List.append_nil]
          exact rfl

lemma ensures_waitParameters (h : Declared Op.wait.declarations params) (C : Conversions) :
    Ensures (waitParameters C location params) (fun _ => True) Ordinary := by
  have hmode (given : Option Str) : Ensures (waitModeOf location given) (fun _ => True)
      Ordinary := by
    cases given with
    | none => exact trivial
    | some m =>
      exact .ite (fun _ => trivial) fun _ => .ite (fun _ => trivial) fun _ =>
        .ite (fun _ => trivial) fun _ => trivial
  exact (ensures_given (casts_duration _) h rfl).bind fun _ _ =>
    (ensures_optional casts_identifier h rfl).bind fun given _ => (hmode given).bind fun _ _ =>
      trivial

lemma ensures_wait (h : Declared Op.wait.declarations params) :
    Ensures (instWait M E location params s) (Op.wait.Effect p params s)
      (Op.wait.StopsIn p params s) := by
  have hleaves : Op.wait.Leaves s s := ⟨[], rfl⟩
  refine .ite (fun _ => ?_) fun _ => ⟨trivial, hleaves⟩
  refine (stopsIn_of_ordinary (ensures_waitParameters h _) hleaves).bind fun given _ => ?_
  exact (ensures_waitLoop given.2 _).mono (fun s' h => ⟨_, h⟩)
    fun e h => ⟨h.1.stops, _, h.2⟩

end Instructions

/-! ## The items of an array -/

section Items

variable {location : Str} {params : Parameters} {s : State} {p : Program}
  {items : List VariableValue} {values : List Int64}

lemma not_firstOther_nil : ¬ Op.FirstOther [] values := by
  rintro ⟨item, rest, h, -⟩
  simp at h

lemma firstOther_cons {n : Int64} :
    Op.FirstOther (.integer n :: items) (n :: values) ↔ Op.FirstOther items values := by
  simp [Op.FirstOther]

/-- An item that is not an integer is the first one. -/
lemma firstOther_cons_iff_of_ne {item : VariableValue} (h : ∀ n, item ≠ .integer n) :
    Op.FirstOther (item :: items) values ↔ values = [] := by
  cases values with
  | nil => exact iff_of_true ⟨item, items, rfl, h⟩ rfl
  | cons n values =>
    refine iff_of_false ?_ (List.cons_ne_nil n values)
    rintro ⟨other, rest, heq, -⟩
    exact h n (List.cons.inj heq).1

lemma firstOther_integer {n : Int64} (h : Op.FirstOther (.integer n :: items) values) :
    ∃ values', values = n :: values' := by
  obtain ⟨item, rest, heq, hitem⟩ := h
  cases values with
  | nil => exact absurd (List.cons.inj heq).1.symm (hitem n)
  | cons m values =>
    obtain rfl := VariableValue.integer.inj (List.cons.inj heq).1
    exact ⟨values, rfl⟩

lemma asByte_of_ne {item : VariableValue} (h : ∀ n, item ≠ .integer n) :
    asByte item = .error .wrongClass := by
  cases item with
  | integer n => exact absurd rfl (h n)
  | _ => rfl

lemma ensures_asByte (item : VariableValue) :
    Ensures (asByte item) (fun _ => True) fun e => e = .wrongClass ∨ Ordinary e := by
  cases item <;> first | exact trivial | exact .inl rfl

lemma ensures_sendItems {i : ℕ} {buf : Block} :
    Ensures (sendItems location items i buf) (fun _ => True)
      fun e => e = .wrongClass ∨ Ordinary e := by
  induction items generalizing i buf with
  | nil => exact trivial
  | cons item items ih =>
    exact (ensures_asByte item).bind fun _ _ => .ite (fun _ => .inr trivial) fun _ => ih

lemma ensures_verifyItems {i : ℕ} {buf : Block} :
    Ensures (verifyItems location items buf i) (fun _ => True)
      fun e => e = .wrongClass ∨ Ordinary e := by
  induction items generalizing i buf with
  | nil => cases buf <;> exact trivial
  | cons item items ih =>
    cases buf with
    | nil => exact trivial
    | cons byte buf =>
      exact (ensures_asByte item).bind fun _ _ => .ite (fun _ => .inr trivial) fun _ => ih

/-- `send_data()` misuses the first item that is not an integer, when it accepts those before. -/
lemma sendItems_eq_wrongClass_iff {i : ℕ} {buf : Block} :
    sendItems location items i buf = .error .wrongClass ↔
      ∃ values, Op.FirstOther items values ∧ ∀ n ∈ values, InstSendData.Accepts n := by
  induction items generalizing i buf with
  | nil => exact iff_of_false (by simp [sendItems]) fun ⟨_, h, _⟩ => not_firstOther_nil h
  | cons item items ih =>
    rw [sendItems]
    by_cases hinteger : ∃ n, item = .integer n
    · obtain ⟨n, rfl⟩ := hinteger
      change (if n < -128 ∨ 255 < n then raise _ else sendItems location items _ _) = _ ↔ _
      by_cases hout : n < -128 ∨ 255 < n
      · rw [if_pos hout]
        refine iff_of_false (by simp [raise]) ?_
        rintro ⟨values, hfirst, haccepts⟩
        obtain ⟨values, rfl⟩ := firstOther_integer hfirst
        exact InstSendData.accepts_iff.mpr (haccepts n List.mem_cons_self) hout
      · rw [if_neg hout, ih]
        constructor
        · rintro ⟨values, hfirst, haccepts⟩
          exact ⟨n :: values, firstOther_cons.mpr hfirst,
            List.forall_mem_cons.mpr ⟨InstSendData.accepts_iff.mp hout, haccepts⟩⟩
        · rintro ⟨values, hfirst, haccepts⟩
          obtain ⟨values, rfl⟩ := firstOther_integer hfirst
          exact ⟨values, firstOther_cons.mp hfirst, (List.forall_mem_cons.mp haccepts).2⟩
    · have hne : ∀ n, item ≠ .integer n := fun n hn => hinteger ⟨n, hn⟩
      rw [asByte_of_ne hne]
      exact iff_of_true rfl
        ⟨[], (firstOther_cons_iff_of_ne hne).mpr rfl, fun n hn => absurd hn List.not_mem_nil⟩

/-- `verify_data()` misuses the first item that is not an integer, when those before it are the
bytes. -/
lemma verifyItems_eq_wrongClass_iff {buf : Block} {i : ℕ} (hlen : items.length = buf.length) :
    verifyItems location items buf i = .error .wrongClass ↔
      ∃ values, Op.FirstOther items values ∧
        values <+: buf.map fun byte => Int64.ofNat byte.toNat := by
  induction items generalizing buf i with
  | nil => exact iff_of_false (by simp [verifyItems]) fun ⟨_, h, _⟩ => not_firstOther_nil h
  | cons item items ih =>
    cases buf with
    | nil => cases hlen
    | cons byte buf =>
      rw [verifyItems]
      by_cases hinteger : ∃ n, item = .integer n
      · obtain ⟨n, rfl⟩ := hinteger
        change
          (if Int64.ofNat byte.toNat ≠ n then raise _ else verifyItems location items buf _) = _ ↔ _
        by_cases hne : Int64.ofNat byte.toNat ≠ n
        · rw [if_pos hne]
          refine iff_of_false (by simp [raise]) ?_
          rintro ⟨values, hfirst, hprefix⟩
          obtain ⟨values, rfl⟩ := firstOther_integer hfirst
          exact hne (List.cons_prefix_cons.mp hprefix).1.symm
        · rw [if_neg hne, ih (Nat.succ.inj hlen)]
          obtain rfl := not_not.mp hne
          constructor
          · rintro ⟨values, hfirst, hprefix⟩
            exact ⟨_ :: values, firstOther_cons.mpr hfirst,
              List.cons_prefix_cons.mpr ⟨rfl, hprefix⟩⟩
          · rintro ⟨values, hfirst, hprefix⟩
            obtain ⟨values, rfl⟩ := firstOther_integer hfirst
            exact ⟨values, firstOther_cons.mp hfirst, (List.cons_prefix_cons.mp hprefix).2⟩
      · have hne : ∀ n, item ≠ .integer n := fun n hn => hinteger ⟨n, hn⟩
        rw [asByte_of_ne hne]
        exact iff_of_true rfl
          ⟨[], (firstOther_cons_iff_of_ne hne).mpr rfl, List.nil_prefix⟩

/-- All the connections can be given data. -/
lemma instSendData_eq (h : s.connections ≠ []) :
    instSendData location params s = do
      let items ← params.given asArray "values"
      if items.length = 0 then raise (location ++ "array cannot be empty.".toList)
      else
        let buf ← sendItems location items 0 []
        return { s with sent := s.sent ++ [.data buf] } := by
  obtain ⟨type, connections, hs⟩ := List.exists_cons_of_ne_nil h
  rw [instSendData, hs]
  cases type <;> rfl

lemma ensures_sendData (h : Declared Op.sendData.declarations params) :
    Ensures (instSendData location params s) (Op.sendData.Effect p params s)
      (Op.sendData.Stops p params s) := by
  by_cases hne : s.connections = []
  · rw [instSendData, hne]
    exact trivial
  rw [instSendData_eq hne]
  refine (ensures_of_ordinary (ensures_given casts_array h rfl)).bind fun items hitems => ?_
  refine .ite (fun _ => trivial) fun _ => ?_
  cases hsend : sendItems location items 0 [] with
  | ok buf => exact ⟨.data buf, rfl⟩
  | error e =>
    rcases ensures_sendItems.of_eq_error hsend with rfl | hordinary
    · obtain ⟨values, hfirst, haccepts⟩ := sendItems_eq_wrongClass_iff.mp hsend
      exact ⟨hne, items, values, hitems, hfirst, haccepts⟩
    · exact hordinary.stops

/-- The value of a parameter. -/
lemma given_of_gives {α : Type} {cast : Variable → Except Halted α} {name : String} {a : α}
    (h : Gives cast params name a) : params.given cast name = .ok a := by
  obtain ⟨v, hv, ha⟩ := h
  rw [Parameters.given, Parameters.required, hv]
  exact ha

lemma length_ne_zero_of_firstOther (h : Op.FirstOther items values) : items.length ≠ 0 := by
  intro hnil
  rw [List.length_eq_zero_iff] at hnil
  exact not_firstOther_nil (hnil ▸ h)

lemma sendData_of_misuses (h : Op.sendData.Misuses params s) :
    instSendData location params s = .error .wrongClass := by
  obtain ⟨hne, items, values, hitems, hfirst, haccepts⟩ := h
  have hsend : sendItems location items 0 [] = .error .wrongClass :=
    sendItems_eq_wrongClass_iff.mpr ⟨values, hfirst, haccepts⟩
  rw [instSendData_eq hne, given_of_gives hitems]
  change (if items.length = 0 then _ else sendItems location items 0 [] >>= _) = _
  rw [if_neg (length_ne_zero_of_firstOther hfirst), hsend]
  rfl

/-- The bytes that are read are as many as the result says. -/
lemma length_readData {d : Data} {n : ℕ} (h : (d.readData [] n).1.result = n) :
    n = (d.readData [] n).1.buf.length := by
  rw [Data.readData] at h ⊢
  split_ifs at h ⊢
  · exact absurd h (by simp)
  · exact (Int.ofNat_inj.mp h).symm

/-- What is read is looked at part by part. -/
lemma instVerifyData_eq : instVerifyData location params s = do
    let items ← inState s (params.given asArray "values")
    if items.length = 0 then inState s (raise (location ++ "array cannot be empty.".toList))
    else
      let read := s.data.readData [] items.length
      let s' := { s with data := read.2 }
      if read.1.result ≠ items.length then
        inState s' (raise (location ++ "could not read ".toList ++ toText items.length
          ++ " bytes from the data buffer, got ".toList ++ toText read.1.result
          ++ " instead.".toList))
      else
        inState s' (verifyItems location items read.1.buf 0)
        return s' := rfl

lemma ensures_verifyData (h : Declared Op.verifyData.declarations params) :
    Ensures (instVerifyData location params s) (Op.verifyData.Effect p params s)
      (Op.verifyData.StopsIn p params s) := by
  rw [instVerifyData_eq]
  have hleaves : Op.verifyData.Leaves s s := .inl rfl
  refine (stopsIn_of_ordinary (ensures_given casts_array h rfl) hleaves).bind
    fun items hitems => ?_
  have hread : Op.verifyData.Leaves s { s with data := (s.data.readData [] items.length).2 } :=
    .inr ⟨items.length, rfl⟩
  refine .ite (fun _ => ⟨trivial, hleaves⟩) fun _ => ?_
  refine .ite (fun _ => ⟨trivial, hread⟩) fun hresult => ?_
  rw [not_not] at hresult
  have hverified : Ensures
      (verifyItems location items (s.data.readData [] items.length).1.buf 0) (fun _ => True)
      (Op.verifyData.Stops p params s) := by
    cases hverify : verifyItems location items (s.data.readData [] items.length).1.buf 0 with
    | ok u => exact trivial
    | error e =>
      rcases ensures_verifyItems.of_eq_error hverify with rfl | hordinary
      · obtain ⟨values, hfirst, hprefix⟩ :=
          (verifyItems_eq_wrongClass_iff (length_readData hresult)).mp hverify
        exact ⟨items, values, hitems, hfirst, hresult, hprefix⟩
      · exact hordinary.stops
  exact (stopsIn_of_stops hverified hread).bind fun _ _ => ⟨items.length, rfl⟩

lemma verifyData_of_misuses (h : Op.verifyData.Misuses params s) :
    ∃ s', instVerifyData location params s = .error ⟨.wrongClass, s'⟩ := by
  obtain ⟨items, values, hitems, hfirst, hresult, hprefix⟩ := h
  have hverify : verifyItems location items (s.data.readData [] items.length).1.buf 0
      = .error .wrongClass :=
    (verifyItems_eq_wrongClass_iff (length_readData hresult)).mpr ⟨values, hfirst, hprefix⟩
  refine ⟨{ s with data := (s.data.readData [] items.length).2 }, ?_⟩
  rw [instVerifyData_eq, given_of_gives hitems]
  change (if items.length = 0 then _ else
    if (s.data.readData [] items.length).1.result ≠ items.length then _ else
      inState _ (verifyItems location items (s.data.readData [] items.length).1.buf 0) >>= _) = _
  rw [if_neg (length_ne_zero_of_firstOther hfirst), if_neg (not_not.mpr hresult), hverify]
  rfl

end Items

/-! ## Sorting -/

section Sorting

variable {location : Str} {params : Parameters} {s : State} {p : Program}

/-- The variables that `sort()` sees have the values of their type. -/
lemma isSome_of_formed {v : Variable} (hv : v.Formed) :
    (v.type = "string".toList → (InstSort.getString v.toContent).isSome = true) ∧
      (v.type = "integer".toList → (InstSort.getInteger v.toContent).isSome = true) ∧
      (v.type = "floating_point".toList → InstSort.isNaN v.toContent = false →
        (InstSort.getFloatingPoint v.toContent).isSome = true) := by
  refine ⟨fun h => ?_, fun h => ?_, fun h hnan => ?_⟩
  · rcases v with (_ | _ | _ | _ | _ | _ | _ | type) | _ | _
    case value.string => rfl
    case value.other => exact absurd rfl (hv type)
    all_goals cases h
  · obtain ⟨n, rfl⟩ := exists_asInteger hv h
    rfl
  · obtain ⟨d, rfl⟩ := exists_floatingPoint hv h
    rcases d with _ | q | _ | _
    · cases hnan
    · rfl
    · rfl
    · rfl

/-- The variables that are sorted exist, and have the type of the result. -/
def Collected (vars : InstSort.Vars) (type : Str) (array : List (Str × InstSort.Content)) : Prop :=
  ∀ a ∈ array, vars.find? a.1 = some a.2 ∧ a.2.type = type ∧ type ≠ []

lemma ensures_checkType {resultType type : Str} :
    Ensures (InstSort.checkType location resultType type)
      (fun t => t = type ∧ (resultType = [] ∨ resultType = type) ∧ (resultType = [] → type ≠ []))
      (· ≠ .wrongClass) := by
  refine .ite (fun hempty => .ite (fun _ => InstSort.Halt.noConfusion) fun htype => ?_)
    fun hne => .ite (fun _ => InstSort.Halt.noConfusion) fun heq => ?_
  · refine ⟨rfl, .inl hempty, fun _ hnil => htype ?_⟩
    rw [hnil]
    decide
  · exact ⟨(not_not.mp heq).symm, .inr (not_not.mp heq).symm, fun hempty => absurd hempty hne⟩

lemma ensures_collect {vars : InstSort.Vars} {names : List (Str × Str)}
    (decls : List ParameterDeclaration) {type : Str} {array : List (Str × InstSort.Content)}
    (h : Collected vars type array) :
    Ensures (InstSort.collect location vars names type array decls)
      (fun r => Collected vars r.1 r.2) (· ≠ .wrongClass) := by
  induction decls generalizing type array with
  | nil => exact h
  | cons decl decls ih =>
    rw [InstSort.collect]
    cases names.lookup decl.name with
    | none => exact h
    | some name =>
      dsimp only
      cases hvar : vars.find? name with
      | none => exact InstSort.Halt.noConfusion
      | some var =>
        refine ensures_checkType.bind fun t ht => ih ?_
        obtain ⟨rfl, hresult, hne⟩ := ht
        rintro a ha
        rcases List.mem_append.mp ha with ha | ha
        · obtain ⟨hfind, htype, hsome⟩ := h a ha
          obtain rfl := hresult.resolve_left hsome
          exact ⟨hfind, htype, hsome⟩
        · obtain rfl := List.mem_singleton.mp ha
          refine ⟨hvar, rfl, fun hnil => ?_⟩
          rcases hresult with hresult | hresult
          · exact hne hresult hnil
          · exact hne (hresult.trans hnil) hnil

lemma mapM_ne_none {α β : Type} {f : α → Option β} {l : List α}
    (h : ∀ a ∈ l, (f a).isSome = true) : l.mapM f ≠ none := by
  induction l with
  | nil => simp
  | cons a l ih =>
    obtain ⟨ha, hl⟩ := List.forall_mem_cons.mp h
    obtain ⟨b, hb⟩ := Option.isSome_iff_exists.mp ha
    obtain ⟨bs, hbs⟩ := Option.ne_none_iff_exists'.mp (ih hl)
    rw [List.mapM_cons, hb, hbs]
    exact Option.some_ne_none _

lemma ensures_writeBack {κ : Type} (set : κ → InstSort.Content) (names : List Str) (keys : List κ)
    (vars : InstSort.Vars) :
    Ensures (InstSort.writeBack set names keys vars) (fun _ => True) (· ≠ .wrongClass) := by
  induction names generalizing keys vars with
  | nil => exact trivial
  | cons name names ih =>
    cases keys with
    | nil => exact InstSort.Halt.noConfusion
    | cons key keys => exact ih keys _

lemma ensures_sortThrough {κ : Type} [LinearOrder κ] {get : InstSort.Content → Option κ}
    (set : κ → InstSort.Content) {array : List (Str × InstSort.Content)} (vars : InstSort.Vars)
    (h : ∀ a ∈ array, (get a.2).isSome = true) :
    Ensures (InstSort.sortThrough get set array vars) (fun _ => True) (· ≠ .wrongClass) := by
  obtain ⟨keys, hkeys⟩ := Option.ne_none_iff_exists'.mp (mapM_ne_none h)
  rw [InstSort.sortThrough, hkeys]
  exact ensures_writeBack set _ _ vars

/-- `sort()` tests the types of the variables before it uses them. -/
lemma ensures_sortFunc (hs : s.Formed) (names : List (Str × Str)) :
    Ensures (InstSort.func location names (s.vars.mapTo Variable.toContent)) (fun _ => True)
      (· ≠ .wrongClass) := by
  have hstart : Collected (s.vars.mapTo Variable.toContent) [] [] :=
    fun a ha => absurd ha List.not_mem_nil
  refine (ensures_collect _ hstart).bind fun r hr => ?_
  obtain ⟨resultType, array⟩ := r
  have hvariable : ∀ a ∈ array, ∃ v : Variable, v.Formed ∧ v.type = resultType ∧
      a.2 = v.toContent := by
    intro a ha
    obtain ⟨hfind, htype, -⟩ := hr a ha
    rw [SortedMap.find?_mapTo, Option.map_eq_some_iff] at hfind
    obtain ⟨v, hv, hcontent⟩ := hfind
    refine ⟨v, hs _ v hv, ?_, hcontent.symm⟩
    rw [← Variable.type_toContent, hcontent]
    exact htype
  refine .ite (fun htype => ?_) fun _ => .ite (fun htype => ?_) fun _ =>
    .ite (fun htype => ?_) fun _ => trivial
  · refine ensures_sortThrough _ _ fun a ha => ?_
    obtain ⟨v, hv, hvtype, hcontent⟩ := hvariable a ha
    rw [hcontent]
    exact (isSome_of_formed hv).1 (hvtype.trans htype)
  · refine ensures_sortThrough _ _ fun a ha => ?_
    obtain ⟨v, hv, hvtype, hcontent⟩ := hvariable a ha
    rw [hcontent]
    exact (isSome_of_formed hv).2.1 (hvtype.trans htype)
  · refine .ite (fun _ => InstSort.Halt.noConfusion) fun _ => .ite (fun _ => trivial) fun hnan => ?_
    refine ensures_sortThrough _ _ fun a ha => ?_
    obtain ⟨v, hv, hvtype, hcontent⟩ := hvariable a ha
    have hnotNaN : InstSort.isNaN a.2 = false := by
      by_contra h
      exact hnan (List.any_eq_true.mpr ⟨a, ha, by simpa using h⟩)
    rw [hcontent] at hnotNaN ⊢
    exact (isSome_of_formed hv).2.2 (hvtype.trans htype) hnotNaN

/-- All the parameters of `sort()` are declared as strings or identifiers. -/
lemma accepted_sort (h : Declared Op.sort.declarations params) {param : Str × Variable}
    (hparam : param ∈ params) : Accepted "string_or_identifier".toList param.2 := by
  obtain ⟨type, htype, haccepted⟩ := h.typed param hparam
  obtain ⟨d, hd, rfl⟩ := Option.map_eq_some_iff.mp htype
  obtain ⟨i, -, rfl⟩ := List.mem_map.mp (List.mem_of_find?_eq_some hd)
  exact haccepted

/-- The names of the parameters. -/
lemma mapM_asString {params : Parameters}
    (h : ∀ param ∈ params, ∃ text, asString param.2 = .ok text) :
    ∃ names : List (Str × Str),
      (params.mapM fun param => (asString param.2).map (param.1, ·)) = .ok names ∧
        names.map Prod.snd = sortNames params := by
  induction params with
  | nil => exact ⟨[], rfl, rfl⟩
  | cons param params ih =>
    obtain ⟨⟨text, htext⟩, hparams⟩ := List.forall_mem_cons.mp h
    obtain ⟨names, hmap, hnames⟩ := ih hparams
    refine ⟨(param.1, text) :: names, ?_, ?_⟩
    · rw [List.mapM_cons, htext, hmap]
      rfl
    · rw [sortNames, List.filterMap_cons, htext, List.map_cons, hnames]
      rfl

lemma ensures_sort (h : Declared Op.sort.declarations params) (hs : s.Formed) :
    Ensures (instSort location params s) (Op.sort.Effect p params s) Ordinary := by
  obtain ⟨names, hmap, hnames⟩ := mapM_asString fun param hparam =>
    casts_string_or_identifier _ (accepted_sort h hparam)
  rw [instSort, hmap]
  change Ensures (within .ofSort (InstSort.func location names
    (s.vars.mapTo Variable.toContent)) >>= _) _ _
  have hfunc : Ensures (InstSort.func location names (s.vars.mapTo Variable.toContent))
      (fun _ => True) (· ≠ .wrongClass) := ensures_sortFunc hs names
  have hwithin : Ensures (within Halted.ofSort (InstSort.func location names
      (s.vars.mapTo Variable.toContent))) (fun _ => True) Ordinary := by
    cases hsort : InstSort.func location names (s.vars.mapTo Variable.toContent) with
    | ok vars => exact trivial
    | error e =>
      have hne := hfunc.of_eq_error hsort
      cases e with
      | wrongClass => exact absurd rfl hne
      | thrown t => exact ordinary_ofThrown t
      | pastTheEnd => exact trivial
      | notOrdered => exact trivial
  refine hwithin.bind fun sorted _ => ⟨sorted, ?_⟩
  rw [← hnames]

end Sorting

/-! ## All the instructions -/

section Functions

variable {M : Machine} {E : Environment} {p : Program} {location : Str} {params : Parameters}
  {s : State}

/-- **What an instruction does.**  It has its effect, or throws an exception, or its behaviour is
undefined for another reason than the class of a variable, unless an item of an array is not an
integer. -/
theorem ensures_func {op : Op} (h : Declared op.declarations params) (hs : s.Formed) :
    Ensures (op.func M E p location params s) (op.Effect p params s) (op.StopsIn p params s) := by
  cases op with
  | call => exact ensures_call h
  | clearData => exact rfl
  | clearMessage => exact rfl
  | compare => exact stopsIn_of_ordinary (ensures_compare h) rfl
  | disconnect => exact rfl
  | exit => exact ensures_exit h
  | goto => exact stopsIn_of_stops (ensures_goto h) rfl
  | hasData => exact stopsIn_of_ordinary (ensures_hasData h) rfl
  | hasMessage => exact stopsIn_of_ordinary (ensures_hasMessage h) rfl
  | hasType => exact stopsIn_of_ordinary (ensures_hasType h) rfl
  | hex => exact stopsIn_of_ordinary (ensures_hex h) rfl
  | hostname => exact stopsIn_of_ordinary (ensures_hostname h) rfl
  | ifs => exact stopsIn_of_stops (ensures_ifs h) rfl
  | kill => exact stopsIn_of_ordinary (ensures_kill h) rfl
  | label => exact rfl
  | listen => exact ensures_listen h
  | maxPid => exact stopsIn_of_ordinary (ensures_maxPid h) rfl
  | now => exact stopsIn_of_ordinary (ensures_now h) rfl
  | print => exact stopsIn_of_ordinary (ensures_print h) rfl
  | random => exact stopsIn_of_ordinary (ensures_random h) rfl
  | returns =>
    refine stopsIn_of_stops ?_ rfl
    change Ensures s.popIp _ _
    rw [State.popIp]
    cases hstack : s.stack with
    | nil => exact ⟨rfl, hstack⟩
    | cons ip stack => exact ⟨ip, stack, hstack, rfl⟩
  | run => exact ⟨trivial, rfl⟩
  | saveParameterValue => exact stopsIn_of_ordinary (ensures_saveParameterValue h) rfl
  | sendData => exact stopsIn_of_stops (ensures_sendData h) rfl
  | sendMessage => exact stopsIn_of_ordinary (ensures_sendMessage h) rfl
  | setVariable => exact stopsIn_of_ordinary (ensures_setVariable_inst h) rfl
  | showData => exact stopsIn_of_ordinary (ensures_showData h) rfl
  | showMessage => exact rfl
  | sleep => exact stopsIn_of_ordinary (ensures_sleep h) rfl
  | sort => exact stopsIn_of_ordinary (ensures_sort h hs) rfl
  | strlen => exact stopsIn_of_ordinary (ensures_strlen h) rfl
  | unsetVariable => exact stopsIn_of_ordinary (ensures_unsetVariable h) rfl
  | verifyData => exact ensures_verifyData h
  | verifyMessage => exact stopsIn_of_ordinary (ensures_verifyMessage h) rfl
  | wait => exact ensures_wait h

/-- A misused item is the end of the execution. -/
lemma func_of_misuses {op : Op} (h : op.Misuses params s) :
    ∃ s', op.func M E p location params s = .error ⟨.wrongClass, s'⟩ := by
  cases op with
  | sendData =>
    refine ⟨s, ?_⟩
    change inState s (instSendData location params s) = _
    rw [sendData_of_misuses h]
    rfl
  | verifyData => exact verifyData_of_misuses h
  | _ => exact False.elim h

end Functions

end EventDispatcher.Script
