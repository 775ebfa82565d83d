import Mathlib.Data.Int.Notation
import Mathlib.Data.List.Basic

/-!
# Processes that are piped into each other

A `process` runs a command, and its next processes read what it writes: one next process through
a `direct_output_to_input_pipe`, several through a `tee_pipe`.  The processes are a tree.
`start()` prepares the descriptors of a process and forks, for the root and for its next
processes; the child duplicates the prepared descriptors over its standard streams.  `wait()`
first looks whether all the processes of the tree run.  The command, its arguments and its
environment play no role here.
-/

namespace EventDispatcher.CppProcess

/-- A file descriptor.  Two ends of pipes are never the same descriptor. -/
inductive Descriptor where
  /-- -1 -/
  | invalid
  /-- `STDIN_FILENO` -/
  | stdin
  /-- `STDOUT_FILENO` -/
  | stdout
  /-- `STDERR_FILENO` -/
  | stderr
  /-- The descriptor of an `io` object of the user. -/
  | io (n : ℕ)
  /-- The end of a pipe that is read. -/
  | readEnd (pipe : ℕ)
  /-- The end of a pipe that is written. -/
  | writeEnd (pipe : ℕ)
deriving DecidableEq, Repr

/-- The types of `pipe_connection` that are used here. -/
inductive PipeType where
  /-- `PIPE_CHILD_INPUT` -/
  | childInput
  /-- `PIPE_CHILD_OUTPUT` -/
  | childOutput
deriving DecidableEq, Repr

/-- `pipe_connection`, seen by the process that created it. -/
structure PipeConnection where
  /-- `f_socket[0]`, which `get_socket()` returns. -/
  socket : Descriptor
  /-- `f_socket[1]`, which `get_other_socket()` returns. -/
  otherSocket : Descriptor
deriving DecidableEq, Repr

/-- The constructor of `pipe_connection`, for the pipe with number `n`. -/
def PipeConnection.new (n : ℕ) : PipeType → PipeConnection
  | .childInput => ⟨.writeEnd n, .readEnd n⟩
  | .childOutput => ⟨.readEnd n, .writeEnd n⟩

/-- `close()` -/
def PipeConnection.close (_ : PipeConnection) : PipeConnection := ⟨.invalid, .invalid⟩

/-- `forked()`, in the parent. -/
def PipeConnection.forked (c : PipeConnection) : PipeConnection :=
  { c with otherSocket := .invalid }

/-- `f_intermediate_output_pipe` -/
inductive Intermediate where
  /-- `direct_output_to_input_pipe` -/
  | direct (pipe : PipeConnection)
  /-- `tee_pipe`, with its `f_output`. -/
  | tee (pipe : PipeConnection) (output : List PipeConnection)
deriving DecidableEq, Repr

/-- `get_socket()` -/
def Intermediate.getSocket : Intermediate → Descriptor
  | .direct pipe | .tee pipe _ => pipe.socket

/-- `forked()`: a direct pipe is closed. -/
def Intermediate.forked : Intermediate → Intermediate
  | .direct pipe => .direct pipe.close
  | .tee pipe output => .tee pipe.forked output

/-- The exceptions, with their texts. -/
inductive Thrown where
  /-- `cppprocess_invalid_parameters` -/
  | invalidParameters (what : String)
  /-- `cppprocess_logic_error` -/
  | logicError (what : String)
  /-- `cppprocess_recursive_call` -/
  | recursiveCall (what : String)
  /-- `cppprocess_not_started` -/
  | notStarted (what : String)
deriving DecidableEq, Repr

/-- The system, as far as `start()` changes it. -/
structure System where
  /-- How many pipes were created. -/
  pipes : ℕ := 0
  /-- How often `fork()` was called. -/
  forks : ℕ := 0
  /-- The pipe that each tee reads, and the pipes it copies to. -/
  tees : List (ℕ × List ℕ) := []

/-- What a child did before it called `execvpe()`. -/
structure Execution where
  /-- Its standard input. -/
  stdin : Descriptor
  /-- Its standard output; `none` is an index that is not in `f_prepared_output`. -/
  stdout : Option Descriptor
  /-- Its standard error. -/
  stderr : Descriptor
deriving DecidableEq, Repr

/-- The fields of a `process`, but for the next processes.  An `io` object is the descriptor that
its `get_other_fd()` returns. -/
structure Fields where
  /-- `f_input` -/
  input : Option Descriptor := none
  /-- `f_output` -/
  output : Option Descriptor := none
  /-- `f_error` -/
  error : Option Descriptor := none
  /-- `f_running` -/
  running : Bool := false
  /-- `f_prepared_input` -/
  preparedInput : Descriptor := .invalid
  /-- `f_intermediate_output_pipe` -/
  intermediate : Option Intermediate := none
  /-- `f_prepared_output` -/
  preparedOutput : List Descriptor := []
  /-- `f_prepared_error` -/
  preparedError : Descriptor := .invalid
  /-- `f_child`; `none` is -1. -/
  child : Option ℕ := none
  /-- The children that were forked, with what each one did. -/
  executed : List Execution := []
deriving DecidableEq

namespace Fields

/-- `prepare_input()` -/
def prepareInput (p : Fields) (outputFifo : Option Intermediate) : Except Thrown Fields :=
  match outputFifo with
  | some fifo =>
    if p.input.isSome then
      .error (.invalidParameters
        "you cannot pipe a command (add_next()) and define your own input pipe.")
    else .ok { p with preparedInput := fifo.getSocket }
  | none => .ok { p with preparedInput := p.input.getD .stdin }

/-- `prepare_output()`, with `next` next processes. -/
def prepareOutput (p : Fields) (s : System) (next : ℕ) : Except Thrown (System × Fields) :=
  match next with
  | 0 => .ok (s, { p with preparedOutput := p.preparedOutput ++ [p.output.getD .stdout] })
  | 1 =>
    if p.output.isSome then
      .error (.invalidParameters
        "you cannot pipe a command (add_next()) and define your own output pipe in the sender.")
    else
      let pipe := PipeConnection.new s.pipes .childOutput
      .ok ({ s with pipes := s.pipes + 1 },
        { p with
          intermediate := some (.direct pipe)
          preparedOutput := p.preparedOutput ++ [pipe.otherSocket] })
  | n + 2 =>
    if p.output.isSome then
      .error (.invalidParameters
        ("you cannot pipe the output of a command (add_next()) to many other commands " ++
          "and define your own output pipe in the sender."))
    else
      -- the pipe of the tee, then the pipes of its outputs
      let pipe := PipeConnection.new s.pipes .childInput
      let numbers := List.range' (s.pipes + 1) (n + 2)
      let output := numbers.map fun i => PipeConnection.new i .childOutput
      .ok ({ s with pipes := s.pipes + 1 + (n + 2), tees := s.tees ++ [(s.pipes, numbers)] },
        { p with
          intermediate := some (.tee pipe output)
          preparedOutput := p.preparedOutput ++ output.map PipeConnection.otherSocket })

/-- `prepare_error()` -/
def prepareError (p : Fields) : Fields := { p with preparedError := p.error.getD .stderr }

/-- `dup2()` of a prepared descriptor over a standard stream, which stays when there is none. -/
def dup2 (prepared standard : Descriptor) : Descriptor :=
  if prepared ≠ .invalid then prepared else standard

/-- `execute_command()`, up to `execvpe()`. -/
def executeCommand (p : Fields) (outputIndex : ℕ) : Execution where
  stdin := dup2 p.preparedInput .stdin
  stdout := p.preparedOutput[outputIndex]?.map (dup2 · .stdout)
  stderr := dup2 p.preparedError .stderr

/-- `start_process()`.  `fork n` is the result of the `n`-th `fork()` in the parent; `none` is an
error. -/
def startProcess (fork : ℕ → Option ℕ) (p : Fields) (s : System) (next : ℕ)
    (outputFifo : Option Intermediate) (outputIndex : ℕ) : Except Thrown (System × Fields × ℤ) :=
  if p.running then .ok (s, p, -1)
  else do
    let p ← p.prepareInput outputFifo
    let (s, p) ← p.prepareOutput s next
    let p := p.prepareError
    let s' := { s with forks := s.forks + 1 }
    match fork s.forks with
    | none => .ok (s', { p with child := none }, -1)
    | some pid =>
      .ok (s', { p with
        child := some pid
        running := true
        executed := p.executed ++ [p.executeCommand outputIndex] }, 0)

end Fields

/-- A process with its next processes. -/
inductive Process where
  | mk (fields : Fields) (next : List Process)

namespace Process

/-- The fields, but for the next processes. -/
def fields : Process → Fields
  | mk fields _ => fields

/-- `f_next` -/
def next : Process → List Process
  | mk _ next => next

/-- `add_next_process()` -/
def addNextProcess (p n : Process) : Process := mk p.fields (p.next ++ [n])

mutual

/-- The processes of a tree. -/
def nodes : Process → List Process
  | mk fields next => mk fields next :: nodesAll next

/-- The processes of several trees. -/
def nodesAll : List Process → List Process
  | [] => []
  | p :: l => nodes p ++ nodesAll l

end

/-- The loop of `start()` over the next processes. -/
def startNext (fork : ℕ → Option ℕ) (fifo : Option Intermediate) :
    System → ℕ → List Process → Except Thrown (System × List Process × ℤ)
  | s, _, [] => .ok (s, [], 0)
  | s, idx, mk n next :: l => do
    let (s, n, r) ← n.startProcess fork s next.length fifo idx
    if r ≠ 0 then .ok (s, mk n next :: l, -1)
    else
      let (s, l, r) ← startNext fork fifo s (idx + 1) l
      .ok (s, mk n next :: l, r)

/-- The end of `start()`: the intermediate pipe of the last process of a chain. -/
def forkedLast : Process → Process
  | mk n [] => mk { n with intermediate := n.intermediate.map .forked } []
  | mk n [p] => mk n [forkedLast p]
  | mk n next => mk n next

/-- `start()` -/
def start (fork : ℕ → Option ℕ) (s : System) : Process → Except Thrown (System × Process × ℤ)
  | mk p next => do
    let (s, p, r) ← p.startProcess fork s next.length none 0
    if r ≠ 0 then .ok (s, mk p next, -1)
    else if next ≠ [] ∧ next.length ≠ p.preparedOutput.length then
      .error (.logicError ("incorrect number of output pipes (expected " ++ toString next.length ++
        ", found " ++ toString p.preparedOutput.length ++ ")"))
    else
      let (s, next, r) ← startNext fork p.intermediate s 0 next
      if r ≠ 0 then .ok (s, mk p next, -1)
      else
        let p := { p with intermediate := p.intermediate.map .forked }
        match next with
        | [n] => .ok (s, mk p [forkedLast n], 0)
        | _ => .ok (s, mk p next, 0)

/-- Whether the process was started and did not die. -/
def isStarted (p : Process) : Bool := p.fields.child.isSome && p.fields.running

lemma nodesAll_append (l l' : List Process) : nodesAll (l ++ l') = nodesAll l ++ nodesAll l' := by
  induction l with
  | nil => rw [nodesAll, List.nil_append, List.nil_append]
  | cons p l ih => rw [List.cons_append, nodesAll, nodesAll, ih, List.append_assoc]

lemma nodes_eq (p : Process) : p.nodes = p :: nodesAll p.next := by
  cases p with
  | mk fields next => rw [nodes, Process.next]

/-- The loop of `wait()`: the next processes of each process are added at the end of the list. -/
def allStarted : List Process → Bool
  | [] => true
  | p :: l => p.isStarted && allStarted (l ++ p.next)
termination_by l => (nodesAll l).length
decreasing_by
  rw [nodesAll_append, nodesAll, nodes_eq, List.length_append, List.length_append,
    List.length_cons]
  omega

/-- The tests that `wait()` makes before it runs the communicator. -/
def wait (isRunning : Bool) (p : Process) : Except Thrown Unit :=
  if isRunning then
    .error (.recursiveCall
      "you already are in the communicator::run() function, you cannot call process::wait().")
  else if ¬ p.isStarted then
    .error (.notStarted "the process was not started or already died.")
  else if ¬ allStarted p.next then
    .error (.notStarted "one of the next processes was not started or already died.")
  else .ok ()

end Process

end EventDispatcher.CppProcess
