import EventDispatcher.Base

/-!
# The servers of a Unix socket file

The constructors of `local_stream_server_connection` and `local_dgram_server` for one file address,
on a kernel that has the file of that path, the sockets that the live objects have and the
connections that wait in their backlogs.  Both look at the file with `stat()`; the first one tries
to connect to it before it deletes it, the second one deletes it at once.
-/

namespace EventDispatcher.LocalServer

/-! ### The kernel -/

/-- The file of the path. -/
structure File where
  /-- Each file that is made has its own. -/
  inode : ℕ
  /-- `S_ISSOCK()` -/
  isSocket : Bool
  /-- Its group. -/
  group : Str
  /-- Its permissions. -/
  mode : ℕ
deriving DecidableEq, Repr

/-- The class of a server, with what its constructor was given. -/
inductive ServerClass where
  /-- `local_stream_server_connection`, with its `f_max_connections` -/
  | stream (maxConnections : ℕ)
  /-- `local_dgram_server`, a `SOCK_SEQPACKET` or a `SOCK_DGRAM` -/
  | dgram (sequential : Bool)
deriving DecidableEq, Repr

/-- A server object whose constructor returned. -/
structure Server where
  /-- Its class. -/
  cls : ServerClass
  /-- The file of the path when the constructor returned, the one that its socket is bound to. -/
  file : File
  /-- The connections that were not accepted yet. -/
  pending : ℕ := 0
deriving DecidableEq, Repr

/-- The path, and the servers that live on it. -/
structure State where
  /-- The file, when there is one. -/
  file : Option File
  /-- The live servers, of all the processes. -/
  servers : List Server := []
  /-- The inode of the next file. -/
  nextInode : ℕ
deriving DecidableEq, Repr

/-- What the calls of one construction meet in the kernel. -/
structure Kernel where
  /-- `socket()` fails for the server. -/
  socketFails : Bool := false
  /-- `socket()` fails for the test connection. -/
  testSocketFails : Bool := false
  /-- `getsockopt()` fails. -/
  getsockoptFails : Bool := false
  /-- `unlink()` fails, and not because there is no file. -/
  unlinkFails : Bool := false
  /-- `fchmod()` fails. -/
  fchmodFails : Bool := false
  /-- `bind()` fails for another reason than the file. -/
  bindFails : Bool := false
  /-- `chownnm()` fails. -/
  chownFails : Bool := false
  /-- `chmod()` fails. -/
  chmodFails : Bool := false
  /-- `listen()` fails. -/
  listenFails : Bool := false
  /-- The group of the process. -/
  group : Str := []
  /-- The permissions of a file that `bind()` makes. -/
  mode : ℕ := 0
deriving DecidableEq, Repr

namespace State

/-- `unlink()`, `fails` when it does not delete the file. -/
def unlink (fails : Bool) (s : State) : State := if fails then s else { s with file := none }

/-- `bind()` fails when the file exists. -/
def bind (k : Kernel) (s : State) : Bool × State :=
  if s.file.isSome ∨ k.bindFails then (false, s)
  else (true, { s with
    file := some ⟨s.nextInode, true, k.group, k.mode⟩, nextInode := s.nextInode + 1 })

/-- `chownnm()` -/
def chownnm (k : Kernel) (group : Str) (s : State) : Bool × State :=
  if s.file.isNone ∨ k.chownFails then (false, s)
  else (true, { s with file := s.file.map fun f => { f with group := group } })

/-- `chmod()` -/
def chmod (k : Kernel) (mode : ℕ) (s : State) : Bool × State :=
  if s.file.isNone ∨ k.chmodFails then (false, s)
  else (true, { s with file := s.file.map fun f => { f with mode := mode } })

end State

/-- There is room for one more connection, `capacity` being what the kernel makes of the backlog
that `listen()` is given.  A datagram socket takes no connection. -/
def Server.hasRoom (capacity : ℕ → ℕ) (a : Server) : Bool :=
  match a.cls with
  | .stream maxConnections => decide (a.pending < capacity maxConnections)
  | .dgram _ => false

/-- The file of the path is the one of this server. -/
def State.isFileOf (s : State) (a : Server) : Bool := s.file.map File.inode = some a.file.inode

/-- One more connection waits in the backlog of the server that has the file. -/
def State.enqueue (s : State) : State where
  file := s.file
  servers := s.servers.map fun b =>
    if s.isFileOf b then { b with pending := b.pending + 1 } else b
  nextInode := s.nextInode

/-- `connect()` of a stream socket to the path.  It fails when no live server has the file, with
`ECONNREFUSED`; when that server takes no connection, with `EPROTOTYPE`; and when its backlog is
full, with `EAGAIN`. -/
def State.connect (capacity : ℕ → ℕ) (s : State) : Bool × State :=
  match s.servers.find? s.isFileOf with
  | none => (false, s)
  | some a =>
    if a.hasRoom capacity then (true, s.enqueue) else (false, s)

/-! ### The constructors -/

/-- A file address. -/
structure Address where
  /-- What `to_uri()` returns. -/
  uri : Str
  /-- What `get_group()` returns. -/
  group : Str := []
  /-- What `get_mode()` returns. -/
  mode : ℕ := 0
deriving DecidableEq, Repr

/-- A `runtime_error`. -/
def runtimeError (what : String) : Exception := ⟨.runtimeError, what.toList⟩

/-- A `runtime_error` that names the address. -/
def runtimeErrorAt (before : String) (a : Address) (after : String) : Exception :=
  ⟨.runtimeError, before.toList ++ a.uri ++ after.toList⟩

/-- The part that the constructors have in common, from `bind()`: what it returned, with the
permissions of the file set when it succeeded. -/
def bindFile (a : Address) (k : Kernel) (s : State) : Except Exception Bool × State :=
  let b := s.bind k
  let c := if a.group = [] then (true, b.2) else b.2.chownnm k a.group
  if c.1 = false then
    (.error (runtimeError "could not change group ownership on socket file."), c.2)
  else if b.1 then
    let m := c.2.chmod k a.mode
    if m.1 then (.ok true, m.2)
    else (.error (runtimeError "could not change socket permissions."), m.2)
  else (.ok false, c.2)

/-- The object is made. -/
def State.construct (cls : ServerClass) (s : State) : State :=
  { s with servers := s.servers ++ s.file.toList.map fun f => { cls := cls, file := f } }

/-- `local_stream_client_connection test_connection(f_address)`, whether it returns. -/
def testConnection (capacity : ℕ → ℕ) (k : Kernel) (s : State) : Bool × State :=
  if k.testSocketFails then (false, s) else s.connect capacity

/-- What follows a call that can throw. -/
def andThen (r : Except Exception Unit × State) (f : State → Except Exception Unit × State) :
    Except Exception Unit × State :=
  match r with
  | (.error e, s) => (.error e, s)
  | (.ok (), s) => f s

/-- The constructors delete the file. -/
def unlinkFile (k : Kernel) (text : String) (s : State) : Except Exception Unit × State :=
  if k.unlinkFails then (.error (runtimeError text), s) else (.ok (), s.unlink false)

/-- What the constructor of `local_stream_server_connection` does with a file that exists. -/
def streamReuse (capacity : ℕ → ℕ) (force : Bool) (k : Kernel) (s : State) :
    Except Exception Unit × State :=
  match s.file with
  | none => (.ok (), s)
  | some f =>
    if f.isSocket = false then
      (.error (runtimeError
        "file already exists and it is not a socket, can't create an AF_UNIX server"), s)
    else
      -- not `available`
      let taken := if force then testConnection capacity k s else (true, s)
      if taken.1 then
        (.error (runtimeError "socket already exists, can't create an AF_UNIX server"), taken.2)
      else
        unlinkFile k "could not unlink socket to reuse it as an AF_UNIX server" taken.2

/-- `f_max_connections` -/
def clampConnections (maxConnections : ℤ) : ℕ :=
  if maxConnections < 5 then 5 else if maxConnections > 1000 then 1000 else maxConnections.toNat

/-- The constructor of `local_stream_server_connection` from `fchmod()`. -/
def streamBind (a : Address) (maxConnections : ℤ) (k : Kernel) (s : State) :
    Except Exception Unit × State :=
  if k.fchmodFails then (.error (runtimeError "could not change socket permissions."), s)
  else
    match bindFile a k s with
    | (.error e, s) => (.error e, s)
    | (.ok false, s) => (.error (runtimeErrorAt "could not bind the socket to \"" a "\"."), s)
    | (.ok true, s) =>
      if k.listenFails then
        (.error (runtimeErrorAt "could not listen to the socket bound to \"" a "\"."), s)
      else (.ok (), s.construct (.stream (clampConnections maxConnections)))

/-- `local_stream_server_connection::local_stream_server_connection()` -/
def localStreamServerConnection (capacity : ℕ → ℕ) (a : Address) (maxConnections : ℤ)
    (force : Bool) (k : Kernel) (s : State) : Except Exception Unit × State :=
  if k.socketFails then (.error (runtimeError "could not create socket for AF_UNIX server"), s)
  else andThen (streamReuse capacity force k s) (streamBind a maxConnections k)

/-- What the constructor of `local_dgram_server` does with a file that exists. -/
def dgramReuse (force : Bool) (k : Kernel) (s : State) : Except Exception Unit × State :=
  match s.file with
  | none => (.ok (), s)
  | some f =>
    if f.isSocket = false then
      (.error (runtimeError
        "file already exists and it is not a socket, can't create an AF_UNIX server."), s)
    else if force = false then
      (.error (runtimeError "socket already exists, can't create an AF_UNIX server."), s)
    else unlinkFile k "could not unlink socket to reuse it as an AF_UNIX server." s

/-- The constructor of `local_dgram_server` from `bind()`. -/
def dgramBind (a : Address) (sequential : Bool) (k : Kernel) (s : State) :
    Except Exception Unit × State :=
  match bindFile a k s with
  | (.error e, s) => (.error e, s)
  | (.ok false, s) =>
    (.error (runtimeErrorAt "could not bind AF_UNIX datagram socket to \"" a "\""), s)
  | (.ok true, s) => (.ok (), s.construct (.dgram sequential))

/-- `local_dgram_server::local_dgram_server()`, with the constructor of its base. -/
def localDgramServer (a : Address) (sequential force : Bool) (k : Kernel) (s : State) :
    Except Exception Unit × State :=
  if k.socketFails then (.error (runtimeErrorAt "could not create socket for: \"" a "\"."), s)
  else if k.getsockoptFails then
    (.error (runtimeErrorAt "could not retrieve \"MTU\" size for: \"" a "\"."), s)
  else andThen (dgramReuse force k s) (dgramBind a sequential k)

/-- The call of a constructor. -/
inductive Construction where
  /-- `local_stream_server_connection` -/
  | stream (a : Address) (maxConnections : ℤ) (force : Bool) (k : Kernel)
  /-- `local_dgram_server` -/
  | dgram (a : Address) (sequential force : Bool) (k : Kernel)
deriving DecidableEq, Repr

/-- One construction. -/
def Construction.run (capacity : ℕ → ℕ) (s : State) : Construction → Except Exception Unit × State
  | stream a maxConnections force k =>
    localStreamServerConnection capacity a maxConnections force k s
  | dgram a sequential force k => localDgramServer a sequential force k s

/-! ### A run -/

/-- The destructor: the one of a stream server deletes the file of its path. -/
def Server.destroy (a : Server) (unlinkFails : Bool) (s : State) : State :=
  match a.cls with
  | .stream _ => s.unlink unlinkFails
  | .dgram _ => s

/-- What can happen on the path, one thing after the other. -/
inductive Action where
  /-- A server is constructed. -/
  | construct (c : Construction)
  /-- The server at this place is destroyed. -/
  | destroy (i : ℕ) (unlinkFails : Bool)
  /-- The process of the server at this place dies, and no destructor runs. -/
  | crash (i : ℕ)
  /-- A client connects. -/
  | connect
  /-- The server at this place accepts a connection. -/
  | accept (i : ℕ)
deriving DecidableEq, Repr

variable (capacity : ℕ → ℕ)

/-- One action. -/
def step (s : State) : Action → State
  | .construct c => (c.run capacity s).2
  | .destroy i unlinkFails =>
    match s.servers[i]? with
    | none => s
    | some a => a.destroy unlinkFails { s with servers := s.servers.eraseIdx i }
  | .crash i => { s with servers := s.servers.eraseIdx i }
  | .connect => (s.connect capacity).2
  | .accept i =>
    { s with servers := s.servers.modify i fun a => { a with pending := a.pending - 1 } }

/-- Nothing runs yet, and any file may be there. -/
def start (file : Option File) : State where
  file := file
  nextInode := file.elim 0 fun f => f.inode + 1

end EventDispatcher.LocalServer
