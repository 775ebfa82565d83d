import EventDispatcher.Buffer.Read

/-!
# Buffered output

`write()` sends what it can at once when nothing is buffered, and buffers the rest;
`process_write()` sends from the buffer, from a position that moves.  Both call
`process_empty_buffer()` when nothing is left, which may write again.  Whatever the socket takes,
what it took and what is buffered are the buffers for which `write()` returned their length
(`faithful_run`).
-/

namespace EventDispatcher.Buffer

/-- What the low level `write()` does. -/
structure WriteResult where
  /-- How many bytes the socket takes, at most; `none` is an error. -/
  taken : Option ℕ
  /-- `errno` -/
  errno : ℕ
deriving DecidableEq, Repr

/-- The result of a low level `write()` of `length` bytes. -/
def WriteResult.value (w : WriteResult) (length : ℕ) : ℤ :=
  match w.taken with
  | none => -1
  | some n => min n length

/-- The classes that write to a socket at once. -/
inductive WriteClass where
  /-- `tcp_client_buffer_connection` -/
  | tcpClient
  /-- `tcp_server_client_buffer_connection` -/
  | tcpServerClient
deriving DecidableEq, Repr

/-- The test for an error in `process_write()`, for a result that is not positive. -/
def WriteClass.isError : WriteClass → ℤ → ℕ → Bool
  | tcpClient, r, errno => r < 0 && errno ≠ 0 && errno ≠ eagain
  | tcpServerClient, r, errno => r ≠ 0 && errno ≠ 0 && errno ≠ eagain

/-- The output side of a buffered connection, and its socket. -/
structure Output where
  /-- `get_socket()` -/
  socket : Socket
  /-- `is_non_blocking()` -/
  nonBlocking : Bool
  /-- `f_output` -/
  output : Str := []
  /-- `f_position` -/
  position : ℕ := 0
  /-- The bytes that the socket took, in order. -/
  sent : Str := []
  /-- How often `process_error()` was called. -/
  errors : ℕ := 0
deriving DecidableEq

namespace Output

/-- `valid_socket()` -/
def validSocket (s : Output) : Bool := 0 ≤ s.socket.1

/-- The low level `write()` of some bytes: the socket takes the first ones. -/
def lowWrite (s : Output) (w : WriteResult) (bytes : Str) : Output × ℤ :=
  ({ s with sent := s.sent ++ bytes.take (w.value bytes.length).toNat }, w.value bytes.length)

/-- `write()`, with what the low level `write()` does if it is called; a null pointer is `none`.
The result is what `write()` returns, and whether it calls `process_empty_buffer()` at its end. -/
def write (s : Output) (data : Option Str) (w : WriteResult) : Output × ℤ × Bool :=
  if s.validSocket then
    let d := data.getD []
    if d ≠ [] then
      if s.output = [] ∧ s.nonBlocking then
        let (s, r) := s.lowWrite w d
        if 0 < r then
          if d.length - r.toNat = 0 then (s, d.length, true)
          -- could not write the entire buffer, cache the rest
          else ({ s with output := s.output ++ d.drop r.toNat }, d.length, false)
        else ({ s with output := s.output ++ d }, d.length, false)
      else ({ s with output := s.output ++ d }, d.length, false)
    else (s, 0, s.output = [])
  else (s, -1, false)

/-- `process_write()`, and whether it calls `process_empty_buffer()` at its end. -/
def processWrite (k : WriteClass) (s : Output) (w : WriteResult) : Output × Bool :=
  if s.validSocket then
    let (s, r) := s.lowWrite w (s.output.drop s.position)
    if 0 < r then
      let s := { s with position := s.position + r.toNat }
      if s.output.length ≤ s.position then ({ s with output := [], position := 0 }, true)
      else (s, false)
    else if k.isError r w.errno then ({ s with errors := s.errors + 1 }, false)
    else (s, false)
  else (s, false)

end Output

/-- A call on the connection, with the calls that `process_empty_buffer()` makes when it is
called. -/
inductive WriteCall where
  /-- `write()` -/
  | write (data : Option Str) (w : WriteResult) (nested : List WriteCall)
  /-- `process_write()` -/
  | processWrite (w : WriteResult) (nested : List WriteCall)

/-- A connection, and what was asked of it. -/
structure Session where
  /-- The connection. -/
  connection : Output
  /-- The bytes of the buffers for which `write()` returned their length, in order. -/
  accepted : Str := []
  /-- The bytes that were accepted and not sent, at each call of `process_empty_buffer()`. -/
  emptied : List Str := []
deriving DecidableEq

namespace Session

/-- A call of `write()` left the connection as it is, and returned `r`. -/
def wrote (t : Session) (data : Option Str) (s : Output) (r : ℤ) : Session :=
  { t with
    connection := s
    accepted := t.accepted ++ if r = (data.getD []).length then data.getD [] else [] }

/-- `process_empty_buffer()` is called, before it makes its own calls. -/
def emptyBuffer (t : Session) : Session :=
  { t with emptied := t.emptied ++ [t.accepted.drop t.connection.sent.length] }

end Session

mutual

/-- A call, with the calls it leads to. -/
def exec (k : WriteClass) (t : Session) : WriteCall → Session
  | .write data w nested =>
    let (s, r, emptied) := t.connection.write data w
    let t := t.wrote data s r
    if emptied then execAll k t.emptyBuffer nested else t
  | .processWrite w nested =>
    let (s, emptied) := t.connection.processWrite k w
    let t := { t with connection := s }
    if emptied then execAll k t.emptyBuffer nested else t

/-- The calls one after the other. -/
def execAll (k : WriteClass) (t : Session) : List WriteCall → Session
  | [] => t
  | call :: calls => execAll k (exec k t call) calls

end

/-! ### The bytes are sent in order -/

namespace Session

/-- What the socket took and what is buffered are what was accepted; a position within the
buffer, or an empty buffer. -/
structure Faithful (t : Session) : Prop where
  /-- The bytes. -/
  bytes : t.connection.sent ++ t.connection.output.drop t.connection.position = t.accepted
  /-- The position. -/
  position : t.connection.position < t.connection.output.length ∨
    t.connection.position = 0 ∧ t.connection.output = []
  /-- `process_empty_buffer()` was called when nothing was left to send. -/
  emptied : ∀ left ∈ t.emptied, left = []

/-- `process_empty_buffer()` may be called: nothing is left to send. -/
structure Empty (t : Session) : Prop where
  /-- The bytes are faithful. -/
  faithful : t.Faithful
  /-- All the bytes are sent. -/
  sent : t.connection.sent = t.accepted

/-- Nothing was written yet. -/
lemma Faithful.new {s : Output} (houtput : s.output = []) (hposition : s.position = 0)
    (hsent : s.sent = []) : Faithful { connection := s } :=
  ⟨by simp [houtput, hsent], .inr ⟨hposition, houtput⟩, fun _ h => absurd h List.not_mem_nil⟩

lemma Faithful.position_eq_zero {t : Session} (h : t.Faithful) (ht : t.connection.output = []) :
    t.connection.position = 0 := by
  rcases h.position with hlt | ⟨h, -⟩
  · rw [ht] at hlt
    exact absurd hlt (Nat.not_lt_zero _)
  · exact h

lemma Faithful.empty {t : Session} (h : t.Faithful) (ht : t.connection.output = []) : t.Empty :=
  ⟨h, by simpa [ht] using h.bytes⟩

lemma Empty.emptyBuffer {t : Session} (h : t.Empty) : t.emptyBuffer.Faithful := by
  refine ⟨h.faithful.bytes, h.faithful.position, fun left hleft => ?_⟩
  rcases List.mem_append.mp hleft with hleft | hleft
  · exact h.faithful.emptied left hleft
  · rw [List.mem_singleton.mp hleft, h.sent, List.drop_length]

/-- A call of `write()` that accepts nothing. -/
lemma Faithful.refused {t : Session} (h : t.Faithful) {data : Option Str} {r : ℤ}
    (hr : r = (data.getD []).length → data.getD [] = []) :
    (t.wrote data t.connection r).Faithful := by
  have haccepted : (if r = ((data.getD []).length : ℤ) then data.getD [] else []) = [] := by
    split_ifs with hlength
    · exact hr hlength
    · rfl
  refine ⟨?_, h.position, h.emptied⟩
  rw [wrote, haccepted, List.append_nil]
  exact h.bytes

/-- A buffer that is cached comes after what is cached already. -/
lemma Faithful.cache {t : Session} (h : t.Faithful) {data : Option Str} (hd : data.getD [] ≠ []) :
    (t.wrote data { t.connection with output := t.connection.output ++ data.getD [] }
      (data.getD []).length).Faithful := by
  have hle : t.connection.position ≤ t.connection.output.length := by
    rcases h.position with hlt | ⟨h, -⟩ <;> omega
  have hpos := List.length_pos_iff.mpr hd
  refine ⟨?_, .inl ?_, h.emptied⟩
  · rw [wrote, if_pos rfl, List.drop_append_of_le_length hle, ← List.append_assoc, h.bytes]
  · change t.connection.position < (t.connection.output ++ data.getD []).length
    rw [List.length_append]
    omega

/-- A buffer is offered to the socket when nothing is cached, and the rest of it is cached. -/
lemma Faithful.send {t : Session} (h : t.Faithful) (ht : t.connection.output = [])
    (data : Option Str) (n : ℕ) :
    (t.wrote data { t.connection with
      sent := t.connection.sent ++ (data.getD []).take n
      output := t.connection.output ++ (data.getD []).drop n } (data.getD []).length).Faithful := by
  have hposition := h.position_eq_zero ht
  have hbytes := h.bytes
  rw [ht, List.drop_nil, List.append_nil] at hbytes
  refine ⟨?_, ?_, h.emptied⟩
  · rw [wrote, if_pos rfl]
    simp only [ht, hposition, hbytes, List.nil_append, List.drop_zero, List.append_assoc,
      List.take_append_drop]
  · simp only [wrote, ht, hposition, List.nil_append, true_and]
    rcases ((data.getD []).drop n).eq_nil_or_concat' with hnil | ⟨l, c, hl⟩
    · exact .inr hnil
    · exact .inl (by simp [hl])

lemma not_of_eq_false {p : Prop} : false = true → p := fun h => absurd h Bool.false_ne_true

/-- A low level `write()` that takes nothing leaves the connection alone. -/
lemma lowWrite_of_nonpos (s : Output) (w : WriteResult) {bytes : Str}
    (h : ¬ 0 < (s.lowWrite w bytes).2) : (s.lowWrite w bytes).1 = s := by
  have hzero : (w.value bytes.length).toNat = 0 := Int.toNat_of_nonpos (not_lt.mp h)
  rw [Output.lowWrite, hzero, List.take_zero, List.append_nil]

/-- **What `write()` does.** -/
lemma faithful_write {t : Session} (h : t.Faithful) (data : Option Str) (w : WriteResult) :
    (t.wrote data (t.connection.write data w).1 (t.connection.write data w).2.1).Faithful ∧
      ((t.connection.write data w).2.2 = true →
        (t.wrote data (t.connection.write data w).1 (t.connection.write data w).2.1).Empty) := by
  by_cases hsocket : t.connection.validSocket = true
  swap
  · rw [Output.write, if_neg hsocket]
    have hrefused : -1 = ((data.getD []).length : ℤ) → data.getD [] = [] :=
      fun hr => absurd hr (by omega)
    exact ⟨h.refused hrefused, not_of_eq_false⟩
  rw [Output.write, if_pos hsocket]
  by_cases hd : data.getD [] = []
  · simp only [hd, ne_eq, not_true, if_false]
    have hrefused : (t.wrote data t.connection 0).Faithful := h.refused fun _ => hd
    exact ⟨hrefused, fun hs => hrefused.empty (of_decide_eq_true hs)⟩
  simp only [ne_eq, hd, not_false_eq_true, if_true]
  by_cases hnow : t.connection.output = [] ∧ t.connection.nonBlocking = true
  swap
  · rw [if_neg hnow]
    exact ⟨h.cache hd, not_of_eq_false⟩
  rw [if_pos hnow]
  -- nothing is cached, so the buffer can be sent at once
  by_cases hr : 0 < (t.connection.lowWrite w (data.getD [])).2
  swap
  · rw [if_neg hr, lowWrite_of_nonpos _ _ hr]
    exact ⟨h.cache hd, not_of_eq_false⟩
  rw [if_pos hr]
  have hsend := h.send hnow.1 data (t.connection.lowWrite w (data.getD [])).2.toNat
  by_cases hall : (data.getD []).length - (t.connection.lowWrite w (data.getD [])).2.toNat = 0
  swap
  · rw [if_neg hall]
    exact ⟨hsend, not_of_eq_false⟩
  rw [if_pos hall]
  rw [List.drop_of_length_le (by omega), List.append_nil] at hsend
  exact ⟨hsend, fun _ => hsend.empty hnow.1⟩

/-- **What `process_write()` does.** -/
lemma faithful_processWrite (k : WriteClass) {t : Session} (h : t.Faithful) (w : WriteResult) :
    Faithful { t with connection := (t.connection.processWrite k w).1 } ∧
      ((t.connection.processWrite k w).2 = true →
        Empty { t with connection := (t.connection.processWrite k w).1 }) := by
  by_cases hsocket : t.connection.validSocket = true
  swap
  · rw [Output.processWrite, if_neg hsocket]
    exact ⟨h, not_of_eq_false⟩
  rw [Output.processWrite, if_pos hsocket]
  dsimp only
  by_cases hr : 0 < (t.connection.lowWrite w (t.connection.output.drop t.connection.position)).2
  swap
  · rw [if_neg hr, lowWrite_of_nonpos _ _ hr]
    split_ifs
    · exact ⟨⟨h.bytes, h.position, h.emptied⟩, False.elim⟩
    · exact ⟨h, False.elim⟩
  rw [if_pos hr]
  -- what is sent is taken from the position on, so that the bytes only move
  have hbytes : ∀ n, t.connection.sent ++ (t.connection.output.drop t.connection.position).take n ++
      t.connection.output.drop (t.connection.position + n) = t.accepted := by
    intro n
    rw [← List.drop_drop, List.append_assoc, List.take_append_drop, h.bytes]
  have hmoved := hbytes
    (t.connection.lowWrite w (t.connection.output.drop t.connection.position)).2.toNat
  split_ifs with hend
  · have hnil : t.connection.output.drop (t.connection.position +
        (t.connection.lowWrite w (t.connection.output.drop t.connection.position)).2.toNat) = [] :=
      List.drop_of_length_le hend
    rw [hnil, List.append_nil] at hmoved
    have hfaithful : Faithful { t with connection :=
        { (t.connection.lowWrite w (t.connection.output.drop t.connection.position)).1 with
          output := [], position := 0 } } :=
      ⟨(List.append_nil _).trans hmoved, .inr ⟨rfl, rfl⟩, h.emptied⟩
    exact ⟨hfaithful, fun _ => hfaithful.empty rfl⟩
  · exact ⟨⟨hmoved, .inl (not_le.mp hend), h.emptied⟩, False.elim⟩

end Session

mutual

lemma faithful_exec (k : WriteClass) {t : Session} (h : t.Faithful) :
    (call : WriteCall) → (exec k t call).Faithful
  | .write data w nested => by
    obtain ⟨hfaithful, hempty⟩ := Session.faithful_write h data w
    rw [exec]
    dsimp only
    split_ifs with hemptied
    · exact faithful_execAll k (hempty hemptied).emptyBuffer nested
    · exact hfaithful
  | .processWrite w nested => by
    obtain ⟨hfaithful, hempty⟩ := Session.faithful_processWrite k h w
    rw [exec]
    dsimp only
    split_ifs with hemptied
    · exact faithful_execAll k (hempty hemptied).emptyBuffer nested
    · exact hfaithful

/-- The calls one after the other are faithful. -/
lemma faithful_execAll (k : WriteClass) {t : Session} (h : t.Faithful) :
    (calls : List WriteCall) → (execAll k t calls).Faithful
  | [] => h
  | call :: calls => faithful_execAll k (faithful_exec k h call) calls

end

/-- **Buffered output is a faithful stream of bytes.**  After any calls, those that
`process_empty_buffer()` makes included, the bytes that the socket took and those in the buffer
from the position on are the bytes of the buffers for which `write()` returned their length, the
position is in the buffer or the buffer is empty, and `process_empty_buffer()` was only called when
nothing was left to send. -/
theorem faithful_run (k : WriteClass) (socket : Socket) (nonBlocking : Bool)
    (calls : List WriteCall) :
    (execAll k { connection := { socket, nonBlocking } } calls).Faithful :=
  faithful_execAll k (.new rfl rfl rfl) calls

/-- The socket takes one byte of the first buffer, and the second buffer waits behind the rest; the
callback for the empty buffer writes a third one. -/
def partialWrites : List WriteCall :=
  [.write (some "AB".toList) ⟨some 1, 0⟩ [], .write (some "CD".toList) ⟨some 9, 0⟩ [],
    .processWrite ⟨none, eagain⟩ [],
    .processWrite ⟨some 9, 0⟩ [.write (some "E".toList) ⟨some 9, 0⟩ []]]

theorem faithful_run_partialWrites :
    (execAll .tcpClient { connection := { socket := openSocket, nonBlocking := true } }
        partialWrites).accepted = "ABCDE".toList ∧
      (execAll .tcpClient { connection := { socket := openSocket, nonBlocking := true } }
        partialWrites).connection.sent = "ABCDE".toList := by
  have hbytes := (faithful_run .tcpClient openSocket true partialWrites).bytes
  have haccepted : (execAll .tcpClient
      { connection := { socket := openSocket, nonBlocking := true } }
        partialWrites).accepted = "ABCDE".toList := by decide
  have houtput : (execAll .tcpClient
      { connection := { socket := openSocket, nonBlocking := true } }
        partialWrites).connection.output = [] := by decide
  rw [houtput, List.drop_nil, List.append_nil] at hbytes
  exact ⟨haccepted, hbytes.trans haccepted⟩

end EventDispatcher.Buffer
