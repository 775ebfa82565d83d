import EventDispatcher.Base
import EventDispatcher.Lib.Run

/-!
# Reading from a TCP client with a BIO

`read()` gives what one call of `BIO_read()` gives, `read_line()` reads byte by byte up to a
newline, and both count in `f_received_bytes`.  Every byte that is taken from the BIO is handed
back once, but `read_line()` counts the bytes in front of the newline a second time: the counter is
the number of the bytes exactly when each `read_line()` gets no byte in front of its newline or of
its end (`accounts_iff`).
-/

namespace EventDispatcher.Buffer

open Lib

/-- What the BIO is ready to do when `BIO_read()` is called. -/
structure BioAnswer where
  /-- The number of bytes that it can give. -/
  amount : ℕ
  /-- The opposite of what it returns when it gives none. -/
  failure : ℕ
  /-- `BIO_should_retry()` -/
  shouldRetry : Bool
  /-- `BIO_eof()` -/
  eof : Bool
deriving DecidableEq, Repr

/-- `errno` -/
inductive BioErrno where
  | ebadf
  | eio
  | eagain
deriving DecidableEq, Repr

/-- A `tcp_bio_client`, with the bytes on both of its sides. -/
structure BioClient where
  /-- `f_bio` is not null. -/
  bio : Bool
  /-- The bytes that are still to come. -/
  stream : Str
  /-- The bytes that were taken from the BIO. -/
  consumed : Str := []
  /-- `f_received_bytes` -/
  receivedBytes : ℕ := 0
  /-- `errno`, when it was set. -/
  errno : Option BioErrno := none
  /-- The bytes that were handed back. -/
  handed : Str := []
deriving DecidableEq, Repr

namespace BioClient

/-- `BIO_read()`: the bytes that it gives, and what it returns. -/
def bioRead (answer : BioAnswer) (size : ℕ) (c : BioClient) : BioClient × Str × ℤ :=
  let given := c.stream.take (min answer.amount size)
  ({ c with stream := c.stream.drop given.length, consumed := c.consumed ++ given }, given,
    if given = [] then -answer.failure else given.length)

/-- `read()`: the bytes in the buffer, and what it returns. -/
def read (answer : BioAnswer) (size : ℕ) (c : BioClient) : BioClient × Str × ℤ :=
  if c.bio = false then ({ c with errno := some .ebadf }, [], -1)
  else
    let (c, buf, r) := c.bioRead answer size
    if r ≤ -2 then ({ c with errno := some .eio }, buf, -1)
    else if r = -1 ∨ r = 0 then
      if answer.shouldRetry then ({ c with errno := some .eagain }, buf, 0)
      else if answer.eof then (c, buf, 0)
      else if r ≠ 0 then ({ c with errno := some .eio }, buf, -1)
      else (c, buf, r)
    else ({ c with receivedBytes := c.receivedBytes + r.toNat }, buf, r)

/-- The end of the loop of `read_line()` when `read()` gave nothing. -/
def stop (line : Str) (r : ℤ) (c : BioClient) : BioClient × (Str × Str) × ℤ :=
  let len := line.length
  ({ c with receivedBytes := c.receivedBytes + len }, (line, []),
    if len = 0 ∧ r < 0 then -1 else len)

/-- The loop of `read_line()`, with the line so far: the line, the newline that ended it, and what
is returned.  After the last answer the BIO has nothing to give for now. -/
def readLineLoop (line : Str) : List BioAnswer → BioClient → BioClient × (Str × Str) × ℤ
  | [], c =>
    let (c, _, r) := c.read ⟨0, 1, true, false⟩ 1
    c.stop line r
  | answer :: answers, c =>
    let (c, buf, r) := c.read answer 1
    if r ≤ 0 then c.stop line r
    else if buf = ['\n'] then
      ({ c with receivedBytes := c.receivedBytes + line.length }, (line, buf), line.length)
    else readLineLoop (line ++ buf) answers c

/-- `read_line()` -/
def readLine (answers : List BioAnswer) (c : BioClient) : BioClient × (Str × Str) × ℤ :=
  readLineLoop [] answers c

end BioClient

/-! ### Runs -/

/-- The calls. -/
inductive BioCall where
  | read (size : ℕ) (answer : BioAnswer)
  | readLine (answers : List BioAnswer)
  | disconnect
deriving DecidableEq, Repr

namespace BioClient

/-- What a call changes; what it hands back is kept: the bytes that `read()` says are in the buffer,
or the line with the newline that ended it. -/
def step (c : BioClient) : BioCall → BioClient
  | .read size answer =>
    let (c, buf, r) := c.read answer size
    { c with handed := c.handed ++ buf.take r.toNat }
  | .readLine answers =>
    let (c, (line, newline), _) := c.readLine answers
    { c with handed := c.handed ++ (line ++ newline) }
  | .disconnect => { c with bio := false }

/-- The bytes that were handed back are those that were taken from the BIO, and they are counted
once. -/
def Accounts (c : BioClient) : Prop :=
  c.handed = c.consumed ∧ c.receivedBytes = c.consumed.length

/-- A call of `read_line()` gets no byte, or a newline first. -/
def StartsAtNewline (c : BioClient) : BioCall → Prop
  | .readLine (answer :: _) =>
    c.bio = true → 0 < answer.amount → ∀ b ∈ c.stream.head?, b = '\n'
  | _ => True

/-! ### One call -/

/-- What `read()` gives is taken from the BIO and counted. -/
structure ReadSpec (c c' : BioClient) (given buf : Str) (r : ℤ) : Prop where
  buf : buf = given
  pos_iff : 0 < r ↔ given ≠ []
  length : 0 < r → r = given.length
  handed : c'.handed = c.handed
  consumed : c'.consumed = c.consumed ++ given
  receivedBytes : c'.receivedBytes = c.receivedBytes + given.length

/-- The bytes that `read()` can give. -/
def given (answer : BioAnswer) (size : ℕ) (c : BioClient) : Str :=
  if c.bio then c.stream.take (min answer.amount size) else []

lemma read_spec (answer : BioAnswer) (size : ℕ) (c : BioClient) :
    ReadSpec c (c.read answer size).1 (c.given answer size) (c.read answer size).2.1
      (c.read answer size).2.2 := by
  rw [read, given]
  cases c.bio with
  | false => exact ⟨rfl, by simp, by simp, rfl, by simp, by simp⟩
  | true =>
    rw [if_neg (by simp), if_pos rfl, bioRead]
    dsimp only
    by_cases hgiven : c.stream.take (min answer.amount size) = []
    · rw [if_pos hgiven, hgiven]
      -- no byte was given, so that the value is not positive and no branch counts
      split
      · exact ⟨rfl, by simp, by simp, rfl, rfl, rfl⟩
      · split
        · split
          · exact ⟨rfl, by simp, by simp, rfl, rfl, rfl⟩
          · split
            · exact ⟨rfl, by simp, by simp, rfl, rfl, rfl⟩
            · split
              · exact ⟨rfl, by simp, by simp, rfl, rfl, rfl⟩
              · exact ⟨rfl, by simp, by simp, rfl, rfl, rfl⟩
        · omega
    · rw [if_neg hgiven]
      have hpos : 0 < (c.stream.take (min answer.amount size)).length :=
        List.length_pos_iff.mpr hgiven
      rw [if_neg (by omega), if_neg (by omega)]
      exact ⟨rfl, ⟨fun _ => hgiven, fun _ => Int.natCast_pos.mpr hpos⟩, fun _ => rfl, rfl, rfl,
        rfl⟩

/-- What the loop of `read_line()` did: it took the rest of the line and its newline from the BIO,
and it counted the whole line again. -/
structure LoopSpec (line more newline : Str) (c : BioClient)
    (s : BioClient × (Str × Str) × ℤ) : Prop where
  result : s.2.1 = (line ++ more, newline)
  handed : s.1.handed = c.handed
  consumed : s.1.consumed = c.consumed ++ (more ++ newline)
  receivedBytes :
    s.1.receivedBytes = c.receivedBytes + (more ++ newline).length + (line ++ more).length

lemma stop_spec (line : Str) {answer : BioAnswer} {c : BioClient}
    (h : c.given answer 1 = []) :
    LoopSpec line [] [] c ((c.read answer 1).1.stop line (c.read answer 1).2.2) := by
  have hspec := read_spec answer 1 c
  refine ⟨by simp [stop], hspec.handed, ?_, ?_⟩
  · rw [stop, hspec.consumed, h]
    rfl
  · rw [stop, hspec.receivedBytes, h]
    simp

lemma readLineLoop_cons (line : Str) (answer : BioAnswer) (answers : List BioAnswer)
    (c : BioClient) :
    readLineLoop line (answer :: answers) c =
      if (c.read answer 1).2.2 ≤ 0 then (c.read answer 1).1.stop line (c.read answer 1).2.2
      else if (c.read answer 1).2.1 = ['\n'] then
        ({ (c.read answer 1).1 with
            receivedBytes := (c.read answer 1).1.receivedBytes + line.length },
          (line, (c.read answer 1).2.1), line.length)
      else readLineLoop (line ++ (c.read answer 1).2.1) answers (c.read answer 1).1 := rfl

lemma readLineLoop_spec (line : Str) (answers : List BioAnswer) (c : BioClient) :
    ∃ more newline, LoopSpec line more newline c (readLineLoop line answers c) := by
  induction answers generalizing line c with
  | nil =>
    have hwaiting : c.given ⟨0, 1, true, false⟩ 1 = [] := by
      rw [given]
      split <;> simp
    exact ⟨[], [], stop_spec line hwaiting⟩
  | cons answer answers ih =>
    have hspec := read_spec answer 1 c
    rw [readLineLoop_cons]
    by_cases hr : (c.read answer 1).2.2 ≤ 0
    · rw [if_pos hr]
      refine ⟨[], [], stop_spec line ?_⟩
      by_contra h
      have := hspec.pos_iff.mpr h
      omega
    · rw [if_neg hr, hspec.buf]
      by_cases hnewline : c.given answer 1 = ['\n']
      · rw [if_pos hnewline]
        refine ⟨[], ['\n'], by simp [hnewline], hspec.handed, ?_, ?_⟩
        · rw [← hnewline]
          exact hspec.consumed
        · change (c.read answer 1).1.receivedBytes + line.length = _
          rw [hspec.receivedBytes, hnewline]
          simp
      · rw [if_neg hnewline]
        obtain ⟨more, newline, h⟩ := ih (line ++ c.given answer 1) (c.read answer 1).1
        refine ⟨c.given answer 1 ++ more, newline, ?_, ?_, ?_, ?_⟩
        · rw [h.result, List.append_assoc]
        · rw [h.handed, hspec.handed]
        · rw [h.consumed, hspec.consumed]
          simp
        · rw [h.receivedBytes, hspec.receivedBytes]
          simp
          omega

/-- The line is empty exactly when the first byte, if there is one, is a newline. -/
lemma line_eq_nil_iff (answer : BioAnswer) (answers : List BioAnswer) (c : BioClient) :
    (c.readLine (answer :: answers)).2.1.1 = [] ↔
      c.StartsAtNewline (.readLine (answer :: answers)) := by
  have hspec := read_spec answer 1 c
  have hgiven : c.given answer 1 = [] ∨ c.given answer 1 = ['\n'] ↔
      c.StartsAtNewline (.readLine (answer :: answers)) := by
    rw [given, StartsAtNewline]
    cases c.bio with
    | false => simp
    | true =>
      cases hs : c.stream with
      | nil => simp
      | cons b s =>
        obtain h | h : answer.amount = 0 ∨ min answer.amount 1 = 1 := by omega
        · simp [h]
        · have hpos : 0 < answer.amount := by omega
          simp [h, hpos]
  rw [← hgiven, readLine, readLineLoop_cons]
  by_cases hr : (c.read answer 1).2.2 ≤ 0
  · have hnil : c.given answer 1 = [] := by
      by_contra h
      have := hspec.pos_iff.mpr h
      omega
    rw [if_pos hr]
    exact ⟨fun _ => .inl hnil, fun _ => rfl⟩
  · have hne : c.given answer 1 ≠ [] := hspec.pos_iff.mp (by omega)
    rw [if_neg hr, hspec.buf]
    by_cases hnewline : c.given answer 1 = ['\n']
    · rw [if_pos hnewline]
      exact ⟨fun _ => .inr hnewline, fun _ => rfl⟩
    · rw [if_neg hnewline]
      obtain ⟨more, newline, h⟩ :=
        readLineLoop_spec ([] ++ c.given answer 1) answers (c.read answer 1).1
      rw [h.result]
      simp [hne, hnewline]

/-- What `read()` says that it put in the buffer is what it was given. -/
lemma take_read (answer : BioAnswer) (size : ℕ) (c : BioClient) :
    (c.read answer size).2.1.take (c.read answer size).2.2.toNat = c.given answer size := by
  have hspec := read_spec answer size c
  rw [hspec.buf]
  by_cases hr : 0 < (c.read answer size).2.2
  · rw [hspec.length hr, Int.toNat_natCast, List.take_length]
  · have hnil : c.given answer size = [] := by
      by_contra h
      exact hr (hspec.pos_iff.mpr h)
    rw [hnil, List.take_nil]

/-- A line keeps the account exactly when it is empty. -/
lemma accounts_readLine_iff {c : BioClient} (h : c.Accounts) (answers : List BioAnswer) :
    (c.step (.readLine answers)).Accounts ↔ (c.readLine answers).2.1.1 = [] := by
  obtain ⟨hhanded, hreceived⟩ := h
  obtain ⟨more, newline, hspec⟩ := readLineLoop_spec [] answers c
  have hline : (c.readLine answers).2.1.1 = more := congrArg Prod.fst hspec.result
  have haccounts : (c.step (.readLine answers)).handed =
      (c.step (.readLine answers)).consumed := by
    change (readLineLoop [] answers c).1.handed ++ ((readLineLoop [] answers c).2.1.1 ++
      (readLineLoop [] answers c).2.1.2) = (readLineLoop [] answers c).1.consumed
    rw [hspec.result, hspec.handed, hspec.consumed, hhanded]
    rfl
  rw [hline, Accounts, and_iff_right haccounts]
  change (readLineLoop [] answers c).1.receivedBytes =
    (readLineLoop [] answers c).1.consumed.length ↔ _
  rw [hspec.receivedBytes, hspec.consumed, hreceived, List.nil_append,
    ← List.length_eq_zero_iff]
  simp only [List.length_append]
  omega

/-- A call keeps the account exactly when it starts at a newline. -/
lemma accounts_step_iff {c : BioClient} (h : c.Accounts) (call : BioCall) :
    (c.step call).Accounts ↔ c.StartsAtNewline call := by
  cases call with
  | read size answer =>
    obtain ⟨hhanded, hreceived⟩ := h
    have hspec := read_spec answer size c
    refine iff_of_true ⟨?_, ?_⟩ trivial
    · change (c.read answer size).1.handed ++
        (c.read answer size).2.1.take (c.read answer size).2.2.toNat =
          (c.read answer size).1.consumed
      rw [take_read, hspec.handed, hspec.consumed, hhanded]
    · change (c.read answer size).1.receivedBytes = (c.read answer size).1.consumed.length
      rw [hspec.receivedBytes, hspec.consumed, hreceived, List.length_append]
  | readLine answers =>
    rw [accounts_readLine_iff h]
    cases answers with
    | nil => exact iff_of_true rfl trivial
    | cons answer answers => exact line_eq_nil_iff answer answers c
  | disconnect => exact iff_of_true h trivial

end BioClient

open BioClient in
/-- In every run, the bytes that were handed back are those that were taken from the BIO and are
counted once exactly when each line starts at its newline. -/
theorem accounts_iff (stream : Str) (l : List BioCall) :
    ((∀ x ∈ visited step { bio := true, stream := stream } l, x.1.Accounts) ∧
        (runFrom step { bio := true, stream := stream } l).Accounts) ↔
      ∀ x ∈ visited step { bio := true, stream := stream } l, x.1.StartsAtNewline x.2 := by
  have hstart : ({ bio := true, stream := stream } : BioClient).Accounts := ⟨rfl, rfl⟩
  exact holds_always_iff (P := Accounts) (fun c call h => (accounts_step_iff h call).mpr)
    (fun c h => h) (fun c call h => (accounts_step_iff h call).mp) hstart l

/-- A line of two bytes is counted as five. -/
theorem receivedBytes_hi :
    let ready : BioAnswer := ⟨1024, 1, false, false⟩
    let c := runFrom BioClient.step { bio := true, stream := ['h', 'i', '\n'] }
      [.readLine [ready, ready, ready]]
    c.handed = ['h', 'i', '\n'] ∧ c.consumed = ['h', 'i', '\n'] ∧ c.receivedBytes = 5 := by
  decide

end EventDispatcher.Buffer
