import EventDispatcher.Lib.Run
import Mathlib.Data.UInt
import Mathlib.Data.List.TakeDrop

/-!
# The data queue of the reporter

The state of a test program keeps the data that a connection received: a list of blocks, and the
position of the first byte of the first block that was not read yet.  `peekData` and `readData`
see the blocks as one stream of bytes (`peekData_eq`, `readData_eq`), whatever the blocks and the
reads are.  `dataSize` adds up the whole blocks, so that it is the size of the stream as long as
each read ended where a block ends.
-/

namespace EventDispatcher.Reporter

open Lib

/-- A block of data, `connection_data_t` -/
abbrev Block := List UInt8

/-- The members of the state that make the queue. -/
structure Data where
  /-- `f_connection_data` -/
  connectionData : List Block := []
  /-- `f_data_position` -/
  dataPosition : ℕ := 0
deriving DecidableEq, Repr

/-- `ENODATA` -/
def enodata : ℕ := 61

/-- What a call of `peek_data()` or `read_data()` gives back. -/
structure Answer where
  /-- The result. -/
  result : ℤ
  /-- `errno`, when the call sets it. -/
  errno : Option ℕ
  /-- The buffer of the caller, after the call. -/
  buf : Block
deriving DecidableEq, Repr

namespace Data

/-- The sum of the sizes of the blocks. -/
def dataSize (s : Data) : ℕ := s.connectionData.foldl (fun size d => size + d.length) 0

/-- The loop of `peek_data()`: `copied` is the start of the buffer, up to `offset`. -/
def peekLoop (size : ℕ) : List Block → ℕ → Block → Block
  | [], _, copied => copied
  | d :: blocks, dataPosition, copied =>
    if copied.length < size then
      let copyMaxSize := size - copied.length
      let copySize := min (d.length - dataPosition) copyMaxSize
      peekLoop size blocks 0 (copied ++ (d.drop dataPosition).take copySize)
    else copied

/-- Copy the first bytes without taking them.  It assigns to no member. -/
def peekData (s : Data) (size : ℕ) : Answer × Data :=
  if s.connectionData = [] then (⟨0, none, []⟩, s)
  else
    let buf := peekLoop size s.connectionData s.dataPosition []
    (⟨buf.length, none, buf⟩, s)

/-- The loop of `read_data()`: `copied` is the start of the buffer, up to `offset`. -/
def readLoop (size : ℕ) (s : Data) (copied : Block) : Data × Block :=
  match s with
  | ⟨[], position⟩ => (⟨[], position⟩, copied)
  | ⟨front :: blocks, position⟩ =>
    if copied.length < size then
      let copyMaxSize := size - copied.length
      let copySize := min (front.length - position) copyMaxSize
      let copied' := copied ++ (front.drop position).take copySize
      if front.length ≤ position + copySize then readLoop size ⟨blocks, 0⟩ copied'
      else readLoop size ⟨front :: blocks, position + copySize⟩ copied'
    else (⟨front :: blocks, position⟩, copied)
termination_by (s.connectionData.length, size - copied.length)
decreasing_by
  · exact Prod.Lex.left _ _ (by simp)
  · refine Prod.Lex.right _ ?_
    simp only [List.length_append, List.length_take, List.length_drop]
    omega

/-- Take the first bytes. -/
def readData (s : Data) (buf : Block) (size : ℕ) : Answer × Data :=
  if s.connectionData = [] then (⟨-1, some enodata, buf⟩, s)
  else
    let (s, buf) := readLoop size s []
    (⟨buf.length, some 0, buf⟩, s)

/-- Add a block at the end. -/
def addData (s : Data) (data : Block) : Data :=
  { s with connectionData := s.connectionData ++ [data] }

/-- Forget all the blocks. -/
def clearData (_ : Data) : Data := ⟨[], 0⟩

/-! ## The stream of bytes -/

/-- The bytes that were not read yet. -/
def contents (s : Data) : Block := s.connectionData.flatten.drop s.dataPosition

/-- The position is inside the first block. -/
def Valid (s : Data) : Prop :=
  s.dataPosition = 0 ∨ s.dataPosition < (s.connectionData.headD []).length

lemma Valid.le {s : Data} (hs : s.Valid) :
    s.dataPosition ≤ (s.connectionData.headD []).length := by
  rcases hs with hs | hs <;> omega

lemma foldl_size (blocks : List Block) (size : ℕ) :
    blocks.foldl (fun size d => size + d.length) size = size + blocks.flatten.length := by
  induction blocks generalizing size with
  | nil => simp
  | cons d blocks ih =>
    rw [List.foldl_cons, ih, List.flatten_cons, List.length_append, Nat.add_assoc]

/-- The size counts the part of the first block that was already read. -/
lemma dataSize_eq {s : Data} (hs : s.Valid) : s.dataSize = s.contents.length + s.dataPosition := by
  have hle : s.dataPosition ≤ s.connectionData.flatten.length := by
    refine hs.le.trans ?_
    cases s.connectionData with
    | nil => simp
    | cons d blocks => simp
  rw [dataSize, foldl_size, contents, List.length_drop]
  omega

/-- One turn of a loop: what the block gives, then what the next blocks give. -/
lemma take_min_append (r next : Block) (m : ℕ) :
    r.take (min r.length m) ++ next.take (m - min r.length m) = (r ++ next).take m := by
  have hrest : m - min r.length m = m - r.length := by omega
  have hpart : r.take (min r.length m) = r.take m := by
    rcases le_total r.length m with h | h
    · rw [min_eq_left h, List.take_length, List.take_of_length_le h]
    · rw [min_eq_right h]
  rw [hrest, hpart, List.take_append]

lemma peekLoop_eq (size : ℕ) (blocks : List Block) (position : ℕ) (copied : Block)
    (hpos : position ≤ (blocks.headD []).length) :
    peekLoop size blocks position copied
      = copied ++ (blocks.flatten.drop position).take (size - copied.length) := by
  induction blocks generalizing position copied with
  | nil => simp [peekLoop]
  | cons d blocks ih =>
    rw [List.headD_cons] at hpos
    rw [peekLoop, List.flatten_cons, List.drop_append_of_le_length hpos, ← List.length_drop]
    split
    · have hrest : size - (copied ++ (d.drop position).take
          (min (d.drop position).length (size - copied.length))).length
          = size - copied.length - min (d.drop position).length (size - copied.length) := by
        simp only [List.length_append, List.length_take]
        omega
      rw [ih 0 _ (Nat.zero_le _), hrest, List.drop_zero, List.append_assoc, take_min_append]
    · have hzero : size - copied.length = 0 := by omega
      rw [hzero, List.take_zero, List.append_nil]

/-- **Peeking.**  The buffer gets the first bytes of the stream and nothing changes. -/
theorem peekData_eq {s : Data} (hs : s.Valid) (size : ℕ) :
    s.peekData size = (⟨(s.contents.take size).length, none, s.contents.take size⟩, s) := by
  rw [peekData]
  split
  · rename_i hnil
    simp [contents, hnil]
  · rw [peekLoop_eq _ _ _ _ hs.le, List.length_nil, Nat.sub_zero, List.nil_append, contents]

/-! ## Reading -/

/-- One turn of the loop of `read_data()`: either the block has the bytes asked for and more, or
the whole of it is copied and it is removed. -/
lemma readLoop_cons (size : ℕ) (front : Block) (blocks : List Block) {position : ℕ}
    (copied : Block) (hpos : position ≤ front.length) (hsize : copied.length < size) :
    readLoop size ⟨front :: blocks, position⟩ copied =
      if front.length - position ≤ size - copied.length then
        readLoop size ⟨blocks, 0⟩ (copied ++ front.drop position)
      else (⟨front :: blocks, position + (size - copied.length)⟩,
        copied ++ (front.drop position).take (size - copied.length)) := by
  rw [readLoop, if_pos hsize]
  extract_lets copyMaxSize copySize copied'
  have hcopy : copySize = min (front.length - position) (size - copied.length) := rfl
  by_cases hlast : front.length - position ≤ size - copied.length
  · rw [min_eq_left hlast] at hcopy
    have hcopied : copied' = copied ++ front.drop position := by
      change copied ++ (front.drop position).take copySize = _
      rw [hcopy, List.take_of_length_le (by simp)]
    rw [if_pos hlast, if_pos (by omega), hcopied]
  · rw [min_eq_right (by omega)] at hcopy
    have hlen : copied'.length = size := by
      change (copied ++ (front.drop position).take copySize).length = size
      simp only [List.length_append, List.length_take, List.length_drop]
      omega
    -- the buffer is full: the loop ends at its next test
    rw [if_neg hlast, if_neg (by omega), readLoop, if_neg (by omega), ← hcopy]

lemma readLoop_full {size : ℕ} (s : Data) {copied : Block} (hsize : size ≤ copied.length) :
    readLoop size s copied = (s, copied) := by
  obtain ⟨_ | ⟨front, blocks⟩, position⟩ := s
  · rw [readLoop]
  · rw [readLoop, if_neg (by omega)]

/-- **The loop of `read_data()`.**  It copies the first bytes of the stream, and the bytes that
are left are the others. -/
lemma readLoop_spec (size : ℕ) (blocks : List Block) {position : ℕ} (copied : Block)
    (hs : Valid ⟨blocks, position⟩) :
    (readLoop size ⟨blocks, position⟩ copied).2
        = copied ++ (contents ⟨blocks, position⟩).take (size - copied.length)
      ∧ contents (readLoop size ⟨blocks, position⟩ copied).1
        = (contents ⟨blocks, position⟩).drop (size - copied.length)
      ∧ Valid (readLoop size ⟨blocks, position⟩ copied).1 := by
  induction blocks generalizing position copied with
  | nil =>
    rw [readLoop]
    exact ⟨by simp [contents], by simp [contents], hs⟩
  | cons front blocks ih =>
    rcases Nat.lt_or_ge copied.length size with hsize | hsize
    · have hle : position ≤ front.length := hs.le
      have hcontents : contents ⟨front :: blocks, position⟩
          = front.drop position ++ contents ⟨blocks, 0⟩ := by
        simp [contents, List.drop_append_of_le_length hle]
      rw [readLoop_cons _ _ _ _ hle hsize]
      split
      · rename_i hlast
        obtain ⟨hcopied, hleft, hvalid⟩ := ih (copied ++ front.drop position) (.inl rfl)
        have hlen : (front.drop position).length ≤ size - copied.length := by
          rwa [List.length_drop]
        rw [List.length_append, Nat.sub_add_eq] at hcopied hleft
        refine ⟨?_, ?_, hvalid⟩
        · rw [hcopied, hcontents, List.take_append, List.take_of_length_le hlen,
            List.append_assoc]
        · rw [hleft, hcontents, List.drop_append, List.drop_of_length_le hlen, List.nil_append]
      · rename_i hlast
        have hlen : size - copied.length ≤ (front.drop position).length := by
          rw [List.length_drop]
          omega
        refine ⟨?_, ?_, .inr ?_⟩
        · rw [hcontents, List.take_append_of_le_length hlen]
        · rw [hcontents, List.drop_append_of_le_length hlen, List.drop_drop]
          simp [contents, List.drop_append_of_le_length
            (show position + (size - copied.length) ≤ front.length by omega)]
        · change position + (size - copied.length) < front.length
          omega
    · rw [readLoop_full _ hsize, Nat.sub_eq_zero_of_le hsize]
      exact ⟨by simp, by simp, hs⟩

/-- **Reading.**  The buffer gets the first bytes of the stream, which are removed; when no block
is left the call fails and leaves the buffer alone. -/
theorem readData_eq {s : Data} (hs : s.Valid) (buf : Block) (size : ℕ) :
    (s.readData buf size).1
        = (if s.connectionData = [] then ⟨-1, some enodata, buf⟩
          else ⟨(s.contents.take size).length, some 0, s.contents.take size⟩)
      ∧ (s.readData buf size).2.contents = s.contents.drop size
      ∧ (s.readData buf size).2.Valid := by
  obtain ⟨blocks, position⟩ := s
  obtain ⟨hcopied, hleft, hvalid⟩ := readLoop_spec size blocks [] hs
  rw [List.length_nil, Nat.sub_zero] at hcopied hleft
  rw [List.nil_append] at hcopied
  rw [readData]
  split
  · rename_i hnil
    have hnil : blocks = [] := hnil
    exact ⟨rfl, by simp [contents, hnil], hs⟩
  · exact ⟨by simp only [hcopied], hleft, hvalid⟩

/-! ## Where a read ends -/

/-- The blocks, without the bytes that were read. -/
def remaining (s : Data) : List Block :=
  match s.connectionData with
  | [] => []
  | front :: blocks => front.drop s.dataPosition :: blocks

/-- A read of this size ends where a block ends, or reads all that there is. -/
def EndsBlock (s : Data) (size : ℕ) : Prop :=
  ∃ k, (s.remaining.take k).flatten.length = min size s.contents.length

lemma remaining_of_start {s : Data} (hs : s.dataPosition = 0) :
    s.remaining = s.connectionData := by
  rw [remaining, hs]
  cases s.connectionData <;> rfl

/-- From the start of a block the loop stops at the start of a block exactly when the bytes that
it takes are those of some first blocks. -/
lemma readLoop_position (size : ℕ) (blocks : List Block) (copied : Block) :
    (readLoop size ⟨blocks, 0⟩ copied).1.dataPosition = 0 ↔
      ∃ k, (blocks.take k).flatten.length = min (size - copied.length) blocks.flatten.length := by
  induction blocks generalizing copied with
  | nil => simp [readLoop]
  | cons front blocks ih =>
    rcases Nat.lt_or_ge copied.length size with hsize | hsize
    · have hcons (k : ℕ) : ((front :: blocks).take (k + 1)).flatten.length
          = front.length + (blocks.take k).flatten.length := by simp
      have htotal : (front :: blocks).flatten.length = front.length + blocks.flatten.length := by
        simp
      rw [readLoop_cons _ _ _ _ (Nat.zero_le _) hsize, htotal]
      split
      · rename_i hlast
        rw [ih, List.drop_zero, List.length_append]
        constructor
        · rintro ⟨k, hk⟩
          refine ⟨k + 1, ?_⟩
          rw [hcons, hk]
          omega
        · rintro ⟨k, hk⟩
          cases k with
          | zero =>
            -- nothing is taken, so the blocks are empty
            refine ⟨0, ?_⟩
            rw [List.take_zero, List.flatten_nil, List.length_nil] at hk ⊢
            omega
          | succ k =>
            rw [hcons] at hk
            exact ⟨k, by omega⟩
      · rename_i hlast
        refine iff_of_false (by simp; omega) ?_
        rintro ⟨k, hk⟩
        cases k with
        | zero =>
          rw [List.take_zero, List.flatten_nil, List.length_nil] at hk
          omega
        | succ k =>
          rw [hcons] at hk
          omega
    · rw [readLoop_full _ hsize]
      exact iff_of_true rfl ⟨0, by simp [Nat.sub_eq_zero_of_le hsize]⟩

lemma position_readData {s : Data} (hs : s.dataPosition = 0) (buf : Block) (size : ℕ) :
    (s.readData buf size).2.dataPosition = 0 ↔ s.EndsBlock size := by
  obtain ⟨blocks, position⟩ := s
  cases (hs : position = 0)
  rw [EndsBlock, remaining_of_start rfl, readData]
  split
  · rename_i hnil
    exact iff_of_true rfl ⟨0, by simp [contents, show blocks = [] from hnil]⟩
  · rw [readLoop_position]
    rfl

end Data

/-! ## Runs -/

/-- A call on the queue. -/
inductive DataCall where
  | addData (data : Block)
  | readData (size : ℕ)
  | peekData (size : ℕ)
  | clearData
deriving DecidableEq, Repr

/-- The queue with what was put in it and what was taken from it. -/
structure DataRun where
  /-- The queue. -/
  data : Data := {}
  /-- The blocks added since the last `clear_data()`, put together. -/
  added : Block := []
  /-- The bytes that `read_data()` gave since then. -/
  taken : Block := []
deriving DecidableEq, Repr

namespace DataRun

/-- The bytes that were added and not read yet. -/
def stream (r : DataRun) : Block := r.added.drop r.taken.length

/-- A call. -/
def step (r : DataRun) : DataCall → DataRun
  | .addData data => { r with data := r.data.addData data, added := r.added ++ data }
  | .readData size =>
    let (answer, data) := r.data.readData [] size
    { r with data := data, taken := r.taken ++ answer.buf }
  | .peekData size => { r with data := (r.data.peekData size).2 }
  | .clearData => { data := r.data.clearData, added := [], taken := [] }

/-- The queue holds the stream. -/
structure Follows (r : DataRun) : Prop where
  valid : r.data.Valid
  contents : r.data.contents = r.stream
  taken_le : r.taken.length ≤ r.added.length

lemma step_readData_data (r : DataRun) (size : ℕ) :
    (r.step (.readData size)).data = (r.data.readData [] size).2 := rfl

/-- The bytes that a read gives, added to those that were taken before. -/
lemma step_readData_taken {r : DataRun} (hr : r.Follows) (size : ℕ) :
    (r.step (.readData size)).taken = r.taken ++ r.stream.take size := by
  change r.taken ++ (r.data.readData [] size).1.buf = _
  rw [(Data.readData_eq hr.valid [] size).1]
  split
  · rename_i hnil
    have hstream : r.stream = [] := by
      rw [← hr.contents]
      simp [Data.contents, hnil]
    rw [hstream, List.take_nil]
  · rw [hr.contents]

/-- A read removes from the stream the bytes that it gives. -/
lemma stream_readData {r : DataRun} (hr : r.Follows) (size : ℕ) :
    (r.step (.readData size)).stream = r.stream.drop size := by
  change r.added.drop (r.step (.readData size)).taken.length = _
  rw [step_readData_taken hr, List.length_append, List.length_take, ← List.drop_drop]
  change r.stream.drop _ = _
  rcases le_total size r.stream.length with h | h
  · rw [min_eq_left h]
  · rw [min_eq_right h, List.drop_of_length_le h, List.drop_length]

/-- What each call keeps, whatever its arguments are. -/
theorem Follows.step {r : DataRun} (hr : r.Follows) (c : DataCall) : (r.step c).Follows := by
  cases c with
  | addData data =>
    obtain ⟨⟨blocks, position⟩, added, taken⟩ := r
    refine ⟨?_, ?_, ?_⟩
    · rcases hr.valid with h | h
      · exact .inl h
      · right
        cases blocks with
        | nil => exact absurd h (Nat.not_lt_zero _)
        | cons front blocks => exact h
    · have hle : position ≤ blocks.flatten.length := by
        refine (show position ≤ _ from hr.valid.le).trans ?_
        cases blocks <;> simp
      have hcontents : blocks.flatten.drop position = added.drop taken.length := hr.contents
      change (blocks ++ [data]).flatten.drop position = (added ++ data).drop taken.length
      rw [List.flatten_append, List.drop_append_of_le_length hle, hcontents,
        List.drop_append_of_le_length hr.taken_le]
      simp
    · change taken.length ≤ (added ++ data).length
      rw [List.length_append]
      exact hr.taken_le.trans (Nat.le_add_right _ _)
  | readData size =>
    obtain ⟨-, hleft, hvalid⟩ := Data.readData_eq hr.valid [] size
    refine ⟨hvalid, ?_, ?_⟩
    · rw [stream_readData hr, step_readData_data, hleft, hr.contents]
    · have hle := hr.taken_le
      rw [step_readData_taken hr, List.length_append, List.length_take, stream, List.length_drop]
      change _ ≤ r.added.length
      omega
  | peekData size =>
    have hdata : r.step (.peekData size) = r := by
      rw [DataRun.step, Data.peekData_eq hr.valid]
    rw [hdata]
    exact hr
  | clearData => exact ⟨.inl rfl, rfl, le_rfl⟩

/-- The queue is the byte stream of what was added and not read. -/
structure IsByteStream (r : DataRun) : Prop where
  dataSize : (r.data.dataSize : ℤ) = r.stream.length
  peekData : ∀ size, r.data.peekData size
    = (⟨(min size r.stream.length : ℕ), none, r.stream.take size⟩, r.data)
  readData : ∀ buf size, (r.data.readData buf size).1
    = if r.data.connectionData = [] then ⟨-1, some enodata, buf⟩
      else { (r.data.peekData size).1 with errno := some 0 }
  removed : ∀ buf size, (r.data.readData buf size).2.contents = r.stream.drop size

/-- Peeking and reading are right in every state; the size is right at the start of a block. -/
lemma isByteStream_iff {r : DataRun} (hr : r.Follows) :
    r.IsByteStream ↔ r.data.dataPosition = 0 := by
  have hsize := Data.dataSize_eq hr.valid
  rw [hr.contents] at hsize
  have hpeek (size : ℕ) : r.data.peekData size
      = (⟨(min size r.stream.length : ℕ), none, r.stream.take size⟩, r.data) := by
    rw [Data.peekData_eq hr.valid, hr.contents, List.length_take]
  constructor
  · intro h
    have := h.dataSize
    omega
  · intro h
    refine ⟨by omega, hpeek, fun buf size => ?_, fun buf size => ?_⟩
    · rw [(Data.readData_eq hr.valid buf size).1, hpeek, hr.contents, List.length_take]
    · rw [(Data.readData_eq hr.valid buf size).2.1, hr.contents]

/-- The condition on a call: a read ends where a block ends, or takes all that is left. -/
def Whole (r : DataRun) : DataCall → Prop
  | .readData size => r.data.EndsBlock size
  | _ => True

/-- A call leaves the position at the start of a block exactly when it is whole. -/
lemma position_step {r : DataRun} (hr : r.Follows) (hpos : r.data.dataPosition = 0)
    (c : DataCall) : (r.step c).data.dataPosition = 0 ↔ r.Whole c := by
  cases c with
  | readData size => exact Data.position_readData hpos [] size
  | peekData size =>
    rw [DataRun.step, Data.peekData_eq hr.valid]
    exact iff_of_true hpos trivial
  | addData data => exact iff_of_true hpos trivial
  | clearData => exact iff_of_true rfl trivial

/-- **The data queue is a byte stream** in every state of a run exactly when each read of the run
ends where a block ends: `data_size()` adds up the blocks and ignores the position. -/
theorem isByteStream_iff_whole (calls : List DataCall) :
    ((∀ p ∈ visited step {} calls, p.1.IsByteStream) ∧ (runFrom step {} calls).IsByteStream) ↔
      ∀ p ∈ visited step {} calls, p.1.Whole p.2 := by
  have hstep : ∀ (r : DataRun) c, (r.Follows ∧ r.data.dataPosition = 0) → r.Whole c →
      ((r.step c).Follows ∧ (r.step c).data.dataPosition = 0) :=
    fun r c hr hc => ⟨hr.1.step c, (position_step hr.1 hr.2 c).mpr hc⟩
  have hneeds : ∀ (r : DataRun) c, (r.Follows ∧ r.data.dataPosition = 0) → (r.step c).IsByteStream →
      r.Whole c := by
    intro r c hr hnext
    exact (position_step hr.1 hr.2 c).mp ((isByteStream_iff (hr.1.step c)).mp hnext)
  have hstart : (({} : DataRun).Follows ∧ ({} : DataRun).data.dataPosition = 0) :=
    ⟨⟨.inl rfl, rfl, le_rfl⟩, rfl⟩
  exact holds_always_iff hstep (fun r hr => (isByteStream_iff hr.1).mpr hr.2) hneeds hstart calls

/-- A block of three bytes of which one is read: `data_size()` is still three. -/
theorem not_isByteStream_part :
    ¬ (runFrom step {} [.addData [1, 2, 3], .readData 1]).IsByteStream := by
  have hrun : runFrom step {} [.addData [1, 2, 3], .readData 1]
      = ⟨⟨[[1, 2, 3]], 1⟩, [1, 2, 3], [1]⟩ := by
    simp [runFrom, step, Data.addData, Data.readData, Data.readLoop]
  intro h
  have hsize := h.dataSize
  rw [hrun] at hsize
  exact absurd hsize (by decide)

end DataRun

end EventDispatcher.Reporter
