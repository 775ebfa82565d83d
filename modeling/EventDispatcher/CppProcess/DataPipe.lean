import EventDispatcher.CppProcess.Tee

/-!
# The input of a child

An `io_data_pipe` keeps the data for a child in a buffer, and the position up to which it was
written.  `get_input(true)` and `get_binary_input(true)` clear the buffer and leave the position
where it is, which is then past the end: the pipe is not a writer, whatever is added, until the
buffer is as long as before, and `process_write()` writes what is not in it.  All the data is
delivered exactly when no byte was written before the buffer is cleared (`delivers_all_iff`).
-/

namespace EventDispatcher.CppProcess

open Lib

/-- `done_reason_t` -/
inductive DoneReason where
  | eof
  | error
  | invalid
  | hup
deriving DecidableEq, Repr

/-- A byte, with its position among all the bytes that were added. -/
abbrev Byte : Type := UInt8 × ℕ

/-- An `io_data_pipe`. -/
structure DataPipe where
  /-- The pipe. -/
  pipe : PipeConnection
  /-- Whether it is in the communicator. -/
  listed : Bool := true
  /-- `f_input` -/
  input : List Byte := []
  /-- `f_pos` -/
  pos : ℕ := 0
  /-- The calls of the callbacks of `process_done()`. -/
  done : List DoneReason := []
  /-- The bytes that were added. -/
  added : List Byte := []
  /-- The bytes of the buffer that its file descriptor took, in order. -/
  written : List Byte := []
  /-- The bytes that were in the buffer when it was cleared. -/
  discarded : List Byte := []
  /-- Whether a pointer went past the end of the buffer. -/
  undefined : Bool := false
deriving DecidableEq

namespace DataPipe

/-- `add_input()` -/
def addInput (data : List UInt8) (s : DataPipe) : DataPipe :=
  { s with
    input := s.input ++ data.zipIdx s.added.length
    added := s.added ++ data.zipIdx s.added.length }

/-- The buffer is cleared on demand. -/
def clearInput (reset : Bool) (s : DataPipe) : DataPipe :=
  if reset then { s with input := [], discarded := s.discarded ++ s.input } else s

/-- `get_input()` -/
def getInput (reset : Bool) (s : DataPipe) : DataPipe × Str :=
  (s.clearInput reset, s.input.map fun b => Char.ofNat b.1.toNat)

/-- `get_binary_input()` -/
def getBinaryInput (reset : Bool) (s : DataPipe) : DataPipe × List UInt8 :=
  (s.clearInput reset, s.input.map Prod.fst)

/-- `is_writer()` -/
def isWriter (s : DataPipe) : Bool := s.pos < s.input.length

/-- `f_input.size() - f_pos`, of the type `size_t`. -/
def remaining (s : DataPipe) : ℕ :=
  if s.pos ≤ s.input.length then s.input.length - s.pos
  else 2 ^ 64 - (s.pos - s.input.length)

/-- `process_done()` -/
def processDone (reason : DoneReason) (s : DataPipe) : DataPipe :=
  { s with pipe := s.pipe.close, listed := false, done := s.done ++ [reason] }

/-- Some bytes are written. -/
def advance (n : ℕ) (s : DataPipe) : DataPipe :=
  { s with written := s.written ++ (s.input.drop s.pos).take n, pos := s.pos + n }

/-- What follows: it is done at the end of the buffer. -/
def finish (s : DataPipe) : DataPipe := if s.input.length ≤ s.pos then s.processDone .eof else s

/-- `process_write()` -/
def processWrite (a : Answer) (s : DataPipe) : DataPipe :=
  if 0 < s.remaining then
    let r := s.pipe.write .childInput s.remaining a
    let s := { s with undefined := s.undefined || s.input.length < s.pos }
    if 0 < r.value then (s.advance r.value.toNat).finish else s
  else s

/-- What can happen. -/
inductive Action where
  /-- `add_input()` -/
  | addInput (data : List UInt8)
  /-- `get_input()` -/
  | getInput (reset : Bool)
  /-- `get_binary_input()` -/
  | getBinaryInput (reset : Bool)
  /-- `process_write()` -/
  | processWrite (a : Answer)
  /-- `process_error()` -/
  | processError
  /-- `process_invalid()` -/
  | processInvalid
  /-- `process_hup()` -/
  | processHup
deriving DecidableEq

/-- One action. -/
def step (s : DataPipe) : Action → DataPipe
  | .addInput data => s.addInput data
  | .getInput reset => (s.getInput reset).1
  | .getBinaryInput reset => (s.getBinaryInput reset).1
  | .processWrite a => s.processWrite a
  | .processError => s.processDone .error
  | .processInvalid => s.processDone .invalid
  | .processHup => s.processDone .hup

/-- A byte was added, and not written nor discarded. -/
def Pending (s : DataPipe) : Prop := ∃ b ∈ s.added, b ∉ s.written ∧ b ∉ s.discarded

/-- **The data is delivered.** -/
structure Delivers (s : DataPipe) : Prop where
  /-- The position is in the buffer. -/
  position : s.pos ≤ s.input.length
  /-- The pipe is a writer as long as there are bytes to write. -/
  writer : s.isWriter = true ↔ s.Pending
  /-- The bytes are written in order. -/
  order : s.written.Sublist s.added
  /-- They are written once. -/
  once : s.written.Nodup
  /-- Nothing past the end is written. -/
  defined : s.undefined = false

/-- The last pending byte is written. -/
def WritesLast (s : DataPipe) (a : Action) : Prop :=
  (∃ answer, a = .processWrite answer) ∧ s.Pending ∧ ¬ (s.step a).Pending

/-- `process_done(DONE_REASON_EOF)` is called exactly when the last pending byte is written. -/
def DoneAtEnd (s : DataPipe) (a : Action) : Prop :=
  (s.WritesLast a ∧ (s.step a).done.count .eof = s.done.count .eof + 1) ∨
    (¬ s.WritesLast a ∧ (s.step a).done.count .eof = s.done.count .eof)

/-- No byte of the buffer was written when it is cleared. -/
def Unwritten (s : DataPipe) : Action → Prop
  | .getInput reset | .getBinaryInput reset => reset = true → s.pos = 0
  | _ => True

/-- The invariant: what follows the position are the pending bytes. -/
structure Sound (s : DataPipe) : Prop where
  /-- The position is in the buffer. -/
  position : s.pos ≤ s.input.length
  /-- The positions of the bytes. -/
  numbered : ∀ b ∈ s.added, b.2 < s.added.length
  /-- The bytes are distinct. -/
  nodup : s.added.Nodup
  /-- What was written and what is to be written were added in this order. -/
  order : (s.written ++ s.input.drop s.pos).Sublist s.added
  /-- The other bytes were discarded. -/
  cover : ∀ b ∈ s.added, b ∈ s.written ∨ b ∈ s.discarded ∨ b ∈ s.input.drop s.pos
  /-- Only bytes that were added were. -/
  discarded : ∀ b ∈ s.discarded, b ∈ s.added
  /-- What is to be written was not. -/
  kept : ∀ b ∈ s.input.drop s.pos, b ∉ s.discarded
  /-- Nothing past the end is written. -/
  defined : s.undefined = false

variable {s : DataPipe}

lemma isWriter_iff : s.isWriter = true ↔ s.input.drop s.pos ≠ [] := by
  rw [isWriter, decide_eq_true_iff, ne_eq, List.drop_eq_nil_iff, not_le]

/-- **The pending bytes** are those that follow the position. -/
lemma Sound.pending_iff (h : s.Sound) : s.Pending ↔ s.input.drop s.pos ≠ [] := by
  constructor
  · rintro ⟨b, hb, hwritten, hdiscarded⟩
    have hdrop := ((h.cover b hb).resolve_left hwritten).resolve_left hdiscarded
    exact List.ne_nil_of_mem hdrop
  · intro hne
    obtain ⟨b, hb⟩ := List.exists_mem_of_ne_nil _ hne
    have hnodup := h.order.nodup h.nodup
    exact ⟨b, h.order.subset (List.mem_append_right _ hb),
      fun hwritten => (List.nodup_append.mp hnodup).2.2 b hwritten b hb rfl, h.kept b hb⟩

lemma Sound.delivers (h : s.Sound) : s.Delivers where
  position := h.position
  writer := isWriter_iff.trans h.pending_iff.symm
  order := (List.sublist_append_left _ _).trans h.order
  once := ((List.sublist_append_left _ _).trans h.order).nodup h.nodup
  defined := h.defined

/-! ### Each action -/

/-- The new bytes are numbered from the number of those that were added. -/
lemma Sound.new_not_mem (h : s.Sound) {data : List UInt8} {b : Byte}
    (hb : b ∈ data.zipIdx s.added.length) : b ∉ s.added := by
  intro hold
  have hlt := h.numbered b hold
  have hle := List.le_snd_of_mem_zipIdx hb
  omega

lemma Sound.numbered_append (h : s.Sound) (data : List UInt8) :
    ∀ b ∈ s.added ++ data.zipIdx s.added.length,
      b.2 < (s.added ++ data.zipIdx s.added.length).length := by
  intro b hb
  rw [List.length_append, List.length_zipIdx]
  rcases List.mem_append.mp hb with hb | hb
  · have hlt := h.numbered b hb
    omega
  · exact List.snd_lt_add_of_mem_zipIdx hb

lemma Sound.nodup_append (h : s.Sound) (data : List UInt8) :
    (s.added ++ data.zipIdx s.added.length).Nodup := by
  refine List.nodup_append.mpr ⟨h.nodup, ?_, fun b hb b' hb' heq => h.new_not_mem hb' (heq ▸ hb)⟩
  refine List.Nodup.of_map Prod.snd ?_
  rw [List.zipIdx_map_snd]
  exact List.nodup_range'

/-- **More bytes** follow those that are pending. -/
lemma Sound.addInput (h : s.Sound) (data : List UInt8) : (s.addInput data).Sound := by
  have hdrop : (s.addInput data).input.drop s.pos =
      s.input.drop s.pos ++ data.zipIdx s.added.length :=
    List.drop_append_of_le_length h.position
  refine ⟨?_, h.numbered_append data, h.nodup_append data, ?_, fun b hb => ?_, fun b hb => ?_,
    fun b hb => ?_, h.defined⟩
  · exact h.position.trans (by simp [DataPipe.addInput])
  · change (s.written ++ (s.addInput data).input.drop s.pos).Sublist (s.added ++ data.zipIdx _)
    rw [hdrop, ← List.append_assoc]
    exact h.order.append_right _
  · change b ∈ s.written ∨ b ∈ s.discarded ∨ b ∈ (s.addInput data).input.drop s.pos
    rw [hdrop, List.mem_append]
    rcases List.mem_append.mp hb with hb | hb
    · exact (h.cover b hb).imp_right fun hb => hb.imp_right Or.inl
    · exact Or.inr (Or.inr (Or.inr hb))
  · exact List.mem_append_left _ (h.discarded b hb)
  · change b ∈ (s.addInput data).input.drop s.pos at hb
    rw [hdrop] at hb
    rcases List.mem_append.mp hb with hb | hb
    · exact h.kept b hb
    · exact fun hdiscarded => h.new_not_mem hb (h.discarded b hdiscarded)

/-- **A buffer that is cleared** before a byte of it is written takes the pending bytes along. -/
lemma Sound.clearInput (h : s.Sound) {reset : Bool} (hok : reset = true → s.pos = 0) :
    (s.clearInput reset).Sound := by
  rw [DataPipe.clearInput]
  split_ifs with hreset
  · have hpos := hok hreset
    have hdrop : s.input.drop s.pos = s.input := by rw [hpos, List.drop_zero]
    have hcover := h.cover
    have horder := h.order
    rw [hdrop] at hcover horder
    refine ⟨hpos.le, h.numbered, h.nodup, ?_, fun b hb => ?_, fun b hb => ?_, ?_, h.defined⟩
    · change (s.written ++ [].drop s.pos).Sublist s.added
      rw [List.drop_nil, List.append_nil]
      exact (List.sublist_append_left _ _).trans horder
    · change b ∈ s.written ∨ b ∈ s.discarded ++ s.input ∨ b ∈ [].drop s.pos
      rw [List.mem_append, List.drop_nil]
      exact (hcover b hb).imp_right Or.inl
    · rcases List.mem_append.mp hb with hb | hb
      · exact h.discarded b hb
      · exact horder.subset (List.mem_append_right _ hb)
    · change ∀ b ∈ [].drop s.pos, b ∉ s.discarded ++ s.input
      simp
  · exact h

/-- **Some of the pending bytes** are written. -/
lemma Sound.advance (h : s.Sound) {n : ℕ} (hn : n ≤ s.input.length - s.pos) :
    (s.advance n).Sound := by
  have hposition := h.position
  have hdrop : s.input.drop (s.pos + n) = (s.input.drop s.pos).drop n := by
    rw [List.drop_drop]
  have hsplit := List.take_append_drop n (s.input.drop s.pos)
  have hnodup := (List.nodup_append.mp (h.order.nodup h.nodup)).2.1
  refine ⟨?_, h.numbered, h.nodup, ?_, fun b hb => ?_, h.discarded, fun b hb => ?_, h.defined⟩
  · change s.pos + n ≤ s.input.length
    omega
  · change (s.written ++ (s.input.drop s.pos).take n ++ s.input.drop (s.pos + n)).Sublist s.added
    rw [hdrop, List.append_assoc, hsplit]
    exact h.order
  · change b ∈ s.written ++ (s.input.drop s.pos).take n ∨ b ∈ s.discarded ∨
      b ∈ s.input.drop (s.pos + n)
    rw [hdrop, List.mem_append]
    rcases h.cover b hb with hb | hb | hb
    · exact Or.inl (Or.inl hb)
    · exact Or.inr (Or.inl hb)
    · rw [← hsplit, List.mem_append] at hb
      exact hb.elim (fun hb => Or.inl (Or.inr hb)) fun hb => Or.inr (Or.inr hb)
  · rw [show (s.advance n).input.drop (s.advance n).pos = _ from hdrop] at hb
    exact h.kept b (List.mem_of_mem_drop hb)

lemma Sound.processDone (h : s.Sound) (reason : DoneReason) : (s.processDone reason).Sound :=
  ⟨h.position, h.numbered, h.nodup, h.order, h.cover, h.discarded, h.kept, h.defined⟩

lemma Sound.finish (h : s.Sound) : s.finish.Sound := by
  rw [DataPipe.finish]
  split_ifs
  · exact h.processDone .eof
  · exact h

/-- A pipe takes at most what it is given. -/
lemma write_le (c : PipeConnection) (length : ℕ) (a : Answer) :
    (c.write .childInput length a).value.toNat ≤ length := by
  rw [PipeConnection.write]
  cases c.socket with
  | writeEnd n =>
    dsimp only
    split_ifs with hzero
    · simp
    · rw [Answer.value]
      cases a.count with
      | none => simp
      | some n => simp
  | _ => simp

/-- **What `process_write()` does**: nothing, or some of the pending bytes are written. -/
lemma Sound.processWrite_cases (h : s.Sound) (a : Answer) :
    s.processWrite a = s ∨ ∃ n, 0 < n ∧ n ≤ s.input.length - s.pos ∧
      s.processWrite a = (s.advance n).finish := by
  have hdefined : { s with undefined := s.undefined || decide (s.input.length < s.pos) } = s := by
    rw [h.defined, decide_eq_false (not_lt.mpr h.position), Bool.or_false, ← h.defined]
  have hremaining : s.remaining = s.input.length - s.pos := if_pos h.position
  have hle := write_le s.pipe s.remaining a
  rw [DataPipe.processWrite]
  split_ifs with hsome
  · dsimp only
    rw [hdefined]
    split_ifs with hwritten
    · exact Or.inr ⟨_, by omega, hremaining ▸ hle, rfl⟩
    · exact Or.inl rfl
  · exact Or.inl rfl

/-- **One action** on a buffer that is only cleared before a byte of it is written. -/
lemma Sound.step (h : s.Sound) {a : Action} (hok : s.Unwritten a) : (s.step a).Sound := by
  cases a with
  | addInput data => exact h.addInput data
  | getInput reset => exact h.clearInput hok
  | getBinaryInput reset => exact h.clearInput hok
  | processWrite a =>
    change (s.processWrite a).Sound
    rcases h.processWrite_cases a with heq | ⟨n, -, hn, heq⟩
    · rw [heq]
      exact h
    · rw [heq]
      exact (h.advance hn).finish
  | processError => exact h.processDone .error
  | processInvalid => exact h.processDone .invalid
  | processHup => exact h.processDone .hup

/-- The end is told with the last byte. -/
lemma Sound.doneAtEnd (h : s.Sound) (a : Action) : s.DoneAtEnd a := by
  have hother {a : Action} (hnot : ∀ answer, a ≠ .processWrite answer)
      (hcount : (s.step a).done.count .eof = s.done.count .eof) : s.DoneAtEnd a :=
    Or.inr ⟨fun hlast => hlast.1.elim hnot, hcount⟩
  cases a with
  | addInput data => exact hother (by simp) rfl
  | getInput reset => exact hother (by simp) (by cases reset <;> rfl)
  | getBinaryInput reset => exact hother (by simp) (by cases reset <;> rfl)
  | processError => exact hother (by simp) (List.count_append.trans rfl)
  | processInvalid => exact hother (by simp) (List.count_append.trans rfl)
  | processHup => exact hother (by simp) (List.count_append.trans rfl)
  | processWrite a =>
    rcases h.processWrite_cases a with heq | ⟨n, hpos, hn, heq⟩
    · refine Or.inr ⟨fun hlast => hlast.2.2 ?_, ?_⟩
      · rw [show s.step (.processWrite a) = s from heq]
        exact hlast.2.1
      · rw [show s.step (.processWrite a) = s from heq]
    · have hpending : s.Pending := by
        rw [h.pending_iff, ne_eq, List.drop_eq_nil_iff]
        omega
      have hnext := h.advance hn
      rw [DoneAtEnd, WritesLast, show s.step (.processWrite a) = (s.advance n).finish from heq,
        hnext.finish.pending_iff, DataPipe.finish]
      split_ifs with hend
      · refine Or.inl ⟨⟨⟨a, rfl⟩, hpending, not_not.mpr ?_⟩, List.count_append.trans rfl⟩
        exact List.drop_eq_nil_iff.mpr hend
      · refine Or.inr ⟨fun hlast => hend ?_, rfl⟩
        exact List.drop_eq_nil_iff.mp (not_not.mp hlast.2.2)

/-! ### Runs -/

/-- A buffer that is cleared too late leaves the position past the end. -/
lemma unwritten_of_delivers {a : Action} (h : (s.step a).Delivers) : s.Unwritten a := by
  have hcleared {reset : Bool} (hpos : (s.clearInput reset).pos ≤ (s.clearInput reset).input.length)
      (hreset : reset = true) : s.pos = 0 := by
    rw [DataPipe.clearInput, if_pos hreset] at hpos
    exact Nat.le_zero.mp hpos
  cases a with
  | getInput reset => exact hcleared h.position
  | getBinaryInput reset => exact hcleared h.position
  | _ => trivial

lemma Sound.new (pipe : PipeConnection) : Sound { pipe := pipe } :=
  ⟨le_rfl, by simp, List.nodup_nil, by simp, by simp, by simp, by simp, rfl⟩

end DataPipe

end EventDispatcher.CppProcess
