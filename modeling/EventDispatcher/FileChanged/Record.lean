import Mathlib.Data.Nat.Digits.Lemmas
import EventDispatcher.Base

/-!
# The records of an inotify descriptor

`read()` fills a buffer with records of various lengths: a header of four 32 bit numbers, the last
one being the length of the name that follows, with the NUL characters at its end.  The numbers
are stored with their least significant byte first.
-/

namespace EventDispatcher.FileChanged

/-- The bytes of a 32 bit number. -/
def bytes32 (n : ℕ) : Str := (Nat.digitsAppend 256 4 n).map Char.ofNat

/-- The number that some bytes stand for. -/
def number (s : Str) : ℕ := Nat.ofDigits 256 (s.map Char.toNat)

lemma length_bytes32 {n : ℕ} (h : n < 2 ^ 32) : (bytes32 n).length = 4 := by
  rw [bytes32, List.length_map, Nat.length_digitsAppend (by norm_num) 4 (by norm_num; omega)]

lemma number_bytes32 {n : ℕ} (h : n < 2 ^ 32) : number (bytes32 n) = n := by
  have hbytes : (bytes32 n).map Char.toNat = Nat.digitsAppend 256 4 n := by
    rw [bytes32, List.map_map]
    refine (List.map_congr_left fun d hd => ?_).trans (List.map_id _)
    have hlt : d < 256 := Nat.lt_of_mem_digitsAppend (by norm_num) 4 d hd
    rw [Function.comp_apply, Char.ofNat, dif_pos (.inl (by omega))]
    rfl
  rw [number, hbytes]
  exact (Nat.setInvOn_digitsAppend_ofDigits (by norm_num) 4).2 (show n < 256 ^ 4 by omega)

/-- The number with a sign that a 32 bit number stands for. -/
def signed (n : ℕ) : ℤ := if n < 2 ^ 31 then n else n - 2 ^ 32

/-- The 32 bit number of a number with a sign. -/
def unsigned (z : ℤ) : ℕ := (z % 2 ^ 32).toNat

lemma unsigned_lt (z : ℤ) : unsigned z < 2 ^ 32 := by
  rw [unsigned]
  omega

lemma signed_unsigned {z : ℤ} (h : -2 ^ 31 ≤ z ∧ z < 2 ^ 31) : signed (unsigned z) = z := by
  rw [signed, unsigned]
  split_ifs <;> omega

/-- `struct inotify_event`, with its name. -/
structure InotifyEvent where
  /-- `wd` -/
  wd : ℤ
  /-- `mask` -/
  mask : UInt32
  /-- `cookie` -/
  cookie : UInt32
  /-- The characters of the name. -/
  name : Str
  /-- How many NUL characters follow them. -/
  padding : ℕ
  /-- The descriptor is an `int`. -/
  wd_range : -2 ^ 31 ≤ wd ∧ wd < 2 ^ 31
  /-- The NUL characters are at the end. -/
  nul_notMem : nul ∉ name
  /-- A name ends with one. -/
  padding_pos : name ≠ [] → 0 < padding
  /-- The length is a 32 bit number. -/
  len_lt : name.length + padding < 2 ^ 32

namespace InotifyEvent

/-- `len` -/
def len (e : InotifyEvent) : ℕ := e.name.length + e.padding

/-- The record in the buffer. -/
def bytes (e : InotifyEvent) : Str :=
  bytes32 (unsigned e.wd) ++ bytes32 e.mask.toNat ++ bytes32 e.cookie.toNat ++ bytes32 e.len ++
    e.name ++ List.replicate e.padding nul

end InotifyEvent

/-- The header that a buffer begins with, and the bytes after it. -/
structure Header where
  /-- `wd` -/
  wd : ℤ
  /-- `mask` -/
  mask : UInt32
  /-- `cookie` -/
  cookie : UInt32
  /-- `len` -/
  len : ℕ
  /-- `name` -/
  rest : Str

/-- `sizeof(struct inotify_event)` -/
def headerSize : ℕ := 16

/-- The header at the beginning of a buffer. -/
def readHeader (buffer : Str) : Header where
  wd := signed (number (buffer.take 4))
  mask := .ofNat (number ((buffer.drop 4).take 4))
  cookie := .ofNat (number ((buffer.drop 8).take 4))
  len := number ((buffer.drop 12).take 4)
  rest := buffer.drop headerSize

/-- The `std::string` that is made of the name. -/
def Header.filename (h : Header) : Str := if 0 < h.len then cStr h.rest else []

namespace InotifyEvent

lemma length_bytes (e : InotifyEvent) : e.bytes.length = headerSize + e.len := by
  have hlen := length_bytes32 (show e.len < 2 ^ 32 from e.len_lt)
  simp only [bytes, List.length_append, List.length_replicate, length_bytes32 (unsigned_lt _),
    length_bytes32 e.mask.toNat_lt, length_bytes32 e.cookie.toNat_lt, hlen]
  rw [headerSize, len]
  omega

/-- **A record is read back**, whatever follows it. -/
lemma readHeader_bytes (e : InotifyEvent) (rest : Str) :
    readHeader (e.bytes ++ rest) =
      ⟨e.wd, e.mask, e.cookie, e.len, e.name ++ List.replicate e.padding nul ++ rest⟩ := by
  have hwd := length_bytes32 (unsigned_lt e.wd)
  have hmask := length_bytes32 e.mask.toNat_lt
  have hcookie := length_bytes32 e.cookie.toNat_lt
  have hlen := length_bytes32 (show e.len < 2 ^ 32 from e.len_lt)
  simp only [bytes, List.append_assoc, readHeader, Header.mk.injEq]
  generalize e.name ++ (List.replicate e.padding nul ++ rest) = tail
  have h₁ : ∀ a l : Str, a.length = 4 → (a ++ l).take 4 = a :=
    fun a l h => h ▸ List.take_left
  have h₂ : ∀ (a l : Str) (n : ℕ), a.length = 4 → (a ++ l).drop (4 + n) = l.drop n := by
    intro a l n h
    rw [← List.drop_drop, ← h, List.drop_left]
  refine ⟨?_, ?_, ?_, ?_, ?_⟩
  · rw [h₁ _ _ hwd, number_bytes32 (unsigned_lt _), signed_unsigned e.wd_range]
  · rw [h₂ _ _ 0 hwd, List.drop_zero, h₁ _ _ hmask, number_bytes32 e.mask.toNat_lt,
      UInt32.ofNat_toNat]
  · rw [h₂ _ _ 4 hwd, h₂ _ _ 0 hmask, List.drop_zero, h₁ _ _ hcookie,
      number_bytes32 e.cookie.toNat_lt, UInt32.ofNat_toNat]
  · rw [h₂ _ _ 8 hwd, h₂ _ _ 4 hmask, h₂ _ _ 0 hcookie, List.drop_zero, h₁ _ _ hlen,
      number_bytes32 (show e.len < 2 ^ 32 from e.len_lt)]
  · rw [headerSize, h₂ _ _ 12 hwd, h₂ _ _ 8 hmask, h₂ _ _ 4 hcookie, h₂ _ _ 0 hlen,
      List.drop_zero]

/-- The name is what stands before the first NUL. -/
lemma filename_bytes (e : InotifyEvent) (rest : Str) :
    (readHeader (e.bytes ++ rest)).filename = e.name := by
  rw [readHeader_bytes, Header.filename]
  by_cases hname : e.name = []
  · rw [hname, List.nil_append]
    cases hpadding : e.padding with
    | zero => rw [if_neg (by simp [len, hname, hpadding])]
    | succ n =>
      split_ifs
      · rw [List.replicate_succ, List.cons_append, cStr, List.takeWhile_cons_of_neg (by simp)]
      · rfl
  · have hpos := e.padding_pos hname
    rw [if_pos (show 0 < e.len by rw [len]; omega)]
    obtain ⟨n, hn⟩ := Nat.exists_eq_succ_of_ne_zero hpos.ne'
    rw [hn, List.replicate_succ, List.append_assoc, List.cons_append, cStr,
      List.takeWhile_append_of_pos, List.takeWhile_cons_of_neg (by simp), List.append_nil]
    intro c hc
    have : c ≠ nul := fun heq => e.nul_notMem (heq ▸ hc)
    simpa using this

end InotifyEvent

end EventDispatcher.FileChanged
