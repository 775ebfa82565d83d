import EventDispatcher.Reporter.Data
import EventDispatcher.Reporter.Lexer

/-!
# Sending and verifying data

`send_data()` writes the items of an array as bytes, `verify_data()` reads as many bytes of the
queue as the array has items and compares each of them with its item.  The writer takes the items
from -128 to 255 modulo 256; the checker compares an unsigned byte with the item itself, so that
it recognizes the bytes exactly when no item is negative (`recognizes_iff`).
-/

namespace EventDispatcher.Reporter

open Lib

/-- The class of a connection of the state. -/
inductive ConnectionClass where
  | tcpServerClient
  | other
deriving DecidableEq, Repr

/-- `std::to_string()` -/
def toText (n : ℤ) : Str := (toString n).toList

/-! ## The instructions -/

namespace InstSendData

/-- `static_cast<char>(byte)`, in a vector of unsigned bytes -/
def charOf (byte : Int64) : UInt8 := byte.toInt8.toUInt8

/-- The loop over the items: `i` of them are in the buffer. -/
def sendLoop (location : Str) : List Int64 → ℕ → Block → Except Thrown Block
  | [], _, buf => .ok buf
  | byte :: items, i, buf =>
    if byte < -128 ∨ 255 < byte then
      .error (.runtimeError (location
        ++ "byte values must be between -128 and +255 (position ".toList ++ toText i
        ++ " has out of range value ".toList ++ toText byte.toInt ++ ").".toList))
    else sendLoop location items (i + 1) (buf ++ [charOf byte])

/-- `inst_send_data::func()`: the buffer that is given to the connection. -/
def func (location : Str) (connections : List ConnectionClass) (values : List Int64) :
    Except Thrown Block :=
  match connections with
  | [] => .error (.runtimeError "send_data() has no connection to send data.".toList)
  | .other :: _ =>
    .error (.runtimeError "send_data() called without a valid listener connection.".toList)
  | .tcpServerClient :: _ =>
    if values.length = 0 then
      .error (.runtimeError (location ++ "array cannot be empty.".toList))
    else sendLoop location values 0 []

end InstSendData

namespace InstVerifyData

/-- The loop over the items, `i` of them being behind.  The buffer has as many bytes. -/
def verifyLoop (location : Str) : List Int64 → Block → ℕ → Except Thrown Unit
  | value :: items, byte :: buf, i =>
    -- the unsigned byte is promoted to 64 bits
    if Int64.ofNat byte.toNat ≠ value then
      .error (.runtimeError (location ++ "values at offset ".toList ++ toText i
        ++ " do not match (".toList ++ toText byte.toNat ++ " != ".toList ++ toText value.toInt
        ++ ").".toList))
    else verifyLoop location items buf (i + 1)
  | _, _, _ => .ok ()

/-- `inst_verify_data::func()`, with the queue after it. -/
def func (location : Str) (values : List Int64) (s : Data) : Except Thrown Unit × Data :=
  if values.length = 0 then
    (.error (.runtimeError (location ++ "array cannot be empty.".toList)), s)
  else
    let (r, s) := s.readData [] values.length
    if r.result ≠ values.length then
      (.error (.runtimeError (location ++ "could not read ".toList ++ toText values.length
        ++ " bytes from the data buffer, got ".toList ++ toText r.result
        ++ " instead.".toList)), s)
    else (verifyLoop location values r.buf 0, s)

end InstVerifyData

/-! ## What the instructions do -/

namespace InstSendData

/-- The items that `send_data()` accepts. -/
def Accepts (byte : Int64) : Prop := -128 ≤ byte.toInt ∧ byte.toInt ≤ 255

lemma accepts_iff {byte : Int64} : ¬ (byte < -128 ∨ 255 < byte) ↔ Accepts byte := by
  rw [Int64.lt_iff_toInt_lt, Int64.lt_iff_toInt_lt, Accepts]
  change ¬ (byte.toInt < -128 ∨ 255 < byte.toInt) ↔ _
  omega

/-- The loop of `send_data()` writes all the items, when they are all accepted. -/
lemma sendLoop_eq_ok {location : Str} {items : List Int64} {i : ℕ} {buf bytes : Block} :
    sendLoop location items i buf = .ok bytes ↔
      (∀ byte ∈ items, Accepts byte) ∧ buf ++ items.map charOf = bytes := by
  induction items generalizing i buf with
  | nil => simp [sendLoop]
  | cons byte items ih =>
    rw [sendLoop, List.forall_mem_cons, ← accepts_iff]
    split
    · rename_i hout
      exact iff_of_false nofun fun h => h.1.1 hout
    · rename_i hin
      rw [ih, and_iff_right hin, List.append_assoc]
      rfl

/-- What `send_data()` accepts and sends. -/
lemma func_eq_ok {location : Str} {connections : List ConnectionClass} {values : List Int64}
    {bytes : Block} (h : func location connections values = .ok bytes) :
    values ≠ [] ∧ (∀ byte ∈ values, Accepts byte) ∧ bytes = values.map charOf := by
  rcases connections with _ | ⟨_ | _, connections⟩
  · cases h
  · rw [func] at h
    split at h
    · cases h
    · rename_i hlen
      obtain ⟨hall, hbytes⟩ := sendLoop_eq_ok.mp h
      exact ⟨fun hnil => hlen (by rw [hnil]; rfl), hall, hbytes.symm⟩
  · cases h

/-- The byte of an item. -/
lemma toNat_charOf {byte : Int64} (h : Accepts byte) :
    ((charOf byte).toNat : ℤ) = if byte.toInt < 0 then byte.toInt + 256 else byte.toInt := by
  have hlt : (charOf byte).toNat < 256 := UInt8.toNat_lt _
  have hmod : Int.bmod (charOf byte).toNat 256 = byte.toInt.bmod 256 :=
    calc Int.bmod (charOf byte).toNat 256
        = byte.toInt8.toInt := (BitVec.toInt_eq_toNat_bmod _).symm
      _ = byte.toInt.bmod 256 := Int64.toInt_toInt8 byte
  obtain ⟨hmin, hmax⟩ := h
  rw [Int.bmod_def, Int.bmod_def] at hmod
  split_ifs <;> omega

end InstSendData

namespace InstVerifyData

/-- The number that a byte is compared as. -/
lemma toInt_promoted (byte : UInt8) : (Int64.ofNat byte.toNat).toInt = byte.toNat :=
  Int64.toInt_ofNat_of_lt (byte.toNat_lt.trans (by decide))

/-- The loop of `verify_data()` accepts the bytes that are the items as numbers. -/
lemma verifyLoop_eq_ok {location : Str} {items : List Int64} {buf : Block} {i : ℕ}
    (hlen : items.length = buf.length) :
    verifyLoop location items buf i = .ok () ↔
      buf.map (fun byte => Int64.ofNat byte.toNat) = items := by
  induction items generalizing buf i with
  | nil =>
    cases buf with
    | nil => simp [verifyLoop]
    | cons byte buf => cases hlen
  | cons value items ih =>
    cases buf with
    | nil => cases hlen
    | cons byte buf =>
      rw [verifyLoop, List.map_cons, List.cons.injEq]
      split
      · rename_i hne
        exact iff_of_false nofun fun h => hne h.1
      · rename_i heq
        rw [ih (Nat.succ.inj hlen)]
        exact (and_iff_right (not_not.mp heq)).symm

/-- **What `verify_data()` does**: it takes as many bytes as there are items, and succeeds when
they are the items as numbers. -/
lemma func_spec (location : Str) {values : List Int64} {s : Data} (hs : s.Valid)
    (hvalues : values ≠ []) :
    ((func location values s).1 = .ok () ↔
        (s.contents.take values.length).map (fun byte => Int64.ofNat byte.toNat) = values) ∧
      (func location values s).2.contents = s.contents.drop values.length := by
  obtain ⟨hanswer, hleft, -⟩ := Data.readData_eq hs [] values.length
  rw [func, if_neg (by simpa using hvalues)]
  simp only
  rw [hanswer]
  by_cases hnil : s.connectionData = []
  · have hcontents : s.contents = [] := by simp [Data.contents, hnil]
    have hresult : (-1 : ℤ) ≠ values.length := by omega
    rw [if_pos hnil, if_pos hresult]
    refine ⟨iff_of_false (by simp) fun h => hvalues ?_, hleft⟩
    rwa [hcontents, List.take_nil, List.map_nil, eq_comm] at h
  · rw [if_neg hnil]
    by_cases hlen : (s.contents.take values.length).length = values.length
    · rw [if_neg (by simpa using hlen)]
      exact ⟨verifyLoop_eq_ok hlen.symm, hleft⟩
    · rw [if_pos (by simpa using hlen)]
      refine ⟨iff_of_false (by simp) fun h => hlen ?_, hleft⟩
      rw [← List.length_map, h]

end InstVerifyData

/-! ## The bytes that are recognized -/

/-- `verify_data()` recognizes the bytes at the front of the queue, after any calls on it. -/
structure Recognizes (location : Str) (values : List Int64) (bytes : Block) : Prop where
  accepts : ∀ calls rest, (runFrom DataRun.step {} calls).stream = bytes ++ rest →
    (InstVerifyData.func location values (runFrom DataRun.step {} calls).data).1 = .ok () ∧
      (InstVerifyData.func location values (runFrom DataRun.step {} calls).data).2.contents = rest
  rejects : ∀ calls, ¬ bytes <+: (runFrom DataRun.step {} calls).stream →
    ∃ t, (InstVerifyData.func location values (runFrom DataRun.step {} calls).data).1 = .error t

lemma follows_run (calls : List DataCall) : (runFrom DataRun.step {} calls).Follows := by
  have hstart : ({} : DataRun).Follows := ⟨.inl rfl, rfl, le_rfl⟩
  have hstep : ∀ r c, DataRun.Follows r → (DataRun.step r c).Follows := fun _ c hr => hr.step c
  exact invariant_of_runFrom hstep hstart calls

/-- The byte that is sent for a byte is this byte. -/
lemma charOf_promoted (byte : UInt8) :
    InstSendData.charOf (Int64.ofNat byte.toNat) = byte := by
  have hint := InstVerifyData.toInt_promoted byte
  have hlt := byte.toNat_lt
  have haccepts : InstSendData.Accepts (Int64.ofNat byte.toNat) := ⟨by omega, by omega⟩
  have hchar := InstSendData.toNat_charOf haccepts
  rw [hint, if_neg (by omega)] at hchar
  exact UInt8.toNat_inj.mp (by exact_mod_cast hchar)

/-- An item that is accepted is compared as itself exactly when it is not negative. -/
lemma promoted_charOf {byte : Int64} (h : InstSendData.Accepts byte) :
    Int64.ofNat (InstSendData.charOf byte).toNat = byte ↔ 0 ≤ byte.toInt := by
  rw [← Int64.toInt_inj, InstVerifyData.toInt_promoted, InstSendData.toNat_charOf h]
  split_ifs <;> omega

/-- Other bytes are not recognized, whatever the items are. -/
lemma rejects_of_not_prefix {location : Str} {values : List Int64} {calls : List DataCall}
    (hvalues : values ≠ [])
    (hstart : ¬ values.map InstSendData.charOf <+: (runFrom DataRun.step {} calls).stream) :
    ∃ t, (InstVerifyData.func location values (runFrom DataRun.step {} calls).data).1
      = .error t := by
  have hok := (InstVerifyData.func_spec location (follows_run calls).valid hvalues).1
  rw [(follows_run calls).contents] at hok
  cases hfunc : (InstVerifyData.func location values (runFrom DataRun.step {} calls).data).1 with
  | error t => exact ⟨t, rfl⟩
  | ok _ =>
    have hid : (InstSendData.charOf ∘ fun byte : UInt8 => Int64.ofNat byte.toNat) = id :=
      funext charOf_promoted
    have hread := congrArg (List.map InstSendData.charOf) (hok.mp hfunc)
    rw [List.map_map, hid, List.map_id] at hread
    rw [← hread] at hstart
    exact absurd (List.take_prefix _ _) hstart

/-- **`verify_data()` recognizes what `send_data()` sends** exactly when no item is negative. -/
theorem recognizes_iff (location : Str) (connections : List ConnectionClass)
    (values : List Int64) (bytes : Block)
    (h : InstSendData.func location connections values = .ok bytes) :
    Recognizes location values bytes ↔ ∀ byte ∈ values, 0 ≤ byte.toInt := by
  obtain ⟨hvalues, haccepts, rfl⟩ := InstSendData.func_eq_ok h
  have hbytes : (values.map InstSendData.charOf).map (fun byte => Int64.ofNat byte.toNat) = values ↔
      ∀ byte ∈ values, 0 ≤ byte.toInt := by
    rw [List.map_map]
    conv_lhs => rhs; rw [← List.map_id values]
    rw [List.map_inj_left]
    exact forall₂_congr fun byte hbyte => promoted_charOf (haccepts byte hbyte)
  have hspec (calls : List DataCall) :=
    InstVerifyData.func_spec location (follows_run calls).valid hvalues
  constructor
  · intro hr
    have hstream : (runFrom DataRun.step {} [.addData (values.map InstSendData.charOf)]).stream
        = values.map InstSendData.charOf ++ [] := (List.append_nil _).symm
    have hok := (hr.accepts _ [] hstream).1
    rw [(hspec _).1, (follows_run _).contents, hstream, List.take_left' (by simp)] at hok
    exact hbytes.mp hok
  · intro hnonneg
    refine ⟨fun calls rest hstream => ?_, fun calls hstart => ?_⟩
    · obtain ⟨hok, hleft⟩ := hspec calls
      rw [(follows_run calls).contents, hstream] at hok hleft
      rw [hok, hleft, List.take_left' (by simp), List.drop_left' (by simp)]
      exact ⟨hbytes.mpr hnonneg, rfl⟩
    · exact rejects_of_not_prefix hvalues hstart

/-- The array `{-1}` is sent as the byte 255, which is not recognized. -/
theorem not_recognizes_negative :
    InstSendData.func [] [.tcpServerClient] [-1] = .ok [255] ∧ ¬ Recognizes [] [-1] [255] := by
  refine ⟨by rfl, fun h => ?_⟩
  have hok := (h.accepts [.addData [255]] [] (by decide)).1
  rw [(InstVerifyData.func_spec _ (follows_run _).valid (by decide)).1,
    (follows_run _).contents] at hok
  exact absurd hok (by decide)

/-- The array `{104, 200}` is recognized. -/
theorem recognizes_nonnegative : Recognizes [] [104, 200] [104, 200] :=
  (recognizes_iff [] [.tcpServerClient] [104, 200] [104, 200] (by rfl)).mpr (by decide)

end EventDispatcher.Reporter
