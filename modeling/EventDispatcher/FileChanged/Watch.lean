import Mathlib.Data.Nat.Bitwise
import Mathlib.Data.UInt
import Mathlib.Data.List.Basic
import EventDispatcher.Base

/-!
# File watches and their masks

A watch has the events that the user asked for and the mask of bits that the kernel is asked for.
`events_to_mask()` translates one way and `mask_to_events()` the other way: all the bits that are
asked for come back as an event, but for `IN_MOVE_SELF` (`maskToEvents_eq_zero_iff`).
-/

namespace EventDispatcher.FileChanged

/-! ### The bits of the kernel -/

/-- `IN_ACCESS` -/
def inAccess : UInt32 := 0x0001

/-- `IN_MODIFY` -/
def inModify : UInt32 := 0x0002

/-- `IN_ATTRIB` -/
def inAttrib : UInt32 := 0x0004

/-- `IN_CLOSE_WRITE` -/
def inCloseWrite : UInt32 := 0x0008

/-- `IN_CLOSE_NOWRITE` -/
def inCloseNoWrite : UInt32 := 0x0010

/-- `IN_OPEN` -/
def inOpen : UInt32 := 0x0020

/-- `IN_MOVED_FROM` -/
def inMovedFrom : UInt32 := 0x0040

/-- `IN_MOVED_TO` -/
def inMovedTo : UInt32 := 0x0080

/-- `IN_CREATE` -/
def inCreate : UInt32 := 0x0100

/-- `IN_DELETE` -/
def inDelete : UInt32 := 0x0200

/-- `IN_DELETE_SELF` -/
def inDeleteSelf : UInt32 := 0x0400

/-- `IN_MOVE_SELF` -/
def inMoveSelf : UInt32 := 0x0800

/-- `IN_UNMOUNT` -/
def inUnmount : UInt32 := 0x2000

/-- `IN_Q_OVERFLOW` -/
def inQOverflow : UInt32 := 0x4000

/-- `IN_IGNORED` -/
def inIgnored : UInt32 := 0x8000

/-- `IN_ONLYDIR` -/
def inOnlyDir : UInt32 := 0x01000000

/-- `IN_DONT_FOLLOW` -/
def inDontFollow : UInt32 := 0x02000000

/-- `IN_EXCL_UNLINK` -/
def inExclUnlink : UInt32 := 0x04000000

/-- `IN_ISDIR` -/
def inIsDir : UInt32 := 0x40000000

/-! ### The events of the library -/

/-- `SNAP_FILE_CHANGED_EVENT_ATTRIBUTES` -/
def eventAttributes : UInt32 := 0x0001

/-- `SNAP_FILE_CHANGED_EVENT_READ` -/
def eventRead : UInt32 := 0x0002

/-- `SNAP_FILE_CHANGED_EVENT_WRITE` -/
def eventWrite : UInt32 := 0x0004

/-- `SNAP_FILE_CHANGED_EVENT_CREATED` -/
def eventCreated : UInt32 := 0x0008

/-- `SNAP_FILE_CHANGED_EVENT_DELETED` -/
def eventDeleted : UInt32 := 0x0010

/-- `SNAP_FILE_CHANGED_EVENT_ACCESS` -/
def eventAccess : UInt32 := 0x0020

/-- `SNAP_FILE_CHANGED_EVENT_UPDATED` -/
def eventUpdated : UInt32 := 0x0040

/-- `SNAP_FILE_CHANGED_EVENT_EXISTS` -/
def eventExists : UInt32 := 0x0080

/-- `SNAP_FILE_CHANGED_EVENT_RECURSIVE` -/
def eventRecursive : UInt32 := 0x0100

/-- `SNAP_FILE_CHANGED_EVENT_LOST_SYNC` -/
def eventLostSync : UInt32 := 0x0400

/-- `SNAP_FILE_CHANGED_EVENT_ERROR` -/
def eventError : UInt32 := 0x0800

/-- `SNAP_FILE_CHANGED_EVENT_DIRECTORY` -/
def eventDirectory : UInt32 := 0x1000

/-- `SNAP_FILE_CHANGED_EVENT_GONE` -/
def eventGone : UInt32 := 0x2000

/-- `SNAP_FILE_CHANGED_EVENT_UNMOUNTED` -/
def eventUnmounted : UInt32 := 0x4000

/-- The exceptions, with their texts. -/
inductive Thrown where
  /-- `initialization_error` -/
  | initializationError (what : String)
  /-- `unexpected_data` -/
  | unexpectedData (what : String)
deriving DecidableEq, Repr

/-! ### The translations -/

/-- `events_to_mask()` -/
def eventsToMask (events : UInt32) : Except Thrown UInt32 :=
  let mask :=
    (if events &&& eventAttributes ≠ 0 then inAttrib else 0)
      ||| (if events &&& eventRead ≠ 0 then inAccess else 0)
      ||| (if events &&& eventWrite ≠ 0 then inModify else 0)
      ||| (if events &&& eventCreated ≠ 0 ∨ events &&& eventRecursive ≠ 0 then
            inCreate ||| inMovedTo ||| inMoveSelf
          else 0)
      ||| (if events &&& eventDeleted ≠ 0 ∨ events &&& eventRecursive ≠ 0 then
            inDelete ||| inDeleteSelf ||| inMovedFrom ||| inMoveSelf
          else 0)
      ||| (if events &&& eventAccess ≠ 0 then inOpen ||| inCloseWrite ||| inCloseNoWrite else 0)
      ||| (if events &&& eventUpdated ≠ 0 then inCloseWrite else 0)
  if mask = 0 then
    .error (.initializationError
      "invalid file_changed events parameter, it was not changed to any IN_... flags.")
  else .ok mask

/-- `mask_to_events()` -/
def maskToEvents (mask : UInt32) : UInt32 :=
  (if mask &&& inAttrib ≠ 0 then eventAttributes else 0)
    ||| (if mask &&& inAccess ≠ 0 then eventRead else 0)
    ||| (if mask &&& inModify ≠ 0 then eventWrite else 0)
    ||| (if mask &&& (inCreate ||| inMovedTo) ≠ 0 then eventCreated else 0)
    ||| (if mask &&& (inDelete ||| inDeleteSelf ||| inMovedFrom) ≠ 0 then eventDeleted else 0)
    ||| (if mask &&& (inOpen ||| inCloseWrite ||| inCloseNoWrite) ≠ 0 then eventAccess else 0)
    ||| (if mask &&& inCloseWrite ≠ 0 then eventUpdated else 0)
    ||| (if mask &&& inIsDir ≠ 0 then eventDirectory else 0)
    ||| (if mask &&& inIgnored ≠ 0 then eventGone else 0)
    ||| (if mask &&& inUnmount ≠ 0 then eventUnmounted else 0)

/-- The bits that `events_to_mask()` asks the kernel for. -/
def requestedBits : UInt32 :=
  inAttrib ||| inAccess ||| inModify ||| inCreate ||| inMovedTo ||| inMoveSelf ||| inDelete
    ||| inDeleteSelf ||| inMovedFrom ||| inOpen ||| inCloseWrite ||| inCloseNoWrite

/-- The bits that come back as an event. -/
def translatedBits : UInt32 :=
  inAttrib ||| inAccess ||| inModify ||| (inCreate ||| inMovedTo)
    ||| (inDelete ||| inDeleteSelf ||| inMovedFrom)
    ||| (inOpen ||| inCloseWrite ||| inCloseNoWrite) ||| inCloseWrite ||| inIsDir ||| inIgnored
    ||| inUnmount

/-- What the kernel can report about a watch: some of the bits that were asked for, and the bits
that it adds by itself. -/
def KernelMask (mask : UInt32) : Prop :=
  mask ≠ 0 ∧ mask &&& (requestedBits ||| inIgnored ||| inUnmount ||| inIsDir) = mask

instance (mask : UInt32) : Decidable (KernelMask mask) := inferInstanceAs (Decidable (_ ∧ _))

private lemma and_or (a b c : UInt32) : a &&& (b ||| c) = a &&& b ||| a &&& c := by
  refine UInt32.toBitVec_inj.mp ?_
  simp only [UInt32.toBitVec_and, UInt32.toBitVec_or]
  exact BitVec.and_or_distrib_left

private lemma ite_eq_zero {b : Prop} [Decidable b] {x : UInt32} (hx : x ≠ 0) :
    (if b then x else 0) = 0 ↔ ¬ b := by
  split_ifs with h
  · simp [h, hx]
  · simp [h]

/-- There is no event when no bit comes back. -/
lemma maskToEvents_eq_zero {mask : UInt32} :
    maskToEvents mask = 0 ↔ mask &&& translatedBits = 0 := by
  have h₁ : eventAttributes ≠ 0 := by decide
  have h₂ : eventRead ≠ 0 := by decide
  have h₃ : eventWrite ≠ 0 := by decide
  have h₄ : eventCreated ≠ 0 := by decide
  have h₅ : eventDeleted ≠ 0 := by decide
  have h₆ : eventAccess ≠ 0 := by decide
  have h₇ : eventUpdated ≠ 0 := by decide
  have h₈ : eventDirectory ≠ 0 := by decide
  have h₉ : eventGone ≠ 0 := by decide
  have h₁₀ : eventUnmounted ≠ 0 := by decide
  simp only [maskToEvents, translatedBits, UInt32.or_eq_zero_iff, ite_eq_zero h₁, ite_eq_zero h₂,
    ite_eq_zero h₃, ite_eq_zero h₄, ite_eq_zero h₅, ite_eq_zero h₆, ite_eq_zero h₇, ite_eq_zero h₈,
    ite_eq_zero h₉, ite_eq_zero h₁₀, not_not, and_or, ne_eq]

/-- A bit of a mask is there or not. -/
private lemma and_moveSelf (mask : UInt32) :
    mask &&& inMoveSelf = 0 ∨ mask &&& inMoveSelf = inMoveSelf := by
  have h : (mask &&& inMoveSelf).toNat = (mask.toNat.testBit 11).toNat * 2 ^ 11 := by
    rw [UInt32.toNat_and, ← Nat.and_two_pow]
    rfl
  cases hbit : mask.toNat.testBit 11 with
  | false => exact .inl (UInt32.toNat_inj.mp (by rw [h, hbit]; rfl))
  | true => exact .inr (UInt32.toNat_inj.mp (by rw [h, hbit]; rfl))

/-- Of what the kernel can report, only `IN_MOVE_SELF` alone comes back as no event. -/
lemma maskToEvents_eq_zero_iff {mask : UInt32} (h : KernelMask mask) :
    maskToEvents mask = 0 ↔ mask = inMoveSelf := by
  have hbits : requestedBits ||| inIgnored ||| inUnmount ||| inIsDir =
      translatedBits ||| inMoveSelf := by decide
  obtain ⟨hne, hmask⟩ := h
  rw [maskToEvents_eq_zero]
  constructor
  · intro hzero
    rw [hbits, and_or, hzero, UInt32.zero_or] at hmask
    rcases and_moveSelf mask with h | h
    · exact absurd (hmask.symm.trans h) hne
    · exact hmask.symm.trans h
  · rintro rfl
    decide

/-! ### Events and watches -/

/-- `file_event` -/
structure FileEvent where
  /-- `f_watched_path` -/
  watchedPath : Str
  /-- `f_events` -/
  events : UInt32
  /-- `f_filename` -/
  filename : Str
deriving DecidableEq, Repr

/-- The constructor of `file_event`. -/
def FileEvent.new (watchedPath : Str) (events : UInt32) (filename : Str) :
    Except Thrown FileEvent :=
  if watchedPath = [] then
    .error (.initializationError "a file_changed watch path cannot be the empty string.")
  else if events = 0 then
    .error (.initializationError "a file_changed events parameter cannot be 0.")
  else .ok ⟨watchedPath, events, filename⟩

/-- `g_no_path` -/
def noPath : Str := ['/']

/-- `watch_t`, for a path that the kernel watches. -/
structure Watch where
  /-- `f_watched_path` -/
  watchedPath : Str
  /-- `f_patterns` -/
  patterns : List Str
  /-- `f_events` -/
  events : UInt32
  /-- `f_mask` -/
  mask : UInt32
  /-- `f_watch` -/
  watch : ℤ := -1
  /-- The kernel watches no empty path. -/
  watchedPath_ne : watchedPath ≠ []
deriving DecidableEq

/-- `match_patterns()` -/
def Watch.matchPatterns (fnmatch : Str → Str → Bool) (w : Watch) (filename : Str) : Bool :=
  if w.patterns = [] then true else w.patterns.any fun p => fnmatch p filename

end EventDispatcher.FileChanged
