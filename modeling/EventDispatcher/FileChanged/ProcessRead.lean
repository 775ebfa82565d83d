import EventDispatcher.FileChanged.Record
import EventDispatcher.FileChanged.Watch
import EventDispatcher.Lib.SortedMap

/-!
# `file_changed::process_read()`

The function reads buffers of records until there are none left, and calls `process_event()` for
the records of the watches it knows.  Two kinds of records stop it: `IN_MOVE_SELF` alone, for which
there is no event, so the constructor of `file_event` throws; and `IN_IGNORED`, after which the
watch is erased twice.  It does what it is for exactly when there are no others
(`process_read_iff`).
-/

namespace EventDispatcher.FileChanged

open Lib

/-- `f_watches` -/
abbrev Watches := SortedMap ℤ Watch

/-- How `process_read()` can end other than by its `return`. -/
inductive Left where
  /-- An exception. -/
  | thrown (e : Thrown)
  /-- The behaviour is undefined. -/
  | undefined
deriving DecidableEq, Repr

/-- The state of `process_read()`. -/
structure Reading where
  /-- `f_watches` -/
  watches : Watches
  /-- The calls of `process_event()`. -/
  reported : List FileEvent := []
  /-- The calls of `inotify_rm_watch()`. -/
  removed : List ℤ := []
  /-- Whether the function was left. -/
  left : Option Left := none

namespace Reading

/-- A new `file_event` is passed to `process_event()`. -/
def processEvent (r : Reading) (watchedPath : Str) (events : UInt32) (filename : Str) : Reading :=
  match FileEvent.new watchedPath events filename with
  | .error e => { r with left := some (.thrown e) }
  | .ok event => { r with reported := r.reported ++ [event] }

/-- `inotify_rm_watch()` -/
def removeWatch (r : Reading) (wd : ℤ) : Reading := { r with removed := r.removed ++ [wd] }

/-- The watch of an `IN_IGNORED` event.  The second `erase()` is given an iterator to the element
that the first one erased. -/
def ignored (r : Reading) (wd : ℤ) (w : Watch) : Reading :=
  let r := if w.watch ≠ -1 then r.removeWatch w.watch else r
  { r with watches := r.watches.erase wd, left := some .undefined }

/-- A record without a descriptor is an error of the queue. -/
def queueError (r : Reading) (mask : UInt32) (filename : Str) : Reading :=
  if mask &&& inQOverflow ≠ 0 then r.processEvent noPath eventLostSync filename
  else r.processEvent noPath eventError filename

/-- The event of a watch is passed on when the name matches. -/
def notify (fnmatch : Str → Str → Bool) (r : Reading) (w : Watch) (mask : UInt32)
    (filename : Str) : Reading :=
  if w.matchPatterns fnmatch filename then
    r.processEvent w.watchedPath (maskToEvents mask) filename
  else r

end Reading

variable (fnmatch : Str → Str → Bool)

/-- One record. -/
def dispatch (r : Reading) (wd : ℤ) (mask : UInt32) (filename : Str) : Reading :=
  if wd = -1 then r.queueError mask filename
  else
    match r.watches.find? wd with
    | some w =>
      let r := r.notify fnmatch w mask filename
      if r.left.isSome then r
      else if mask &&& inIgnored ≠ 0 then r.ignored wd w
      else r
    -- we do not know about this notifier
    | none => r.removeWatch wd

/-- The loop over the records of a buffer. -/
def walk (r : Reading) (buffer : Str) : Reading :=
  if _ : buffer = [] then r
  else
    let h := readHeader buffer
    if buffer.length < headerSize + h.len then
      { r with left := some (.thrown (.unexpectedData
        "somehow the size of this ievent does not match what we just read.")) }
    else
      let r := dispatch fnmatch r h.wd h.mask h.filename
      if r.left.isSome then r else walk r (buffer.drop (headerSize + h.len))
termination_by buffer.length
decreasing_by
  have := List.length_pos_iff.mpr ‹buffer ≠ []›
  rw [List.length_drop, headerSize]
  omega

/-- The loop over what `read()` returns, until it fails with `EAGAIN`. -/
def readAll : Reading → List Str → Reading
  | r, [] => r
  | r, buffer :: reads =>
    if buffer = [] then r
    else
      let r := walk fnmatch r buffer
      if r.left.isSome then r else readAll r reads

/-- `process_read()` -/
def processRead (watches : Watches) (reads : List Str) : Reading :=
  readAll fnmatch { watches := watches } reads

/-! ### What it is for -/

/-- The calls of `process_event()` for an event. -/
def calls (watches : Watches) (e : InotifyEvent) : List FileEvent :=
  if e.wd = -1 then
    [⟨noPath, if e.mask &&& inQOverflow ≠ 0 then eventLostSync else eventError, e.name⟩]
  else
    match watches.find? e.wd with
    | some w =>
      if w.matchPatterns fnmatch e.name then [⟨w.watchedPath, maskToEvents e.mask, e.name⟩] else []
    | none => []

/-- The calls of `process_event()` for some events, and the watches that are left: those whose
watch is gone are erased. -/
def expected : Watches → List InotifyEvent → List FileEvent × Watches
  | watches, [] => ([], watches)
  | watches, e :: l =>
    let rest :=
      expected (if e.wd ≠ -1 ∧ e.mask &&& inIgnored ≠ 0 then watches.erase e.wd else watches) l
    (calls fnmatch watches e ++ rest.1, rest.2)

/-- The function returned, reported each event once and in order, none of them without flags, and
erased only the watches that are gone. -/
structure Reports (watches : Watches) (events : List InotifyEvent) (r : Reading) : Prop where
  /-- It returned. -/
  returned : r.left = none
  /-- The calls of `process_event()`. -/
  reported : r.reported = (expected fnmatch watches events).1
  /-- The flags. -/
  flags : ∀ e ∈ r.reported, e.events ≠ 0
  /-- The watches. -/
  watches : r.watches = (expected fnmatch watches events).2

/-- The event is not one that stops the function. -/
def Harmless (watches : Watches) (e : InotifyEvent) : Prop :=
  e.wd ≠ -1 → ∀ w, watches.find? e.wd = some w →
    e.mask &&& inIgnored = 0 ∧ (w.matchPatterns fnmatch e.name = true → maskToEvents e.mask ≠ 0)

variable {fnmatch}

/-! ### The events of a buffer -/

variable (fnmatch) in
/-- The events one after the other, until the function is left. -/
def dispatchAll (r : Reading) (l : List InotifyEvent) : Reading :=
  l.foldl (fun r e => if r.left.isSome then r else dispatch fnmatch r e.wd e.mask e.name) r

lemma dispatchAll_of_left {r : Reading} (h : r.left.isSome = true) (l : List InotifyEvent) :
    dispatchAll fnmatch r l = r := by
  induction l with
  | nil => rfl
  | cons e l ih =>
    rw [dispatchAll, List.foldl_cons, if_pos h]
    exact ih

lemma dispatchAll_cons {r : Reading} (h : r.left = none) (e : InotifyEvent)
    (l : List InotifyEvent) :
    dispatchAll fnmatch r (e :: l) =
      dispatchAll fnmatch (dispatch fnmatch r e.wd e.mask e.name) l := by
  rw [dispatchAll, List.foldl_cons, if_neg (by simp [h])]
  rfl

/-- The bytes of some records. -/
def bytesAll (l : List InotifyEvent) : Str := l.flatMap InotifyEvent.bytes

lemma bytesAll_ne {l : List InotifyEvent} (h : l ≠ []) : bytesAll l ≠ [] := by
  obtain ⟨e, l, rfl⟩ := List.exists_cons_of_ne_nil h
  intro hnil
  have hlength := congrArg List.length hnil
  rw [bytesAll, List.flatMap_cons, List.length_append, e.length_bytes, headerSize] at hlength
  simp at hlength

/-- **The walk.**  The records are found where they are. -/
lemma walk_bytes {r : Reading} (h : r.left = none) (l : List InotifyEvent) :
    walk fnmatch r (bytesAll l) = dispatchAll fnmatch r l := by
  induction l generalizing r with
  | nil =>
    rw [bytesAll, List.flatMap_nil, walk]
    rfl
  | cons e l ih =>
    have hbytes : bytesAll (e :: l) = e.bytes ++ bytesAll l := List.flatMap_cons
    have hheader := e.readHeader_bytes (bytesAll l)
    have hlen : (readHeader (e.bytes ++ bytesAll l)).len = e.len := by rw [hheader]
    have hwd : (readHeader (e.bytes ++ bytesAll l)).wd = e.wd := by rw [hheader]
    have hmask : (readHeader (e.bytes ++ bytesAll l)).mask = e.mask := by rw [hheader]
    have hlong : ¬ (e.bytes ++ bytesAll l).length < headerSize + e.len := by
      rw [List.length_append, e.length_bytes]
      omega
    have hdrop : (e.bytes ++ bytesAll l).drop (headerSize + e.len) = bytesAll l := by
      rw [← e.length_bytes, List.drop_left]
    rw [walk, dif_neg (bytesAll_ne (List.cons_ne_nil e l)), hbytes, dispatchAll_cons h]
    simp only [hlen, hwd, hmask, e.filename_bytes, if_neg hlong, hdrop]
    split_ifs with hleft
    · rw [dispatchAll_of_left hleft]
    · exact ih (by simpa using hleft)

/-- **The reads.**  How `read()` splits the records plays no role. -/
lemma readAll_bytes {r : Reading} (h : r.left = none) {reads : List (List InotifyEvent)}
    (hreads : ∀ l ∈ reads, l ≠ []) :
    readAll fnmatch r (reads.map bytesAll) = dispatchAll fnmatch r reads.flatten := by
  induction reads generalizing r with
  | nil => rfl
  | cons l reads ih =>
    rw [List.map_cons, readAll, if_neg (bytesAll_ne (hreads l List.mem_cons_self)),
      walk_bytes h, List.flatten_cons, dispatchAll, dispatchAll, List.foldl_append]
    dsimp only
    split_ifs with hleft
    · exact (dispatchAll_of_left hleft _).symm
    · exact ih (by simpa using hleft) fun l' hl' => hreads l' (List.mem_cons_of_mem _ hl')

/-! ### One event -/

lemma processEvent_ok {r : Reading} {watchedPath : Str} {events : UInt32} (filename : Str)
    (hpath : watchedPath ≠ []) (hevents : events ≠ 0) :
    r.processEvent watchedPath events filename =
      { r with reported := r.reported ++ [⟨watchedPath, events, filename⟩] } := by
  rw [Reading.processEvent, FileEvent.new, if_neg hpath, if_neg hevents]

/-- **One event** that is harmless is reported as it should be. -/
lemma dispatch_of_harmless {r : Reading} (h : r.left = none) {e : InotifyEvent}
    (he : Harmless fnmatch r.watches e) :
    (dispatch fnmatch r e.wd e.mask e.name).left = none ∧
      (dispatch fnmatch r e.wd e.mask e.name).watches = r.watches ∧
      (dispatch fnmatch r e.wd e.mask e.name).reported =
        r.reported ++ calls fnmatch r.watches e ∧
      ∀ c ∈ calls fnmatch r.watches e, c.events ≠ 0 := by
  rw [dispatch, calls]
  by_cases hwd : e.wd = -1
  · rw [if_pos hwd, if_pos hwd, Reading.queueError]
    split_ifs with hoverflow
    · rw [processEvent_ok _ (by decide) (by decide)]
      exact ⟨h, rfl, rfl, by simp [eventLostSync]⟩
    · rw [processEvent_ok _ (by decide) (by decide)]
      exact ⟨h, rfl, rfl, by simp [eventError]⟩
  · rw [if_neg hwd, if_neg hwd]
    cases hfind : r.watches.find? e.wd with
    | none => exact ⟨h, rfl, by simp [Reading.removeWatch], by simp⟩
    | some w =>
      obtain ⟨hignored, hevents⟩ := he hwd w hfind
      simp only [hignored, ne_eq, not_true_eq_false, if_false, ite_self, Reading.notify]
      split_ifs with hmatch
      · rw [processEvent_ok _ w.watchedPath_ne (hevents hmatch)]
        exact ⟨h, rfl, rfl, by simpa using hevents hmatch⟩
      · exact ⟨h, rfl, by simp, by simp⟩

/-- An event that is not harmless stops the function. -/
lemma dispatch_of_not_harmless {r : Reading} {e : InotifyEvent}
    (he : ¬ Harmless fnmatch r.watches e) :
    (dispatch fnmatch r e.wd e.mask e.name).left.isSome = true := by
  rw [Harmless] at he
  push Not at he
  obtain ⟨hwd, w, hfind, he⟩ := he
  rw [dispatch, if_neg hwd, hfind]
  dsimp only
  split_ifs with hleft hignored
  · exact hleft
  · rfl
  · obtain ⟨hmatch, hevents⟩ := he (not_not.mp hignored)
    refine absurd ?_ hleft
    rw [Reading.notify, if_pos hmatch, Reading.processEvent, FileEvent.new,
      if_neg w.watchedPath_ne, if_pos hevents]
    rfl

/-! ### The function -/

/-- A harmless event erases nothing. -/
lemma expected_cons {watches : Watches} {e : InotifyEvent} (he : Harmless fnmatch watches e)
    (l : List InotifyEvent) :
    expected fnmatch watches (e :: l) =
      (calls fnmatch watches e ++ (expected fnmatch watches l).1,
        (expected fnmatch watches l).2) := by
  have herase : (if e.wd ≠ -1 ∧ e.mask &&& inIgnored ≠ 0 then watches.erase e.wd
      else watches) = watches := by
    split_ifs with h
    · refine SortedMap.erase_of_find?_eq_none (Option.eq_none_iff_forall_ne_some.mpr ?_)
      exact fun w hw => h.2 (he h.1 w hw).1
    · rfl
  rw [expected, herase]

/-- Harmless events are reported. -/
lemma dispatchAll_of_harmless {r : Reading} (h : r.left = none) {l : List InotifyEvent}
    (hl : ∀ e ∈ l, Harmless fnmatch r.watches e) :
    (dispatchAll fnmatch r l).left = none ∧
      (dispatchAll fnmatch r l).watches = (expected fnmatch r.watches l).2 ∧
      (dispatchAll fnmatch r l).reported = r.reported ++ (expected fnmatch r.watches l).1 ∧
      ∀ c ∈ (expected fnmatch r.watches l).1, c.events ≠ 0 := by
  induction l generalizing r with
  | nil => exact ⟨h, rfl, by simp [dispatchAll, expected], by simp [expected]⟩
  | cons e l ih =>
    have he := hl e List.mem_cons_self
    obtain ⟨hleft, hwatches, hreported, hflags⟩ := dispatch_of_harmless h he
    rw [dispatchAll_cons h, expected_cons he]
    have hrest := ih hleft (by
      rw [hwatches]
      exact fun e' he' => hl e' (List.mem_cons_of_mem _ he'))
    rw [hwatches, hreported] at hrest
    obtain ⟨hleft', hwatches', hreported', hflags'⟩ := hrest
    refine ⟨hleft', hwatches', by rw [hreported', List.append_assoc], fun c hc => ?_⟩
    rcases List.mem_append.mp hc with hc | hc
    · exact hflags c hc
    · exact hflags' c hc

/-- When the function is not left, the events are harmless. -/
lemma harmless_of_dispatchAll {r : Reading} (h : r.left = none) {l : List InotifyEvent}
    (hl : (dispatchAll fnmatch r l).left = none) : ∀ e ∈ l, Harmless fnmatch r.watches e := by
  induction l generalizing r with
  | nil => exact fun _ hmem => absurd hmem List.not_mem_nil
  | cons e l ih =>
    rw [dispatchAll_cons h] at hl
    have he : Harmless fnmatch r.watches e := by
      by_contra hnot
      have hleft := dispatch_of_not_harmless hnot
      rw [dispatchAll_of_left hleft] at hl
      rw [hl] at hleft
      cases hleft
    obtain ⟨hleft, hwatches, -, -⟩ := dispatch_of_harmless h he
    have hrest := ih hleft hl
    rw [hwatches] at hrest
    intro e' he'
    rcases List.mem_cons.mp he' with rfl | he'
    · exact he
    · exact hrest e' he'

/-- `process_read()` does what it is for when all the events are harmless, and only then. -/
lemma reports_iff (watches : Watches) {reads : List (List InotifyEvent)}
    (hreads : ∀ l ∈ reads, l ≠ []) :
    Reports fnmatch watches reads.flatten
        (processRead fnmatch watches (reads.map bytesAll)) ↔
      ∀ e ∈ reads.flatten, Harmless fnmatch watches e := by
  rw [processRead, readAll_bytes rfl hreads]
  constructor
  · exact fun h => harmless_of_dispatchAll rfl h.returned
  · intro h
    obtain ⟨hleft, hwatches, hreported, hflags⟩ :=
      dispatchAll_of_harmless (r := { watches := watches }) rfl h
    rw [List.nil_append] at hreported
    exact ⟨hleft, hreported, by rw [hreported]; exact hflags, hwatches⟩

/-- For every content of the queue that the kernel can report, however `read()` splits it between
two records, `process_read()` returns, calls `process_event()` exactly once, in order and with
flags for each event of a watch that it knows whose name matches, and erases only the watches that
are gone, exactly when no event of a watch that it knows is `IN_IGNORED`, or is `IN_MOVE_SELF`
alone and matches. -/
theorem process_read_iff (watches : Watches) (reads : List (List InotifyEvent))
    (hreads : ∀ l ∈ reads, l ≠ [])
    (hmask : ∀ e ∈ reads.flatten, e.wd ≠ -1 → KernelMask e.mask) :
    Reports fnmatch watches reads.flatten
        (processRead fnmatch watches (reads.map bytesAll)) ↔
      ∀ e ∈ reads.flatten, e.wd ≠ -1 → ∀ w, watches.find? e.wd = some w →
        e.mask &&& inIgnored = 0 ∧
          (w.matchPatterns fnmatch e.name = true → e.mask ≠ inMoveSelf) := by
  rw [reports_iff watches hreads]
  refine forall₂_congr fun e he => forall_congr' fun hwd => forall₂_congr fun w hw => ?_
  rw [Ne, maskToEvents_eq_zero_iff (hmask e he hwd)]

/-- A watch of a file, with its descriptor. -/
def fileWatch : Watch where
  watchedPath := ['f']
  patterns := []
  events := eventDeleted
  mask := inDelete ||| inDeleteSelf ||| inMovedFrom ||| inMoveSelf ||| inExclUnlink
  watch := 1
  watchedPath_ne := by decide

/-- An event of that watch without a name. -/
def selfEvent (mask : UInt32) : InotifyEvent where
  wd := 1
  mask := mask
  cookie := 0
  name := []
  padding := 0
  wd_range := by decide
  nul_notMem := by decide
  padding_pos := by decide
  len_lt := by decide

/-- A watch of a directory. -/
def directoryWatch : Watch :=
  { fileWatch with watchedPath := ['d'], watch := 2, watchedPath_ne := by decide }

/-- An event of that watch, for a file of the directory. -/
def directoryEvent (mask : UInt32) : InotifyEvent where
  wd := 2
  mask := mask
  cookie := 0
  name := ['x']
  padding := 15
  wd_range := by decide
  nul_notMem := by decide
  padding_pos := by decide
  len_lt := by decide

/-- The two watches. -/
def twoWatches : Watches := ((∅ : Watches).insert 1 fileWatch).insert 2 directoryWatch

/-- Three files are deleted, one `read()` finds the first two. -/
def deletions : List (List InotifyEvent) :=
  [[directoryEvent inDelete, selfEvent inDeleteSelf], [directoryEvent inDelete]]

/-- Files are deleted: that is reported. -/
theorem process_read_iff_deleted :
    Reports (fun _ _ => false) twoWatches deletions.flatten
      (processRead (fun _ _ => false) twoWatches (deletions.map bytesAll)) := by
  refine (process_read_iff twoWatches deletions (by decide) (by decide)).mpr ?_
  intro e he _ w _
  have hmem : e = directoryEvent inDelete ∨ e = selfEvent inDeleteSelf := by
    simpa [deletions, or_comm] using he
  rcases hmem with rfl | rfl <;> exact ⟨by decide, fun _ => by decide⟩

/-- The file is renamed, when only that is asked for: the function throws. -/
theorem not_process_read :
    ¬ ∀ (watches : Watches) (reads : List (List InotifyEvent)), (∀ l ∈ reads, l ≠ []) →
      (∀ e ∈ reads.flatten, e.wd ≠ -1 → KernelMask e.mask) →
        Reports (fun _ _ => false) watches reads.flatten
          (processRead (fun _ _ => false) watches (reads.map bytesAll)) := by
  intro h
  have hreports := h ((∅ : Watches).insert 1 fileWatch) [[selfEvent inMoveSelf]] (by simp)
    (by simp [selfEvent, KernelMask]; decide)
  have hharmless := (reports_iff _ (by simp)).mp hreports (selfEvent inMoveSelf) (by simp)
    (by decide) fileWatch (SortedMap.find?_insert_self _ _ _)
  exact hharmless.2 rfl (by decide)

end EventDispatcher.FileChanged
