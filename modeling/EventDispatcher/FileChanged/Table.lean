import EventDispatcher.FileChanged.ProcessRead
import EventDispatcher.Lib.Run

/-!
# The table of watches and the kernel

`f_watches` is keyed by the descriptors of the kernel.  A path that is watched again is merged: its
watch is removed and added, which makes a new descriptor, and the key stays the old one.  The table
agrees with the kernel as long as no path is watched again and the kernel removes no watch by
itself (`watches_consistent_iff`).
-/

namespace EventDispatcher.FileChanged

open Lib

/-! ### The kernel -/

/-- A record, as `process_read()` sees it. -/
structure Queued where
  /-- `wd` -/
  wd : ℤ
  /-- `mask` -/
  mask : UInt32
  /-- The name. -/
  name : Str
deriving DecidableEq, Repr

/-- What the kernel knows of an inotify descriptor. -/
structure Kernel where
  /-- The descriptors in use, with the paths that they were asked for. -/
  held : List (ℤ × Str) := []
  /-- A descriptor that was never used. -/
  next : ℤ := 1
  /-- The records that were not read. -/
  queue : List Queued := []

/-- How the kernel answers `inotify_add_watch()`. -/
inductive AddAnswer where
  /-- An error. -/
  | failed
  /-- The path leads to a file that is watched already. -/
  | same (wd : ℤ)
  /-- A new descriptor. -/
  | fresh
deriving DecidableEq, Repr

namespace Kernel

/-- The descriptor is in use. -/
def InUse (k : Kernel) (wd : ℤ) : Prop := ∃ path, (wd, path) ∈ k.held

instance (k : Kernel) (wd : ℤ) : Decidable (k.InUse wd) :=
  decidable_of_iff (wd ∈ k.held.map Prod.fst) (by simp [InUse])

/-- A new descriptor. -/
def addFresh (k : Kernel) (path : Str) : Kernel × ℤ :=
  ({ k with held := (k.next, path) :: k.held, next := k.next + 1 }, k.next)

/-- `inotify_add_watch()` for a path that is not empty. -/
def addWatch (k : Kernel) (path : Str) : AddAnswer → Kernel × ℤ
  | .failed => (k, -1)
  | .same wd =>
    if k.InUse wd then ({ k with held := (wd, path) :: k.held }, wd) else k.addFresh path
  | .fresh => k.addFresh path

/-- The watch is gone, and that is reported. -/
def drop (k : Kernel) (wd : ℤ) : Kernel :=
  { k with
    held := k.held.filter fun h => h.1 ≠ wd
    queue := k.queue ++ [⟨wd, inIgnored, []⟩] }

/-- `inotify_rm_watch()` -/
def removeWatch (k : Kernel) (wd : ℤ) : Kernel := if k.InUse wd then k.drop wd else k

end Kernel

/-! ### The object -/

/-- The functions of the class `pathinfo`. -/
structure PathInfo where
  /-- `basename()` -/
  basename : Str → Str
  /-- `dirname()` -/
  dirname : Str → Str
  /-- `has_pattern()` -/
  hasPattern : Str → Bool

/-- `path_and_pattern()` -/
def PathInfo.pathAndPattern (P : PathInfo) (path : Str) : Str × Str :=
  let pattern := P.basename path
  if P.hasPattern pattern then (P.dirname path, pattern) else (path, ['*'])

/-- The patterns of a new watch. -/
def newPatterns (pattern : Str) : List Str :=
  if pattern ≠ [] ∧ pattern ≠ ['*'] then [pattern] else []

/-- The patterns of a watch that is merged. -/
def mergePatterns (patterns : List Str) (pattern : Str) : List Str :=
  if patterns ≠ [] then if pattern = ['*'] then [] else patterns.insert pattern else patterns

/-- A `file_changed` object and its kernel. -/
structure Object where
  /-- `f_watches` -/
  watches : Watches := ∅
  /-- The kernel. -/
  kernel : Kernel := {}
  /-- The records that were read and not handled. -/
  buffer : List Queued := []
  /-- The record that is being handled, when its watch is known. -/
  current : Option Queued := none
  /-- The calls of `process_event()`. -/
  reported : List FileEvent := []
  /-- Whether the behaviour is undefined. -/
  undefined : Bool := false

/-- The functions that add a watch. -/
inductive WatchKind where
  /-- `watch_files()` -/
  | files
  /-- `watch_symlinks()` -/
  | symlinks
  /-- `watch_directories()` -/
  | directories
deriving DecidableEq, Repr

/-- The flags that they add. -/
def WatchKind.flags : WatchKind → UInt32
  | files => 0
  | symlinks => inDontFollow
  | directories => inOnlyDir

namespace Object

/-- The watch of a path. -/
def findPath (s : Object) (path : Str) : Option (ℤ × Watch) :=
  s.watches.entries.find? fun w => w.2.watchedPath = path

/-- `remove_watch()` of a watch with this `f_watch`. -/
def removeWatch (s : Object) (watch : ℤ) : Object :=
  if watch ≠ -1 then { s with kernel := s.kernel.removeWatch watch } else s

/-- The events for the files that exist: `files` are the names in a directory, and `none` stands for
what is not one. -/
def existing (fnmatch : Str → Str → Bool) (w : Watch) : Option (List Str) → List FileEvent
  | some names => (names.filter (w.matchPatterns fnmatch)).map fun name =>
      ⟨w.watchedPath, eventExists, name⟩
  | none => [⟨w.watchedPath, eventExists, []⟩]

/-- The calls for the files that exist, for a watch that asks for them. -/
def reportExisting (fnmatch : Str → Str → Bool) (w : Watch) (files : Option (List Str))
    (s : Object) : Object :=
  if w.events &&& eventExists ≠ 0 then
    { s with reported := s.reported ++ existing fnmatch w files }
  else s

/-- `merge_watch()` of a path that is not watched.  The watch is stored when there is no
exception. -/
def addWatch (fnmatch : Str → Str → Bool) (path pattern : Str) (events mask : UInt32)
    (answer : AddAnswer) (files : Option (List Str)) (s : Object) : Object :=
  if hpath : path = [] then s
  else
    let (k, wd) := s.kernel.addWatch path answer
    let w : Watch :=
      { watchedPath := path, patterns := newPatterns pattern, events := events, mask := mask
        watch := wd, watchedPath_ne := hpath }
    if wd = -1 then { s with kernel := k }
    else
      reportExisting fnmatch w files { s with kernel := k, watches := s.watches.insert wd w }

/-- `merge_watch()` of a path that is watched.  The watch is changed where it is. -/
def mergeWatch (fnmatch : Str → Str → Bool) (key : ℤ) (w : Watch) (pattern : Str)
    (mask : UInt32) (answer : AddAnswer) (files : Option (List Str)) (s : Object) : Object :=
  let s := s.removeWatch w.watch
  let (k, wd) := s.kernel.addWatch w.watchedPath answer
  let w : Watch :=
    { w with mask := w.mask ||| mask, patterns := mergePatterns w.patterns pattern, watch := wd }
  let s := { s with kernel := k, watches := s.watches.insert key w }
  if wd = -1 then s else s.reportExisting fnmatch w files

variable (P : PathInfo) (fnmatch : Str → Str → Bool)

/-- `watch_files()`, `watch_symlinks()` and `watch_directories()` -/
def watch (kind : WatchKind) (watchPath : Str) (events : UInt32) (answer : AddAnswer)
    (files : Option (List Str)) (s : Object) : Object :=
  match eventsToMask events with
  | .error _ => s
  | .ok mask =>
    let (path, pattern) := P.pathAndPattern watchPath
    match s.findPath path with
    | none =>
      s.addWatch fnmatch path pattern events (mask ||| kind.flags ||| inExclUnlink) answer files
    | some (key, w) =>
      s.mergeWatch fnmatch key w pattern (mask ||| kind.flags ||| inExclUnlink) answer files

/-- `stop_watch()` -/
def stopWatch (watchPath : Str) (s : Object) : Object :=
  match s.findPath (P.pathAndPattern watchPath).1 with
  | none => s
  | some (key, w) =>
    let s := s.removeWatch w.watch
    { s with watches := s.watches.erase key }

/-- `read()`, when `process_read()` is done with the records that it has. -/
def read (n : ℕ) (s : Object) : Object :=
  if s.current = none ∧ s.buffer = [] then
    { s with
      buffer := s.kernel.queue.take n
      kernel := { s.kernel with queue := s.kernel.queue.drop n } }
  else s

/-- The next record of the buffer, up to the call of `process_event()`; an exception loses the
rest of the buffer. -/
def next (s : Object) : Object :=
  match s.current, s.buffer with
  | none, q :: buffer =>
    let r : Reading := { watches := s.watches }
    if q.wd = -1 then
      { s with buffer := buffer, reported := s.reported ++ (r.queueError q.mask q.name).reported }
    else
      match s.watches.find? q.wd with
      | none => { s with buffer := buffer, kernel := s.kernel.removeWatch q.wd }
      | some w =>
        let r := r.notify fnmatch w q.mask q.name
        { s with
          buffer := if r.left.isSome then [] else buffer
          current := if r.left.isSome then none else some q
          reported := s.reported ++ r.reported }
  | _, _ => s

/-- What follows the call of `process_event()`.  The second `erase()` is given an iterator to the
element that the first one erased. -/
def finish (s : Object) : Object :=
  match s.current with
  | none => s
  | some q =>
    if q.mask &&& inIgnored ≠ 0 then
      let s := match s.watches.find? q.wd with
        | none => s
        | some w => s.removeWatch w.watch
      { s with watches := s.watches.erase q.wd, current := none, undefined := true }
    else { s with current := none }

/-- Something occurs that a watch in use asks for, or the queue has an error. -/
def occur (wd : ℤ) (mask : UInt32) (name : Str) (s : Object) : Object :=
  if (wd = -1 ∨ s.kernel.InUse wd) ∧ mask &&& inIgnored = 0 then
    { s with kernel := { s.kernel with queue := s.kernel.queue ++ [⟨wd, mask, name⟩] } }
  else s

end Object

/-- What can happen.  The functions that `process_event()` calls come between `next` and
`finish`. -/
inductive Action where
  /-- `watch_files()`, `watch_symlinks()` or `watch_directories()`. -/
  | watch (kind : WatchKind) (watchPath : Str) (events : UInt32) (answer : AddAnswer)
    (files : Option (List Str))
  /-- `stop_watch()` -/
  | stopWatch (watchPath : Str)
  /-- `process_read()` reads some records. -/
  | read (n : ℕ)
  /-- `process_read()` takes the next record. -/
  | next
  /-- `process_read()` goes on after `process_event()`. -/
  | finish
  /-- An event of the kernel. -/
  | occur (wd : ℤ) (mask : UInt32) (name : Str)
  /-- The kernel removes a watch by itself: its file is deleted or unmounted. -/
  | gone (wd : ℤ)
deriving DecidableEq, Repr

/-- The table and the kernel agree. -/
structure Agrees (watches : Watches) (k : Kernel) : Prop where
  /-- An entry is keyed by its own descriptor. -/
  keyed : ∀ e ∈ watches.entries, e.2.watch = e.1
  /-- The kernel holds it for its path. -/
  held : ∀ e ∈ watches.entries, (e.2.watch, e.2.watchedPath) ∈ k.held
  /-- There is one entry for a path. -/
  distinct : ∀ e ∈ watches.entries, ∀ e' ∈ watches.entries,
    e.2.watchedPath = e'.2.watchedPath → e = e'
  /-- A descriptor of the kernel is found. -/
  found : ∀ wd, k.InUse wd → (watches.find? wd).isSome = true

namespace Object

/-- One action. -/
def step (P : PathInfo) (fnmatch : Str → Str → Bool) (s : Object) : Action → Object
  | .watch kind watchPath events answer files =>
    s.watch P fnmatch kind watchPath events answer files
  | .stopWatch watchPath => s.stopWatch P watchPath
  | .read n => s.read n
  | .next => s.next fnmatch
  | .finish => s.finish
  | .occur wd mask name => s.occur wd mask name
  | .gone wd => { s with kernel := s.kernel.removeWatch wd }

/-- The table and the kernel agree, and the behaviour is defined. -/
def Consistent (s : Object) : Prop := Agrees s.watches s.kernel ∧ s.undefined = false

/-- The action watches no path again, and removes no watch behind the object's back. -/
def Fresh (P : PathInfo) (s : Object) : Action → Prop
  | .watch _ watchPath events _ _ =>
    (∃ mask, eventsToMask events = .ok mask) → s.findPath (P.pathAndPattern watchPath).1 = none
  | .gone wd => ¬ s.kernel.InUse wd
  | _ => True

end Object

/-! ### The kernel -/

namespace Kernel

variable {k : Kernel} {buffer : List Queued} {wd wd' : ℤ} {path : Str}

lemma inUse_drop : (k.drop wd).InUse wd' ↔ k.InUse wd' ∧ wd' ≠ wd := by
  simp [InUse, drop]

lemma inUse_removeWatch : (k.removeWatch wd).InUse wd' ↔ k.InUse wd' ∧ wd' ≠ wd := by
  rw [removeWatch]
  split_ifs with h
  · exact inUse_drop
  · exact (and_iff_left_of_imp fun h' he => h (he.subst h')).symm

lemma mem_held_removeWatch (hne : wd' ≠ wd) (h : (wd', path) ∈ k.held) :
    (wd', path) ∈ (k.removeWatch wd).held := by
  rw [removeWatch]
  split_ifs
  · exact List.mem_filter.mpr ⟨h, by simpa using hne⟩
  · exact h

lemma removeWatch_next : (k.removeWatch wd).next = k.next := by
  rw [removeWatch]
  split_ifs <;> rfl

/-- What `inotify_add_watch()` does. -/
lemma addWatch_cases (k : Kernel) (path : Str) (answer : AddAnswer) :
    k.addWatch path answer = (k, -1) ∨
      (∃ wd, k.InUse wd ∧
        k.addWatch path answer = ({ k with held := (wd, path) :: k.held }, wd)) ∨
      k.addWatch path answer = k.addFresh path := by
  cases answer with
  | failed => exact .inl rfl
  | fresh => exact .inr (.inr rfl)
  | same wd =>
    rw [addWatch]
    split_ifs with h
    · exact .inr (.inl ⟨wd, h, rfl⟩)
    · exact .inr (.inr rfl)

/-- The descriptors in use were given, and a watch that is reported to be gone is not in use. -/
structure Sound (k : Kernel) (buffer : List Queued) : Prop where
  /-- Descriptors are positive. -/
  next_pos : 0 < k.next
  /-- They were given. -/
  range : ∀ wd, k.InUse wd → 0 < wd ∧ wd < k.next
  /-- What is gone does not come back. -/
  late : ∀ q, q ∈ k.queue ∨ q ∈ buffer → q.mask &&& inIgnored ≠ 0 →
    ¬ k.InUse q.wd ∧ q.wd < k.next

lemma Sound.removeWatch (h : k.Sound buffer) (wd : ℤ) : (k.removeWatch wd).Sound buffer := by
  refine ⟨?_, fun wd' h' => ?_, fun q hq hmask => ?_⟩
  · rw [removeWatch_next]
    exact h.next_pos
  · rw [removeWatch_next]
    exact h.range wd' (inUse_removeWatch.mp h').1
  · rw [removeWatch_next, inUse_removeWatch]
    rw [Kernel.removeWatch] at hq
    split_ifs at hq with huse
    · rw [drop, List.mem_append, List.mem_singleton] at hq
      rcases hq with (hq | rfl) | hq
      · exact ⟨fun h' => (h.late q (.inl hq) hmask).1 h'.1, (h.late q (.inl hq) hmask).2⟩
      · exact ⟨fun h' => h'.2 rfl, (h.range wd huse).2⟩
      · exact ⟨fun h' => (h.late q (.inr hq) hmask).1 h'.1, (h.late q (.inr hq) hmask).2⟩
    · exact ⟨fun h' => (h.late q hq hmask).1 h'.1, (h.late q hq hmask).2⟩

lemma Sound.addWatch (h : k.Sound buffer) (path : Str) (answer : AddAnswer) :
    (k.addWatch path answer).1.Sound buffer := by
  rcases k.addWatch_cases path answer with heq | ⟨wd, huse, heq⟩ | heq
  · rw [heq]
    exact h
  · have hiff : ∀ wd', Kernel.InUse { k with held := (wd, path) :: k.held } wd' ↔ k.InUse wd' := by
      intro wd'
      refine ⟨fun ⟨p, hp⟩ => ?_, fun ⟨p, hp⟩ => ⟨p, List.mem_cons_of_mem _ hp⟩⟩
      rcases List.mem_cons.mp hp with hp | hp
      · obtain rfl : wd' = wd := congrArg Prod.fst hp
        exact huse
      · exact ⟨p, hp⟩
    rw [heq]
    exact ⟨h.next_pos, fun wd' h' => h.range wd' ((hiff wd').mp h'), fun q hq hmask =>
      ⟨fun h' => (h.late q hq hmask).1 ((hiff q.wd).mp h'), (h.late q hq hmask).2⟩⟩
  · have hiff : ∀ wd', (k.addFresh path).1.InUse wd' → wd' = k.next ∨ k.InUse wd' := by
      rintro wd' ⟨p, hp⟩
      rcases List.mem_cons.mp hp with hp | hp
      · exact .inl (congrArg Prod.fst hp)
      · exact .inr ⟨p, hp⟩
    have hpos := h.next_pos
    rw [heq]
    refine ⟨Int.lt_add_one_of_le hpos.le, fun wd' h' => ?_, fun q hq hmask => ⟨fun h' => ?_, ?_⟩⟩
    · rcases hiff wd' h' with rfl | h'
      · exact ⟨hpos, Int.lt_succ _⟩
      · exact ⟨(h.range wd' h').1, Int.lt_add_one_of_le (h.range wd' h').2.le⟩
    · rcases hiff q.wd h' with hwd | h'
      · exact absurd hwd (h.late q hq hmask).2.ne
      · exact (h.late q hq hmask).1 h'
    · exact Int.lt_add_one_of_le (h.late q hq hmask).2.le

/-- A descriptor that was given and is not in use is not given again. -/
lemma addWatch_ne (hpos : wd ≠ -1) (hlt : wd < k.next) (h : ¬ k.InUse wd) (path : Str)
    (answer : AddAnswer) : (k.addWatch path answer).2 ≠ wd := by
  rcases k.addWatch_cases path answer with heq | ⟨wd', huse, heq⟩ | heq
  · rw [heq]
    exact hpos.symm
  · rw [heq]
    exact fun hwd => h (hwd ▸ huse)
  · rw [heq]
    exact hlt.ne'

/-- A descriptor that is given is in use, for that path, and the others are as before. -/
lemma addWatch_held {answer : AddAnswer} (h : (k.addWatch path answer).2 ≠ -1) :
    (k.addWatch path answer).1.held = ((k.addWatch path answer).2, path) :: k.held := by
  rcases k.addWatch_cases path answer with heq | ⟨wd', huse, heq⟩ | heq
  · rw [heq] at h
    exact absurd rfl h
  · rw [heq]
  · rw [heq]
    rfl

lemma addWatch_eq_self {answer : AddAnswer} (hpos : 0 < k.next)
    (hrange : ∀ wd, k.InUse wd → 0 < wd) (h : (k.addWatch path answer).2 = -1) :
    (k.addWatch path answer).1 = k := by
  rcases k.addWatch_cases path answer with heq | ⟨wd', huse, heq⟩ | heq
  · rw [heq]
  · rw [heq] at h
    have := hrange wd' huse
    omega
  · rw [heq] at h
    exact absurd h (by rw [addFresh]; dsimp only; omega)

end Kernel

/-! ### The table -/

namespace Agrees

variable {watches : Watches} {k : Kernel} {wd : ℤ} {w : Watch}

lemma inUse (h : Agrees watches k) (hmem : (wd, w) ∈ watches.entries) : k.InUse wd := by
  have hheld := h.held _ hmem
  rw [h.keyed _ hmem] at hheld
  exact ⟨_, hheld⟩

/-- Only what the kernel holds plays a role. -/
lemma of_held (h : Agrees watches k) {k' : Kernel} (hheld : k'.held = k.held) :
    Agrees watches k' := by
  refine ⟨h.keyed, fun e he => ?_, h.distinct, fun wd ⟨path, hpath⟩ => ?_⟩
  · rw [hheld]
    exact h.held e he
  · rw [hheld] at hpath
    exact h.found wd ⟨path, hpath⟩

/-- A watch is removed. -/
lemma erase (h : Agrees watches k) (wd : ℤ) : Agrees (watches.erase wd) (k.removeWatch wd) := by
  refine ⟨fun e he => ?_, fun e he => ?_, fun e he e' he' => ?_, fun wd' h' => ?_⟩
  · exact h.keyed e (SortedMap.mem_erase_iff.mp he).2
  · obtain ⟨hne, hmem⟩ := SortedMap.mem_erase_iff.mp he
    exact Kernel.mem_held_removeWatch (h.keyed e hmem ▸ hne) (h.held e hmem)
  · exact h.distinct e (SortedMap.mem_erase_iff.mp he).2 e' (SortedMap.mem_erase_iff.mp he').2
  · obtain ⟨huse, hne⟩ := Kernel.inUse_removeWatch.mp h'
    rw [SortedMap.find?_erase, if_neg hne]
    exact h.found wd' huse

/-- A watch of a new path is added. -/
lemma insert (h : Agrees watches k) {k' : Kernel} (hwd : w.watch = wd)
    (hheld : k'.held = (wd, w.watchedPath) :: k.held)
    (hnew : ∀ e ∈ watches.entries, e.2.watchedPath ≠ w.watchedPath) :
    Agrees (watches.insert wd w) k' := by
  have hmem : ∀ e ∈ (watches.insert wd w).entries, e = (wd, w) ∨ e ∈ watches.entries := by
    intro e he
    exact SortedMap.mem_insertEntry he
  refine ⟨fun e he => ?_, fun e he => ?_, fun e he e' he' hpath => ?_, fun wd' h' => ?_⟩
  · rcases hmem e he with rfl | he
    · exact hwd
    · exact h.keyed e he
  · rw [hheld]
    rcases hmem e he with rfl | he
    · exact hwd ▸ List.mem_cons_self
    · exact List.mem_cons_of_mem _ (h.held e he)
  · rcases hmem e he with rfl | he <;> rcases hmem e' he' with rfl | he'
    · rfl
    · exact absurd hpath.symm (hnew e' he')
    · exact absurd hpath (hnew e he)
    · exact h.distinct e he e' he' hpath
  · rw [SortedMap.find?_insert]
    split_ifs with hne
    · rfl
    · obtain ⟨p, hp⟩ := h'
      rw [hheld] at hp
      rcases List.mem_cons.mp hp with hp | hp
      · exact absurd (congrArg Prod.fst hp).symm hne
      · exact h.found wd' ⟨p, hp⟩

end Agrees

/-! ### Runs -/

namespace Object

variable {P : PathInfo} {fnmatch : Str → Str → Bool} {s : Object}

/-- The invariant: the kernel reports that a watch is gone when it is gone for the table also. -/
structure Sound (s : Object) : Prop where
  /-- The table and the kernel agree. -/
  agrees : Agrees s.watches s.kernel
  /-- The behaviour is defined. -/
  defined : s.undefined = false
  /-- The descriptors. -/
  kernel : s.kernel.Sound s.buffer
  /-- The record that is being handled reports no watch that is gone. -/
  current : ∀ q, s.current = some q → q.mask &&& inIgnored = 0

lemma findPath_eq_some {path : Str} {key : ℤ} {w : Watch} (h : s.findPath path = some (key, w)) :
    (key, w) ∈ s.watches.entries :=
  List.mem_of_find?_eq_some h

lemma findPath_eq_none {path : Str} (h : s.findPath path = none) :
    ∀ e ∈ s.watches.entries, e.2.watchedPath ≠ path := by
  intro e he
  simpa using List.find?_eq_none.mp h e he

/-- The watch of an entry is removed. -/
lemma Sound.removeWatch_eq (h : s.Sound) {key : ℤ} {w : Watch}
    (hmem : (key, w) ∈ s.watches.entries) :
    s.removeWatch w.watch = { s with kernel := s.kernel.removeWatch key } := by
  have hkey : w.watch = key := h.agrees.keyed _ hmem
  have hpos := (h.kernel.range key (h.agrees.inUse hmem)).1
  rw [removeWatch, hkey, if_pos (by omega)]

lemma Sound.reportExisting (h : s.Sound) (w : Watch) (files : Option (List Str)) :
    (s.reportExisting fnmatch w files).Sound := by
  rw [Object.reportExisting]
  split_ifs
  · exact ⟨h.agrees, h.defined, h.kernel, h.current⟩
  · exact h

lemma Sound.addWatch (h : s.Sound) {path : Str} (hnew : s.findPath path = none) (pattern : Str)
    (events mask : UInt32) (answer : AddAnswer) (files : Option (List Str)) :
    (s.addWatch fnmatch path pattern events mask answer files).Sound := by
  rw [Object.addWatch]
  split_ifs with hpath
  · exact h
  dsimp only
  split_ifs with hwd
  · have hself := Kernel.addWatch_eq_self h.kernel.next_pos
      (fun wd huse => (h.kernel.range wd huse).1) hwd
    rw [hself]
    exact h
  · have hagrees := h.agrees.insert (w := ⟨path, newPatterns pattern, events, mask,
      (s.kernel.addWatch path answer).2, hpath⟩) rfl (Kernel.addWatch_held hwd)
      (findPath_eq_none hnew)
    exact Sound.reportExisting (s := { s with
      kernel := (s.kernel.addWatch path answer).1, watches := s.watches.insert _ _ })
      ⟨hagrees, h.defined, h.kernel.addWatch path answer, h.current⟩ _ _

lemma Sound.watch (h : s.Sound) {kind : WatchKind} {watchPath : Str} {events : UInt32}
    {answer : AddAnswer} {files : Option (List Str)}
    (hok : Fresh P s (.watch kind watchPath events answer files)) :
    (s.watch P fnmatch kind watchPath events answer files).Sound := by
  rw [Object.watch]
  cases hmask : eventsToMask events with
  | error e => exact h
  | ok mask =>
    have hnew := hok ⟨mask, hmask⟩
    dsimp only
    rw [hnew]
    exact h.addWatch hnew _ _ _ _ _

lemma Sound.stopWatch (h : s.Sound) (watchPath : Str) : (s.stopWatch P watchPath).Sound := by
  rw [Object.stopWatch]
  cases hfind : s.findPath (P.pathAndPattern watchPath).1 with
  | none => exact h
  | some e =>
    obtain ⟨key, w⟩ := e
    dsimp only
    rw [h.removeWatch_eq (findPath_eq_some hfind)]
    exact ⟨h.agrees.erase key, h.defined, h.kernel.removeWatch key, h.current⟩

lemma Sound.read (h : s.Sound) (n : ℕ) : (s.read n).Sound := by
  rw [Object.read]
  split_ifs with hdone
  · refine ⟨h.agrees.of_held rfl, h.defined,
      ⟨h.kernel.next_pos, h.kernel.range, fun q hq => ?_⟩, h.current⟩
    refine h.kernel.late q (.inl ?_)
    rcases hq with hq | hq
    · exact List.mem_of_mem_drop hq
    · exact List.mem_of_mem_take hq
  · exact h

/-- Records are handled or lost. -/
lemma Sound.handled (h : s.Sound) {buffer : List Queued} (hbuffer : buffer ⊆ s.buffer)
    (reported : List FileEvent) :
    Sound { s with buffer := buffer, reported := reported } :=
  ⟨h.agrees, h.defined, ⟨h.kernel.next_pos, h.kernel.range, fun q hq =>
    h.kernel.late q (hq.imp_right fun hq => hbuffer hq)⟩, h.current⟩

lemma Sound.next (h : s.Sound) : (s.next fnmatch).Sound := by
  rw [Object.next]
  split
  · rename_i q buffer hcurrent hbuffer
    have hsub : buffer ⊆ s.buffer := by
      rw [hbuffer]
      exact List.subset_cons_self q buffer
    dsimp only
    split_ifs with hwd
    · exact h.handled hsub _
    · cases hfind : s.watches.find? q.wd with
      | none =>
        have huse : ¬ s.kernel.InUse q.wd := by
          intro huse
          have := h.agrees.found q.wd huse
          rw [hfind] at this
          cases this
        dsimp only
        rw [Kernel.removeWatch, if_neg huse]
        exact h.handled hsub s.reported
      | some w =>
        have huse := h.agrees.inUse (SortedMap.find?_eq_some_iff.mp hfind)
        -- the watch is known, so it is not reported to be gone
        have hmask : q.mask &&& inIgnored = 0 := by
          by_contra hmask
          exact (h.kernel.late q (.inr (hbuffer ▸ List.mem_cons_self)) hmask).1 huse
        dsimp only
        generalize Reading.notify fnmatch _ w q.mask q.name = r
        split_ifs
        · have hs := h.handled (List.nil_subset _) (s.reported ++ r.reported)
          exact ⟨hs.agrees, hs.defined, hs.kernel, fun _ hq => by cases hq⟩
        · have hs := h.handled hsub (s.reported ++ r.reported)
          exact ⟨hs.agrees, hs.defined, hs.kernel, fun q' hq => by cases hq; exact hmask⟩
  · exact h

lemma Sound.finish (h : s.Sound) : s.finish.Sound := by
  rw [Object.finish]
  cases hcurrent : s.current with
  | none => exact h
  | some q =>
    dsimp only
    rw [if_neg (not_not.mpr (h.current q hcurrent))]
    exact ⟨h.agrees, h.defined, h.kernel, fun _ hq => by cases hq⟩

lemma Sound.occur (h : s.Sound) (wd : ℤ) (mask : UInt32) (name : Str) :
    (s.occur wd mask name).Sound := by
  rw [Object.occur]
  split_ifs with hok
  · refine ⟨h.agrees.of_held rfl, h.defined,
      ⟨h.kernel.next_pos, h.kernel.range, fun q hq hmask => ?_⟩, h.current⟩
    rw [List.mem_append, List.mem_singleton] at hq
    rcases hq with (hq | rfl) | hq
    · exact h.kernel.late q (.inl hq) hmask
    · exact absurd hok.2 hmask
    · exact h.kernel.late q (.inr hq) hmask
  · exact h

/-- **One action** that watches no path again keeps the invariant. -/
lemma Sound.step (h : s.Sound) {a : Action} (hok : Fresh P s a) : (s.step P fnmatch a).Sound := by
  cases a with
  | watch kind watchPath events answer files => exact h.watch hok
  | stopWatch watchPath => exact h.stopWatch watchPath
  | read n => exact h.read n
  | next => exact h.next
  | finish => exact h.finish
  | occur wd mask name => exact h.occur wd mask name
  | gone wd =>
    rw [Object.step, Kernel.removeWatch, if_neg hok]
    exact h

@[simp] lemma reportExisting_watches (w : Watch) (files : Option (List Str)) :
    (s.reportExisting fnmatch w files).watches = s.watches := by
  rw [reportExisting]
  split_ifs <;> rfl

/-- A path that is watched again has a watch with another descriptor than its key. -/
lemma Sound.not_consistent_mergeWatch (h : s.Sound) {key : ℤ} {w : Watch}
    (hmem : (key, w) ∈ s.watches.entries) (pattern : Str) (mask : UInt32) (answer : AddAnswer)
    (files : Option (List Str)) :
    ¬ (s.mergeWatch fnmatch key w pattern mask answer files).Consistent := by
  rintro ⟨hagrees, -⟩
  obtain ⟨hpos, hlt⟩ := h.kernel.range key (h.agrees.inUse hmem)
  have hlt' : key < (s.kernel.removeWatch key).next := by
    rwa [Kernel.removeWatch_next]
  have huse : ¬ (s.kernel.removeWatch key).InUse key :=
    fun huse => (Kernel.inUse_removeWatch.mp huse).2 rfl
  have hne := Kernel.addWatch_ne (by omega) hlt' huse w.watchedPath answer
  rw [mergeWatch, h.removeWatch_eq hmem] at hagrees
  refine hne ?_
  dsimp only at hagrees
  split_ifs at hagrees
  · exact hagrees.keyed _ (SortedMap.find?_eq_some_iff.mp (SortedMap.find?_insert_self _ _ _))
  · have hkeyed := hagrees.keyed
    rw [reportExisting_watches] at hkeyed
    exact hkeyed _ (SortedMap.find?_eq_some_iff.mp (SortedMap.find?_insert_self _ _ _))

/-- An action that leaves the table consistent watches no path again. -/
lemma Sound.fresh_of_consistent (h : s.Sound) {a : Action}
    (hstep : (s.step P fnmatch a).Consistent) : Fresh P s a := by
  cases a with
  | watch kind watchPath events answer files =>
    rintro ⟨mask, hmask⟩
    rw [Option.eq_none_iff_forall_ne_some]
    rintro ⟨key, w⟩ hfind
    rw [Object.step, Object.watch, hmask] at hstep
    dsimp only at hstep
    rw [hfind] at hstep
    exact h.not_consistent_mergeWatch (findPath_eq_some hfind) _ _ _ _ hstep
  | gone wd =>
    intro huse
    obtain ⟨w, hfind⟩ := Option.isSome_iff_exists.mp (h.agrees.found wd huse)
    have hgone := hstep.1.inUse (SortedMap.find?_eq_some_iff.mp hfind)
    exact (Kernel.inUse_removeWatch.mp hgone).2 rfl
  | stopWatch _ => trivial
  | read _ => trivial
  | next => trivial
  | finish => trivial
  | occur _ _ _ => trivial

/-- A new object. -/
lemma Sound.new : Sound {} :=
  ⟨⟨by simp, by simp, by simp, fun wd h => by simp [Kernel.InUse] at h⟩, rfl,
    ⟨by decide, fun wd h => by simp [Kernel.InUse] at h, by simp⟩, by simp⟩

/-- In every run of a new object, the table is consistent with the kernel in all states, exactly
when no call watches a path that is watched already, and the kernel removes no watch by itself. -/
theorem watches_consistent_iff (P : PathInfo) (fnmatch : Str → Str → Bool)
    (actions : List Action) :
    ((∀ p ∈ visited (step P fnmatch) {} actions, p.1.Consistent) ∧
        (runFrom (step P fnmatch) {} actions).Consistent) ↔
      ∀ p ∈ visited (step P fnmatch) {} actions, Fresh P p.1 p.2 :=
  holds_always_iff (fun s _ (h : Sound s) hok => h.step hok) (fun _ h => ⟨h.agrees, h.defined⟩)
    (fun _ _ h hstep => h.fresh_of_consistent hstep) Sound.new actions

/-- Paths without patterns. -/
def plainPaths : PathInfo where
  basename path := path
  dirname _ := []
  hasPattern _ := false

/-- `watch_files()` of a file to know when it is deleted. -/
def watchDeleted : Action := .watch .files ['f'] eventDeleted .fresh none

/-- A file is watched twice: the second descriptor is not in the table. -/
theorem not_watches_consistent :
    ¬ ∀ (P : PathInfo) (fnmatch : Str → Str → Bool) (actions : List Action),
      (∀ wd, Action.gone wd ∉ actions) → (runFrom (step P fnmatch) {} actions).Consistent := by
  intro h
  have hagrees := (h plainPaths (fun _ _ => false) [watchDeleted, watchDeleted]
    (by simp [watchDeleted])).1
  have hfound := hagrees.found 2 ⟨['f'], by decide⟩
  revert hfound
  decide

end Object

end EventDispatcher.FileChanged
