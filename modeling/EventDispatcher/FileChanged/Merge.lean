import EventDispatcher.FileChanged.Table

/-!
# Watches that are merged

A directory that is watched again keeps its watch: `watch_t::merge_watch()` adds the bits to the
mask and the pattern to the patterns.  It does not add the events, and `f_events` is what decides
whether the files that exist are reported: the watch is the union of the calls exactly when the
events of all of them are among those of the first one (`merges_iff`).
-/

namespace EventDispatcher.FileChanged

open Lib

/-! ### The mask of a union -/

/-- The bits that `events_to_mask()` collects. -/
def maskBits (events : UInt32) : UInt32 :=
  (if events &&& eventAttributes ≠ 0 then inAttrib else 0)
    ||| (if events &&& eventRead ≠ 0 then inAccess else 0)
    ||| (if events &&& eventWrite ≠ 0 then inModify else 0)
    ||| (if events &&& eventCreated ≠ 0 ∨ events &&& eventRecursive ≠ 0 then
          inCreate ||| inMovedTo ||| inMoveSelf
        else 0)
    ||| (if events &&& eventDeleted ≠ 0 ∨ events &&& eventRecursive ≠ 0 then
          inDelete ||| inDeleteSelf ||| inMovedFrom ||| inMoveSelf
        else 0)
    ||| (if events &&& eventAccess ≠ 0 then inOpen ||| inCloseWrite ||| inCloseNoWrite else 0)
    ||| (if events &&& eventUpdated ≠ 0 then inCloseWrite else 0)

lemma eventsToMask_eq_ok_iff {events mask : UInt32} :
    eventsToMask events = .ok mask ↔ maskBits events ≠ 0 ∧ maskBits events = mask := by
  change (if maskBits events = 0 then _ else Except.ok (maskBits events)) = .ok mask ↔ _
  split_ifs with h
  · simp [h]
  · simp [h]

lemma or_and_ne_zero {a b bit : UInt32} :
    (a ||| b) &&& bit ≠ 0 ↔ a &&& bit ≠ 0 ∨ b &&& bit ≠ 0 := by
  have h : bit &&& (a ||| b) = bit &&& a ||| bit &&& b := by
    refine UInt32.toBitVec_inj.mp ?_
    simp only [UInt32.toBitVec_and, UInt32.toBitVec_or]
    exact BitVec.and_or_distrib_left
  rw [UInt32.and_comm, h, ne_eq, UInt32.or_eq_zero_iff, not_and_or, UInt32.and_comm bit a,
    UInt32.and_comm bit b]

lemma ite_or {p q : Prop} [Decidable p] [Decidable q] {x : UInt32} :
    (if p ∨ q then x else 0) = (if p then x else 0) ||| (if q then x else 0) := by
  by_cases hp : p
  · by_cases hq : q
    · simp [hp, hq]
    · simp [hp, hq]
  · simp [hp]

/-- **The mask of two sets of events** is the union of their masks. -/
lemma maskBits_or (a b : UInt32) : maskBits (a ||| b) = maskBits a ||| maskBits b := by
  simp only [maskBits, or_and_ne_zero, ite_or]
  ac_rfl

/-! ### The patterns of a union -/

/-- A pattern accepts a file name; `*` stands for all of them. -/
def acceptsOne (fnmatch : Str → Str → Bool) (filename pattern : Str) : Bool :=
  pattern = ['*'] || fnmatch pattern filename

/-- A list of patterns accepts a file name. -/
def accepts (fnmatch : Str → Str → Bool) (given : List Str) (filename : Str) : Bool :=
  given.any (acceptsOne fnmatch filename)

/-- The patterns of a watch stand for the ones that were given. -/
def StandFor (patterns given : List Str) : Prop :=
  (['*'] ∈ given ∧ patterns = []) ∨
    (['*'] ∉ given ∧ patterns ≠ [] ∧ ∀ p, p ∈ patterns ↔ p ∈ given)

lemma StandFor.new {pattern : Str} (hpattern : pattern ≠ []) :
    StandFor (newPatterns pattern) [pattern] := by
  rw [newPatterns]
  by_cases hall : pattern = ['*']
  · rw [if_neg fun h => h.2 hall]
    exact Or.inl ⟨by simp [hall], rfl⟩
  · rw [if_pos ⟨hpattern, hall⟩]
    exact Or.inr ⟨by simpa using Ne.symm hall, by simp, fun p => Iff.rfl⟩

/-- **One more pattern.** -/
lemma StandFor.merge {patterns given : List Str} (h : StandFor patterns given) (pattern : Str) :
    StandFor (mergePatterns patterns pattern) (given ++ [pattern]) := by
  rw [mergePatterns]
  rcases h with ⟨hall, rfl⟩ | ⟨hall, hne, hmem⟩
  · rw [if_neg (by simp)]
    exact Or.inl ⟨List.mem_append_left _ hall, rfl⟩
  · rw [if_pos hne]
    by_cases hpattern : pattern = ['*']
    · rw [if_pos hpattern]
      exact Or.inl ⟨by simp [hpattern], rfl⟩
    · rw [if_neg hpattern]
      refine Or.inr ⟨?_, List.ne_nil_of_mem List.mem_insert_self, fun p => ?_⟩
      · rw [List.mem_append, List.mem_singleton, not_or]
        exact ⟨hall, Ne.symm hpattern⟩
      · rw [List.mem_insert_iff, hmem, List.mem_append, List.mem_singleton, or_comm]

/-- The watch accepts what one of the patterns that were given accepts. -/
lemma StandFor.matchPatterns {w : Watch} {given : List Str} (h : StandFor w.patterns given)
    (fnmatch : Str → Str → Bool) (filename : Str) :
    w.matchPatterns fnmatch filename = accepts fnmatch given filename := by
  rw [Bool.eq_iff_iff, Watch.matchPatterns, accepts, List.any_eq_true]
  rcases h with ⟨hall, hnil⟩ | ⟨hall, hne, hmem⟩
  · rw [if_pos hnil]
    exact iff_of_true rfl ⟨_, hall, by simp [acceptsOne]⟩
  · rw [if_neg hne, List.any_eq_true]
    refine exists_congr fun p => ?_
    rw [hmem]
    refine and_congr_right fun hp => ?_
    have hp : p ≠ ['*'] := fun heq => hall (heq ▸ hp)
    simp [acceptsOne, hp]

/-! ### A sequence of calls -/

/-- A call of `watch_files()`. -/
structure WatchCall where
  /-- The path, with its pattern. -/
  watchPath : Str
  /-- The events. -/
  events : UInt32
  /-- How the kernel answers. -/
  answer : AddAnswer
  /-- The names in the directory, if the path leads to one. -/
  files : Option (List Str)
deriving DecidableEq

/-- The pattern of a call. -/
def WatchCall.pattern (P : PathInfo) (c : WatchCall) : Str := (P.pathAndPattern c.watchPath).2

/-- The call watches a path, its events map to a mask, and the kernel accepts it. -/
structure WatchCall.Watches (P : PathInfo) (path : Str) (c : WatchCall) : Prop where
  /-- The path. -/
  path : (P.pathAndPattern c.watchPath).1 = path
  /-- The mask. -/
  mask : maskBits c.events ≠ 0
  /-- The kernel accepts it. -/
  accepted : c.answer ≠ .failed

/-- The object after a call. -/
def Object.call (P : PathInfo) (fnmatch : Str → Str → Bool) (s : Object) (c : WatchCall) : Object :=
  s.watch P fnmatch .files c.watchPath c.events c.answer c.files

/-- The events of some calls, together. -/
def unionEvents (calls : List WatchCall) : UInt32 := calls.foldl (fun e c => e ||| c.events) 0

/-- The reports of the files that exist, when they are asked for. -/
def existingFor (fnmatch : Str → Str → Bool) (path : Str) (events : UInt32) (given : List Str)
    (files : Option (List Str)) : List FileEvent :=
  if events &&& eventExists ≠ 0 then
    match files with
    | some names => (names.filter (accepts fnmatch given)).map fun name => ⟨path, eventExists, name⟩
    | none => [⟨path, eventExists, []⟩]
  else []

/-- The reports of some calls: each one reports the files that exist for the patterns up to it, as
soon as one of the calls up to it asks for them. -/
def reportsOf (P : PathInfo) (fnmatch : Str → Str → Bool) (path : Str) :
    List WatchCall → List WatchCall → List FileEvent
  | _, [] => []
  | before, c :: calls =>
    existingFor fnmatch path (unionEvents (before ++ [c])) ((before ++ [c]).map (·.pattern P))
      c.files ++ reportsOf P fnmatch path (before ++ [c]) calls

/-- **The watch is the union of the calls**: it has the events and the mask of all of them, it
accepts the files of all their patterns, and the files that exist are reported as soon as one of
them asks for it. -/
structure IsUnion (P : PathInfo) (fnmatch : Str → Str → Bool) (path : Str) (calls : List WatchCall)
    (s s' : Object) : Prop where
  /-- The watch is what the constructor makes of the union. -/
  watch : ∃ key w mask, s'.findPath path = some (key, w) ∧
    w.events = unionEvents calls ∧ eventsToMask (unionEvents calls) = .ok mask ∧
    w.mask = mask ||| WatchKind.files.flags ||| inExclUnlink ∧
    ∀ filename, w.matchPatterns fnmatch filename =
      accepts fnmatch (calls.map (·.pattern P)) filename
  /-- The reports. -/
  reported : s'.reported = s.reported ++ reportsOf P fnmatch path [] calls

/-- After some calls, of which the first one had these events. -/
structure Merged (P : PathInfo) (path : Str) (events : UInt32) (calls : List WatchCall)
    (s : Object) : Prop where
  /-- The descriptors. -/
  kernel : s.kernel.Sound s.buffer
  /-- The mask is not empty. -/
  asked : maskBits (unionEvents calls) ≠ 0
  /-- There is one entry for the path. -/
  entry : ∃ key w, (key, w) ∈ s.watches.entries ∧ w.watchedPath = path ∧ w.events = events ∧
    w.mask = maskBits (unionEvents calls) ||| WatchKind.files.flags ||| inExclUnlink ∧
    StandFor w.patterns (calls.map (·.pattern P)) ∧
    ∀ e ∈ s.watches.entries, e.2.watchedPath = path → e = (key, w)

variable {P : PathInfo} {fnmatch : Str → Str → Bool} {path : Str} {events : UInt32}
  {calls : List WatchCall} {s : Object}

lemma unionEvents_append (calls : List WatchCall) (c : WatchCall) :
    unionEvents (calls ++ [c]) = unionEvents calls ||| c.events := by
  rw [unionEvents, List.foldl_append]
  rfl

/-- The mask of one more call. -/
lemma maskBits_unionEvents_append (calls : List WatchCall) (c : WatchCall) :
    maskBits (unionEvents (calls ++ [c])) = maskBits (unionEvents calls) ||| maskBits c.events := by
  rw [unionEvents_append, maskBits_or]

/-- A pattern is not empty. -/
lemma pattern_ne (hP : P.hasPattern [] = false) (c : WatchCall) : c.pattern P ≠ [] := by
  rw [WatchCall.pattern, PathInfo.pathAndPattern]
  split_ifs with h
  · intro hnil
    rw [show P.basename c.watchPath = [] from hnil, hP] at h
    cases h
  · simp

/-- The kernel gives a descriptor. -/
lemma addWatch_accepted {k : Kernel} {buffer : List Queued} (h : k.Sound buffer) (path : Str)
    {answer : AddAnswer} (hanswer : answer ≠ .failed) : (k.addWatch path answer).2 ≠ -1 := by
  have hnext := h.next_pos
  cases answer with
  | failed => exact absurd rfl hanswer
  | fresh => exact (show k.next ≠ -1 by omega)
  | same wd =>
    rw [Kernel.addWatch]
    split_ifs with huse
    · have hpos := (h.range wd huse).1
      exact (show wd ≠ -1 by omega)
    · exact (show k.next ≠ -1 by omega)

/-- Only the kernel changes when a watch is removed. -/
lemma removeWatch_spec (h : s.kernel.Sound s.buffer) (watch : ℤ) :
    (s.removeWatch watch).kernel.Sound s.buffer ∧ (s.removeWatch watch).buffer = s.buffer ∧
      (s.removeWatch watch).watches = s.watches ∧
      (s.removeWatch watch).reported = s.reported := by
  rw [Object.removeWatch]
  split_ifs
  · exact ⟨h.removeWatch _, rfl, rfl, rfl⟩
  · exact ⟨h, rfl, rfl, rfl⟩

/-- The entry of a path is found. -/
lemma findPath_of_unique {key : ℤ} {w : Watch} (hmem : (key, w) ∈ s.watches.entries)
    (hpath : w.watchedPath = path)
    (hunique : ∀ e ∈ s.watches.entries, e.2.watchedPath = path → e = (key, w)) :
    s.findPath path = some (key, w) := by
  cases hfind : s.findPath path with
  | none => exact absurd hpath (Object.findPath_eq_none hfind _ hmem)
  | some e =>
    have hfound : e.2.watchedPath = path := by simpa using List.find?_some hfind
    rw [hunique e (List.mem_of_find?_eq_some hfind) hfound]

/-- The entry that is inserted is the one of its path. -/
lemma unique_insert {watches : Watches} {key : ℤ} {w : Watch}
    (hother : ∀ e ∈ watches.entries, e.2.watchedPath = path → e.1 = key) :
    ∀ e ∈ (watches.insert key w).entries, e.2.watchedPath = path → e = (key, w) := by
  rintro ⟨key', w'⟩ he hpath
  rcases SortedMap.mem_insert_iff.mp he with ⟨rfl, rfl⟩ | ⟨hne, he⟩
  · rfl
  · exact absurd (hother _ he hpath).symm hne

lemma reportExisting_eq {w : Watch} {given : List Str} (h : StandFor w.patterns given)
    (files : Option (List Str)) (s : Object) :
    s.reportExisting fnmatch w files = { s with
      reported := s.reported ++ existingFor fnmatch w.watchedPath w.events given files } := by
  have hmatch : w.matchPatterns fnmatch = accepts fnmatch given := funext (h.matchPatterns fnmatch)
  simp only [Object.reportExisting, existingFor]
  split_ifs with hexists
  · cases files with
    | none => rfl
    | some names => rw [Object.existing, hmatch]
  · rw [List.append_nil]

variable (fnmatch) in
/-- **The first call** makes the watch. -/
lemma Merged.first (hP : P.hasPattern [] = false) (hpath : path ≠ [])
    (hs : s.findPath path = none) (hk : s.kernel.Sound s.buffer) {c : WatchCall}
    (hc : c.Watches P path) :
    Merged P path c.events [c] (s.call P fnmatch c) ∧
      (s.call P fnmatch c).reported = s.reported ++
        existingFor fnmatch path c.events [c.pattern P] c.files := by
  have hunion : unionEvents [c] = c.events := UInt32.zero_or
  have hmask : eventsToMask c.events = .ok (maskBits c.events) :=
    eventsToMask_eq_ok_iff.mpr ⟨hc.mask, rfl⟩
  have haccepted := addWatch_accepted hk path hc.accepted
  have hstand := StandFor.new (pattern_ne hP c)
  have hsound := hk.addWatch path c.answer
  have hsplit : P.pathAndPattern c.watchPath = (path, c.pattern P) := Prod.ext hc.path rfl
  rw [Object.call, Object.watch, hmask]
  dsimp only
  rw [hsplit]
  dsimp only
  rw [hs]
  dsimp only
  rw [Object.addWatch, dif_neg hpath]
  dsimp only
  rw [if_neg haccepted, reportExisting_eq hstand]
  refine ⟨⟨hsound, hunion ▸ hc.mask, ?_⟩, rfl⟩
  refine ⟨_, _, SortedMap.mem_insert_iff.mpr (Or.inl ⟨rfl, rfl⟩), rfl, rfl, ?_, hstand,
    unique_insert fun e he heq => absurd heq (Object.findPath_eq_none hs e he)⟩
  rw [hunion]

variable (fnmatch) in
/-- **A later call** merges its mask and its pattern, and keeps the events of the first one. -/
lemma Merged.merge (h : Merged P path events calls s) {c : WatchCall} (hc : c.Watches P path) :
    Merged P path events (calls ++ [c]) (s.call P fnmatch c) ∧
      (s.call P fnmatch c).reported = s.reported ++
        existingFor fnmatch path events ((calls ++ [c]).map (·.pattern P)) c.files := by
  obtain ⟨key, w, hmem, hpath, hevents, hwmask, hstand, hunique⟩ := h.entry
  have hmask : eventsToMask c.events = .ok (maskBits c.events) :=
    eventsToMask_eq_ok_iff.mpr ⟨hc.mask, rfl⟩
  have hsplit : P.pathAndPattern c.watchPath = (path, c.pattern P) := Prod.ext hc.path rfl
  obtain ⟨hkernel, hbuffer, hwatches, hreported⟩ := removeWatch_spec h.kernel w.watch
  have haccepted := addWatch_accepted hkernel w.watchedPath hc.accepted
  have hmerged : StandFor (mergePatterns w.patterns (c.pattern P))
      ((calls ++ [c]).map (·.pattern P)) := by
    rw [List.map_append]
    exact hstand.merge (c.pattern P)
  have hunion := maskBits_unionEvents_append calls c
  rw [Object.call, Object.watch, hmask]
  dsimp only
  rw [hsplit]
  dsimp only
  rw [findPath_of_unique hmem hpath hunique]
  dsimp only
  rw [Object.mergeWatch]
  dsimp only
  rw [if_neg haccepted, reportExisting_eq hmerged]
  refine ⟨⟨?_, ?_, ?_⟩, ?_⟩
  · change Kernel.Sound _ (s.removeWatch w.watch).buffer
    rw [hbuffer]
    exact hkernel.addWatch _ _
  · rw [hunion, ne_eq, UInt32.or_eq_zero_iff]
    exact fun h' => hc.mask h'.2
  · refine ⟨key, _, SortedMap.mem_insert_iff.mpr (Or.inl ⟨rfl, rfl⟩), hpath, hevents, ?_, hmerged,
      unique_insert fun e he heq => ?_⟩
    · change w.mask ||| (maskBits c.events ||| WatchKind.files.flags ||| inExclUnlink) = _
      rw [hwmask, hunion]
      -- the flags are there already
      ac_rfl
    · rw [hwatches] at he
      exact congrArg Prod.fst (hunique e he heq)
  · change (s.removeWatch w.watch).reported ++ _ = _
    rw [hreported, ← hpath, ← hevents]

variable (fnmatch) in
/-- **A run of calls** keeps the events of the first one; when the others have no other events, the
reports are those of the union. -/
lemma Merged.run (h : Merged P path events calls s) (later : List WatchCall)
    (hlater : ∀ c ∈ later, c.Watches P path) :
    Merged P path events (calls ++ later) (runFrom (Object.call P fnmatch) s later) ∧
      (unionEvents calls = events → (∀ c ∈ later, events ||| c.events = events) →
        (runFrom (Object.call P fnmatch) s later).reported = s.reported ++
          reportsOf P fnmatch path calls later) := by
  induction later generalizing calls s with
  | nil =>
    rw [List.append_nil]
    exact ⟨h, fun _ _ => (List.append_nil _).symm⟩
  | cons c later ih =>
    obtain ⟨hnext, hreported⟩ := h.merge fnmatch (hlater c List.mem_cons_self)
    obtain ⟨hend, hrest⟩ := ih hnext fun c hc => hlater c (List.mem_cons_of_mem _ hc)
    rw [List.append_assoc] at hend
    refine ⟨hend, fun hunion hwithin => ?_⟩
    have hsame : unionEvents (calls ++ [c]) = events := by
      rw [unionEvents_append, hunion]
      exact hwithin c List.mem_cons_self
    have hrun := hrest hsame fun c hc => hwithin c (List.mem_cons_of_mem _ hc)
    change (runFrom (Object.call P fnmatch) (s.call P fnmatch c) later).reported = _
    rw [hrun, hreported, reportsOf, hsame, List.append_assoc]

lemma or_eq_self_of_or_or {a b e : UInt32} (h : e ||| (a ||| b) = e) : e ||| a = e :=
  calc e ||| a = e ||| (a ||| b) ||| a := by rw [h]
    _ = e ||| (a ||| (a ||| b)) := by rw [UInt32.or_assoc, UInt32.or_comm (a ||| b)]
    _ = e ||| (a ||| b) := by rw [← UInt32.or_assoc a, UInt32.or_self]
    _ = e := h

lemma or_or_eq_self_iff {a b e : UInt32} : e ||| (a ||| b) = e ↔ e ||| a = e ∧ e ||| b = e := by
  constructor
  · exact fun h => ⟨or_eq_self_of_or_or h, or_eq_self_of_or_or (UInt32.or_comm a b ▸ h)⟩
  · rintro ⟨ha, hb⟩
    rw [← UInt32.or_assoc, ha, hb]

/-- Events that are added change nothing exactly when they are all there. -/
lemma foldl_or_eq_self_iff {later : List WatchCall} :
    later.foldl (fun e c => e ||| c.events) events = events ↔
      ∀ c ∈ later, events ||| c.events = events := by
  have hfoldl : ∀ (l : List WatchCall) (e : UInt32),
      l.foldl (fun e c => e ||| c.events) e = e ||| unionEvents l := by
    intro l
    induction l using List.reverseRecOn with
    | nil => exact fun e => UInt32.or_zero.symm
    | append_singleton l c ih =>
      intro e
      rw [List.foldl_append, unionEvents_append, ih, ← UInt32.or_assoc]
      rfl
  rw [hfoldl]
  induction later using List.reverseRecOn with
  | nil => exact iff_of_true UInt32.or_zero (by simp)
  | append_singleton l c ih =>
    rw [unionEvents_append, or_or_eq_self_iff]
    simp only [ih, List.mem_append, List.mem_singleton, or_imp, forall_and, forall_eq]

/-- **Merging watches is a union** exactly when the later calls ask for no event that the first one
did not ask for. -/
theorem merges_iff (P : PathInfo) (hP : P.hasPattern [] = false) (fnmatch : Str → Str → Bool)
    (path : Str) (hpath : path ≠ []) (s : Object) (hs : s.findPath path = none)
    (hk : s.kernel.Sound s.buffer) (c : WatchCall) (later : List WatchCall)
    (hcalls : ∀ c' ∈ c :: later, c'.Watches P path) :
    IsUnion P fnmatch path (c :: later) s (runFrom (Object.call P fnmatch) s (c :: later)) ↔
      ∀ c' ∈ later, c.events ||| c'.events = c.events := by
  have hfirst := Merged.first fnmatch hP hpath hs hk (hcalls c List.mem_cons_self)
  obtain ⟨hmerged, hreported⟩ := hfirst
  obtain ⟨hend, hrun⟩ := hmerged.run fnmatch later fun c' hc' =>
    hcalls c' (List.mem_cons_of_mem _ hc')
  have hone : unionEvents [c] = c.events := UInt32.zero_or
  have hunion : unionEvents (c :: later) = c.events ↔
      ∀ c' ∈ later, c.events ||| c'.events = c.events := by
    rw [← foldl_or_eq_self_iff, ← hone]
    rfl
  obtain ⟨key, w, hmem, hwpath, hevents, hmask, hstand, hunique⟩ := hend.entry
  have hfind := findPath_of_unique hmem hwpath hunique
  rw [← hunion]
  constructor
  · rintro ⟨⟨key', w', mask, hfind', hevents', -⟩, -⟩
    rw [show runFrom (Object.call P fnmatch) s (c :: later) =
      runFrom (Object.call P fnmatch) (s.call P fnmatch c) later from rfl, hfind] at hfind'
    cases hfind'
    exact hevents'.symm.trans hevents
  · intro hall
    have hok := eventsToMask_eq_ok_iff.mpr ⟨hend.asked, rfl⟩
    refine ⟨⟨key, w, _, hfind, hevents.trans hall.symm, hok, hmask, hstand.matchPatterns fnmatch⟩,
      ?_⟩
    change (runFrom (Object.call P fnmatch) (s.call P fnmatch c) later).reported = _
    rw [hrun hone (hunion.mp hall), hreported, reportsOf, List.append_assoc,
      show unionEvents ([] ++ [c]) = c.events from hone]
    rfl

/-- A directory with one file. -/
def watchDirectory (events : UInt32) : WatchCall := ⟨['d'], events, .fresh, some [['f']]⟩

/-- The first call asks for all that the second one does. -/
theorem merges_created :
    IsUnion Object.plainPaths (fun _ _ => false) ['d']
      [watchDirectory (eventCreated ||| eventExists), watchDirectory eventCreated] {}
      (runFrom (Object.call Object.plainPaths fun _ _ => false) {}
        [watchDirectory (eventCreated ||| eventExists), watchDirectory eventCreated]) :=
  (merges_iff Object.plainPaths rfl (fun _ _ => false) ['d'] (by decide) {} rfl
    Object.Sound.new.kernel (watchDirectory (eventCreated ||| eventExists))
    [watchDirectory eventCreated] fun c hc => by
      rcases List.mem_cons.mp hc with rfl | hc
      · exact ⟨rfl, by decide, by decide⟩
      · rw [List.mem_singleton.mp hc]
        exact ⟨rfl, by decide, by decide⟩).mpr (by decide)

/-- The second call asks for the files that exist, and they are not reported. -/
theorem not_merges :
    ¬ ∀ (P : PathInfo) (fnmatch : Str → Str → Bool) (path : Str) (s : Object)
      (calls : List WatchCall), P.hasPattern [] = false → path ≠ [] → s.findPath path = none →
      s.kernel.Sound s.buffer → calls ≠ [] → (∀ c ∈ calls, c.Watches P path) →
      IsUnion P fnmatch path calls s (runFrom (Object.call P fnmatch) s calls) := by
  intro h
  have hunion := h Object.plainPaths (fun _ _ => false) ['d'] {}
    [watchDirectory eventCreated, watchDirectory (eventCreated ||| eventExists)] rfl (by decide) rfl
    Object.Sound.new.kernel (by simp) fun c hc => by
      rcases List.mem_cons.mp hc with rfl | hc
      · exact ⟨rfl, by decide, by decide⟩
      · rw [List.mem_singleton.mp hc]
        exact ⟨rfl, by decide, by decide⟩
  exact absurd hunion.reported (by decide)

end EventDispatcher.FileChanged
