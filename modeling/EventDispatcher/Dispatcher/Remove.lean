import EventDispatcher.Dispatcher.Dispatch

/-!
# Removing a tag

`remove_matches()` erases the matches of a tag from the list while it walks over it, which leaves
the others in their order (`removeMatches_eq`).  The catch-all is not in the list: a tag is
removed exactly when it is not the tag of the catch-all (`removes_iff`).
-/

namespace EventDispatcher

open Lib

variable {U : Type}

namespace Dispatcher

/-- The loop of `dispatcher::remove_matches()`, with the position of its iterator. -/
def removeLoop (tag : ℕ) (l : List DispatcherMatch) (it : ℕ) : List DispatcherMatch :=
  if h : it < l.length then
    if l[it].tag = tag then removeLoop tag (l.eraseIdx it) it else removeLoop tag l (it + 1)
  else l
termination_by l.length - it
decreasing_by
  · rw [List.length_eraseIdx_of_lt h]
    omega
  · omega

/-- The matches before the iterator stay, those of the tag after it go. -/
lemma removeLoop_eq (tag : ℕ) (l : List DispatcherMatch) (it : ℕ) :
    removeLoop tag l it = l.take it ++ (l.drop it).filter fun m => m.tag ≠ tag := by
  induction l, it using removeLoop.induct tag with
  | case1 l it h htag ih =>
    rw [removeLoop, dif_pos h, if_pos htag, ih, List.drop_eq_getElem_cons h,
      List.filter_cons_of_neg (by simpa using htag)]
    have htake : (l.eraseIdx it).take it = l.take it := by
      rw [List.take_eraseIdx_eq_take_of_le l it it (Nat.le_refl it)]
    have hdrop : (l.eraseIdx it).drop it = l.drop (it + 1) := by
      rw [List.eraseIdx_eq_take_drop_succ, List.drop_append_of_le_length (by simp; omega)]
      simp
    rw [htake, hdrop]
  | case2 l it h htag ih =>
    rw [removeLoop, dif_pos h, if_neg htag, ih, List.drop_eq_getElem_cons h,
      List.filter_cons_of_pos (by simpa using htag), List.take_succ_eq_append_getElem h,
      List.append_assoc]
    rfl
  | case3 l it h =>
    rw [removeLoop, dif_neg h, List.take_of_length_le (by omega), List.drop_of_length_le (by omega)]
    simp

/-- **The loop** leaves the matches of the other tags. -/
lemma removeMatches_eq (d : Dispatcher) {tag : ℕ} (htag : tag ≠ 0) :
    d.removeMatches tag = { d with list := removeLoop tag d.list 0 } := by
  rw [removeMatches, if_neg htag, removeLoop_eq]
  rfl

end Dispatcher

/-! ### What a removal has to do -/

/-- The action adds no match with the tag. -/
def DispatcherAction.Avoids (tag : ℕ) : DispatcherAction U → Prop
  | .addMatch m => m.tag ≠ tag
  | .addMatches l => ∀ m ∈ l, m.tag ≠ tag
  | _ => True

namespace Dispatcher

/-- A tag is removed, and nothing else. -/
structure Removes (P : Platform) (code : UserCode U) (bound : Bound) (d : Dispatcher) (tag : ℕ) :
    Prop where
  /-- Whatever happens next, no match of the tag is executed, unless one is added. -/
  gone : ∀ actions : List (DispatcherAction U), (∀ a ∈ actions, a.Avoids tag) → ∀ msg w,
    ∀ a ∈ (runFrom (after P code bound) (d.removeMatches tag) actions).executes P code msg w,
      a.entry.tag ≠ tag
  /-- The other matches stay, in their order. -/
  others : (d.removeMatches tag).list.filter (fun m => m.tag ≠ tag) =
    d.list.filter fun m => m.tag ≠ tag
  /-- So does the catch-all of another tag. -/
  catchAll : d.catchAll.tag ≠ tag → (d.removeMatches tag).catchAll = d.catchAll
  /-- When the catch-all had the tag, there is room for another one. -/
  again : d.catchAll.tag = tag → ∀ m, m.func = .alwaysMatch →
    ∃ d', (d.removeMatches tag).addMatch m = .ok d' ∧ d'.catchAll = m

/-- No match of the tag can be executed. -/
structure Free (tag : ℕ) (d : Dispatcher) : Prop where
  list : ∀ m ∈ d.list, m.tag ≠ tag
  catchAll : d.catchAll.callback.isSome = true → d.catchAll.tag ≠ tag

variable {P : Platform} {code : UserCode U} {bound : Bound} {d : Dispatcher} {tag : ℕ}

lemma mem_insertMatch {m m' : DispatcherMatch} {l : List DispatcherMatch} :
    m' ∈ insertMatch m l ↔ m' = m ∨ m' ∈ l := by
  rw [insertMatch, List.mem_append, List.mem_cons, or_left_comm, ← List.mem_append,
    List.takeWhile_append_dropWhile]

lemma Free.addMatches (h : Free tag d) {l : List DispatcherMatch} (hl : ∀ m ∈ l, m.tag ≠ tag) :
    Free tag (d.addMatches l).2 := by
  induction l generalizing d with
  | nil => exact h
  | cons m l ih =>
    have hm := hl m List.mem_cons_self
    rw [Dispatcher.addMatches]
    cases hadd : d.addMatch m with
    | error e => exact h
    | ok d' =>
      refine ih ?_ fun m' hm' => hl m' (List.mem_cons_of_mem _ hm')
      rw [addMatch] at hadd
      split_ifs at hadd
      · cases hadd
        exact ⟨h.list, fun _ => hm⟩
      · cases hadd
        refine ⟨fun m' hm' => ?_, h.catchAll⟩
        rcases mem_insertMatch.mp hm' with rfl | hm'
        · exact hm
        · exact h.list m' hm'

/-- The system matches have no tag. -/
lemma tag_communicatorCommands (htag : tag ≠ 0) (autoCatchAll : Bool) :
    ∀ m ∈ Declared.communicatorCommands bound autoCatchAll, m.tag ≠ tag := by
  intro m hm
  have hzero : m.tag = 0 := by
    rw [Declared.communicatorCommands, List.mem_append, List.mem_map] at hm
    rcases hm with ⟨c, -, rfl⟩ | hm
    · rfl
    · split_ifs at hm
      · rw [List.mem_singleton] at hm
        rw [hm]
      · cases hm
  rw [hzero]
  exact htag.symm

lemma Free.dispatch (h : Free tag d) (msg : Message) (w : World U) :
    Free tag (d.dispatch P code msg w).1 := by
  obtain ⟨hlist, hcatch⟩ := d.declared_dispatch P code msg w
  have htags : ((d.dispatch P code msg w).1.list.map DispatcherMatch.declared).map
      DispatcherMatch.tag = (d.list.map DispatcherMatch.declared).map DispatcherMatch.tag := by
    rw [hlist]
  refine ⟨fun m hm => ?_, fun hsome => ?_⟩
  · have hmem : m.tag ∈ (d.list.map DispatcherMatch.declared).map DispatcherMatch.tag := by
      rw [← htags, List.map_map]
      exact List.mem_map_of_mem hm
    rw [List.map_map] at hmem
    obtain ⟨m', hm', heq⟩ := List.mem_map.mp hmem
    rw [← heq]
    exact h.list m' hm'
  · obtain ⟨-, hcallback, -, htag, -⟩ := DispatcherMatch.mk.inj hcatch
    rw [htag]
    exact h.catchAll (hcallback ▸ hsome)

/-- **Every action** that adds no match of the tag leaves none. -/
lemma Free.after (htag : tag ≠ 0) (h : Free tag d) {a : DispatcherAction U} (ha : a.Avoids tag) :
    Free tag (d.after P code bound a) := by
  cases a with
  | addMatch m => exact h.addMatches fun m' hm' => List.mem_singleton.mp hm' ▸ ha
  | addMatches l => exact h.addMatches ha
  | addCommunicatorCommands autoCatchAll =>
    rw [Dispatcher.after, addCommunicatorCommands_eq]
    exact h.addMatches (tag_communicatorCommands htag autoCatchAll)
  | removeMatches tag' =>
    rw [Dispatcher.after, removeMatches]
    split_ifs
    · exact h
    · exact ⟨fun m hm => h.list m (List.mem_filter.mp hm).1, h.catchAll⟩
  | dispatch msg w => exact h.dispatch msg w

/-- The matches that are asked are in the list. -/
lemma entry_mem_of_asked {l : List DispatcherMatch} {msg : Message} {w : World U} {a : Asked U}
    (ha : a ∈ asked P code l msg w) : a.entry ∈ l := by
  induction l generalizing msg w with
  | nil => cases ha
  | cons m l ih =>
    rw [asked] at ha
    split at ha
    · cases ha
    · rcases List.mem_cons.mp ha with rfl | ha
      · exact List.mem_cons_self
      · split at ha
        · exact List.mem_cons_of_mem _ (ih ha)
        · cases ha

lemma Free.executes (h : Free tag d) (msg : Message) (w : World U) :
    ∀ a ∈ d.executes P code msg w, a.entry.tag ≠ tag :=
  forall_executes.mpr ⟨fun _ ha _ => h.list _ (entry_mem_of_asked ha), fun hend =>
    h.catchAll hend.2⟩

/-- The tag is removed exactly when it is not the one of a catch-all. -/
lemma removes_iff_tag (htag : tag ≠ 0) :
    d.Removes P code bound tag ↔ ¬ (d.catchAll.callback.isSome = true ∧ d.catchAll.tag = tag) := by
  have hremove : d.removeMatches tag =
      { d with list := d.list.filter fun m => m.tag ≠ tag } := by rw [removeMatches, if_neg htag]
  constructor
  · rintro h ⟨hsome, hown⟩
    obtain ⟨d', hd', -⟩ := h.again hown { func := .alwaysMatch } rfl
    rw [hremove, addMatch, if_pos rfl, if_pos hsome] at hd'
    cases hd'
  · intro h
    have hfree : Free tag (d.removeMatches tag) := by
      rw [hremove]
      exact ⟨fun m hm => by simpa using (List.mem_filter.mp hm).2, fun hsome heq =>
        h ⟨hsome, heq⟩⟩
    refine ⟨fun actions hactions msg w => ?_, ?_, fun _ => by rw [hremove], fun hown m hm => ?_⟩
    · have hstep : ∀ (d : Dispatcher) (a : DispatcherAction U), Free tag d → a.Avoids tag →
          Free tag (d.after P code bound a) := fun d a hd ha => hd.after htag ha
      have hend : Free tag (runFrom (after P code bound) (d.removeMatches tag) actions) :=
        (invariant_of_visited hstep hfree fun p hp => hactions _ (mem_of_mem_visited hp)).2
      exact hend.executes msg w
    · rw [hremove]
      simp
    · have hnone : ¬ d.catchAll.callback.isSome = true := fun hsome => h ⟨hsome, hown⟩
      rw [hremove, addMatch, if_pos hm, if_neg hnone]
      exact ⟨_, rfl, rfl⟩

/-- **In every reachable dispatcher** a tag is removed, with nothing else, exactly when there is no
catch-all with that tag. -/
theorem removes_iff (P : Platform) (code : UserCode U) (bound : Bound) (trace : Bool)
    (actions : List (DispatcherAction U)) {tag : ℕ} (htag : tag ≠ 0) :
    (runFrom (after P code bound) { trace := trace } actions).Removes P code bound tag ↔
      ¬ ((runFrom (after P code bound) { trace := trace } actions).catchAll.callback.isSome = true ∧
        (runFrom (after P code bound) { trace := trace } actions).catchAll.tag = tag) :=
  removes_iff_tag htag

/-- Code that does nothing. -/
def idleCode : UserCode Unit where
  matchFunc _ _ msg w := ⟨.ok .matchFalse, msg, w.user, []⟩
  callback _ msg w := ⟨.ok (), msg, w.user, []⟩

/-- A match with the tag 5. -/
def tagged : DispatcherMatch := { expr := some ['A'], callback := some 0, tag := 5 }

/-- A catch-all with the tag 5. -/
def taggedCatchAll : DispatcherMatch := { callback := some 1, func := .alwaysMatch, tag := 5 }

/-- A dispatcher with one match. -/
def oneMatch (m : DispatcherMatch) : Dispatcher :=
  runFrom (after .standard idleCode fun _ => 0) {} [.addMatch m]

/-- A match is removed. -/
theorem removes_iff_tagged :
    (oneMatch tagged).Removes .standard idleCode (fun _ => 0) 5 ↔
      ¬ ((oneMatch tagged).catchAll.callback.isSome = true ∧ (oneMatch tagged).catchAll.tag = 5) :=
  removes_iff .standard idleCode (fun _ => 0) false [.addMatch tagged] (by decide)

/-- A catch-all is not removed: it is still executed, and no other one can be added. -/
theorem not_removes_taggedCatchAll :
    ((oneMatch taggedCatchAll).removeMatches 5).catchAll = taggedCatchAll ∧
      ((oneMatch taggedCatchAll).removeMatches 5).addMatch taggedCatchAll =
        .error ⟨.implementationError, secondAlwaysMatchText taggedCatchAll⟩ ∧
      ¬ (oneMatch taggedCatchAll).Removes .standard idleCode (fun _ => 0) 5 := by
  refine ⟨rfl, rfl, fun h => ?_⟩
  obtain ⟨d', hd', -⟩ := h.again rfl taggedCatchAll rfl
  cases hd'

end Dispatcher

end EventDispatcher
