import Mathlib.Data.List.Sort
import Mathlib.Data.List.Perm.Subperm
import Mathlib.Order.Basic

/-!
# Finite maps as strictly sorted association lists

The ordered map of a program that is walked from its smallest key to its largest one is a list
of entries whose keys increase strictly.  The order is a field of the structure, so two maps
with the same entries are equal and a map never holds a key twice.

`insert` overwrites, `find?` looks up, and inserting a sorted list of entries one after the
other rebuilds the map it is the list of (`insertAll_entries`).
-/

namespace Lib

/-- A finite map, given by its entries in increasing order of their keys. -/
@[ext]
structure SortedMap (κ ν : Type*) [LinearOrder κ] where
  /-- The entries of the map. -/
  entries : List (κ × ν)
  /-- The keys increase strictly. -/
  sorted : entries.Pairwise fun a b => a.1 < b.1

namespace SortedMap

variable {κ ν : Type*} [LinearOrder κ]

instance [DecidableEq ν] : DecidableEq (SortedMap κ ν) := fun m n =>
  decidable_of_iff (m.entries = n.entries) SortedMap.ext_iff.symm

/-- The map without entries. -/
def empty : SortedMap κ ν := ⟨[], List.Pairwise.nil⟩

instance : EmptyCollection (SortedMap κ ν) := ⟨empty⟩

instance : Inhabited (SortedMap κ ν) := ⟨∅⟩

@[simp] lemma entries_empty : (∅ : SortedMap κ ν).entries = [] := rfl

/-- The value of a key. -/
def find? (m : SortedMap κ ν) (k : κ) : Option ν := (m.entries.find? fun e => e.1 == k).map Prod.snd

/-- The keys of a map, from the smallest one. -/
def keys (m : SortedMap κ ν) : List κ := m.entries.map Prod.fst

/-- Insertion in a sorted list of entries; an entry with the same key is overwritten. -/
def insertEntry (k : κ) (v : ν) : List (κ × ν) → List (κ × ν)
  | [] => [(k, v)]
  | e :: l =>
      if k < e.1 then (k, v) :: e :: l
      else if k = e.1 then (k, v) :: l
      else e :: insertEntry k v l

lemma mem_insertEntry {k : κ} {v : ν} {e : κ × ν} :
    ∀ {l : List (κ × ν)}, e ∈ insertEntry k v l → e = (k, v) ∨ e ∈ l
  | [], h => by simpa [insertEntry] using h
  | e' :: l, h => by
    rw [insertEntry] at h
    split at h
    · simpa using h
    · split at h
      · rcases List.mem_cons.mp h with h | h
        · exact Or.inl h
        · exact Or.inr (List.mem_cons_of_mem _ h)
      · rcases List.mem_cons.mp h with rfl | h
        · exact Or.inr List.mem_cons_self
        · exact (mem_insertEntry h).imp id (List.mem_cons_of_mem _)

lemma insertEntry_sorted (k : κ) (v : ν) : ∀ {l : List (κ × ν)},
    (l.Pairwise fun a b => a.1 < b.1) → (insertEntry k v l).Pairwise fun a b => a.1 < b.1
  | [], _ => List.pairwise_singleton _ _
  | e :: l, h => by
    obtain ⟨he, hl⟩ := List.pairwise_cons.mp h
    rw [insertEntry]
    split
    · rename_i hlt
      refine List.pairwise_cons.mpr ⟨fun b hb => ?_, h⟩
      rcases List.mem_cons.mp hb with rfl | hb
      · exact hlt
      · exact hlt.trans (he b hb)
    · rename_i hge
      split
      · rename_i heq
        exact List.pairwise_cons.mpr ⟨fun b hb => heq ▸ he b hb, hl⟩
      · rename_i hne
        refine List.pairwise_cons.mpr ⟨fun b hb => ?_, insertEntry_sorted k v hl⟩
        rcases mem_insertEntry hb with rfl | hb
        · exact lt_of_le_of_ne (not_lt.mp hge) (Ne.symm hne)
        · exact he b hb

/-- The map with the value `v` for the key `k`. -/
def insert (m : SortedMap κ ν) (k : κ) (v : ν) : SortedMap κ ν :=
  ⟨insertEntry k v m.entries, insertEntry_sorted k v m.sorted⟩

/-- The map with a list of entries inserted one after the other. -/
def insertAll (m : SortedMap κ ν) (l : List (κ × ν)) : SortedMap κ ν :=
  l.foldl (fun m e => m.insert e.1 e.2) m

@[simp] lemma insertAll_nil (m : SortedMap κ ν) : m.insertAll [] = m := rfl

@[simp] lemma insertAll_cons (m : SortedMap κ ν) (e : κ × ν) (l : List (κ × ν)) :
    m.insertAll (e :: l) = (m.insert e.1 e.2).insertAll l := rfl

lemma insertAll_append (m : SortedMap κ ν) (l₁ l₂ : List (κ × ν)) :
    m.insertAll (l₁ ++ l₂) = (m.insertAll l₁).insertAll l₂ :=
  List.foldl_append

/-- The map without a key. -/
def erase (m : SortedMap κ ν) (k : κ) : SortedMap κ ν :=
  ⟨m.entries.filter fun e => e.1 ≠ k, m.sorted.filter _⟩

lemma mem_erase_iff {m : SortedMap κ ν} {k k' : κ} {v : ν} :
    (k', v) ∈ (m.erase k).entries ↔ k' ≠ k ∧ (k', v) ∈ m.entries := by
  rw [erase, List.mem_filter, and_comm]
  simp

/-! ### Looking up -/

lemma find?_insertEntry (k k' : κ) (v : ν) : ∀ l : List (κ × ν),
    (l.Pairwise fun a b => a.1 < b.1) →
    ((insertEntry k v l).find? fun e => e.1 == k').map Prod.snd =
      if k = k' then some v else (l.find? fun e => e.1 == k').map Prod.snd
  | [], _ => by
    by_cases h : k = k' <;> simp [insertEntry, h]
  | e :: l, hl => by
    obtain ⟨he, hl'⟩ := List.pairwise_cons.mp hl
    rw [insertEntry]
    split
    · by_cases h : k = k' <;> simp [h]
    · split
      · rename_i heq
        by_cases h : k = k'
        · simp [h]
        · have h' : ¬ e.1 = k' := fun h' => h (heq.trans h')
          simp [h, h']
      · rename_i hne
        rw [List.find?_cons, List.find?_cons]
        by_cases h' : e.1 = k'
        · have h : ¬ k = k' := fun h => hne (h.trans h'.symm)
          simp [h, h']
        · have hb : (e.1 == k') = false := by simpa using h'
          rw [hb]
          exact find?_insertEntry k k' v l hl'

/-- Reading after an insertion. -/
lemma find?_insert (m : SortedMap κ ν) (k k' : κ) (v : ν) :
    (m.insert k v).find? k' = if k = k' then some v else m.find? k' :=
  find?_insertEntry k k' v m.entries m.sorted

@[simp] lemma find?_insert_self (m : SortedMap κ ν) (k : κ) (v : ν) :
    (m.insert k v).find? k = some v := by
  rw [find?_insert, if_pos rfl]

/-- An entry of the map is what its key is mapped to. -/
lemma find?_eq_some_iff {m : SortedMap κ ν} {k : κ} {v : ν} :
    m.find? k = some v ↔ (k, v) ∈ m.entries := by
  have hs := m.sorted
  rw [find?]
  generalize m.entries = l at hs
  induction l with
  | nil => simp
  | cons e l ih =>
    obtain ⟨he, hl⟩ := List.pairwise_cons.mp hs
    have ih := ih hl
    rw [List.find?_cons]
    by_cases hk : e.1 = k
    · subst hk
      constructor
      · intro h
        obtain ⟨a, b⟩ := e
        simp only [beq_self_eq_true, Option.map_some, Option.some.injEq] at h
        simp [h]
      · intro h
        rcases List.mem_cons.mp h with h | h
        · obtain rfl : v = e.2 := congrArg Prod.snd h
          simp
        · exact absurd (he _ h) (lt_irrefl _)
    · have hb : (e.1 == k) = false := by simpa using hk
      rw [hb]
      refine ih.trans ⟨List.mem_cons_of_mem _, fun h => ?_⟩
      rcases List.mem_cons.mp h with h | h
      · exact absurd (by rw [← h]) hk
      · exact h

/-- Reading after a removal. -/
lemma find?_erase (m : SortedMap κ ν) (k k' : κ) :
    (m.erase k).find? k' = if k' = k then none else m.find? k' := by
  rw [Option.ext_iff]
  intro v
  rw [find?_eq_some_iff, mem_erase_iff]
  split_ifs with h
  · simp [h]
  · simp [h, find?_eq_some_iff]

/-- A key that is not there is not removed. -/
lemma erase_of_find?_eq_none {m : SortedMap κ ν} {k : κ} (h : m.find? k = none) :
    m.erase k = m := by
  refine SortedMap.ext (List.filter_eq_self.mpr fun e he => ?_)
  have hne : e.1 ≠ k := by
    rintro rfl
    rw [find?_eq_some_iff.mpr he] at h
    cases h
  simpa using hne

/-- The entries of the result of an insertion. -/
lemma mem_insert_iff {m : SortedMap κ ν} {k k' : κ} {v v' : ν} :
    (k', v') ∈ (m.insert k v).entries ↔ (k = k' ∧ v = v') ∨ (k ≠ k' ∧ (k', v') ∈ m.entries) := by
  rw [← find?_eq_some_iff, find?_insert]
  by_cases h : k = k'
  · simp [h]
  · simp [h, find?_eq_some_iff]

lemma mem_keys_iff {m : SortedMap κ ν} {k : κ} : k ∈ m.keys ↔ ∃ v, (k, v) ∈ m.entries := by
  simp [keys]

lemma mem_keys_insert {m : SortedMap κ ν} {k k' : κ} {v : ν} :
    k' ∈ (m.insert k v).keys ↔ k' = k ∨ k' ∈ m.keys := by
  simp only [mem_keys_iff, mem_insert_iff]
  constructor
  · rintro ⟨v', ⟨rfl, -⟩ | ⟨-, h⟩⟩
    · exact Or.inl rfl
    · exact Or.inr ⟨v', h⟩
  · rintro (rfl | ⟨v', h⟩)
    · exact ⟨v, Or.inl ⟨rfl, rfl⟩⟩
    · by_cases hk : k = k'
      · exact ⟨v, Or.inl ⟨hk, rfl⟩⟩
      · exact ⟨v', Or.inr ⟨hk, h⟩⟩

lemma mem_keys_insertAll {k : κ} : ∀ {l : List (κ × ν)} {m : SortedMap κ ν},
    k ∈ (m.insertAll l).keys ↔ k ∈ m.keys ∨ k ∈ l.map Prod.fst
  | [], m => by simp
  | e :: l, m => by
    rw [insertAll_cons, mem_keys_insertAll, mem_keys_insert, List.map_cons, List.mem_cons]
    tauto

lemma mem_insertAll {k : κ} {v : ν} : ∀ {l : List (κ × ν)} {m : SortedMap κ ν},
    (k, v) ∈ (m.insertAll l).entries → (k, v) ∈ m.entries ∨ (k, v) ∈ l
  | [], _, h => Or.inl h
  | e :: l, m, h => by
    rcases mem_insertAll (l := l) h with h | h
    · rcases mem_insert_iff.mp h with ⟨hk, hv⟩ | ⟨-, h⟩
      · exact Or.inr (by simp [← hk, ← hv])
      · exact Or.inl h
    · exact Or.inr (List.mem_cons_of_mem _ h)

lemma find?_insertAll_of_notMem {k : κ} : ∀ {l : List (κ × ν)} {m : SortedMap κ ν},
    k ∉ l.map Prod.fst → (m.insertAll l).find? k = m.find? k
  | [], _, _ => rfl
  | e :: l, m, h => by
    rw [List.map_cons, List.mem_cons, not_or] at h
    rw [insertAll_cons, find?_insertAll_of_notMem h.2, find?_insert, if_neg (Ne.symm h.1)]

/-- Each entry of a list without a key twice is found. -/
lemma find?_insertAll_of_mem {k : κ} {v : ν} : ∀ {l : List (κ × ν)} {m : SortedMap κ ν},
    (l.map Prod.fst).Nodup → (k, v) ∈ l → (m.insertAll l).find? k = some v
  | e :: l, m, hnodup, h => by
    obtain ⟨he, hl⟩ := List.nodup_cons.mp hnodup
    rw [insertAll_cons]
    rcases List.mem_cons.mp h with rfl | h
    · rw [find?_insertAll_of_notMem he, find?_insert_self]
    · exact find?_insertAll_of_mem hl h

/-! ### Rebuilding a map from its entries -/

lemma insertEntry_of_lt {k : κ} {v : ν} : ∀ {l : List (κ × ν)}, (∀ e ∈ l, e.1 < k) →
    insertEntry k v l = l ++ [(k, v)]
  | [], _ => rfl
  | e :: l, h => by
    have he := h e (by simp)
    rw [insertEntry, if_neg he.not_gt, if_neg he.ne', List.cons_append,
      insertEntry_of_lt fun e' he' => h e' (by simp [he'])]

/-- Inserting increasing entries above all the keys of a map appends them. -/
lemma insertAll_entries_of_lt : ∀ {l : List (κ × ν)} {m : SortedMap κ ν},
    (m.entries ++ l).Pairwise (fun a b => a.1 < b.1) → (m.insertAll l).entries = m.entries ++ l
  | [], m, _ => by simp
  | e :: l, m, h => by
    have hlt : ∀ e' ∈ m.entries, e'.1 < e.1 := fun e' he' =>
      (List.pairwise_append.mp h).2.2 e' he' e (by simp)
    have hins : (m.insert e.1 e.2).entries = m.entries ++ [e] := insertEntry_of_lt hlt
    rw [insertAll_cons, insertAll_entries_of_lt (by simpa [hins] using h), hins]
    simp

/-- A map is rebuilt from its list of entries. -/
theorem insertAll_entries (m : SortedMap κ ν) : (∅ : SortedMap κ ν).insertAll m.entries = m :=
  SortedMap.ext (insertAll_entries_of_lt (by simpa using m.sorted))

/-! ### The keys of a list of entries -/

lemma keys_pairwise (m : SortedMap κ ν) : m.keys.Pairwise (· < ·) :=
  List.pairwise_map.mpr m.sorted

lemma keys_nodup (m : SortedMap κ ν) : m.keys.Nodup := m.keys_pairwise.imp ne_of_lt

/-- Two maps that give the same value for each key are equal. -/
lemma ext_find? {m n : SortedMap κ ν} (h : ∀ k, m.find? k = n.find? k) : m = n := by
  have hnodup (m : SortedMap κ ν) : m.entries.Nodup := List.Nodup.of_map Prod.fst m.keys_nodup
  have hperm : m.entries.Perm n.entries := by
    refine (List.perm_ext_iff_of_nodup (hnodup m) (hnodup n)).mpr fun e => ?_
    rw [← find?_eq_some_iff, ← find?_eq_some_iff, h]
  refine SortedMap.ext (hperm.eq_of_pairwise (fun a b _ _ hab hba => ?_) m.sorted n.sorted)
  exact absurd hba hab.asymm

/-- An insertion changes nothing when the value is already there. -/
lemma insert_eq_self_iff {m : SortedMap κ ν} {k : κ} {v : ν} :
    m.insert k v = m ↔ m.find? k = some v := by
  constructor
  · intro h
    rw [← h, find?_insert_self]
  · intro h
    refine ext_find? fun k' => ?_
    rw [find?_insert]
    split_ifs with hk
    · rw [← hk, h]
    · rfl

lemma mem_keys_ofEntries {l : List (κ × ν)} {k : κ} :
    k ∈ ((∅ : SortedMap κ ν).insertAll l).keys ↔ k ∈ l.map Prod.fst := by
  rw [mem_keys_insertAll]
  exact or_iff_right (by simp [keys])

/-- A map keeps as many keys as there are entries exactly when no key is there twice. -/
lemma length_le_keys_iff {l : List (κ × ν)} :
    l.length ≤ ((∅ : SortedMap κ ν).insertAll l).keys.length ↔ (l.map Prod.fst).Nodup := by
  set m := (∅ : SortedMap κ ν).insertAll l
  have hsub : m.keys.Subperm (l.map Prod.fst) :=
    List.Nodup.subperm m.keys_nodup fun k hk => mem_keys_ofEntries.mp hk
  constructor
  · intro h
    have hperm := hsub.perm_of_length_le (by rwa [List.length_map])
    exact hperm.nodup_iff.mp m.keys_nodup
  · intro h
    have hle := (List.Nodup.subperm h fun k hk => mem_keys_ofEntries.mpr hk).length_le
    rwa [List.length_map] at hle

/-- The keys of a list without a key twice are a permutation of those of the map. -/
lemma keys_ofEntries_perm {l : List (κ × ν)} (h : (l.map Prod.fst).Nodup) :
    ((∅ : SortedMap κ ν).insertAll l).keys.Perm (l.map Prod.fst) :=
  (List.perm_ext_iff_of_nodup (keys_nodup _) h).mpr fun _ => mem_keys_ofEntries

/-! ### Changing the value of the largest key -/

/-- The list with the value of its last entry changed. -/
def mapLastEntry (g : ν → ν) : List (κ × ν) → List (κ × ν)
  | [] => []
  | [e] => [(e.1, g e.2)]
  | e :: e' :: l => e :: mapLastEntry g (e' :: l)

omit [LinearOrder κ] in
lemma mapLastEntry_keys (g : ν → ν) : ∀ l : List (κ × ν),
    (mapLastEntry g l).map Prod.fst = l.map Prod.fst
  | [] => rfl
  | [_] => rfl
  | e :: e' :: l => by
    rw [mapLastEntry, List.map_cons, mapLastEntry_keys g (e' :: l)]
    rfl

omit [LinearOrder κ] in
lemma mem_mapLastEntry {g : ν → ν} {e : κ × ν} : ∀ {l : List (κ × ν)}, e ∈ mapLastEntry g l →
    e ∈ l ∨ ∃ e' ∈ l, e = (e'.1, g e'.2)
  | [], h => by cases h
  | [e'], h => Or.inr ⟨e', by simp, by simpa [mapLastEntry] using h⟩
  | e' :: e'' :: l, h => by
    rw [mapLastEntry] at h
    rcases List.mem_cons.mp h with rfl | h
    · exact Or.inl List.mem_cons_self
    · rcases mem_mapLastEntry h with h | ⟨d, hd, h⟩
      · exact Or.inl (List.mem_cons_of_mem _ h)
      · exact Or.inr ⟨d, List.mem_cons_of_mem _ hd, h⟩

omit [LinearOrder κ] in
lemma mapLastEntry_eq_self_iff {g : ν → ν} : ∀ {l : List (κ × ν)},
    mapLastEntry g l = l ↔ ∀ e, l.getLast? = some e → g e.2 = e.2
  | [] => by simp [mapLastEntry]
  | [e] => by simp [mapLastEntry, Prod.ext_iff]
  | e :: e' :: l => by
    rw [mapLastEntry, List.cons_inj_right, mapLastEntry_eq_self_iff]
    simp [List.getLast?_cons]

/-- The map with the value of its largest key changed. -/
def mapLast (m : SortedMap κ ν) (g : ν → ν) : SortedMap κ ν :=
  ⟨mapLastEntry g m.entries, by
    have h := List.pairwise_map.mpr m.sorted
    rw [← mapLastEntry_keys g] at h
    exact List.pairwise_map.mp h⟩

lemma keys_mapLast (m : SortedMap κ ν) (g : ν → ν) : (m.mapLast g).keys = m.keys :=
  mapLastEntry_keys g m.entries

lemma mapLast_eq_self_iff {m : SortedMap κ ν} {g : ν → ν} :
    m.mapLast g = m ↔ ∀ e, m.entries.getLast? = some e → g e.2 = e.2 :=
  SortedMap.ext_iff.trans mapLastEntry_eq_self_iff

/-! ### Changing every value -/

/-- The map with every value changed to one of another type. -/
def mapTo {μ : Type*} (m : SortedMap κ ν) (g : ν → μ) : SortedMap κ μ :=
  ⟨m.entries.map fun e => (e.1, g e.2), List.pairwise_map.mpr m.sorted⟩

lemma find?_mapTo {μ : Type*} (m : SortedMap κ ν) (g : ν → μ) (k : κ) :
    (m.mapTo g).find? k = (m.find? k).map g := by
  rw [find?, find?, mapTo]
  simp only
  generalize m.entries = l
  induction l with
  | nil => rfl
  | cons e l ih =>
    rw [List.map_cons, List.find?_cons, List.find?_cons]
    cases hk : e.1 == k with
    | true => rfl
    | false => simpa [hk] using ih

/-- The map with every value changed. -/
def mapValues (m : SortedMap κ ν) (g : ν → ν) : SortedMap κ ν :=
  ⟨m.entries.map fun e => (e.1, g e.2), List.pairwise_map.mpr m.sorted⟩

lemma keys_mapValues (m : SortedMap κ ν) (g : ν → ν) : (m.mapValues g).keys = m.keys := by
  simp [keys, mapValues]

lemma find?_mapValues (m : SortedMap κ ν) (g : ν → ν) (k : κ) :
    (m.mapValues g).find? k = (m.find? k).map g :=
  m.find?_mapTo g k

end SortedMap

end Lib
