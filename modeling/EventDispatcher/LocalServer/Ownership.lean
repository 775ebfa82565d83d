import EventDispatcher.LocalServer.Construct
import EventDispatcher.Lib.Run

/-!
# Who owns the socket file

While a server lives no other one should be constructed on its path, and its file should stay.  The
constructors keep this as long as the one that is told to reuse the address can see that a server
lives there: it has to be a stream server, on the path of a stream server with room in its backlog
(`keeps_file_iff`).  The destructor deletes a file without looking whose it is, and this does no
harm as long as the constructors do none.
-/

namespace EventDispatcher.LocalServer

open Lib

/-- The files that the live servers were given. -/
def State.files (s : State) : List File := s.servers.map Server.file

/-- One server lives at most, and the file of the path is the one that it made. -/
structure Kept (s : State) : Prop where
  /-- No second one was constructed. -/
  one : s.servers.length ≤ 1
  /-- Its file is there, with the permissions and the group that it was given. -/
  owns : ∀ a ∈ s.servers, s.file = some a.file

/-- The path stays as it is, although a connection may wait for a server. -/
structure SamePath (s s' : State) : Prop where
  /-- The file. -/
  file : s'.file = s.file
  /-- The servers. -/
  files : s'.files = s.files
  /-- No file was made. -/
  nextInode : s'.nextInode = s.nextInode

/-- The file of the path is gone, or is a socket that was made since. -/
structure Making (s s' : State) : Prop where
  /-- The servers. -/
  files : s'.files = s.files
  /-- The file. -/
  file : ∀ f, s'.file = some f → f.isSocket = true ∧ s.nextInode ≤ f.inode ∧
    f.inode < s'.nextInode

/-- The path was given away: there may be one more server, with the new file. -/
structure Given (s s' : State) : Prop where
  /-- The file. -/
  file : ∀ f, s'.file = some f → f.isSocket = true ∧ s.nextInode ≤ f.inode ∧
    f.inode < s'.nextInode
  /-- The servers. -/
  files : s'.files = s.files ∨ ∃ f, s'.file = some f ∧ s'.files = s.files ++ [f]

/-- What the machine keeps. -/
structure Sound (s : State) : Prop extends Kept s where
  /-- A server has a socket. -/
  isSocket : ∀ a ∈ s.servers, a.file.isSocket = true
  /-- The files that will be made are other ones. -/
  fresh : ∀ f, s.file = some f → f.inode < s.nextInode

variable {capacity : ℕ → ℕ} {s s' : State}

lemma kept_iff : Kept s ↔ s.files.length ≤ 1 ∧ ∀ f ∈ s.files, s.file = some f := by
  simp only [State.files, List.length_map, List.mem_map, forall_exists_index, and_imp,
    forall_apply_eq_imp_iff₂]
  exact ⟨fun h => ⟨h.one, h.owns⟩, fun h => ⟨h.1, h.2⟩⟩

lemma sound_iff : Sound s ↔ (s.files.length ≤ 1 ∧ ∀ f ∈ s.files, s.file = some f) ∧
    (∀ f ∈ s.files, f.isSocket = true) ∧ ∀ f, s.file = some f → f.inode < s.nextInode := by
  rw [← kept_iff]
  simp only [State.files, List.mem_map, forall_exists_index, and_imp, forall_apply_eq_imp_iff₂]
  exact ⟨fun h => ⟨h.toKept, h.isSocket, h.fresh⟩, fun h => ⟨h.1, h.2.1, h.2.2⟩⟩

/-! ### The calls -/

lemma SamePath.refl (s : State) : SamePath s s := ⟨rfl, rfl, rfl⟩

lemma SamePath.sound (h : SamePath s s') (hs : Sound s) : Sound s' := by
  rw [sound_iff] at hs ⊢
  rwa [h.files, h.file, h.nextInode]

lemma samePath_enqueue (s : State) : SamePath s s.enqueue := by
  refine ⟨rfl, ?_, rfl⟩
  rw [State.files, State.files, State.enqueue, List.map_map]
  refine List.map_congr_left fun a _ => ?_
  simp only [Function.comp_apply]
  split <;> rfl

/-- A connection changes nothing on the path. -/
lemma samePath_connect (s : State) : SamePath s (s.connect capacity).2 := by
  rw [State.connect]
  split
  · exact .refl s
  · split
    · exact samePath_enqueue s
    · exact .refl s

lemma samePath_testConnection (k : Kernel) (s : State) :
    SamePath s (testConnection capacity k s).2 := by
  rw [testConnection]
  split
  · exact .refl s
  · exact samePath_connect s

lemma Making.bind (h : s.file = none) (k : Kernel) : Making s (s.bind k).2 := by
  rw [State.bind]
  split
  · exact ⟨rfl, fun f hf => by simp [h] at hf⟩
  · refine ⟨rfl, fun f hf => ?_⟩
    obtain rfl := Option.some.inj hf
    exact ⟨rfl, le_rfl, Nat.lt_succ_self _⟩

lemma Making.chownnm (h : Making s s') (k : Kernel) (group : Str) :
    Making s (s'.chownnm k group).2 := by
  rw [State.chownnm]
  split
  · exact h
  · refine ⟨h.files, fun f hf => ?_⟩
    obtain ⟨f', hf', rfl⟩ := Option.map_eq_some_iff.mp hf
    exact h.file f' hf'

lemma Making.chmod (h : Making s s') (k : Kernel) (mode : ℕ) :
    Making s (s'.chmod k mode).2 := by
  rw [State.chmod]
  split
  · exact h
  · refine ⟨h.files, fun f hf => ?_⟩
    obtain ⟨f', hf', rfl⟩ := Option.map_eq_some_iff.mp hf
    exact h.file f' hf'

/-- `chmod()` succeeds on a file that exists. -/
lemma exists_of_chmod {k : Kernel} {mode : ℕ} (h : (s.chmod k mode).1 = true) :
    ∃ f, (s.chmod k mode).2.file = some f := by
  unfold State.chmod at h ⊢
  split_ifs at h ⊢ with hfails
  rw [not_or, Bool.not_eq_true, Option.isNone_eq_false_iff, Option.isSome_iff_exists] at hfails
  obtain ⟨⟨f, hf⟩, -⟩ := hfails
  exact ⟨{ f with mode := mode }, by simp [hf]⟩

/-! ### The constructors -/

/-- Once there is no file, the constructors make theirs, or fail. -/
lemma making_bindFile (a : Address) (k : Kernel) (h : s.file = none) :
    Making s (bindFile a k s).2 ∧
      ((bindFile a k s).1 = .ok true → ∃ f, (bindFile a k s).2.file = some f) := by
  have hchown : Making s
      (if a.group = [] then (true, (s.bind k).2) else (s.bind k).2.chownnm k a.group).2 := by
    split
    · exact .bind h k
    · exact (Making.bind h k).chownnm k a.group
  unfold bindFile
  extract_lets b c
  change Making s c.2 at hchown
  split
  · exact ⟨hchown, nofun⟩
  · split
    · split
      · rename_i hmode
        exact ⟨hchown.chmod k a.mode, fun _ => exists_of_chmod hmode⟩
      · exact ⟨hchown.chmod k a.mode, nofun⟩
    · exact ⟨hchown, nofun⟩

lemma Making.given (h : Making s s') : Given s s' := ⟨h.file, Or.inl h.files⟩

lemma Making.construct (h : Making s s') {f : File} (hf : s'.file = some f) (cls : ServerClass) :
    Given s (s'.construct cls) := by
  refine ⟨h.file, Or.inr ⟨f, hf, ?_⟩⟩
  have hfiles : (s'.construct cls).files = s'.files ++ [f] := by
    simp [State.files, State.construct, hf]
  rw [hfiles, h.files]

lemma given_streamBind (a : Address) (maxConnections : ℤ) (k : Kernel) (h : s.file = none) :
    Given s (streamBind a maxConnections k s).2 := by
  obtain ⟨hmaking, hbound⟩ := making_bindFile a k h
  rw [streamBind]
  split
  · exact ⟨fun f hf => by simp [h] at hf, Or.inl rfl⟩
  · split <;> rename_i hbind <;> rw [hbind] at hmaking hbound
    · exact hmaking.given
    · exact hmaking.given
    · obtain ⟨f, hf⟩ := hbound rfl
      split
      · exact hmaking.given
      · exact hmaking.construct hf _

lemma given_dgramBind (a : Address) (sequential : Bool) (k : Kernel) (h : s.file = none) :
    Given s (dgramBind a sequential k s).2 := by
  obtain ⟨hmaking, hbound⟩ := making_bindFile a k h
  rw [dgramBind]
  split <;> rename_i hbind <;> rw [hbind] at hmaking hbound
  · exact hmaking.given
  · exact hmaking.given
  · obtain ⟨f, hf⟩ := hbound rfl
    exact hmaking.construct hf _

/-- The file was deleted. -/
structure Cleared (s s' : State) : Prop where
  /-- The file. -/
  file : s'.file = none
  /-- The servers. -/
  files : s'.files = s.files
  /-- No file was made. -/
  nextInode : s'.nextInode = s.nextInode

lemma Cleared.given {s'' : State} (h : Cleared s s') (hgiven : Given s' s'') : Given s s'' := by
  refine ⟨fun f hf => h.nextInode ▸ hgiven.file f hf, ?_⟩
  rw [← h.files]
  exact hgiven.files

/-- The part of a constructor before it makes a file: it throws and leaves the path as it is, or
there is no file after it. -/
def Looks (s : State) (r : Except Exception Unit × State) : Prop :=
  (∃ e, r.1 = .error e ∧ SamePath s r.2) ∨ (r.1 = .ok () ∧ Cleared s r.2)

lemma looks_unlinkFile (k : Kernel) (text : String) (h : SamePath s s') :
    Looks s (unlinkFile k text s') := by
  rw [unlinkFile]
  split
  · exact Or.inl ⟨_, rfl, h⟩
  · exact Or.inr ⟨rfl, rfl, h.files, h.nextInode⟩

lemma looks_streamReuse (capacity : ℕ → ℕ) (force : Bool) (k : Kernel) (s : State) :
    Looks s (streamReuse capacity force k s) := by
  rw [streamReuse]
  split
  · rename_i hnone
    exact Or.inr ⟨rfl, hnone, rfl, rfl⟩
  · split
    · exact Or.inl ⟨_, rfl, .refl s⟩
    · extract_lets taken
      have htaken : SamePath s taken.2 := by
        cases force with
        | true => exact samePath_testConnection k s
        | false => exact .refl s
      split
      · exact Or.inl ⟨_, rfl, htaken⟩
      · exact looks_unlinkFile k _ htaken

lemma looks_dgramReuse (force : Bool) (k : Kernel) (s : State) :
    Looks s (dgramReuse force k s) := by
  rw [dgramReuse]
  split
  · rename_i hnone
    exact Or.inr ⟨rfl, hnone, rfl, rfl⟩
  · split
    · exact Or.inl ⟨_, rfl, .refl s⟩
    · split
      · exact Or.inl ⟨_, rfl, .refl s⟩
      · exact looks_unlinkFile k _ (.refl s)

/-- The two parts of a constructor. -/
lemma Looks.andThen {r : Except Exception Unit × State}
    {f : State → Except Exception Unit × State} (h : Looks s r)
    (hf : ∀ s', s'.file = none → Given s' (f s').2) :
    ((∃ e, r.1 = .error e) ∧ SamePath s (andThen r f).2) ∨
      ((¬ ∃ e, r.1 = .error e) ∧ Given s (andThen r f).2) := by
  obtain ⟨result, s'⟩ := r
  obtain ⟨e, rfl, hpath⟩ | ⟨rfl, hcleared⟩ := h
  · exact Or.inl ⟨⟨e, rfl⟩, hpath⟩
  · exact Or.inr ⟨nofun, hcleared.given (hf s' hcleared.file)⟩

/-- The constructor ends before it could make a file. -/
def Construction.Stops (capacity : ℕ → ℕ) (s : State) : Construction → Prop
  | stream _ _ force k =>
    k.socketFails = true ∨ ∃ e, (streamReuse capacity force k s).1 = .error e
  | dgram _ _ force k =>
    (k.socketFails = true ∨ k.getsockoptFails = true) ∨ ∃ e, (dgramReuse force k s).1 = .error e

/-- **One construction** leaves the path as it is, or gives it away. -/
lemma Construction.run_cases (capacity : ℕ → ℕ) (c : Construction) (s : State) :
    (c.Stops capacity s ∧ SamePath s (c.run capacity s).2) ∨
      (¬ c.Stops capacity s ∧ Given s (c.run capacity s).2) := by
  cases c with
  | stream a maxConnections force k =>
    rw [run, localStreamServerConnection, Stops]
    by_cases hsocket : k.socketFails = true
    · rw [if_pos hsocket]
      exact Or.inl ⟨Or.inl hsocket, .refl s⟩
    · rw [if_neg hsocket, or_iff_right hsocket]
      exact (looks_streamReuse capacity force k s).andThen fun _ hnone =>
        given_streamBind a maxConnections k hnone
  | dgram a sequential force k =>
    rw [run, localDgramServer, Stops]
    by_cases hsocket : k.socketFails = true
    · rw [if_pos hsocket]
      exact Or.inl ⟨Or.inl (Or.inl hsocket), .refl s⟩
    · rw [if_neg hsocket]
      by_cases hmtu : k.getsockoptFails = true
      · rw [if_pos hmtu]
        exact Or.inl ⟨Or.inl (Or.inr hmtu), .refl s⟩
      · rw [if_neg hmtu, or_iff_right (not_or.mpr ⟨hsocket, hmtu⟩)]
        exact (looks_dgramReuse force k s).andThen fun _ hnone =>
          given_dgramBind a sequential k hnone

/-! ### On the path of a live server -/

/-- What a constructor needs to leave the path of a live server alone: that it fails before it looks
at the file, is not told to reuse the address, cannot delete the file; or that it is a stream
server, and its test connection finds room in the backlog of the server. -/
def Construction.Spares (capacity : ℕ → ℕ) (s : State) : Construction → Prop
  | stream _ _ force k =>
    k.socketFails = true ∨ force = false ∨ k.unlinkFails = true ∨
      (k.testSocketFails = false ∧ ∀ a ∈ s.servers, a.hasRoom capacity = true)
  | dgram _ _ force k =>
    (k.socketFails = true ∨ k.getsockoptFails = true) ∨ force = false ∨ k.unlinkFails = true

lemma Sound.servers_eq (h : Sound s) {a : Server} (ha : a ∈ s.servers) : s.servers = [a] := by
  have hone := h.one
  match hservers : s.servers, ha with
  | [b], ha => rw [List.mem_singleton.mp ha]
  | b :: c :: l, _ => simp [hservers] at hone

/-- A connection succeeds when there is room. -/
lemma Sound.connect (h : Sound s) {a : Server} (ha : a ∈ s.servers) :
    (s.connect capacity).1 = a.hasRoom capacity := by
  have hfile : s.isFileOf a = true := by simp [State.isFileOf, h.owns a ha]
  have hfind : s.servers.find? s.isFileOf = some a := by
    rw [h.servers_eq ha, List.find?_cons_of_pos hfile]
  rw [State.connect, hfind]
  dsimp only
  cases a.hasRoom capacity with
  | true => rfl
  | false => rfl

lemma unlinkFile_error_iff {k : Kernel} {text : String} :
    (∃ e, (unlinkFile k text s).1 = .error e) ↔ k.unlinkFails = true := by
  rw [unlinkFile]
  split <;> simp_all

/-- **A live server is spared** exactly when the constructor stops. -/
lemma Sound.stops_iff (h : Sound s) {a : Server} (ha : a ∈ s.servers) (c : Construction) :
    c.Stops capacity s ↔ c.Spares capacity s := by
  have hfile := h.owns a ha
  have hsocket := h.isSocket a ha
  cases c with
  | stream b maxConnections force k =>
    have hroom : (∀ b ∈ s.servers, b.hasRoom capacity = true) ↔ a.hasRoom capacity = true := by
      rw [h.servers_eq ha, List.forall_mem_singleton]
    rw [Construction.Stops, Construction.Spares, streamReuse, hfile, hroom]
    refine or_congr_right ?_
    dsimp only
    rw [if_neg (by simp [hsocket])]
    cases force with
    | false => simp
    | true =>
      rw [testConnection]
      by_cases htest : k.testSocketFails = true
      · simp [htest, unlinkFile_error_iff]
      · rw [if_neg htest]
        by_cases hr : a.hasRoom capacity = true
        · simp [h.connect ha, hr, htest]
        · simp [h.connect ha, hr, unlinkFile_error_iff]
  | dgram b sequential force k =>
    rw [Construction.Stops, Construction.Spares, dgramReuse, hfile]
    refine or_congr_right ?_
    dsimp only
    rw [if_neg (by simp [hsocket])]
    cases force with
    | false => simp
    | true => simp [unlinkFile_error_iff]

/-- A path that is given away while a server lives is lost for it. -/
lemma Sound.not_kept (h : Sound s) {a : Server} (ha : a ∈ s.servers) (hgiven : Given s s') :
    ¬ Kept s' := by
  intro hkept
  have hmem : a.file ∈ s'.files := by
    have hold : a.file ∈ s.files := List.mem_map_of_mem ha
    rcases hgiven.files with hfiles | ⟨f, -, hfiles⟩
    · rwa [hfiles]
    · rw [hfiles]
      exact List.mem_append_left _ hold
  have hfresh := h.fresh _ (h.owns a ha)
  have hnew := (hgiven.file _ ((kept_iff.mp hkept).2 _ hmem)).2.1
  omega

/-- Where no server lives, the path can be given away. -/
lemma Given.sound (hgiven : Given s s') (hfree : s.servers = []) : Sound s' := by
  have hnone : s.files = [] := by rw [State.files, hfree, List.map_nil]
  rw [sound_iff]
  have hfresh : ∀ f, s'.file = some f → f.inode < s'.nextInode := fun f hf => (hgiven.file f hf).2.2
  rcases hgiven.files with hfiles | ⟨f, hf, hfiles⟩
  · rw [hfiles, hnone]
    exact ⟨⟨by simp, by simp⟩, by simp, hfresh⟩
  · rw [hfiles, hnone, List.nil_append]
    refine ⟨⟨by simp, fun g hg => ?_⟩, fun g hg => ?_, hfresh⟩
    · rw [List.mem_singleton.mp hg, hf]
    · rw [List.mem_singleton.mp hg]
      exact (hgiven.file f hf).1

/-- A server that goes leaves a path without servers. -/
lemma Sound.gone (h : Sound s) {a : Server} {i : ℕ} (hi : s.servers[i]? = some a) :
    s.servers.eraseIdx i = [] := by
  have hservers := h.servers_eq (List.mem_of_getElem? hi)
  rw [hservers] at hi ⊢
  have hzero : i = 0 := by
    have := (List.getElem?_eq_some_iff.mp hi).1
    simpa using this
  rw [hzero, List.eraseIdx_cons_zero]

lemma Sound.of_free (hfree : s.servers = [])
    (hfresh : ∀ f, s.file = some f → f.inode < s.nextInode) : Sound s where
  one := by simp [hfree]
  owns := by simp [hfree]
  isSocket := by simp [hfree]
  fresh := hfresh

/-- A server that is destroyed deletes its own file. -/
lemma Sound.destroy (h : Sound s) {a : Server} {i : ℕ} (hi : s.servers[i]? = some a)
    (unlinkFails : Bool) :
    Sound (a.destroy unlinkFails { s with servers := s.servers.eraseIdx i }) := by
  have hgone : Sound { s with servers := s.servers.eraseIdx i } := .of_free (h.gone hi) h.fresh
  rw [Server.destroy]
  split
  · rw [State.unlink]
    split
    · exact hgone
    · exact .of_free (h.gone hi) (by simp)
  · exact hgone

lemma samePath_accept (s : State) (i : ℕ) : SamePath s (step capacity s (.accept i)) := by
  refine ⟨rfl, List.ext_getElem? fun j => ?_, rfl⟩
  rw [step]
  simp only [State.files, List.getElem?_map, List.getElem?_modify]
  split
  · rw [Option.map_eq_map, Option.map_map]
    rfl
  · rw [Option.map_eq_map, Option.map_id_fun']
    rfl

/-! ### A run -/

/-- The step spares the live server. -/
def Action.Spares (capacity : ℕ → ℕ) (s : State) : Action → Prop
  | construct c => s.servers ≠ [] → c.Spares capacity s
  | _ => True

/-- **Each step** that spares the live server keeps the machine sound. -/
lemma Sound.step (h : Sound s) {a : Action} (hspares : a.Spares capacity s) :
    Sound (LocalServer.step capacity s a) := by
  cases a with
  | construct c =>
    obtain ⟨-, hpath⟩ | ⟨hgoes, hgiven⟩ := c.run_cases capacity s
    · exact hpath.sound h
    · by_cases hfree : s.servers = []
      · exact hgiven.sound hfree
      · obtain ⟨a, ha⟩ := List.exists_mem_of_ne_nil _ hfree
        exact absurd ((h.stops_iff ha c).mpr (hspares hfree)) hgoes
  | destroy i unlinkFails =>
    rw [LocalServer.step]
    split
    · exact h
    · rename_i a hi
      exact h.destroy hi unlinkFails
  | crash i =>
    rw [LocalServer.step]
    cases hi : s.servers[i]? with
    | none => rwa [List.eraseIdx_of_length_le (List.getElem?_eq_none_iff.mp hi)]
    | some a => exact .of_free (h.gone hi) h.fresh
  | connect => exact (samePath_connect s).sound h
  | accept i => exact (samePath_accept s i).sound h

/-- A step that does not spare the live server takes its path. -/
lemma Sound.spares (h : Sound s) {a : Action} (hkept : Kept (LocalServer.step capacity s a)) :
    a.Spares capacity s := by
  cases a with
  | construct c =>
    intro hlive
    obtain ⟨a, ha⟩ := List.exists_mem_of_ne_nil _ hlive
    obtain ⟨hstops, -⟩ | ⟨-, hgiven⟩ := c.run_cases capacity s
    · exact (h.stops_iff ha c).mp hstops
    · exact absurd hkept (h.not_kept ha hgiven)
  | destroy i unlinkFails => trivial
  | crash i => trivial
  | connect => trivial
  | accept i => trivial

lemma sound_start (file : Option File) : Sound (start file) := by
  refine .of_free rfl fun f hf => ?_
  change file = some f at hf
  rw [hf]
  exact Nat.lt_succ_self _

/-- **A live server keeps its file**, in every run, exactly when each constructor that is called
while a server lives is one that spares it. -/
theorem keeps_file_iff (capacity : ℕ → ℕ) (file : Option File) (actions : List Action) :
    ((∀ p ∈ visited (step capacity) (start file) actions, Kept p.1) ∧
      Kept (runFrom (step capacity) (start file) actions)) ↔
      ∀ p ∈ visited (step capacity) (start file) actions, p.2.Spares capacity p.1 := by
  have hstep : ∀ s a, Sound s → a.Spares capacity s → Sound (step capacity s a) :=
    fun _ _ h hspares => h.step hspares
  have hneeds : ∀ s a, Sound s → Kept (step capacity s a) → a.Spares capacity s :=
    fun _ _ h hkept => h.spares hkept
  exact holds_always_iff hstep (fun _ h => h.toKept) hneeds (sound_start file) actions

/-- A stream server takes the path of another one whose backlog is full. -/
example : (runFrom (step fun _ => 0) (start none) [.construct (.stream ⟨['u'], [], 0⟩ 5 false {}),
    .construct (.stream ⟨['u'], [], 0⟩ 5 true {})]).servers.length = 2 := by decide

/-- A datagram server takes the path of another one. -/
theorem not_keeps_file :
    ¬ ∀ (capacity : ℕ → ℕ) (file : Option File) (actions : List Action),
      (∀ p ∈ visited (step capacity) (start file) actions, Kept p.1) ∧
        Kept (runFrom (step capacity) (start file) actions) := by
  intro h
  have hkept := (h id none [.construct (.dgram ⟨['u'], [], 0⟩ false false {}),
    .construct (.dgram ⟨['u'], [], 0⟩ false true {})]).2.one
  exact absurd hkept (by decide)

end EventDispatcher.LocalServer
