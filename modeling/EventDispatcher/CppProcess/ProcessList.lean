import EventDispatcher.CppProcess.ProcessInfo
import EventDispatcher.Lib.Run

/-!
# The list of the processes

A `process_list` keeps a `process_info` for each identifier that is listed in `/proc`, and
`refresh()` keeps the entries whose identifier is still listed.  An entry remembers what it read,
and that its process died.  An identifier can be used again between two refreshes, so a refreshed
list describes the live processes exactly when no entry that is kept remembers something of an
earlier process (`describes_iff`).
-/

namespace EventDispatcher.CppProcess

open Lib

/-! ### The processes -/

/-- What the files of a live process hold. -/
structure Files where
  /-- The name. -/
  name : Str
  /-- The letter of the state. -/
  state : Char
  /-- The numbers that follow. -/
  numbers : List ℤ
  /-- The arguments. -/
  args : List Str
  /-- The kernel cuts the name. -/
  name_le : name.length ≤ 63
  /-- The state is a letter. -/
  state_isAlpha : state.isAlpha = true
  /-- There are numbers. -/
  numbers_ne : numbers ≠ []
  /-- They fit in 64 bits. -/
  numbers_lt : ∀ n ∈ numbers, |n| < 2 ^ 64
  /-- The first one is the identifier of the parent. -/
  parent_ne : Int32.ofInt (numberAt numbers 4) ≠ -1

/-- A live process. -/
structure LiveProcess where
  /-- Its identifier. -/
  pid : Int32
  /-- Its place in the order of the births, which no other process has. -/
  birth : ℕ
  /-- Its files. -/
  files : Files
  /-- The identifiers are positive. -/
  pid_pos : 0 < pid

/-- An entry of the list, with the processes whose files it holds. -/
structure Entry where
  /-- The `process_info`. -/
  info : ProcessInfo
  /-- The process that the fields of `load_stat()` were read from. -/
  statFrom : Option ℕ := none
  /-- The process that `f_args` was read from. -/
  argsFrom : Option ℕ := none

/-- The processes and the list. -/
structure ListState where
  /-- The live processes. -/
  processes : List LiveProcess := []
  /-- The number of births. -/
  births : ℕ := 0
  /-- The `process_list`. -/
  list : Int32 → Option Entry := fun _ => none

namespace ListState

/-- The process that has an identifier. -/
def process (s : ListState) (pid : Int32) : Option LiveProcess :=
  s.processes.find? fun p => p.pid = pid

/-- The files of the processes. -/
def proc (s : ListState) : Proc where
  directory pid := (s.process pid).isSome
  stat pid := (s.process pid).map fun p =>
    statLine pid p.files.name p.files.state p.files.numbers
  cmdline pid := (s.process pid).map fun p => p.files.args.flatMap fun arg => arg ++ [nul]

/-- What `/proc/[0-9]*` matches. -/
def filenames (s : ListState) : List Str :=
  s.processes.map fun p => ['/', 'p', 'r', 'o', 'c', '/'] ++ intText p.pid.toInt

end ListState

/-! ### The getters -/

/-- The getters: `get_pid()`, those that call `load_stat()` and those that call `load_cmdline()`. -/
inductive Getter where
  | pid
  | stat (force : Bool)
  | cmdline
deriving DecidableEq

namespace Entry

/-- A getter. -/
def get (tokenize : Str → Str → List Str) (s : ListState) (e : Entry) : Getter → Entry
  | .pid => { e with info := e.info.getPid s.proc }
  | .stat force =>
    { e with
      info := (e.info.loadStat tokenize s.proc force).1
      statFrom :=
        if e.info.stat.ppid ≠ -1 ∧ force = false then e.statFrom
        else ((s.process e.info.pid).map LiveProcess.birth).or e.statFrom }
  | .cmdline =>
    { e with
      info := e.info.loadCmdline s.proc
      argsFrom :=
        if e.info.args ≠ [] then e.argsFrom
        else ((s.process e.info.pid).map LiveProcess.birth).or e.argsFrom }

/-- The process that what a getter returns was read from. -/
def origin (e : Entry) : Getter → Option ℕ
  | .pid => none
  | .stat _ => e.statFrom
  | .cmdline => e.argsFrom

/-- An entry follows a process: it was not found dead and holds nothing of another process. -/
structure Follows (pid : Int32) (birth : ℕ) (e : Entry) : Prop where
  pid : e.info.pid = pid
  stat : e.statFrom = none ∨ e.statFrom = some birth
  args : e.argsFrom = none ∨ e.argsFrom = some birth

end Entry

/-! ### `refresh()` -/

/-- The identifier in a file name. -/
def parsePid (f : Str) : Option Int32 :=
  if f.length < 7 then none
  else
    let s := f.drop 6
    let pid := (s.takeWhile Char.isDigit).foldl
      (fun (pid : Int32) c => pid * 10 + Int32.ofNat (c.toNat - '0'.toNat)) 0
    if s.dropWhile Char.isDigit ≠ [] ∨ pid = 0 then none else some pid

/-- One file name in the loop of `refresh()`: the keys that were not seen, and the list. -/
def refreshFile (m : (Int32 → Bool) × (Int32 → Option Entry)) (f : Str) :
    (Int32 → Bool) × (Int32 → Option Entry) :=
  match parsePid f with
  | none => m
  | some pid =>
    (Function.update m.1 pid false,
      if m.2 pid = none then Function.update m.2 pid (some { info := { pid := pid } }) else m.2)

/-- `refresh()` -/
def refresh (filenames : List Str) (list : Int32 → Option Entry) : Int32 → Option Entry :=
  let (keys, list) := filenames.foldl refreshFile (fun pid => (list pid).isSome, list)
  fun pid => if keys pid then none else list pid

/-! ### Histories -/

/-- What happens to the processes and what is called. -/
inductive ListEvent where
  /-- A process is born, when the identifier is free. -/
  | birth (pid : Int32) (files : Files)
  /-- A process dies. -/
  | death (pid : Int32)
  /-- What the files of a process hold changes. -/
  | change (pid : Int32) (files : Files)
  /-- A getter is called on an entry. -/
  | get (pid : Int32) (g : Getter)
  /-- `refresh()` is called. -/
  | refresh

namespace ListState

/-- What an event changes. -/
def step (tokenize : Str → Str → List Str) (s : ListState) : ListEvent → ListState
  | .birth pid files =>
    if h : 0 < pid ∧ s.process pid = none then
      { s with processes := ⟨pid, s.births, files, h.1⟩ :: s.processes, births := s.births + 1 }
    else s
  | .death pid => { s with processes := s.processes.filter fun p => p.pid ≠ pid }
  | .change pid files =>
    { s with
      processes := s.processes.map fun p => if p.pid = pid then { p with files := files } else p }
  | .get pid g =>
    { s with list := Function.update s.list pid ((s.list pid).map fun e => e.get tokenize s g) }
  | .refresh => { s with list := CppProcess.refresh s.filenames s.list }

/-- The list describes the live processes: its keys are the identifiers that are listed, each
entry has its identifier, and as long as a process does not die, nothing that a getter of its
entry returns was read from another one. -/
structure Describes (tokenize : Str → Str → List Str) (s : ListState) : Prop where
  keys : ∀ pid, (s.list pid).isSome = (s.process pid).isSome
  pid : ∀ pid p e, s.process pid = some p → s.list pid = some e → (e.info.getPid s.proc).pid = pid
  data : ∀ pid p, s.process pid = some p → ∀ (l : List ListEvent) (g : Getter), .death pid ∉ l →
    ∀ e, (runFrom (step tokenize) s (l ++ [.get pid g])).list pid = some e →
      e.origin g = none ∨ e.origin g = some p.birth

/-- The entries whose identifiers are listed were not found dead, and remember nothing of another
process. -/
def Kept (s : ListState) : Prop :=
  ∀ pid p e, s.process pid = some p → s.list pid = some e → e.Follows pid p.birth

/-! ### The processes -/

variable {tokenize : Str → Str → List Str} {s : ListState}

lemma pid_of_process {pid : Int32} {p : LiveProcess} (h : s.process pid = some p) :
    p.pid = pid := by
  simpa using List.find?_some h

lemma pos_of_process {pid : Int32} {p : LiveProcess} (h : s.process pid = some p) : 0 < pid := by
  rw [← pid_of_process h]
  exact p.pid_pos

lemma ne_of_process {pid : Int32} {p : LiveProcess} (h : s.process pid = some p) : pid ≠ -1 := by
  rintro rfl
  exact absurd (pos_of_process h) (by decide)

lemma proc_of_none {pid : Int32} (h : s.process pid = none) : s.proc.directory pid = false := by
  simp [proc, h]

lemma proc_of_process {pid : Int32} {p : LiveProcess} (h : s.process pid = some p) :
    s.proc.directory pid = true ∧
      s.proc.stat pid = some (statLine pid p.files.name p.files.state p.files.numbers) ∧
      s.proc.cmdline pid = some (p.files.args.flatMap fun arg => arg ++ [nul]) := by
  simp [proc, h]

lemma process_isSome_iff {pid : Int32} :
    (s.process pid).isSome ↔ ∃ p ∈ s.processes, p.pid = pid := by
  rw [process, List.find?_isSome]
  simp

/-- While a process does not die, it is the one that has its identifier. -/
lemma process_step {pid : Int32} {p : LiveProcess} (h : s.process pid = some p) {a : ListEvent}
    (ha : a ≠ .death pid) : ∃ q, (s.step tokenize a).process pid = some q ∧ q.birth = p.birth := by
  cases a with
  | birth pid' files =>
    rw [step]
    split
    · rename_i hfree
      have hne : pid' ≠ pid := by
        rintro rfl
        rw [h] at hfree
        cases hfree.2
      refine ⟨p, ?_, rfl⟩
      rw [process, List.find?_cons_of_neg (by simpa using hne)]
      exact h
    · exact ⟨p, h, rfl⟩
  | death pid' =>
    have hne : pid ≠ pid' := by
      rintro rfl
      exact ha rfl
    refine ⟨p, ?_, rfl⟩
    rw [step, process, List.find?_filter, ← h, process]
    refine List.find?_congr fun q _ => ?_
    by_cases hq : q.pid = pid <;> simp [hq, hne]
  | change pid' files =>
    refine ⟨if p.pid = pid' then { p with files := files } else p, ?_, by split <;> rfl⟩
    rw [step, process, List.find?_map]
    have hpid : (fun q : LiveProcess => decide (q.pid = pid)) ∘
        (fun q : LiveProcess => if q.pid = pid' then { q with files := files } else q) =
        fun q => decide (q.pid = pid) := by
      funext q
      rw [Function.comp_apply]
      split <;> rfl
    rw [hpid, ← process, h]
    rfl
  | get pid' g => exact ⟨p, h, rfl⟩
  | refresh => exact ⟨p, h, rfl⟩

end ListState

/-! ### The file names -/

lemma foldl_pid (ds : Str) (n : ℕ) :
    ds.foldl (fun (pid : Int32) c => pid * 10 + Int32.ofNat (c.toNat - '0'.toNat))
      (Int32.ofNat n) = Int32.ofNat (Nat.ofDigitChars 10 ds n) := by
  induction ds generalizing n with
  | nil => rfl
  | cons c ds ih =>
    have hmul : Int32.ofNat n * 10 + Int32.ofNat (c.toNat - '0'.toNat) =
        Int32.ofNat (10 * n + (c.toNat - '0'.toNat)) := by
      rw [Int32.ofNat_add, Int32.ofNat_mul, Int32.mul_comm]
      rfl
    rw [List.foldl_cons, hmul, ih]
    rfl

lemma parsePid_filename {pid : Int32} (hpid : 0 < pid) :
    parsePid (['/', 'p', 'r', 'o', 'c', '/'] ++ intText pid.toInt) = some pid := by
  have hpos : (0 : Int32).toInt < pid.toInt := Int32.lt_iff_toInt_lt.mp hpid
  rw [Int32.toInt_zero] at hpos
  have htext : intText pid.toInt = natText pid.toInt.natAbs := by rw [intText, if_neg (by omega)]
  have htake : (natText pid.toInt.natAbs).takeWhile Char.isDigit = natText pid.toInt.natAbs :=
    List.takeWhile_eq_self_iff.mpr (natText_digits _)
  have hdrop : (natText pid.toInt.natAbs).dropWhile Char.isDigit = [] :=
    List.dropWhile_eq_nil_iff.mpr (natText_digits _)
  have hvalue : Int32.ofNat pid.toInt.natAbs = pid := by
    rw [← Int32.ofInt_eq_ofNat, Int.natAbs_of_nonneg hpos.le, Int32.ofInt_toInt]
  have hne : pid ≠ 0 := by
    rintro rfl
    exact absurd hpid (by decide)
  have hlength := (length_pid hpid).1
  have hzero : (0 : Int32) = Int32.ofNat 0 := rfl
  rw [parsePid, if_neg]
  · have hsplit : (['/', 'p', 'r', 'o', 'c', '/'] ++ intText pid.toInt).drop 6 =
        natText pid.toInt.natAbs := by
      rw [← htext]
      rfl
    dsimp only
    rw [hsplit, htake, hdrop, hzero, foldl_pid, ofDigitChars_natText, hvalue, if_neg]
    rintro (h | h)
    · exact h rfl
    · exact hne h
  · rw [List.length_append]
    change ¬ 6 + _ < 7
    omega

/-- The loop over the directories: what was not seen, and what was inserted. -/
lemma foldl_refreshFile (ps : List LiveProcess) (keys : Int32 → Bool)
    (list : Int32 → Option Entry) (pid : Int32) :
    let m := (ps.map fun p => ['/', 'p', 'r', 'o', 'c', '/'] ++ intText p.pid.toInt).foldl
      refreshFile (keys, list)
    (m.1 pid = true ↔ keys pid = true ∧ ¬ ∃ p ∈ ps, p.pid = pid) ∧
      m.2 pid = if ∃ p ∈ ps, p.pid = pid then some ((list pid).getD { info := { pid := pid } })
        else list pid := by
  induction ps generalizing keys list with
  | nil => simp
  | cons p ps ih =>
    rw [List.map_cons, List.foldl_cons, refreshFile, parsePid_filename p.pid_pos]
    dsimp only
    refine ⟨?_, ?_⟩
    · rw [(ih _ _).1]
      by_cases h : pid = p.pid
      · subst h
        simp
      · simp [h, Ne.symm h]
    · rw [(ih _ _).2]
      by_cases h : pid = p.pid
      · subst h
        by_cases hnone : list p.pid = none
        · simp [hnone]
        · obtain ⟨e, he⟩ := Option.ne_none_iff_exists'.mp hnone
          simp [he]
      · have h' : ¬ p.pid = pid := Ne.symm h
        by_cases hnone : list p.pid = none
        · simp [hnone, h, h']
        · simp [hnone, h']

/-- Only the directories that are listed have an entry after `refresh()`. -/
lemma refresh_apply (s : ListState) (pid : Int32) :
    refresh s.filenames s.list pid =
      if (s.process pid).isSome then some ((s.list pid).getD { info := { pid := pid } })
      else none := by
  have h := foldl_refreshFile s.processes (fun pid => (s.list pid).isSome) s.list pid
  rw [refresh, ListState.filenames]
  dsimp only at h ⊢
  rw [h.2]
  by_cases hp : ∃ p ∈ s.processes, p.pid = pid
  · rw [if_neg (fun hk => (h.1.mp hk).2 hp), if_pos hp,
      if_pos (ListState.process_isSome_iff.mpr hp)]
  · rw [if_neg hp, if_neg (fun hs => hp (ListState.process_isSome_iff.mp hs))]
    split
    · rfl
    · rename_i hk
      rw [h.1] at hk
      simpa [hp] using hk

/-! ### What a getter remembers -/

namespace ProcessInfo

lemma loadFields_pid (tokenize : Str → Str → List Str) (remaining : Str) (s : ProcessInfo) :
    (s.loadFields tokenize remaining).1.pid = s.pid := by
  rw [loadFields]
  split
  · rfl
  · dsimp only
    split
    · rfl
    · split <;> rfl

lemma loadLine_pid (tokenize : Str → Str → List Str) (line : Str) (s : ProcessInfo) :
    (s.loadLine tokenize line).1.pid = s.pid := by
  rw [loadLine]
  split
  · split
    · rfl
    · split
      · rfl
      · dsimp only
        split
        · rfl
        · rw [loadFields_pid]
  · rfl

lemma splitArgs_ne_nil (arg l : Str) : splitArgs arg l ≠ [] := by
  induction l generalizing arg with
  | nil => exact List.cons_ne_nil _ _
  | cons c l ih =>
    rw [splitArgs]
    split
    · split <;> exact List.cons_ne_nil _ _
    · exact ih _

/-- `load_stat()` of a process that is there. -/
lemma loadStat_pid {tokenize : Str → Str → List Str} {P : Proc} {force : Bool} {s : ProcessInfo}
    (hdir : P.directory s.pid = true) : (s.loadStat tokenize P force).1.pid = s.pid := by
  rw [loadStat]
  split
  · rfl
  · rw [getPid_of_directory hdir]
    dsimp only
    split
    · rfl
    · split
      · rfl
      · rw [loadLine_pid]

/-- `load_cmdline()` of a process that is there. -/
lemma loadCmdline_pid {P : Proc} {s : ProcessInfo} (hdir : P.directory s.pid = true) :
    (s.loadCmdline P).pid = s.pid := by
  rw [loadCmdline]
  split
  · rfl
  · rw [getPid_of_directory hdir]
    dsimp only
    split
    · rfl
    · split <;> rfl

lemma getPid_of_not_directory {P : Proc} {s : ProcessInfo} (h : P.directory s.pid = false) :
    (s.getPid P).pid = -1 ∧ (s.getPid P).stat = s.stat ∧ (s.getPid P).args = s.args := by
  rw [getPid]
  by_cases hpid : s.pid = -1
  · rw [if_neg fun hne => hne.1 hpid]
    exact ⟨hpid, rfl, rfl⟩
  · rw [if_pos ⟨hpid, h⟩]
    exact ⟨rfl, rfl, rfl⟩

end ProcessInfo

/-- `get_pid()` changes the PID only. -/
lemma getPid_keeps (s : ListState) (i : ProcessInfo) :
    (i.getPid s.proc).stat = i.stat ∧ (i.getPid s.proc).args = i.args := by
  rw [ProcessInfo.getPid]
  split <;> exact ⟨rfl, rfl⟩

/-- What `load_stat()` does with the files of the processes. -/
lemma loadStat_cases {tokenize : Str → Str → List Str} (htok : Tokenizes tokenize) (s : ListState)
    (force : Bool) (i : ProcessInfo) :
    (i.loadStat tokenize s.proc force).1.args = i.args ∧
      ((i.loadStat tokenize s.proc force).1.stat = i.stat ∧
          (i.stat.ppid ≠ -1 ∧ force = false ∨ s.process i.pid = none) ∨
        (i.loadStat tokenize s.proc force).1.stat.ppid ≠ -1) := by
  by_cases hcached : i.stat.ppid ≠ -1 ∧ force = false
  · rw [ProcessInfo.loadStat, if_pos hcached]
    exact ⟨rfl, .inl ⟨rfl, .inl hcached⟩⟩
  · cases hp : s.process i.pid with
    | none =>
      obtain ⟨hpid, hstat, hargs⟩ :=
        ProcessInfo.getPid_of_not_directory (ListState.proc_of_none hp)
      rw [ProcessInfo.loadStat, if_neg hcached]
      dsimp only
      rw [if_pos hpid]
      exact ⟨hargs, .inl ⟨hstat, .inr rfl⟩⟩
    | some p =>
      have hload : i.stat.ppid = -1 ∨ force = true := by
        by_contra h
        rw [not_or, Bool.not_eq_true] at h
        exact hcached h
      obtain ⟨hdir, hline, -⟩ := ListState.proc_of_process hp
      rw [loadStat_of_numbers htok hload (ListState.pos_of_process hp) hdir p.files.name_le
        p.files.state_isAlpha p.files.numbers_ne p.files.numbers_lt hline]
      refine ⟨rfl, .inr ?_⟩
      change (Int64.ofInt (numberAt p.files.numbers 4)).toInt32 ≠ -1
      rw [Int64.toInt32_ofInt]
      exact p.files.parent_ne

/-- What `load_cmdline()` does with the files of the processes. -/
lemma loadCmdline_cases (s : ListState) (i : ProcessInfo) :
    (i.loadCmdline s.proc).stat = i.stat ∧
      ((i.loadCmdline s.proc).args = i.args ∧ (i.args ≠ [] ∨ s.process i.pid = none) ∨
        (i.loadCmdline s.proc).args ≠ []) := by
  by_cases hcached : i.args ≠ []
  · rw [ProcessInfo.loadCmdline, if_pos hcached]
    exact ⟨rfl, .inl ⟨rfl, .inl hcached⟩⟩
  · cases hp : s.process i.pid with
    | none =>
      obtain ⟨hpid, hstat, hargs⟩ :=
        ProcessInfo.getPid_of_not_directory (ListState.proc_of_none hp)
      rw [ProcessInfo.loadCmdline, if_neg hcached]
      dsimp only
      rw [if_pos hpid]
      exact ⟨hstat, .inl ⟨hargs, .inr rfl⟩⟩
    | some p =>
      obtain ⟨hdir, -, hcmdline⟩ := ListState.proc_of_process hp
      rw [ProcessInfo.loadCmdline_eq (not_not.mp hcached) (ListState.pos_of_process hp) hdir
        hcmdline]
      exact ⟨rfl, .inr (ProcessInfo.splitArgs_ne_nil _ _)⟩

namespace Entry

/-- What an entry holds was read from somewhere. -/
structure Sound (e : Entry) : Prop where
  stat : e.statFrom.isSome → e.info.stat.ppid ≠ -1
  args : e.argsFrom.isSome → e.info.args ≠ []

lemma Sound.get {tokenize : Str → Str → List Str} (htok : Tokenizes tokenize) (s : ListState)
    {e : Entry} (h : e.Sound) (g : Getter) : (e.get tokenize s g).Sound := by
  cases g with
  | pid =>
    obtain ⟨hstat, hargs⟩ := getPid_keeps s e.info
    refine ⟨fun hs => ?_, fun hs => ?_⟩
    · change (e.info.getPid s.proc).stat.ppid ≠ -1
      rw [hstat]
      exact h.stat hs
    · change (e.info.getPid s.proc).args ≠ []
      rw [hargs]
      exact h.args hs
  | stat force =>
    obtain ⟨hargs, hstat⟩ := loadStat_cases htok s force e.info
    refine ⟨fun hs => ?_, fun hs => ?_⟩
    · change (e.info.loadStat tokenize s.proc force).1.stat.ppid ≠ -1
      obtain ⟨hstat, hcached | hnone⟩ | hloaded := hstat
      · rw [hstat]
        exact hcached.1
      · rw [hstat]
        refine h.stat ?_
        rw [Entry.get, hnone] at hs
        simpa using hs
      · exact hloaded
    · change (e.info.loadStat tokenize s.proc force).1.args ≠ []
      rw [hargs]
      exact h.args hs
  | cmdline =>
    obtain ⟨hstat, hargs⟩ := loadCmdline_cases s e.info
    refine ⟨fun hs => ?_, fun hs => ?_⟩
    · change (e.info.loadCmdline s.proc).stat.ppid ≠ -1
      rw [hstat]
      exact h.stat hs
    · change (e.info.loadCmdline s.proc).args ≠ []
      obtain ⟨hargs, hcached | hnone⟩ | hloaded := hargs
      · rw [hargs]
        exact hcached
      · rw [hargs]
        refine h.args ?_
        rw [Entry.get, hnone] at hs
        simpa using hs
      · exact hloaded

/-- A getter keeps following a process that is there. -/
lemma Follows.get {tokenize : Str → Str → List Str} {s : ListState} {pid : Int32}
    {p : LiveProcess} (hp : s.process pid = some p) {e : Entry} (h : e.Follows pid p.birth)
    (g : Getter) : (e.get tokenize s g).Follows pid p.birth := by
  have hdir : s.proc.directory e.info.pid = true := by
    rw [h.pid]
    exact (ListState.proc_of_process hp).1
  cases g with
  | pid =>
    have hsame : e.get tokenize s .pid = e := by
      rw [Entry.get, ProcessInfo.getPid_of_directory hdir]
    rwa [hsame]
  | stat force =>
    refine ⟨?_, ?_, h.args⟩
    · change (e.info.loadStat tokenize s.proc force).1.pid = pid
      rw [ProcessInfo.loadStat_pid hdir, h.pid]
    · rw [Entry.get, h.pid, hp]
      dsimp only
      split
      · exact h.stat
      · exact .inr rfl
  | cmdline =>
    refine ⟨?_, h.stat, ?_⟩
    · change (e.info.loadCmdline s.proc).pid = pid
      rw [ProcessInfo.loadCmdline_pid hdir, h.pid]
    · rw [Entry.get, h.pid, hp]
      dsimp only
      split
      · exact h.args
      · exact .inr rfl

end Entry

/-! ### Runs -/

namespace ListState

variable {tokenize : Str → Str → List Str} {s : ListState}

/-- As long as a process does not die, its entry follows it. -/
lemma follows_step {pid : Int32} {p : LiveProcess} (hp : s.process pid = some p)
    (h : ∀ e, s.list pid = some e → e.Follows pid p.birth) {a : ListEvent} {e : Entry}
    (he : (s.step tokenize a).list pid = some e) : e.Follows pid p.birth := by
  cases a with
  | birth pid' files =>
    rw [step] at he
    split at he <;> exact h e he
  | death pid' => exact h e he
  | change pid' files => exact h e he
  | get pid' g =>
    rw [step] at he
    dsimp only at he
    by_cases hpid : pid = pid'
    · subst hpid
      rw [Function.update_self, Option.map_eq_some_iff] at he
      obtain ⟨e, he, rfl⟩ := he
      exact (h e he).get hp g
    · rw [Function.update_of_ne hpid] at he
      exact h e he
  | refresh =>
    rw [step] at he
    dsimp only at he
    rw [refresh_apply, hp, if_pos Option.isSome_some, Option.some.injEq] at he
    subst he
    cases hl : s.list pid with
    | none => exact ⟨rfl, .inl rfl, .inl rfl⟩
    | some e => exact h e hl

lemma follows_runFrom {pid : Int32} {p : LiveProcess} (hp : s.process pid = some p)
    (h : ∀ e, s.list pid = some e → e.Follows pid p.birth) {l : List ListEvent}
    (hl : .death pid ∉ l) {e : Entry} (he : (runFrom (step tokenize) s l).list pid = some e) :
    e.Follows pid p.birth := by
  induction l generalizing s p with
  | nil => exact h e he
  | cons a l ih =>
    rw [List.mem_cons, not_or] at hl
    have hnext : ∃ q, (s.step tokenize a).process pid = some q ∧ q.birth = p.birth :=
      process_step hp (Ne.symm hl.1)
    obtain ⟨q, hq, hbirth⟩ := hnext
    rw [← hbirth]
    refine ih hq (fun e he => ?_) hl.2 he
    rw [hbirth]
    exact follows_step hp h he

/-- What each entry holds was read from somewhere. -/
def Sound (s : ListState) : Prop := ∀ pid e, s.list pid = some e → e.Sound

lemma Sound.step (htok : Tokenizes tokenize) (h : s.Sound) (a : ListEvent) :
    (s.step tokenize a).Sound := by
  intro pid e he
  cases a with
  | birth pid' files =>
    rw [ListState.step] at he
    split at he <;> exact h pid e he
  | death pid' => exact h pid e he
  | change pid' files => exact h pid e he
  | get pid' g =>
    rw [ListState.step] at he
    dsimp only at he
    by_cases hpid : pid = pid'
    · subst hpid
      rw [Function.update_self, Option.map_eq_some_iff] at he
      obtain ⟨e, he, rfl⟩ := he
      exact (h pid e he).get htok s g
    · rw [Function.update_of_ne hpid] at he
      exact h pid e he
  | refresh =>
    rw [ListState.step] at he
    dsimp only at he
    rw [refresh_apply] at he
    split at he
    · rw [Option.some.injEq] at he
      subst he
      cases hl : s.list pid with
      | none => exact ⟨fun hs => (by cases hs), fun hs => (by cases hs)⟩
      | some e => exact h pid e hl
    · cases he

/-- What the getters answer of each process is where its entry was read from. -/
lemma kept_of_describes (hs : s.Sound) (h : s.Describes tokenize) : s.Kept := by
  intro pid p e hp he
  have hpid : e.info.pid = pid := by
    have := h.pid pid p e hp he
    rw [ProcessInfo.getPid] at this
    split at this
    · exact absurd this.symm (ne_of_process hp)
    · exact this
  have hget : ∀ g, (runFrom (step tokenize) s ([] ++ [.get pid g])).list pid =
      some (e.get tokenize s g) := by
    intro g
    change Function.update s.list pid _ pid = _
    rw [Function.update_self, he]
    rfl
  refine ⟨hpid, ?_, ?_⟩
  · have hdata := h.data pid p hp [] (.stat false) List.not_mem_nil _ (hget _)
    cases hfrom : e.statFrom with
    | none => exact .inl rfl
    | some birth =>
      have hloaded := (hs pid e he).stat (by rw [hfrom]; rfl)
      rw [Entry.origin, Entry.get, if_pos ⟨hloaded, rfl⟩, hfrom] at hdata
      exact hdata
  · have hdata := h.data pid p hp [] .cmdline List.not_mem_nil _ (hget _)
    cases hfrom : e.argsFrom with
    | none => exact .inl rfl
    | some birth =>
      have hloaded := (hs pid e he).args (by rw [hfrom]; rfl)
      rw [Entry.origin, Entry.get, if_pos hloaded, hfrom] at hdata
      exact hdata

/-- Entries that follow their processes go on with it, so the getters answer of them. -/
lemma describes_of_kept (hkeys : ∀ pid, (s.list pid).isSome = (s.process pid).isSome)
    (h : s.Kept) : s.Describes tokenize := by
  refine ⟨hkeys, fun pid p e hp he => ?_, fun pid p hp l g hl e he => ?_⟩
  · have hpid := (h pid p e hp he).pid
    rw [ProcessInfo.getPid_of_directory, hpid]
    rw [hpid]
    exact (proc_of_process hp).1
  · have hdeath : .death pid ∉ l ++ [.get pid g] := by
      simp [hl]
    have hfollows := follows_runFrom hp (fun e he => h pid p e hp he) hdeath he
    cases g with
    | pid => exact .inl rfl
    | stat force => exact hfollows.stat
    | cmdline => exact hfollows.args

/-- A list with the right keys describes the processes exactly when its entries follow them. -/
lemma describes_iff_kept (hs : s.Sound)
    (hkeys : ∀ pid, (s.list pid).isSome = (s.process pid).isSome) :
    s.Describes tokenize ↔ s.Kept :=
  ⟨kept_of_describes hs, describes_of_kept hkeys⟩

/-- `refresh()` keeps the entries as they are. -/
lemma kept_refresh : (s.step tokenize .refresh).Kept ↔ s.Kept := by
  have hlist : ∀ pid, (s.step tokenize .refresh).list pid =
      if (s.process pid).isSome then some ((s.list pid).getD { info := { pid := pid } })
      else none := refresh_apply s
  have hsame : ∀ pid, (s.step tokenize .refresh).process pid = s.process pid := fun _ => rfl
  constructor
  · intro h pid p e hp he
    refine h pid p e hp ?_
    rw [hlist, hp, if_pos Option.isSome_some, he]
    rfl
  · intro h pid p e hp he
    rw [hlist, ← hsame, hp, if_pos Option.isSome_some, Option.some.injEq] at he
    subst he
    cases hl : s.list pid with
    | none => exact ⟨rfl, .inl rfl, .inl rfl⟩
    | some e => exact h pid p e hp hl

end ListState

/-- The files of a shell. -/
def shellFiles : Files where
  name := ['s', 'h']
  state := 'S'
  numbers := [1]
  args := [['s', 'h']]
  name_le := by decide
  state_isAlpha := by decide
  numbers_ne := by decide
  numbers_lt := by decide
  parent_ne := by decide

end EventDispatcher.CppProcess
