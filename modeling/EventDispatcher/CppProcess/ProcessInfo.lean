import EventDispatcher.Base
import EventDispatcher.Lib.Decimal
import Mathlib.Data.UInt

/-!
# The files of a process

A `process_info` reads `/proc/<pid>/stat` and `/proc/<pid>/cmdline`.  The name in the line of the
first one can hold the separators, so that it is looked for between the first and the last
parenthesis; the numbers that follow are converted and stored.  The fields are those that the
kernel printed but for the device of the terminal, whose bits are not cut as they are documented,
and a line without numbers, which leaves the fields as they were; the arguments are those of the
command line unless there are none (`loads_exactly_iff`).
-/

namespace EventDispatcher.CppProcess

open Lib

/-! ### The C++ library -/

/-- The exceptions of the C++ library. -/
inductive StdException where
  | invalidArgument
  | outOfRange
deriving DecidableEq, Repr

/-- `std::isspace()` -/
def isSpace (c : Char) : Bool :=
  c = ' ' || c = '\t' || c = '\n' || c = '\x0b' || c = '\x0c' || c = '\r'

/-- The sign in front of the digits: whether it is a minus, and what follows. -/
def splitSign : Str → Bool × Str
  | '-' :: s => (true, s)
  | '+' :: s => (false, s)
  | s => (false, s)

/-- `std::stoull()`: what follows the digits is not looked at, and a negative number is the opposite
in the 64 bits. -/
def stoull (s : Str) : Except StdException UInt64 :=
  let (negative, s) := splitSign (s.dropWhile isSpace)
  let digits := s.takeWhile Char.isDigit
  if digits = [] then .error .invalidArgument
  else
    let n := Nat.ofDigitChars 10 digits 0
    if 2 ^ 64 ≤ n then .error .outOfRange
    else .ok (if negative then -UInt64.ofNat n else UInt64.ofNat n)

/-- `std::string::find()` of a character -/
def find (c : Char) (s : Str) : Option ℕ := s.findIdx? fun d => d = c

/-- `std::string::rfind()` of a character -/
def rfind (c : Char) (s : Str) : Option ℕ :=
  (s.reverse.findIdx? fun d => d = c).map fun i => s.length - 1 - i

/-! ### The fields -/

/-- The fields of a `process_info` that `load_stat()` reads. -/
structure Stat where
  /-- `f_name` -/
  name : Str := []
  /-- `f_state` -/
  state : Char := '?'
  /-- `f_ppid` -/
  ppid : Int32 := -1
  /-- `f_pgid` -/
  pgid : UInt32 := -1
  /-- `f_session` -/
  session : Int32 := -1
  /-- `f_tty_major` -/
  ttyMajor : Int32 := -1
  /-- `f_tty_minor` -/
  ttyMinor : Int32 := -1
  /-- `f_fp_group` -/
  fpGroup : UInt32 := -1
  /-- `f_kernel_flags` -/
  kernelFlags : Int32 := -1
  /-- `f_minor_faults` -/
  minorFaults : UInt64 := -1
  /-- `f_children_minor_faults` -/
  childrenMinorFaults : UInt64 := -1
  /-- `f_major_faults` -/
  majorFaults : UInt64 := -1
  /-- `f_children_major_faults` -/
  childrenMajorFaults : UInt64 := -1
  /-- `f_user_time` -/
  userTime : Int32 := -1
  /-- `f_system_time` -/
  systemTime : Int32 := -1
  /-- `f_children_user_time` -/
  childrenUserTime : Int32 := -1
  /-- `f_children_system_time` -/
  childrenSystemTime : Int32 := -1
  /-- `f_priority` -/
  priority : Int32 := -1
  /-- `f_nice` -/
  nice : Int32 := -1
  /-- `f_num_threads` -/
  numThreads : Int32 := -1
  /-- `f_start_time` -/
  startTime : Int64 := -1
  /-- `f_virtual_size` -/
  virtualSize : Int64 := -1
  /-- `f_rss` -/
  rss : Int64 := -1
  /-- `f_rss_limit` -/
  rssLimit : Int64 := -1
  /-- `f_start_code` -/
  startCode : Int64 := -1
  /-- `f_end_code` -/
  endCode : Int64 := -1
  /-- `f_start_stack` -/
  startStack : Int64 := -1
  /-- `f_kernel_esp` -/
  kernelEsp : Int64 := -1
  /-- `f_kernel_eip` -/
  kernelEip : Int64 := -1
  /-- `f_wchan` -/
  wchan : Int32 := -1
  /-- `f_exit_signal` -/
  exitSignal : Int32 := -1
  /-- `f_processor` -/
  processor : Int32 := -1
  /-- `f_rt_priority` -/
  rtPriority : Int32 := -1
  /-- `f_schedule_policy` -/
  schedulePolicy : Int32 := -1
  /-- `f_delayacct_blkio_ticks` -/
  delayacctBlkioTicks : Int32 := -1
  /-- `f_guest_time` -/
  guestTime : Int64 := -1
  /-- `f_children_guest_time` -/
  childrenGuestTime : Int64 := -1
  /-- `f_start_data` -/
  startData : Int64 := -1
  /-- `f_end_data` -/
  endData : Int64 := -1
  /-- `f_start_break` -/
  startBreak : Int64 := -1
  /-- `f_arg_start` -/
  argStart : Int64 := -1
  /-- `f_arg_end` -/
  argEnd : Int64 := -1
  /-- `f_env_start` -/
  envStart : Int64 := -1
  /-- `f_env_end` -/
  envEnd : Int64 := -1
  /-- `f_exit_code` -/
  exitCode : Int32 := -1
deriving DecidableEq

/-- A device number, as the code cuts it: the major and the minor number. -/
def cutDevice (tty : UInt32) : UInt32 × UInt32 :=
  ((tty >>> 8) &&& 0xffff, ((tty >>> 16) &&& 0xff00) ||| (tty &&& 0x00ff))

/-- The fields that are stored, from the values by their place in the line. -/
def Stat.ofValues (name : Str) (state : Char) (getValue : ℕ → Int64) : Stat :=
  let tty := (getValue 7).toUInt64.toUInt32
  { name := name
    state := state
    ppid := (getValue 4).toInt32
    pgid := (getValue 5).toUInt64.toUInt32
    session := (getValue 6).toInt32
    ttyMajor := (cutDevice tty).1.toInt32
    ttyMinor := (cutDevice tty).2.toInt32
    fpGroup := (getValue 8).toUInt64.toUInt32
    kernelFlags := (getValue 9).toInt32
    minorFaults := (getValue 10).toUInt64
    childrenMinorFaults := (getValue 11).toUInt64
    majorFaults := (getValue 12).toUInt64
    childrenMajorFaults := (getValue 13).toUInt64
    userTime := (getValue 14).toInt32
    systemTime := (getValue 15).toInt32
    childrenUserTime := (getValue 16).toInt32
    childrenSystemTime := (getValue 17).toInt32
    priority := (getValue 18).toInt32
    nice := (getValue 19).toInt32
    numThreads := (getValue 20).toInt32
    startTime := getValue 22
    virtualSize := getValue 23
    rss := getValue 24
    rssLimit := getValue 25
    startCode := getValue 26
    endCode := getValue 27
    startStack := getValue 28
    kernelEsp := getValue 29
    kernelEip := getValue 30
    wchan := (getValue 35).toInt32
    exitSignal := (getValue 38).toInt32
    processor := (getValue 39).toInt32
    rtPriority := (getValue 40).toInt32
    schedulePolicy := (getValue 41).toInt32
    delayacctBlkioTicks := (getValue 42).toInt32
    guestTime := getValue 43
    childrenGuestTime := getValue 44
    startData := getValue 45
    endData := getValue 46
    startBreak := getValue 47
    argStart := getValue 48
    argEnd := getValue 49
    envStart := getValue 50
    envEnd := getValue 51
    exitCode := (getValue 52).toInt32 }

/-! ### Reading the files -/

/-- The files under `/proc`, when a function looks. -/
structure Proc where
  /-- `/proc/<pid>` is a directory. -/
  directory : Int32 → Bool
  /-- The contents of `/proc/<pid>/stat`. -/
  stat : Int32 → Option Str
  /-- The contents of `/proc/<pid>/cmdline`. -/
  cmdline : Int32 → Option Str

/-- A `process_info`. -/
structure ProcessInfo where
  /-- `f_pid` -/
  pid : Int32
  /-- What `load_stat()` reads. -/
  stat : Stat := {}
  /-- `f_args` -/
  args : List Str := []
deriving DecidableEq

namespace ProcessInfo

/-- `get_pid()` -/
def getPid (P : Proc) (s : ProcessInfo) : ProcessInfo :=
  if s.pid ≠ -1 ∧ P.directory s.pid = false then { s with pid := -1 } else s

/-- The function that gives the value for a place. -/
def getValue (values : List Int64) (idx : ℕ) : Int64 := values.getD (idx - 4) 0

/-- The fields of the line of `stat`, after the name; `tokenize` is `snapdev::tokenize_string()`. -/
def loadFields (tokenize : Str → Str → List Str) (remaining : Str) (s : ProcessInfo) :
    ProcessInfo × Option StdException :=
  match tokenize remaining [' '] with
  | [] => ({ s with stat := { s.stat with state := '?' } }, none)
  | first :: rest =>
    let s := { s with stat := { s.stat with state := first.headD '\x00' } }
    if rest = [] then (s, none)
    else
      match rest.mapM stoull with
      | .error e => (s, some e)
      | .ok values =>
        let getValue := getValue (values.map UInt64.toInt64)
        ({ s with stat := .ofValues s.stat.name s.stat.state getValue }, none)

/-- The line of `stat` of a process. -/
def loadLine (tokenize : Str → Str → List Str) (line : Str) (s : ProcessInfo) :
    ProcessInfo × Option StdException :=
  match find '(' line, rfind ')' line with
  | some first, some last =>
    if first < 2 ∨ 100 < last then (s, none)
    else if line.take (first - 1) ≠ intText s.pid.toInt then (s, none)
    else
      let name := line.drop (first + 1)
      -- a difference of `size_t` that is negative is more than the line has
      let name := if last < first then name else name.take (last - first - 1)
      let s := { s with stat := { s.stat with name := name } }
      if line.length < last + 2 then (s, some .outOfRange)
      else s.loadFields tokenize (line.drop (last + 2))
  | _, _ => (s, none)

/-- `load_stat()` -/
def loadStat (tokenize : Str → Str → List Str) (P : Proc) (force : Bool) (s : ProcessInfo) :
    ProcessInfo × Option StdException :=
  if s.stat.ppid ≠ -1 ∧ force = false then (s, none)
  else
    let s := s.getPid P
    if s.pid = -1 then (s, none)
    else
      match P.stat s.pid with
      | none => (s, none)
      | some line => s.loadLine tokenize line

/-- The loop of `load_cmdline()`, with the characters of the argument that it is in. -/
def splitArgs (arg : Str) : Str → List Str
  | [] => [arg]
  | c :: l =>
    if c = nul then
      if l = [] then [arg] else arg :: splitArgs [] l
    else splitArgs (arg ++ [c]) l

/-- `load_cmdline()` -/
def loadCmdline (P : Proc) (s : ProcessInfo) : ProcessInfo :=
  if s.args ≠ [] then s
  else
    let s := s.getPid P
    if s.pid = -1 then s
    else
      match P.cmdline s.pid with
      | none => s
      | some cmdline => { s with args := splitArgs [] cmdline }

/-- `get_args_size()` -/
def getArgsSize (P : Proc) (s : ProcessInfo) : ProcessInfo × ℕ :=
  (s.loadCmdline P, (s.loadCmdline P).args.length)

/-- `get_arg()`; a negative index is larger than any size as a `size_t`. -/
def getArg (P : Proc) (index : Int32) (s : ProcessInfo) : ProcessInfo × Str :=
  let (s, size) := s.getArgsSize P
  (s, if index < 0 ∨ size ≤ index.toInt then [] else s.args.getD index.toInt.toNat [])

end ProcessInfo

/-! ### What the kernel prints -/

/-- The line of `stat`. -/
def statLine (pid : Int32) (name : Str) (state : Char) (numbers : List ℤ) : Str :=
  intText pid.toInt ++ [' ', '('] ++ name ++ [')', ' ']
    ++ ([' '].intercalate ([state] :: numbers.map intText) ++ ['\n'])

/-- The number at a place of the line, zero when it is missing. -/
def numberAt (numbers : List ℤ) (place : ℕ) : ℤ := numbers.getD (place - 4) 0

/-- `tty_nr`, in 32 bits -/
def ttyNr (numbers : List ℤ) : ℕ := (UInt32.ofInt (numberAt numbers 7)).toNat

/-- The fields that a line describes, each number modulo the width of its field: the major number
of the device is made of the bits 15 to 8 of `tty_nr`, and the minor number of the bits 31 to 20 and
7 to 0. -/
def Stat.described (name : Str) (state : Char) (numbers : List ℤ) : Stat :=
  let number := numberAt numbers
  { name := name
    state := state
    ppid := Int32.ofInt (number 4)
    pgid := UInt32.ofInt (number 5)
    session := Int32.ofInt (number 6)
    ttyMajor := Int32.ofNat (ttyNr numbers / 2 ^ 8 % 2 ^ 8)
    ttyMinor := Int32.ofNat (ttyNr numbers / 2 ^ 20 * 2 ^ 8 + ttyNr numbers % 2 ^ 8)
    fpGroup := UInt32.ofInt (number 8)
    kernelFlags := Int32.ofInt (number 9)
    minorFaults := UInt64.ofInt (number 10)
    childrenMinorFaults := UInt64.ofInt (number 11)
    majorFaults := UInt64.ofInt (number 12)
    childrenMajorFaults := UInt64.ofInt (number 13)
    userTime := Int32.ofInt (number 14)
    systemTime := Int32.ofInt (number 15)
    childrenUserTime := Int32.ofInt (number 16)
    childrenSystemTime := Int32.ofInt (number 17)
    priority := Int32.ofInt (number 18)
    nice := Int32.ofInt (number 19)
    numThreads := Int32.ofInt (number 20)
    startTime := Int64.ofInt (number 22)
    virtualSize := Int64.ofInt (number 23)
    rss := Int64.ofInt (number 24)
    rssLimit := Int64.ofInt (number 25)
    startCode := Int64.ofInt (number 26)
    endCode := Int64.ofInt (number 27)
    startStack := Int64.ofInt (number 28)
    kernelEsp := Int64.ofInt (number 29)
    kernelEip := Int64.ofInt (number 30)
    wchan := Int32.ofInt (number 35)
    exitSignal := Int32.ofInt (number 38)
    processor := Int32.ofInt (number 39)
    rtPriority := Int32.ofInt (number 40)
    schedulePolicy := Int32.ofInt (number 41)
    delayacctBlkioTicks := Int32.ofInt (number 42)
    guestTime := Int64.ofInt (number 43)
    childrenGuestTime := Int64.ofInt (number 44)
    startData := Int64.ofInt (number 45)
    endData := Int64.ofInt (number 46)
    startBreak := Int64.ofInt (number 47)
    argStart := Int64.ofInt (number 48)
    argEnd := Int64.ofInt (number 49)
    envStart := Int64.ofInt (number 50)
    envEnd := Int64.ofInt (number 51)
    exitCode := Int32.ofInt (number 52) }

/-! ### Numbers -/

lemma toUInt64_ofInt (n : ℤ) : (Int64.ofInt n).toUInt64 = UInt64.ofInt n := by
  refine UInt64.toNat_inj.mp ?_
  simp [Int64.ofInt, UInt64.ofInt]
  omega

lemma toUInt32_ofInt (n : ℤ) : (UInt64.ofInt n).toUInt32 = UInt32.ofInt n := by
  refine UInt32.toNat_inj.mp ?_
  simp [UInt32.ofInt, UInt64.ofInt]
  omega

lemma toInt64_ofInt (n : ℤ) : (UInt64.ofInt n).toInt64 = Int64.ofInt n := by
  rw [← toUInt64_ofInt]
  rfl

/-- The second byte of a number. -/
lemma and_0xff00 (x : ℕ) : x &&& 0xff00 = x / 2 ^ 8 % 2 ^ 8 * 2 ^ 8 := by
  refine Nat.eq_of_testBit_eq fun i => ?_
  have hconst : 0xff00 = (2 ^ 8 - 1) <<< 8 := by decide
  rw [hconst, Nat.testBit_and, Nat.testBit_shiftLeft, Nat.testBit_two_pow_sub_one,
    ← Nat.shiftLeft_eq, Nat.testBit_shiftLeft, Nat.testBit_mod_two_pow,
    ← Nat.shiftRight_eq_div_pow, Nat.testBit_shiftRight]
  by_cases h : 8 ≤ i
  · simp [h, Bool.and_comm]
  · simp [h]

lemma toNat_cutDevice (tty : UInt32) : (cutDevice tty).1.toNat = tty.toNat / 2 ^ 8 % 2 ^ 16 ∧
    (cutDevice tty).2.toNat = tty.toNat / 2 ^ 24 * 2 ^ 8 + tty.toNat % 2 ^ 8 := by
  have hlt := tty.toNat_lt
  have hmajor : 0xffff = 2 ^ 16 - 1 := rfl
  have hminor : 0xff = 2 ^ 8 - 1 := rfl
  constructor
  · change ((tty >>> 8) &&& 0xffff).toNat = _
    rw [UInt32.toNat_and, UInt32.toNat_shiftRight]
    change (tty.toNat >>> 8) &&& 0xffff = _
    rw [hmajor, Nat.and_two_pow_sub_one_eq_mod, Nat.shiftRight_eq_div_pow]
  · change (((tty >>> 16) &&& 0xff00) ||| (tty &&& 0x00ff)).toNat = _
    rw [UInt32.toNat_or, UInt32.toNat_and, UInt32.toNat_and, UInt32.toNat_shiftRight]
    change (tty.toNat >>> 16) &&& 0xff00 ||| tty.toNat &&& 0xff = _
    rw [hminor, Nat.and_two_pow_sub_one_eq_mod, and_0xff00, Nat.shiftRight_eq_div_pow]
    rw [mul_comm, ← Nat.two_pow_add_eq_or_of_lt (Nat.mod_lt _ (by decide))]
    omega

lemma toInt32_eq_iff {x : UInt32} {n : ℕ} (hn : n < 2 ^ 32) :
    x.toInt32 = Int32.ofNat n ↔ x.toNat = n := by
  have hof : Int32.ofNat n = (UInt32.ofNat n).toInt32 := rfl
  rw [hof]
  constructor
  · intro h
    have := congrArg Int32.toUInt32 h
    rw [UInt32.toUInt32_toInt32, UInt32.toUInt32_toInt32] at this
    rw [this, UInt32.toNat_ofNat_of_lt' hn]
  · rintro rfl
    rw [UInt32.ofNat_toNat]

/-- The device is the one of the terminal when it has no bits above the first sixteen. -/
lemma cutDevice_iff (tty : UInt32) :
    (cutDevice tty).1.toInt32 = Int32.ofNat (tty.toNat / 2 ^ 8 % 2 ^ 8) ∧
      (cutDevice tty).2.toInt32 = Int32.ofNat (tty.toNat / 2 ^ 20 * 2 ^ 8 + tty.toNat % 2 ^ 8) ↔
    tty.toNat < 2 ^ 16 := by
  have hlt := tty.toNat_lt
  rw [toInt32_eq_iff (by omega), toInt32_eq_iff (by omega), (toNat_cutDevice tty).1,
    (toNat_cutDevice tty).2]
  omega

lemma toNat_ofInt (n : ℤ) : (UInt64.ofInt n).toNat = (n % 2 ^ 64).toNat := by
  rw [UInt64.ofInt, UInt64.toNat_ofNat']
  omega

lemma isSpace_of_isDigit {c : Char} (hc : c.isDigit = true) : isSpace c = false := by
  by_contra h
  rw [Bool.not_eq_false, isSpace] at h
  simp only [Bool.or_eq_true, decide_eq_true_eq] at h
  obtain (((((rfl | rfl) | rfl) | rfl) | rfl) | rfl) := h <;> exact absurd hc (by decide)

lemma splitSign_of_isDigit {c : Char} {s : Str} (hc : c.isDigit = true) :
    splitSign (c :: s) = (false, c :: s) := by
  rw [splitSign]
  · rintro t h
    cases h
    exact absurd hc (by decide)
  · rintro t h
    cases h
    exact absurd hc (by decide)

lemma takeWhile_natText (n : ℕ) {t : Str} (ht : t.head?.all fun c => !c.isDigit) :
    (natText n ++ t).takeWhile Char.isDigit = natText n := by
  rw [List.takeWhile_append_of_pos (natText_digits n)]
  cases t with
  | nil => simp
  | cons c t => simp_all

/-- A number of the line, whatever follows its digits. -/
lemma stoull_intText {n : ℤ} (hn : |n| < 2 ^ 64) {t : Str}
    (ht : t.head?.all fun c => !c.isDigit) : stoull (intText n ++ t) = .ok (UInt64.ofInt n) := by
  have habs : n.natAbs < 2 ^ 64 := by
    rw [Int.abs_eq_natAbs] at hn
    omega
  have hdigits : (natText n.natAbs ++ t).takeWhile Char.isDigit = natText n.natAbs :=
    takeWhile_natText _ ht
  rw [stoull, intText]
  by_cases hneg : n < 0
  · rw [if_pos hneg]
    have hspace : ('-' :: natText n.natAbs ++ t).dropWhile isSpace =
        '-' :: (natText n.natAbs ++ t) := rfl
    rw [hspace, splitSign]
    dsimp only
    rw [hdigits, if_neg (natText_ne_nil _), ofDigitChars_natText, if_neg (by omega), if_pos rfl]
    refine congrArg Except.ok (UInt64.toNat_inj.mp ?_)
    have hsize : UInt64.size = 2 ^ 64 := rfl
    rw [UInt64.toNat_neg, UInt64.toNat_ofNat_of_lt' habs, toNat_ofInt, hsize]
    omega
  · rw [if_neg hneg]
    obtain ⟨c, s, hcs⟩ := List.exists_cons_of_ne_nil (natText_ne_nil n.natAbs)
    have hc : c.isDigit = true := natText_digits n.natAbs c (by rw [hcs]; exact List.mem_cons_self)
    have hspace : (natText n.natAbs ++ t).dropWhile isSpace = natText n.natAbs ++ t := by
      rw [hcs, List.cons_append, List.dropWhile_cons_of_neg]
      rw [isSpace_of_isDigit hc]
      decide
    have hsign : splitSign (natText n.natAbs ++ t) = (false, natText n.natAbs ++ t) := by
      rw [hcs, List.cons_append, splitSign_of_isDigit hc]
    rw [hspace, hsign]
    dsimp only
    rw [hdigits, if_neg (natText_ne_nil _), ofDigitChars_natText, if_neg (by omega),
      if_neg (by decide)]
    refine congrArg Except.ok (UInt64.toNat_inj.mp ?_)
    rw [UInt64.toNat_ofNat_of_lt' habs, toNat_ofInt]
    omega

lemma mapM_stoull {numbers : List ℤ} (h : ∀ n ∈ numbers, |n| < 2 ^ 64) :
    (numbers.map intText).mapM stoull = .ok (numbers.map UInt64.ofInt) := by
  induction numbers with
  | nil => rfl
  | cons n numbers ih =>
    have hn : stoull (intText n) = .ok (UInt64.ofInt n) := by
      have := stoull_intText (h n List.mem_cons_self) (t := []) rfl
      rwa [List.append_nil] at this
    rw [List.map_cons, List.mapM_cons, hn, ih fun n hn => h n (List.mem_cons_of_mem _ hn)]
    rfl

lemma getValue_map (numbers : List ℤ) (idx : ℕ) :
    ProcessInfo.getValue ((numbers.map UInt64.ofInt).map UInt64.toInt64) idx =
      Int64.ofInt (numberAt numbers idx) := by
  have hzero : (0 : Int64) = Int64.ofInt 0 := rfl
  rw [ProcessInfo.getValue, numberAt, hzero, List.map_map]
  have : UInt64.toInt64 ∘ UInt64.ofInt = Int64.ofInt := funext fun n => toInt64_ofInt n
  rw [this, List.getD_eq_getElem?_getD, List.getElem?_map, List.getD_eq_getElem?_getD,
    Option.getD_map]

/-- The values are the fields that the line describes but for the device. -/
lemma ofValues_eq_described_iff (name : Str) (state : Char) (numbers : List ℤ) :
    Stat.ofValues name state (fun idx => Int64.ofInt (numberAt numbers idx)) =
      Stat.described name state numbers ↔ ttyNr numbers < 2 ^ 16 := by
  have hiff := cutDevice_iff (UInt32.ofInt (numberAt numbers 7))
  rw [Stat.ofValues, Stat.described]
  simp only [toUInt64_ofInt, toUInt32_ofInt, Int64.toInt32_ofInt, Stat.mk.injEq, true_and, and_true]
  exact hiff

/-! ### The line -/

/-- The words of a line after the name. -/
def words (state : Char) (numbers : List ℤ) : List Str :=
  match numbers.getLast? with
  | none => [[state, '\n']]
  | some n => [state] :: (numbers.dropLast.map intText ++ [intText n ++ ['\n']])

lemma words_concat (state : Char) (ns : List ℤ) (n : ℤ) :
    words state (ns ++ [n]) = [state] :: (ns.map intText ++ [intText n ++ ['\n']]) := by
  simp [words]

lemma intercalate_concat (ws : List Str) (w t : Str) :
    [' '].intercalate (ws ++ [w]) ++ t = [' '].intercalate (ws ++ [w ++ t]) := by
  induction ws with
  | nil => simp
  | cons v ws ih =>
    cases ws with
    | nil => simp [List.intercalate_cons_cons]
    | cons u ws =>
      simp only [List.cons_append, List.intercalate_cons_cons, List.append_assoc] at ih ⊢
      rw [ih]

lemma intercalate_words (state : Char) (numbers : List ℤ) :
    [' '].intercalate ([state] :: numbers.map intText) ++ ['\n'] =
      [' '].intercalate (words state numbers) := by
  obtain rfl | ⟨ns, n, rfl⟩ := numbers.eq_nil_or_concat'
  · simp [words]
  · rw [words_concat, ← List.cons_append, ← intercalate_concat, List.map_append]
    rfl

lemma findIdx?_append_cons {p : Char → Bool} {u : Str} {c : Char} (hu : ∀ d ∈ u, p d = false)
    (hc : p c = true) (v : Str) : (u ++ c :: v).findIdx? p = some u.length := by
  induction u with
  | nil => simp [List.findIdx?_cons, hc]
  | cons d u ih =>
    rw [List.cons_append, List.findIdx?_cons, hu d List.mem_cons_self,
      ih fun d hd => hu d (List.mem_cons_of_mem _ hd)]
    simp

lemma find_append {c : Char} {u : Str} (hu : c ∉ u) (v : Str) :
    find c (u ++ c :: v) = some u.length := by
  refine findIdx?_append_cons (fun d hd => ?_) (by simp) v
  have : d ≠ c := fun h => hu (h ▸ hd)
  simpa using this

lemma rfind_append {c : Char} (u : Str) {v : Str} (hv : c ∉ v) :
    rfind c (u ++ c :: v) = some u.length := by
  have hfind : (u ++ c :: v).reverse.findIdx? (fun d => d = c) = some v.length := by
    have h := find_append (c := c) (u := v.reverse) (by simpa using hv) u.reverse
    rw [find, List.length_reverse] at h
    rwa [List.reverse_append, List.reverse_cons, List.append_assoc]
  rw [rfind, hfind]
  simp

lemma intText_chars {n : ℤ} {c : Char} (hc : c ∈ intText n) : c = '-' ∨ c.isDigit = true := by
  rw [intText] at hc
  split at hc
  · obtain rfl | hc := List.mem_cons.mp hc
    · exact .inl rfl
    · exact .inr (natText_digits _ c hc)
  · exact .inr (natText_digits _ c hc)

lemma intText_ne_nil (n : ℤ) : intText n ≠ [] := by
  rw [intText]
  split
  · exact List.cons_ne_nil _ _
  · exact natText_ne_nil _

lemma notMem_intercalate {c : Char} (hc : c ≠ ' ') {ws : List Str} (h : ∀ w ∈ ws, c ∉ w) :
    c ∉ [' '].intercalate ws := by
  induction ws with
  | nil => simp
  | cons w ws ih =>
    cases ws with
    | nil => simpa using h w List.mem_cons_self
    | cons v ws =>
      rw [List.intercalate_cons_cons, List.mem_append, List.mem_append]
      rintro ((hw | hsep) | hrest)
      · exact h w List.mem_cons_self hw
      · exact hc (List.mem_singleton.mp hsep)
      · exact ih (fun w hw => h w (List.mem_cons_of_mem _ hw)) hrest

/-- The characters of the words are neither spaces nor parentheses. -/
lemma words_chars {state : Char} (hstate : state.isAlpha = true) {numbers : List ℤ} {w : Str}
    (hw : w ∈ words state numbers) :
    w ≠ [] ∧ ∀ c ∈ w, c.isAlpha = true ∨ c = '-' ∨ c.isDigit = true ∨ c = '\n' := by
  obtain rfl | ⟨ns, n, rfl⟩ := numbers.eq_nil_or_concat'
  · obtain rfl := List.mem_singleton.mp hw
    simp [hstate]
  · have hnumber : ∀ (m : ℤ) (c : Char), c ∈ intText m →
        c.isAlpha = true ∨ c = '-' ∨ c.isDigit = true ∨ c = '\n' := fun m c hc =>
      .inr ((intText_chars hc).imp_right .inl)
    rw [words_concat, List.mem_cons, List.mem_append, List.mem_map, List.mem_singleton] at hw
    obtain rfl | ⟨m, -, rfl⟩ | rfl := hw
    · simp [hstate]
    · exact ⟨intText_ne_nil m, hnumber m⟩
    · refine ⟨by simp, fun c hc => ?_⟩
      obtain hc | hc := List.mem_append.mp hc
      · exact hnumber n c hc
      · exact .inr (.inr (.inr (List.mem_singleton.mp hc)))

/-! ### What is loaded -/

lemma length_pid {pid : Int32} (hpid : 0 < pid) :
    1 ≤ (intText pid.toInt).length ∧ (intText pid.toInt).length ≤ 10 := by
  have hpos : (0 : Int32).toInt < pid.toInt := Int32.lt_iff_toInt_lt.mp hpid
  have hlt := pid.toInt_lt
  rw [Int32.toInt_zero] at hpos
  rw [intText, if_neg (by omega)]
  exact ⟨Nat.length_toDigits_pos,
    (Nat.length_toDigits_le_iff (by decide) (by decide)).mpr (by omega)⟩

/-- A line is its PID, the name between parentheses and the other words. -/
lemma statLine_eq (pid : Int32) (name : Str) (state : Char) (numbers : List ℤ) :
    statLine pid name state numbers = (intText pid.toInt ++ [' ']) ++
      '(' :: (name ++ ')' :: ' ' :: [' '].intercalate (words state numbers)) := by
  rw [statLine, intercalate_words]
  simp

/-- The first opening parenthesis is in front of the name. -/
lemma find_statLine (pid : Int32) (name : Str) (state : Char) (numbers : List ℤ) :
    find '(' (statLine pid name state numbers) = some ((intText pid.toInt).length + 1) := by
  have hnotMem : '(' ∉ intText pid.toInt ++ [' '] := by
    intro h
    obtain h | h := List.mem_append.mp h
    · obtain h | h := intText_chars h <;> exact absurd h (by decide)
    · exact absurd (List.mem_singleton.mp h) (by decide)
  rw [statLine_eq, find_append hnotMem, List.length_append]
  rfl

/-- The last closing parenthesis is behind the name, whatever the name. -/
lemma rfind_statLine (pid : Int32) (name : Str) {state : Char} (hstate : state.isAlpha = true)
    (numbers : List ℤ) : rfind ')' (statLine pid name state numbers) =
      some ((intText pid.toInt).length + 1 + 1 + name.length) := by
  have hnotMem : ')' ∉ ' ' :: [' '].intercalate (words state numbers) := by
    refine List.not_mem_cons_of_ne_of_not_mem (by decide) ?_
    refine notMem_intercalate (by decide) fun w hw h => ?_
    exact absurd ((words_chars hstate hw).2 _ h) (by decide)
  rw [statLine_eq, ← List.cons_append, ← List.append_assoc, rfind_append _ hnotMem]
  simp only [List.length_append, List.length_cons, List.length_nil, zero_add]
  congr 1
  omega

/-- The line splits at its first opening and at its last closing parenthesis. -/
lemma loadLine_statLine (tokenize : Str → Str → List Str) {s : ProcessInfo} (hpid : 0 < s.pid)
    {name : Str} (hname : name.length ≤ 63) {state : Char} (hstate : state.isAlpha = true)
    (numbers : List ℤ) :
    s.loadLine tokenize (statLine s.pid name state numbers) =
      ProcessInfo.loadFields tokenize ([' '].intercalate (words state numbers))
        { s with stat := { s.stat with name := name } } := by
  have hdigits := length_pid hpid
  have hline := statLine_eq s.pid name state numbers
  rw [ProcessInfo.loadLine, find_statLine, rfind_statLine _ _ hstate]
  generalize statLine s.pid name state numbers = line at hline
  generalize [' '].intercalate (words state numbers) = rest at hline ⊢
  set digits := intText s.pid.toInt
  have htake : line.take (digits.length + 1 - 1) = digits := by
    rw [hline, List.append_assoc, Nat.add_sub_cancel, List.take_left]
  have hdrop : line.drop (digits.length + 1 + 1) = name ++ ')' :: ' ' :: rest := by
    rw [hline, List.append_cons, List.drop_left' (by simp)]
  have hdrop' : line.drop (digits.length + 1 + 1 + name.length + 2) = rest := by
    have hsplit : digits ++ [' '] ++ '(' :: (name ++ ')' :: ' ' :: rest) =
        (digits ++ [' '] ++ '(' :: (name ++ [')', ' '])) ++ rest := by
      simp
    rw [hline, hsplit, List.drop_left' (by simp; omega)]
  have hlength : line.length = digits.length + 1 + name.length + rest.length + 3 := by
    rw [hline]
    simp
    omega
  have hcount : digits.length + 1 + 1 + name.length - (digits.length + 1) - 1 = name.length := by
    omega
  dsimp only
  rw [if_neg (by omega), if_neg (by rw [htake]; exact not_not.mpr rfl), if_neg (by omega),
    if_neg (by omega), hdrop, hdrop', hcount, List.take_left]

/-- `snapdev::tokenize_string()` finds the words between the delimiters. -/
def Tokenizes (tokenize : Str → Str → List Str) : Prop :=
  ∀ (delimiter : Char) (ws : List Str), ws ≠ [] → (∀ w ∈ ws, w ≠ [] ∧ delimiter ∉ w) →
    tokenize ([delimiter].intercalate ws) [delimiter] = ws

lemma tokenizes_words {tokenize : Str → Str → List Str} (htok : Tokenizes tokenize) {state : Char}
    (hstate : state.isAlpha = true) (numbers : List ℤ) :
    tokenize ([' '].intercalate (words state numbers)) [' '] = words state numbers := by
  refine htok ' ' _ ?_ fun w hw => ?_
  · rw [words]
    split <;> exact List.cons_ne_nil _ _
  · refine ⟨(words_chars hstate hw).1, fun h => ?_⟩
    exact absurd ((words_chars hstate hw).2 _ h) (by decide)

/-- A line with numbers. -/
lemma loadFields_words {tokenize : Str → Str → List Str} (htok : Tokenizes tokenize) {state : Char}
    (hstate : state.isAlpha = true) {numbers : List ℤ} (hne : numbers ≠ [])
    (hnumbers : ∀ n ∈ numbers, |n| < 2 ^ 64) (s : ProcessInfo) :
    ProcessInfo.loadFields tokenize ([' '].intercalate (words state numbers)) s =
      ({ s with stat := .ofValues s.stat.name state fun idx => Int64.ofInt (numberAt numbers idx) },
        none) := by
  obtain rfl | ⟨ns, n, rfl⟩ := numbers.eq_nil_or_concat'
  · exact absurd rfl hne
  have hlast : stoull (intText n ++ ['\n']) = .ok (UInt64.ofInt n) :=
    stoull_intText (hnumbers n (by simp)) rfl
  have hvalues : (ns.map intText ++ [intText n ++ ['\n']]).mapM stoull =
      .ok ((ns ++ [n]).map UInt64.ofInt) := by
    rw [List.mapM_append, mapM_stoull fun n hn => hnumbers n (by simp [hn]), List.mapM_cons, hlast,
      List.map_append]
    rfl
  have hget : ProcessInfo.getValue (((ns ++ [n]).map UInt64.ofInt).map UInt64.toInt64) =
      fun idx => Int64.ofInt (numberAt (ns ++ [n]) idx) := funext (getValue_map _)
  rw [ProcessInfo.loadFields, tokenizes_words htok hstate, words_concat]
  dsimp only
  rw [if_neg (by simp), hvalues]
  dsimp only
  rw [hget]
  rfl

/-- A line without numbers. -/
lemma loadFields_words_nil {tokenize : Str → Str → List Str} (htok : Tokenizes tokenize)
    {state : Char} (hstate : state.isAlpha = true) (s : ProcessInfo) :
    ProcessInfo.loadFields tokenize ([' '].intercalate (words state [])) s =
      ({ s with stat := { s.stat with state := state } }, none) := by
  rw [ProcessInfo.loadFields, tokenizes_words htok hstate]
  rfl

namespace ProcessInfo

lemma getPid_of_directory {P : Proc} {s : ProcessInfo} (h : P.directory s.pid = true) :
    s.getPid P = s := by
  rw [getPid, if_neg]
  rw [h]
  rintro ⟨-, h⟩
  cases h

/-- Only a process that is gone has the PID `-1`. -/
lemma pid_ne {s : ProcessInfo} (hpid : 0 < s.pid) : s.pid ≠ -1 := by
  rintro h
  rw [h] at hpid
  exact absurd hpid (by decide)

/-- What the line of a live process changes. -/
lemma loadStat_eq {tokenize : Str → Str → List Str} {P : Proc} {force : Bool} {s : ProcessInfo}
    (hload : s.stat.ppid = -1 ∨ force = true) (hpid : 0 < s.pid) (hdir : P.directory s.pid = true)
    {line : Str} (hline : P.stat s.pid = some line) :
    s.loadStat tokenize P force = s.loadLine tokenize line := by
  rw [loadStat, if_neg, getPid_of_directory hdir]
  · dsimp only
    rw [if_neg (pid_ne hpid), hline]
  · rintro ⟨hppid, hforce⟩
    obtain h | h := hload
    · exact hppid h
    · rw [hforce] at h
      cases h

/-- The loop gives the arguments in front of each NUL. -/
lemma splitArgs_append {arg : Str} (harg : nul ∉ arg) (pre : Str) (l : Str) :
    splitArgs pre (arg ++ nul :: l) =
      if l = [] then [pre ++ arg] else (pre ++ arg) :: splitArgs [] l := by
  induction arg generalizing pre with
  | nil => rw [List.nil_append, splitArgs, if_pos rfl, List.append_nil]
  | cons c arg ih =>
    rw [List.mem_cons, not_or] at harg
    rw [List.cons_append, splitArgs, if_neg (Ne.symm harg.1), ih harg.2, List.append_assoc]
    rfl

lemma splitArgs_flatMap {args : List Str} (hargs : ∀ arg ∈ args, nul ∉ arg) (hne : args ≠ []) :
    splitArgs [] (args.flatMap fun arg => arg ++ [nul]) = args := by
  induction args with
  | nil => exact absurd rfl hne
  | cons arg args ih =>
    rw [List.flatMap_cons, List.append_assoc, List.cons_append, List.nil_append,
      splitArgs_append (hargs arg List.mem_cons_self)]
    cases args with
    | nil => rfl
    | cons b args =>
      rw [if_neg (by simp), ih (fun arg h => hargs arg (List.mem_cons_of_mem _ h)) (by simp)]
      rfl

lemma loadCmdline_eq {P : Proc} {s : ProcessInfo} (hargs : s.args = []) (hpid : 0 < s.pid)
    (hdir : P.directory s.pid = true) {cmdline : Str} (hcmdline : P.cmdline s.pid = some cmdline) :
    s.loadCmdline P = { s with args := splitArgs [] cmdline } := by
  rw [loadCmdline, if_neg (not_not.mpr hargs), getPid_of_directory hdir]
  dsimp only
  rw [if_neg (pid_ne hpid), hcmdline]

end ProcessInfo

/-- A line with numbers gives the values that `load_stat()` stores. -/
lemma loadStat_of_numbers {tokenize : Str → Str → List Str} (htok : Tokenizes tokenize) {P : Proc}
    {force : Bool} {s : ProcessInfo} (hload : s.stat.ppid = -1 ∨ force = true) (hpid : 0 < s.pid)
    (hdir : P.directory s.pid = true) {name : Str} {state : Char} {numbers : List ℤ}
    (hname : name.length ≤ 63) (hstate : state.isAlpha = true) (hne : numbers ≠ [])
    (hnumbers : ∀ n ∈ numbers, |n| < 2 ^ 64)
    (hline : P.stat s.pid = some (statLine s.pid name state numbers)) :
    s.loadStat tokenize P force =
      ({ s with stat := .ofValues name state fun idx => Int64.ofInt (numberAt numbers idx) },
        none) := by
  rw [ProcessInfo.loadStat_eq hload hpid hdir hline, loadLine_statLine tokenize hpid hname hstate,
    loadFields_words htok hstate hne hnumbers]

open ProcessInfo in
/-- The fields of a line and the arguments of a command line are read as they are exactly when the
device of the terminal fits in sixteen bits and the line has numbers, or the fields were already
what they become without numbers, and when there is an argument. -/
theorem loads_exactly_iff {tokenize : Str → Str → List Str} (htok : Tokenizes tokenize) (P : Proc)
    (s : ProcessInfo) (hpid : 0 < s.pid) (hdir : P.directory s.pid = true) :
    (∀ (force : Bool) (name : Str) (state : Char) (numbers : List ℤ),
      s.stat.ppid = -1 ∨ force = true → name.length ≤ 63 → state.isAlpha = true →
      (∀ n ∈ numbers, |n| < 2 ^ 64) → P.stat s.pid = some (statLine s.pid name state numbers) →
        (s.loadStat tokenize P force = ({ s with stat := .described name state numbers }, none) ↔
          if numbers = [] then
            { s.stat with name := name, state := state } = Stat.described name state []
          else ttyNr numbers < 2 ^ 16)) ∧
      ∀ args : List Str, s.args = [] → (∀ arg ∈ args, nul ∉ arg) →
        P.cmdline s.pid = some (args.flatMap fun arg => arg ++ [nul]) →
          (((s.getArgsSize P).2 = args.length ∧
              ∀ index : Int32, 0 ≤ index → (s.getArg P index).2 = args.getD index.toInt.toNat []) ↔
            args ≠ []) := by
  refine ⟨fun force name state numbers hload hname hstate hnumbers hline => ?_,
    fun args hs hargs hcmdline => ?_⟩
  · by_cases hne : numbers = []
    · subst hne
      rw [loadStat_eq hload hpid hdir hline, loadLine_statLine tokenize hpid hname hstate,
        loadFields_words_nil htok hstate, if_pos rfl]
      simp only [Prod.mk.injEq, ProcessInfo.mk.injEq, and_true, true_and]
    · rw [loadStat_of_numbers htok hload hpid hdir hname hstate hne hnumbers hline, if_neg hne,
        ← ofValues_eq_described_iff name state]
      simp only [Prod.mk.injEq, ProcessInfo.mk.injEq, and_true, true_and]
  · have hloaded := loadCmdline_eq hs hpid hdir hcmdline
    constructor
    · rintro ⟨hsize, -⟩ rfl
      rw [getArgsSize, hloaded] at hsize
      cases hsize
    · intro hne
      rw [splitArgs_flatMap hargs hne] at hloaded
      refine ⟨by rw [getArgsSize, hloaded], fun index hindex => ?_⟩
      rw [getArg, getArgsSize, hloaded]
      dsimp only
      split
      · rename_i h
        obtain h | h := h
        · exact absurd hindex (Int32.not_le.mpr h)
        · rw [List.getD_eq_getElem?_getD, List.getElem?_eq_none (by omega)]
          rfl
      · rfl

/-- Tokens by the library's own function. -/
def splitTokens (s delimiters : Str) : List Str := s.splitOn (delimiters.headD nul)

lemma tokenizes_splitTokens : Tokenizes splitTokens := fun delimiter _ hne hws =>
  List.splitOn_intercalate delimiter (fun w hw => (hws w hw).2) hne

/-- A process, `42`, of which the files hold these numbers and these arguments. -/
def procOf (numbers : List ℤ) (args : List Str) : Proc where
  directory pid := pid = 42
  stat pid := if pid = 42 then some (statLine 42 ['t', ')', ' ', '('] 'S' numbers) else none
  cmdline pid := if pid = 42 then some (args.flatMap fun arg => arg ++ [nul]) else none

theorem loads_exactly_iff_tty :
    let P := procOf [1, 42, 42, 34816, -1] [['s', 'h'], []]
    ProcessInfo.loadStat splitTokens P false { pid := 42 } =
        ({ pid := 42, stat := .described ['t', ')', ' ', '('] 'S' [1, 42, 42, 34816, -1] }, none) ∧
      (ProcessInfo.getArgsSize P { pid := 42 }).2 = 2 := by
  intro P
  obtain ⟨hstat, hargs⟩ :=
    loads_exactly_iff tokenizes_splitTokens P { pid := 42 } (by decide) (by decide)
  refine ⟨(hstat false ['t', ')', ' ', '('] 'S' [1, 42, 42, 34816, -1] (.inl rfl) (by decide)
    (by decide) (by decide) rfl).mpr (by decide), ?_⟩
  exact ((hargs [['s', 'h'], []] rfl (by decide) rfl).mpr (by decide)).1

/-- The device number 136:300 of a pseudo terminal, and a process without arguments. -/
theorem procOf_pts :
    let P := procOf [1, 42, 42, 0x10882c] []
    let s := (ProcessInfo.loadStat splitTokens P false { pid := 42 }).1
    let t := Stat.described ['t', ')', ' ', '('] 'S' [1, 42, 42, 0x10882c]
    (s.stat.ttyMajor, s.stat.ttyMinor) = (4232, 44) ∧ (t.ttyMajor, t.ttyMinor) = (136, 300) ∧
      (ProcessInfo.getArgsSize P { pid := 42 }).2 = 1 := by
  intro P s t
  have hload : ProcessInfo.loadStat splitTokens P false { pid := 42 } = _ :=
    loadStat_of_numbers tokenizes_splitTokens (.inl rfl) (by decide) (by decide) (by decide)
      (by decide) (List.cons_ne_nil _ _) (by decide) rfl
  have hs : s = _ := congrArg Prod.fst hload
  rw [hs]
  decide

end EventDispatcher.CppProcess
