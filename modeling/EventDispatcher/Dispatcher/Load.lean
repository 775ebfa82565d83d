import EventDispatcher.Dispatcher.Definition
import EventDispatcher.Lib.Run

/-!
# A definition that cannot be loaded

`get_message_definition()` registers a definition before it reads its file, so an error in the
file is reported once: the next call returns the part that was read.  All the calls have the same
outcome exactly when there is no such error (`leavesNoTrace_iff`).
-/

namespace EventDispatcher

open Lib

/-! ### What a file declares -/

/-- The flags that some names declare. -/
def declaredFlags (names : List Str) : UInt32 :=
  (if names.contains "required".toList then parameterFlagRequired else 0)
    ||| (if names.contains "empty".toList then parameterFlagEmpty else 0)
    ||| (if names.contains "forbidden".toList then parameterFlagForbidden else 0)

/-- The types and the flags of a section are among those that are supported. -/
structure ConfSection.Supported (T : DefinitionTools) (s : ConfSection) : Prop where
  type : ∀ type ∈ s.type, parameterType? type ≠ none
  flags : ∀ flags ∈ s.flags, ∀ f ∈ T.tokenizeString flags [','] true, parameterFlag? f ≠ none

/-- The parameter that a section declares. -/
structure ConfSection.Declares (T : DefinitionTools) (s : ConfSection) (p : MessageParameter) :
    Prop where
  name : p.name = T.optionWithUnderscores s.name
  type : s.type.elim (some .string) parameterType? = some p.type
  flags : p.flags = s.flags.elim parameterFlagDefault fun flags =>
    declaredFlags (T.tokenizeString flags [','] true)

/-- The definition has one parameter for each section of the file of the command, in order. -/
structure Environment.Declares (T : DefinitionTools) (env : Environment) (command : Str)
    (d : MessageDefinition) : Prop where
  name : d.command = command
  parameters : List.Forall₂ (ConfSection.Declares T) ((env.definitionFile T command).getD [])
    d.parameters

/-! ### Reading a file -/

/-- One more name declares its flag. -/
lemma declaredFlags_cons {f : Str} {flag : UInt32} (h : parameterFlag? f = some flag)
    (names : List Str) : declaredFlags (f :: names) = flag ||| declaredFlags names := by
  rw [parameterFlag?] at h
  have hne : "empty".toList ≠ "required".toList ∧ "forbidden".toList ≠ "required".toList ∧
      "required".toList ≠ "empty".toList ∧ "forbidden".toList ≠ "empty".toList ∧
      "required".toList ≠ "forbidden".toList ∧ "empty".toList ≠ "forbidden".toList := by decide
  obtain ⟨h₁, h₂, h₃, h₄, h₅, h₆⟩ := hne
  split_ifs at h with hrequired hempty hforbidden hother
  · cases h
    subst hrequired
    simp only [declaredFlags, List.contains_iff_mem, List.mem_cons, h₁, h₂, true_or, false_or,
      if_true]
    split_ifs <;> decide
  · cases h
    subst hempty
    simp only [declaredFlags, List.contains_iff_mem, List.mem_cons, h₃, h₄, true_or, false_or,
      if_true]
    split_ifs <;> decide
  · cases h
    subst hforbidden
    simp only [declaredFlags, List.contains_iff_mem, List.mem_cons, h₅, h₆, true_or, false_or,
      if_true]
    split_ifs <;> decide
  · cases h
    simp only [declaredFlags, List.contains_iff_mem, List.mem_cons, Ne.symm hrequired,
      Ne.symm hempty, Ne.symm hforbidden, false_or, UInt32.zero_or]

/-- The flags are read when all the names are supported. -/
lemma readFlags_eq_ok {command : Str} {flags r : UInt32} {names : List Str} :
    readFlags command flags names = .ok r ↔
      (∀ f ∈ names, parameterFlag? f ≠ none) ∧ r = flags ||| declaredFlags names := by
  induction names generalizing flags with
  | nil =>
    rw [readFlags, Except.ok.injEq]
    have hnone : flags ||| declaredFlags [] = flags := UInt32.or_zero
    rw [hnone]
    exact ⟨fun h => ⟨nofun, h.symm⟩, fun h => h.2.symm⟩
  | cons f names ih =>
    rw [readFlags, List.forall_mem_cons]
    cases hf : parameterFlag? f with
    | none => exact ⟨nofun, fun h => absurd rfl h.1.1⟩
    | some flag =>
      rw [ih, declaredFlags_cons hf, UInt32.or_assoc]
      simp

variable {S : Snapdev} {T : DefinitionTools} {B : Build}

/-- The type and the flags of a section are read one after the other. -/
lemma readParameter_eq (command : Str) (s : ConfSection) :
    readParameter T command s =
      match s.type.elim (some .string) parameterType? with
      | none => .error ⟨.invalidParameter, unsupportedTypeText command (s.type.getD [])⟩
      | some type =>
        (s.flags.elim (.ok parameterFlagDefault) fun flags =>
          readFlags command 0 (T.tokenizeString flags [','] true)).map fun flags =>
            { name := T.optionWithUnderscores s.name, type := type, flags := flags } := by
  obtain ⟨name, type, flags⟩ := s
  unfold readParameter
  cases type with
  | none =>
    cases flags with
    | none => rfl
    | some flags =>
      dsimp only [Option.elim]
      cases readFlags command 0 (T.tokenizeString flags [','] true) <;> rfl
  | some type =>
    dsimp only [Option.elim]
    cases parameterType? type with
    | none => rfl
    | some type =>
      cases flags with
      | none => rfl
      | some flags =>
        dsimp only
        cases readFlags command 0 (T.tokenizeString flags [','] true) <;> rfl

/-- The flags of a section are read when they are supported. -/
lemma sectionFlags_eq_ok {command : Str} {o : Option Str} {r : UInt32} :
    (o.elim (.ok parameterFlagDefault) fun flags =>
        readFlags command 0 (T.tokenizeString flags [','] true)) = .ok r ↔
      (∀ flags ∈ o, ∀ f ∈ T.tokenizeString flags [','] true, parameterFlag? f ≠ none) ∧
        r = o.elim parameterFlagDefault fun flags =>
          declaredFlags (T.tokenizeString flags [','] true) := by
  cases o with
  | none =>
    rw [Option.elim_none, Option.elim_none, Except.ok.injEq]
    exact ⟨fun h => ⟨nofun, h.symm⟩, fun h => h.2.symm⟩
  | some flags =>
    rw [Option.elim_some, Option.elim_some, readFlags_eq_ok, UInt32.zero_or]
    simp

/-- A section that is read gives what it declares. -/
lemma declares_of_readParameter {command : Str} {s : ConfSection} {p : MessageParameter}
    (h : readParameter T command s = .ok p) : s.Supported T ∧ s.Declares T p := by
  rw [readParameter_eq] at h
  cases htype : s.type.elim (some .string) parameterType? with
  | none =>
    rw [htype] at h
    cases h
  | some type =>
    have hsupported : ∀ t ∈ s.type, parameterType? t ≠ none := fun t ht => by
      rw [Option.mem_def.mp ht, Option.elim_some] at htype
      rw [htype]
      exact Option.some_ne_none type
    rw [htype] at h
    cases hflags : s.flags.elim (.ok parameterFlagDefault) fun flags =>
        readFlags command 0 (T.tokenizeString flags [','] true) with
    | error e =>
      rw [hflags] at h
      cases h
    | ok flags =>
      rw [hflags] at h
      cases h
      obtain ⟨hall, hdeclared⟩ := sectionFlags_eq_ok.mp hflags
      exact ⟨⟨hsupported, hall⟩, rfl, htype, hdeclared⟩

/-- A section that is supported is read. -/
lemma exists_readParameter {s : ConfSection} (h : s.Supported T) (command : Str) :
    ∃ p, readParameter T command s = .ok p := by
  obtain ⟨type, htype⟩ : ∃ type, s.type.elim (some .string) parameterType? = some type := by
    cases htype : s.type with
    | none => exact ⟨.string, rfl⟩
    | some t => exact Option.ne_none_iff_exists'.mp (h.type t htype)
  rw [readParameter_eq, htype]
  simp only [sectionFlags_eq_ok.mpr ⟨h.flags, rfl⟩]
  exact ⟨_, rfl⟩

/-- The sections of a file are read when they are all supported, each giving what it declares. -/
lemma readParameters_spec (command : Str) (sections : List ConfSection) :
    ((readParameters T command sections).1 = .ok () ↔ ∀ s ∈ sections, s.Supported T) ∧
      ((readParameters T command sections).1 = .ok () →
        List.Forall₂ (ConfSection.Declares T) sections (readParameters T command sections).2) := by
  induction sections with
  | nil => exact ⟨iff_of_true rfl nofun, fun _ => .nil⟩
  | cons s sections ih =>
    rw [readParameters, List.forall_mem_cons]
    cases hs : readParameter T command s with
    | error e =>
      have hunsupported : ¬ s.Supported T := fun h => by
        obtain ⟨p, hp⟩ := exists_readParameter h command
        rw [hs] at hp
        cases hp
      exact ⟨iff_of_false nofun fun h => hunsupported h.1, nofun⟩
    | ok p =>
      obtain ⟨hsupported, hdeclares⟩ := declares_of_readParameter hs
      exact ⟨ih.1.trans (and_iff_right hsupported).symm, fun h => .cons hdeclares (ih.2 h)⟩

namespace Environment

/-- The file of the command, if there is one, has no error; a debug build needs a file. -/
def Loads (T : DefinitionTools) (B : Build) (env : Environment) (command : Str) : Prop :=
  match env.definitionFile T command with
  | some sections => ∀ s ∈ sections, s.Supported T
  | none => B.debug = false

/-- **A definition is loaded** when its file has no error, and then has what the file declares. -/
lemma loadDefinition_spec (env : Environment) (command : Str) :
    ((env.loadDefinition T B command).1 = .ok () ↔ env.Loads T B command) ∧
      (env.Loads T B command → env.Declares T command (env.loadDefinition T B command).2) := by
  rw [loadDefinition, Loads]
  cases hfile : env.definitionFile T command with
  | some sections =>
    obtain ⟨hiff, hdeclares⟩ := readParameters_spec (T := T) command sections
    refine ⟨hiff, fun h => ⟨rfl, ?_⟩⟩
    rw [hfile]
    exact hdeclares (hiff.mpr h)
  | none =>
    simp only
    refine ⟨?_, fun _ => ⟨rfl, ?_⟩⟩
    · cases B.debug
      · exact iff_of_true rfl rfl
      · exact iff_of_false (by simp) (by simp)
    · rw [hfile]
      exact .nil

/-! ### Repeated calls -/

variable (S T B)

/-- The definitions after a call. -/
def afterGet (env : Environment) (command : Str) : Environment :=
  (env.getMessageDefinition S T B command).2

/-- However often the definition of the command is asked for, with those of other commands in
between, all the calls throw, or they all return what the file declares. -/
def LeavesNoTrace (env : Environment) (command : Str) : Prop :=
  ∀ commands : List Str,
    (∃ e, ∀ p ∈ visited (afterGet S T B) env commands, p.2 = command →
      (p.1.getMessageDefinition S T B command).1 = .error e) ∨
    (∃ d, env.Declares T command d ∧ ∀ p ∈ visited (afterGet S T B) env commands, p.2 = command →
      (p.1.getMessageDefinition S T B command).1 = .ok d)

/-- The condition: the command is refused before it is registered, or its file has no error. -/
def RefusedOrLoads (env : Environment) (command : Str) : Prop :=
  env.paths = [] ∨ (∃ e, verifyMessageName S command = .error e) ∨ env.Loads T B command

variable {S T B}

/-- What the calls of a run keep: the paths, the files, and that the command is registered with
what could be loaded. -/
structure Fixed (T : DefinitionTools) (B : Build) (env : Environment) (command : Str)
    (env' : Environment) : Prop where
  paths : env'.paths = env.paths
  files : env'.files = env.files
  registered : ∀ d, env'.registry.find? command = some d →
    d = (env.loadDefinition T B command).2

lemma Fixed.loadDefinition {env env' : Environment} {command : Str}
    (h : Fixed T B env command env') (c : Str) :
    env'.loadDefinition T B c = env.loadDefinition T B c := by
  rw [Environment.loadDefinition, Environment.loadDefinition, definitionFile, definitionFile,
    h.paths, h.files]

lemma Fixed.afterGet {env env' : Environment} {command : Str} (h : Fixed T B env command env')
    (c : Str) : Fixed T B env command (env'.afterGet S T B c) := by
  rw [Environment.afterGet, getMessageDefinition]
  split_ifs
  · exact h
  · split
    · exact h
    · split
      · exact h
      · refine ⟨h.paths, h.files, fun d hd => ?_⟩
        simp only [SortedMap.find?_insert, h.loadDefinition c] at hd
        split_ifs at hd with hc
        · cases hd
          rw [hc]
        · exact h.registered d hd

lemma fixed_start {env : Environment} {command : Str} (h : env.registry.find? command = none) :
    Fixed T B env command env :=
  ⟨rfl, rfl, fun d hd => by rw [h] at hd; cases hd⟩

/-- A call when there are paths and the name is valid. -/
lemma Fixed.result {env env' : Environment} {command : Str} (h : Fixed T B env command env')
    (hpaths : env.paths ≠ []) (hname : verifyMessageName S command = .ok ()) :
    (env'.getMessageDefinition S T B command).1 = .ok (env.loadDefinition T B command).2 ∨
      (env'.registry.find? command = none ∧ (env'.getMessageDefinition S T B command).1 =
        (env.loadDefinition T B command).1.map fun _ => (env.loadDefinition T B command).2) := by
  rw [getMessageDefinition, h.paths, if_neg hpaths, hname]
  cases hfind : env'.registry.find? command with
  | some d =>
    rw [h.registered d hfind]
    exact .inl rfl
  | none =>
    refine .inr ⟨rfl, ?_⟩
    simp only [h.loadDefinition command]

/-- A call that throws and one that returns have left a trace. -/
lemma not_leavesNoTrace_of_twice {env : Environment} {command : Str} {e : Exception}
    {d : MessageDefinition} (hfirst : (env.getMessageDefinition S T B command).1 = .error e)
    (hsecond : ((env.afterGet S T B command).getMessageDefinition S T B command).1 = .ok d) :
    ¬ env.LeavesNoTrace S T B command := by
  intro h
  have hvisited : visited (afterGet S T B) env [command, command] =
      [(env, command), (env.afterGet S T B command, command)] := rfl
  have htwo := h [command, command]
  rw [hvisited] at htwo
  rcases htwo with ⟨e', hall⟩ | ⟨d', -, hall⟩
  · have hthrown := hall (env.afterGet S T B command, command) (by simp) rfl
    rw [hsecond] at hthrown
    cases hthrown
  · have hreturned := hall (env, command) (by simp) rfl
    rw [hfirst] at hreturned
    cases hreturned

/-- The first call throws because of the file, the second one finds what was registered. -/
lemma getMessageDefinition_twice {env : Environment} {command : Str} {e : Exception}
    (hnone : env.registry.find? command = none) (hpaths : env.paths ≠ [])
    (hname : verifyMessageName S command = .ok ())
    (he : (env.loadDefinition T B command).1 = .error e) :
    (env.getMessageDefinition S T B command).1 = .error e ∧
      ((env.afterGet S T B command).getMessageDefinition S T B command).1 =
        .ok (env.loadDefinition T B command).2 := by
  have hget : env.getMessageDefinition S T B command = (.error e, { env with
      registry := env.registry.insert command (env.loadDefinition T B command).2 }) := by
    rw [getMessageDefinition, if_neg hpaths, hname, hnone]
    simp only [he]
    rfl
  refine ⟨by rw [hget], ?_⟩
  rw [afterGet, hget, getMessageDefinition, if_neg hpaths, hname]
  simp only [SortedMap.find?_insert_self]

/-- All the calls have the same outcome exactly when the command is refused or its file has no
error. -/
lemma leavesNoTrace_iff_of_find? {env : Environment} {command : Str}
    (hnone : env.registry.find? command = none) :
    env.LeavesNoTrace S T B command ↔ env.RefusedOrLoads S T B command := by
  have hstep : ∀ (env' : Environment) (c : Str), Fixed T B env command env' → True →
      Fixed T B env command (env'.afterGet S T B c) := fun env' c h _ => h.afterGet c
  have hfixed : ∀ commands, ∀ p ∈ visited (afterGet S T B) env commands,
      Fixed T B env command p.1 := fun commands =>
    (invariant_of_visited hstep (fixed_start hnone) fun _ _ => trivial).1
  constructor
  · intro h
    by_contra hcondition
    rw [RefusedOrLoads, not_or, not_or] at hcondition
    obtain ⟨hpaths, hrefused, hloads⟩ := hcondition
    have hname : verifyMessageName S command = .ok () := by
      cases hname : verifyMessageName S command with
      | error e => exact absurd ⟨e, hname⟩ hrefused
      | ok u => rfl
    obtain ⟨e, he⟩ : ∃ e, (env.loadDefinition T B command).1 = .error e := by
      cases he : (env.loadDefinition T B command).1 with
      | error e => exact ⟨e, rfl⟩
      | ok u => exact absurd ((loadDefinition_spec env command).1.mp he) hloads
    obtain ⟨hfirst, hsecond⟩ := getMessageDefinition_twice hnone hpaths hname he
    exact not_leavesNoTrace_of_twice hfirst hsecond h
  · rintro hcondition commands
    by_cases hpaths : env.paths = []
    · refine .inl ⟨⟨.invalidParameter, noPathsText command⟩, fun p hp _ => ?_⟩
      rw [getMessageDefinition, if_pos ((hfixed commands p hp).paths.trans hpaths)]
    · cases hname : verifyMessageName S command with
      | error e =>
        refine .inl ⟨e, fun p hp _ => ?_⟩
        rw [getMessageDefinition, (hfixed commands p hp).paths, if_neg hpaths, hname]
      | ok u =>
        have hloads : env.Loads T B command := by
          rcases hcondition with h | ⟨e, h⟩ | h
          · exact absurd h hpaths
          · rw [hname] at h
            cases h
          · exact h
        obtain ⟨hok, hdeclares⟩ := env.loadDefinition_spec command (T := T) (B := B)
        refine .inr ⟨_, hdeclares hloads, fun p hp _ => ?_⟩
        rcases (hfixed commands p hp).result hpaths hname with h | ⟨-, h⟩
        · exact h
        · rw [h, hok.mpr hloads]
          rfl

/-- **Repeated calls** for a command have the same outcome exactly when the command is refused
before it is registered, or its file has no error. -/
theorem leavesNoTrace_iff (S : Snapdev) (T : DefinitionTools) (B : Build) (paths : Str)
    (files : Str → Option (List ConfSection)) (command : Str) :
    ({ paths := paths, files := files } : Environment).LeavesNoTrace S T B command ↔
      ({ paths := paths, files := files } : Environment).RefusedOrLoads S T B command :=
  leavesNoTrace_iff_of_find? rfl

/-- A file with a type that does not exist. -/
def badFile : Environment where
  paths := "/p".toList
  files f :=
    if f = "/p/A.conf".toList then some [{ name := "x".toList, type := some "bool".toList }]
    else none

/-- The first call throws, the second one returns a definition without parameters. -/
theorem not_leavesNoTrace_badFile :
    (badFile.getMessageDefinition .standard .standard {} "A".toList).1 =
        .error ⟨.invalidParameter, unsupportedTypeText "A".toList "bool".toList⟩ ∧
      ((badFile.afterGet .standard .standard {} "A".toList).getMessageDefinition .standard
          .standard {} "A".toList).1 = .ok { command := "A".toList } ∧
      ¬ badFile.LeavesNoTrace .standard .standard {} "A".toList := by
  have hfirst : (badFile.getMessageDefinition .standard .standard {} "A".toList).1 =
      .error ⟨.invalidParameter, unsupportedTypeText "A".toList "bool".toList⟩ := by decide +kernel
  have hsecond : ((badFile.afterGet .standard .standard {} "A".toList).getMessageDefinition
      .standard .standard {} "A".toList).1 = .ok { command := "A".toList } := by decide +kernel
  exact ⟨hfirst, hsecond, not_leavesNoTrace_of_twice hfirst hsecond⟩

end Environment

end EventDispatcher
