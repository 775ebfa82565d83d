import EventDispatcher.Base

/-!
# The names of a message

Commands, services, servers and parameters are named by words of letters, digits and
underscores.  `verifyMessageName` is the check the setters run, `ValidName` the set of names it
lets through.
-/

namespace EventDispatcher

open Lib

/-- The letters `'a'` to `'z'`. -/
def isLower (c : Char) : Bool := 'a' ≤ c && c ≤ 'z'

/-- The letters `'A'` to `'Z'`. -/
def isUpper (c : Char) : Bool := 'A' ≤ c && c ≤ 'Z'

/-- The digits `'0'` to `'9'`. -/
def isDigit (c : Char) : Bool := '0' ≤ c && c ≤ '9'

/-- The characters that can stand in a name. -/
def isNameChar (canBeLowercase : Bool) (c : Char) : Bool :=
  (isLower c && canBeLowercase) || isUpper c || isDigit c || c == '_'

/-- The value of a (signed) `char`. -/
def charValue (c : Char) : ℤ := if c.toNat < 128 then c.toNat else c.toNat - 256

/-- A name as the error of `verify_message_name()` shows it; `c` is the character that is not
accepted. -/
def showName (S : Snapdev) (c : Char) (name : Str) : Str :=
  name.flatMap fun x =>
    if charValue x < 0x20 then ['^', Char.ofNat ((x.toNat + 64) % 256)]
    -- the source tests `c` here and not the character `x` that is shown
    else if charValue c ≥ 0x7F then "\\x".toList ++ S.intToHex x true 2
    else [x]

/-- The text for an empty name. -/
def emptyNameText : Str :=
  "a message name (command, server, service, parameter, etc.) cannot be empty.".toList

/-- The text for a name with a character that is not accepted. -/
def badCharacterText (S : Snapdev) (canBeLowercase : Bool) (c : Char) (name : Str) : Str :=
  "a message name (command, server, service, parameter, etc.) must be composed of ASCII ".toList
    ++ (if canBeLowercase then "'a'..'z', ".toList else [])
    ++ "'A'..'Z', '0'..'9', or '_' only (also a command must be uppercase only), \"".toList
    ++ showName S c name ++ "\" is not valid.".toList

/-- The text for a name that starts with a digit. -/
def leadingDigitText (name : Str) : Str :=
  "a message name (command, server, service, parameter, etc.) cannot start with a digit, \"".toList
    ++ name ++ "\" is not valid.".toList

/-- The check of a name. -/
def verifyMessageName (S : Snapdev) (name : Str) (canBeEmpty : Bool := false)
    (canBeLowercase : Bool := true) : Except Exception Unit :=
  if !canBeEmpty && name.isEmpty then
    .error ⟨.invalidMessage, emptyNameText⟩
  else
    match name.find? fun c => !isNameChar canBeLowercase c with
    | some c => .error ⟨.invalidMessage, badCharacterText S canBeLowercase c name⟩
    | none =>
      if name.head?.any isDigit then .error ⟨.invalidMessage, leadingDigitText name⟩
      else .ok ()

/-- The names `verify_message_name()` accepts. -/
structure ValidName (canBeEmpty canBeLowercase : Bool) (name : Str) : Prop where
  /-- The name is not empty, unless it can be. -/
  nonempty : canBeEmpty = false → name ≠ []
  /-- The name is made of name characters. -/
  chars : ∀ c ∈ name, isNameChar canBeLowercase c = true
  /-- The name does not start with a digit. -/
  head : ∀ c, name.head? = some c → isDigit c = false

/-- `verify_message_name()` lets exactly the valid names through. -/
theorem verifyMessageName_eq_ok_iff {S : Snapdev} {name : Str} {canBeEmpty canBeLowercase : Bool} :
    verifyMessageName S name canBeEmpty canBeLowercase = .ok () ↔
      ValidName canBeEmpty canBeLowercase name := by
  rw [verifyMessageName]
  split
  · rename_i hempty
    simp only [Bool.and_eq_true, Bool.not_eq_true', List.isEmpty_iff] at hempty
    exact ⟨fun h => (nomatch h), fun h => absurd hempty.2 (h.nonempty hempty.1)⟩
  · rename_i hempty
    have hne : canBeEmpty = false → name ≠ [] := by
      intro hc hn
      exact hempty (by simp [hc, hn])
    cases hfind : name.find? fun c => !isNameChar canBeLowercase c with
    | some c =>
      refine ⟨fun h => (nomatch h), fun h => ?_⟩
      have hc := List.find?_some hfind
      rw [h.chars c (List.mem_of_find?_eq_some hfind)] at hc
      simp at hc
    | none =>
      have hchars : ∀ c ∈ name, isNameChar canBeLowercase c = true := by
        simpa [List.find?_eq_none] using hfind
      simp only
      split
      · rename_i hd
        refine ⟨fun h => (nomatch h), fun h => ?_⟩
        cases hh : name.head? with
        | none => simp [hh] at hd
        | some c =>
          rw [hh, Option.any_some, h.head c hh] at hd
          exact absurd hd (by simp)
      · rename_i hd
        refine ⟨fun _ => ⟨hne, hchars, fun c hc => ?_⟩, fun _ => rfl⟩
        simpa [hc] using hd

instance (canBeEmpty canBeLowercase : Bool) (name : Str) :
    Decidable (ValidName canBeEmpty canBeLowercase name) :=
  decidable_of_iff ((canBeEmpty = false → name ≠ []) ∧
      (∀ c ∈ name, isNameChar canBeLowercase c = true) ∧ name.head?.any isDigit = false)
    ⟨fun ⟨h₁, h₂, h₃⟩ => ⟨h₁, h₂, fun c hc => by simpa [hc] using h₃⟩,
     fun h => ⟨h.nonempty, h.chars, by
      cases hh : name.head? with
      | none => rfl
      | some c => simpa using h.head c hh⟩⟩

/-! ### What a valid name cannot contain -/

/-- A name character is a visible ASCII character. -/
lemma isNameChar_graphic {canBeLowercase : Bool} {c : Char}
    (h : isNameChar canBeLowercase c = true) : '!' ≤ c ∧ c ≤ '~' := by
  simp only [isNameChar, isLower, isUpper, isDigit, Bool.or_eq_true, Bool.and_eq_true,
    decide_eq_true_eq, beq_iff_eq] at h
  rcases h with ((⟨⟨h₁, h₂⟩, -⟩ | ⟨h₁, h₂⟩) | ⟨h₁, h₂⟩) | rfl
  · exact ⟨le_trans (by decide) h₁, le_trans h₂ (by decide)⟩
  · exact ⟨le_trans (by decide) h₁, le_trans h₂ (by decide)⟩
  · exact ⟨le_trans (by decide) h₁, le_trans h₂ (by decide)⟩
  · exact ⟨by decide, by decide⟩

/-- A character that is not a name character does not occur in a valid name. -/
lemma ValidName.notMem {canBeEmpty canBeLowercase : Bool} {name : Str}
    (h : ValidName canBeEmpty canBeLowercase name) {c : Char}
    (hc : isNameChar canBeLowercase c = false) : c ∉ name := by
  intro hmem
  rw [h.chars c hmem] at hc
  exact absurd hc (by simp)

/-- The destinations that are not names: this server, all of them, any of them. -/
def IsSpecialDestination (name : Str) : Prop := name = ['.'] ∨ name = ['*'] ∨ name = ['?']

instance (name : Str) : Decidable (IsSpecialDestination name) := by
  rw [IsSpecialDestination]
  infer_instance

/-- A name of a server or of a service a message is sent to; it can be empty. -/
def ValidDestination (name : Str) : Prop := ValidName true true name ∨ IsSpecialDestination name

instance (name : Str) : Decidable (ValidDestination name) := by
  rw [ValidDestination]
  infer_instance

/-- The characters of a destination are visible ASCII characters other than the separators of
the text format. -/
lemma ValidDestination.mem_graphic {name : Str} (h : ValidDestination name) {c : Char}
    (hc : c ∈ name) :
    '!' ≤ c ∧ c ≤ '~' ∧ c ≠ ':' ∧ c ≠ '/' ∧ c ≠ '<' ∧ c ≠ '"' ∧ c ≠ '\\' := by
  rcases h with h | h
  · have hn := h.chars c hc
    refine ⟨(isNameChar_graphic hn).1, (isNameChar_graphic hn).2, ?_, ?_, ?_, ?_, ?_⟩ <;>
      rintro rfl <;> exact absurd hn (by decide)
  · rcases h with rfl | rfl | rfl <;>
      (rw [List.mem_singleton] at hc; subst hc; decide)

end EventDispatcher
