import Mathlib.Data.List.DropRight
import Mathlib.Data.Char
import Mathlib.Data.List.Lex
import EventDispatcher.Lib.Substitution

/-!
# Strings, exceptions and the helper library

A `std::string` is the list of its bytes, written as characters.  The functions that the
library takes from *snapdev* are not part of the repository: `Snapdev` lists the ones that are
called, with the behaviour the callers rely on as fields.
-/

namespace EventDispatcher

open Lib

/-- A property of the elements of a list is decided along the list, also for the types with
finitely many values. -/
instance (priority := high) decidableForallMem {α : Type*} (l : List α) (p : α → Prop)
    [DecidablePred p] : Decidable (∀ a ∈ l, p a) :=
  List.decidableBAll p l

/-- A `std::string`: its bytes in order, one `Char` for each byte. -/
abbrev Str := List Char

/-- The NUL character, which ends a C string. -/
def nul : Char := '\x00'

/-- The text a `char const *` walk sees: the bytes before the first NUL. -/
def cStr (s : Str) : Str := s.takeWhile fun c => c != nul

lemma cStr_of_notMem {s : Str} (h : nul ∉ s) : cStr s = s := by
  rw [cStr, List.takeWhile_eq_self_iff]
  intro c hc
  have : c ≠ nul := fun heq => h (heq ▸ hc)
  simpa using this

/-- The exception classes of the library. -/
inductive ExceptionClass where
  | parameterError
  | implementationError
  | invalidCallback
  | invalidMessage
  | invalidParameter
  | recursiveCall
  | runtimeError
deriving DecidableEq, Repr

/-- An exception: its class and its text. -/
structure Exception where
  /-- The class that a `catch` selects. -/
  cls : ExceptionClass
  /-- What `what()` returns. -/
  what : Str
deriving DecidableEq, Repr

/-- The functions of the snapdev library that the code calls. -/
structure Snapdev where
  /-- The characters that `trim_string()` removes. -/
  blank : Char → Bool
  /-- `snapdev::trim_string()` -/
  trimString : Str → Str
  /-- `snapdev::string_replace_many()` -/
  stringReplaceMany : Str → Pairs Char → Str
  /-- `snapdev::int_to_hex()`, with its uppercase flag and its width -/
  intToHex : Char → Bool → ℕ → Str
  /-- The blanks at both ends are removed, and nothing else. -/
  trimString_eq : ∀ s, trimString s = (s.dropWhile blank).rdropWhile blank
  /-- The space is a blank. -/
  blank_space : blank ' ' = true
  /-- The visible ASCII characters are not blanks. -/
  not_blank_of_graphic : ∀ c, '!' ≤ c → c ≤ '~' → blank c = false
  /-- The replacement is one left-to-right pass, the first pair that matches being used. -/
  stringReplaceMany_pass : ∀ s pairs, KeysNonempty pairs → Pass pairs s (stringReplaceMany s pairs)

namespace Snapdev

variable (S : Snapdev)

lemma stringReplaceMany_eq {pairs : Pairs Char} (hne : KeysNonempty pairs) (s : Str) :
    S.stringReplaceMany s pairs = replaceMany pairs s :=
  (pass_iff hne).mp (S.stringReplaceMany_pass s pairs hne)

/-- Blanks that follow a text without blanks at its ends are removed. -/
lemma trimString_append_blank {s b : Str} (hne : s ≠ [])
    (hhead : ∀ c, s.head? = some c → S.blank c = false)
    (hlast : ∀ c, s.getLast? = some c → S.blank c = false)
    (hb : ∀ c ∈ b, S.blank c = true) : S.trimString (s ++ b) = s := by
  obtain ⟨c, s', rfl⟩ := List.exists_cons_of_ne_nil hne
  have hc := hhead c rfl
  rw [S.trimString_eq, List.cons_append, List.dropWhile_cons, hc, if_neg (by simp),
    ← List.cons_append]
  have key : ∀ b : Str, (∀ c ∈ b, S.blank c = true) →
      ((c :: s') ++ b).rdropWhile S.blank = (c :: s') := by
    intro b
    induction b using List.reverseRecOn with
    | nil =>
      intro _
      rw [List.append_nil, List.rdropWhile_eq_self_iff]
      intro hne'
      rw [hlast _ (List.getLast?_eq_some_getLast hne')]
      simp
    | append_singleton b d ih =>
      intro hb
      rw [← List.append_assoc, List.rdropWhile_concat_pos _ _ _ (hb d (by simp))]
      exact ih fun e he => hb e (by simp [he])
  exact key b hb

/-- Trimming twice is trimming once. -/
lemma trimString_trimString (s : Str) : S.trimString (S.trimString s) = S.trimString s := by
  rw [S.trimString_eq (S.trimString s)]
  rw [S.trimString_eq s]
  have hdrop : ((s.dropWhile S.blank).rdropWhile S.blank).dropWhile S.blank =
      (s.dropWhile S.blank).rdropWhile S.blank := by
    rw [List.dropWhile_eq_self_iff]
    intro hlen
    have hpre := List.rdropWhile_prefix S.blank (s.dropWhile S.blank)
    have hne : (s.dropWhile S.blank) ≠ [] := by
      intro h
      rw [h] at hlen
      simp at hlen
    have hlen' : 0 < (s.dropWhile S.blank).length := List.length_pos_iff.mpr hne
    have hget : ((s.dropWhile S.blank).rdropWhile S.blank)[0] = (s.dropWhile S.blank)[0] :=
      hpre.getElem hlen
    rw [hget]
    have := List.head_dropWhile_not S.blank hne
    simpa [List.head_eq_getElem] using this
  rw [hdrop, List.rdropWhile_idempotent]

/-- The two uppercase hexadecimal digits of a byte. -/
def hexadecimalByte (c : Char) : Str :=
  let digit (n : ℕ) : Char := Char.ofNat (if n < 10 then 48 + n else 55 + n)
  [digit (c.toNat / 16 % 16), digit (c.toNat % 16)]

/-- The functions of the library for the blanks of the C locale. -/
def standard : Snapdev where
  blank c := c ∈ [' ', '\t', '\n', '\x0b', '\x0c', '\r']
  trimString s := (s.dropWhile fun c => c ∈ [' ', '\t', '\n', '\x0b', '\x0c', '\r']).rdropWhile
    fun c => c ∈ [' ', '\t', '\n', '\x0b', '\x0c', '\r']
  stringReplaceMany s pairs := replaceMany pairs s
  intToHex c _ _ := hexadecimalByte c
  trimString_eq _ := rfl
  blank_space := by decide
  not_blank_of_graphic c h _ := by
    rw [decide_eq_false_iff_not]
    intro hmem
    simp only [List.mem_cons, List.not_mem_nil, or_false] at hmem
    rcases hmem with rfl | rfl | rfl | rfl | rfl | rfl <;> exact absurd h (by decide)
  stringReplaceMany_pass s _ hne := replaceMany_pass hne s

instance : Inhabited Snapdev := ⟨standard⟩

end Snapdev

end EventDispatcher
