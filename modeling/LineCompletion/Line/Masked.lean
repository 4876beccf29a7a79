import LineCompletion.Text.Literal
import LineCompletion.Number.Decimal

/-!
# Masked lines

Before a line is taken apart, each complete string literal in it gives way to a placeholder, so that
the contents of strings never look like code. A placeholder is a number between two private-use
characters; it holds neither a quote nor a delimiter. `MaskedLine.restore` puts the literals back
into any text made from the masked one.

A quote behind a backslash opens no literal, and neither does one whose closing quote is missing
from its line; such quotes stay in the masked text. `maskFrom` is a single pass from the left, which
carries along whether the last character was a backslash. It goes on behind a literal as if nothing
came before, so the quotes inside a literal are never looked at.

Restoring goes by the numbers, one placeholder after another, and replaces every occurrence of it
(`replaceAll`). So a part of a masked line is restored on its own, wherever its placeholders stand.
A line that holds placeholder text of its own is another matter: what looks like a placeholder is
replaced too.
-/

namespace LineCompletion

open Text

/-! ### Placeholders -/

/-- The character that opens a placeholder. -/
def placeholderOpen : Char := '\uE000'

/-- The character that closes a placeholder. -/
def placeholderClose : Char := '\uE001'

/-- What stands in a line for its literal of the given index. -/
def placeholder (index : Nat) : List Char :=
  placeholderOpen :: Number.digits index ++ [placeholderClose]

/-! ### Masking -/

/-- A line without its complete string literals. -/
structure MaskedLine where
  /-- The line, with a placeholder for each literal. -/
  text : List Char
  /-- The literals, quotes included, in the order of the line. -/
  literals : List (List Char)
  deriving DecidableEq, Repr

/-- The literal that a text starts with, and what follows it. -/
def leadingLiteral? : List Char → Option (List Char × List Char)
  | [] => none
  | quote :: rest =>
    if isQuote quote then
      (splitBody? quote false rest).map fun (body, after) ↦ (quote :: body ++ [quote], after)
    else none

/-- A text that starts with a literal is the literal and what follows it. -/
theorem eq_append_of_leadingLiteral? {s literal after : List Char}
    (h : leadingLiteral? s = some (literal, after)) : s = literal ++ after := by
  cases s with
  | nil => simp [leadingLiteral?] at h
  | cons quote rest =>
    simp only [leadingLiteral?] at h
    split at h
    · obtain ⟨⟨b, a⟩, hba, heq⟩ := Option.map_eq_some_iff.1 h
      obtain ⟨rfl, rfl⟩ := Prod.mk.inj heq
      simp [eq_append_of_splitBody? hba]
    · simp at h

/-- What follows a literal is shorter. -/
theorem length_lt_of_leadingLiteral? {s literal after : List Char}
    (h : leadingLiteral? s = some (literal, after)) : after.length < s.length := by
  cases s with
  | nil => simp [leadingLiteral?] at h
  | cons quote rest =>
    simp only [leadingLiteral?] at h
    split at h
    · obtain ⟨⟨b, a⟩, hba, heq⟩ := Option.map_eq_some_iff.1 h
      obtain ⟨rfl, rfl⟩ := Prod.mk.inj heq
      exact Nat.lt_succ_of_lt (length_lt_of_splitBody? hba)
    · simp at h

/-- Masks a text whose literals are numbered from `index`. The text comes right after a backslash
when `escaped` holds, and then its first character opens no literal. -/
def maskFrom (escaped : Bool) (index : Nat) (s : List Char) : MaskedLine :=
  match s with
  | [] => ⟨[], []⟩
  | c :: rest =>
    match _h : if escaped then none else leadingLiteral? (c :: rest) with
    | some (literal, after) =>
      let masked := maskFrom false (index + 1) after
      ⟨placeholder index ++ masked.text, literal :: masked.literals⟩
    | none =>
      let masked := maskFrom (c == '\\') index rest
      ⟨c :: masked.text, masked.literals⟩
termination_by s.length
decreasing_by
  · have h' : leadingLiteral? (c :: rest) = some (literal, after) := by
      revert _h; cases escaped <;> simp
    exact length_lt_of_leadingLiteral? h'
  · simp

/-- Masks every complete string literal of a line. -/
def mask (line : List Char) : MaskedLine := maskFrom false 0 line

/-! ### Restoring -/

/-- The text with every occurrence of a non-empty pattern replaced, from the left. -/
def replaceAll (pattern replacement : List Char) : (skip : Nat) → List Char → List Char
  | _, [] => []
  | skip + 1, _ :: rest => replaceAll pattern replacement skip rest
  | 0, c :: rest =>
    if pattern.isPrefixOf (c :: rest) then
      replacement ++ replaceAll pattern replacement (pattern.length - 1) rest
    else c :: replaceAll pattern replacement 0 rest

/-- Puts literals back into a text, one placeholder after another, starting at an index. -/
def restoreFrom (index : Nat) : List (List Char) → List Char → List Char
  | [], s => s
  | literal :: others, s =>
    restoreFrom (index + 1) others (replaceAll (placeholder index) literal 0 s)

/-- Puts the literals of a masked line back into a text. -/
def MaskedLine.restore (masked : MaskedLine) (s : List Char) : List Char :=
  restoreFrom 0 masked.literals s

end LineCompletion
