import LineCompletion.Line.Masked
import LineCompletion.Line.LastExpression
import LineCompletion.Text.Blank
import LineCompletion.Text.Numeric

/-!
# Lines taken apart

A line is taken apart around the thing being completed: what comes before, the expression whose
value decides what to offer, the bracket of a lookup, the white space typed after it, and the
fragment typed so far. For a line that ends in `a['pe` these are what comes before `a`, then `a`,
the bracket with its quote, nothing, and `pe`.

String literals are masked first. The first quote left over opens a key or a string that is still
being typed, and everything from it on is the fragment. A bare number at the end is the beginning of
an index.

**In four stages**, each a function on a draft of the parts:

* `Draft.ofMasked` finds the fragment behind an open quote, the last expression in front of it, and
  the padding around that;
* `Draft.takeIndex` takes a bare number for the fragment, and looks for the expression before it;
* `Draft.takeLookup` takes the bracket off the end of the expression, and the quote off the start of
  the fragment;
* `Draft.takeCall` puts a bracket that opens arguments out of the way.

At the end the literals are put back into the parts one by one. The parts are not cut from the line
itself, so that they make up the line again is something to be proved, and does not hold of every
line.
-/

namespace LineCompletion

open Text

/-- How a line ends in a lookup. -/
inductive Lookup where
  /-- It does not. -/
  | absent
  /-- With an opening bracket. -/
  | bracket
  /-- With an opening bracket and the quote that opens a key. -/
  | key (quote : Char)
  deriving DecidableEq, Repr

/-- The lookup as it was typed. -/
def Lookup.text : Lookup → List Char
  | .absent => []
  | .bracket => ['[']
  | .key quote => ['[', quote]

/-- The quote that opened the key being typed, if any. -/
def Lookup.quote? : Lookup → Option Char
  | .key quote => some quote
  | _ => none

/-- A line taken apart around the thing being completed. -/
structure Decomposition where
  /-- Everything before the expression, kept as it is in every completion. -/
  pretext : List Char
  /-- The expression whose value decides what to offer. -/
  expr : List Char
  /-- How the line ends in a lookup. -/
  lookup : Lookup
  /-- White space typed between the expression and the fragment. -/
  padding : List Char
  /-- What has been typed of the completion so far. -/
  fragment : List Char
  deriving DecidableEq, Repr

namespace Decomposition

/-- Whether a text is a number: not empty, and numeric throughout. -/
def isNumber (s : List Char) : Bool := !s.isEmpty && s.all isNumeric

/-- The text before the first occurrence of a character, and the text from it on. -/
def splitAtFirst? (c : Char) (s : List Char) : Option (List Char × List Char) :=
  if s.contains c then some (s.span (· != c)) else none

/-- Divides a masked text before the quote of a string that is still being typed. A single quote is
looked for first. -/
def splitAtOpenQuote (s : List Char) : List Char × Option (List Char) :=
  match splitAtFirst? '\'' s <|> splitAtFirst? '"' s with
  | some (before, typed) => (before, some typed)
  | none => (s, none)

/-- A masked line in the course of being taken apart. The fragment may still be missing. -/
structure Draft where
  /-- Everything before the expression. -/
  pretext : List Char
  /-- The expression. -/
  expr : List Char
  /-- White space between the expression and the fragment. -/
  padding : List Char
  /-- What has been typed of the completion, if that is known. -/
  fragment : Option (List Char)

/-- Finds the fragment that an open quote starts, and the last expression before it. White space
after the expression is padding; without any, so is white space before it. -/
def Draft.ofMasked (masked : List Char) : Draft :=
  let (text, fragment) := splitAtOpenQuote masked
  let (pretext, expr) := lastExpression (trimEnd text)
  if (trailingBlanks text).isEmpty then
    ⟨trimEnd pretext, expr, trailingBlanks pretext, fragment⟩
  else ⟨pretext, expr, trailingBlanks text, fragment⟩

/-- Takes a bare number for the beginning of an index, and looks for the expression before it. -/
def Draft.takeIndex (d : Draft) : Draft :=
  if d.fragment.isNone && isNumber d.expr then
    let (pretext, expr) := lastExpression d.pretext
    ⟨pretext, expr, d.padding, some d.expr⟩
  else d

/-- Takes the bracket at the end of the expression for a lookup, with the quote that starts the
fragment. The expression before the bracket is looked for unless something comes before it. -/
def Draft.takeLookup (d : Draft) : Lookup × Draft :=
  if d.expr.getLast? = some '[' then
    let (pretext, expr) :=
      if d.pretext.isEmpty then lastExpression d.expr.dropLast else (d.pretext, d.expr)
    match d.fragment with
    | some (c :: rest) =>
      if isQuote c then (.key c, ⟨pretext, expr, d.padding, some rest⟩)
      else (.bracket, ⟨pretext, expr, d.padding, some (c :: rest)⟩)
    | fragment => (.bracket, ⟨pretext, expr, d.padding, fragment⟩)
  else (.absent, d)

/-- Takes a bracket that opens arguments out of the way, so that nothing is left to complete. -/
def Draft.takeCall (d : Draft) : Draft :=
  if d.pretext.isEmpty && d.expr.getLast? = some '(' then { d with pretext := d.expr, expr := [] }
  else d

end Decomposition

/-- Takes a line apart around the thing being completed. -/
def decompose (line : List Char) : Decomposition :=
  let masked := mask line
  -- A number is taken off before the bracket in front of it can show.
  let (lookup, draft) := (Decomposition.Draft.ofMasked masked.text).takeIndex.takeLookup
  let parts := draft.takeCall
  { pretext := masked.restore parts.pretext
    expr := masked.restore parts.expr
    lookup := lookup
    padding := parts.padding
    fragment := masked.restore (parts.fragment.getD []) }

end LineCompletion
