/-!
# The last expression of a line

Completion acts on the expression that a line ends in. It is found by walking back from the end:
brackets are counted without telling their kinds apart, and the first delimiter met outside brackets
ends the expression.

A bracket that closes counts, and is never a delimiter on this way, as it is met from its far side;
one that opens takes the count back, and is a delimiter where nothing is open. So a text that ends
in an open bracket has no expression behind it, and then the whole text counts as the expression
(`lastExpression`). `lastExpression_append` says that the two parts make up the text.
-/

namespace LineCompletion

/-- Whether a character ends an expression when it is met outside brackets. -/
def isDelimiter (c : Char) : Bool := " \t\n`~!@#$%^&*-=+\\|;:,<>[]()\x7b\x7d/?".toList.contains c

/-- Whether a character opens a bracket. -/
def isOpener (c : Char) : Bool := c == '(' || c == '[' || c == '{'

/-- Whether a character closes a bracket. -/
def isCloser (c : Char) : Bool := c == ')' || c == ']' || c == '}'

/-- Divides a text, written backwards, before its first delimiter outside brackets, given how many
brackets are open. -/
def splitBackwards : (nesting : Nat) → List Char → List Char × List Char
  | _, [] => ([], [])
  | nesting, c :: rest =>
    let take (nesting : Nat) :=
      let (expr, before) := splitBackwards nesting rest
      (c :: expr, before)
    if isCloser c then take (nesting + 1)
    else match nesting with
      | outer + 1 => take (if isOpener c then outer else outer + 1)
      | 0 => if isDelimiter c then ([], c :: rest) else take 0

/-- Everything before the last expression of a text, and the expression. A delimiter at the very end
opens what is still to be typed, so the whole text counts as the expression then. -/
def lastExpression (s : List Char) : List Char × List Char :=
  match splitBackwards 0 s.reverse with
  | ([], _) => ([], s)
  | (expr, before) => (before.reverse, expr.reverse)

/-- Nothing is lost where the text is divided. -/
theorem splitBackwards_append (nesting : Nat) (s : List Char) :
    (splitBackwards nesting s).1 ++ (splitBackwards nesting s).2 = s := by
  induction s generalizing nesting with
  | nil => rfl
  | cons c rest ih =>
    simp only [splitBackwards]
    split
    · simpa using ih _
    · split
      · simpa using ih _
      · split
        · rfl
        · simpa using ih _

/-- **The two parts make up the text.** -/
theorem lastExpression_append (s : List Char) :
    (lastExpression s).1 ++ (lastExpression s).2 = s := by
  have h := splitBackwards_append 0 s.reverse
  unfold lastExpression
  split
  · simp
  · rename_i expr before heq
    rw [heq] at h
    simpa using congrArg List.reverse h

end LineCompletion
