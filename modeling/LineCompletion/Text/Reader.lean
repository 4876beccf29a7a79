/-!
# Readers

A reader takes something off the start of a text. What it leaves is always shorter than what it was
given, so reading things one after another ends.
-/

namespace LineCompletion

/-- Reads values off the start of a text, or fails with a cause. -/
structure Reader (ε α : Type) where
  /-- Reads one value; gives it with the text after it. -/
  run : List Char → Except ε (α × List Char)
  /-- Something was read. -/
  progress : ∀ {s value rest}, run s = .ok (value, rest) → rest.length < s.length

end LineCompletion
