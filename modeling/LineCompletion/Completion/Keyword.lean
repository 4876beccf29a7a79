/-!
# Keywords

The words of the language itself, with what is appended to each when it is completed: a space before
an operand, a colon where a block opens at once, or nothing after a word that stands alone.
-/

namespace LineCompletion

/-- A word of the language. -/
structure Keyword where
  /-- The word. -/
  word : String
  /-- What is appended to it. -/
  suffix : String
  deriving DecidableEq, Repr

namespace Keyword

/-- The words of the scripting language. -/
def standard : List Keyword := [
  ⟨"False", ""⟩, ⟨"None", ""⟩, ⟨"True", ""⟩, ⟨"and", " "⟩, ⟨"as", " "⟩, ⟨"assert", " "⟩,
  ⟨"async", " "⟩, ⟨"await", " "⟩, ⟨"break", ""⟩, ⟨"class", " "⟩, ⟨"continue", ""⟩, ⟨"def", " "⟩,
  ⟨"del", " "⟩, ⟨"elif", " "⟩, ⟨"else", ""⟩, ⟨"except", " "⟩, ⟨"finally", ":"⟩, ⟨"for", " "⟩,
  ⟨"from", " "⟩, ⟨"global", " "⟩, ⟨"if", " "⟩, ⟨"import", " "⟩, ⟨"in", " "⟩, ⟨"is", " "⟩,
  ⟨"lambda", " "⟩, ⟨"nonlocal", " "⟩, ⟨"not", " "⟩, ⟨"or", " "⟩, ⟨"pass", ""⟩, ⟨"raise", " "⟩,
  ⟨"return", " "⟩, ⟨"try", ":"⟩, ⟨"while", " "⟩, ⟨"with", " "⟩, ⟨"yield", " "⟩]

/-- Whether a word is among the keywords. -/
def isKeyword (keywords : List Keyword) (word : String) : Bool :=
  keywords.any (·.word == word)

/-- The keywords that start with a text, in their order. -/
def startingWith (keywords : List Keyword) (start : List Char) : List Keyword :=
  keywords.filter fun k ↦ start.isPrefixOf k.word.toList

/-- A keyword as it is completed. -/
def completed (k : Keyword) : List Char := k.word.toList ++ k.suffix.toList

end Keyword

end LineCompletion
