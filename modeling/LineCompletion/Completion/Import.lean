import LineCompletion.Completion.Suggestion
import LineCompletion.Module.Basic
import LineCompletion.Text.Blank
import LineCompletion.Text.Word

/-!
# Completing import statements

The last word of an import statement is the beginning of a module's name. Behind `from`, a path and
a further word, the names are those inside the path, and the path is not repeated. Nothing is
offered once the word `as` has been typed.

A statement is looked at without the white space around it, and by its words (`words`). So the word
that is completed is the last one typed, even if white space stands behind it; only a statement of a
single word is taken to be complete, with a name about to begin behind it (`splitLastWord`). The
path is the second word if the first is `from` and there is a third (`importPath?`); what the third
word is does not matter.

The names are those built into the interpreter and then those found, in the order in which they are
listed. Names built in hold no dot, so they are left out once one is typed.
-/

namespace LineCompletion

open Text

/-- Whether a text without white space around it is an import statement. -/
def isImportStatement (s : List Char) : Bool :=
  startsWithWord "import".toList s || startsWithWord "from".toList s

/-- The text up to its last white space, if it holds any. -/
def throughLastBlank (s : List Char) : List Char := (s.reverse.dropWhile (!isBlank ·)).reverse

/-- An import statement divided before its last word. A word that stands alone is complete, and the
name after it has not begun. -/
def splitLastWord (s : List Char) : List Char × List Char :=
  let start := throughLastBlank s
  if start.isEmpty then (s ++ [' '], []) else (start, s.drop start.length)

/-- The path whose inside an import statement completes, from its words. -/
def importPath? : List (List Char) → Option (List Char)
  | keyword :: path :: _ :: _ => if keyword = "from".toList then some path else none
  | _ => none

/-- The names offered for the beginning of one: those built into the interpreter until a dot is
typed, then those found. -/
def moduleNames (modules : Modules) (start : List Char) : List (List Char) :=
  let builtin := if start.contains '.' then [] else modules.builtin.map String.toList
  (builtin ++ modules.found.map fun m ↦ m.name.toList).filter start.isPrefixOf

/-- The names that an import statement offers for its last word. -/
def importNames (modules : Modules) (path? : Option (List Char)) (last : List Char) :
    List (List Char) :=
  match path? with
  | none => moduleNames modules last
  | some path =>
    (moduleNames modules (path ++ '.' :: last)).map fun name ↦ name.drop (path.length + 1)

/-- Completes the name at the end of an import statement. -/
def importSuggestions (line : List Char) (modules : Modules) : List Suggestion :=
  let statement := trim line
  let parts := words statement
  if parts.contains "as".toList then []
  else
    let (start, last) := splitLastWord statement
    let pretext := indentation line ++ start
    (importNames modules (importPath? parts) last).map fun name ↦
      Suggestion.replacing line (pretext ++ name) name

end LineCompletion
