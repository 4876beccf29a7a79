import LineCompletion.Text.Grapheme
import LineCompletion.Text.Utf8

/-!
# Line buffers

The line being edited, held as the text before the cursor and the text after it. Editing acts on the
text before the cursor, so the text after it stays as it is, and the cursor is always between two
characters. A buffer also records what was asked of the terminal: the listings written above the
line and the number of times the line was to be drawn again.

A terminal deletes and moves by grapheme clusters. Deleting takes clusters off the end of the text
before the cursor (`LineBuffer.deleteLeft`). The cursor is moved to the last boundary between
clusters of the whole line that is not beyond a byte offset (`LineBuffer.setCursor`), so it may be
asked to stand anywhere and stands at a boundary. An insertion puts it behind what was inserted,
whether or not that is a boundary of the line.
-/

namespace LineCompletion

open Text

/-- The line being edited, with a record of what was asked of the terminal. -/
structure LineBuffer where
  /-- The text before the cursor. -/
  before : List Char
  /-- The text after the cursor. -/
  after : List Char
  /-- Columns of the terminal. -/
  width : Nat
  /-- The listings written so far, oldest first. -/
  listings : List (List Char)
  /-- How often the line was to be drawn again. -/
  redisplays : Nat
  deriving DecidableEq, Repr

namespace LineBuffer

/-- A fresh buffer that holds a text, the cursor at its end. -/
def ofText (width : Nat) (text : List Char) : LineBuffer := ⟨text, [], width, [], 0⟩

/-- The whole line. -/
def text (b : LineBuffer) : List Char := b.before ++ b.after

/-- The byte offset of the cursor. -/
def cursor (b : LineBuffer) : Nat := byteLength b.before

/-! ### Editing -/

/-- Inserts text at the cursor, which ends up behind it. -/
def insert (b : LineBuffer) (text : List Char) : LineBuffer := { b with before := b.before ++ text }

/-- Deletes grapheme clusters to the left of the cursor, as many as given. -/
def deleteLeft (b : LineBuffer) (count : Nat) : LineBuffer :=
  { b with before := Grapheme.dropLast count b.before }

/-- Replaces the whole line; the cursor ends up behind it. -/
def setText (b : LineBuffer) (text : List Char) : LineBuffer :=
  { b with before := text, after := [] }

/-- Empties the line. -/
def clear (b : LineBuffer) : LineBuffer := b.setText []

/-! ### Moving the cursor -/

/-- Divides grapheme clusters after as many of them as fit in a number of bytes. -/
def splitClusters : List (List Char) → Nat → List (List Char) × List (List Char)
  | [], _ => ([], [])
  | cluster :: rest, bytes =>
    if byteLength cluster ≤ bytes then
      let (before, after) := splitClusters rest (bytes - byteLength cluster)
      (cluster :: before, after)
    else ([], cluster :: rest)

/-- Moves the cursor to the last boundary between grapheme clusters that is not beyond a byte
offset. -/
def setCursor (b : LineBuffer) (offset : Nat) : LineBuffer :=
  let (before, after) := splitClusters (Grapheme.clusters b.text) offset
  { b with before := before.flatten, after := after.flatten }

/-- Nothing is lost where clusters are divided. -/
theorem splitClusters_append (clusters : List (List Char)) (bytes : Nat) :
    (splitClusters clusters bytes).1 ++ (splitClusters clusters bytes).2 = clusters := by
  fun_induction splitClusters clusters bytes <;> simp_all

/-- Moving the cursor leaves the line as it is. -/
theorem text_setCursor (b : LineBuffer) (offset : Nat) : (b.setCursor offset).text = b.text := by
  simp only [setCursor, text]
  rw [← List.flatten_append, splitClusters_append, Grapheme.clusters_flatten]

/-! ### Asking the terminal -/

/-- Asks for the line to be drawn again. -/
def requestRedisplay (b : LineBuffer) : LineBuffer := { b with redisplays := b.redisplays + 1 }

/-- Writes a listing above the line. -/
def writeListing (b : LineBuffer) (listing : List Char) : LineBuffer :=
  { b with listings := b.listings ++ [listing] }

end LineBuffer

end LineCompletion
