import LineCompletion.Number.Decimal
import LineCompletion.Text.Order
import LineCompletion.Text.Width

/-!
# Listings

Several matches are listed above the line in rows and columns that fit the terminal. The matches are
sorted by code point and fill the rows from left to right. Every cell is as wide as the widest
match, and there is at least one column, however narrow the terminal. A style paints the matches and
leaves the space around them alone.

Widths are columns of the terminal and not characters (`Text.displayWidth`), and they are taken of
the bare match: terminal codes take none, so a painted match is filled up as the bare one would be
(`Layout.cell`). Every match is filled up to the full width, the last one of a row too.

The numbers in a terminal code are those of the style, in a fixed order: bold, underline, reversed,
the colour behind the text and the colour of the text (`Style.codes`). One code switches all of them
on, and one code of zero switches them off behind each match; a style that asks for nothing has no
codes at all (`Style.opening`). `Layout.listingIn` takes the codes in front of a match as they are,
so that what is said of a listing does not depend on how a style is written.
-/

namespace LineCompletion

open Text

/-! ### Styles -/

/-- The colours that terminals have names for. -/
inductive NamedColor where
  /-- Black. -/
  | black
  /-- Red. -/
  | red
  /-- Green. -/
  | green
  /-- Yellow. -/
  | yellow
  /-- Blue. -/
  | blue
  /-- Purple. -/
  | purple
  /-- Cyan. -/
  | cyan
  /-- White. -/
  | white
  deriving DecidableEq, Repr

/-- The place of a named colour in the palette. -/
def NamedColor.index : NamedColor → Nat
  | .black => 0
  | .red => 1
  | .green => 2
  | .yellow => 3
  | .blue => 4
  | .purple => 5
  | .cyan => 6
  | .white => 7

/-- A colour. -/
inductive Color where
  /-- One with a name. -/
  | named (color : NamedColor)
  /-- One of a palette of 256. -/
  | indexed (index : Nat)
  /-- A mixture of red, green and blue. -/
  | mixed (red green blue : Nat)
  deriving DecidableEq, Repr

/-- Numbers with semicolons between them. -/
def semicolons (codes : List Nat) : List Char := [';'].intercalate (codes.map Number.digits)

/-- The codes for a colour, the named ones counted from a given code. -/
def Color.codes (base : Nat) : Color → List Nat
  | .named color => [base + color.index]
  | .indexed index => [base + 8, 5, index]
  | .mixed red green blue => [base + 8, 2, red, green, blue]

/-- How matches are painted. -/
structure Style where
  /-- Colour of the text. -/
  foreground : Option Color
  /-- Colour behind the text. -/
  background : Option Color
  /-- Bold text. -/
  bold : Bool
  /-- Underlined text. -/
  underline : Bool
  /-- Text and background exchanged. -/
  reversed : Bool
  deriving DecidableEq, Repr

/-- Text as it is. -/
def Style.plain : Style := ⟨none, none, false, false, false⟩

/-- The codes that switch a style on. -/
def Style.codes (style : Style) : List Nat :=
  (if style.bold then [1] else []) ++ (if style.underline then [4] else []) ++
    (if style.reversed then [7] else []) ++ (style.background.elim [] (Color.codes 40)) ++
    (style.foreground.elim [] (Color.codes 30))

/-- The character that starts a terminal code. -/
def escape : Char := '\x1b'

/-- The terminal code of some numbers. -/
def terminalCode (numbers : List Nat) : List Char := escape :: '[' :: semicolons numbers ++ ['m']

/-- The terminal codes in front of text in a style: one for all that is switched on, if anything
is. -/
def Style.opening (style : Style) : List (List Nat) :=
  if style.codes.isEmpty then [] else [style.codes]

/-- Text behind terminal codes, which are switched off after it. Without codes it stays as it is. -/
def paint (opening : List (List Nat)) (s : List Char) : List Char :=
  if opening.isEmpty then s else opening.flatMap terminalCode ++ s ++ terminalCode [0]

/-! ### Layout -/

/-- How a listing is laid out. -/
structure Layout where
  /-- Spaces between columns. -/
  padding : Nat
  /-- How matches are painted. -/
  style : Style
  deriving DecidableEq, Repr

namespace Layout

/-- Two spaces between columns, and no style. -/
def standard : Layout := ⟨2, .plain⟩

/-- How many columns of a given width fit the terminal, at least one. -/
def columns (layout : Layout) (columnWidth terminalWidth : Nat) : Nat :=
  max 1 (terminalWidth / max 1 (columnWidth + layout.padding))

/-- Rows of a given number of items and one more, the last row being shorter if need be. -/
def rows {α : Type} (others : Nat) : List α → List (List α)
  | [] => []
  | item :: rest => (item :: rest.take others) :: rows others (rest.drop others)
termination_by items => items.length
decreasing_by simp only [List.length_drop, List.length_cons]; omega

/-- A match in a cell of the given width, behind terminal codes. A style takes no columns, so the
cell is filled by the width of the bare match. -/
def cell (opening : List (List Nat)) (width : Nat) (s : List Char) : List Char :=
  paint opening s ++ List.replicate (width - displayWidth s) ' '

/-- The columns that the widest of some matches takes. -/
def widest (found : List (List Char)) : Nat := (found.map displayWidth).foldl max 0

/-- The rows of a listing, each ending in a line break, with terminal codes in front of every
match. -/
def listingIn (layout : Layout) (opening : List (List Nat)) (found : List (List Char))
    (terminalWidth : Nat) : List Char :=
  let sorted := found.mergeSort precedes
  let width := widest sorted
  let gap := List.replicate layout.padding ' '
  (rows (layout.columns width terminalWidth - 1) sorted).flatMap fun row ↦
    gap.intercalate (row.map (cell opening width)) ++ ['\n']

/-- The rows of a listing in the style of its layout. -/
def listing (layout : Layout) (found : List (List Char)) (terminalWidth : Nat) : List Char :=
  layout.listingIn layout.style.opening found terminalWidth

end Layout

end LineCompletion
