import LineCompletion.Text.CharSet

/-!
# White space

The white space of Unicode 17, and the two ways a line is taken apart at it: trimming the ends, and
splitting into words. `trimEnd_append_trailingBlanks` says that trimming the end loses nothing.
-/

namespace LineCompletion.Text

/-- Every white space character. -/
def blanks : CharSet where
  ranges := [(0x9, 0xD), (0x20, 0x20), (0x85, 0x85), (0xA0, 0xA0), (0x1680, 0x1680),
    (0x2000, 0x200A), (0x2028, 0x2029), (0x202F, 0x202F), (0x205F, 0x205F), (0x3000, 0x3000)]

/-- Whether a character is white space. -/
def isBlank (c : Char) : Bool := blanks.contains c

/-! ### Trimming -/

/-- The text without the white space it starts with. -/
def trimStart (s : List Char) : List Char := s.dropWhile isBlank

/-- The text without the white space it ends with. -/
def trimEnd (s : List Char) : List Char := (s.reverse.dropWhile isBlank).reverse

/-- The white space a text ends with. -/
def trailingBlanks (s : List Char) : List Char := (s.reverse.takeWhile isBlank).reverse

/-- The white space a text starts with; all of it when nothing else is there. -/
def indentation (s : List Char) : List Char := s.takeWhile isBlank

/-- The text without white space at either end. -/
def trim (s : List Char) : List Char := trimEnd (trimStart s)

theorem trimEnd_append_trailingBlanks (s : List Char) : trimEnd s ++ trailingBlanks s = s := by
  rw [trimEnd, trailingBlanks, ← List.reverse_append, List.takeWhile_append_dropWhile,
    List.reverse_reverse]

theorem indentation_append_trimStart (s : List Char) : indentation s ++ trimStart s = s :=
  List.takeWhile_append_dropWhile

theorem isBlank_of_mem_trailingBlanks {s : List Char} {c : Char} (h : c ∈ trailingBlanks s) :
    isBlank c = true :=
  List.all_takeWhile |> fun all ↦ by
    simpa using (List.all_eq_true.1 all) c (List.mem_reverse.1 h)

theorem length_trimStart_le (s : List Char) : (trimStart s).length ≤ s.length :=
  (List.dropWhile_suffix _).length_le

/-! ### Words -/

/-- The word that a text starts with, empty before white space, and the words after it. -/
def leadingWord : List Char → List Char × List (List Char)
  | [] => ([], [])
  | c :: rest =>
    let (word, others) := leadingWord rest
    if isBlank c then ([], if word.isEmpty then others else word :: others)
    else (c :: word, others)

/-- The longest runs of characters that are not white space. -/
def words (s : List Char) : List (List Char) :=
  let (word, others) := leadingWord s
  if word.isEmpty then others else word :: others

end LineCompletion.Text
