import LineCompletion.Text.Alphabetic
import LineCompletion.Text.Numeric

/-!
# Names

A name is made of letters, numeric characters and underscores. Where a name may begin differs: a
free-standing name begins with a letter or an underscore, a member name with anything but an ASCII
digit.
-/

namespace LineCompletion.Text

/-- Whether a character is a letter or numeric. -/
def isAlphanumeric (c : Char) : Bool := isAlphabetic c || isNumeric c

/-- Whether a free-standing name may begin with the character. -/
def isNameStart (c : Char) : Bool := c == '_' || isAlphabetic c

/-- Whether a name may hold the character. -/
def isNameChar (c : Char) : Bool := c == '_' || isAlphanumeric c

/-- Whether a text is a free-standing name. -/
def isName : List Char → Bool
  | [] => false
  | c :: rest => isNameStart c && (c :: rest).all isNameChar

theorem isNameChar_of_isNameStart {c : Char} (h : isNameStart c = true) : isNameChar c = true := by
  simp only [isNameStart, isNameChar, isAlphanumeric, Bool.or_eq_true] at *
  exact h.imp_right Or.inl

end LineCompletion.Text
