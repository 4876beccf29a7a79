import LineCompletion.Completion.Suggestion
import LineCompletion.Listing
import LineCompletion.Text.Blank

/-!
# The completion key

What one press of the completion key does to the line being edited. On a blank line it indents. A
single suggestion is put in place; several are listed, and the prefix that they share is put in
place as far as it extends what was typed.

A suggestion that extends what it replaces is put in place by appending the rest. Any other one is
put in place by deleting what it replaces and inserting it (`TabHandler.accept`). A buffer deletes
grapheme clusters, so what is to be deleted is counted in clusters of the replaced text on its own.
The prefix that several share is never put in place by deleting (`TabHandler.offer`).

What is reported is whether anything is left to do (`TabStatus`): the line is as it was, or it was
asked to be drawn again. The completer may edit the buffer while it looks for suggestions, and the
handler goes on with the buffer it is given back, but it goes by the text that was typed before
that.
-/

namespace LineCompletion

open Text

/-- What is left to do after a press of the key. -/
inductive TabStatus where
  /-- The line is as it was. -/
  | refresh
  /-- The line or the screen has changed, and the line was to be drawn again. -/
  | redisplay
  deriving DecidableEq, Repr

/-- What the completion key works with. -/
structure TabHandler where
  /-- Where suggestions come from. -/
  completer : Completer
  /-- How several suggestions are listed. -/
  layout : Layout
  /-- What is inserted on a blank line, if anything. -/
  indent : List Char

namespace TabHandler

/-- Puts a suggestion in place of what it replaces. -/
def accept (s : Suggestion) (typed : List Char) (buffer : LineBuffer) : LineBuffer :=
  match s.extension? typed with
  | some rest => buffer.insert rest
  | none => (buffer.deleteLeft (Grapheme.count (s.replaced typed))).insert s.value

/-- Lists several suggestions, and puts the prefix that they share in place. -/
def offer (handler : TabHandler) (first : Suggestion) (found : List Suggestion)
    (typed : List Char) (buffer : LineBuffer) : LineBuffer :=
  let listing := handler.layout.listing (found.map Suggestion.display) buffer.width
  let buffer := buffer.writeListing listing
  match Suggestion.dropPrefix? (first.replaced typed) (commonPrefix found) with
  | some rest => buffer.insert rest
  | none => buffer

/-- Handles one press of the completion key. -/
def press (handler : TabHandler) (buffer : LineBuffer) : TabStatus × LineBuffer :=
  let typed := buffer.before
  if (trim typed).isEmpty then
    if handler.indent.isEmpty then (.refresh, buffer)
    else (.redisplay, (buffer.insert handler.indent).requestRedisplay)
  else
    let (found, buffer) := handler.completer typed buffer
    match found with
    | [] => (.refresh, buffer)
    | [only] => (.redisplay, (accept only typed buffer).requestRedisplay)
    | first :: _ => (.redisplay, (handler.offer first found typed buffer).requestRedisplay)

end TabHandler

end LineCompletion
