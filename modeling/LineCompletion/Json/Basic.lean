/-!
# JSON values

JSON as it is written: what strings and numbers stand for is left open, since most of a stored
object may be of no interest.
-/

namespace LineCompletion

/-- A JSON value as it is written. -/
inductive Json where
  /-- The null value. -/
  | null
  /-- A truth value. -/
  | bool (b : Bool)
  /-- A number, as its text. -/
  | number (text : List Char)
  /-- A string, as the text between its quotes. -/
  | string (body : List Char)
  /-- Elements in order. -/
  | array (elements : List Json)
  /-- Members in order, each name as the text between its quotes. -/
  | object (members : List (List Char × Json))

end LineCompletion
