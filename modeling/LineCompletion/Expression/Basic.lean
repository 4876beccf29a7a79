import LineCompletion.Error
import LineCompletion.Number.Binary64

/-!
# Expressions

The expressions that completion evaluates: names and literals, followed by any number of members,
subscripts and calls. Bracketed items, keys and arguments are expressions again.
-/

namespace LineCompletion

/-- An expression. -/
inductive Expr where
  /-- The null value. -/
  | null
  /-- A truth value. -/
  | bool (b : Bool)
  /-- An integer. -/
  | int (i : Int64)
  /-- A floating-point number. -/
  | float (x : Binary64)
  /-- A string literal: its quote, and what stands between its quotes, escapes and all. -/
  | str (quote : Char) (body : List Char)
  /-- A name. -/
  | name (name : String)
  /-- Items between square brackets. -/
  | list (items : List Expr)
  /-- Items between round brackets, of which a single one has a comma after it. -/
  | tuple (items : List Expr)
  /-- An expression between round brackets. -/
  | group (e : Expr)
  /-- A member of a value. -/
  | member (e : Expr) (name : String)
  /-- What a value holds under a key. -/
  | subscript (e key : Expr)
  /-- A call. -/
  | call (e : Expr) (args : List Expr)

/-- The deepest nesting of brackets that is read. -/
def maxNesting : Nat := 100

end LineCompletion
