/-!
# JSON numbers

The grammar of a JSON number: a sign, digits without needless zeros, a fraction and an exponent, all
but the digits optional.
-/

namespace LineCompletion.Json

/-- What follows a run of digits, of which there must be one at least. -/
def afterDigits? (s : List Char) : Option (List Char) :=
  if s.head?.any Char.isDigit then some (s.dropWhile Char.isDigit) else none

/-- What follows the whole part of a number: digits, of which the first is zero only if it is the
only one. -/
def afterWhole? : List Char → Option (List Char)
  | '0' :: rest => if rest.head?.any Char.isDigit then none else some rest
  | s => afterDigits? s

/-- What follows the fraction of a number, if it has one. -/
def afterFraction? : List Char → Option (List Char)
  | '.' :: rest => afterDigits? rest
  | s => some s

/-- What follows the exponent of a number, if it has one. -/
def afterExponent? : List Char → Option (List Char)
  | [] => some []
  | c :: rest =>
    if c = 'e' ∨ c = 'E' then
      afterDigits? (if rest.head? = some '+' ∨ rest.head? = some '-' then rest.tail else rest)
    else some (c :: rest)

/-- Whether a text is a number. -/
def isNumber (s : List Char) : Bool :=
  let unsigned := if s.head? = some '-' then s.tail else s
  ((afterWhole? unsigned).bind afterFraction?).bind afterExponent? == some []

/-- Whether a character can be part of a number. -/
def isNumberChar (c : Char) : Bool :=
  c.isDigit || c == '+' || c == '-' || c == '.' || c == 'e' || c == 'E'

end LineCompletion.Json
