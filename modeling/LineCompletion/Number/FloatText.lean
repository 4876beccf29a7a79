import LineCompletion.Number.Shortest

/-!
# Floating-point text

How floating-point numbers are written and read. Writing uses the shortest decimal: positional with
at least one decimal place while the leading digit stands for a power of ten from -4 to 15, and with
an exponent otherwise. Reading takes a sign, digits with or without a point, and an exponent, or the
words for infinity and for what is not a number.
-/

namespace LineCompletion.Binary64

/-! ### Writing -/

/-- The leading digit, a point before the others if there are any, and the exponent. -/
def exponential (digits : List Char) (order : Int) : List Char :=
  let fraction := digits.drop 1
  digits.take 1 ++ (if fraction.isEmpty then [] else '.' :: fraction) ++
    'e' :: Number.signedDigits order

/-- All places written out, with at least one after the point. -/
def positional (digits : List Char) (order : Int) : List Char :=
  if order < 0 then
    '0' :: '.' :: List.replicate ((-order).toNat - 1) '0' ++ digits
  else
    let places := order.toNat + 1
    let whole := digits.take places ++ List.replicate (places - digits.length) '0'
    let fraction := digits.drop places
    whole ++ '.' :: (if fraction.isEmpty then ['0'] else fraction)

/-- The digits without the zeros they end in. -/
def significantDigits (d : ScaledDigits) : List Char :=
  ((Number.digits d.digits).reverse.dropWhile (· == '0')).reverse

/-- A positive finite number as text. -/
def positiveText (x : Binary64) : List Char :=
  let d := x.shortest
  let order := d.scale + Number.digitCount d.digits - 1
  if -4 ≤ order ∧ order < 16 then positional (significantDigits d) order
  else exponential (significantDigits d) order

/-- A number as text. -/
def text (x : Binary64) : List Char :=
  if x.isNaN then ['N', 'a', 'N']
  else
    let size := if x.isInfinite then ['i', 'n', 'f'] else
      if x.isZero then ['0', '.', '0'] else x.positiveText
    if x.isNegative then '-' :: size else size

/-! ### Reading -/

/-- The exponent after a significand; nothing may follow it. -/
def readExponent? : List Char → Option Int
  | [] => some 0
  | e :: rest =>
    if e = 'e' ∨ e = 'E' then
      let (negative, digits) := match rest with
        | '-' :: digits => (true, digits)
        | '+' :: digits => (false, digits)
        | digits => (false, digits)
      if digits.isEmpty || !digits.all Char.isDigit then none
      else some (if negative then -Number.ofDigits digits else Number.ofDigits digits)
    else none

/-- A number without its sign. -/
def readUnsigned? (negative : Bool) (s : List Char) : Option Binary64 :=
  let lower := s.map Char.toLower
  if lower = ['n', 'a', 'n'] then some nan
  else if lower = ['i', 'n', 'f'] ∨ lower = ['i', 'n', 'f', 'i', 'n', 'i', 't', 'y'] then
    some (infinite negative)
  else
    let whole := s.takeWhile Char.isDigit
    let (fraction, rest) := match s.dropWhile Char.isDigit with
      | '.' :: after => (after.takeWhile Char.isDigit, after.dropWhile Char.isDigit)
      | after => ([], after)
    if whole.isEmpty && fraction.isEmpty then none
    else (readExponent? rest).map fun e ↦
      ofDecimal negative (Number.ofDigits (whole ++ fraction)) (e - fraction.length)

/-- The number that a text spells. -/
def ofText? : List Char → Option Binary64
  | '-' :: rest => readUnsigned? true rest
  | '+' :: rest => readUnsigned? false rest
  | s => readUnsigned? false s

end LineCompletion.Binary64
