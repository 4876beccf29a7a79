import LineCompletion.Number.Binary64

/-!
# Shortest decimals

The decimal that stands for a floating-point number: of all decimals that round to the number, those
with the fewest digits, and of those the nearest. A tie between two of them goes to the greater one.

The decimals that round to a number fill an interval (`Interval`). On the grid of decimals with a
given number of digits only the two neighbours of the number need to be tried: if any point of the
grid lies in the interval, one of them does.
-/

namespace LineCompletion.Binary64

/-- The positive reals that round to a finite number, measured in the same unit as the number. -/
structure Interval where
  /-- The number itself. -/
  value : Nat
  /-- Distance down to the lower end. -/
  below : Nat
  /-- Distance up to the upper end. -/
  above : Nat
  /-- The unit is one part in this many. -/
  den : Nat
  /-- Whether the ends belong to it: they do when the significand is even. -/
  closed : Bool

/-- The interval of a positive finite number. Below a power of two the next number is half as far
away as above it. -/
def interval (x : Binary64) : Interval where
  value := 4 * x.significand * powerOfTwo x.exponent.toNat
  below := (if x.significand = fractionSize then 1 else 2) * powerOfTwo x.exponent.toNat
  above := 2 * powerOfTwo x.exponent.toNat
  den := 4 * powerOfTwo (-x.exponent).toNat
  closed := x.significand % 2 = 0

/-- Whether a whole number of units, given with its own denominator, lies in the interval. -/
def Interval.contains (i : Interval) (num den : Nat) : Bool :=
  let point := num * i.den
  let least := (i.value - i.below) * den
  let greatest := (i.value + i.above) * den
  if i.closed then least ≤ point && point ≤ greatest else least < point && point < greatest

/-- The power of ten of the leading digit of a positive quotient. -/
def decimalOrder (num den : Nat) : Int :=
  if den ≤ num then Number.digitCount (num / den) - 1
  else
    let q := (den + num - 1) / num
    if q ≤ 1 then 0 else -Number.digitCount (q - 1)

/-- Whole digits scaled by a power of ten. -/
structure ScaledDigits where
  /-- The digits. -/
  digits : Nat
  /-- The power of ten. -/
  scale : Int
  deriving DecidableEq, Repr

/-- The best decimal with a given power of ten as its last place, if one lies in the interval. -/
def onGrid? (i : Interval) (scale : Int) : Option ScaledDigits :=
  let up := Number.powerOfTen scale.toNat
  let down := Number.powerOfTen (-scale).toNat
  let lower := i.value * down / (i.den * up)
  let rest := 2 * (i.value * down % (i.den * up))
  let inside (d : Nat) : Bool := i.contains (d * up) down
  let nearest := if rest < i.den * up then [lower, lower + 1] else [lower + 1, lower]
  (nearest.find? inside).map (⟨·, scale⟩)

/-- The shortest decimal, trying one more digit each time. Seventeen digits always suffice. -/
def shortestFrom (i : Interval) (order : Int) (tried : Nat) : Nat → ScaledDigits
  | 0 => ⟨0, 0⟩
  | left + 1 => (onGrid? i (order - tried)).getD (shortestFrom i order (tried + 1) left)

/-- The decimal that stands for a positive finite number. -/
def shortest (x : Binary64) : ScaledDigits :=
  let i := x.interval
  shortestFrom i (decimalOrder i.value i.den) 0 17

end LineCompletion.Binary64
