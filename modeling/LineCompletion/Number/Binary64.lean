import LineCompletion.Number.Decimal

/-!
# Binary floating point

Floating-point numbers of 64 bits, held as the word that stores them and calculated with exactly, in
natural numbers. `ofRatio` rounds a quotient to the nearest number, a tie to the even one; integers
and decimal texts become numbers through it.

A number is taken apart into a significand and a power of two that scales it, and put together from
a sign and the word below it (`withSign`), since the words of positive numbers are in the order of
the numbers. So rounding up into the next power of two, or to infinity, is an addition to the word.
Equality is that of numbers and not of words (`equals`).
-/

namespace LineCompletion

/-- A floating-point number: one sign bit, eleven bits of exponent, 52 of fraction. -/
structure Binary64 where
  /-- The word that stores the number. -/
  bits : UInt64
  deriving DecidableEq, Repr

namespace Binary64

/-! ### Taking a number apart -/

/-- A power of two. -/
def powerOfTwo (n : Nat) : Nat := Nat.pow 2 n

/-- How many words differ in the fraction alone. -/
def fractionSize : Nat := powerOfTwo 52

/-- The exponent as stored of what is not finite. -/
def topExponent : Nat := 2047

/-- Whether the sign bit is set. -/
def isNegative (x : Binary64) : Bool := powerOfTwo 63 ≤ x.bits.toNat

/-- The exponent as stored. -/
def exponentField (x : Binary64) : Nat := x.bits.toNat / fractionSize % (topExponent + 1)

/-- The fraction as stored. -/
def fractionField (x : Binary64) : Nat := x.bits.toNat % fractionSize

/-- Neither a number nor an infinity. -/
def isNaN (x : Binary64) : Bool := x.exponentField = topExponent && x.fractionField ≠ 0

/-- Either infinity. -/
def isInfinite (x : Binary64) : Bool := x.exponentField = topExponent && x.fractionField = 0

/-- Zero of either sign. -/
def isZero (x : Binary64) : Bool := x.exponentField = 0 && x.fractionField = 0

/-- The whole number that is scaled by a power of two to give a finite number's size. -/
def significand (x : Binary64) : Nat :=
  if x.exponentField = 0 then x.fractionField else fractionSize + x.fractionField

/-- The power of two that scales the significand. -/
def exponent (x : Binary64) : Int :=
  if x.exponentField = 0 then -1074 else x.exponentField - 1075

/-! ### Comparison -/

/-- Equality of numbers: nothing equals what is not a number, and the two zeros are equal. -/
def equals (x y : Binary64) : Bool :=
  !x.isNaN && !y.isNaN && (x.bits == y.bits || (x.isZero && y.isZero))

/-! ### Rounding -/

/-- The number with the given sign and the given word below it. -/
def withSign (negative : Bool) (magnitude : Nat) : Binary64 :=
  ⟨UInt64.ofNat ((if negative then powerOfTwo 63 else 0) + magnitude)⟩

/-- The word of infinity, below the sign. -/
def infinityWord : Nat := topExponent * fractionSize

/-- An infinity. -/
def infinite (negative : Bool) : Binary64 := withSign negative infinityWord

/-- What is not a number. -/
def nan : Binary64 := withSign false (infinityWord + powerOfTwo 51)

/-- A quotient rounded to the nearest whole number, a tie to the even one. -/
def roundHalfEven (num den : Nat) : Nat :=
  let q := num / den
  let rest := 2 * (num % den)
  if rest < den then q else if den < rest then q + 1 else q + q % 2

/-- The greatest power of two that is at most a positive quotient. -/
def binaryOrder (num den : Nat) : Int :=
  let guess : Int := num.log2 - den.log2
  if den * powerOfTwo guess.toNat ≤ num * powerOfTwo (-guess).toNat then guess else guess - 1

/-- The number nearest to a quotient, with a sign. A significand that rounds up to the next power of
two carries into the exponent, since the fields of the word are adjacent. -/
def ofRatio (negative : Bool) (num den : Nat) : Binary64 :=
  if num = 0 then withSign negative 0
  else
    let e := max (binaryOrder num den - 52) (-1074)
    let q := roundHalfEven (num * powerOfTwo (-e).toNat) (den * powerOfTwo e.toNat)
    withSign negative (min ((e + 1074).toNat * fractionSize + q) infinityWord)

/-- The number nearest to an integer. -/
def ofInt (n : Int) : Binary64 := ofRatio (n < 0) n.natAbs 1

/-- The number nearest to whole digits scaled by a power of ten. Beyond four hundred places every
number is infinite or zero, so no greater power is ever calculated. -/
def ofDecimal (negative : Bool) (significant : Nat) (scale : Int) : Binary64 :=
  if significant = 0 then withSign negative 0
  else
    let size := Number.digitCount significant + scale
    if 400 < size then infinite negative
    else if size < -400 then withSign negative 0
    else ofRatio negative (significant * Number.powerOfTen scale.toNat)
      (Number.powerOfTen (-scale).toNat)

end Binary64

end LineCompletion
