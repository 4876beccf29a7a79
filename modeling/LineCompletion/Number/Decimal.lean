/-!
# Decimal digits

Numbers as they are written: runs of ASCII digits, and the signed 64-bit integers they spell. The
digits of a number spell it (`ofDigits_digits`).
-/

namespace LineCompletion.Number

/-- The number that a run of digits spells, most significant digit first. -/
def ofDigits (digits : List Char) : Nat :=
  digits.foldl (fun n c ↦ n * 10 + (c.toNat - '0'.toNat)) 0

/-- The digits of a number. -/
def digits (n : Nat) : List Char := Nat.toDigits 10 n

theorem isDigit_of_mem_digits {n : Nat} {c : Char} (h : c ∈ digits n) : c.isDigit = true :=
  Nat.isDigit_of_mem_toDigits (by decide) (by decide) h

theorem digits_ne_nil (n : Nat) : digits n ≠ [] := Nat.toDigits_ne_nil

theorem ofDigits_digits (n : Nat) : ofDigits (digits n) = n := by
  have h := Nat.ofDigitChars_ten_toDigits (n := n)
  simp only [Nat.ofDigitChars, Nat.mul_comm 10] at h
  exact h

theorem digits_injective : Function.Injective digits := fun m n h ↦ by
  rw [← ofDigits_digits m, h, ofDigits_digits]

/-- How many digits a number has. -/
def digitCount (n : Nat) : Nat := (digits n).length

/-- An integer with its sign. -/
def signedDigits (n : Int) : List Char :=
  if n < 0 then '-' :: digits n.natAbs else digits n.natAbs

/-- A power of ten. -/
def powerOfTen (n : Nat) : Nat := Nat.pow 10 n

/-- The size of the greatest and of the least signed 64-bit integer: the least one has it, the
greatest falls short of it by one. -/
def integerBound : Nat := 0x8000000000000000

/-- Why a text is no signed 64-bit integer. -/
inductive IntegerError where
  /-- No digit at all. -/
  | noDigits
  /-- More than the greatest integer. -/
  | tooLarge
  /-- Less than the least integer. -/
  | tooSmall
  deriving DecidableEq, Repr

/-- What a reader of integers says about a text it refuses. -/
def IntegerError.message : IntegerError → String
  | .noDigits => "invalid digit found in string"
  | .tooLarge => "number too large to fit in target type"
  | .tooSmall => "number too small to fit in target type"

/-- The signed 64-bit integer spelled by a run of digits and a sign. -/
def integer (negative : Bool) (digits : List Char) : Except IntegerError Int64 :=
  if digits.isEmpty then .error .noDigits
  else
    let n := ofDigits digits
    if negative then
      if n ≤ integerBound then .ok (Int64.ofInt (-n)) else .error .tooSmall
    else
      if n < integerBound then .ok (Int64.ofInt n) else .error .tooLarge

end LineCompletion.Number
