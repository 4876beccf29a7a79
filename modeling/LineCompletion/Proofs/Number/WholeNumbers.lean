import LineCompletion.Number.Binary64
import Mathlib.Algebra.Order.Group.Nat

/-!
# Whole numbers in binary floating point

Equality of floating-point numbers, and which whole numbers it tells apart.

**Equality is that of words, but for zeros and for what is no number.** The two zeros are equal with
different words, and a number that is none is not even equal to itself (`equals_iff`). So equality
is symmetric and transitive (`equals_symm`, `equals_trans`), and reflexive for all that is a number.

**A whole number up to two to the power of 53 is a floating-point number as it stands.** Its word
has the order of the number in the exponent and its bits in the fraction, so the number can be had
back from its word (`exists_word`, with `wholeOfWord` as the way back). This is what two such
numbers are told apart by: if they were equal as floating-point numbers they would have the same
word below the sign, and then the same absolute value and the same sign (`eq_of_equals_ofInt`).
Words are not compared with each other, only each with its number.

Between two to the power of 52 and of 53 the bits of the number fill the fraction exactly, so there
is nothing to round; below, it is shifted until they do (`shifted_bounds`). The bound of two to the
power of 53 itself is a power of two, and is a case of its own in `exists_word`, as its bits do not
fit but are all zero behind the first.

The bound is the best that can be had: beyond it every second whole number is rounded to one of its
neighbours, and the first of those is equal to two to the power of 53. That is a matter of keys and
is shown there. Fractions, and what rounding does in general, are not looked at here.
-/

namespace LineCompletion

namespace Binary64

/-! ### Equality -/

section Equality

variable {x y z : Binary64}

/-- What equality compares. -/
theorem equals_iff : x.equals y = true ↔
    x.isNaN = false ∧ y.isNaN = false ∧ (x = y ∨ x.isZero = true ∧ y.isZero = true) := by
  have hbits : x.bits = y.bits ↔ x = y := by
    cases x
    cases y
    simp
  simp only [equals, Bool.and_eq_true, Bool.or_eq_true, Bool.not_eq_true', beq_iff_eq, hbits,
    and_assoc]

/-- A number is equal to itself unless it is none. -/
theorem equals_self (h : x.isNaN = false) : x.equals x = true := equals_iff.2 ⟨h, h, .inl rfl⟩

/-- Equality is symmetric. -/
theorem equals_symm (h : x.equals y = true) : y.equals x = true := by
  obtain ⟨hx, hy, heq | ⟨hzero, hzero'⟩⟩ := equals_iff.1 h
  · exact equals_iff.2 ⟨hy, hx, .inl heq.symm⟩
  · exact equals_iff.2 ⟨hy, hx, .inr ⟨hzero', hzero⟩⟩

/-- Equality is transitive. -/
theorem equals_trans (h : x.equals y = true) (h' : y.equals z = true) : x.equals z = true := by
  obtain ⟨hx, -, hxy⟩ := equals_iff.1 h
  obtain ⟨-, hz, hyz⟩ := equals_iff.1 h'
  refine equals_iff.2 ⟨hx, hz, ?_⟩
  rcases hxy with rfl | ⟨hzero, hzero'⟩
  · exact hyz
  · rcases hyz with rfl | ⟨-, hzero''⟩
    · exact .inr ⟨hzero, hzero'⟩
    · exact .inr ⟨hzero, hzero''⟩

end Equality

/-! ### Signs and words -/

/-- Powers of two, in the notation of powers. -/
theorem powerOfTwo_eq (n : Nat) : powerOfTwo n = 2 ^ n := rfl

section Words

variable {negative negative' : Bool} {word word' : Nat} (h : word < 2 ^ 63)

include h

/-- The bits of a signed word: the sign is the bit above it. -/
theorem toNat_bits_withSign :
    (withSign negative word).bits.toNat = (if negative then 2 ^ 63 else 0) + word := by
  rw [withSign, powerOfTwo_eq]
  refine UInt64.toNat_ofNat_of_lt' ?_
  rw [UInt64.size]
  split <;> omega

/-- A zero of either sign has the word zero. -/
theorem eq_zero_of_isZero (hzero : (withSign negative word).isZero = true) : word = 0 := by
  simp only [isZero, exponentField, fractionField, fractionSize, topExponent, powerOfTwo_eq,
    toNat_bits_withSign h, Bool.and_eq_true, decide_eq_true_eq] at hzero
  obtain ⟨hexponent, hfraction⟩ := hzero
  cases negative <;> simp only [if_true, Bool.false_eq_true, if_false] at hexponent hfraction <;>
    omega

/-- Numbers are equal if they have the same word below the sign, and the same sign unless they are
zero. -/
theorem of_equals_withSign (h' : word' < 2 ^ 63)
    (hequals : (withSign negative word).equals (withSign negative' word') = true) :
    word = word' ∧ (negative = negative' ∨ word = 0) := by
  obtain ⟨-, -, heq | ⟨hzero, hzero'⟩⟩ := equals_iff.1 hequals
  · have hbits := congrArg (·.bits.toNat) heq
    simp only [toNat_bits_withSign h, toNat_bits_withSign h'] at hbits
    cases negative <;> cases negative' <;> simp at hbits ⊢ <;> omega
  · rw [eq_zero_of_isZero h hzero, eq_zero_of_isZero h' hzero']
    exact ⟨rfl, .inr rfl⟩

end Words

/-! ### Whole numbers -/

/-- The order of a whole number is that of its first bit. -/
theorem binaryOrder_one {n : Nat} (h : n ≠ 0) : binaryOrder n 1 = n.log2 := by
  have hguess : (n.log2 : Int) - (Nat.log2 1 : Nat) = n.log2 := by
    rw [show Nat.log2 1 = 0 by decide]
    omega
  have hneg : (-(n.log2 : Int)).toNat = 0 := by omega
  rw [binaryOrder, hguess, hneg, Int.toNat_natCast, powerOfTwo_eq, powerOfTwo_eq]
  exact if_pos (by simpa using Nat.log2_self_le h)

/-- A whole number is not rounded. -/
theorem roundHalfEven_one (n : Nat) : roundHalfEven n 1 = n := by
  simp [roundHalfEven, Nat.mod_one]

/-- Shifted to its full size, a whole number of fewer than 54 bits has exactly 53. -/
theorem shifted_bounds {n : Nat} (h : n ≠ 0) (hlog : n.log2 ≤ 52) :
    2 ^ 52 ≤ n * 2 ^ (52 - n.log2) ∧ n * 2 ^ (52 - n.log2) < 2 ^ 53 := by
  have hlow := Nat.mul_le_mul_right (2 ^ (52 - n.log2)) (Nat.log2_self_le h)
  have hhigh := Nat.mul_lt_mul_of_pos_right n.lt_log2_self (Nat.two_pow_pos (52 - n.log2))
  rw [← Nat.pow_add, show n.log2 + (52 - n.log2) = 52 by omega] at hlow
  rw [← Nat.pow_add, show n.log2 + 1 + (52 - n.log2) = 53 by omega] at hhigh
  exact ⟨hlow, hhigh⟩

/-- The order of such a number and its bits go into the word as they are. -/
theorem ofRatio_one {n : Nat} (h : n ≠ 0) (hlog : n.log2 ≤ 52) (negative : Bool) :
    ofRatio negative n 1 =
      withSign negative ((n.log2 + 1022) * 2 ^ 52 + n * 2 ^ (52 - n.log2)) := by
  have hhigh := (shifted_bounds h hlog).2
  have hscale : max ((n.log2 : Int) - 52) (-1074) = (n.log2 : Int) - 52 := by omega
  have hup : (-((n.log2 : Int) - 52)).toNat = 52 - n.log2 := by omega
  have hdown : ((n.log2 : Int) - 52).toNat = 0 := by omega
  have hexponent : ((n.log2 : Int) - 52 + 1074).toNat = n.log2 + 1022 := by omega
  rw [ofRatio, if_neg h, binaryOrder_one h]
  simp only [hscale, hup, hdown, hexponent, powerOfTwo_eq, Nat.pow_zero, Nat.mul_one,
    roundHalfEven_one, infinityWord, topExponent, fractionSize]
  rw [Nat.min_eq_left (by omega)]

/-- What a word below the sign stands for if it is whole, scaled by the size of the fraction. -/
def wholeOfWord (word : Nat) : Nat :=
  if word = 0 then 0 else (2 ^ 52 + word % 2 ^ 52) * 2 ^ (word / 2 ^ 52 - 1023)

/-- **A whole number up to two to the power of 53 is not rounded**: its word stands for it. -/
theorem exists_word {n : Nat} (hle : n ≤ 2 ^ 53) :
    ∃ word < 2 ^ 63, wholeOfWord word = n * 2 ^ 52 ∧
      ∀ negative, ofRatio negative n 1 = withSign negative word := by
  rcases Nat.eq_zero_or_pos n with rfl | hpos
  · exact ⟨0, by decide, rfl, fun _ ↦ rfl⟩
  have h : n ≠ 0 := Nat.ne_of_gt hpos
  rcases Nat.lt_or_eq_of_le hle with hlt | rfl
  · have hlog : n.log2 ≤ 52 := Nat.lt_succ_iff.1 ((Nat.log2_lt h).2 hlt)
    have hpow : 2 ^ (52 - n.log2) * 2 ^ n.log2 = 2 ^ 52 := by
      rw [← Nat.pow_add, Nat.sub_add_cancel hlog]
    obtain ⟨hlow, hhigh⟩ := shifted_bounds h hlog
    generalize hshifted : n * 2 ^ (52 - n.log2) = shifted at hlow hhigh
    refine ⟨(n.log2 + 1022) * 2 ^ 52 + shifted, by omega, ?_, fun negative ↦ ?_⟩
    · have horder : ((n.log2 + 1022) * 2 ^ 52 + shifted) / 2 ^ 52 - 1023 = n.log2 := by omega
      have hbits : 2 ^ 52 + ((n.log2 + 1022) * 2 ^ 52 + shifted) % 2 ^ 52 = shifted := by omega
      rw [wholeOfWord, if_neg (by omega), horder, hbits, ← hshifted, Nat.mul_assoc, hpow]
    · rw [ofRatio_one h hlog, hshifted]
  · exact ⟨1076 * 2 ^ 52, by decide, by decide +kernel, fun negative ↦ by
      cases negative <;> decide +kernel⟩

/-- Whole numbers up to two to the power of 53 are told apart. -/
theorem eq_of_equals_ofInt {i j : Int} (hi : i.natAbs ≤ 2 ^ 53) (hj : j.natAbs ≤ 2 ^ 53)
    (h : (ofInt i).equals (ofInt j) = true) : i = j := by
  obtain ⟨word, hword, hwhole, hofRatio⟩ := exists_word hi
  obtain ⟨word', hword', hwhole', hofRatio'⟩ := exists_word hj
  rw [ofInt, ofInt, hofRatio, hofRatio'] at h
  obtain ⟨rfl, hsign⟩ := of_equals_withSign hword hword' h
  rcases hsign with hsign | rfl
  · rw [decide_eq_decide] at hsign
    omega
  · rw [wholeOfWord, if_pos rfl] at hwhole hwhole'
    omega

end Binary64

end LineCompletion
