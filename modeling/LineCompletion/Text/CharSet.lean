/-!
# Sets of characters

A set of characters is written down as closed ranges of code points, in ascending order. Membership
is a search through the ranges, so a closed instance is decided by evaluation.
-/

namespace LineCompletion

/-- A set of characters, as ascending closed ranges of code points. -/
structure CharSet where
  /-- First and last code point of each range. -/
  ranges : List (Nat × Nat)

namespace CharSet

/-- Whether a character lies in one of the ranges. -/
def contains (s : CharSet) (c : Char) : Bool :=
  s.ranges.any fun (first, last) ↦ first ≤ c.toNat && c.toNat ≤ last

theorem contains_iff {s : CharSet} {c : Char} :
    s.contains c = true ↔ ∃ r ∈ s.ranges, r.1 ≤ c.toNat ∧ c.toNat ≤ r.2 := by
  simp [contains, List.any_eq_true]

/-- Sets without a code point in common. -/
theorem contains_eq_false {s t : CharSet}
    (hdisjoint : ∀ r ∈ s.ranges, ∀ q ∈ t.ranges, r.2 < q.1 ∨ q.2 < r.1) {c : Char}
    (h : s.contains c = true) : t.contains c = false := by
  refine Bool.eq_false_iff.2 fun hc ↦ ?_
  -- A character of both would be in a range of each, and these two would overlap.
  obtain ⟨r, hr, hfirst, hlast⟩ := contains_iff.1 h
  obtain ⟨q, hq, hfirst', hlast'⟩ := contains_iff.1 hc
  have hapart := hdisjoint r hr q hq
  omega

end CharSet

end LineCompletion
