import LineCompletion.Text.Utf8
import Mathlib.Data.List.Infix

/-!
# Slices of a text by byte offsets

A text that stays in one piece is read through slices: from a byte offset to the end (`from?`), or
between two of them (`between?`). A slice fails where it would cut a character in two or reach
beyond the end. At the places where a rest of the text begins (`offset`) it gives that rest
(`from?_offset`), and it gives something at no other place (`from?_eq_some_iff`).

Reading on character by character (`skip?`) slices at every step. Begun at such a place it ends at
such a place, behind the characters that were to be skipped (`skip?_offset`).

**Offsets as rests.** A rest of the text says more than its offset does, since it shows what is read
next. So no lemma here reckons with offsets. Each has a rest as its subject, with the hypothesis
that it is one (`rest <:+ text`), and says what the slice at its offset is. Sums of sizes are left
behind once `offset_append` and `offset_cons` are proved: an offset grows by the size of the
character that is read, and it is below the size of the text as long as something is left
(`offset_lt_iff`).

**Where a slice cannot fail.** `AtBoundary` says the same of a position, without a rest: a position
is at a boundary when some beginning of the text has that many bytes. Every rest begins at one
(`atBoundary_offset`), and every boundary is where some rest begins
(`AtBoundary.exists_offset`). So a reader that moves from boundary to boundary never slices a
character in two, and this is what is shown of readers by offsets elsewhere.
-/

namespace LineCompletion.Text

/-- The text from a byte offset on, unless the offset lies inside a character or beyond the end. -/
def from? (text : List Char) (start : Nat) : Option (List Char) :=
  (splitAtByte? text start).map Prod.snd

/-- The text between two byte offsets, unless one of them lies inside a character or beyond the end,
or they are in the wrong order. -/
def between? (text : List Char) (start stop : Nat) : Option (List Char) := do
  let rest ← from? text start
  if start ≤ stop then (splitAtByte? rest (stop - start)).map Prod.fst else none

/-- The byte offset at which a rest of a text begins. -/
def offset (text rest : List Char) : Nat := byteLength text - byteLength rest

/-- Whether an offset is between two characters of a text, or at one of its ends. -/
def AtBoundary (text : List Char) (position : Nat) : Prop :=
  ∃ before after, text = before ++ after ∧ position = byteLength before

variable {text rest : List Char} {start : Nat}

/-- A rest begins behind the bytes of what comes before it. -/
theorem offset_append (before rest : List Char) :
    offset (before ++ rest) rest = byteLength before := by
  rw [offset, byteLength_append, Nat.add_sub_cancel]

/-- Slicing from a position gives a rest exactly where that rest begins. -/
theorem from?_eq_some_iff : from? text start = some rest ↔
    rest <:+ text ∧ start = offset text rest := by
  rw [from?, Option.map_eq_some_iff]
  constructor
  · rintro ⟨⟨before, after⟩, hsplit, rfl⟩
    obtain ⟨rfl, rfl⟩ := splitAtByte?_eq_some_iff.1 hsplit
    exact ⟨List.suffix_append .., (offset_append before after).symm⟩
  · rintro ⟨⟨before, rfl⟩, rfl⟩
    exact ⟨(before, rest), splitAtByte?_eq_some_iff.2 ⟨rfl, offset_append before rest⟩, rfl⟩

/-- From the place where a rest begins on, there is that rest. -/
theorem from?_offset (h : rest <:+ text) : from? text (offset text rest) = some rest :=
  from?_eq_some_iff.2 ⟨h, rfl⟩

theorem offset_self (text : List Char) : offset text text = 0 := Nat.sub_self _

/-- Behind a character the text goes on that many bytes further. -/
theorem offset_cons {c : Char} (h : c :: rest <:+ text) :
    offset text (c :: rest) + c.utf8Size = offset text rest := by
  obtain ⟨before, rfl⟩ := h
  simp only [offset, byteLength_append, byteLength_cons]
  omega

/-- A rest begins before the end of the text exactly if it is not empty. -/
theorem offset_lt_iff (h : rest <:+ text) : offset text rest < byteLength text ↔ rest ≠ [] := by
  obtain ⟨before, rfl⟩ := h
  cases rest with
  | nil => simp [offset]
  | cons c rest =>
    have hpos := c.utf8Size_pos
    simp only [offset, byteLength_append, byteLength_cons, ne_eq, reduceCtorEq, not_false_eq_true,
      iff_true]
    omega

/-- Every rest begins at a boundary. -/
theorem atBoundary_offset (h : rest <:+ text) : AtBoundary text (offset text rest) := by
  obtain ⟨before, rfl⟩ := h
  exact ⟨before, rest, rfl, offset_append before rest⟩

/-- At every boundary some rest begins. -/
theorem AtBoundary.exists_offset {position : Nat} (h : AtBoundary text position) :
    ∃ rest, rest <:+ text ∧ position = offset text rest := by
  obtain ⟨before, rest, rfl, rfl⟩ := h
  exact ⟨rest, List.suffix_append .., (offset_append before rest).symm⟩

theorem AtBoundary.le_byteLength {position : Nat} (h : AtBoundary text position) :
    position ≤ byteLength text := by
  obtain ⟨before, after, rfl, rfl⟩ := h
  rw [byteLength_append]
  omega

/-- Between the places where two rests begin stands what the longer one has in front of the shorter
one. -/
theorem between?_offset {inside : List Char} (h : inside ++ rest <:+ text) :
    between? text (offset text (inside ++ rest)) (offset text rest) = some inside := by
  have hle : offset text (inside ++ rest) ≤ offset text rest := by
    rw [offset, offset, byteLength_append]
    omega
  have hlength : offset text rest - offset text (inside ++ rest) = byteLength inside := by
    obtain ⟨before, rfl⟩ := h
    simp only [offset, byteLength_append]
    omega
  rw [between?, from?_offset h]
  show (if _ then _ else _ : Option (List Char)) = _
  rw [if_pos hle, hlength, splitAtByte?_append]
  rfl

/-- The offset behind all the next characters that have a property. -/
def skip? (p : Char → Bool) (text : List Char) (start : Nat) : Option Nat :=
  match _h : from? text start with
  | none => none
  | some [] => some start
  | some (c :: _) => if p c then skip? p text (start + c.utf8Size) else some start
termination_by byteLength text - start
decreasing_by
  obtain ⟨hrest, rfl⟩ := from?_eq_some_iff.1 _h
  have := (offset_lt_iff hrest).2 (List.cons_ne_nil _ _)
  have := c.utf8Size_pos
  omega

/-- **Skipping goes from boundary to boundary**, to where the first character begins that is not
skipped. -/
theorem skip?_offset (p : Char → Bool) (h : rest <:+ text) :
    skip? p text (offset text rest) = some (offset text (rest.dropWhile p)) := by
  induction rest with
  | nil =>
    rw [skip?]
    split <;> simp_all [from?_offset h]
  | cons c rest ih =>
    have hrest : rest <:+ text := (List.suffix_cons c rest).trans h
    rw [skip?]
    split <;> rename_i hfrom <;> rw [from?_offset h] at hfrom
    · exact absurd hfrom (by simp)
    · exact absurd hfrom (by simp)
    · obtain ⟨rfl, rfl⟩ := List.cons.inj (Option.some.inj hfrom)
      rw [List.dropWhile_cons, offset_cons h]
      split
      · exact ih hrest
      · rfl

end LineCompletion.Text
