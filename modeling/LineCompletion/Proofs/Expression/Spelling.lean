import LineCompletion.Expression.Reader
import LineCompletion.Proofs.Text.Literal
import LineCompletion.Proofs.Text.Tokens

/-!
# How expressions are spelled

The grammar of expressions, as a relation between an expression and the texts that spell it. White
space is free between tokens, numbers may hold underscores, and items may have a comma after the
last of them. Nothing in the grammar speaks of reading: no text is left over, no problem arises, and
the depth of brackets is a number of the expression (`Expr.nesting`), bounded by nothing.

What reading relies on is how a spelling begins. It begins with no white space and with no closing
bracket (`Spells.head`), so a reader that has skipped white space stands at its first token.

**Tokens.** Names and constants look alike, so a name is a text that can be a name and is none of
the constants. An integer is spelled by its digits, and the rule asks for the value of the digits
and not for a procedure that finds it; in this way an integer that does not fit 64 bits has no
spelling. The floating-point number that digits spell is the one that `Binary64.ofDecimal` gives for
all the digits and a power of ten. A name behind a dot may be anything that does not begin with a
digit, constants included.

**Brackets.** Between round brackets a single item without a comma is a group, and all else is a
tuple. This is the only place where the comma after the last item matters, and therefore items know
whether they end in one. Brackets around nothing are not nested, since no expression is inside them.

**Where white space may be.** Around every item and key, and between an expression and the step
behind it. Around a whole expression it is no part of the spelling, and whoever states something
about a text adds it there. So a spelling begins and ends with a token.
-/

namespace LineCompletion

open Text

/-! ### Tokens -/

/-- White space and nothing else. -/
def Blank (s : List Char) : Prop := ∀ c ∈ s, isBlank c = true

instance (s : List Char) : Decidable (Blank s) := List.decidableBAll _ s

/-- The names that stand for constants. -/
def constants : List (List Char × Expr) :=
  [("None".toList, .null), ("True".toList, .bool true), ("False".toList, .bool false)]

/-- A number with its sign. -/
def signed (negative : Bool) (s : List Char) : List Char := if negative then '-' :: s else s

/-- The part of a number before its point. Behind a sign it may begin with an underscore. -/
structure WholePart (negative : Bool) (s : List Char) : Prop where
  /-- Digits and underscores. -/
  chars : ∀ c ∈ s, isNumberChar c = true
  /-- Without a sign a number begins with a digit. -/
  head : negative = false → ∃ c ∈ s.head?, c.isDigit = true

/-- The part of a number after its point. It begins with a digit. -/
structure Fraction (s : List Char) : Prop where
  /-- Digits and underscores. -/
  chars : ∀ c ∈ s, isNumberChar c = true
  /-- The point belongs to a number because a digit follows it. -/
  head : ∃ c ∈ s.head?, c.isDigit = true

/-- A name after a dot. -/
structure MemberName (s : List Char) : Prop where
  /-- Characters of names. -/
  chars : ∀ c ∈ s, isNameChar c = true
  /-- It begins with anything but an ASCII digit. -/
  head : ∃ c ∈ s.head?, c.isDigit = false

/-- The digits among the characters of a number. -/
def digitsOf (s : List Char) : List Char := s.filter Char.isDigit

/-! ### The grammar -/

mutual

/-- An expression and a text that spells it. -/
inductive Spells : Expr → List Char → Prop
  /-- A constant. -/
  | constant {e : Expr} {s : List Char} (h : (s, e) ∈ constants) : Spells e s
  /-- An integer, in decimal digits. -/
  | int {negative : Bool} {s : List Char} {i : Int64} (whole : WholePart negative s)
      (hdigits : digitsOf s ≠ [])
      (hvalue : i.toInt = if negative then -(Number.ofDigits (digitsOf s) : Int)
        else (Number.ofDigits (digitsOf s) : Int)) :
      Spells (.int i) (signed negative s)
  /-- A floating-point number: all its digits, and a power of ten for those after the point. -/
  | float {negative : Bool} {s t : List Char} (whole : WholePart negative s)
      (fraction : Fraction t) :
      Spells (.float (Binary64.ofDecimal negative (Number.ofDigits (digitsOf s ++ digitsOf t))
        (-(digitsOf t).length))) (signed negative (s ++ '.' :: t))
  /-- A string literal. -/
  | str {quote : Char} {body : List Char} (hquote : isQuote quote = true)
      (hbody : Body quote body) : Spells (.str quote body) (quote :: body ++ [quote])
  /-- A name other than a constant. -/
  | name {s : List Char} (hname : isName s = true) (hconstant : s ∉ constants.map Prod.fst) :
      Spells (.name (String.ofList s)) s
  /-- An expression between round brackets. -/
  | group {e : Expr} {s before after : List Char} (hbefore : Blank before) (he : Spells e s)
      (hafter : Blank after) : Spells (.group e) ('(' :: before ++ s ++ after ++ [')'])
  /-- Items between square brackets. -/
  | list {items : List Expr} {ended : Bool} {s : List Char} (hitems : SpellsItems items ended s) :
      Spells (.list items) ('[' :: s ++ [']'])
  /-- Items between round brackets. A single one would be grouped if no comma came after it. -/
  | tuple {items : List Expr} {ended : Bool} {s : List Char} (hitems : SpellsItems items ended s)
      (hsingle : items.length = 1 → ended = true) : Spells (.tuple items) ('(' :: s ++ [')'])
  /-- A member. -/
  | member {e : Expr} {s before after name : List Char} (he : Spells e s) (hbefore : Blank before)
      (hafter : Blank after) (hname : MemberName name) :
      Spells (.member e (String.ofList name)) (s ++ before ++ '.' :: after ++ name)
  /-- A subscript. -/
  | subscript {e key : Expr} {s gap before t after : List Char} (he : Spells e s) (hgap : Blank gap)
      (hbefore : Blank before) (hkey : Spells key t) (hafter : Blank after) :
      Spells (.subscript e key) (s ++ gap ++ '[' :: before ++ t ++ after ++ [']'])
  /-- A call. -/
  | call {e : Expr} {args : List Expr} {ended : Bool} {s gap t : List Char} (he : Spells e s)
      (hgap : Blank gap) (hargs : SpellsItems args ended t) :
      Spells (.call e args) (s ++ gap ++ '(' :: t ++ [')'])

/-- Items with commas between them and a text that spells them, up to where a bracket closes; and
whether no item comes after the last comma. -/
inductive SpellsItems : List Expr → Bool → List Char → Prop
  /-- No item. -/
  | nil {before : List Char} (hbefore : Blank before) : SpellsItems [] true before
  /-- An item without a comma after it. -/
  | single {e : Expr} {s before after : List Char} (hbefore : Blank before) (he : Spells e s)
      (hafter : Blank after) : SpellsItems [e] false (before ++ s ++ after)
  /-- An item, a comma, and the items after it. -/
  | cons {e : Expr} {items : List Expr} {ended : Bool} {s before after t : List Char}
      (hbefore : Blank before) (he : Spells e s) (hafter : Blank after)
      (hitems : SpellsItems items ended t) :
      SpellsItems (e :: items) ended (before ++ s ++ after ++ ',' :: t)

end

namespace Expr

mutual

/-- How deep the brackets of an expression are nested. Brackets around nothing do not count. -/
def nesting : Expr → Nat
  | list items | tuple items => nestingAll items
  | group e => nesting e + 1
  | member e _ => nesting e
  | subscript e key => max (nesting e) (nesting key + 1)
  | call e args => max (nesting e) (nestingAll args)
  | _ => 0

/-- How deep the brackets around items are nested, their own brackets included. -/
def nestingAll : List Expr → Nat
  | [] => 0
  | e :: rest => max (nesting e + 1) (nestingAll rest)

end

end Expr

/-! ### Characters -/

theorem toNat_of_isAlpha {c : Char} (h : c.isAlpha = true) :
    (65 ≤ c.toNat ∧ c.toNat ≤ 90) ∨ 97 ≤ c.toNat ∧ c.toNat ≤ 122 := by
  rcases Bool.or_eq_true_iff.1 h with hupper | hlower
  · exact .inl (of_decide_eq_true hupper)
  · obtain ⟨hge, hle⟩ := Bool.and_eq_true_iff.1 hlower
    exact .inr ⟨of_decide_eq_true hge, of_decide_eq_true hle⟩

theorem toNat_of_isDigit {c : Char} (h : c.isDigit = true) : 48 ≤ c.toNat ∧ c.toNat ≤ 57 :=
  Char.isDigit_iff_toNat.1 h

/-- The ASCII characters of a name are between the digits and the letters. -/
theorem isNameChar_eq_false {c : Char} (hcode : c.toNat < 48 ∨ 122 < c.toNat)
    (hletter : alphabeticBeyondAscii.contains c = false)
    (hnumber : numericBeyondAscii.contains c = false) : isNameChar c = false := by
  have hdigit : c.isDigit = false := Bool.eq_false_iff.2 fun h ↦ by
    have := toNat_of_isDigit h
    omega
  have halpha : c.isAlpha = false := Bool.eq_false_iff.2 fun h ↦ by
    have := toNat_of_isAlpha h
    omega
  have hunderscore : c ≠ '_' := by
    rintro rfl
    revert hcode
    decide
  simp [isNameChar, isAlphanumeric, isAlphabetic, isNumeric, hdigit, halpha, hunderscore, hletter,
    hnumber]

/-- White space ends a name. -/
theorem isNameChar_of_isBlank {c : Char} (h : isBlank c = true) : isNameChar c = false := by
  have hranges : ∀ r ∈ blanks.ranges, r.2 < 48 ∨ 122 < r.1 := by decide
  obtain ⟨r, hr, hfirst, hlast⟩ := CharSet.contains_iff.1 h
  have hrange := hranges r hr
  exact isNameChar_eq_false (by omega) (CharSet.contains_eq_false (by decide +kernel) h)
    (CharSet.contains_eq_false (by decide +kernel) h)

/-- A digit may stand in a name, though not begin one. -/
theorem isNameChar_of_isDigit {c : Char} (h : c.isDigit = true) :
    isNameChar c = true ∧ isNameStart c = false := by
  have hcode := toNat_of_isDigit h
  have hascii : c.toNat < 128 := by omega
  have halpha : c.isAlpha = false := Bool.eq_false_iff.2 fun halpha ↦ by
    have := toNat_of_isAlpha halpha
    omega
  have hunderscore : c ≠ '_' := by
    rintro rfl
    exact absurd h (by decide)
  constructor
  · simp [isNameChar, isAlphanumeric, isNumeric, h, hascii]
  · simp [isNameStart, isAlphabetic, halpha, hascii, hunderscore]

/-! ### How a spelling begins -/

/-- A character that may begin an expression, as far as it matters around it: white space is
skipped before one, and the brackets that close items end them. -/
structure Opens (c : Char) : Prop where
  /-- It is not skipped. -/
  notBlank : isBlank c = false
  /-- It closes no items. -/
  notClose : c ≠ ')' ∧ c ≠ ']'

/-- What may stand in a name is skipped by no reader. -/
theorem opens_of_isNameChar {c : Char} (h : isNameChar c = true) : Opens c where
  notBlank := Bool.eq_false_iff.2 fun hblank ↦ by
    rw [isNameChar_of_isBlank hblank] at h
    exact absurd h (by simp)
  notClose := by
    constructor <;> rintro rfl <;> exact absurd h (by decide)

theorem opens_of_isQuote {c : Char} (h : isQuote c = true) : Opens c := by
  rcases isQuote_iff.1 h with rfl | rfl <;> exact ⟨by decide, by decide⟩

/-- The constants look like names. -/
theorem isName_of_mem_constants {e : Expr} {s : List Char} (h : (s, e) ∈ constants) :
    isName s = true := by
  simp only [constants, List.mem_cons, Prod.mk.injEq, List.not_mem_nil, or_false] at h
  rcases h with ⟨rfl, -⟩ | ⟨rfl, -⟩ | ⟨rfl, -⟩ <;> decide

/-- A name has a first character, which may begin one, and others, which may go on with it. -/
theorem exists_cons_of_isName {s : List Char} (h : isName s = true) :
    ∃ c rest, s = c :: rest ∧ isNameStart c = true ∧ ∀ d ∈ s, isNameChar d = true := by
  cases s with
  | nil => exact absurd h (by simp [isName])
  | cons c rest =>
    rw [isName, Bool.and_eq_true] at h
    exact ⟨c, rest, rfl, h.1, List.all_eq_true.1 h.2⟩

theorem opens_isName {s : List Char} (h : isName s = true) : ∃ c ∈ s.head?, Opens c := by
  obtain ⟨c, rest, rfl, hstart, -⟩ := exists_cons_of_isName h
  exact ⟨c, rfl, opens_of_isNameChar (isNameChar_of_isNameStart hstart)⟩

/-- A number begins with a character that opens an expression, with a sign or without. -/
theorem opens_signed {negative : Bool} {s : List Char}
    (h : negative = false → ∃ c ∈ s.head?, c.isDigit = true) :
    ∃ c ∈ (signed negative s).head?, Opens c := by
  cases negative with
  | true => exact ⟨'-', rfl, ⟨by decide, by decide⟩⟩
  | false =>
    obtain ⟨c, hc, hdigit⟩ := h rfl
    exact ⟨c, hc, opens_of_isNameChar (isNameChar_of_isDigit hdigit).1⟩

/-- A spelling begins with a character that opens an expression. -/
theorem Spells.head {e : Expr} {s : List Char} (h : Spells e s) : ∃ c ∈ s.head?, Opens c := by
  cases h with
  | constant h => exact opens_isName (isName_of_mem_constants h)
  | int whole hdigits hvalue => exact opens_signed whole.head
  | float whole fraction => exact opens_signed fun hsign ↦ head_append (whole.head hsign)
  | str hquote hbody => exact ⟨_, rfl, opens_of_isQuote hquote⟩
  | name hname hconstant => exact opens_isName hname
  | group | list | tuple => exact ⟨_, rfl, ⟨by decide, by decide⟩⟩
  | member he | subscript he | call he =>
    simp only [List.append_assoc]
    exact head_append he.head

end LineCompletion
