import LineCompletion.Json.Number
import LineCompletion.Proofs.Text.Tokens

/-!
# How numbers are written

The grammar of JSON numbers, part by part, and that the check of a number is this grammar
(`isNumber_iff`). A number is a sign if it is negative, its whole part, a fraction and an exponent,
the last two of which may be missing. A whole part of more than one digit does not begin with zero.

Each part is checked by a function that is given all that is left and returns what is behind the
part. So what is said of one part is what it may be cut from, in the form of an equivalence
(`afterWhole?_eq_some_iff`, `afterFraction?_eq_some_iff`, `afterExponent?_eq_some_nil_iff`), and a
condition on what follows belongs to it: digits end where no digit follows (`NoDigit`), and a number
without a fraction goes on with no point (`EndsFraction`). These conditions are what makes a part
unique, for digits could be cut anywhere.

**The parts fit together by the grammar alone.** That an exponent may follow any fraction
(`ExponentText.endsFraction`), and a fraction any whole part (`FractionText.noDigit_append`), is
proved from how exponents and fractions begin. So no condition on what follows is left in
`isNumber_iff`, which speaks of a whole text.

The last section is for readers that find the end of a number before they check it: a number
consists of characters of numbers (`NumberText.isNumberChar`) and begins with a digit or with a sign
(`NumberText.exists_head`). What number a text stands for is not asked here, as none of the settings
is a number.
-/

namespace LineCompletion.Json

/-! ### The grammar -/

/-- Decimal digits, at least one. -/
structure Digits (s : List Char) : Prop where
  /-- One at least. -/
  ne_nil : s ≠ []
  /-- Nothing but digits. -/
  isDigit : ∀ c ∈ s, c.isDigit = true

/-- The whole part of a number. -/
structure WholeDigits (s : List Char) : Prop extends Digits s where
  /-- A zero is not followed by more digits. -/
  zero : s.head? = some '0' → s = ['0']

/-- The fraction of a number, which may be missing. -/
inductive FractionText : List Char → Prop
  /-- No fraction. -/
  | none : FractionText []
  /-- Digits behind a point. -/
  | point {s : List Char} (h : Digits s) : FractionText ('.' :: s)

/-- The exponent of a number, which may be missing. -/
inductive ExponentText : List Char → Prop
  /-- No exponent. -/
  | none : ExponentText []
  /-- A letter, a sign if there is one, and digits. -/
  | power {e : Char} {sign s : List Char} (he : e = 'e' ∨ e = 'E')
      (hsign : sign = [] ∨ sign = ['+'] ∨ sign = ['-']) (h : Digits s) :
      ExponentText (e :: (sign ++ s))

/-- A number. -/
inductive NumberText : List Char → Prop
  /-- A sign if it is negative, its whole part, its fraction and its exponent. -/
  | mk {sign whole fraction exponent : List Char} (hsign : sign = [] ∨ sign = ['-'])
      (hwhole : WholeDigits whole) (hfraction : FractionText fraction)
      (hexponent : ExponentText exponent) : NumberText (sign ++ (whole ++ (fraction ++ exponent)))

/-! ### Digits -/

/-- What follows digits is no further digit. -/
def NoDigit (rest : List Char) : Prop := ∀ c ∈ rest.head?, c.isDigit = false

/-- The condition on what follows, as the check asks for it. -/
theorem noDigit_iff {rest : List Char} : NoDigit rest ↔ rest.head?.any Char.isDigit = false := by
  cases rest <;> simp [NoDigit]

/-- Digits begin with a digit. -/
theorem Digits.exists_head {s : List Char} (h : Digits s) :
    ∃ c rest, s = c :: rest ∧ c.isDigit = true := by
  cases s with
  | nil => exact absurd rfl h.ne_nil
  | cons c rest => exact ⟨c, rest, rfl, h.isDigit c List.mem_cons_self⟩

/-- Digits are taken off the start of a text as far as there are any, and at least one. -/
theorem afterDigits?_eq_some_iff {s rest : List Char} :
    afterDigits? s = some rest ↔ ∃ digits, Digits digits ∧ NoDigit rest ∧ s = digits ++ rest := by
  rw [afterDigits?]
  constructor
  · intro h
    split at h
    · rename_i hhead
      obtain rfl := Option.some.inj h
      refine ⟨s.takeWhile Char.isDigit, ⟨?_, fun _ hc ↦ List.mem_takeWhile_imp hc⟩, ?_,
        List.takeWhile_append_dropWhile.symm⟩
      · obtain ⟨c, hc, hdigit⟩ := (Option.any_eq_true _ _).1 hhead
        obtain ⟨t, rfl⟩ := List.head?_eq_some_iff.1 hc
        rw [List.takeWhile_cons_of_pos hdigit]
        exact List.cons_ne_nil _ _
      · exact head?_dropWhile_eq_false
    · exact absurd h (by simp)
  · rintro ⟨digits, hdigits, hrest, rfl⟩
    obtain ⟨c, t, rfl, hc⟩ := hdigits.exists_head
    rw [if_pos (by rw [List.cons_append, List.head?_cons, Option.any_some, hc]),
      dropWhile_append_of_stop hdigits.isDigit hrest]

/-! ### The parts of a number -/

/-- Where no zero comes first, a whole part is just its digits. -/
theorem afterWhole?_of_head {s : List Char} (h : s.head? ≠ some '0') :
    afterWhole? s = afterDigits? s := by
  rw [afterWhole?]
  rintro rest rfl
  exact h rfl

/-- A whole part is taken off the start of a text if no further digit follows it. -/
theorem afterWhole?_eq_some_iff {s rest : List Char} :
    afterWhole? s = some rest ↔ ∃ whole, WholeDigits whole ∧ NoDigit rest ∧ s = whole ++ rest := by
  by_cases hzero : s.head? = some '0'
  · obtain ⟨t, rfl⟩ := List.head?_eq_some_iff.1 hzero
    rw [afterWhole?]
    constructor
    · intro h
      split at h
      · exact absurd h (by simp)
      · rename_i hhead
        obtain rfl := Option.some.inj h
        exact ⟨['0'], ⟨⟨by simp, by simp⟩, fun _ ↦ rfl⟩,
          noDigit_iff.2 (Bool.eq_false_iff.2 hhead), rfl⟩
    · rintro ⟨whole, hwhole, hrest, heq⟩
      obtain ⟨c, u, rfl, -⟩ := hwhole.toDigits.exists_head
      obtain ⟨rfl, ht⟩ := List.cons.inj heq
      obtain ⟨-, rfl⟩ := List.cons.inj (hwhole.zero rfl)
      obtain rfl : t = rest := ht
      rw [if_neg (by rw [noDigit_iff.1 hrest]; simp)]
  · rw [afterWhole?_of_head hzero, afterDigits?_eq_some_iff]
    constructor
    · rintro ⟨digits, hdigits, hrest, rfl⟩
      refine ⟨digits, ⟨hdigits, fun hhead ↦ absurd ?_ hzero⟩, hrest, rfl⟩
      rw [List.head?_append, hhead]
      rfl
    · rintro ⟨whole, hwhole, hrest, rfl⟩
      exact ⟨whole, hwhole.toDigits, hrest, rfl⟩

/-- What follows a fraction: no further digit, and no point either if there is no fraction. -/
structure EndsFraction (fraction rest : List Char) : Prop where
  /-- Digits behind a point go on as far as there are digits. -/
  noDigit : fraction ≠ [] → NoDigit rest
  /-- A point would begin a fraction. -/
  noPoint : fraction = [] → rest.head? ≠ some '.'

/-- A fraction is taken off the start of a text if what follows could not belong to it. -/
theorem afterFraction?_eq_some_iff {s rest : List Char} :
    afterFraction? s = some rest ↔
      ∃ fraction, FractionText fraction ∧ EndsFraction fraction rest ∧ s = fraction ++ rest := by
  by_cases hpoint : s.head? = some '.'
  · obtain ⟨t, rfl⟩ := List.head?_eq_some_iff.1 hpoint
    rw [afterFraction?, afterDigits?_eq_some_iff]
    constructor
    · rintro ⟨digits, hdigits, hrest, rfl⟩
      exact ⟨'.' :: digits, .point hdigits, ⟨fun _ ↦ hrest, fun h ↦ absurd h (by simp)⟩, rfl⟩
    · rintro ⟨fraction, hfraction, hrest, heq⟩
      cases hfraction with
      | none => exact absurd (by rw [← hpoint, heq]; rfl) (hrest.noPoint rfl)
      | point hdigits =>
        exact ⟨_, hdigits, hrest.noDigit (by simp), (List.cons.inj heq).2⟩
  · have hnone : afterFraction? s = some s := by
      rw [afterFraction?]
      rintro t rfl
      exact hpoint rfl
    rw [hnone, Option.some.injEq]
    constructor
    · rintro rfl
      exact ⟨[], .none, ⟨fun h ↦ absurd rfl h, fun _ ↦ hpoint⟩, rfl⟩
    · rintro ⟨fraction, hfraction, -, rfl⟩
      cases hfraction with
      | none => rfl
      | point => exact absurd rfl hpoint

/-- Digits behind a sign, if there is one. -/
theorem unsigned_append {sign s : List Char} (hsign : sign = [] ∨ sign = ['+'] ∨ sign = ['-'])
    (h : Digits s) :
    (if (sign ++ s).head? = some '+' ∨ (sign ++ s).head? = some '-' then (sign ++ s).tail
      else sign ++ s) = s := by
  obtain ⟨c, t, rfl, hc⟩ := h.exists_head
  rcases hsign with rfl | rfl | rfl
  · refine if_neg fun hhead ↦ ?_
    rcases hhead with hhead | hhead <;> obtain rfl := Option.some.inj hhead <;>
      exact absurd hc (by decide)
  · rfl
  · rfl

/-- Every text has a sign at its start, or none, and what is behind it. -/
theorem exists_sign_append (s : List Char) :
    ∃ sign, (sign = [] ∨ sign = ['+'] ∨ sign = ['-']) ∧
      s = sign ++ if s.head? = some '+' ∨ s.head? = some '-' then s.tail else s := by
  by_cases hsign : s.head? = some '+' ∨ s.head? = some '-'
  · rw [if_pos hsign]
    rcases hsign with hsign | hsign <;> obtain ⟨t, rfl⟩ := List.head?_eq_some_iff.1 hsign
    · exact ⟨['+'], .inr (.inl rfl), rfl⟩
    · exact ⟨['-'], .inr (.inr rfl), rfl⟩
  · rw [if_neg hsign]
    exact ⟨[], .inl rfl, rfl⟩

/-- Nothing is left behind an exponent exactly if the text is one. -/
theorem afterExponent?_eq_some_nil_iff {s : List Char} :
    afterExponent? s = some [] ↔ ExponentText s := by
  constructor
  · intro h
    cases s with
    | nil => exact .none
    | cons e rest =>
      rw [afterExponent?] at h
      split at h
      · rename_i he
        obtain ⟨sign, hsign, hrest⟩ := exists_sign_append rest
        obtain ⟨digits, hdigits, -, heq⟩ := afterDigits?_eq_some_iff.1 h
        rw [heq, List.append_nil] at hrest
        exact hrest ▸ .power he hsign hdigits
      · exact absurd h (by simp)
  · intro h
    cases h with
    | none => rfl
    | power he hsign hdigits =>
      rw [afterExponent?, if_pos he, unsigned_append hsign hdigits, afterDigits?_eq_some_iff]
      exact ⟨_, hdigits, fun _ hc ↦ absurd hc (by simp), (List.append_nil _).symm⟩

/-! ### Numbers -/

/-- An exponent that is not missing begins with its letter. -/
theorem ExponentText.head {s : List Char} (h : ExponentText s) :
    ∀ c ∈ s.head?, c = 'e' ∨ c = 'E' := by
  cases h with
  | none => exact fun _ hc ↦ absurd hc (by simp)
  | power he => exact fun _ hc ↦ Option.some.inj hc ▸ he

/-- An exponent may follow any fraction. -/
theorem ExponentText.endsFraction {s : List Char} (h : ExponentText s) (fraction : List Char) :
    EndsFraction fraction s where
  noDigit _ := fun c hc ↦ by rcases h.head c hc with rfl | rfl <;> rfl
  noPoint _ := fun hc ↦ by rcases h.head _ hc with hc | hc <;> exact absurd hc (by decide)

/-- A fraction and an exponent may follow any whole part. -/
theorem FractionText.noDigit_append {fraction exponent : List Char} (h : FractionText fraction)
    (hexponent : ExponentText exponent) : NoDigit (fraction ++ exponent) := by
  cases h with
  | none => exact (hexponent.endsFraction ['.']).noDigit (by simp)
  | point => exact fun c hc ↦ Option.some.inj hc ▸ rfl

/-- A whole part has no sign of its own. -/
theorem WholeDigits.head_ne_minus {whole : List Char} (h : WholeDigits whole) (rest : List Char) :
    (whole ++ rest).head? ≠ some '-' := by
  obtain ⟨c, t, rfl, hc⟩ := h.toDigits.exists_head
  intro hhead
  obtain rfl := Option.some.inj hhead
  exact absurd hc (by decide)

/-- Nothing is left behind the three parts exactly if the text consists of three such parts. -/
theorem afterParts?_eq_some_nil_iff {s : List Char} :
    ((afterWhole? s).bind afterFraction?).bind afterExponent? = some [] ↔
      ∃ whole fraction exponent, WholeDigits whole ∧ FractionText fraction ∧
        ExponentText exponent ∧ s = whole ++ (fraction ++ exponent) := by
  simp only [Option.bind_eq_some_iff, afterWhole?_eq_some_iff, afterFraction?_eq_some_iff,
    afterExponent?_eq_some_nil_iff]
  constructor
  · rintro ⟨exponent, ⟨rest, ⟨whole, hwhole, -, rfl⟩, fraction, hfraction, -, rfl⟩, hexponent⟩
    exact ⟨whole, fraction, exponent, hwhole, hfraction, hexponent, rfl⟩
  · rintro ⟨whole, fraction, exponent, hwhole, hfraction, hexponent, rfl⟩
    exact ⟨exponent, ⟨_, ⟨whole, hwhole, hfraction.noDigit_append hexponent, rfl⟩, fraction,
      hfraction, hexponent.endsFraction fraction, rfl⟩, hexponent⟩

/-- **The check of a number is the grammar.** -/
theorem isNumber_iff {s : List Char} : isNumber s = true ↔ NumberText s := by
  rw [isNumber, beq_iff_eq, afterParts?_eq_some_nil_iff]
  constructor
  · rintro ⟨whole, fraction, exponent, hwhole, hfraction, hexponent, heq⟩
    split at heq
    · rename_i hminus
      obtain ⟨t, rfl⟩ := List.head?_eq_some_iff.1 hminus
      obtain rfl : t = _ := heq
      exact .mk (.inr rfl) hwhole hfraction hexponent
    · obtain rfl : s = _ := heq
      exact .mk (.inl rfl) hwhole hfraction hexponent
  · rintro ⟨rfl | rfl, hwhole, hfraction, hexponent⟩
    · exact ⟨_, _, _, hwhole, hfraction, hexponent, if_neg (hwhole.head_ne_minus _)⟩
    · exact ⟨_, _, _, hwhole, hfraction, hexponent, rfl⟩

/-! ### Characters of numbers -/

/-- Digits are characters of numbers. -/
theorem Digits.isNumberChar {s : List Char} (h : Digits s) : ∀ c ∈ s, isNumberChar c = true :=
  fun c hc ↦ by simp [Json.isNumberChar, h.isDigit c hc]

/-- A fraction consists of characters of numbers. -/
theorem FractionText.isNumberChar {s : List Char} (h : FractionText s) :
    ∀ c ∈ s, isNumberChar c = true := by
  cases h with
  | none => exact fun _ hc ↦ absurd hc List.not_mem_nil
  | point hdigits => exact List.forall_mem_cons.2 ⟨rfl, hdigits.isNumberChar⟩

/-- An exponent consists of characters of numbers. -/
theorem ExponentText.isNumberChar {s : List Char} (h : ExponentText s) :
    ∀ c ∈ s, isNumberChar c = true := by
  cases h with
  | none => exact fun _ hc ↦ absurd hc List.not_mem_nil
  | power he hsign hdigits =>
    refine List.forall_mem_cons.2 ⟨by rcases he with rfl | rfl <;> rfl,
      List.forall_mem_append.2 ⟨?_, hdigits.isNumberChar⟩⟩
    rcases hsign with rfl | rfl | rfl
    · exact fun _ hc ↦ absurd hc List.not_mem_nil
    · exact List.forall_mem_singleton.2 rfl
    · exact List.forall_mem_singleton.2 rfl

/-- **A number consists of characters of numbers**, so it ends at the latest where one follows that
is not. -/
theorem NumberText.isNumberChar {s : List Char} (h : NumberText s) :
    ∀ c ∈ s, isNumberChar c = true := by
  obtain ⟨hsign, hwhole, hfraction, hexponent⟩ := h
  refine List.forall_mem_append.2 ⟨?_, List.forall_mem_append.2 ⟨hwhole.toDigits.isNumberChar,
    List.forall_mem_append.2 ⟨hfraction.isNumberChar, hexponent.isNumberChar⟩⟩⟩
  rcases hsign with rfl | rfl
  · exact fun _ hc ↦ absurd hc List.not_mem_nil
  · exact List.forall_mem_singleton.2 rfl

/-- A number begins with a digit or with the sign of a negative one. -/
theorem NumberText.exists_head {s : List Char} (h : NumberText s) :
    ∃ c rest, s = c :: rest ∧ (c.isDigit = true ∨ c = '-') := by
  obtain ⟨hsign, hwhole, -, -⟩ := h
  rcases hsign with rfl | rfl
  · obtain ⟨c, t, rfl, hc⟩ := hwhole.toDigits.exists_head
    exact ⟨c, _, rfl, .inl hc⟩
  · exact ⟨'-', _, rfl, .inr rfl⟩

end LineCompletion.Json
