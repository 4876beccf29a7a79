import LineCompletion.Line.Decomposition
import LineCompletion.Proofs.Line.Restoring
import Mathlib.Data.List.Basic
import Mathlib.Data.List.TakeDrop
import Mathlib.Data.List.TakeWhile

/-!
# Taking a line apart loses nothing

The parts of a line taken apart, put in the right order, are the line again. Only the padding may
have changed its place: it was typed before the expression, after the bracket of the lookup, between
that bracket and its quote, or behind a bare number (`PaddingPlace`).

The masked text is followed through the drafts. Each draft makes it up, with the padding in some
place, and each step is a cut of one part in two (`Decomposition.Divides`). What makes the cuts
right is that an expression ends in an opening bracket only when nothing stands before it: then the
bracket may be taken off, and the rest be divided again. No cut goes through a placeholder, since
one side of it is a delimiter, a quote or white space, so restoring the parts one by one restores
the line.

**One lemma for each step.** A line is taken apart in four steps: the first draft cuts off what was
typed from an open quote on, and divides the rest before its last expression
(`divides_ofMasked`); a number at the end becomes the fragment (`divides_takeIndex`); a bracket, and
a quote behind it, become the lookup (`divides_takeLookup`); arguments that were opened are left to
what stands before them (`divides_takeCall`). Each of them keeps `Decomposition.Divides` and may
move the padding to a later place. A line is then the last link of this chain
(`exists_divides_maskedParts`), with its literals put back (`Decomposition.Divides.arranges`).

**What the invariant carries.** Besides making up the text, `Decomposition.Divides` says that no
placeholder is cut, which restoring needs, and that nothing stands before an expression that ends in
an opening bracket, which the next step needs. A claim on the parts alone would not be kept by the
steps.

**Where the padding was.** Which places are possible depends on the lookup
(`PaddingPlace.Fits`). No step after the first draft touches the padding itself, so it is what the
first draft took: white space from before the open quote (`isBlank_of_mem_padding`). Where none was
typed there, every place is the same one, and the parts in their order are the line.
-/

namespace LineCompletion

open Text

/-! ### Characters beside a cut -/

/-- Digits and private use: nothing else stands in a placeholder. -/
theorem toNat_of_isPlaceholderChar {c : Char} (h : isPlaceholderChar c = true) :
    48 ≤ c.toNat ∧ c.toNat ≤ 57 ∨ placeholderOpen.toNat ≤ c.toNat := by
  rw [isPlaceholderChar, Bool.or_eq_true, Bool.or_eq_true, beq_iff_eq, beq_iff_eq] at h
  rcases h with (rfl | hdigit) | rfl
  · exact .inr (Nat.le_refl _)
  · rw [Char.isDigit, Bool.and_eq_true, decide_eq_true_eq, decide_eq_true_eq] at hdigit
    exact .inl ⟨UInt32.le_iff_toNat_le.1 hdigit.1, UInt32.le_iff_toNat_le.1 hdigit.2⟩
  · exact .inr (by decide)

/-- White space is in no placeholder. -/
theorem isPlaceholderChar_of_isBlank {c : Char} (h : isBlank c = true) :
    isPlaceholderChar c = false := by
  have hranges : ∀ r ∈ blanks.ranges, r.2 < 48 ∨ 57 < r.1 ∧ r.2 < placeholderOpen.toNat := by decide
  obtain ⟨r, hr, hfirst, hlast⟩ := CharSet.contains_iff.1 h
  refine Bool.eq_false_iff.2 fun hc ↦ ?_
  have hnat := toNat_of_isPlaceholderChar hc
  have hopen : placeholderOpen.toNat = 57344 := rfl
  have hrange := hranges r hr
  omega

/-- No delimiter is in a placeholder. -/
theorem isPlaceholderChar_of_isDelimiter {c : Char} (h : isDelimiter c = true) :
    isPlaceholderChar c = false := by
  have hall : (" \t\n`~!@#$%^&*-=+\\|;:,<>[]()\x7b\x7d/?".toList.all
      (!isPlaceholderChar ·)) = true := by
    decide
  simpa using List.all_eq_true.1 hall c (List.contains_iff_mem.1 h)

/-- No quote is in a placeholder. -/
theorem isPlaceholderChar_of_isQuote {c : Char} (h : isQuote c = true) :
    isPlaceholderChar c = false := by
  rcases isQuote_iff.1 h with rfl | rfl <;> decide

/-! ### Where an expression begins -/

/-- Outside brackets, what is left over begins with the delimiter that ends the walk. -/
theorem head_splitBackwards (nesting : Nat) (s : List Char) :
    ∀ c ∈ (splitBackwards nesting s).2.head?, isDelimiter c = true := by
  induction s generalizing nesting with
  | nil => simp [splitBackwards]
  | cons c rest ih =>
    simp only [splitBackwards]
    split
    · exact ih _
    · split
      · exact ih _
      · split
        · rename_i hdelimiter
          exact fun d hd ↦ Option.some.inj hd ▸ hdelimiter
        · exact ih _

/-- What stands before the last expression ends with a delimiter. -/
theorem getLast_lastExpression (s : List Char) :
    ∀ c ∈ (lastExpression s).1.getLast?, isDelimiter c = true := by
  have h := head_splitBackwards 0 s.reverse
  rw [lastExpression]
  split
  · simp
  · rename_i expr before heq
    rw [heq] at h
    rwa [List.getLast?_reverse]

/-- A delimiter at the end, other than a closing bracket, leaves nothing before the expression. -/
theorem lastExpression_of_delimiter {s : List Char} {c : Char} (h : s.getLast? = some c)
    (hdelimiter : isDelimiter c = true) (hcloser : isCloser c = false) :
    lastExpression s = ([], s) := by
  obtain ⟨rest, hs⟩ : ∃ rest, s.reverse = c :: rest := by
    rw [← List.head?_reverse] at h
    exact List.head?_eq_some_iff.1 h
  rw [lastExpression, hs, splitBackwards]
  simp [hdelimiter, hcloser]

/-- The expression ends in an opening bracket only when nothing stands before it. -/
theorem fst_lastExpression_of_opener {s : List Char} {c : Char}
    (h : (lastExpression s).2.getLast? = some c) (hdelimiter : isDelimiter c = true)
    (hcloser : isCloser c = false) : (lastExpression s).1 = [] := by
  have hs : s.getLast? = some c := by
    rw [← lastExpression_append s, List.getLast?_append, h]
    rfl
  rw [lastExpression_of_delimiter hs hdelimiter hcloser]

/-! ### The parts in the order in which they were typed -/

/-- Where the padding of a line was typed. -/
inductive PaddingPlace where
  /-- Before the expression. -/
  | beforeExpr
  /-- Before the fragment, after the expression and what was typed of a lookup. -/
  | beforeFragment
  /-- Between the bracket of a lookup and the quote that opens its key. -/
  | beforeQuote
  /-- Behind a bare number, which is the fragment. -/
  | afterFragment
  deriving DecidableEq, Repr

/-- Whether padding may have been typed in a place when the line ends in a lookup as given: behind
the bracket, and before the quote if there is one. -/
def PaddingPlace.Fits (place : PaddingPlace) : Lookup → Prop
  | .absent => place ≠ .beforeQuote
  | .bracket => place = .beforeFragment ∨ place = .afterFragment
  | .key _ => place = .beforeQuote

namespace Decomposition

/-- The parts in the order in which they were typed, with the padding in the place given. -/
def inOrder (d : Decomposition) : PaddingPlace → List (List Char)
  | .beforeExpr => [d.pretext, d.padding, d.expr, d.lookup.text, d.fragment]
  | .beforeFragment => [d.pretext, d.expr, d.lookup.text, d.padding, d.fragment]
  | .beforeQuote => [d.pretext, d.expr, ['['], d.padding, d.lookup.quote?.toList, d.fragment]
  | .afterFragment => [d.pretext, d.expr, d.lookup.text, d.fragment, d.padding]

/-- The parts make up a text, with the padding in the place given. -/
structure Arranges (d : Decomposition) (place : PaddingPlace) (text : List Char) : Prop where
  /-- Nothing but the parts is there. -/
  flatten_eq : (d.inOrder place).flatten = text
  /-- White space behind the fragment is white space behind a number. -/
  numeric : place = .afterFragment → ∀ c ∈ d.fragment, isNumeric c = true
  /-- White space before a quote is white space before the quote of a key. -/
  keyed : place = .beforeQuote → ∃ quote, d.lookup = .key quote

/-- The parts make up a masked text, and are cut off each other where they may be. -/
structure Divides (d : Decomposition) (place : PaddingPlace) (masked : List Char) : Prop
    extends d.Arranges place masked where
  /-- No placeholder is cut. -/
  uncut : Uncut (d.inOrder place)
  /-- Nothing stands before an expression that ends in an opening bracket. -/
  bracket : ∀ c ∈ d.expr.getLast?, c = '[' ∨ c = '(' →
    d.pretext = [] ∧ (place = .beforeExpr → d.padding = [])
  /-- A key is opened by a quote. -/
  quoted : ∀ quote, d.lookup = .key quote → isQuote quote = true

/-- A draft as a decomposition, its fragment empty if it is not known. -/
def Draft.parts (d : Draft) (lookup : Lookup) : Decomposition :=
  ⟨d.pretext, d.expr, lookup, d.padding, d.fragment.getD []⟩

/-! ### The first draft -/

/-- What is found from a character on begins with it, and what comes before makes it the whole text.
-/
theorem eq_append_of_splitAtFirst? {c : Char} {s before typed : List Char}
    (h : splitAtFirst? c s = some (before, typed)) :
    s = before ++ typed ∧ ∃ rest, typed = c :: rest := by
  rw [splitAtFirst?] at h
  split at h
  · rename_i hmem
    rw [List.span_eq_takeWhile_dropWhile, Option.some.injEq, Prod.mk.injEq] at h
    obtain ⟨rfl, rfl⟩ := h
    refine ⟨List.takeWhile_append_dropWhile.symm, ?_⟩
    have hhead := List.head?_dropWhile_not (· != c) s
    rcases hdrop : s.dropWhile (· != c) with - | ⟨d, rest⟩
    · have hnot := List.dropWhile_eq_nil_iff.1 hdrop c (List.contains_iff_mem.1 hmem)
      exact absurd hnot (by simp)
    · rw [hdrop] at hhead
      exact ⟨rest, by simpa using hhead⟩
  · exact absurd h (by simp)

/-- Cutting at an open quote loses nothing, and what is cut off begins with a quote. -/
theorem splitAtOpenQuote_spec (s : List Char) :
    (splitAtOpenQuote s).1 ++ (splitAtOpenQuote s).2.getD [] = s ∧
      ∀ typed ∈ (splitAtOpenQuote s).2,
        ∃ quote rest, typed = quote :: rest ∧ isQuote quote = true := by
  rw [splitAtOpenQuote]
  split
  · rename_i before typed heq
    have hcut : s = before ++ typed ∧
        ∃ quote rest, typed = quote :: rest ∧ isQuote quote = true := by
      rw [Option.orElse_eq_orElse, Option.orElse_eq_or, Option.or_eq_some_iff] at heq
      rcases heq with h | ⟨-, h⟩
      · obtain ⟨happend, rest, rfl⟩ := eq_append_of_splitAtFirst? h
        exact ⟨happend, _, rest, rfl, by decide⟩
      · obtain ⟨happend, rest, rfl⟩ := eq_append_of_splitAtFirst? h
        exact ⟨happend, _, rest, rfl, by decide⟩
    exact ⟨hcut.1.symm, fun other hother ↦ Option.some.inj hother ▸ hcut.2⟩
  · exact ⟨List.append_nil s, by simp⟩

/-- Without white space at its end a text is not trimmed there. -/
theorem trailingBlanks_eq_nil {s : List Char} (h : (trailingBlanks s).isEmpty = true) :
    trimEnd s = s := by
  have happend := trimEnd_append_trailingBlanks s
  rwa [List.isEmpty_iff.1 h, List.append_nil] at happend

/-- White space at the end of a text holds no part of a placeholder. -/
theorem isPlaceholderChar_of_mem_trailingBlanks {s : List Char} {c : Char}
    (h : c ∈ trailingBlanks s) : isPlaceholderChar c = false :=
  isPlaceholderChar_of_isBlank (isBlank_of_mem_trailingBlanks h)

/-- Where the masked text is cut next: nothing of a placeholder stands before a last expression. -/
theorem not_cutsPlaceholder_lastExpression (s right : List Char) :
    ¬ CutsPlaceholder (lastExpression s).1 right :=
  not_cutsPlaceholder_of_getLast fun c hc ↦
    isPlaceholderChar_of_isDelimiter (getLast_lastExpression s c hc)

/-- Before an expression that ends in an opening bracket there is nothing. -/
theorem fst_lastExpression_of_bracket {s : List Char} :
    ∀ c ∈ (lastExpression s).2.getLast?, c = '[' ∨ c = '(' → (lastExpression s).1 = [] := by
  rintro c hc (rfl | rfl)
  · exact fst_lastExpression_of_opener hc (by decide) (by decide)
  · exact fst_lastExpression_of_opener hc (by decide) (by decide)

/-- White space before the expression taken off what stands before it. -/
theorem divides_trimEnd {pretext expr fragment masked : List Char}
    (happend : pretext ++ expr ++ fragment = masked)
    (hpretext : ∀ right, ¬ CutsPlaceholder pretext right)
    (hfragment : ∀ left, ¬ CutsPlaceholder left fragment)
    (hbracket : ∀ c ∈ expr.getLast?, c = '[' ∨ c = '(' → pretext = []) :
    Divides ⟨trimEnd pretext, expr, .absent, trailingBlanks pretext, fragment⟩ .beforeExpr
      masked := by
  have htrim := trimEnd_append_trailingBlanks pretext
  refine ⟨⟨?_, by simp, by simp⟩,
    ⟨?_, ?_, ?_, ?_, not_cutsPlaceholder_nil_right _, trivial⟩, ?_, by simp⟩
  · show trimEnd pretext ++ (trailingBlanks pretext ++ (expr ++ ([] ++ (fragment ++ [])))) = masked
    rw [← List.append_assoc, htrim, ← happend, List.nil_append, List.append_nil, List.append_assoc]
  · -- Without white space the cut is the one before the expression.
    rcases hblanks : trailingBlanks pretext with - | ⟨c, blanks⟩
    · rw [trailingBlanks_eq_nil (by rw [hblanks]; rfl)]
      exact hpretext _
    · refine not_cutsPlaceholder_of_head fun d hd ↦ ?_
      obtain rfl : c = d := by simpa using hd
      exact isPlaceholderChar_of_mem_trailingBlanks (s := pretext) (by rw [hblanks]; simp)
  · exact not_cutsPlaceholder_of_getLast fun c hc ↦
      isPlaceholderChar_of_mem_trailingBlanks (List.mem_of_getLast? hc)
  · simpa [Lookup.text] using hfragment expr
  · exact not_cutsPlaceholder_nil_left _
  · intro c hc hopen
    rw [hbracket c hc hopen]
    exact ⟨rfl, fun _ ↦ rfl⟩

/-- White space after the expression taken off the text that ends in it. -/
theorem divides_trailingBlanks {text pretext expr fragment masked : List Char}
    (happend : text ++ fragment = masked) (hexpr : pretext ++ expr = trimEnd text)
    (hblanks : trailingBlanks text ≠ [])
    (hpretext : ∀ right, ¬ CutsPlaceholder pretext right)
    (hbracket : ∀ c ∈ expr.getLast?, c = '[' ∨ c = '(' → pretext = []) :
    Divides ⟨pretext, expr, .absent, trailingBlanks text, fragment⟩ .beforeFragment masked := by
  have htrim := trimEnd_append_trailingBlanks text
  refine ⟨⟨?_, by simp, by simp⟩, ⟨hpretext _, ?_, not_cutsPlaceholder_nil_left _, ?_,
    not_cutsPlaceholder_nil_right _, trivial⟩, ?_, by simp⟩
  · show pretext ++ (expr ++ ([] ++ (trailingBlanks text ++ (fragment ++ [])))) = masked
    rw [List.nil_append, List.append_nil, ← List.append_assoc, hexpr, ← List.append_assoc, htrim,
      happend]
  · obtain ⟨c, blanks, hcons⟩ := List.exists_cons_of_ne_nil hblanks
    refine not_cutsPlaceholder_of_head fun d hd ↦ ?_
    obtain rfl : c = d := by simpa [hcons, Lookup.text] using hd
    exact isPlaceholderChar_of_mem_trailingBlanks (s := text) (by rw [hcons]; simp)
  · exact not_cutsPlaceholder_of_getLast fun c hc ↦
      isPlaceholderChar_of_mem_trailingBlanks (List.mem_of_getLast? hc)
  · exact fun c hc hopen ↦ ⟨hbracket c hc hopen, by simp⟩

/-- The first draft divides the masked text, with the padding on one side of the expression. -/
theorem divides_ofMasked (masked : List Char) :
    ((Draft.ofMasked masked).parts .absent).Divides .beforeExpr masked ∨
      ((Draft.ofMasked masked).parts .absent).Divides .beforeFragment masked := by
  obtain ⟨happend, hquote⟩ := splitAtOpenQuote_spec masked
  rw [Draft.ofMasked]
  generalize splitAtOpenQuote masked = split at happend hquote ⊢
  obtain ⟨text, fragment⟩ := split
  dsimp only at happend hquote ⊢
  -- White space at the end of the text is the padding; only without any is there one before.
  by_cases hblank : (trailingBlanks text).isEmpty = true
  · rw [if_pos hblank, trailingBlanks_eq_nil hblank]
    refine .inl (divides_trimEnd ?_ (not_cutsPlaceholder_lastExpression text) (fun left ↦ ?_)
      fst_lastExpression_of_bracket)
    · rw [lastExpression_append, happend]
    · refine not_cutsPlaceholder_of_head fun c hc ↦ ?_
      rcases fragment with - | typed
      · exact absurd hc (by simp)
      · obtain ⟨quote, rest, rfl, hq⟩ := hquote typed rfl
        exact Option.some.inj hc ▸ isPlaceholderChar_of_isQuote hq
  · rw [if_neg hblank]
    refine .inr (divides_trailingBlanks happend (lastExpression_append _) ?_
      (not_cutsPlaceholder_lastExpression _) fst_lastExpression_of_bracket)
    rwa [ne_eq, ← List.isEmpty_iff]

/-! ### The index -/

/-- A number taken off the end moves the padding behind the expression, or behind the number. -/
theorem divides_takeIndex {d : Draft} {masked : List Char}
    (h : (d.parts .absent).Divides .beforeExpr masked ∨
      (d.parts .absent).Divides .beforeFragment masked) :
    ∃ place, place ≠ .beforeQuote ∧ (d.takeIndex.parts .absent).Divides place masked := by
  rw [Draft.takeIndex]
  split
  · rename_i hindex
    rw [Bool.and_eq_true, Option.isNone_iff_eq_none, isNumber, Bool.and_eq_true] at hindex
    obtain ⟨hnone, -, hnumber⟩ := hindex
    have hpretext := lastExpression_append d.pretext
    have hcut := not_cutsPlaceholder_lastExpression d.pretext
    have hexpr : (lastExpression d.pretext).2 <:+ d.pretext := ⟨_, hpretext⟩
    have hbracket := @fst_lastExpression_of_bracket d.pretext
    obtain ⟨pretext, expr, padding, fragment⟩ := d
    obtain rfl : fragment = none := hnone
    generalize lastExpression pretext = split at hpretext hcut hexpr hbracket ⊢
    obtain ⟨before, expr'⟩ := split
    dsimp only at hpretext hcut hexpr hbracket hnumber ⊢
    -- The number was the expression. Padding before it is now behind the new expression, padding
    -- behind it is now behind the fragment.
    rcases h with
      ⟨⟨hflatten, -, -⟩, ⟨hp, hw, he, -⟩, -, -⟩ | ⟨⟨hflatten, -, -⟩, ⟨hp, he, -, hw, -⟩, -, -⟩
    · refine ⟨.beforeFragment, by simp, ⟨?_, by simp, by simp⟩, ⟨hcut _, ?_, ?_, hw, ?_, trivial⟩,
        fun c hc hopen ↦ ⟨hbracket c hc hopen, by simp⟩, by simp [Draft.parts]⟩
      · rw [← hflatten]
        simp [inOrder, Draft.parts, Lookup.text, ← hpretext]
      · exact fun hc ↦ hp (hc.of_suffix hexpr)
      · exact not_cutsPlaceholder_nil_left _
      · exact not_cutsPlaceholder_nil_right _
    · refine ⟨.afterFragment, by simp, ⟨?_, fun _ ↦ List.all_eq_true.1 hnumber, by simp⟩,
        ⟨hcut _, ?_, ?_, ?_, ?_, trivial⟩, fun c hc hopen ↦ ⟨hbracket c hc hopen, by simp⟩,
        by simp [Draft.parts]⟩
      · rw [← hflatten]
        simp [inOrder, Draft.parts, Lookup.text, ← hpretext]
      · exact fun hc ↦ hp (hc.of_suffix hexpr)
      · exact not_cutsPlaceholder_nil_left _
      · exact he
      · exact not_cutsPlaceholder_nil_right _
  · rcases h with h | h
    · exact ⟨_, by simp, h⟩
    · exact ⟨_, by simp, h⟩

/-! ### The lookup -/

section Lookup

variable {d : Decomposition} {place : PaddingPlace} {masked before expr rest : List Char} {c : Char}

/-- Where neither text nor padding is before the expression, the empty padding may as well be behind
it. -/
theorem Divides.beforeFragment (h : d.Divides .beforeExpr masked) (hlookup : d.lookup = .absent)
    (hpretext : d.pretext = []) (hpadding : d.padding = []) : d.Divides .beforeFragment masked := by
  obtain ⟨⟨hflatten, -, -⟩, ⟨-, -, he, -, hf, -⟩, hbracket, hquoted⟩ := h
  obtain ⟨_, expr, _, _, fragment⟩ := d
  obtain ⟨rfl, rfl, rfl⟩ := And.intro hpretext (And.intro hpadding hlookup)
  exact ⟨⟨hflatten, by simp, by simp⟩, ⟨not_cutsPlaceholder_nil_left _, he,
    not_cutsPlaceholder_nil_left _, not_cutsPlaceholder_nil_left _, hf, trivial⟩,
    fun c hc hopen ↦ ⟨(hbracket c hc hopen).1, by simp⟩, hquoted⟩

/-- A seam before a bracket cuts no placeholder. -/
theorem not_cutsPlaceholder_bracket (left right : List Char) :
    ¬ CutsPlaceholder left ('[' :: right) :=
  not_cutsPlaceholder_of_head fun _ hd ↦ Option.some.inj hd ▸ by decide

/-- The bracket at the end of the expression taken off, the expression before it divided again. -/
theorem Divides.bracket_lookup (h : d.Divides place masked)
    (hplace : place = .beforeFragment ∨ place = .afterFragment) (hlookup : d.lookup = .absent)
    (hpretext : d.pretext = []) (hexpr : before ++ expr ++ ['['] = d.expr)
    (hbefore : ∀ right, ¬ CutsPlaceholder before right)
    (hbracket : ∀ c ∈ expr.getLast?, c = '[' ∨ c = '(' → before = []) :
    Divides ⟨before, expr, .bracket, d.padding, d.fragment⟩ place masked := by
  obtain ⟨⟨hflatten, hnumeric, -⟩, huncut, -, -⟩ := h
  obtain ⟨_, _, _, padding, fragment⟩ := d
  obtain ⟨rfl, rfl, rfl⟩ := And.intro hpretext (And.intro hlookup hexpr)
  have hlast : ∀ right, ¬ CutsPlaceholder ['['] right := fun right ↦
    not_cutsPlaceholder_of_getLast fun _ hd ↦ Option.some.inj hd ▸ by decide
  rcases hplace with rfl | rfl
  · obtain ⟨-, -, -, hw, hf, -⟩ := huncut
    refine ⟨⟨?_, by simp, by simp⟩,
      ⟨hbefore _, not_cutsPlaceholder_bracket _ _, hlast _, hw, hf, trivial⟩,
      fun c hc hopen ↦ ⟨hbracket c hc hopen, by simp⟩, by simp⟩
    rw [← hflatten]
    simp [inOrder, Lookup.text]
  · obtain ⟨-, -, -, hf, hw, -⟩ := huncut
    refine ⟨⟨?_, hnumeric, by simp⟩,
      ⟨hbefore _, not_cutsPlaceholder_bracket _ _, hlast _, hf, hw, trivial⟩,
      fun c hc hopen ↦ ⟨hbracket c hc hopen, by simp⟩, by simp⟩
    rw [← hflatten]
    simp [inOrder, Lookup.text]

/-- The quote that starts the fragment taken with the bracket. The padding is between the two. -/
theorem Divides.key_lookup (h : d.Divides .beforeFragment masked) (hlookup : d.lookup = .bracket)
    (hfragment : d.fragment = c :: rest) (hquote : isQuote c = true) :
    Divides ⟨d.pretext, d.expr, .key c, d.padding, rest⟩ .beforeQuote masked := by
  obtain ⟨⟨hflatten, -, -⟩, ⟨hp, he, ht, -, -, -⟩, hbracket, -⟩ := h
  obtain ⟨pretext, expr, _, padding, _⟩ := d
  obtain ⟨rfl, rfl⟩ := And.intro hlookup hfragment
  have hc := isPlaceholderChar_of_isQuote hquote
  refine ⟨⟨?_, by simp, fun _ ↦ ⟨c, rfl⟩⟩,
    ⟨hp, he, ht, ?_, ?_, not_cutsPlaceholder_nil_right _, trivial⟩,
    fun c hc hopen ↦ ⟨(hbracket c hc hopen).1, by simp⟩, ?_⟩
  · rw [← hflatten]
    simp [inOrder, Lookup.text, Lookup.quote?]
  · exact not_cutsPlaceholder_of_head fun d hd ↦ Option.some.inj hd ▸ hc
  · exact not_cutsPlaceholder_of_getLast fun d hd ↦ Option.some.inj hd ▸ hc
  · exact fun quote hkey ↦ Lookup.key.inj hkey ▸ hquote

end Lookup

/-- A number is not opened by a quote. -/
theorem isQuote_of_isNumeric {c : Char} (h : isNumeric c = true) : isQuote c = false := by
  rw [isQuote, Bool.or_eq_false_iff, beq_eq_false_iff_ne, beq_eq_false_iff_ne]
  constructor <;> rintro rfl <;> exact absurd h (by decide)

/-- **Taking a lookup off keeps the parts.** The padding is then in a place that fits the lookup. -/
theorem divides_takeLookup {d : Draft} {place : PaddingPlace} {masked : List Char}
    (hplace : place ≠ .beforeQuote) (h : (d.parts .absent).Divides place masked) :
    ∃ place', place'.Fits d.takeLookup.1 ∧
      (d.takeLookup.2.parts d.takeLookup.1).Divides place' masked := by
  rw [Draft.takeLookup]
  split
  · rename_i hlast
    obtain ⟨hpretext, hpadding⟩ := h.bracket '[' hlast (.inl rfl)
    -- With nothing before the bracket, all padding there is comes behind it.
    have hbehind : ∃ place, (place = .beforeFragment ∨ place = .afterFragment) ∧
        (d.parts .absent).Divides place masked := by
      cases place with
      | beforeExpr => exact ⟨_, .inl rfl, h.beforeFragment rfl hpretext (hpadding rfl)⟩
      | beforeFragment => exact ⟨_, .inl rfl, h⟩
      | beforeQuote => exact absurd rfl hplace
      | afterFragment => exact ⟨_, .inr rfl, h⟩
    obtain ⟨place, hplace, h⟩ := hbehind
    have hexpr : (lastExpression d.expr.dropLast).1 ++ (lastExpression d.expr.dropLast).2 ++ ['['] =
        d.expr := by
      rw [lastExpression_append, List.dropLast_append_getLast? _ hlast]
    have hbracket := h.bracket_lookup hplace rfl hpretext hexpr
      (not_cutsPlaceholder_lastExpression _) fst_lastExpression_of_bracket
    rw [if_pos (show d.pretext.isEmpty = true from List.isEmpty_iff.2 hpretext)]
    obtain ⟨pretext, expr, padding, fragment⟩ := d
    rcases fragment with - | - | ⟨c, rest⟩
    · exact ⟨place, hplace, hbracket⟩
    · exact ⟨place, hplace, hbracket⟩
    · dsimp only
      split
      · rename_i hquote
        -- A fragment with the padding behind it is a number, and no quote opens one.
        rcases hplace with rfl | rfl
        · exact ⟨.beforeQuote, rfl, hbracket.key_lookup rfl rfl hquote⟩
        · have hc := isQuote_of_isNumeric (hbracket.numeric rfl c List.mem_cons_self)
          exact absurd hquote (by rw [hc]; simp)
      · exact ⟨place, hplace, hbracket⟩
  · exact ⟨place, hplace, h⟩

/-! ### The opened arguments -/

/-- **Taking opened arguments off keeps the parts**, since everything before them becomes text
before the expression. -/
theorem divides_takeCall {d : Draft} {lookup : Lookup} {place : PaddingPlace} {masked : List Char}
    (h : (d.parts lookup).Divides place masked) :
    (d.takeCall.parts lookup).Divides place masked := by
  rw [Draft.takeCall]
  split
  · rename_i hcall
    rw [Bool.and_eq_true, List.isEmpty_iff, decide_eq_true_eq] at hcall
    obtain ⟨hpretext, hlast⟩ := hcall
    obtain ⟨-, hpadding⟩ := h.bracket '(' hlast (.inr rfl)
    obtain ⟨⟨hflatten, hnumeric, hkeyed⟩, huncut, -, hquoted⟩ := h
    obtain ⟨_, expr, padding, fragment⟩ := d
    obtain rfl : _ = [] := hpretext
    -- The padding is before the expression only if there is none, so the two parts are neighbours.
    have hcut : ∀ right, ¬ CutsPlaceholder expr right := fun right ↦
      not_cutsPlaceholder_of_getLast fun c hc ↦
        Option.some.inj (hc.symm.trans hlast) ▸ by decide
    refine ⟨⟨?_, hnumeric, hkeyed⟩, ?_, by simp [Draft.parts], hquoted⟩
    · rw [← hflatten]
      cases place with
      | beforeExpr => obtain rfl : padding = [] := hpadding rfl; simp [inOrder, Draft.parts]
      | beforeFragment | beforeQuote | afterFragment => simp [inOrder, Draft.parts]
    · have hnil := not_cutsPlaceholder_nil_left
      cases place with
      | beforeExpr =>
        obtain rfl : padding = [] := hpadding rfl
        exact ⟨hcut _, hnil _, hnil _, huncut.2.2.2⟩
      | beforeFragment => exact ⟨hcut _, hnil _, huncut.2.2⟩
      | beforeQuote => exact ⟨hcut _, hnil _, huncut.2.2⟩
      | afterFragment => exact ⟨hcut _, hnil _, huncut.2.2⟩
  · exact h

/-! ### The padding -/

theorem padding_takeIndex (d : Draft) : d.takeIndex.padding = d.padding := by
  rw [Draft.takeIndex]
  split <;> rfl

theorem padding_takeLookup (d : Draft) : d.takeLookup.2.padding = d.padding := by
  rw [Draft.takeLookup]
  split
  · dsimp only
    split
    · split <;> rfl
    · rfl
  · rfl

theorem padding_takeCall (d : Draft) : d.takeCall.padding = d.padding := by
  rw [Draft.takeCall]
  split <;> rfl

/-- Padding is white space from before the open quote. -/
theorem isBlank_of_mem_padding_ofMasked {masked : List Char} {c : Char}
    (h : c ∈ (Draft.ofMasked masked).padding) :
    isBlank c = true ∧ c ∈ (splitAtOpenQuote masked).1 := by
  revert h
  rw [Draft.ofMasked]
  generalize splitAtOpenQuote masked = split
  obtain ⟨text, fragment⟩ := split
  have hsuffix : ∀ s : List Char, trailingBlanks s ⊆ s := fun s d hd ↦ by
    rw [← trimEnd_append_trailingBlanks s]
    exact List.mem_append_right _ hd
  dsimp only
  split
  · rename_i hblank
    intro h
    refine ⟨isBlank_of_mem_trailingBlanks h, ?_⟩
    rw [← trailingBlanks_eq_nil hblank, ← lastExpression_append (trimEnd text)]
    exact List.mem_append_left _ (hsuffix _ h)
  · exact fun h ↦ ⟨isBlank_of_mem_trailingBlanks h, hsuffix _ h⟩

/-! ### Restoring the parts -/

/-- The parts of a masked line with its literals put back. -/
def restoredBy (masked : MaskedLine) (d : Decomposition) : Decomposition :=
  { d with
    pretext := masked.restore d.pretext
    expr := masked.restore d.expr
    fragment := masked.restore d.fragment }

/-- Restoring the parts restores each of them where it was typed. -/
theorem inOrder_restoredBy (masked : MaskedLine) {d : Decomposition}
    (hpadding : placeholderOpen ∉ d.padding)
    (hquote : ∀ quote, d.lookup = .key quote → isQuote quote = true) (place : PaddingPlace) :
    (d.restoredBy masked).inOrder place = (d.inOrder place).map masked.restore := by
  have hlookup : placeholderOpen ∉ d.lookup.text ∧ placeholderOpen ∉ d.lookup.quote?.toList := by
    rcases hd : d.lookup with - | - | quote
    · exact ⟨by simp [Lookup.text], by simp [Lookup.quote?]⟩
    · exact ⟨by rw [Lookup.text]; decide, by simp [Lookup.quote?]⟩
    · have hne : placeholderOpen ≠ quote := by
        rintro rfl
        exact absurd (hquote _ hd) (by decide)
      exact ⟨List.not_mem_cons_of_ne_of_not_mem (by decide) (by simpa using hne),
        by simpa [Lookup.quote?] using hne⟩
  have hbracket : placeholderOpen ∉ ['['] := by decide
  cases place <;>
    simp [inOrder, restoredBy, masked.restore_of_not_mem hpadding,
      masked.restore_of_not_mem hlookup.1, masked.restore_of_not_mem hlookup.2,
      masked.restore_of_not_mem hbracket]

end Decomposition

open Decomposition

/-- The parts of a masked line, before its literals are put back into them. -/
def maskedParts (line : List Char) : Decomposition :=
  let (lookup, draft) := (Draft.ofMasked (mask line).text).takeIndex.takeLookup
  draft.takeCall.parts lookup

/-- A line is taken apart by taking its masked form apart and restoring the parts. -/
theorem decompose_eq_restoredBy (line : List Char) :
    decompose line = (maskedParts line).restoredBy (mask line) := by
  rw [decompose, maskedParts]
  rfl

/-- A masked line is its parts, with the padding in a place that fits the lookup. -/
theorem exists_divides_maskedParts (line : List Char) :
    ∃ place, place.Fits (maskedParts line).lookup ∧
      (maskedParts line).Divides place (mask line).text := by
  obtain ⟨place, hplace, hindex⟩ := divides_takeIndex (divides_ofMasked (mask line).text)
  obtain ⟨place, hfits, hlookup⟩ := divides_takeLookup hplace hindex
  exact ⟨place, hfits, divides_takeCall hlookup⟩

/-- Padding is white space from before the open quote: no step after the first draft touches it. -/
theorem isBlank_of_mem_padding {line : List Char} {c : Char} (h : c ∈ (decompose line).padding) :
    isBlank c = true ∧ c ∈ (splitAtOpenQuote (mask line).text).1 := by
  refine isBlank_of_mem_padding_ofMasked ?_
  rwa [← padding_takeIndex, ← padding_takeLookup, ← padding_takeCall]

/-- The parts of a line are in it where those of the masked line are in that. -/
theorem Decomposition.Divides.arranges {line : List Char} {place : PaddingPlace}
    (h : (maskedParts line).Divides place (mask line).text) (free : PlaceholderFree line) :
    (decompose line).Arranges place line := by
  have hpadding : placeholderOpen ∉ (maskedParts line).padding := fun hmem ↦
    absurd (isBlank_of_mem_padding hmem).1 (by decide)
  rw [decompose_eq_restoredBy]
  refine ⟨?_, fun hafter ↦ ?_, h.keyed⟩
  · rw [inOrder_restoredBy _ hpadding h.quoted]
    exact flatten_map_restore free h.uncut h.flatten_eq
  · have hmem : placeholderOpen ∉ (maskedParts line).fragment := fun hmem ↦
      absurd (h.numeric hafter _ hmem) (by decide)
    show ∀ c ∈ (mask line).restore (maskedParts line).fragment, _
    rw [(mask line).restore_of_not_mem hmem]
    exact h.numeric hafter

/-- **A line is its parts.** In the order in which they were typed they make it up. -/
theorem exists_arranges_decompose {line : List Char} (free : PlaceholderFree line) :
    ∃ place, (decompose line).Arranges place line := by
  obtain ⟨place, -, h⟩ := exists_divides_maskedParts line
  exact ⟨place, h.arranges free⟩

/-- A key that is being typed is opened by a quote. -/
theorem isQuote_of_lookup {line : List Char} {quote : Char}
    (h : (decompose line).lookup = .key quote) : isQuote quote = true := by
  obtain ⟨place, -, hdivides⟩ := exists_divides_maskedParts line
  exact hdivides.quoted quote h

/-- **Taking a line apart loses nothing.** Every character of the line is in one of the parts, once
and unchanged, and the parts follow each other as they did in the line, but for the padding. The
padding is white space; where none was typed before the open quote, there is no padding, and the
parts in their order are the line. -/
theorem eq_append_decompose {line : List Char} (free : PlaceholderFree line) :
    let d := decompose line
    (line = d.pretext ++ d.expr ++ d.lookup.text ++ d.padding ++ d.fragment ∨
      line = d.pretext ++ d.padding ++ d.expr ++ d.lookup.text ++ d.fragment ∨
      (∃ quote, d.lookup = .key quote ∧
        line = d.pretext ++ d.expr ++ ['['] ++ d.padding ++ [quote] ++ d.fragment) ∨
      ((∀ c ∈ d.fragment, isNumeric c = true) ∧
        line = d.pretext ++ d.expr ++ d.lookup.text ++ d.fragment ++ d.padding)) ∧
    (∀ c ∈ d.padding, isBlank c = true) ∧
    ((∀ c ∈ (splitAtOpenQuote (mask line).text).1, isBlank c = false) →
      line = d.pretext ++ d.expr ++ d.lookup.text ++ d.padding ++ d.fragment) := by
  intro d
  obtain ⟨place, hflatten, hnumeric, hkeyed⟩ := exists_arranges_decompose free
  have hline : line = (d.inOrder place).flatten := hflatten.symm
  refine ⟨?_, fun c hc ↦ (isBlank_of_mem_padding hc).1, fun hblank ↦ ?_⟩
  · cases place with
    | beforeExpr => exact .inr (.inl (by simpa [inOrder] using hline))
    | beforeFragment => exact .inl (by simpa [inOrder] using hline)
    | beforeQuote =>
      obtain ⟨quote, hkey⟩ := hkeyed rfl
      have hkey : d.lookup = .key quote := hkey
      exact .inr (.inr (.inl ⟨quote, hkey, by simpa [inOrder, hkey, Lookup.quote?] using hline⟩))
    | afterFragment => exact .inr (.inr (.inr ⟨hnumeric rfl, by simpa [inOrder] using hline⟩))
  · have hpadding : d.padding = [] := by
      refine List.eq_nil_iff_forall_not_mem.2 fun c hc ↦ ?_
      obtain ⟨htrue, hmem⟩ := isBlank_of_mem_padding hc
      exact absurd htrue (by rw [hblank c hmem]; simp)
    cases place with
    | beforeExpr | beforeFragment | afterFragment => simpa [inOrder, hpadding] using hline
    | beforeQuote =>
      obtain ⟨quote, hkey⟩ := hkeyed rfl
      have hkey : d.lookup = .key quote := hkey
      simpa [inOrder, hpadding, hkey, Lookup.quote?, Lookup.text] using hline

/-- A key typed with a space before its quote: the space stands behind the quote in the parts. -/
theorem eq_append_decompose_of_spaced_key :
    PlaceholderFree "f('a ') + d[ 'pe".toList ∧
      decompose "f('a ') + d[ 'pe".toList =
        ⟨"f('a ') + ".toList, "d".toList, .key '\'', " ".toList, "pe".toList⟩ ∧
      ∀ c ∈ (decompose "f('a ') + d[ 'pe".toList).padding, isBlank c = true := by
  have free : PlaceholderFree "f('a ') + d[ 'pe".toList := placeholderFree_of_not_mem (by decide)
  exact ⟨free, by decide +kernel, (eq_append_decompose free).2.1⟩

end LineCompletion
