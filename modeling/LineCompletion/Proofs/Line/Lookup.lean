import LineCompletion.Proofs.Line.Masking
import LineCompletion.Proofs.Line.Reconstruction
import LineCompletion.Proofs.Expression.Reading
import LineCompletion.Proofs.Text.Words

/-!
# Lines that end in a lookup

What taking a line apart does with one that ends in an expression, an opening bracket and the
beginning of a key or an index, step by step and on the masked line. Together the steps say that
such a line is taken apart into just these, whatever brackets and literals the expression holds
(`OpensLookup.decompose_eq`, with the lines of other shapes).

The walk back from the bracket takes the expression whole, because what it counts on the way back is
what is open at that place from the front (`splitBackwards_reverse_append`); and it stops there,
since a delimiter comes before. That the walk is over a masked text changes nothing: the expression
is masked in the line as it is alone, but for the numbers of its literals, and these are read over
like names.

**Enclosed texts.** `isEnclosed` reads a text from the front and counts the brackets that are open.
It is the condition on the expression, and it is computed, so that a line with a given expression
can be tried out. The walk goes from the back and counts the brackets that it has to find an opening
for. Reading a text from the front with some brackets open before it is the same as walking back to
its beginning and arriving inside as many, and the induction is on that (`isEnclosed` with a depth,
`splitBackwards` with a nesting). Kinds of brackets are not told apart by either.

**What may stand behind the bracket.** `Keyed` has the three cases: nothing yet, a number, or a
quote with the beginning of a key. It also says which lookup is made of it and what the fragment is,
so each step has one lemma for all three (`takeIndex_ofMasked`, `takeLookup_of_keyed`).

**Masking such a line.** Up to the bracket no quote is left over, so the line is masked part by part
(`mask_append_bracket`). The open quote of a key comes once only, and so masking leaves it alone
(`Keyed.pairwise`).
-/

namespace LineCompletion

open Text

/-! ### Brackets -/

/-- Whether the brackets of a text are balanced, with some open before it, and every delimiter in it
stands between brackets. Kinds of brackets are not told apart. -/
def isEnclosed : (depth : Nat) → List Char → Bool
  | depth, [] => depth == 0
  | depth, c :: rest =>
    if isOpener c then isEnclosed (depth + 1) rest
    else if isCloser c then 0 < depth && isEnclosed (depth - 1) rest
    else (0 < depth || !isDelimiter c) && isEnclosed depth rest

/-- Opening brackets are delimiters. -/
theorem isDelimiter_of_isOpener {c : Char} (h : isOpener c = true) : isDelimiter c = true := by
  simp only [isOpener, Bool.or_eq_true, beq_iff_eq] at h
  rcases h with (rfl | rfl) | rfl <;> decide

/-- Closing brackets are delimiters. -/
theorem isDelimiter_of_isCloser {c : Char} (h : isCloser c = true) : isDelimiter c = true := by
  simp only [isCloser, Bool.or_eq_true, beq_iff_eq] at h
  rcases h with (rfl | rfl) | rfl <;> decide

/-- No bracket opens and closes. -/
theorem isOpener_of_isCloser {c : Char} (h : isCloser c = true) : isOpener c = false := by
  simp only [isCloser, Bool.or_eq_true, beq_iff_eq] at h
  rcases h with (rfl | rfl) | rfl <;> decide

theorem isEnclosed_opener {c : Char} (h : isOpener c = true) (depth : Nat) (rest : List Char) :
    isEnclosed depth (c :: rest) = isEnclosed (depth + 1) rest := by
  rw [isEnclosed, if_pos h]

theorem isEnclosed_plain {c : Char} (h : isDelimiter c = false) (depth : Nat) (rest : List Char) :
    isEnclosed depth (c :: rest) = isEnclosed depth rest := by
  have hopener : ¬ isOpener c = true := fun hc ↦ by
    rw [isDelimiter_of_isOpener hc] at h
    exact absurd h (by simp)
  have hcloser : ¬ isCloser c = true := fun hc ↦ by
    rw [isDelimiter_of_isCloser hc] at h
    exact absurd h (by simp)
  rw [isEnclosed, if_neg hopener, if_neg hcloser, h, Bool.not_false, Bool.or_true, Bool.true_and]

/-- What holds no delimiter is read over. -/
theorem isEnclosed_append {s : List Char} (h : ∀ c ∈ s, isDelimiter c = false) (depth : Nat)
    (rest : List Char) : isEnclosed depth (s ++ rest) = isEnclosed depth rest := by
  induction s with
  | nil => rfl
  | cons c s ih =>
    rw [List.cons_append, isEnclosed_plain (h c List.mem_cons_self),
      ih fun d hd ↦ h d (List.mem_cons_of_mem _ hd)]

/-- A bracket that is opened at the very end is not closed. -/
theorem isEnclosed_concat_opener {c : Char} (h : isOpener c = true) (depth : Nat) (s : List Char) :
    isEnclosed depth (s ++ [c]) = false := by
  induction s generalizing depth with
  | nil => rw [List.nil_append, isEnclosed_opener h]; rfl
  | cons d s ih =>
    rw [List.cons_append, isEnclosed]
    split
    · exact ih _
    · split <;> rw [ih, Bool.and_false]

/-! ### The walk back -/

section Step

variable {c : Char} (rest : List Char)

/-- A closing bracket is taken, with everything up to where it was opened. -/
theorem splitBackwards_closer (h : isCloser c = true) (nesting : Nat) :
    splitBackwards nesting (c :: rest) =
      (c :: (splitBackwards (nesting + 1) rest).1, (splitBackwards (nesting + 1) rest).2) := by
  rw [splitBackwards.eq_def]
  simp only [h, if_true]

/-- An opening bracket is taken if one that closes has been. -/
theorem splitBackwards_opener (h : isOpener c = true) (outer : Nat) :
    splitBackwards (outer + 1) (c :: rest) =
      (c :: (splitBackwards outer rest).1, (splitBackwards outer rest).2) := by
  have hcloser : isCloser c = false := Bool.eq_false_iff.2 fun hc ↦ by
    rw [isOpener_of_isCloser hc] at h
    exact absurd h (by simp)
  rw [splitBackwards.eq_def]
  simp only [hcloser, h, if_true, Bool.false_eq_true, if_false]

/-- What is no bracket is taken inside brackets, and outside them if it is no delimiter. -/
theorem splitBackwards_plain (hopener : ¬ isOpener c = true) (hcloser : ¬ isCloser c = true)
    {nesting : Nat} (hplace : 0 < nesting ∨ isDelimiter c = false) :
    splitBackwards nesting (c :: rest) =
      (c :: (splitBackwards nesting rest).1, (splitBackwards nesting rest).2) := by
  rw [splitBackwards.eq_def]
  cases nesting with
  | zero =>
    have hdelimiter := hplace.resolve_left (Nat.lt_irrefl 0)
    simp only [hcloser, hdelimiter, Bool.false_eq_true, if_false]
  | succ outer => simp only [hcloser, hopener, Bool.false_eq_true, if_false]

end Step

/-- **The walk back takes whole what is enclosed.** Behind a text that brackets enclose the walk is
outside brackets, and at its beginning it is inside those that were open there. -/
theorem splitBackwards_reverse_append {depth : Nat} {s : List Char}
    (h : isEnclosed depth s = true) (before : List Char) :
    splitBackwards 0 (s.reverse ++ before) =
      (s.reverse ++ (splitBackwards depth before).1, (splitBackwards depth before).2) := by
  induction s generalizing depth before with
  | nil =>
    obtain rfl : depth = 0 := by simpa [isEnclosed] using h
    rfl
  | cons c s ih =>
    rw [List.reverse_cons, List.append_assoc, List.singleton_append, List.append_assoc,
      List.singleton_append]
    rw [isEnclosed] at h
    split at h
    · -- On the way back the bracket that opens is the end of what it encloses.
      rename_i hopener
      rw [ih h, splitBackwards_opener _ hopener]
    · rename_i hopener
      split at h
      · rename_i hcloser
        rw [Bool.and_eq_true, decide_eq_true_eq] at h
        obtain ⟨hopen, hrest⟩ := h
        rw [ih hrest, splitBackwards_closer _ hcloser, Nat.sub_add_cancel hopen]
      · rename_i hcloser
        rw [Bool.and_eq_true, Bool.or_eq_true, decide_eq_true_eq, Bool.not_eq_true'] at h
        rw [ih h.2, splitBackwards_plain _ hopener hcloser h.1]

/-- Behind a delimiter that closes no bracket, an expression is found as it was typed. -/
theorem lastExpression_append_enclosed {before expr : List Char}
    (hbefore : ∀ c ∈ before.getLast?, isDelimiter c = true ∧ isCloser c = false)
    (hne : expr ≠ []) (h : isEnclosed 0 expr = true) :
    lastExpression (before ++ expr) = (before, expr) := by
  have hstop : splitBackwards 0 before.reverse = ([], before.reverse) := by
    rw [← List.head?_reverse] at hbefore
    rcases hrev : before.reverse with - | ⟨c, rest⟩
    · rfl
    · obtain ⟨hdelimiter, hcloser⟩ := hbefore c (by rw [hrev]; rfl)
      rw [splitBackwards, hcloser, if_neg (by simp)]
      simp only [hdelimiter, if_true]
  rw [lastExpression, List.reverse_append, splitBackwards_reverse_append h, hstop, List.append_nil]
  split
  · rename_i hnil
    exact absurd (List.reverse_eq_nil_iff.1 (Prod.mk.inj hnil).1) hne
  · rename_i hsplit
    obtain ⟨rfl, rfl⟩ := Prod.mk.inj hsplit
    rw [List.reverse_reverse, List.reverse_reverse]

/-! ### Brackets in masked texts -/

theorem isEnclosed_cons_congr {s t : List Char}
    (h : ∀ depth, isEnclosed depth s = isEnclosed depth t) (depth : Nat) (c : Char) :
    isEnclosed depth (c :: s) = isEnclosed depth (c :: t) := by
  rw [isEnclosed, isEnclosed]
  simp only [h]

/-- What stands in a placeholder is read over. -/
theorem isEnclosed_placeholder_append (depth index : Nat) (s : List Char) :
    isEnclosed depth (placeholder index ++ s) = isEnclosed depth s := by
  refine isEnclosed_append (fun c hc ↦ Bool.eq_false_iff.2 fun hdelimiter ↦ ?_) depth s
  have hplace := isPlaceholderChar_of_mem hc
  rw [isPlaceholderChar_of_isDelimiter hdelimiter] at hplace
  exact absurd hplace (by simp)

/-- The numbers of the literals do not matter to how a masked text is bracketed. -/
theorem isEnclosed_maskFrom (depth : Nat) (escaped : Bool) (index other : Nat) (s : List Char) :
    isEnclosed depth (maskFrom escaped index s).text =
      isEnclosed depth (maskFrom escaped other s).text := by
  fun_induction maskFrom escaped index s generalizing depth other with
  | case1 => rw [maskFrom_nil]
  | case2 escaped index c rest literal after hleading masked ih =>
    obtain ⟨rfl, hliteral⟩ := eq_false_and_of_masked hleading
    rw [maskFrom_literal hliteral, MaskedLine.text_append, isEnclosed_placeholder_append,
      isEnclosed_placeholder_append]
    exact ih depth (other + 1)
  | case3 escaped index c rest hleading masked ih =>
    have hchar : escaped = true ∨ leadingLiteral? (c :: rest) = none := by
      cases escaped with
      | true => exact .inl rfl
      | false => exact .inr hleading
    rw [maskFrom_char hchar]
    exact isEnclosed_cons_congr (fun depth ↦ ih depth other) depth c

/-! ### The first quote left over -/

namespace Decomposition

/-- Nothing is split off a text without quotes. -/
theorem splitAtOpenQuote_of_quoteless {s : List Char} (h : Quoteless s) :
    splitAtOpenQuote s = (s, none) := by
  have hnone : ∀ q, isQuote q = true → splitAtFirst? q s = none := by
    intro q hq
    rw [splitAtFirst?, if_neg]
    intro hmem
    rw [h q (List.contains_iff_mem.1 hmem)] at hq
    exact absurd hq (by simp)
  rw [splitAtOpenQuote, hnone _ (by decide), hnone _ (by decide)]
  rfl

theorem splitAtFirst?_append {c : Char} {s : List Char} (h : c ∉ s) (rest : List Char) :
    splitAtFirst? c (s ++ c :: rest) = some (s, c :: rest) := by
  rw [splitAtFirst?, if_pos (by simp), List.span_eq_takeWhile_dropWhile]
  have hs : ∀ d ∈ s, (d != c) = true := fun d hd ↦ bne_iff_ne.2 fun heq ↦ h (heq ▸ hd)
  rw [List.takeWhile_append_of_pos hs, List.dropWhile_append_of_pos hs]
  simp

/-- What is split off begins at the first single quote, if there is one. -/
theorem splitAtOpenQuote_of_single {before rest : List Char} (h : '\'' ∉ before) :
    splitAtOpenQuote (before ++ '\'' :: rest) = (before, some ('\'' :: rest)) := by
  rw [splitAtOpenQuote, splitAtFirst?_append h]
  rfl

/-- Without single quotes behind it, the first double quote begins what is split off. -/
theorem splitAtOpenQuote_of_double {before rest : List Char} (h : Quoteless before)
    (hrest : '\'' ∉ rest) :
    splitAtOpenQuote (before ++ '"' :: rest) = (before, some ('"' :: rest)) := by
  have hdouble : '"' ∉ before := fun hmem ↦ absurd (h _ hmem) (by decide)
  have hsingle : '\'' ∉ before ++ '"' :: rest := by
    rw [List.mem_append, List.mem_cons, not_or, not_or]
    exact ⟨fun hmem ↦ absurd (h _ hmem) (by decide), by decide, hrest⟩
  have hnone : splitAtFirst? '\'' (before ++ '"' :: rest) = none := by
    rw [splitAtFirst?, if_neg (by rwa [List.contains_iff_mem])]
  rw [splitAtOpenQuote, hnone, splitAtFirst?_append hdouble]
  rfl

/-- A quote that is the first one and the last begins what is split off. -/
theorem splitAtOpenQuote_append {s k : List Char} {q : Char} (hs : Quoteless s)
    (hq : isQuote q = true) (hk : Quoteless k) :
    splitAtOpenQuote (s ++ q :: k) = (s, some (q :: k)) := by
  have hsingle {t : List Char} (ht : Quoteless t) : '\'' ∉ t := fun hmem ↦
    absurd (ht _ hmem) (by decide)
  rcases isQuote_iff.1 hq with rfl | rfl
  · exact splitAtOpenQuote_of_single (hsingle hs)
  · exact splitAtOpenQuote_of_double hs (hsingle hk)

/-! ### The drafts -/

/-- What holds of none of the delimiters holds of no delimiter. -/
theorem of_isDelimiter {p : Char → Bool}
    (hall : (" \t\n`~!@#$%^&*-=+\\|;:,<>[]()\x7b\x7d/?".toList.all (!p ·)) = true) {c : Char}
    (h : isDelimiter c = true) : p c = false := by
  simpa using List.all_eq_true.1 hall c (List.contains_iff_mem.1 h)

/-- No quote is a delimiter. -/
theorem isQuote_of_isDelimiter {c : Char} (h : isDelimiter c = true) : isQuote c = false :=
  of_isDelimiter (by decide) h

/-- The white space that may be typed behind a bracket. -/
theorem typed_blank {c : Char} (h : c ∈ [' ', '\t', '\n']) :
    isBlank c = true ∧ isQuote c = false ∧ isDelimiter c = true ∧ isCloser c = false := by
  simp only [List.mem_cons, List.not_mem_nil, or_false] at h
  rcases h with rfl | rfl | rfl <;> decide

/-- The bracket that opens a lookup, with white space behind it. -/
theorem isDelimiter_of_mem_bracket {w : List Char} (hw : ∀ c ∈ w, c ∈ [' ', '\t', '\n']) :
    ∀ c ∈ '[' :: w, isDelimiter c = true ∧ isCloser c = false :=
  List.forall_mem_cons.2 ⟨by decide, fun c hc ↦ (typed_blank (hw c hc)).2.2⟩

/-- A text that ends in an opening bracket is its own last expression. -/
theorem lastExpression_bracket (text : List Char) :
    lastExpression (text ++ ['[']) = ([], text ++ ['[']) :=
  lastExpression_of_delimiter List.getLast?_concat (by decide) (by decide)

/-- The first draft of a line that ends in a bracket takes the white space behind it for padding. -/
theorem ofMasked_bracket {masked text w : List Char} {fragment : Option (List Char)}
    (hsplit : splitAtOpenQuote masked = (text ++ ['['] ++ w, fragment)) (hw : Blank w) :
    Draft.ofMasked masked = ⟨[], text ++ ['['], w, fragment⟩ := by
  have hlast : ∀ c ∈ (text ++ ['[']).getLast?, isBlank c = false := by
    rw [List.getLast?_concat]
    exact fun c hc ↦ Option.some.inj hc ▸ by decide
  rw [Draft.ofMasked, hsplit]
  dsimp only
  rw [trimEnd_append_blank hlast hw, trailingBlanks_append_blank hlast hw, lastExpression_bracket]
  cases w with
  | nil => rfl
  | cons c w => rfl

theorem isBlank_of_isNumeric {c : Char} (h : isNumeric c = true) : isBlank c = false :=
  Bool.eq_false_iff.2 fun hblank ↦ by
    have hname := isNameChar_of_isBlank hblank
    rw [isNameChar, isAlphanumeric, h, Bool.or_true, Bool.or_true] at hname
    exact absurd hname (by simp)

theorem isDelimiter_of_isNumeric {c : Char} (h : isNumeric c = true) : isDelimiter c = false :=
  Bool.eq_false_iff.2 fun hdelimiter ↦ by
    rw [of_isDelimiter (p := isNumeric) (by decide) hdelimiter] at h
    exact absurd h (by simp)

/-- An expression at the end of the line is the last one, and white space before it is padding. -/
theorem ofMasked_expression {masked text expr : List Char}
    (hsplit : splitAtOpenQuote masked = (text ++ expr, none))
    (htext : ∀ c ∈ text.getLast?, isDelimiter c = true ∧ isCloser c = false)
    (hne : expr ≠ []) (henclosed : isEnclosed 0 expr = true)
    (hend : ∀ c ∈ expr.getLast?, isBlank c = false) :
    Draft.ofMasked masked = ⟨trimEnd text, expr, trailingBlanks text, none⟩ := by
  have hlast : ∀ c ∈ (text ++ expr).getLast?, isBlank c = false := fun c hc ↦
    hend c (by rwa [List.getLast?_append_of_ne_nil _ hne] at hc)
  have hblanks : trailingBlanks (text ++ expr) = [] := by
    simpa using trailingBlanks_append_blank hlast blank_nil
  have htrim : trimEnd (text ++ expr) = text ++ expr := by
    simpa using trimEnd_append_blank hlast blank_nil
  rw [Draft.ofMasked, hsplit]
  dsimp only
  rw [hblanks, htrim, lastExpression_append_enclosed htext hne henclosed, if_pos List.isEmpty_nil]

/-- A number behind the bracket is the last expression, and white space before it is padding. -/
theorem ofMasked_index {masked text w f : List Char}
    (hsplit : splitAtOpenQuote masked = (text ++ ['['] ++ w ++ f, none))
    (hw : ∀ c ∈ w, c ∈ [' ', '\t', '\n']) (hblank : Blank w) (hne : f ≠ [])
    (hf : ∀ c ∈ f, isNumeric c = true) :
    Draft.ofMasked masked = ⟨text ++ ['['], f, w, none⟩ := by
  have hbracket : ∀ c ∈ (text ++ ['[']).getLast?, isBlank c = false := by
    rw [List.getLast?_concat]
    exact fun c hc ↦ Option.some.inj hc ▸ by decide
  have hdelimiter : ∀ c ∈ (text ++ ['['] ++ w).getLast?,
      isDelimiter c = true ∧ isCloser c = false := fun c hc ↦ by
    rw [List.append_assoc, List.getLast?_append_of_ne_nil _ (by simp)] at hc
    exact isDelimiter_of_mem_bracket hw c (List.mem_of_getLast? hc)
  have henclosed : isEnclosed 0 f = true := by
    rw [← List.append_nil f, isEnclosed_append (fun c hc ↦ isDelimiter_of_isNumeric (hf c hc))]
    rfl
  have hend : ∀ c ∈ f.getLast?, isBlank c = false := fun c hc ↦
    isBlank_of_isNumeric (hf c (List.mem_of_getLast? hc))
  rw [ofMasked_expression hsplit hdelimiter hne henclosed hend,
    trimEnd_append_blank hbracket hblank, trailingBlanks_append_blank hbracket hblank]

end Decomposition

open Decomposition

/-- What may be typed behind the bracket of a lookup: which lookup it makes, and what of it is the
fragment. -/
inductive Keyed : List Char → Lookup → List Char → Prop
  /-- Nothing yet. -/
  | nothing : Keyed [] .bracket []
  /-- The beginning of an index. -/
  | index {f : List Char} (hne : f ≠ []) (hf : ∀ c ∈ f, isNumeric c = true) : Keyed f .bracket f
  /-- The beginning of a key, behind its quote. -/
  | key {q : Char} {k : List Char} (hq : isQuote q = true) (hk : Quoteless k) :
      Keyed (q :: k) (.key q) k

namespace Decomposition

section Keyed

variable {f fragment : List Char} {lookup : Lookup}

/-- The draft of a line that ends in a lookup: everything up to the bracket, and what was typed
behind it. -/
theorem takeIndex_ofMasked (hf : Keyed f lookup fragment) {text w : List Char}
    (htext : Quoteless text) (hw : ∀ c ∈ w, c ∈ [' ', '\t', '\n']) :
    (Draft.ofMasked (text ++ ['['] ++ w ++ f)).takeIndex =
      ⟨[], text ++ ['['], w, if f.isEmpty then none else some f⟩ := by
  have hblank : Blank w := fun c hc ↦ (typed_blank (hw c hc)).1
  have hquoteless : Quoteless (text ++ ['['] ++ w) :=
    quoteless_append.2 ⟨quoteless_append.2 ⟨htext, List.forall_mem_singleton.2 (by decide)⟩,
      fun c hc ↦ (typed_blank (hw c hc)).2.1⟩
  -- A bracket is no number, so nothing is taken off where the draft ends in it.
  have hbracket (fragment : Option (List Char)) :
      (⟨[], text ++ ['['], w, fragment⟩ : Draft).takeIndex =
        ⟨[], text ++ ['['], w, fragment⟩ := by
    rw [Draft.takeIndex, if_neg]
    simp [isNumber, show isNumeric '[' = false by decide]
  cases hf with
  | nothing =>
    have hsplit := splitAtOpenQuote_of_quoteless hquoteless
    rw [List.append_nil, ofMasked_bracket hsplit hblank, hbracket]
    rfl
  | index hne hf =>
    have hsplit : splitAtOpenQuote (text ++ ['['] ++ w ++ f) = (text ++ ['['] ++ w ++ f, none) :=
      splitAtOpenQuote_of_quoteless
        (quoteless_append.2 ⟨hquoteless, fun c hc ↦ isQuote_of_isNumeric (hf c hc)⟩)
    rw [ofMasked_index hsplit hw hblank hne hf, Draft.takeIndex, if_pos, if_neg]
    · rw [lastExpression_bracket]
    · simpa using hne
    · have hall : f.all isNumeric = true := List.all_eq_true.2 hf
      simpa [isNumber, hall] using hne
  | key hq hk =>
    rw [ofMasked_bracket (splitAtOpenQuote_append hquoteless hq hk) hblank, hbracket]
    rfl

/-- The lookup taken off the draft: before the bracket stands the expression. -/
theorem takeLookup_of_keyed (hf : Keyed f lookup fragment) {before expr w : List Char}
    (hbefore : ∀ c ∈ before.getLast?, isDelimiter c = true ∧ isCloser c = false)
    (hne : expr ≠ []) (h : isEnclosed 0 expr = true) :
    (⟨[], before ++ expr ++ ['['], w, if f.isEmpty then none else some f⟩ : Draft).takeLookup =
      (lookup, ⟨before, expr, w, if f.isEmpty then none else some fragment⟩) := by
  rw [Draft.takeLookup, if_pos List.getLast?_concat]
  dsimp only
  rw [List.dropLast_concat, lastExpression_append_enclosed hbefore hne h,
    if_pos List.isEmpty_nil]
  cases hf with
  | nothing => rfl
  | index hne hf =>
    obtain ⟨c, f, rfl⟩ := List.exists_cons_of_ne_nil hne
    have hquote : ¬ isQuote c = true := by
      rw [isQuote_of_isNumeric (hf c List.mem_cons_self)]
      simp
    simp only [List.isEmpty_cons, Bool.false_eq_true, if_false, hquote]
  | key hq hk => simp only [List.isEmpty_cons, Bool.false_eq_true, if_false, hq, if_true]

/-- What is enclosed opens no arguments at its end. -/
theorem takeCall_of_enclosed {before expr padding : List Char} {fragment : Option (List Char)}
    (h : isEnclosed 0 expr = true) :
    (⟨before, expr, padding, fragment⟩ : Draft).takeCall = ⟨before, expr, padding, fragment⟩ := by
  rw [Draft.takeCall, if_neg]
  intro hcall
  rw [Bool.and_eq_true, decide_eq_true_eq] at hcall
  have hlast := List.dropLast_append_getLast? _ hcall.2
  rw [show expr = expr.dropLast ++ ['('] from hlast.symm,
    isEnclosed_concat_opener (by decide)] at h
  exact absurd h (by simp)

/-- The fragment of the draft is what was typed of the key or the index. -/
theorem getD_of_keyed (hf : Keyed f lookup fragment) :
    ((if f.isEmpty then none else some fragment) : Option (List Char)).getD [] = fragment := by
  cases hf with
  | nothing => rfl
  | index hne => rw [if_neg (by simpa using hne)]; rfl
  | key => rfl

end Keyed

end Decomposition

/-! ### Whole lines -/

section Line

variable {p e w f fragment : List Char} {lookup : Lookup}

/-- Behind the bracket no quote comes twice. -/
theorem Keyed.pairwise (hf : Keyed f lookup fragment) (hw : ∀ c ∈ w, c ∈ [' ', '\t', '\n']) :
    (['['] ++ w ++ f).Pairwise fun a b ↦ isQuote a = true → a ≠ b := by
  have hquoteless {s : List Char} (hs : Quoteless s) :
      s.Pairwise fun a b ↦ isQuote a = true → a ≠ b := by
    refine List.pairwise_of_forall_mem_list fun a ha b _ hquote ↦ ?_
    rw [hs a ha] at hquote
    exact absurd hquote (by simp)
  have hbracket : Quoteless (['['] ++ w) :=
    quoteless_append.2 ⟨List.forall_mem_singleton.2 (by decide),
      fun c hc ↦ (typed_blank (hw c hc)).2.1⟩
  refine List.pairwise_append.2 ⟨hquoteless hbracket, ?_, fun a ha b _ hquote ↦ ?_⟩
  · cases hf with
    | nothing => exact .nil
    | index _ hf => exact hquoteless fun c hc ↦ isQuote_of_isNumeric (hf c hc)
    | key hq hk =>
      refine .cons (fun b hb hquote heq ↦ ?_) (hquoteless hk)
      rw [heq, hk b hb] at hquote
      exact absurd hquote (by simp)
  · rw [hbracket a ha] at hquote
    exact absurd hquote (by simp)

/-- The fragment is at the end of what was typed. -/
theorem Keyed.suffix (hf : Keyed f lookup fragment) : fragment <:+ f := by
  cases hf with
  | nothing => exact List.suffix_rfl
  | index => exact List.suffix_rfl
  | key => exact List.suffix_cons _ _

/-- How a line that ends in a lookup is masked: its parts one by one. -/
theorem mask_append_bracket (hpretext : Quoteless (mask p).text)
    (hquoteless : Quoteless (mask (p ++ e)).text) (hw : ∀ c ∈ w, c ∈ [' ', '\t', '\n'])
    (hf : Keyed f lookup fragment) :
    mask (p ++ e) = mask p ++ maskFrom false (mask p).literals.length e ∧
      mask (p ++ e ++ ['['] ++ w ++ f) = mask (p ++ e) ++ ⟨['['] ++ w ++ f, []⟩ := by
  constructor
  · obtain ⟨escaped, happend⟩ := exists_maskFrom_append hpretext e
    have happend : mask (p ++ e) = mask p ++ maskFrom escaped (mask p).literals.length e := by
      rwa [Nat.zero_add] at happend
    rw [happend, MaskedLine.text_append, quoteless_append] at hquoteless
    rw [happend, maskFrom_escaped hquoteless.2]
  · obtain ⟨escaped, happend⟩ := exists_maskFrom_append hquoteless (['['] ++ w ++ f)
    rw [maskFrom_eq_self (hf.pairwise hw)] at happend
    rw [List.append_assoc (p ++ e), List.append_assoc (p ++ e)]
    exact happend

/-- What comes before an expression ends masked in the delimiter that it ends in. -/
theorem getLast_mask (hp : ∀ c ∈ p.getLast?, isDelimiter c = true ∧ isCloser c = false) :
    ∀ c ∈ (mask p).text.getLast?, isDelimiter c = true ∧ isCloser c = false := by
  intro c hc
  rcases hlast : p.getLast? with - | d
  · obtain rfl := List.getLast?_eq_none_iff.1 hlast
    rw [mask, maskFrom_nil] at hc
    exact absurd hc (by simp)
  · have hd := hp d hlast
    have hmasked := getLast?_maskFrom (isQuote_of_isDelimiter hd.1) hlast false 0
    obtain rfl := Option.some.inj (hmasked.symm.trans hc)
    exact hd

/-- A part is restored to what it stands for, if that has no placeholders of its own. -/
theorem MaskedLine.restore_of_standsFor {masked : MaskedLine} {s plain : List Char}
    (free : PlaceholderFree plain) (h : StandsFor (fun i ↦ masked.literals[i]?) s plain) :
    masked.restore s = plain :=
  StandsFor.restoreFrom_eq free (by simpa using h)

end Line

end LineCompletion
