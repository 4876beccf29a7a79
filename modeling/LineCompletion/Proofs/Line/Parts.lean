import LineCompletion.Proofs.Line.Lookup

/-!
# Lines of a known shape

What a line is taken apart into when its shape is known: a bare name at its end
(`decompose_append_name`), or an expression with the bracket of a lookup behind it
(`OpensLookup.decompose_eq`). Both are found on the masked line. What is left is to put the literals
back part by part, and each part is then what its masked form stands for (`decompose_eq_of_draft`),
wherever in the line it is.

White space in front of a name goes its own way, as padding, so only together with the pretext is it
what was typed there.

The bracket of a lookup, on the other hand, has its place in any line (`exists_openedAt`). What
comes before it is the pretext and the expression, as far as masking can tell.

**Parts and what they stand for.** The masked parts of a line hold placeholders with the numbers
that the literals have in the whole line. `StandsForPart` says which text of the line such a part
stands for. There is one lemma for each way in which a part is found: at the beginning of the line
(`StandsForPart.of_mask_append`), behind that (`StandsForPart.of_maskFrom_append`), and where no
literal is (`StandsForPart.self`). So no index of a literal is reckoned with anywhere else.

**From the shape to the parts, and back.** `OpensLookup` gathers what has to be asked of a line for
it to end in a lookup: its literals are closed up to the bracket, a delimiter that closes no bracket
comes before the expression, and the expression is enclosed. `decompose_append_bracket` says the
same with these as separate conditions. Other lines may be taken apart as lookups as well, when
brackets are left open or closed too often. About all of them `OpenedAt` says what can be said: the
parts are in the line side by side, with the padding on one side of the number or before the quote
(`OpenedAt.right_eq`).

**Names.** A name at the end of a line has to have something in it that is no number, or it would
be taken for an index. What comes before it must leave no quote open. Then it is the expression and
there is no lookup, and this is all that completing names needs to know of a line.
-/

namespace LineCompletion

open Text Decomposition

/-! ### Masked parts -/

/-- Without placeholders a text stands for itself only. -/
theorem StandsFor.eq_of_not_mem {literal? : Nat → Option (List Char)} {masked plain : List Char}
    (h : StandsFor literal? masked plain) (hmem : placeholderOpen ∉ masked) : masked = plain := by
  induction h with
  | nil => rfl
  | char c _ ih => rw [ih fun hc ↦ hmem (List.mem_cons_of_mem c hc)]
  | literal => exact absurd List.mem_cons_self hmem

/-- A part of a masked line stands for a part of the line. -/
structure StandsForPart (line masked part : List Char) : Prop where
  /-- It stands for it, by the literals of the line. -/
  stands : StandsFor (fun i ↦ (mask line).literals[i]?) masked part
  /-- And the line has that part. -/
  isInfix : part <:+: line

namespace StandsForPart

variable {line masked part : List Char}

/-- A part is restored to what it stands for in the line. -/
theorem restore_eq (h : StandsForPart line masked part) (free : PlaceholderFree line) :
    (mask line).restore masked = part :=
  MaskedLine.restore_of_standsFor (free.part h.isInfix) h.stands

theorem nil (line : List Char) : StandsForPart line [] [] :=
  ⟨.nil, List.nil_infix⟩

/-- What the line begins with is masked by the first of its literals. -/
theorem of_mask_append {before : List Char} {rest : MaskedLine} (hbegins : before <+: line)
    (h : mask line = mask before ++ rest) : StandsForPart line (mask before).text before where
  stands := (standsFor_mask before).mono fun i text hi ↦ by
    obtain ⟨hlt, -⟩ := List.getElem?_eq_some_iff.1 hi
    rw [h, MaskedLine.literals_append, List.getElem?_append_left hlt, hi]
  isInfix := hbegins.isInfix

/-- What comes next is masked by the literals after those. -/
theorem of_maskFrom_append {before expr : List Char} {rest : MaskedLine}
    (hbegins : before ++ expr <+: line)
    (h : mask line = mask before ++ maskFrom false (mask before).literals.length expr ++ rest) :
    StandsForPart line (maskFrom false (mask before).literals.length expr).text expr where
  stands := (standsFor_maskFrom false _ expr).mono fun i text hi ↦ by
    by_cases hlt : i < (mask before).literals.length
    · rw [if_pos hlt] at hi
      exact absurd hi (by simp)
    · rw [if_neg hlt] at hi
      obtain ⟨hlt', -⟩ := List.getElem?_eq_some_iff.1 hi
      have hlength : i < ((mask before).literals ++
          (maskFrom false (mask before).literals.length expr).literals).length := by
        rw [List.length_append]
        omega
      rw [h, MaskedLine.literals_append, MaskedLine.literals_append,
        List.getElem?_append_left hlength, List.getElem?_append_right (by omega), hi]
  isInfix := (List.suffix_append before expr).isInfix.trans hbegins.isInfix

/-- What no literal stands in is not masked. -/
theorem self (h : part <:+: line) : StandsForPart line part part :=
  ⟨by simpa using StandsFor.nil.text_append part, h⟩

end StandsForPart

/-- **The parts of a line are what the parts of its last draft stand for.** -/
theorem decompose_eq_of_draft {line pretext expr fragment : List Char}
    (free : PlaceholderFree line) {lookup : Lookup} {draft : Draft}
    (hdraft : (Draft.ofMasked (mask line).text).takeIndex.takeLookup = (lookup, draft))
    (hcall : draft.takeCall = draft) (hpretext : StandsForPart line draft.pretext pretext)
    (hexpr : StandsForPart line draft.expr expr)
    (hfragment : StandsForPart line (draft.fragment.getD []) fragment) :
    decompose line = ⟨pretext, expr, lookup, draft.padding, fragment⟩ := by
  rw [decompose]
  simp only [hdraft, hcall, hpretext.restore_eq free, hexpr.restore_eq free,
    hfragment.restore_eq free]

/-! ### A bare name -/

/-- No delimiter is in a name. -/
theorem isNameChar_of_isDelimiter {c : Char} (h : isDelimiter c = true) : isNameChar c = false :=
  of_isDelimiter (by decide) h

/-- There are no quotes in a name. -/
theorem quoteless_of_isNameChar {s : List Char} (h : ∀ c ∈ s, isNameChar c = true) :
    Quoteless s :=
  quoteless_of_forall (by decide) h

section Name

variable {p s : List Char}

/-- A name is an expression without brackets. -/
theorem isEnclosed_of_isNameChar (h : ∀ c ∈ s, isNameChar c = true) : isEnclosed 0 s = true := by
  have hplain : ∀ c ∈ s, isDelimiter c = false := fun c hc ↦ Bool.eq_false_iff.2 fun hdelimiter ↦ by
    have hname := h c hc
    rw [isNameChar_of_isDelimiter hdelimiter] at hname
    exact absurd hname (by simp)
  rw [← List.append_nil s, isEnclosed_append hplain]
  rfl

/-- The draft of a line that ends in a name: no index, lookup or call is taken off it. -/
theorem takeLookup_ofMasked_name {text : List Char} (htext : Quoteless text)
    (hend : ∀ c ∈ text.getLast?, isDelimiter c = true ∧ isCloser c = false)
    (hname : ∀ c ∈ s, isNameChar c = true) (hnumber : ∃ c ∈ s, isNumeric c = false) :
    (Draft.ofMasked (text ++ s)).takeIndex.takeLookup =
      (.absent, ⟨trimEnd text, s, trailingBlanks text, none⟩) := by
  have hne : s ≠ [] := List.ne_nil_of_mem hnumber.choose_spec.1
  have hsplit : splitAtOpenQuote (text ++ s) = (text ++ s, none) :=
    splitAtOpenQuote_of_quoteless (quoteless_append.2 ⟨htext, quoteless_of_isNameChar hname⟩)
  have hlast : ∀ c ∈ s.getLast?, isNameChar c = true := fun c hc ↦
    hname c (List.mem_of_getLast? hc)
  have hblank : ∀ c ∈ s.getLast?, isBlank c = false := fun c hc ↦
    Bool.eq_false_iff.2 fun hblank ↦ by
      have hchar := hlast c hc
      rw [isNameChar_of_isBlank hblank] at hchar
      exact absurd hchar (by simp)
  have hnot : isNumber s = false := by
    obtain ⟨c, hc, hnumeric⟩ := hnumber
    refine Bool.eq_false_iff.2 fun h ↦ ?_
    rw [isNumber, Bool.and_eq_true] at h
    rw [List.all_eq_true.1 h.2 c hc] at hnumeric
    exact absurd hnumeric (by simp)
  have hbracket : s.getLast? ≠ some '[' := fun h ↦ absurd (hlast '[' h) (by decide)
  rw [ofMasked_expression hsplit hend hne (isEnclosed_of_isNameChar hname) hblank, Draft.takeIndex,
    if_neg (by simp [hnot]), Draft.takeLookup, if_neg hbracket]

/-- **A name is taken off the end of a line**, with the white space in front of it. -/
theorem decompose_append_name (free : PlaceholderFree (p ++ s)) (hpretext : Quoteless (mask p).text)
    (hp : ∀ c ∈ p.getLast?, isDelimiter c = true ∧ isCloser c = false)
    (hname : ∀ c ∈ s, isNameChar c = true) (hnumber : ∃ c ∈ s, isNumeric c = false) :
    ∃ pretext padding, p = pretext ++ padding ∧
      decompose (p ++ s) = ⟨pretext, s, .absent, padding, []⟩ := by
  have hmask : mask (p ++ s) = mask p ++ ⟨s, []⟩ := by
    obtain ⟨escaped, happend⟩ := exists_maskFrom_append hpretext s
    have hs : maskFrom escaped (0 + (maskFrom false 0 p).literals.length) s = ⟨s, []⟩ := by
      refine maskFrom_eq_self (List.pairwise_of_forall_mem_list fun a ha b _ hquote ↦ ?_) _ _
      rw [quoteless_of_isNameChar hname a ha] at hquote
      exact absurd hquote (by simp)
    rwa [hs] at happend
  have hdraft := takeLookup_ofMasked_name hpretext (getLast_mask hp) hname hnumber
  have hexpr : StandsForPart (p ++ s) s s := .self (List.suffix_append p s).isInfix
  -- The cut before the white space goes through no placeholder, so it is a cut of the line too.
  have hblank : ∀ c ∈ trailingBlanks (mask p).text, isPlaceholderChar c = false := fun _ ↦
    isPlaceholderChar_of_mem_trailingBlanks
  have hstands := (StandsForPart.of_mask_append (List.prefix_append p s) hmask).stands
  rw [← trimEnd_append_trailingBlanks (mask p).text] at hstands
  obtain ⟨pretext, padding, hsplit, hbefore, hafter⟩ := hstands.split
    (not_cutsPlaceholder_of_head fun c hc ↦ hblank c (List.mem_of_mem_head? hc))
  have hpadding : trailingBlanks (mask p).text = padding :=
    hafter.eq_of_not_mem fun hmem ↦ absurd (hblank _ hmem) (by decide)
  have hpart : pretext <:+: p ++ s := ⟨[], padding ++ s, by rw [hsplit]; simp⟩
  refine ⟨pretext, padding, hsplit, ?_⟩
  rw [← hpadding]
  exact decompose_eq_of_draft free (by rw [hmask]; exact hdraft)
    (takeCall_of_enclosed (isEnclosed_of_isNameChar hname)) ⟨hbefore, hpart⟩ hexpr (.nil _)

end Name

/-! ### A lookup -/

/-- What a lookup is typed behind: an expression that ends what comes before it, and behind its
bracket white space. -/
structure OpensLookup (p e w : List Char) : Prop where
  /-- Every literal before the expression is closed. -/
  pretext_closed : Quoteless (mask p).text
  /-- So is every literal in it. -/
  expr_closed : Quoteless (mask (p ++ e)).text
  /-- Nothing comes before the expression, or a delimiter that closes no bracket. -/
  delimited : ∀ c ∈ p.getLast?, isDelimiter c = true ∧ isCloser c = false
  /-- There is an expression. -/
  expr_ne_nil : e ≠ []
  /-- Outside its literals its brackets are balanced and its delimiters between them. -/
  enclosed : isEnclosed 0 (mask e).text = true
  /-- White space is typed as spaces, tabs and line feeds. -/
  typed : ∀ c ∈ w, c ∈ [' ', '\t', '\n']

/-- **A lookup is taken off the end of a line**, with the expression it is typed behind. -/
theorem OpensLookup.decompose_eq {p e w f fragment : List Char} {lookup : Lookup}
    (h : OpensLookup p e w) (free : PlaceholderFree (p ++ e ++ ['['] ++ w ++ f))
    (hf : Keyed f lookup fragment) :
    decompose (p ++ e ++ ['['] ++ w ++ f) = ⟨p, e, lookup, w, fragment⟩ := by
  obtain ⟨hexpr, hline⟩ := mask_append_bracket h.pretext_closed h.expr_closed h.typed hf
  have hmasked : isEnclosed 0 (maskFrom false (mask p).literals.length e).text = true := by
    rw [isEnclosed_maskFrom 0 false _ 0]
    exact h.enclosed
  have hdraft : (Draft.ofMasked (mask (p ++ e ++ ['['] ++ w ++ f)).text).takeIndex.takeLookup =
      (lookup, ⟨(mask p).text, (maskFrom false (mask p).literals.length e).text, w,
        if f.isEmpty then none else some fragment⟩) := by
    rw [hline, MaskedLine.text_append, ← List.append_assoc, ← List.append_assoc,
      takeIndex_ofMasked hf h.expr_closed h.typed, hexpr, MaskedLine.text_append,
      takeLookup_of_keyed hf (getLast_mask h.delimited) (maskFrom_ne_nil h.expr_ne_nil _ _) hmasked]
  rw [hexpr] at hline
  have hline' := hline.trans (MaskedLine.append_assoc _ _ _)
  have hpretext : StandsForPart (p ++ e ++ ['['] ++ w ++ f) (mask p).text p :=
    .of_mask_append ⟨e ++ ['['] ++ w ++ f, by simp⟩ hline'
  have hexpr : StandsForPart (p ++ e ++ ['['] ++ w ++ f)
      (maskFrom false (mask p).literals.length e).text e :=
    .of_maskFrom_append ⟨['['] ++ w ++ f, by simp⟩ hline
  have hfragment : StandsForPart (p ++ e ++ ['['] ++ w ++ f)
      (((if f.isEmpty then none else some fragment) : Option (List Char)).getD []) fragment := by
    rw [getD_of_keyed hf]
    exact .self (hf.suffix.trans (List.suffix_append _ _)).isInfix
  exact decompose_eq_of_draft free hdraft (takeCall_of_enclosed hmasked) hpretext hexpr hfragment

/-- **A lookup is taken apart as it was typed.** Before the bracket stands an expression, its
brackets balanced and its delimiters between them once its literals are masked, and before that
nothing or a delimiter that closes no bracket. Then the parts are just what was typed: what comes
before, the expression, the white space behind the bracket, and what was typed of an index or of a
key. -/
theorem decompose_append_bracket {p e w f fragment : List Char} {lookup : Lookup}
    (free : PlaceholderFree (p ++ e ++ ['['] ++ w ++ f))
    (hquoteless : Quoteless (mask (p ++ e)).text) (hpretext : Quoteless (mask p).text)
    (hp : ∀ c ∈ p.getLast?, isDelimiter c = true ∧ isCloser c = false) (hne : e ≠ [])
    (henclosed : isEnclosed 0 (mask e).text = true) (hw : ∀ c ∈ w, c ∈ [' ', '\t', '\n'])
    (hf : Keyed f lookup fragment) :
    decompose (p ++ e ++ ['['] ++ w ++ f) = ⟨p, e, lookup, w, fragment⟩ :=
  have h : OpensLookup p e w := ⟨hpretext, hquoteless, hp, hne, henclosed, hw⟩
  h.decompose_eq free hf

/-- An expression with brackets and delimiters in its literal, and a key with a space before it. -/
theorem decompose_append_bracket_of_literal :
    let p := "x, ".toList
    let e := "d[f('a[ b')]".toList
    PlaceholderFree (p ++ e ++ ['['] ++ " ".toList ++ "'k".toList) ∧
      Quoteless (mask (p ++ e)).text ∧ Quoteless (mask p).text ∧
      (∀ c ∈ p.getLast?, isDelimiter c = true ∧ isCloser c = false) ∧
      isEnclosed 0 (mask e).text = true ∧ Keyed "'k".toList (.key '\'') "k".toList ∧
      decompose (p ++ e ++ ['['] ++ " ".toList ++ "'k".toList) =
        ⟨p, e, .key '\'', " ".toList, "k".toList⟩ := by
  intro p e
  have free : PlaceholderFree (p ++ e ++ ['['] ++ " ".toList ++ "'k".toList) :=
    placeholderFree_of_not_mem (by decide)
  have hquoteless : Quoteless (mask (p ++ e)).text := by decide +kernel
  have hpretext : Quoteless (mask p).text := by decide +kernel
  have hp : ∀ c ∈ p.getLast?, isDelimiter c = true ∧ isCloser c = false := by
    have hlast : p.getLast? = some ' ' := by decide
    rw [hlast]
    exact fun c hc ↦ Option.some.inj hc ▸ by decide
  have henclosed : isEnclosed 0 (mask e).text = true := by decide +kernel
  have hkey : Keyed "'k".toList (.key '\'') "k".toList := .key (by decide) (by decide)
  have hw : ∀ c ∈ [' '], c ∈ [' ', '\t', '\n'] := List.forall_mem_singleton.2 (by decide)
  exact ⟨free, hquoteless, hpretext, hp, henclosed, hkey, decompose_append_bracket free hquoteless
    hpretext hp (by decide) henclosed hw hkey⟩

/-! ### Where a lookup is opened -/

/-- A line divided at the bracket that opens its lookup. -/
structure OpenedAt (line left right : List Char) : Prop where
  /-- The bracket stands between the two parts. -/
  eq_append : line = left ++ '[' :: right
  /-- Before it, masked, are the pretext and the expression. -/
  mask_eq : (mask left).text = (maskedParts line).pretext ++ (maskedParts line).expr
  /-- That is what these two stand for in the line. -/
  part : StandsForPart line ((maskedParts line).pretext ++ (maskedParts line).expr) left

section OpenedAt

variable {line left right : List Char}

/-- **A line that is taken apart as a lookup has the bracket that opens it.** -/
theorem exists_openedAt (h : (decompose line).lookup ≠ .absent) :
    ∃ left right, OpenedAt line left right := by
  obtain ⟨place, hfits, hdivides⟩ := exists_divides_maskedParts line
  rw [decompose_eq_restoredBy] at h
  have htext : ∃ behind, (mask line).text =
      (maskedParts line).pretext ++ (maskedParts line).expr ++ '[' :: behind := by
    rw [← hdivides.flatten_eq]
    rcases hlookup : (maskedParts line).lookup with - | - | quote <;> rw [hlookup] at hfits
    · exact absurd hlookup h
    · rcases hfits with rfl | rfl <;> exact ⟨_, by simp [inOrder, hlookup, Lookup.text]; rfl⟩
    · obtain rfl : place = .beforeQuote := hfits
      exact ⟨_, by simp [inOrder]; rfl⟩
  obtain ⟨behind, htext⟩ := htext
  obtain ⟨left, right, hline, hmask, rest, hrest⟩ := exists_append_of_maskFrom (by decide) htext
  have hpart : StandsForPart line (mask left).text left :=
    .of_mask_append ⟨'[' :: right, hline.symm⟩ hrest
  exact ⟨left, right, hline, hmask, hmask ▸ hpart⟩

/-- Something is before the bracket, if there is an expression. -/
theorem OpenedAt.left_ne_nil (h : OpenedAt line left right) (hexpr : (decompose line).expr ≠ []) :
    left ≠ [] := by
  rintro rfl
  have hmask := h.mask_eq
  rw [mask, maskFrom_nil] at hmask
  have hnil : (maskedParts line).expr = [] := (List.append_eq_nil_iff.1 hmask.symm).2
  rw [decompose_eq_restoredBy] at hexpr
  refine hexpr (show (mask line).restore (maskedParts line).expr = [] from ?_)
  rw [hnil, MaskedLine.restore_of_not_mem _ List.not_mem_nil]

/-- In a line that ends in a lookup no padding is before the expression. -/
theorem Decomposition.Divides.uncut_expr {d : Decomposition} {place : PaddingPlace}
    {masked : List Char} (h : d.Divides place masked) (hfits : place.Fits d.lookup)
    (hlookup : d.lookup ≠ .absent) : Uncut [d.pretext, d.expr] := by
  refine ⟨fun hcut ↦ ?_, not_cutsPlaceholder_nil_right _, trivial⟩
  have hplace : place ≠ .beforeExpr := by
    rintro rfl
    rcases hd : d.lookup with - | - | quote <;> rw [hd] at hfits hlookup
    · exact hlookup rfl
    · rcases hfits with hfits | hfits <;> exact absurd hfits (by simp)
    · exact absurd hfits (by simp [PaddingPlace.Fits])
  cases place with
  | beforeExpr => exact hplace rfl
  | beforeFragment | beforeQuote | afterFragment =>
    exact h.uncut.1 (hcut.of_prefix (by simp))

/-- What is before the bracket is the pretext with the expression behind it. -/
theorem OpenedAt.left_eq (h : OpenedAt line left right) (free : PlaceholderFree line)
    (hlookup : (decompose line).lookup ≠ .absent) :
    left = (decompose line).pretext ++ (decompose line).expr := by
  obtain ⟨place, hfits, hdivides⟩ := exists_divides_maskedParts line
  have huncut := hdivides.uncut_expr hfits hlookup
  have hstands : StandsFor (fun i ↦ (mask line).literals[i]?)
      [(maskedParts line).pretext, (maskedParts line).expr].flatten left := by
    simpa using h.part.stands
  have hrestore := hstands.flatten_map_restore (free.part h.part.isInfix) huncut
  rw [← hrestore, decompose_eq_restoredBy]
  simp [restoredBy]

/-- Behind the bracket stands what was typed of an index or a key, with the padding beside it:
before the quote of a key, and on either side of a number. -/
theorem OpenedAt.right_eq (h : OpenedAt line left right) (free : PlaceholderFree line)
    (hlookup : (decompose line).lookup ≠ .absent) :
    let d := decompose line
    d.lookup = .bracket ∧ (right = d.padding ++ d.fragment ∨
        (∀ c ∈ d.fragment, isNumeric c = true) ∧ right = d.fragment ++ d.padding) ∨
      ∃ quote, d.lookup = .key quote ∧ right = d.padding ++ quote :: d.fragment := by
  intro d
  obtain ⟨place, hfits, hdivides⟩ := exists_divides_maskedParts line
  obtain ⟨hflatten, hnumeric, -⟩ := hdivides.arranges free
  have hparts : (d.inOrder place).flatten = d.pretext ++ d.expr ++ '[' :: right := by
    rw [← h.left_eq free hlookup, ← h.eq_append]
    exact hflatten
  have hfits : place.Fits d.lookup := hfits
  have hlookup : d.lookup ≠ .absent := hlookup
  have hnumeric : place = .afterFragment → ∀ c ∈ d.fragment, isNumeric c = true := hnumeric
  clear_value d
  rcases hd : d.lookup with - | - | quote <;> rw [hd] at hfits
  · exact absurd hd hlookup
  · refine .inl ⟨rfl, ?_⟩
    rcases hfits with rfl | rfl
    · exact .inl (by simpa [inOrder, hd, Lookup.text] using hparts.symm)
    · exact .inr ⟨hnumeric rfl, by simpa [inOrder, hd, Lookup.text] using hparts.symm⟩
  · obtain rfl : place = .beforeQuote := hfits
    exact .inr ⟨quote, rfl, by simpa [inOrder, hd, Lookup.quote?] using hparts.symm⟩

end OpenedAt

end LineCompletion
