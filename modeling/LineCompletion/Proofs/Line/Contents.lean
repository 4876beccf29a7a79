import LineCompletion.Proofs.Line.Parts

/-!
# The contents of literals

What stands between the quotes of a literal that is masked decides nothing about the line around it.
With other contents, free of quotes, backslashes and newlines, the line has the same masked text,
and its literals are the same but for that one (`MaskedAt.with_contents`).

Behind the literal this is plain, since masking goes on there in the same way. What has to be shown
is that nothing in front of it changes either. A quote there that was left over might now be closed,
inside the literal or behind it. It is not: a search for another quote comes to the literal with no
backslash before it, and takes the same steps through it that the search for its own closing quote
takes. So it has passed over all of the contents and gone on behind the literal, where nothing has
changed.

Taken apart, the two lines are the same again, but for the part that the literal is in
(`decompose_with_contents`).

**A literal in its place.** `MaskedAt` says of three texts that the second is a literal which is
masked in the line that they make up. It is an equation on the masked line, which can be evaluated,
and every literal of every line has such a place (`exists_maskedAt`). What an induction can use is
`ComesTo`: masking goes through the text in front in whole steps and comes by at the literal. The
two are tied together in both directions (`ComesTo.maskedAt`, `MaskedAt.comesTo`), so statements are
made with the first and proved with the second.

**Which contents.** Contents are plain if they have no quote, no backslash and no newline in them
and nothing that looks like a placeholder. A quote would end the literal or one in front of it, a
backslash might take the closing quote along, a newline would end the search, and a placeholder
might be taken for another literal when the line is restored. The contents that are replaced may
have all of these: whatever masking took for one literal may be replaced.

**Taken apart.** The parts of the two lines have the same masked text. The numbers of the literals
are the same too, so the parts behind the literal stand for the same text in both lines
(`MaskedAt.stands_behind`), and what is in front of it grows or shrinks with the literal.
-/

namespace LineCompletion

open Text Decomposition

/-! ### Searching for a closing quote -/

theorem getLast?_ne_of_cons {c d : Char} {s : List Char} (h : (c :: s).getLast? ≠ some d) :
    s.getLast? ≠ some d := by
  intro hlast
  rw [List.getLast?_cons, hlast] at h
  exact h rfl

/-- A search that finds nothing comes to what it finds nothing in, and may go through any other such
text there, unless a backslash takes the first character of that along. -/
theorem splitBody?_append_eq_none {quote : Char} {s t t' : List Char}
    (hlast : s.getLast? ≠ some '\\')
    (htext : splitBody? quote false t = none → splitBody? quote false t' = none)
    (h : splitBody? quote false (s ++ t) = none) : splitBody? quote false (s ++ t') = none := by
  fun_induction splitBody? quote false s with
  | case1 => exact htext h
  | case2 escaped rest hline =>
    rw [List.cons_append, List.cons_append, splitBody?, if_pos hline]
  | case3 escaped rest hline ih =>
    rw [List.cons_append, List.cons_append, splitBody?, if_neg hline, Option.map_eq_none_iff] at h ⊢
    exact ih (getLast?_ne_of_cons (getLast?_ne_of_cons hlast)) h
  | case4 rest hpair =>
    have hslash := ne_backslash_of_unpaired hpair (by rintro rfl; simpa using hlast)
    rw [List.cons_append, splitBody?_cons_of_ne hslash, if_pos rfl] at h
    exact absurd h (by simp)
  | case5 c rest hpair hne hline =>
    have hslash := ne_backslash_of_unpaired hpair (by rintro rfl; simpa using hlast)
    rw [List.cons_append, splitBody?_cons_of_ne hslash, if_neg hne, if_pos hline]
  | case6 c rest hpair hne hline ih =>
    have hslash := ne_backslash_of_unpaired hpair (by rintro rfl; simpa using hlast)
    rw [List.cons_append, splitBody?_cons_of_ne hslash, if_neg hne, if_neg hline,
      Option.map_eq_none_iff] at h ⊢
    exact ih (getLast?_ne_of_cons hlast) h

/-- A search goes on behind a character that is none of those it looks for. -/
theorem splitBody?_cons_eq_none_iff {quote c : Char} {s : List Char} (hslash : c ≠ '\\')
    (hline : c ≠ '\n') :
    splitBody? quote false (c :: s) = none ↔ c ≠ quote ∧ splitBody? quote false s = none := by
  rw [splitBody?_cons_of_ne hslash, if_neg (by simp [hline] : ¬ (c = '\n' && !false) = true)]
  split
  · simp [*]
  · simp [*]

/-- A search for another quote goes through the contents of a literal in the steps in which its
closing quote is searched for. If it finds nothing, then not behind the literal either. -/
theorem splitBody?_behind_eq_none {quote other : Char} (hquote : isQuote quote = true)
    {body after : List Char} (hbody : Body quote body) (hline : '\n' ∉ body)
    (h : splitBody? other false (body ++ quote :: after) = none) :
    splitBody? other false after = none := by
  induction hbody with
  | nil =>
    rw [List.nil_append, splitBody?_cons_eq_none_iff (ne_of_isQuote hquote rfl)
      (ne_of_isQuote hquote rfl)] at h
    exact h.2
  | plain _ hslash _ ih =>
    obtain ⟨hc, hline⟩ := List.ne_and_not_mem_of_not_mem_cons hline
    exact ih hline ((splitBody?_cons_eq_none_iff hslash hc.symm).1 h).2
  | escape _ ih =>
    obtain ⟨hstays, hline⟩ := stays_cons_iff.1 (stays_cons_iff.1 (.inr hline)).2
    rw [List.cons_append, List.cons_append, splitBody?, if_neg hstays, Option.map_eq_none_iff] at h
    exact ih (hline.resolve_left (by simp)) h

/-- A search for a quote goes on behind a text without quotes. -/
theorem splitBody?_unquoted_append_eq_none {other : Char} (hother : isQuote other = true)
    {s t : List Char} (hs : Unquoted s) (hline : '\n' ∉ s) (h : splitBody? other false t = none) :
    splitBody? other false (s ++ t) = none := by
  induction s with
  | nil => exact h
  | cons c s ih =>
    obtain ⟨⟨hc, hslash⟩, hs⟩ := List.forall_mem_cons.1 hs
    obtain ⟨hnewline, hline⟩ := List.ne_and_not_mem_of_not_mem_cons hline
    exact (splitBody?_cons_eq_none_iff hslash hnewline.symm).2
      ⟨(ne_of_isQuote hother hc).symm, ih hs hline⟩

/-- So a quote that is left over in front of a literal is still so with other contents in it. -/
theorem splitBody?_literal_eq_none {quote other : Char} (hquote : isQuote quote = true)
    (hother : isQuote other = true) {body body' right : List Char} (hbody : Body quote body)
    (hbodyline : '\n' ∉ body) (hs : Unquoted body') (hline : '\n' ∉ body')
    (h : splitBody? other false (quote :: (body ++ quote :: right)) = none) :
    splitBody? other false (quote :: (body' ++ quote :: right)) = none := by
  have hstep {s : List Char} : splitBody? other false (quote :: s) = none ↔
      quote ≠ other ∧ splitBody? other false s = none :=
    splitBody?_cons_eq_none_iff (ne_of_isQuote hquote rfl) (ne_of_isQuote hquote rfl)
  obtain ⟨hne, hinside⟩ := hstep.1 h
  have hbehind := splitBody?_behind_eq_none hquote hbody hbodyline hinside
  exact hstep.2 ⟨hne, splitBody?_unquoted_append_eq_none hother hs hline (hstep.2 ⟨hne, hbehind⟩)⟩

/-! ### Where masking comes by -/

/-- Masking goes through the first of two texts in whole steps, one character or one literal at a
time, and no backslash is left for the second. -/
inductive ComesTo (s : List Char) : (escaped : Bool) → (left : List Char) → Prop
  /-- Nothing is before it. -/
  | here : ComesTo s false []
  /-- A character that opens no literal. -/
  | char {escaped : Bool} {c : Char} {left : List Char}
      (hc : escaped = true ∨ leadingLiteral? (c :: (left ++ s)) = none)
      (rest : ComesTo s (c == '\\') left) : ComesTo s escaped (c :: left)
  /-- A literal. -/
  | literal {literal left : List Char}
      (hliteral : leadingLiteral? (literal ++ (left ++ s)) = some (literal, left ++ s))
      (rest : ComesTo s false left) : ComesTo s false (literal ++ left)

namespace ComesTo

variable {s s' left : List Char} {escaped : Bool}

/-- Where masking comes by, what is before is masked as it is without the rest. -/
theorem maskFrom_append (h : ComesTo s escaped left) (index : Nat) :
    maskFrom escaped index (left ++ s) = maskFrom escaped index left ++
      maskFrom false (index + (maskFrom escaped index left).literals.length) s := by
  induction h generalizing index with
  | here =>
    rw [maskFrom_nil]
    rfl
  | @char escaped c left hc rest ih =>
    have hleft : escaped = true ∨ leadingLiteral? (c :: left) = none :=
      hc.imp_right leadingLiteral?_of_append
    rw [List.cons_append, maskFrom_char hc, maskFrom_char hleft, ih, MaskedLine.append_assoc]
    rfl
  | @literal literal left hliteral rest ih =>
    have hleft := leadingLiteral?_literal hliteral left
    rw [List.append_assoc, maskFrom_literal hliteral, maskFrom_literal hleft, ih,
      MaskedLine.append_assoc, MaskedLine.literals_append, List.length_append,
      List.length_singleton, Nat.add_assoc]

/-- No backslash is right before it. -/
theorem eq_false_and_getLast?_ne (h : ComesTo s escaped left) :
    (left = [] → escaped = false) ∧ left.getLast? ≠ some '\\' := by
  induction h with
  | here => exact ⟨fun _ ↦ rfl, by simp⟩
  | @char escaped c left hc rest ih =>
    refine ⟨fun hnil ↦ absurd hnil (by simp), ?_⟩
    cases left with
    | nil => simpa using ih.1 rfl
    | cons d left =>
      rw [List.getLast?_cons_cons]
      exact ih.2
  | @literal literal left hliteral rest ih =>
    refine ⟨fun _ ↦ rfl, ?_⟩
    obtain ⟨quote, hlast, hquote⟩ := exists_getLast_of_leadingLiteral? hliteral
    rw [List.getLast?_append, Option.mem_def.1 hlast]
    rcases hleft : left.getLast? with - | d
    · simpa using (ne_of_isQuote hquote rfl : quote ≠ '\\')
    · rw [← hleft]
      simpa [hleft] using ih.2

/-- Masking comes by at any other text that leaves over the quotes that were left over. -/
theorem congr (h : ComesTo s escaped left)
    (hnone : ∀ quote, isQuote quote = true → splitBody? quote false s = none →
      splitBody? quote false s' = none) : ComesTo s' escaped left := by
  induction h with
  | here => exact .here
  | @char escaped c left hc rest ih =>
    refine .char (hc.imp_right fun hopen ↦ ?_) ih
    rw [leadingLiteral?_cons_eq_none_iff] at hopen ⊢
    exact fun hquote ↦
      splitBody?_append_eq_none rest.eq_false_and_getLast?_ne.2 (hnone c hquote) (hopen hquote)
  | @literal literal left hliteral rest ih =>
    exact .literal (leadingLiteral?_literal hliteral _) ih

end ComesTo

/-! ### Literals in their places -/

/-- The second of three texts is a literal that is masked, in the line that they make up. -/
def MaskedAt (left literal right : List Char) : Prop :=
  let index := (mask left).literals.length
  mask (left ++ literal ++ right) =
    mask left ++ (⟨placeholder index, [literal]⟩ ++ maskFrom false (index + 1) right)

instance (left literal right : List Char) : Decidable (MaskedAt left literal right) :=
  inferInstanceAs (Decidable (_ = _))

/-- A literal that masking comes by at is masked in its place. -/
theorem ComesTo.maskedAt {left literal right : List Char}
    (h : ComesTo (literal ++ right) false left)
    (hliteral : leadingLiteral? (literal ++ right) = some (literal, right)) :
    MaskedAt left literal right := by
  rw [MaskedAt, List.append_assoc, mask, h.maskFrom_append, maskFrom_literal hliteral, Nat.zero_add]
  rfl

/-- Every literal of a line is masked in its place. -/
theorem exists_comesTo {escaped : Bool} {index k : Nat} {s literal : List Char}
    (h : (maskFrom escaped index s).literals[k]? = some literal) :
    ∃ left right, s = left ++ literal ++ right ∧ (maskFrom escaped index left).literals.length = k ∧
      ComesTo (literal ++ right) escaped left ∧
      leadingLiteral? (literal ++ right) = some (literal, right) := by
  fun_induction maskFrom escaped index s generalizing k with
  | case1 => exact absurd h (by simp)
  | case2 =>
    rename_i escaped index c rest first after hleading masked ih
    obtain ⟨rfl, hfirst⟩ := eq_false_and_of_masked hleading
    rw [eq_append_of_leadingLiteral? hfirst]
    cases k with
    | zero =>
      obtain rfl : first = literal := Option.some.inj h
      exact ⟨[], after, rfl, by rw [maskFrom_nil]; rfl, .here, leadingLiteral?_literal hfirst after⟩
    | succ k =>
      obtain ⟨left, right, rfl, hlength, hcomes, hliteral⟩ := ih h
      refine ⟨first ++ left, right, by simp, ?_, .literal ?_ hcomes, hliteral⟩
      · rw [maskFrom_literal (leadingLiteral?_literal hfirst left), MaskedLine.literals_append,
          List.length_append, hlength, Nat.add_comm]
        rfl
      · exact leadingLiteral?_literal hfirst _
  | case3 =>
    rename_i escaped index c rest hleading masked ih
    obtain ⟨left, right, rfl, hlength, hcomes, hliteral⟩ := ih h
    have hc := or_of_unmasked hleading
    rw [List.append_assoc] at hc
    refine ⟨c :: left, right, rfl, ?_, .char hc hcomes, hliteral⟩
    rw [maskFrom_char (hc.imp_right (leadingLiteral?_of_append (s := c :: left)))]
    exact hlength

/-- **Every literal of a line has its place** in it. -/
theorem exists_maskedAt {line literal : List Char} {k : Nat}
    (h : (mask line).literals[k]? = some literal) :
    ∃ left right, line = left ++ literal ++ right ∧ (mask left).literals.length = k ∧
      MaskedAt left literal right := by
  obtain ⟨left, right, hline, hlength, hcomes, hliteral⟩ := exists_comesTo h
  exact ⟨left, right, hline, hlength, hcomes.maskedAt hliteral⟩

/-- Where a masked text goes on with a placeholder behind what is before a quote, masking comes by
at that quote and finds a literal there. -/
theorem comesTo_of_maskFrom {escaped : Bool} {index k : Nat} {left rest literal : List Char}
    {quote : Char} {masked : MaskedLine} (hquote : isQuote quote = true)
    (h : maskFrom escaped index (left ++ quote :: rest) =
      maskFrom escaped index left ++ (⟨placeholder k, [literal]⟩ ++ masked)) :
    ComesTo (quote :: rest) escaped left ∧
      ∃ after, leadingLiteral? (quote :: rest) = some (literal, after) := by
  -- A quote is not what a placeholder opens with, so a literal begins in both or in neither.
  have hopen {c : Char} (hc : isQuote c = true) : c ≠ placeholderOpen := by
    rintro rfl
    exact absurd hc (by decide)
  fun_induction maskFrom escaped index left with
  | case1 escaped index =>
    rw [List.nil_append] at h
    rcases char_or_literal escaped (quote :: rest) with hc | ⟨found, after, rfl, hfound⟩
    · rw [maskFrom_char hc] at h
      exact absurd (List.cons.inj (congrArg MaskedLine.text h)).1 (hopen hquote)
    · rw [maskFrom_literal hfound] at h
      obtain rfl : found = literal := (List.cons.inj (congrArg MaskedLine.literals h)).1
      exact ⟨.here, after, hfound⟩
  | case2 escaped index c left first after hleading masked' ih =>
    obtain ⟨rfl, hfirst⟩ := eq_false_and_of_masked hleading
    have hlonger := leadingLiteral?_append hfirst (quote :: rest)
    rw [maskFrom_literal hlonger] at h
    obtain ⟨hcomes, hliteral⟩ := ih (MaskedLine.append_cancel_left (h.trans
      (MaskedLine.append_assoc ⟨placeholder index, [first]⟩ masked' _)))
    rw [eq_append_of_leadingLiteral? hfirst, List.append_assoc] at hlonger
    rw [eq_append_of_leadingLiteral? hfirst]
    exact ⟨.literal hlonger hcomes, hliteral⟩
  | case3 escaped index c left hleading masked' ih =>
    rw [List.cons_append] at h
    rcases char_or_literal escaped (c :: (left ++ quote :: rest)) with
      hc | ⟨found, after, rfl, hfound⟩
    · rw [maskFrom_char hc] at h
      obtain ⟨hcomes, hliteral⟩ := ih (MaskedLine.append_cancel_left (h.trans
        (MaskedLine.append_assoc ⟨[c], []⟩ masked' _)))
      exact ⟨.char hc hcomes, hliteral⟩
    · obtain ⟨other, _, hother, -, -, rfl, heq⟩ := leadingLiteral?_eq_some_iff.1 hfound
      obtain ⟨rfl, -⟩ := List.cons.inj heq
      rw [maskFrom_literal hfound] at h
      exact absurd (List.cons.inj (congrArg MaskedLine.text h)).1.symm (hopen hother)

/-- Masking comes by at a literal in its place, and there finds a body on one line. -/
theorem MaskedAt.comesTo {left body right : List Char} {quote : Char}
    (h : MaskedAt left (quote :: body ++ [quote]) right) (hquote : isQuote quote = true) :
    ComesTo (quote :: (body ++ quote :: right)) false left ∧ Body quote body ∧ '\n' ∉ body := by
  have htext : quote :: body ++ [quote] ++ right = quote :: (body ++ quote :: right) := by simp
  rw [MaskedAt, List.append_assoc, htext] at h
  obtain ⟨hcomes, after, hliteral⟩ := comesTo_of_maskFrom hquote h
  obtain ⟨quote', body', -, hbody, hline, heq, -⟩ := leadingLiteral?_eq_some_iff.1 hliteral
  obtain ⟨rfl, htail⟩ := List.cons.inj heq
  obtain rfl : body = body' := List.append_cancel_right htail
  exact ⟨hcomes, hbody, hline⟩

/-- Contents that a literal may have as they are, between quotes of either kind, in a line without
placeholder text. -/
structure PlainContents (s : List Char) : Prop where
  /-- There is no quote and no backslash in them. -/
  unquoted : Unquoted s
  /-- They stand on one line. -/
  one_line : '\n' ∉ s
  /-- Nothing in them looks like a placeholder. -/
  free : PlaceholderFree s

/-- Two literals between the same quotes, the second with any plain contents. -/
inductive OtherContents : List Char → List Char → Prop
  /-- The contents of the first are replaced. -/
  | mk {quote : Char} {body body' : List Char} (hquote : isQuote quote = true)
      (hbody : PlainContents body') :
      OtherContents (quote :: body ++ [quote]) (quote :: body' ++ [quote])

/-- **Other contents are masked in the same way.** -/
theorem MaskedAt.with_contents {left literal literal' right : List Char}
    (h : MaskedAt left literal right) (hother : OtherContents literal literal') :
    MaskedAt left literal' right := by
  obtain @⟨quote, body, body', hquote, hbody⟩ := hother
  obtain ⟨hcomes, hliteral, hline⟩ := h.comesTo hquote
  have htext : quote :: body' ++ [quote] ++ right = quote :: (body' ++ quote :: right) := by simp
  refine ComesTo.maskedAt ?_ (leadingLiteral?_eq_some_iff.2
    ⟨quote, body', hquote, hbody.unquoted.body hquote, hbody.one_line, rfl, rfl⟩)
  rw [htext]
  exact hcomes.congr fun other hother ↦
    splitBody?_literal_eq_none hquote hother hliteral hline hbody.unquoted hbody.one_line

/-! ### Placeholder text -/

theorem eq_nil_of_prefix_cons {c : Char} {s t : List Char} (hc : c ∉ s) (h : s <+: c :: t) :
    s = [] := by
  cases s with
  | nil => rfl
  | cons d s =>
    obtain ⟨rfl, -⟩ := List.cons_prefix_cons.1 h
    exact absurd List.mem_cons_self hc

/-- A part without a character is on one side of that character. -/
theorem infix_of_infix_append_cons {c : Char} {s left right : List Char} (hc : c ∉ s)
    (h : s <:+: left ++ c :: right) : s <:+: left ∨ s <:+: right := by
  rcases List.infix_append_iff.1 h with h | h | ⟨before, after, rfl, hend, hstart⟩
  · exact .inl h
  · rcases List.infix_cons_iff.1 h with hstart | h
    · exact .inl (eq_nil_of_prefix_cons hc hstart ▸ List.nil_infix)
    · exact .inr h
  · have hafter : c ∉ after := fun hmem ↦ hc (List.mem_append_right before hmem)
    obtain rfl := eq_nil_of_prefix_cons hafter hstart
    exact .inl (by simpa using hend.isInfix)

/-- A character that is no part of a placeholder keeps two texts apart. -/
theorem PlaceholderFree.append_cons {left right : List Char} {c : Char}
    (hleft : PlaceholderFree left) (hc : isPlaceholderChar c = false)
    (hright : PlaceholderFree right) : PlaceholderFree (left ++ c :: right) := by
  intro digits hne hdigits hpart
  have hmem : c ∉ placeholderOpen :: digits ++ [placeholderClose] := fun hmem ↦ by
    rw [isPlaceholderChar, Bool.or_eq_false_iff, Bool.or_eq_false_iff] at hc
    rcases List.mem_append.1 hmem with hmem | hmem
    · rcases List.mem_cons.1 hmem with rfl | hmem
      · exact absurd hc.1.1 (by simp)
      · exact absurd (hdigits c hmem) (by rw [hc.1.2]; simp)
    · obtain rfl := List.mem_singleton.1 hmem
      exact absurd hc.2 (by simp)
  exact (infix_of_infix_append_cons hmem hpart).elim (hleft digits hne hdigits)
    (hright digits hne hdigits)

/-- There is no placeholder text in a line with other contents in a literal, if there was none. -/
theorem OtherContents.placeholderFree {left literal literal' right : List Char}
    (hother : OtherContents literal literal') (free : PlaceholderFree (left ++ literal ++ right)) :
    PlaceholderFree (left ++ literal' ++ right) := by
  obtain @⟨quote, body, body', hquote, hbody⟩ := hother
  have hc := isPlaceholderChar_of_isQuote hquote
  have hright := hbody.free.append_cons hc (free.part (List.suffix_append _ right).isInfix)
  have hleft : PlaceholderFree left := free.part ⟨[], quote :: body ++ [quote] ++ right, by simp⟩
  simpa using hleft.append_cons hc hright

/-! ### Parts of a masked line -/

/-- Two masked texts stand together for what they stand for one by one. -/
theorem StandsFor.append {literal? : Nat → Option (List Char)} {s t plain plain' : List Char}
    (hs : StandsFor literal? s plain) (ht : StandsFor literal? t plain') :
    StandsFor literal? (s ++ t) (plain ++ plain') := by
  induction hs with
  | nil => exact ht
  | char c _ ih => exact .char c ih
  | literal hi _ ih =>
    rw [List.append_assoc, List.append_assoc]
    exact .literal hi ih

/-- Nothing but an empty text stands for nothing, unless a literal is empty. -/
theorem StandsFor.eq_nil {literal? : Nat → Option (List Char)} {s : List Char}
    (h : StandsFor literal? s []) (hne : ∀ i, literal? i ≠ some []) : s = [] := by
  generalize hplain : ([] : List Char) = plain at h
  cases h with
  | nil => rfl
  | char => exact absurd hplain (by simp)
  | literal hi =>
    obtain ⟨rfl, -⟩ := List.append_eq_nil_iff.1 hplain.symm
    exact absurd hi (hne _)

/-- Each of the pieces that a masked text is cut into stands for a part of what the text stands
for. -/
theorem StandsFor.exists_part {literal? : Nat → Option (List Char)} {pieces : List (List Char)}
    {plain piece : List Char} (h : StandsFor literal? pieces.flatten plain) (uncut : Uncut pieces)
    (hmem : piece ∈ pieces) : ∃ part, part <:+: plain ∧ StandsFor literal? piece part := by
  induction pieces generalizing plain with
  | nil => exact absurd hmem List.not_mem_nil
  | cons first rest ih =>
    obtain ⟨before, after, rfl, hfirst, hrest⟩ := h.split uncut.1
    rcases List.mem_cons.1 hmem with rfl | hmem
    · exact ⟨before, (List.prefix_append _ _).isInfix, hfirst⟩
    · obtain ⟨part, hpart, hstands⟩ := ih hrest uncut.2 hmem
      exact ⟨part, hpart.trans (List.suffix_append _ _).isInfix, hstands⟩

/-- The pretext is the first of the parts of a line, wherever the padding is. -/
theorem Decomposition.inOrder_eq_cons (d : Decomposition) (place : PaddingPlace) :
    ∃ others, d.inOrder place = d.pretext :: others ∧ d.expr ∈ others ∧ d.fragment ∈ others := by
  cases place <;> exact ⟨_, rfl, by simp, by simp⟩

/-! ### Behind a literal -/

section Literal

variable {left literal right : List Char}

/-- No literal is empty, since it has its quotes. -/
theorem literals_ne_nil (line : List Char) (k : Nat) : (mask line).literals[k]? ≠ some [] := by
  intro hk
  obtain ⟨left, right, -, -, -, hliteral⟩ := exists_comesTo hk
  obtain ⟨quote, body, -, -, -, hnil, -⟩ := leadingLiteral?_eq_some_iff.1 hliteral
  exact absurd hnil (by simp)

/-- What a masked line begins with, through the placeholder of a literal. -/
def maskedThrough (left : List Char) : List Char :=
  (mask left).text ++ placeholder (mask left).literals.length

/-- What comes behind a literal, masked. -/
def maskedBehind (left right : List Char) : MaskedLine :=
  maskFrom false ((mask left).literals.length + 1) right

/-- A part of a masked line stands for a part of what comes behind a literal, by the literals
there. -/
structure StandsBehind (left right masked part : List Char) : Prop where
  /-- It stands for it, by the literals numbered from the next one on. -/
  stands : StandsFor (fun i ↦ if i < (mask left).literals.length + 1 then none else
    (maskedBehind left right).literals[i - ((mask left).literals.length + 1)]?) masked part
  /-- And it is a part of that. -/
  isInfix : part <:+: right

namespace MaskedAt

/-- A masked line is what comes before the literal, its placeholder, and what comes behind. -/
theorem text_eq (h : MaskedAt left literal right) :
    (mask (left ++ literal ++ right)).text =
      maskedThrough left ++ (maskedBehind left right).text := by
  rw [h, MaskedLine.text_append, MaskedLine.text_append, ← List.append_assoc]
  rfl

/-- What the masked line begins with, through the placeholder, stands for the line through the
literal. -/
theorem stands_through (h : MaskedAt left literal right) :
    StandsFor (fun i ↦ (mask (left ++ literal ++ right)).literals[i]?) (maskedThrough left)
      (left ++ literal) := by
  have hbegins : left <+: left ++ literal ++ right := ⟨literal ++ right, by simp⟩
  have hliteral : (mask (left ++ literal ++ right)).literals[(mask left).literals.length]? =
      some literal := by
    rw [h]
    simp [MaskedLine.literals_append]
  refine (StandsForPart.of_mask_append hbegins h).stands.append ?_
  simpa using StandsFor.literal hliteral .nil

/-- What is behind a literal is so whatever the literal is. -/
theorem stands_behind (h : MaskedAt left literal right) {masked part : List Char}
    (hpart : StandsBehind left right masked part) :
    StandsFor (fun i ↦ (mask (left ++ literal ++ right)).literals[i]?) masked part := by
  refine hpart.stands.mono fun i text hi ↦ ?_
  by_cases hlt : i < (mask left).literals.length + 1
  · rw [if_pos hlt] at hi
    exact absurd hi (by simp)
  · rw [if_neg hlt] at hi
    rw [h, MaskedLine.literals_append, MaskedLine.literals_append, ← List.append_assoc,
      List.getElem?_append_right (by simp; omega), ← hi]
    simp [maskedBehind]

theorem standsForPart (h : MaskedAt left literal right) {masked part : List Char}
    (hpart : StandsBehind left right masked part) :
    StandsForPart (left ++ literal ++ right) masked part :=
  ⟨h.stands_behind hpart, hpart.isInfix.trans (List.suffix_append _ _).isInfix⟩

/-- Where the pretext of a line goes on behind a literal, only the pretext has to do with it. -/
theorem decompose_eq (h : MaskedAt left literal right)
    (free : PlaceholderFree (left ++ literal ++ right)) {d : Decomposition}
    (hd : maskedParts (left ++ literal ++ right) = d) {masked behind expr fragment : List Char}
    (hpretext : d.pretext = maskedThrough left ++ masked)
    (hmasked : StandsBehind left right masked behind) (hbegins : behind <+: right)
    (hexpr : StandsBehind left right d.expr expr)
    (hfragment : StandsBehind left right d.fragment fragment) :
    decompose (left ++ literal ++ right) =
      ⟨left ++ literal ++ behind, expr, d.lookup, d.padding, fragment⟩ := by
  have hkept : StandsForPart (left ++ literal ++ right) d.pretext (left ++ literal ++ behind) := by
    refine ⟨hpretext ▸ h.stands_through.append (h.stands_behind hmasked), ?_⟩
    exact ((List.prefix_append_right_inj _).2 hbegins).isInfix
  rw [decompose_eq_restoredBy, hd, Decomposition.restoredBy, hkept.restore_eq free,
    (h.standsForPart hexpr).restore_eq free, (h.standsForPart hfragment).restore_eq free]

/-- A literal in the pretext is all in it: the masked pretext goes on behind its placeholder. -/
theorem exists_pretext_eq (h : MaskedAt left literal right)
    (free : PlaceholderFree (left ++ literal ++ right))
    (hkept : left ++ literal <+: (decompose (left ++ literal ++ right)).pretext)
    {others : List (List Char)}
    (hpieces : (maskedParts (left ++ literal ++ right)).pretext ++ others.flatten =
      maskedThrough left ++ (maskedBehind left right).text)
    (hcut : ¬ CutsPlaceholder (maskedParts (left ++ literal ++ right)).pretext others.flatten) :
    ∃ masked, (maskedParts (left ++ literal ++ right)).pretext = maskedThrough left ++ masked ∧
      (maskedBehind left right).text = masked ++ others.flatten := by
  rcases List.append_eq_append_iff.1 hpieces with ⟨excess, hthrough, hothers⟩ | ⟨masked, hmasked⟩
  · -- What it ends before would stand for nothing, so it ends right behind the placeholder.
    have hcut' : ¬ CutsPlaceholder (maskedParts (left ++ literal ++ right)).pretext excess :=
      fun hc ↦ hcut (hc.of_prefix ⟨_, hothers.symm⟩)
    obtain ⟨before, after, hsplit, hbefore, hafter⟩ := (hthrough ▸ h.stands_through).split hcut'
    have hpretext : (decompose (left ++ literal ++ right)).pretext = before := by
      rw [decompose_eq_restoredBy]
      exact StandsForPart.restore_eq ⟨hbefore, ⟨[], after ++ right, by simp [hsplit]⟩⟩ free
    have hnil : after = [] := by
      rw [hpretext, hsplit] at hkept
      have hlength := hkept.length_le
      rw [List.length_append] at hlength
      exact List.eq_nil_of_length_eq_zero (by omega)
    obtain rfl : excess = [] := (hnil ▸ hafter).eq_nil (literals_ne_nil _)
    exact ⟨[], by simpa using hthrough.symm, by simpa using hothers.symm⟩
  · exact ⟨masked, hmasked⟩

/-- The parts of a line behind a literal in its pretext. -/
theorem exists_parts (h : MaskedAt left literal right)
    (free : PlaceholderFree (left ++ literal ++ right))
    (hkept : left ++ literal <+: (decompose (left ++ literal ++ right)).pretext) :
    ∃ masked behind expr fragment,
      (maskedParts (left ++ literal ++ right)).pretext = maskedThrough left ++ masked ∧
      behind <+: right ∧ StandsBehind left right masked behind ∧
      StandsBehind left right (maskedParts (left ++ literal ++ right)).expr expr ∧
      StandsBehind left right (maskedParts (left ++ literal ++ right)).fragment fragment := by
  obtain ⟨place, -, hdivides⟩ := exists_divides_maskedParts (left ++ literal ++ right)
  obtain ⟨others, horder, hexpr, hfragment⟩ := inOrder_eq_cons
    (maskedParts (left ++ literal ++ right)) place
  have hpieces := hdivides.flatten_eq
  have uncut := hdivides.uncut
  rw [horder] at hpieces uncut
  rw [List.flatten_cons, h.text_eq] at hpieces
  obtain ⟨masked, hpretext, hbehind⟩ := h.exists_pretext_eq free hkept hpieces uncut.1
  have hcut : ¬ CutsPlaceholder masked others.flatten := fun hc ↦
    uncut.1 (hc.of_suffix ⟨_, hpretext.symm⟩)
  have hstands := standsFor_maskFrom false ((mask left).literals.length + 1) right
  obtain ⟨behind, after, rfl, hmasked, hothers⟩ := (hbehind ▸ hstands).split hcut
  have hpart {piece : List Char} (hmem : piece ∈ others) :
      ∃ part, StandsBehind left (behind ++ after) piece part := by
    obtain ⟨part, hpart, hpiece⟩ := hothers.exists_part uncut.2 hmem
    exact ⟨part, hpiece, hpart.trans (List.suffix_append _ _).isInfix⟩
  obtain ⟨expr, hexpr⟩ := hpart hexpr
  obtain ⟨fragment, hfragment⟩ := hpart hfragment
  exact ⟨masked, behind, expr, fragment, hpretext, List.prefix_append _ _,
    ⟨hmasked, (List.prefix_append _ _).isInfix⟩, hexpr, hfragment⟩

end MaskedAt

end Literal

/-- **A line is taken apart in the same way with other contents in a literal of its pretext.** The
masked text is the same, and so are the parts, but for that literal in the pretext. -/
theorem decompose_with_contents {left literal literal' right : List Char}
    (free : PlaceholderFree (left ++ literal ++ right)) (h : MaskedAt left literal right)
    (hkept : left ++ literal <+: (decompose (left ++ literal ++ right)).pretext)
    (hother : OtherContents literal literal') :
    let line := left ++ literal ++ right
    let line' := left ++ literal' ++ right
    (mask line').text = (mask line).text ∧
      ∃ behind, (decompose line).pretext = left ++ literal ++ behind ∧
        decompose line' = { decompose line with pretext := left ++ literal' ++ behind } := by
  intro line line'
  have h' := h.with_contents hother
  have htext : (mask line').text = (mask line).text := h'.text_eq.trans h.text_eq.symm
  have hparts : maskedParts line' = maskedParts line := by
    rw [maskedParts, maskedParts, htext]
  obtain ⟨masked, behind, expr, fragment, hpretext, hbegins, hmasked, hexpr, hfragment⟩ :=
    h.exists_parts free hkept
  have hline := h.decompose_eq free rfl hpretext hmasked hbegins hexpr hfragment
  have hline' := h'.decompose_eq (hother.placeholderFree free) hparts hpretext hmasked hbegins hexpr
    hfragment
  refine ⟨htext, behind, by rw [hline], ?_⟩
  rw [hline, hline']

end LineCompletion
