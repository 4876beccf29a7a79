import LineCompletion.Text.Literal

/-!
# Where a literal ends

What may stand between the quotes of a literal is said apart from any search for its end (`Body`).
The search for a closing quote finds the one behind a body, and nothing else
(`splitBody?_eq_some_iff`). So what is shown of a literal that was found is an induction on its
body, and only a search that may find nothing has to be followed step by step.

**Bodies.** A body is made of characters that stand for themselves and of backslashes, each with the
character that it takes along. Its quote can be inside only behind a backslash. This is all that the
masking of a line and the reading of an expression have to know in common about literals. What an
escape stands for is a question for evaluation and is answered there.

**Lines.** Reading an expression takes a literal across line breaks, and masking a line takes it up
to the end of its line only. Both are the same search with a switch, `spansLines`. The condition
that the switch puts on a body is the same for a whole body and for its parts
(`stays_cons_iff`), so one induction serves both.

**What is not said.** A search that fails says nothing about the text but that no body and quote are
at its start. There may be a closing quote further on, behind a line break or a backslash too many.
-/

namespace LineCompletion

open Text

/-- A quote is none of the characters that are not quotes. -/
theorem ne_of_isQuote {c d : Char} (hc : isQuote c = true) (hd : isQuote d = false) : c ≠ d := by
  rintro rfl
  exact absurd hc (by rw [hd]; simp)

/-- What may stand between the quotes of a literal: a backslash takes the next character along, and
the quote itself comes only behind one. -/
inductive Body (quote : Char) : List Char → Prop
  /-- Nothing. -/
  | nil : Body quote []
  /-- A character that stands for itself. -/
  | plain {c : Char} {rest : List Char} (hquote : c ≠ quote) (hslash : c ≠ '\\')
      (hrest : Body quote rest) : Body quote (c :: rest)
  /-- A backslash with what it takes along. -/
  | escape {c : Char} {rest : List Char} (hrest : Body quote rest) : Body quote ('\\' :: c :: rest)

/-- A text without that quote and without backslashes is a body as it is. -/
theorem body_of_not_mem {quote : Char} {s : List Char} (hquote : quote ∉ s) (hslash : '\\' ∉ s) :
    Body quote s := by
  induction s with
  | nil => exact .nil
  | cons c s ih =>
    obtain ⟨hc, hquote⟩ := List.ne_and_not_mem_of_not_mem_cons hquote
    obtain ⟨hd, hslash⟩ := List.ne_and_not_mem_of_not_mem_cons hslash
    exact .plain hc.symm hd.symm (ih hquote hslash)

/-- One step of the search, at a character that is no backslash. -/
theorem splitBody?_cons_of_ne {c : Char} (h : c ≠ '\\') (quote : Char) (spansLines : Bool)
    (rest : List Char) :
    splitBody? quote spansLines (c :: rest) =
      if c = quote then some ([], rest)
      else if c = '\n' && !spansLines then none
      else (splitBody? quote spansLines rest).map fun (body, after) ↦ (c :: body, after) := by
  rw [splitBody?]
  exact fun _ _ hc _ ↦ h hc

/-- A text stays on its line, if it has to, when the first character and all the others do. -/
theorem stays_cons_iff {spansLines : Bool} {c : Char} {s : List Char} :
    (spansLines = true ∨ '\n' ∉ c :: s) ↔
      ¬ (c = '\n' && !spansLines) = true ∧ (spansLines = true ∨ '\n' ∉ s) := by
  cases spansLines with
  | true => simp
  | false => simp [eq_comm]

/-- The body of a literal is read up to its closing quote, whatever follows. Where literals may not
span lines, it is as long as the body does not. -/
theorem splitBody?_append {quote : Char} {spansLines : Bool} {body : List Char}
    (hquote : isQuote quote = true) (h : Body quote body)
    (hline : spansLines = true ∨ '\n' ∉ body) (rest : List Char) :
    splitBody? quote spansLines (body ++ quote :: rest) = some (body, rest) := by
  induction h with
  | nil => rw [List.nil_append, splitBody?_cons_of_ne (ne_of_isQuote hquote rfl), if_pos rfl]
  | plain hne hslash _ ih =>
    obtain ⟨hstays, hline⟩ := stays_cons_iff.1 hline
    rw [List.cons_append, splitBody?_cons_of_ne hslash, if_neg hne, if_neg hstays, ih hline]
    rfl
  | escape _ ih =>
    obtain ⟨hstays, hline⟩ := stays_cons_iff.1 (stays_cons_iff.1 hline).2
    rw [List.cons_append, List.cons_append, splitBody?, if_neg hstays, ih hline]
    rfl

/-- What is found in front of a closing quote is a body, on one line if it has to be. -/
theorem body_of_splitBody? {quote : Char} {spansLines : Bool} {s body after : List Char}
    (h : splitBody? quote spansLines s = some (body, after)) :
    Body quote body ∧ (spansLines = true ∨ '\n' ∉ body) := by
  fun_induction splitBody? quote spansLines s generalizing body after with
  | case1 => exact absurd h (by simp)
  | case2 => exact absurd h (by simp)
  | case3 escaped rest hstays ih =>
    obtain ⟨⟨b, a⟩, hba, heq⟩ := Option.map_eq_some_iff.1 h
    obtain ⟨rfl, rfl⟩ := Prod.mk.inj heq
    obtain ⟨hbody, hline⟩ := ih hba
    exact ⟨.escape hbody, stays_cons_iff.2 ⟨by simp, stays_cons_iff.2 ⟨hstays, hline⟩⟩⟩
  | case4 =>
    obtain ⟨rfl, -⟩ := Prod.mk.inj (Option.some.inj h)
    exact ⟨.nil, .inr List.not_mem_nil⟩
  | case5 => exact absurd h (by simp)
  | case6 c rest hpair hne hstays ih =>
    obtain ⟨⟨b, a⟩, hba, heq⟩ := Option.map_eq_some_iff.1 h
    obtain ⟨rfl, rfl⟩ := Prod.mk.inj heq
    obtain ⟨hbody, hline⟩ := ih hba
    refine ⟨.plain hne (ne_backslash_of_unpaired hpair ?_) hbody, stays_cons_iff.2 ⟨hstays, hline⟩⟩
    -- A backslash here would be the last character, and a literal does not end in one.
    rintro rfl
    exact absurd hba (by simp [splitBody?])

/-- **The search for a closing quote finds bodies**, all of them, and nothing else. -/
theorem splitBody?_eq_some_iff {quote : Char} (hquote : isQuote quote = true) {spansLines : Bool}
    {s body after : List Char} :
    splitBody? quote spansLines s = some (body, after) ↔
      Body quote body ∧ (spansLines = true ∨ '\n' ∉ body) ∧ s = body ++ quote :: after := by
  constructor
  · intro h
    obtain ⟨hbody, hline⟩ := body_of_splitBody? h
    exact ⟨hbody, hline, eq_append_of_splitBody? h⟩
  · rintro ⟨hbody, hline, rfl⟩
    exact splitBody?_append hquote hbody hline after

end LineCompletion
