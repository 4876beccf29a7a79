import LineCompletion.Proofs.Expression.Continuation
import LineCompletion.Proofs.Line.Masking

/-!
# String literals, masked and read

String literals are found twice, and in two ways. Masking looks for quotes anywhere in a line, and
passes over one behind a backslash and one that is not closed before the line ends. Reading an
expression knows where a literal may stand, takes any quote there, and lets a literal span lines.

On a text that is read to its end both find the same literals, unless one of them spans lines
(`literals_mask_eq_iff`). The grammar says why: between the literals of an expression there is
neither a quote nor a backslash (`Interleaves`), so masking comes to each opening quote with no
backslash before it, and the quote that closes the literal for one of them does for the other.

**The common shape.** `Interleaves` says of a list of literals and a text that the text is these
literals with other characters between them, none of which masking would look at. Spellings have
that shape by induction on the grammar (`Spells.interleaves`), where each rule joins texts and puts
code around them (`Interleaves.append`, `Interleaves.surround`). Masking a text of that shape takes
just the literals out (`Interleaves.masked`). Neither half knows of the other.

**Exactness.** If a literal of the expression spans lines, then masking does not find it, since no
literal that is masked has a newline in it (`newline_not_mem_of_mem_literals`). So the condition in
`literals_mask_eq_iff` is needed for every such text, and no better one is to be had. What masking
does find in such a text is not said.

**Which texts.** The theorem asks for a text that has a value. It is read to its end then, and that
is what the proof uses. A text that is still being typed is mostly not of this kind: its quotes may
be open, and there masking and reading differ for good reasons.
-/

namespace LineCompletion

open Text

/-! ### The literals of an expression -/

namespace Expr

mutual

/-- The string literals of an expression as they are spelled, quotes included, in the order in which
they are read. -/
def literals : Expr → List (List Char)
  | str quote body => [quote :: body ++ [quote]]
  | list items | tuple items => literalsAll items
  | group e => literals e
  | member e _ => literals e
  | subscript e key => literals e ++ literals key
  | call e args => literals e ++ literalsAll args
  | _ => []

/-- The string literals of expressions one after the other. -/
def literalsAll : List Expr → List (List Char)
  | [] => []
  | e :: rest => literals e ++ literalsAll rest

end

end Expr

/-! ### Literals with code between them -/

/-- A class of characters without quotes and without the backslash. -/
theorem unquoted_of_forall {p : Char → Bool}
    (hp : (p '\'' = false ∧ p '"' = false) ∧ p '\\' = false) {s : List Char}
    (h : ∀ c ∈ s, p c = true) : Unquoted s := by
  refine fun c hc ↦ ⟨quoteless_of_forall hp.1 h c hc, ?_⟩
  rintro rfl
  exact absurd (h _ hc) (by rw [hp.2]; simp)

/-- White space has no quotes and no backslashes in it. -/
theorem Blank.unquoted {s : List Char} (h : Blank s) : Unquoted s :=
  unquoted_of_forall (by decide) h

theorem unquoted_of_isNumberChar {s : List Char} (h : ∀ c ∈ s, isNumberChar c = true) :
    Unquoted s :=
  unquoted_of_forall (by decide) h

theorem unquoted_of_isNameChar {s : List Char} (h : ∀ c ∈ s, isNameChar c = true) :
    Unquoted s :=
  unquoted_of_forall (by decide) h

theorem unquoted_of_isName {s : List Char} (h : isName s = true) : Unquoted s := by
  obtain ⟨-, -, -, -, hchars⟩ := exists_cons_of_isName h
  exact unquoted_of_isNameChar hchars

/-- A text with these literals in it, one after the other, and nothing between them that looks like
the beginning of another. -/
inductive Interleaves : List (List Char) → List Char → Prop
  /-- Nothing. -/
  | nil : Interleaves [] []
  /-- A character between literals. -/
  | char {c : Char} {literals : List (List Char)} {s : List Char}
      (hc : isQuote c = false ∧ c ≠ '\\') (rest : Interleaves literals s) :
      Interleaves literals (c :: s)
  /-- A literal. -/
  | literal {quote : Char} {body : List Char} {literals : List (List Char)} {s : List Char}
      (hquote : isQuote quote = true) (hbody : Body quote body) (rest : Interleaves literals s) :
      Interleaves ((quote :: body ++ [quote]) :: literals) (quote :: body ++ [quote] ++ s)

namespace Interleaves

variable {literals more : List (List Char)} {s t : List Char}

/-- Two texts with literals in them have the literals of both, one after the other. -/
theorem append (h : Interleaves literals s) (ht : Interleaves more t) :
    Interleaves (literals ++ more) (s ++ t) := by
  induction h with
  | nil => exact ht
  | char hc rest ih => exact .char hc ih
  | literal hquote hbody rest ih =>
    rw [List.append_assoc]
    exact .literal hquote hbody ih

/-- A text without quotes and backslashes has no literals in it. -/
theorem of_unquoted (h : Unquoted s) : Interleaves [] s := by
  induction s with
  | nil => exact .nil
  | cons c s ih =>
    obtain ⟨hc, hs⟩ := List.forall_mem_cons.1 h
    exact .char hc (ih hs)

/-- Code around a text adds no literal to it. -/
theorem surround {before after : List Char} (hbefore : Unquoted before)
    (h : Interleaves literals s) (hafter : Unquoted after) :
    Interleaves literals (before ++ s ++ after) := by
  simpa using ((of_unquoted hbefore).append h).append (of_unquoted hafter)

/-- Each literal is a part of the text. -/
theorem infix_of_mem {literal : List Char} (h : Interleaves literals s)
    (hmem : literal ∈ literals) : literal <:+: s := by
  induction h with
  | nil => exact absurd hmem List.not_mem_nil
  | char hc rest ih => exact (ih hmem).trans (List.suffix_cons _ _).isInfix
  | literal hquote hbody rest ih =>
    rcases List.mem_cons.1 hmem with rfl | hmem
    · exact (List.prefix_append _ _).isInfix
    · exact (ih hmem).trans (List.suffix_append _ _).isInfix

/-- Masking finds the literals of such a text and leaves no quote over, if each is on one line. -/
theorem masked (h : Interleaves literals s) (hline : ∀ literal ∈ literals, '\n' ∉ literal)
    (index : Nat) :
    (maskFrom false index s).literals = literals ∧ Quoteless (maskFrom false index s).text := by
  induction h generalizing index with
  | nil =>
    rw [maskFrom_nil]
    exact ⟨rfl, fun c hc ↦ absurd hc List.not_mem_nil⟩
  | @char c literals s hc rest ih =>
    obtain ⟨hliterals, hquoteless⟩ := ih hline index
    have hslash : (c == '\\') = false := beq_false_of_ne hc.2
    rw [maskFrom_char (.inr (leadingLiteral?_of_not_isQuote hc.1 s)), hslash]
    exact ⟨hliterals, quoteless_cons.2 ⟨hc.1, hquoteless⟩⟩
  | @literal quote body literals s hquote hbody rest ih =>
    obtain ⟨hfirst, hothers⟩ := List.forall_mem_cons.1 hline
    obtain ⟨hliterals, hquoteless⟩ := ih hothers (index + 1)
    have hbodyline : '\n' ∉ body := fun hmem ↦ hfirst (by simp [hmem])
    have hleading : leadingLiteral? (quote :: body ++ [quote] ++ s) =
        some (quote :: body ++ [quote], s) :=
      leadingLiteral?_eq_some_iff.2 ⟨quote, body, hquote, hbody, hbodyline, rfl, rfl⟩
    rw [maskFrom_literal hleading]
    exact ⟨congrArg _ hliterals, quoteless_append.2 ⟨quoteless_placeholder index, hquoteless⟩⟩

end Interleaves

/-! ### Spellings -/

theorem WholePart.unquoted {negative : Bool} {s : List Char} (whole : WholePart negative s) :
    Unquoted s :=
  unquoted_of_isNumberChar whole.chars

/-- A sign adds no quote. -/
theorem unquoted_signed {negative : Bool} {s : List Char} (hs : Unquoted s) :
    Unquoted (signed negative s) := by
  cases negative with
  | true => exact .cons (by decide) hs
  | false => exact hs

mutual

/-- A spelling is the literals of its expression with code between them. -/
theorem Spells.interleaves {e : Expr} {s : List Char} (h : Spells e s) :
    Interleaves e.literals s := by
  cases h with
  | constant h =>
    have hplain : Unquoted s := unquoted_of_isName (isName_of_mem_constants h)
    simp only [constants, List.mem_cons, Prod.mk.injEq, List.not_mem_nil, or_false] at h
    rcases h with ⟨-, rfl⟩ | ⟨-, rfl⟩ | ⟨-, rfl⟩ <;> exact .of_unquoted hplain
  | int whole hdigits hvalue => exact .of_unquoted (unquoted_signed whole.unquoted)
  | float whole fraction =>
    exact .of_unquoted (unquoted_signed (whole.unquoted.append
      ((unquoted_of_isNumberChar fraction.chars).cons (by decide))))
  | @str quote body hquote hbody =>
    show Interleaves [quote :: body ++ [quote]] _
    simpa using Interleaves.literal hquote hbody .nil
  | name hname hconstant => exact .of_unquoted (unquoted_of_isName hname)
  | @group e s before after hbefore he hafter =>
    show Interleaves e.literals _
    simpa using he.interleaves.surround (hbefore.unquoted.cons (by decide))
      (hafter.unquoted.append (by decide : Unquoted [')']))
  | list hitems => exact hitems.interleaves.surround (by decide : Unquoted ['[']) (by decide)
  | tuple hitems => exact hitems.interleaves.surround (by decide : Unquoted ['(']) (by decide)
  | @member e s before after name he hbefore hafter hname =>
    have hstep : Unquoted (before ++ '.' :: (after ++ name)) :=
      hbefore.unquoted.append
        ((hafter.unquoted.append (unquoted_of_isNameChar hname.chars)).cons (by decide))
    show Interleaves e.literals _
    simpa using he.interleaves.append (.of_unquoted hstep)
  | @subscript e key s gap before t after he hgap hbefore hkey hafter =>
    have hopen : Unquoted (gap ++ '[' :: before) :=
      hgap.unquoted.append (hbefore.unquoted.cons (by decide))
    have hclose : Unquoted (after ++ [']']) := hafter.unquoted.append (by decide)
    show Interleaves (e.literals ++ key.literals) _
    simpa using he.interleaves.append (hkey.interleaves.surround hopen hclose)
  | @call e args ended s gap t he hgap hargs =>
    have hopen : Unquoted (gap ++ ['(']) := hgap.unquoted.append (by decide)
    have hclose : Unquoted [')'] := by decide
    show Interleaves (e.literals ++ Expr.literalsAll args) _
    simpa using he.interleaves.append (hargs.interleaves.surround hopen hclose)

/-- The spelling of items is the literals of all of them with code between them. -/
theorem SpellsItems.interleaves {items : List Expr} {ended : Bool} {s : List Char}
    (h : SpellsItems items ended s) : Interleaves (Expr.literalsAll items) s := by
  cases h with
  | nil hbefore => exact .of_unquoted hbefore.unquoted
  | @single e s before after hbefore he hafter =>
    show Interleaves (e.literals ++ []) _
    rw [List.append_nil]
    exact he.interleaves.surround hbefore.unquoted hafter.unquoted
  | @cons e items ended s before after t hbefore he hafter hitems =>
    have hcomma : Unquoted (after ++ [',']) := hafter.unquoted.append (by decide)
    show Interleaves (e.literals ++ Expr.literalsAll items) _
    simpa using (he.interleaves.surround hbefore.unquoted hcomma).append hitems.interleaves

end

/-! ### Masked and read -/

/-- No literal that is masked spans lines. -/
theorem newline_not_mem_of_mem_literals {escaped : Bool} {index : Nat} {s literal : List Char}
    (h : literal ∈ (maskFrom escaped index s).literals) : '\n' ∉ literal := by
  fun_induction maskFrom escaped index s with
  | case1 => exact absurd h List.not_mem_nil
  | case2 escaped index c rest first after hleading masked ih =>
    rcases List.mem_cons.1 h with rfl | h
    · obtain ⟨-, hleading⟩ := eq_false_and_of_masked hleading
      obtain ⟨quote, body, hquote, -, hline, rfl, -⟩ := leadingLiteral?_eq_some_iff.1 hleading
      simp [hline, (ne_of_isQuote hquote rfl : quote ≠ '\n').symm]
    · exact ih h
  | case3 escaped index c rest hleading masked ih => exact ih h

/-- **Masking and reading find the same literals.** Where a text has a value, it has been read to
its end, and the literals that were read are those that masking finds, in the same order, unless one
of them spans lines. So they are on a text without a newline, and masking leaves no quote of it
over. -/
theorem literals_mask_eq_iff {host : Host} {ns : Namespace} {text : List Char} {v : Value}
    (h : Evaluator.standard host (String.ofList text) ns = .ok v) :
    ∃ e, readExpr text = .ok e ∧ e.eval host ns = .ok v ∧
      ((mask text).literals = e.literals ↔ ∀ literal ∈ e.literals, '\n' ∉ literal) ∧
      ('\n' ∉ text → (mask text).literals = e.literals ∧ Quoteless (mask text).text) := by
  obtain ⟨e, hread, hv⟩ := evaluate_eq_ok_iff.1 h
  obtain ⟨-, before, t, after, rfl, hbefore, ht, hafter⟩ := readExpr_eq_ok_iff.1 hread
  have hinterleaves : Interleaves e.literals (before ++ t ++ after) :=
    ht.interleaves.surround hbefore.unquoted hafter.unquoted
  refine ⟨e, hread, hv, ⟨fun heq literal hmem ↦ ?_, fun hline ↦ (hinterleaves.masked hline 0).1⟩,
    fun hline ↦ hinterleaves.masked (fun literal hmem hnewline ↦ hline ?_) 0⟩
  · rw [← heq] at hmem
    exact newline_not_mem_of_mem_literals hmem
  · exact (hinterleaves.infix_of_mem hmem).subset hnewline

/-- Either quote inside the other, and backslashes before a quote and before the last one. -/
theorem literals_mask_of_nested_quotes :
    let text := "['it\\'s', \"\\\"a'\\\\\"]".toList
    let v := Value.list [.str "it's", .str "\"a'\\"]
    Evaluator.standard Host.bare (String.ofList text) Namespace.empty = .ok v ∧ '\n' ∉ text ∧
      (mask text).literals = ["'it\\'s'".toList, "\"\\\"a'\\\\\"".toList] ∧
      Quoteless (mask text).text := by
  intro text v
  let first := "it\\'s".toList
  let second := "\\\"a'\\\\".toList
  let e := Expr.list [.str '\'' first, .str '"' second]
  have hfirst : splitBody? '\'' true (first ++ ['\'']) = some (first, []) := by decide
  have hsecond : splitBody? '"' true (second ++ ['"']) = some (second, []) := by decide
  have hblank : Blank [' '] := by decide
  have hspells : Spells e text :=
    .list (.cons blank_nil (.str rfl (body_of_splitBody? hfirst).1) blank_nil
      (.single hblank (.str rfl (body_of_splitBody? hsecond).1) blank_nil))
  have hread : readExpr text = .ok e :=
    readExpr_of_spells hspells (by decide) blank_nil blank_nil
  have hv : Evaluator.standard Host.bare (String.ofList text) Namespace.empty = .ok v := by
    rw [evaluate_of_readExpr hread]
    rfl
  have hline : '\n' ∉ text := by decide
  obtain ⟨e', hread', -, -, hmasked⟩ := literals_mask_eq_iff hv
  obtain rfl : e = e' := Except.ok.inj (hread.symm.trans hread')
  obtain ⟨hliterals, hquoteless⟩ := hmasked hline
  exact ⟨hv, hline, hliterals, hquoteless⟩

end LineCompletion
