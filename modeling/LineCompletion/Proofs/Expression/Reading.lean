import LineCompletion.Proofs.Expression.Spelling

/-!
# Reading what is spelled

Every spelling of an expression is read as that expression, whatever follows it, as long as nothing
that follows could belong to its last token (`Follows`). Members, subscripts and calls come after an
expression, so what is shown for a spelling is not that reading ends behind it, but that reading
comes to the steps behind it (`Reads`): this is what one step hands over to the next, and at the end
of the text, a comma or a closing bracket, it is all there is to read.

The induction is on the spelling. The depth a reader still has goes down by one inside brackets, as
the nesting of what they hold does.

**Why it is stated with steps.** The grammar takes the last step of a chain off first: the spelling
of `a.b[c]` is one of `a.b` with a subscript behind it. The reader takes the first part first and
then reads the steps in a row. In `Reads` the two meet. A spelling of `a.b` is read up to its end
and the steps behind it are still to come, and with the bracket behind it the next of them is read.
No lemma has to turn a chain around.

**What may follow.** A name goes on as long as characters of names follow, a number also across a
point with a digit behind it, and strings and brackets end by themselves. `Follows` asks for the
conditions of all tokens at once. White space, closing brackets, commas and the beginnings of steps
all meet them, and that is all that ever follows an expression in a spelling (`follows_step`,
`follows_member`).

**One lemma for each equation of the readers.** The lemmas on single items, steps and first parts
have what was read before as hypotheses and one equation as their conclusion. The proof of
`Spells.reads` then has a case for each rule of the grammar, in which white space is skipped, the
inner spellings are read and one of these lemmas is applied.

**What follows from it.** No text spells two expressions (`Spells.unique`), since it is read as both
of them. And a spelling with a closing bracket behind it is complete before that bracket is found to
be one too many (`readExpr_append_close`).
-/

namespace LineCompletion

open Text

/-! ### Tokens -/

/-- White space is skipped up to a spelling. -/
theorem trimStart_append {w s : List Char} (hw : Blank w) (hs : ∃ c ∈ s.head?, Opens c)
    (rest : List Char) : trimStart (w ++ (s ++ rest)) = s ++ rest := by
  obtain ⟨c, hc, hopens⟩ := head_append hs
  refine dropWhile_append_of_stop hw fun d hd ↦ ?_
  obtain rfl : c = d := Option.some.inj (hc.symm.trans hd)
  exact hopens.notBlank

/-- White space is skipped up to a character that is none. -/
theorem trimStart_append_cons {w : List Char} (hw : Blank w) {c : Char} (hc : isBlank c = false)
    (rest : List Char) : trimStart (w ++ c :: rest) = c :: rest :=
  dropWhile_append_of_stop hw fun _ hd ↦ Option.some.inj hd ▸ hc

theorem blank_nil : Blank [] := fun _ hc ↦ absurd hc List.not_mem_nil

/-- White space alone is skipped to the end. -/
theorem trimStart_of_blank {w : List Char} (hw : Blank w) : trimStart w = [] :=
  List.dropWhile_eq_nil_iff.2 hw

/-- What may follow a token: nothing that it could go on with. A point belongs to a number before it
when a digit comes after the point. -/
structure Follows (rest : List Char) : Prop where
  /-- A name would go on. -/
  name : ∀ c ∈ rest.head?, isNameChar c = false
  /-- A number would go on. -/
  point : ∀ c after, rest = '.' :: c :: after → c.isDigit = false

/-- What cannot stand in a name cannot stand in a number. -/
theorem isNumberChar_eq_false {c : Char} (h : isNameChar c = false) : isNumberChar c = false := by
  refine Bool.eq_false_iff.2 fun hc ↦ ?_
  rw [isNumberChar, Bool.or_eq_true, beq_iff_eq] at hc
  rcases hc with hdigit | rfl
  · exact absurd (isNameChar_of_isDigit hdigit).1 (by rw [h]; simp)
  · exact absurd h (by decide)

/-- Any token ends before a character that is no point and in no name. -/
theorem follows_of_head {c : Char} (hc : isNameChar c = false) (hpoint : c ≠ '.')
    (rest : List Char) : Follows (c :: rest) where
  name _ hd := Option.some.inj hd ▸ hc
  point _ _ h := absurd (List.cons.inj h).1 hpoint

/-- Any token ends at the end of the text. -/
theorem follows_nil : Follows [] where
  name _ hc := absurd hc (by simp)
  point _ _ h := absurd h (by simp)

/-- White space is no part of a token. -/
theorem Follows.blank_append {w rest : List Char} (hw : Blank w) (hrest : Follows rest) :
    Follows (w ++ rest) := by
  cases w with
  | nil => exact hrest
  | cons c w =>
    have hblank : isBlank c = true := hw c List.mem_cons_self
    refine follows_of_head (isNameChar_of_isBlank hblank) ?_ _
    rintro rfl
    exact absurd hblank (by decide)

/-! ### Names and literals -/

/-- The name of a constant is read as the constant. -/
theorem readName_constant {e : Expr} {s rest : List Char} (h : (s, e) ∈ constants)
    (hrest : Follows rest) : readName (s ++ rest) = (e, rest) := by
  obtain ⟨-, -, -, -, hchars⟩ := exists_cons_of_isName (isName_of_mem_constants h)
  rw [readName, takeWhile_append_of_stop hchars hrest.name,
    dropWhile_append_of_stop hchars hrest.name]
  simp only [constants, List.mem_cons, Prod.mk.injEq, List.not_mem_nil, or_false] at h
  rcases h with ⟨rfl, rfl⟩ | ⟨rfl, rfl⟩ | ⟨rfl, rfl⟩ <;> rfl

/-- Any other name is read as a name. -/
theorem readName_name {s rest : List Char} (hname : isName s = true)
    (hconstant : s ∉ constants.map Prod.fst) (hrest : Follows rest) :
    readName (s ++ rest) = (.name (String.ofList s), rest) := by
  obtain ⟨-, -, -, -, hchars⟩ := exists_cons_of_isName hname
  have hne : ∀ n : String, n.toList ∈ constants.map Prod.fst → String.ofList s ≠ n := by
    rintro n hn rfl
    exact hconstant (by rwa [String.toList_ofList] at hn)
  rw [readName, takeWhile_append_of_stop hchars hrest.name,
    dropWhile_append_of_stop hchars hrest.name]
  have hnone : String.ofList s ≠ "None" := hne _ (by simp [constants])
  have htrue : String.ofList s ≠ "True" := hne _ (by simp [constants])
  have hfalse : String.ofList s ≠ "False" := hne _ (by simp [constants])
  split
  · exact absurd ‹_› hnone
  · exact absurd ‹_› htrue
  · exact absurd ‹_› hfalse
  · rfl

/-- The name of a member is read up to its end. -/
theorem readIdentifier_append {s rest : List Char} (hname : MemberName s) (hrest : Follows rest) :
    readIdentifier (s ++ rest) = .ok (String.ofList s, rest) := by
  obtain ⟨c, hc, hdigit⟩ := hname.head
  obtain ⟨t, rfl⟩ := List.head?_eq_some_iff.1 hc
  rw [readIdentifier, takeWhile_append_of_stop hname.chars hrest.name,
    dropWhile_append_of_stop hname.chars hrest.name]
  simp [hdigit]

/-- The integers that digits spell are those that reading them gives. -/
theorem integer_eq_ok {negative : Bool} {digits : List Char} {i : Int64} (hdigits : digits ≠ [])
    (hvalue : i.toInt = if negative then -(Number.ofDigits digits : Int)
      else (Number.ofDigits digits : Int)) : Number.integer negative digits = .ok i := by
  have hlt := i.toInt_lt
  have hle := i.le_toInt
  have hbound : (Number.integerBound : Int) = 2 ^ 63 := rfl
  rw [Number.integer, if_neg (by rwa [List.isEmpty_iff])]
  dsimp only
  cases negative with
  | true =>
    rw [if_pos rfl] at hvalue
    rw [if_pos rfl, if_pos (by omega), ← hvalue, Int64.ofInt_toInt]
  | false =>
    rw [if_neg (by simp)] at hvalue
    rw [if_neg (by simp), if_pos (by omega), ← hvalue, Int64.ofInt_toInt]

/-- A number without a fraction is read as an integer. -/
theorem readNumber_int {negative : Bool} {s rest : List Char} {i : Int64}
    (whole : WholePart negative s) (hdigits : digitsOf s ≠ [])
    (hvalue : i.toInt = if negative then -(Number.ofDigits (digitsOf s) : Int)
      else (Number.ofDigits (digitsOf s) : Int)) (hrest : Follows rest) :
    readNumber negative (s ++ rest) = .ok (.int i, rest) := by
  have hstop : ∀ c ∈ rest.head?, isNumberChar c = false := fun c hc ↦
    isNumberChar_eq_false (hrest.name c hc)
  have hinteger : Number.integer negative (s.filter Char.isDigit) = .ok i :=
    integer_eq_ok hdigits hvalue
  rw [readNumber, takeWhile_append_of_stop whole.chars hstop,
    dropWhile_append_of_stop whole.chars hstop]
  dsimp only
  rw [hinteger]
  split
  · rename_i after
    -- The point belongs to the number only before a digit, and none follows it here.
    have hpoint : after.head?.any Char.isDigit = false := by
      cases after with
      | nil => rfl
      | cons c after => exact hrest.point c after rfl
    rw [hpoint]
    rfl
  · rfl

/-- A number with a fraction is read as a floating-point number. -/
theorem readNumber_float {negative : Bool} {s t rest : List Char} (whole : WholePart negative s)
    (fraction : Fraction t) (hrest : Follows rest) :
    readNumber negative (s ++ '.' :: t ++ rest) =
      .ok (.float (Binary64.ofDecimal negative (Number.ofDigits (digitsOf s ++ digitsOf t))
        (-(digitsOf t).length)), rest) := by
  have hstop : ∀ c ∈ rest.head?, isNumberChar c = false := fun c hc ↦
    isNumberChar_eq_false (hrest.name c hc)
  have hpoint : ∀ c ∈ ('.' :: (t ++ rest)).head?, isNumberChar c = false := fun c hc ↦
    Option.some.inj hc ▸ by decide
  have hdigit : (t ++ rest).head?.any Char.isDigit = true := by
    obtain ⟨c, hc, hdigit⟩ : ∃ c ∈ (t ++ rest).head?, c.isDigit = true := head_append fraction.head
    rw [Option.mem_def.1 hc, Option.any_some, hdigit]
  rw [List.append_assoc, List.cons_append, readNumber, takeWhile_append_of_stop whole.chars hpoint,
    dropWhile_append_of_stop whole.chars hpoint]
  show (if (t ++ rest).head?.any Char.isDigit then _ else _ : Read Expr) = _
  rw [if_pos hdigit, takeWhile_append_of_stop fraction.chars hstop,
    dropWhile_append_of_stop fraction.chars hstop]
  rfl

/-- A literal is read up to its closing quote. -/
theorem readString_append {quote : Char} {body : List Char} (hquote : isQuote quote = true)
    (h : Body quote body) (rest : List Char) :
    readString quote (body ++ quote :: rest) = .ok (.str quote body, rest) := by
  rw [readString, splitBody?_append hquote h (.inl rfl)]

/-! ### One item, one step -/

section Steps

variable {inner : ExprReader} {close : Char} {e : Expr} {s rest more : List Char}

/-- Items end at their closing bracket. -/
theorem readItems_close (h : trimStart s = close :: rest) :
    readItems inner close s = .ok (([], true), rest) := by
  rw [readItems, if_pos (by rw [h]; rfl), h]
  rfl

/-- An item may be the last without a comma behind it. -/
theorem readItems_single (hopen : (trimStart s).head? ≠ some close)
    (hrun : inner.run (trimStart s) = .ok (e, rest)) (hclose : trimStart rest = close :: more)
    (hcomma : close ≠ ',') : readItems inner close s = .ok (([e], false), more) := by
  rw [readItems, if_neg hopen]
  split
  · rename_i heq
    exact absurd (hrun.symm.trans heq) (by simp)
  · rename_i heq
    obtain ⟨rfl, rfl⟩ := Prod.mk.inj (Except.ok.inj (hrun.symm.trans heq))
    split
    · rename_i hmore
      exact absurd (List.cons.inj (hclose.symm.trans hmore)).1 hcomma
    · rw [hclose, if_pos List.head?_cons]
      rfl

/-- Behind a comma the other items are read. -/
theorem readItems_comma {items : List Expr} {ended : Bool} {left : List Char}
    (hopen : (trimStart s).head? ≠ some close) (hrun : inner.run (trimStart s) = .ok (e, rest))
    (hcomma : trimStart rest = ',' :: more)
    (hmore : readItems inner close more = .ok ((items, ended), left)) :
    readItems inner close s = .ok ((e :: items, ended), left) := by
  rw [readItems, if_neg hopen]
  split
  · rename_i heq
    exact absurd (hrun.symm.trans heq) (by simp)
  · rename_i heq
    obtain ⟨rfl, rfl⟩ := Prod.mk.inj (Except.ok.inj (hrun.symm.trans heq))
    split
    · rename_i hmore'
      obtain ⟨-, rfl⟩ := List.cons.inj (hcomma.symm.trans hmore')
      rw [hmore]
    · rename_i hother
      exact absurd hcomma (hother more)

/-- A member is a step. -/
theorem readSteps_member {name : String} (h : trimStart s = '.' :: rest)
    (hname : readIdentifier (trimStart rest) = .ok (name, more)) :
    readSteps inner e s = readSteps inner (.member e name) more := by
  rw [readSteps]
  split
  · rename_i heq
    obtain ⟨-, rfl⟩ := List.cons.inj (h.symm.trans heq)
    split <;> rename_i hread <;> rw [hname] at hread
    · exact absurd hread (by simp)
    · obtain ⟨rfl, rfl⟩ := Prod.mk.inj (Except.ok.inj hread)
      rfl
  · exact absurd (List.cons.inj (h.symm.trans ‹_›)).1 (by decide)
  · exact absurd (List.cons.inj (h.symm.trans ‹_›)).1 (by decide)
  · rename_i hdot _ _
    exact absurd h (hdot rest)

/-- A subscript is a step. -/
theorem readSteps_subscript {key : Expr} {left : List Char} (h : trimStart s = '[' :: rest)
    (hrun : inner.run rest = .ok (key, left)) (hclose : trimStart left = ']' :: more) :
    readSteps inner e s = readSteps inner (.subscript e key) more := by
  rw [readSteps]
  split
  · exact absurd (List.cons.inj (h.symm.trans ‹_›)).1 (by decide)
  · rename_i heq
    obtain ⟨-, rfl⟩ := List.cons.inj (h.symm.trans heq)
    split <;> rename_i hread <;> rw [hrun] at hread
    · exact absurd hread (by simp)
    · obtain ⟨rfl, rfl⟩ := Prod.mk.inj (Except.ok.inj hread)
      split
      · rename_i hmore
        obtain ⟨-, rfl⟩ := List.cons.inj (hclose.symm.trans hmore)
        rfl
      · rename_i hother
        exact absurd hclose (hother more)
  · exact absurd (List.cons.inj (h.symm.trans ‹_›)).1 (by decide)
  · rename_i _ hbracket _
    exact absurd h (hbracket rest)

/-- A call is a step. -/
theorem readSteps_call {args : List Expr} {ended : Bool} (h : trimStart s = '(' :: rest)
    (hargs : readItems inner ')' rest = .ok ((args, ended), more)) :
    readSteps inner e s = readSteps inner (.call e args) more := by
  rw [readSteps]
  split
  · exact absurd (List.cons.inj (h.symm.trans ‹_›)).1 (by decide)
  · exact absurd (List.cons.inj (h.symm.trans ‹_›)).1 (by decide)
  · rename_i heq
    obtain ⟨-, rfl⟩ := List.cons.inj (h.symm.trans heq)
    split <;> rename_i hread <;> rw [hargs] at hread
    · exact absurd hread (by simp)
    · obtain ⟨hitems, rfl⟩ := Prod.mk.inj (Except.ok.inj hread)
      obtain ⟨rfl, -⟩ := Prod.mk.inj hitems
      rfl
  · rename_i _ _ hcall
    exact absurd h (hcall rest)

/-- Reading comes to an end where no step begins. -/
theorem readSteps_stop (h : ∀ c ∈ (trimStart s).head?, c ≠ '.' ∧ c ≠ '[' ∧ c ≠ '(') :
    readSteps inner e s = .ok (e, trimStart s) := by
  rw [readSteps]
  split <;> rename_i heq
  · exact absurd rfl (h _ (by rw [heq]; rfl)).1
  · exact absurd rfl (h _ (by rw [heq]; rfl)).2.1
  · exact absurd rfl (h _ (by rw [heq]; rfl)).2.2
  · rfl

theorem readPrimary_name {c : Char} (h : trimStart s = c :: rest) (hc : isNameStart c = true) :
    readPrimary inner s = .ok (readName (c :: rest)) := by
  rw [readPrimary, h]
  exact if_pos hc

/-- An expression that begins with a sign or a digit begins with a number. -/
theorem readPrimary_signed {negative : Bool} (h : trimStart s = signed negative rest)
    (hhead : negative = false → ∃ c ∈ rest.head?, c.isDigit = true) :
    readPrimary inner s = readNumber negative rest := by
  cases negative with
  | true =>
    rw [readPrimary, h]
    rfl
  | false =>
    obtain ⟨c, hc, hdigit⟩ := hhead rfl
    obtain ⟨rest, rfl⟩ := List.head?_eq_some_iff.1 hc
    rw [readPrimary, h]
    show (if isNameStart c then _ else if c.isDigit then _ else _ : Read Expr) = _
    rw [(isNameChar_of_isDigit hdigit).2, hdigit]
    rfl

theorem readPrimary_string {quote : Char} (h : trimStart s = quote :: rest)
    (hquote : isQuote quote = true) : readPrimary inner s = readString quote rest := by
  rw [readPrimary, h]
  rcases isQuote_iff.1 hquote with rfl | rfl <;> rfl

theorem readPrimary_round (h : trimStart s = '(' :: rest) :
    readPrimary inner s =
      match readItems inner ')' rest with
      | .error stuck => .error stuck
      | .ok (([e], false), rest) => .ok (.group e, rest)
      | .ok ((items, _), rest) => .ok (.tuple items, rest) := by
  rw [readPrimary, h]
  rfl

theorem readPrimary_square (h : trimStart s = '[' :: rest) :
    readPrimary inner s =
      match readItems inner ']' rest with
      | .error stuck => .error stuck
      | .ok ((items, _), rest) => .ok (.list items, rest) := by
  rw [readPrimary, h]
  rfl

theorem readPrimary_group (h : trimStart s = '(' :: rest)
    (hitems : readItems inner ')' rest = .ok (([e], false), more)) :
    readPrimary inner s = .ok (.group e, more) := by
  rw [readPrimary_round h, hitems]

theorem readPrimary_tuple {items : List Expr} {ended : Bool} (h : trimStart s = '(' :: rest)
    (hitems : readItems inner ')' rest = .ok ((items, ended), more))
    (hsingle : items.length = 1 → ended = true) :
    readPrimary inner s = .ok (.tuple items, more) := by
  rw [readPrimary_round h, hitems]
  rcases items with - | ⟨e, - | ⟨e', items⟩⟩
  · rfl
  · obtain rfl := hsingle rfl
    rfl
  · rfl

theorem readPrimary_list {items : List Expr} {ended : Bool} (h : trimStart s = '[' :: rest)
    (hitems : readItems inner ']' rest = .ok ((items, ended), more)) :
    readPrimary inner s = .ok (.list items, more) := by
  rw [readPrimary_square h, hitems]

end Steps

/-! ### Whole spellings -/

/-- A text is read as an expression: a reader that allows the brackets in it comes to the steps
behind it. -/
structure Reads (e : Expr) (s : List Char) : Prop where
  /-- Reading goes on behind it. -/
  run_eq : ∀ {depth : Nat} {before rest : List Char}, e.nesting ≤ depth → Blank before →
    Follows rest → (ExprReader.ofDepth (depth + 1)).run (before ++ (s ++ rest)) =
      readSteps (ExprReader.ofDepth depth) e rest

/-- A text is read as items, up to the bracket that closes them. -/
structure ReadsItems (items : List Expr) (ended : Bool) (s : List Char) : Prop where
  /-- Reading goes on behind that bracket. -/
  readItems_eq : ∀ {depth : Nat} {close : Char} {rest : List Char}, Expr.nestingAll items ≤ depth →
    close = ')' ∨ close = ']' →
      readItems (ExprReader.ofDepth depth) close (s ++ close :: rest) = .ok ((items, ended), rest)

/-- Behind what an expression begins with the steps are read. -/
theorem run_of_readPrimary {depth : Nat} {e : Expr} {s rest : List Char}
    (h : readPrimary (ExprReader.ofDepth depth) s = .ok (e, rest)) :
    (ExprReader.ofDepth (depth + 1)).run s = readSteps (ExprReader.ofDepth depth) e rest := by
  rw [ExprReader.run_ofDepth_succ, h]

/-- What a reader gives where no step follows: the expression, and the text behind it. -/
theorem Reads.run_stop {e : Expr} {s after rest : List Char} {depth : Nat} {c : Char}
    (h : Reads e s) (hnesting : e.nesting ≤ depth) {before : List Char} (hbefore : Blank before)
    (hafter : Blank after) (hc : c = ',' ∨ c = ')' ∨ c = ']') :
    (ExprReader.ofDepth (depth + 1)).run (before ++ (s ++ (after ++ c :: rest))) =
      .ok (e, c :: rest) := by
  have hstop : isBlank c = false ∧ isNameChar c = false ∧ c ≠ '.' ∧ c ≠ '[' ∧ c ≠ '(' := by
    rcases hc with rfl | rfl | rfl <;> decide
  obtain ⟨hblank, hname, hpoint, hsteps⟩ := hstop
  have htrim := trimStart_append_cons hafter hblank rest
  have hfollows := (follows_of_head hname hpoint rest).blank_append hafter
  rw [h.run_eq hnesting hbefore hfollows, readSteps_stop, htrim]
  rw [htrim]
  exact fun d hd ↦ Option.some.inj hd ▸ ⟨hpoint, hsteps⟩

/-- No item begins with the bracket that closes them. -/
theorem head_trimStart_ne_close {s before : List Char} {close : Char} (hs : ∃ c ∈ s.head?, Opens c)
    (hbefore : Blank before) (hclose : close = ')' ∨ close = ']') (rest : List Char) :
    (trimStart (before ++ (s ++ rest))).head? ≠ some close := by
  obtain ⟨c, hc, hopens⟩ := head_append hs
  rw [trimStart_append hbefore hs, Option.mem_def.1 hc]
  rintro ⟨⟩
  rcases hclose with rfl | rfl
  · exact hopens.notClose.1 rfl
  · exact hopens.notClose.2 rfl

/-- A single item is read. -/
theorem Reads.single {e : Expr} {s before after : List Char} (h : Reads e s)
    (hs : ∃ c ∈ s.head?, Opens c) (hbefore : Blank before) (hafter : Blank after) :
    ReadsItems [e] false (before ++ s ++ after) := by
  refine ⟨fun {depth close rest} hnesting hclose ↦ ?_⟩
  rw [Expr.nestingAll, Nat.max_le] at hnesting
  -- An item is nested in the brackets around the items, so a level is left for it.
  obtain ⟨depth, rfl⟩ : ∃ d, depth = d + 1 := ⟨depth - 1, by omega⟩
  have hblank : isBlank close = false ∧ close ≠ ',' := by rcases hclose with rfl | rfl <;> decide
  rw [List.append_assoc, List.append_assoc]
  refine readItems_single (head_trimStart_ne_close hs hbefore hclose _) ?_
    (trimStart_append_cons blank_nil hblank.1 rest) hblank.2
  rw [trimStart_append hbefore hs]
  exact h.run_stop (Nat.le_of_succ_le_succ hnesting.1) blank_nil hafter (.inr hclose)

/-- An item is read in front of others. -/
theorem Reads.cons {e : Expr} {items : List Expr} {ended : Bool} {s before after t : List Char}
    (h : Reads e s) (hitems : ReadsItems items ended t) (hs : ∃ c ∈ s.head?, Opens c)
    (hbefore : Blank before) (hafter : Blank after) :
    ReadsItems (e :: items) ended (before ++ s ++ after ++ ',' :: t) := by
  refine ⟨fun {depth close rest} hnesting hclose ↦ ?_⟩
  rw [Expr.nestingAll, Nat.max_le] at hnesting
  have hmore : readItems (ExprReader.ofDepth depth) close (t ++ close :: rest) =
      .ok ((items, ended), rest) := hitems.readItems_eq hnesting.2 hclose
  obtain ⟨depth, rfl⟩ : ∃ d, depth = d + 1 := ⟨depth - 1, by omega⟩
  rw [List.append_assoc, List.append_assoc, List.append_assoc]
  refine readItems_comma (head_trimStart_ne_close hs hbefore hclose _) ?_
    (trimStart_append_cons blank_nil (by decide) _) hmore
  rw [trimStart_append hbefore hs]
  exact h.run_stop (Nat.le_of_succ_le_succ hnesting.1) blank_nil hafter (.inl rfl)

theorem readsItems_nil {before : List Char} (hbefore : Blank before) :
    ReadsItems [] true before := by
  refine ⟨fun {depth close rest} hnesting hclose ↦ ?_⟩
  have hblank : isBlank close = false := by rcases hclose with rfl | rfl <;> decide
  exact readItems_close (trimStart_append_cons hbefore hblank rest)

theorem readPrimary_isName {inner : ExprReader} {e : Expr} {s before rest : List Char}
    (hname : isName s = true) (hbefore : Blank before) (h : readName (s ++ rest) = (e, rest)) :
    readPrimary inner (before ++ (s ++ rest)) = .ok (e, rest) := by
  have htrim := trimStart_append hbefore (opens_isName hname) rest
  obtain ⟨c, t, rfl, hstart, -⟩ := exists_cons_of_isName hname
  rw [readPrimary_name htrim hstart]
  exact congrArg Except.ok h

theorem signed_append (negative : Bool) (s rest : List Char) :
    signed negative s ++ rest = signed negative (s ++ rest) := by
  cases negative <;> rfl

/-- What may come between an expression and a step: white space, then what begins the step. -/
theorem follows_step {gap : List Char} (hgap : Blank gap) {c : Char}
    (hc : c = '[' ∨ c = '(') (rest : List Char) : Follows (gap ++ c :: rest) := by
  refine (follows_of_head ?_ ?_ rest).blank_append hgap <;> rcases hc with rfl | rfl <;> decide

/-- A member is no part of a number before it: its name begins with no digit. -/
theorem follows_member {before after name : List Char} (hbefore : Blank before)
    (hafter : Blank after) (hname : MemberName name) (rest : List Char) :
    Follows (before ++ '.' :: (after ++ (name ++ rest))) := by
  refine Follows.blank_append hbefore ⟨fun c hc ↦ Option.some.inj hc ▸ by decide, fun c t h ↦ ?_⟩
  have htail : after ++ (name ++ rest) = c :: t := (List.cons.inj h).2
  cases after with
  | nil =>
    obtain ⟨d, hd, hdigit⟩ : ∃ d ∈ (name ++ rest).head?, d.isDigit = false := head_append hname.head
    rw [show name ++ rest = c :: t from htail] at hd
    exact Option.some.inj hd ▸ hdigit
  | cons d after =>
    obtain ⟨rfl, -⟩ := List.cons.inj htail
    refine Bool.eq_false_iff.2 fun hdigit ↦ ?_
    have hblank := isNameChar_of_isBlank (hafter d List.mem_cons_self)
    exact absurd (isNameChar_of_isDigit hdigit).1 (by rw [hblank]; simp)

theorem MemberName.opens {name : List Char} (hname : MemberName name) :
    ∃ c ∈ name.head?, Opens c := by
  obtain ⟨c, hc, -⟩ := hname.head
  exact ⟨c, hc, opens_of_isNameChar (hname.chars c (List.mem_of_head? hc))⟩

mutual

/-- **Every spelling of an expression is read as that expression.** -/
theorem Spells.reads {e : Expr} {s : List Char} (h : Spells e s) : Reads e s := by
  refine ⟨fun {depth before rest} hnesting hbefore hrest ↦ ?_⟩
  have htrim := trimStart_append hbefore h.head rest
  cases h with
  | constant h =>
    exact run_of_readPrimary
      (readPrimary_isName (isName_of_mem_constants h) hbefore (readName_constant h hrest))
  | name hname hconstant =>
    exact run_of_readPrimary
      (readPrimary_isName hname hbefore (readName_name hname hconstant hrest))
  | int whole hdigits hvalue =>
    have htrim := htrim.trans (signed_append _ _ rest)
    refine run_of_readPrimary ?_
    rw [readPrimary_signed htrim fun hsign ↦ head_append (whole.head hsign)]
    exact readNumber_int whole hdigits hvalue hrest
  | float whole fraction =>
    have htrim := htrim.trans (signed_append _ _ rest)
    refine run_of_readPrimary ?_
    rw [readPrimary_signed htrim fun hsign ↦ head_append (head_append (whole.head hsign))]
    exact readNumber_float whole fraction hrest
  | @str quote body hquote hbody =>
    have htrim : trimStart _ = quote :: (body ++ quote :: rest) := htrim.trans (by simp)
    refine run_of_readPrimary ?_
    rw [readPrimary_string htrim hquote]
    exact readString_append hquote hbody rest
  | @group e s before' after hbefore' he hafter =>
    -- A group is read as a single item without a comma behind it.
    have htrim : trimStart _ = '(' :: (before' ++ s ++ after ++ ')' :: rest) :=
      htrim.trans (by simp)
    have hnesting : Expr.nestingAll [e] ≤ depth := by
      rw [Expr.nestingAll, Expr.nestingAll]
      exact Nat.max_le.2 ⟨hnesting, Nat.zero_le _⟩
    exact run_of_readPrimary (readPrimary_group htrim
      ((he.reads.single he.head hbefore' hafter).readItems_eq hnesting (.inl rfl)))
  | @list items ended s hitems =>
    have htrim : trimStart _ = '[' :: (s ++ ']' :: rest) := htrim.trans (by simp)
    exact run_of_readPrimary
      (readPrimary_list htrim (hitems.reads.readItems_eq hnesting (.inr rfl)))
  | @tuple items ended s hitems hsingle =>
    have htrim : trimStart _ = '(' :: (s ++ ')' :: rest) := htrim.trans (by simp)
    exact run_of_readPrimary
      (readPrimary_tuple htrim (hitems.reads.readItems_eq hnesting (.inl rfl)) hsingle)
  | @member e s gap after name he hgap hafter hname =>
    -- Reading the value comes to the point, and goes on with the step that begins there.
    have htext : s ++ gap ++ '.' :: after ++ name ++ rest =
        s ++ (gap ++ '.' :: (after ++ (name ++ rest))) := by simp
    rw [htext, he.reads.run_eq hnesting hbefore (follows_member hgap hafter hname rest)]
    refine readSteps_member (trimStart_append_cons hgap (by decide) _) ?_
    rw [trimStart_append hafter hname.opens]
    exact readIdentifier_append hname hrest
  | @subscript e key s gap before' t after he hgap hbefore' hkey hafter =>
    have htext : s ++ gap ++ '[' :: before' ++ t ++ after ++ [']'] ++ rest =
        s ++ (gap ++ '[' :: (before' ++ (t ++ (after ++ ']' :: rest)))) := by simp
    rw [Expr.nesting, Nat.max_le] at hnesting
    rw [htext, he.reads.run_eq hnesting.1 hbefore (follows_step hgap (.inl rfl) _)]
    obtain ⟨depth, rfl⟩ : ∃ d, depth = d + 1 := ⟨depth - 1, by omega⟩
    exact readSteps_subscript (trimStart_append_cons hgap (by decide) _)
      (hkey.reads.run_stop (Nat.le_of_succ_le_succ hnesting.2) hbefore' hafter (.inr (.inr rfl)))
      (trimStart_append_cons blank_nil (by decide) rest)
  | @call e args ended s gap t he hgap hargs =>
    have htext : s ++ gap ++ '(' :: t ++ [')'] ++ rest =
        s ++ (gap ++ '(' :: (t ++ ')' :: rest)) := by simp
    rw [Expr.nesting, Nat.max_le] at hnesting
    rw [htext, he.reads.run_eq hnesting.1 hbefore (follows_step hgap (.inr rfl) _)]
    exact readSteps_call (trimStart_append_cons hgap (by decide) _)
      (hargs.reads.readItems_eq hnesting.2 (.inl rfl))

/-- **Every spelling of items is read as these items.** -/
theorem SpellsItems.reads {items : List Expr} {ended : Bool} {s : List Char}
    (h : SpellsItems items ended s) : ReadsItems items ended s := by
  cases h with
  | nil hbefore => exact readsItems_nil hbefore
  | single hbefore he hafter => exact he.reads.single he.head hbefore hafter
  | cons hbefore he hafter hitems => exact he.reads.cons hitems.reads he.head hbefore hafter

end

/-- A reader that allows the brackets of a spelling reads it to its end, with white space around
it. -/
theorem Spells.run_end {e : Expr} {s before after : List Char} (h : Spells e s) {depth : Nat}
    (hnesting : e.nesting ≤ depth) (hbefore : Blank before) (hafter : Blank after) :
    (ExprReader.ofDepth (depth + 1)).run (before ++ s ++ after) = .ok (e, []) := by
  have hstop := trimStart_of_blank hafter
  have hfollows : Follows after := by simpa using follows_nil.blank_append hafter
  rw [List.append_assoc, h.reads.run_eq hnesting hbefore hfollows,
    readSteps_stop (by rw [hstop]; simp), hstop]

/-- A spelling with white space around it is read to its end, unless its brackets are nested too
deep. -/
theorem readExpr_of_spells {e : Expr} {s before after : List Char} (h : Spells e s)
    (hnesting : e.nesting < maxNesting) (hbefore : Blank before) (hafter : Blank after) :
    readExpr (before ++ s ++ after) = .ok e := by
  have hrun : (ExprReader.ofDepth maxNesting).run (before ++ s ++ after) = .ok (e, []) :=
    h.run_end (Nat.le_of_lt_succ hnesting) hbefore hafter
  rw [readExpr, hrun]
  rfl

/-- No text spells two expressions, whatever white space is taken to be around the spelling. -/
theorem Spells.unique {e e' : Expr} {s before t after : List Char} (h : Spells e s)
    (h' : Spells e' t) (hbefore : Blank before) (hafter : Blank after)
    (htext : s = before ++ t ++ after) : e = e' := by
  have hrun := h.run_end (Nat.le_max_left e.nesting e'.nesting) blank_nil blank_nil
  have hrun' := h'.run_end (Nat.le_max_right e.nesting e'.nesting) hbefore hafter
  rw [List.nil_append, List.append_nil, htext] at hrun
  exact (Prod.mk.inj (Except.ok.inj (hrun.symm.trans hrun'))).1

/-- A closing bracket behind a spelling is one too many, and is found when the expression has been
read. -/
theorem readExpr_append_close {e : Expr} {s : List Char} (h : Spells e s)
    (hnesting : e.nesting < maxNesting) (rest : List Char) :
    readExpr (s ++ ')' :: rest) = .error ⟨[e], .trailingInput, ')' :: rest⟩ := by
  have hrun : (ExprReader.ofDepth maxNesting).run (s ++ ')' :: rest) = .ok (e, ')' :: rest) :=
    h.reads.run_stop (Nat.le_of_lt_succ hnesting) blank_nil blank_nil (.inr (.inl rfl))
  rw [readExpr, hrun]
  rfl

end LineCompletion
