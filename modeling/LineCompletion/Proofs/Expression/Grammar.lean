import LineCompletion.Proofs.Expression.Reading

/-!
# Reading reads the grammar

What is read is spelled: the converse of `Spells.reads`. Whatever a reader takes off the start of a
text is a spelling of the expression that it gives, with white space around it, and the brackets of
that expression are nested no deeper than the reader allows. Together the two directions say that
reading decides the grammar (`readExpr_eq_ok_iff`), so a fact about a text that has been read may be
proved of its spelling, and one about spellings holds of every text that is read.

The induction is the reader's own. What one step of it keeps is the spelling of all that has been
read so far (`Spells.of_readSteps`), which a member, a subscript or a call goes on from.

**Steps are read in a loop.** The reader takes what an expression begins with and goes on as long as
steps follow. The grammar is a tree in which the last step is outermost. So what was read before is
carried along as a spelling, and each step makes a longer spelling of it, of an expression with one
step more. White space that a step was looked for behind, in vain, is left over in the end, and the
conclusion has a place for it.

**Where a token ends is no matter in this direction.** The reader has decided where it ends, and all
that is asked is whether what it took is such a token. In the other direction it has to be shown
that the reader goes no further than the spelling does, and conditions on what follows come in
there.

**Depth.** A reader of some depth may read brackets of all smaller depths inside.
`ReadsOnlySpellings` has the bound on the nesting beside the spelling, so that the two are proved by
one induction. The bound is exact: spelling and bound together are what is read.
-/

namespace LineCompletion

open Text

/-! ### Tokens -/

/-- What a text without the white space at its start leaves out is that white space. -/
theorem exists_blank_append {s t : List Char} (h : trimStart s = t) : ∃ w, s = w ++ t ∧ Blank w :=
  ⟨indentation s, by rw [← h, indentation_append_trimStart], fun _ hc ↦ List.mem_takeWhile_imp hc⟩

/-- White space behind white space is white space. -/
theorem Blank.append {s t : List Char} (hs : Blank s) (ht : Blank t) : Blank (s ++ t) := by
  intro c hc
  rcases List.mem_append.1 hc with hc | hc
  · exact hs c hc
  · exact ht c hc

/-- A literal that is read is spelled by its quotes and what is between them. -/
theorem spells_of_readString {quote : Char} (hquote : isQuote quote = true) {s rest : List Char}
    {e : Expr} (h : readString quote s = .ok (e, rest)) :
    ∃ t, quote :: s = t ++ rest ∧ Spells e t ∧ e.nesting = 0 := by
  rw [readString] at h
  split at h
  · rename_i body left hsplit
    obtain ⟨rfl, rfl⟩ := Prod.mk.inj (Except.ok.inj h)
    refine ⟨quote :: body ++ [quote], ?_, .str hquote (body_of_splitBody? hsplit).1, rfl⟩
    rw [eq_append_of_splitBody? hsplit]
    simp
  · exact absurd h (by simp)

/-- A name is read up to the first character that no name holds. -/
theorem spells_readName {c : Char} {s : List Char} (hc : isNameStart c = true) :
    ∃ t, c :: s = t ++ (readName (c :: s)).2 ∧ Spells (readName (c :: s)).1 t ∧
      (readName (c :: s)).1.nesting = 0 := by
  have hname : isName ((c :: s).takeWhile isNameChar) = true := by
    rw [List.takeWhile_cons_of_pos (isNameChar_of_isNameStart hc), isName, hc, Bool.true_and,
      List.all_cons, isNameChar_of_isNameStart hc]
    exact List.all_takeWhile
  refine ⟨(c :: s).takeWhile isNameChar, List.takeWhile_append_dropWhile.symm, ?_⟩
  generalize ht : (c :: s).takeWhile isNameChar = t at hname
  have hconstant : ∀ n : String, String.ofList t = n → t = n.toList := by
    rintro n rfl
    rw [String.toList_ofList]
  rw [readName, ht]
  split
  · rename_i heq
    exact ⟨.constant (by rw [hconstant _ heq]; simp [constants]), rfl⟩
  · rename_i heq
    exact ⟨.constant (by rw [hconstant _ heq]; simp [constants]), rfl⟩
  · rename_i heq
    exact ⟨.constant (by rw [hconstant _ heq]; simp [constants]), rfl⟩
  · rename_i hnone htrue hfalse
    refine ⟨.name hname fun hmem ↦ ?_, rfl⟩
    -- A constant would have been read by one of the cases before.
    simp only [constants, List.map_cons, List.map_nil, List.mem_cons, List.not_mem_nil,
      or_false] at hmem
    rcases hmem with rfl | rfl | rfl
    · exact hnone rfl
    · exact htrue rfl
    · exact hfalse rfl

/-- What is read behind a dot is the name of a member. -/
theorem memberName_of_readIdentifier {s rest : List Char} {name : String}
    (h : readIdentifier s = .ok (name, rest)) :
    ∃ t, s = t ++ rest ∧ name = String.ofList t ∧ MemberName t := by
  rw [readIdentifier] at h
  split at h
  · exact absurd h (by simp)
  · rename_i c t htake
    split at h
    · exact absurd h (by simp)
    · rename_i hdigit
      obtain ⟨rfl, rfl⟩ := Prod.mk.inj (Except.ok.inj h)
      refine ⟨s.takeWhile isNameChar, List.takeWhile_append_dropWhile.symm, rfl,
        ⟨fun _ hd ↦ List.mem_takeWhile_imp hd, c, ?_, Bool.eq_false_iff.2 hdigit⟩⟩
      rw [htake]
      rfl

/-- The digits of an integer that is read spell it. -/
theorem toInt_of_integer {negative : Bool} {digits : List Char} {i : Int64}
    (h : Number.integer negative digits = .ok i) :
    digits ≠ [] ∧ i.toInt = if negative then -(Number.ofDigits digits : Int)
      else (Number.ofDigits digits : Int) := by
  have hbound : Number.integerBound = 2 ^ 63 := rfl
  rw [Number.integer] at h
  dsimp only at h
  split at h
  · exact absurd h (by simp)
  · rename_i hempty
    refine ⟨fun hnil ↦ hempty (List.isEmpty_iff.2 hnil), ?_⟩
    split at h
    · rename_i hnegative
      split at h
      · rw [if_pos hnegative, ← Except.ok.inj h]
        exact Int64.toInt_ofInt_of_le (by omega) (by omega)
      · exact absurd h (by simp)
    · rename_i hnegative
      split at h
      · rw [if_neg hnegative, ← Except.ok.inj h]
        exact Int64.toInt_ofInt_of_le (by omega) (by omega)
      · exact absurd h (by simp)

/-- Without a fraction a number is its whole part, whatever follows. -/
theorem spells_of_integer {negative : Bool} {whole left rest : List Char} {e : Expr}
    (hwhole : WholePart negative whole)
    (h : (match Number.integer negative (whole.filter Char.isDigit) with
      | .ok i => .ok (.int i, left)
      | .error cause => .error ⟨[], .number cause, left⟩ : Read Expr) = .ok (e, rest)) :
    ∃ t, signed negative (whole ++ left) = t ++ rest ∧ Spells e t ∧ e.nesting = 0 := by
  split at h
  · rename_i i hi
    obtain ⟨rfl, rfl⟩ := Prod.mk.inj (Except.ok.inj h)
    obtain ⟨hdigits, hvalue⟩ := toInt_of_integer hi
    exact ⟨signed negative whole, (signed_append _ _ _).symm, .int hwhole hdigits hvalue, rfl⟩
  · exact absurd h (by simp)

/-- A number that is read is spelled by its sign and its parts. -/
theorem spells_of_readNumber {negative : Bool} {s rest : List Char} {e : Expr}
    (hhead : negative = false → ∃ c ∈ s.head?, c.isDigit = true)
    (h : readNumber negative s = .ok (e, rest)) :
    ∃ t, signed negative s = t ++ rest ∧ Spells e t ∧ e.nesting = 0 := by
  have happend := List.takeWhile_append_dropWhile (p := isNumberChar) (l := s)
  have hwhole : WholePart negative (s.takeWhile isNumberChar) := by
    refine ⟨fun _ hc ↦ List.mem_takeWhile_imp hc, fun hsign ↦ ?_⟩
    obtain ⟨c, hc, hdigit⟩ := hhead hsign
    obtain ⟨t, rfl⟩ := List.head?_eq_some_iff.1 hc
    refine ⟨c, ?_, hdigit⟩
    rw [List.takeWhile_cons_of_pos (by rw [isNumberChar, hdigit, Bool.true_or])]
    rfl
  generalize hs : s.takeWhile isNumberChar = whole at happend hwhole
  rw [readNumber, hs] at h
  dsimp only at h
  split at h
  · rename_i after hafter
    rw [hafter] at happend
    split at h
    · rename_i hdigit
      obtain ⟨rfl, rfl⟩ := Prod.mk.inj (Except.ok.inj h)
      have hfraction : Fraction (after.takeWhile isNumberChar) := by
        obtain ⟨c, hc, hd⟩ := (Option.any_eq_true _ _).1 hdigit
        obtain ⟨t, rfl⟩ := List.head?_eq_some_iff.1 hc
        refine ⟨fun _ hc ↦ List.mem_takeWhile_imp hc, c, ?_, hd⟩
        rw [List.takeWhile_cons_of_pos (by rw [isNumberChar, hd, Bool.true_or])]
        rfl
      refine ⟨signed negative (whole ++ '.' :: after.takeWhile isNumberChar), ?_,
        .float hwhole hfraction, rfl⟩
      rw [signed_append, ← happend]
      simp
    · exact happend ▸ spells_of_integer hwhole h
  · exact happend ▸ spells_of_integer hwhole h

/-! ### Brackets and steps -/

/-- A text starts with a spelling of an expression, with white space around it. -/
def Spelled (e : Expr) (s rest : List Char) : Prop :=
  ∃ before t after, s = before ++ t ++ after ++ rest ∧ Blank before ∧ Spells e t ∧ Blank after

/-- A reader reads nothing but spellings, and none that is nested deeper than it allows. -/
structure ReadsOnlySpellings (reader : ExprReader) (depth : Nat) : Prop where
  /-- What it reads is spelled. -/
  spelled : ∀ {s rest e}, reader.run s = .ok (e, rest) → Spelled e s rest
  /-- Its brackets count among those allowed. -/
  nesting_lt : ∀ {s rest e}, reader.run s = .ok (e, rest) → e.nesting < depth

section Reader

variable {inner : ExprReader} {depth : Nat} {close : Char} {s rest : List Char}

/-- **Items that are read are spelled**, up to their closing bracket. -/
theorem spellsItems_of_readItems (h : ReadsOnlySpellings inner depth) {items : List Expr}
    {ended : Bool} (hread : readItems inner close s = .ok ((items, ended), rest)) :
    ∃ t, s = t ++ close :: rest ∧ SpellsItems items ended t ∧ Expr.nestingAll items ≤ depth := by
  fun_induction readItems inner close s generalizing items ended rest with
  | case1 s hhead =>
    obtain ⟨hitems, rfl⟩ := Prod.mk.inj (Except.ok.inj hread)
    obtain ⟨rfl, rfl⟩ := Prod.mk.inj hitems
    obtain ⟨t, ht⟩ := List.head?_eq_some_iff.1 hhead
    obtain ⟨w, hs, hw⟩ := exists_blank_append ht
    refine ⟨w, ?_, .nil hw, Nat.zero_le _⟩
    rw [ht]
    exact hs
  | case2 => exact absurd hread (by simp)
  | case3 => exact absurd hread (by simp)
  | case4 s hhead e left hrun more hcomma items' ended' rest' hmore ih =>
    obtain ⟨hitems, rfl⟩ := Prod.mk.inj (Except.ok.inj hread)
    obtain ⟨rfl, rfl⟩ := Prod.mk.inj hitems
    obtain ⟨t, rfl, hspells, hnesting⟩ := ih hmore
    obtain ⟨before, u, after, hrest, hbefore, he, hafter⟩ := h.spelled hrun
    obtain ⟨w, hs, hw⟩ := exists_blank_append hrest
    obtain ⟨w', hleft, hw'⟩ := exists_blank_append hcomma
    refine ⟨w ++ before ++ u ++ (after ++ w') ++ ',' :: t, ?_,
      .cons (hw.append hbefore) he (hafter.append hw') hspells,
      Nat.max_le.2 ⟨h.nesting_lt hrun, hnesting⟩⟩
    rw [hs, hleft]
    simp
  | case5 s hhead e left hrun hcomma hclose =>
    obtain ⟨hitems, rfl⟩ := Prod.mk.inj (Except.ok.inj hread)
    obtain ⟨rfl, rfl⟩ := Prod.mk.inj hitems
    obtain ⟨more, hmore⟩ := List.head?_eq_some_iff.1 hclose
    obtain ⟨before, u, after, hrest, hbefore, he, hafter⟩ := h.spelled hrun
    obtain ⟨w, hs, hw⟩ := exists_blank_append hrest
    obtain ⟨w', hleft, hw'⟩ := exists_blank_append hmore
    refine ⟨w ++ before ++ u ++ (after ++ w'), ?_,
      .single (hw.append hbefore) he (hafter.append hw'),
      Nat.max_le.2 ⟨h.nesting_lt hrun, Nat.zero_le _⟩⟩
    rw [hmore, List.tail_cons, hs, hleft]
    simp
  | case6 => exact absurd hread (by simp)

/-- **Steps go on from a spelling.** What has been read so far is spelled, and with each member,
subscript or call behind it so is what has been read then. -/
theorem Spells.of_readSteps (h : ReadsOnlySpellings inner depth) {e e' : Expr} {t : List Char}
    (he : Spells e t) (hnesting : e.nesting ≤ depth)
    (hread : readSteps inner e s = .ok (e', rest)) :
    ∃ u after, s = u ++ after ++ rest ∧ Spells e' (t ++ u) ∧ Blank after ∧ e'.nesting ≤ depth := by
  fun_induction readSteps inner e s generalizing t e' rest with
  | case1 => exact absurd hread (by simp)
  | case2 e s afterDot htrim name left hname ih =>
    obtain ⟨n, hn, rfl, hmember⟩ := memberName_of_readIdentifier hname
    obtain ⟨w, hs, hw⟩ := exists_blank_append htrim
    obtain ⟨w', hdot, hw'⟩ := exists_blank_append hn
    obtain ⟨u, after, rfl, hu, hafter, hle⟩ := ih (.member he hw hw' hmember) hnesting hread
    refine ⟨w ++ '.' :: w' ++ n ++ u, after, ?_, by simpa using hu, hafter, hle⟩
    rw [hs, hdot]
    simp
  | case3 => exact absurd hread (by simp)
  | case4 e s inside htrim key left hrun more hclose ih =>
    obtain ⟨before, k, after, hinside, hbefore, hkey, hafter⟩ := h.spelled hrun
    obtain ⟨w, hs, hw⟩ := exists_blank_append htrim
    obtain ⟨w', hleft, hw'⟩ := exists_blank_append hclose
    obtain ⟨u, after', rfl, hu, hafter', hle⟩ :=
      ih (.subscript he hw hbefore hkey (hafter.append hw'))
        (Nat.max_le.2 ⟨hnesting, h.nesting_lt hrun⟩) hread
    refine ⟨w ++ '[' :: before ++ k ++ (after ++ w') ++ [']'] ++ u, after', ?_,
      by simpa using hu, hafter', hle⟩
    rw [hs, hinside, hleft]
    simp
  | case5 => exact absurd hread (by simp)
  | case6 => exact absurd hread (by simp)
  | case7 e s inside htrim args ended left hargs ih =>
    obtain ⟨a, rfl, hitems, hall⟩ := spellsItems_of_readItems h hargs
    obtain ⟨w, hs, hw⟩ := exists_blank_append htrim
    obtain ⟨u, after, rfl, hu, hafter, hle⟩ := ih (.call he hw hitems)
      (Nat.max_le.2 ⟨hnesting, hall⟩) hread
    refine ⟨w ++ '(' :: a ++ [')'] ++ u, after, ?_, by simpa using hu, hafter, hle⟩
    rw [hs]
    simp
  | case8 e s =>
    obtain ⟨rfl, rfl⟩ := Prod.mk.inj (Except.ok.inj hread)
    obtain ⟨w, hs, hw⟩ := exists_blank_append (s := s) rfl
    exact ⟨[], w, hs, by rwa [List.append_nil], hw, hnesting⟩

/-- A single item is grouped when no comma comes after it. -/
theorem SpellsItems.group {e : Expr} {t : List Char} (h : SpellsItems [e] false t) :
    Spells (.group e) ('(' :: t ++ [')']) := by
  cases h with
  | single hbefore he hafter => simpa using Spells.group hbefore he hafter
  | cons hbefore he hafter hitems => cases hitems

/-- What an expression begins with is spelled by what is taken off the text. -/
theorem spells_of_readPrimary (h : ReadsOnlySpellings inner depth) {e : Expr}
    (hread : readPrimary inner s = .ok (e, rest)) :
    ∃ t, trimStart s = t ++ rest ∧ Spells e t ∧ e.nesting ≤ depth := by
  rw [readPrimary] at hread
  split at hread
  · exact absurd hread (by simp)
  · rename_i c left htrim
    rw [htrim]
    split at hread
    · rename_i hstart
      obtain ⟨t, ht, hspells, hzero⟩ := spells_readName (s := left) hstart
      rw [Except.ok.inj hread] at ht hspells hzero
      exact ⟨t, ht, hspells, hzero.trans_le (Nat.zero_le _)⟩
    split at hread
    · rename_i hdigit
      obtain ⟨t, ht, hspells, hzero⟩ := spells_of_readNumber (fun _ ↦ ⟨c, rfl, hdigit⟩) hread
      exact ⟨t, ht, hspells, by omega⟩
    split at hread
    · rename_i hminus
      subst hminus
      obtain ⟨t, ht, hspells, hzero⟩ := spells_of_readNumber (by simp) hread
      exact ⟨t, ht, hspells, by omega⟩
    split at hread
    · rename_i hquote
      obtain ⟨t, ht, hspells, hzero⟩ := spells_of_readString hquote hread
      exact ⟨t, ht, hspells, by omega⟩
    split at hread
    · rename_i hround
      subst hround
      split at hread
      · exact absurd hread (by simp)
      · rename_i item more hitems
        obtain ⟨rfl, rfl⟩ := Prod.mk.inj (Except.ok.inj hread)
        obtain ⟨t, rfl, hspells, hall⟩ := spellsItems_of_readItems h hitems
        exact ⟨'(' :: t ++ [')'], by simp, hspells.group, Nat.le_trans (Nat.le_max_left _ _) hall⟩
      · rename_i items ended more hsingle hitems
        obtain ⟨rfl, rfl⟩ := Prod.mk.inj (Except.ok.inj hread)
        obtain ⟨t, rfl, hspells, hall⟩ := spellsItems_of_readItems h hitems
        refine ⟨'(' :: t ++ [')'], by simp, .tuple hspells fun hone ↦ ?_, hall⟩
        obtain ⟨item, rfl⟩ := List.length_eq_one_iff.1 hone
        cases ended with
        | true => rfl
        | false => exact absurd rfl (hsingle item rfl)
    split at hread
    · rename_i hsquare
      subst hsquare
      split at hread
      · exact absurd hread (by simp)
      · rename_i items ended more hitems
        obtain ⟨rfl, rfl⟩ := Prod.mk.inj (Except.ok.inj hread)
        obtain ⟨t, rfl, hspells, hall⟩ := spellsItems_of_readItems h hitems
        exact ⟨'[' :: t ++ [']'], by simp, .list hspells, hall⟩
    · exact absurd hread (by simp)

end Reader

/-! ### Whole expressions -/

/-- Readers of every depth read spellings only. -/
theorem readsOnlySpellings_ofDepth (depth : Nat) :
    ReadsOnlySpellings (ExprReader.ofDepth depth) depth := by
  induction depth with
  | zero => exact ⟨fun h ↦ absurd h (by simp [ExprReader.ofDepth]),
      fun h ↦ absurd h (by simp [ExprReader.ofDepth])⟩
  | succ depth ih =>
    have hread : ∀ {s rest e}, (ExprReader.ofDepth (depth + 1)).run s = .ok (e, rest) →
        Spelled e s rest ∧ e.nesting < depth + 1 := by
      intro s rest e h
      rw [ExprReader.run_ofDepth_succ] at h
      split at h
      · exact absurd h (by simp)
      · rename_i primary left hprimary
        obtain ⟨t, htrim, hspells, hnesting⟩ := spells_of_readPrimary ih hprimary
        obtain ⟨u, after, rfl, hu, hafter, hle⟩ := hspells.of_readSteps ih hnesting h
        obtain ⟨w, hs, hw⟩ := exists_blank_append htrim
        refine ⟨⟨w, t ++ u, after, ?_, hw, hu, hafter⟩, Nat.lt_succ_of_le hle⟩
        rw [hs]
        simp
    exact ⟨fun h ↦ (hread h).1, fun h ↦ (hread h).2⟩

/-- **Reading decides the grammar.** A text is read as an expression exactly when it spells that
expression, with white space around the spelling or without, and its brackets are nested no deeper
than is read. -/
theorem readExpr_eq_ok_iff {e : Expr} {s : List Char} :
    readExpr s = .ok e ↔ e.nesting < maxNesting ∧
      ∃ before t after, s = before ++ t ++ after ∧ Blank before ∧ Spells e t ∧ Blank after := by
  constructor
  · intro h
    rw [readExpr] at h
    split at h
    · exact absurd h (by simp)
    · rename_i e' rest hrun
      split at h
      · rename_i htrim
        obtain rfl := Except.ok.inj h
        obtain ⟨before, t, after, rfl, hbefore, hspells, hafter⟩ :=
          ((readsOnlySpellings_ofDepth maxNesting).spelled hrun)
        have hrest : Blank rest := List.dropWhile_eq_nil_iff.1 htrim
        exact ⟨(readsOnlySpellings_ofDepth maxNesting).nesting_lt hrun, before, t, after ++ rest,
          by simp, hbefore, hspells, hafter.append hrest⟩
      · exact absurd h (by simp)
  · rintro ⟨hnesting, before, t, after, rfl, hbefore, hspells, hafter⟩
    exact readExpr_of_spells hspells hnesting hbefore hafter

end LineCompletion
