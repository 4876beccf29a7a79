import LineCompletion.Proofs.Completion.Lookups
import LineCompletion.Proofs.Line.Parts
import LineCompletion.Proofs.Text.Counting

/-!
# A set under a bracket

A set has no subscripts, so nothing is offered behind its bracket. The text from the bracket on is
deleted instead, and a dot put in its place (`Console.complete_set`). What is deleted is measured in
clusters, on the parts of the lookup put together again (`Decomposition.reassembled`): the bracket,
the quote, the padding and the fragment. Two things can make that another text than the one typed.

* The bracket is not deleted alone when the character before it is one that is joined to whatever
  follows (`joinsTo_bracket_eq_false_iff`).
* Padding typed before the quote of a key comes behind the quote when the parts are put together.
  The key then begins behind white space where it began behind the quote, or the other way round,
  and a mark at its beginning is joined to a quote but not to a tab or a line feed
  (`count_key_eq_iff`).

**In a line without placeholder text nothing else goes wrong.** An index and the padding around it
may change places, since a digit is joined to neither white space nor a bracket (`count_index_eq`).
So `OpenedAt.count_eq_iff` says exactly when the count is right, by the classes of two pairs of
characters: the first of the key with the quote, and the first of the key with the white space next
to it.

Counting goes by seams: the clusters of two texts side by side are those of both, less one if they
are joined at the seam. So `count_key` and `count_key_of_concat` give the count for the two
arrangements, each with the one seam that is left open.

Both exceptions are real texts (`exists_complete_set_ne`): in both of them the name in front of the
bracket is deleted with what was typed.
-/

namespace LineCompletion

open Text Grapheme Decomposition

/-! ### The typed lookup, counted -/

/-- A bracket has no say in how clusters are joined, and no class of its own. -/
theorem inert_bracket : Inert '[' ∧ breakClass '[' = .other := by decide +kernel

/-- Neither has a quote. -/
theorem inert_of_isQuote {q : Char} (h : isQuote q = true) : Inert q ∧ breakClass q = .other := by
  rcases isQuote_iff.1 h with rfl | rfl <;> decide +kernel

/-- A bracket or a quote is a cluster of its own in front of what is loose. -/
theorem count_cons_of_other {c : Char} (hc : Inert c ∧ breakClass c = .other) {s : List Char}
    (hs : ∀ d ∈ s.head?, (breakClass d).isLoose = true) : count (c :: s) = 1 + count s := by
  refine count_append_of_classes (s := [c]) fun x hx d hd ↦ ?_
  obtain rfl : c = x := by simpa using hx
  rw [hc.2]
  exact ⟨.inl hc.1, joinsClasses_other_left (hs d hd)⟩

section Typed

variable {w : List Char} (hw : ∀ c ∈ w, isBlank c = true)

include hw

/-- White space is counted apart from what stands before it, unless that has a class of its own. -/
theorem count_append_blank {s : List Char} (hs : ∀ c ∈ s.getLast?, breakClass c = .other) :
    count (s ++ w) = count s + count w := by
  refine count_append_of_classes fun x hx c hc ↦ ?_
  have hblank := hw c (List.mem_of_mem_head? hc)
  rw [hs x hx]
  exact ⟨.inr (inert_of_isBlank hblank), joinsClasses_other_left (isLoose_of_isBlank hblank)⟩

/-- And apart from what comes behind it, unless that has one. -/
theorem count_blank_append {s : List Char} (hs : ∀ c ∈ s.head?, breakClass c = .other) :
    count (w ++ s) = count w + count s := by
  refine count_append_of_classes fun x hx c hc ↦ ?_
  have hblank := hw x (List.mem_of_getLast? hx)
  rw [hs c hc]
  exact ⟨.inl (inert_of_isBlank hblank), joinsClasses_other_right (isLoose_of_isBlank hblank)⟩

/-- A key behind white space and its quote: the seam behind the quote is the one that counts. -/
theorem count_key {q : Char} (hq : isQuote q = true) (f : List Char) :
    count ('[' :: (w ++ q :: f)) +
        (f.head?.any fun c ↦ joinsClasses (breakClass q) (breakClass c)).toNat =
      2 + count w + count f := by
  have hquote := inert_of_isQuote hq
  have hsingle : count [q] = 1 := rfl
  have hhead : ∀ c ∈ (w ++ [q]).head?, (breakClass c).isLoose = true := fun c hc ↦ by
    rcases List.mem_append.1 (List.mem_of_mem_head? hc) with hc | hc
    · exact isLoose_of_isBlank (hw c hc)
    · rw [List.mem_singleton.1 hc, hquote.2]
      rfl
  have hblank : count (w ++ [q]) = count w + count [q] :=
    count_blank_append hw (by simpa using hquote.2)
  have hseam := count_concat_append hquote.1 ('[' :: w) f
  rw [List.cons_append, count_cons_of_other inert_bracket hhead, hblank, hsingle] at hseam
  have happend : '[' :: (w ++ [q]) ++ f = '[' :: (w ++ q :: f) := by simp
  rw [happend] at hseam
  omega

/-- A key behind its quote and white space: then the seam behind the white space is. -/
theorem count_key_of_concat {q b : Char} (hq : isQuote q = true) {w' : List Char}
    (hconcat : w = w' ++ [b]) (f : List Char) :
    count ('[' :: q :: (w ++ f)) +
        (f.head?.any fun c ↦ joinsClasses (breakClass b) (breakClass c)).toNat =
      2 + count w + count f := by
  have hquote := inert_of_isQuote hq
  have hb : isBlank b = true := hw b (by simp [hconcat])
  have hhead : ∀ c ∈ w.head?, (breakClass c).isLoose = true := fun c hc ↦
    isLoose_of_isBlank (hw c (List.mem_of_mem_head? hc))
  have hbracket : ∀ c ∈ (q :: w).head?, (breakClass c).isLoose = true := fun c hc ↦ by
    rw [← Option.some.inj hc, hquote.2]
    rfl
  have hseam := count_concat_append (inert_of_isBlank hb) ('[' :: q :: w') f
  have hbefore : '[' :: q :: w' ++ [b] = '[' :: q :: w := by rw [hconcat]; rfl
  rw [hbefore, count_cons_of_other inert_bracket hbracket,
    count_cons_of_other hquote hhead] at hseam
  have happend : '[' :: q :: w ++ f = '[' :: q :: (w ++ f) := rfl
  rw [happend] at hseam
  omega

/-- **A key is counted as it was typed** behind white space and a quote, exactly if its first
character is joined to the white space where it is to the quote. -/
theorem count_key_eq_iff {q : Char} (hq : isQuote q = true) (f : List Char) :
    count ('[' :: (w ++ q :: f)) = count ('[' :: q :: (w ++ f)) ↔
      ∀ b ∈ w.getLast?, ∀ c ∈ f.head?,
        joinsClasses (breakClass b) (breakClass c) =
          joinsClasses (breakClass q) (breakClass c) := by
  have htyped := count_key hw hq f
  rcases List.eq_nil_or_concat w with rfl | ⟨w', b, hconcat⟩
  · exact iff_of_true (by simp) (by simp)
  rw [List.concat_eq_append] at hconcat
  have hagain := count_key_of_concat hw hq hconcat f
  rw [hconcat, List.getLast?_concat, ← hconcat]
  rcases f with - | ⟨c, f⟩
  · simp only [List.head?_nil, Option.any_none] at htyped hagain
    exact iff_of_true (Nat.add_right_cancel (htyped.trans hagain.symm)) (by simp)
  · simp only [List.head?_cons, Option.any_some] at htyped hagain
    simp only [List.head?_cons, Option.mem_some_iff, forall_eq']
    have hinjective : ∀ x y : Bool, x = y ↔ x.toNat = y.toNat := by decide
    rw [hinjective]
    omega

/-- **An index is counted as it was typed**, on either side of the white space. -/
theorem count_index_eq {f : List Char} (hf : ∀ c ∈ f, isNumeric c = true) :
    count ('[' :: (f ++ w)) = count ('[' :: (w ++ f)) := by
  have hlast : ∀ c ∈ f.getLast?, breakClass c = .other := fun c hc ↦
    breakClass_of_isNumeric (hf c (List.mem_of_getLast? hc))
  have hhead : ∀ c ∈ f.head?, breakClass c = .other := fun c hc ↦
    breakClass_of_isNumeric (hf c (List.mem_of_mem_head? hc))
  have hloose {c : Char} (hc : c ∈ f ∨ c ∈ w) : (breakClass c).isLoose = true := by
    rcases hc with hc | hc
    · rw [breakClass_of_isNumeric (hf c hc)]
      rfl
    · exact isLoose_of_isBlank (hw c hc)
  rw [count_cons_of_other inert_bracket fun c hc ↦
      hloose (List.mem_append.1 (List.mem_of_mem_head? hc)),
    count_cons_of_other inert_bracket fun c hc ↦
      hloose (List.mem_append.1 (List.mem_of_mem_head? hc)).symm,
    count_append_blank hw hlast, count_blank_append hw hhead, Nat.add_comm (count f)]

end Typed

/-- A bracket belongs to the character before it only if that belongs to whatever follows. -/
theorem joinsTo_bracket_eq_false_iff {s : List Char} :
    joinsTo s '[' = false ↔ ∀ c ∈ s.getLast?, breakClass c ≠ .prepend := by
  rcases List.eq_nil_or_concat s with rfl | ⟨s, x, rfl⟩
  · exact iff_of_true rfl (by simp)
  · rw [List.concat_eq_append, joinsTo_concat (.inr inert_bracket.1), inert_bracket.2]
    simp only [List.getLast?_concat, Option.mem_some_iff, forall_eq']
    cases breakClass x <;> decide

/-- What was typed of a lookup, put together again: the padding stands behind the quote of a key. -/
def Decomposition.reassembled (d : Decomposition) : List Char :=
  d.lookup.text ++ d.padding ++ d.fragment

/-- In a line without placeholder text, the lookup put together again has as many clusters as the
one typed unless it has a key that is joined to what comes before it in one of them only. -/
theorem OpenedAt.count_eq_iff {line left right : List Char} (h : OpenedAt line left right)
    (free : PlaceholderFree line) (hlookup : (decompose line).lookup ≠ .absent) :
    count ('[' :: right) = count (decompose line).reassembled ↔
      ∀ quote, (decompose line).lookup = .key quote →
        ∀ b ∈ (decompose line).padding.getLast?, ∀ c ∈ (decompose line).fragment.head?,
          joinsClasses (breakClass b) (breakClass c) =
            joinsClasses (breakClass quote) (breakClass c) := by
  have hpadding : ∀ c ∈ (decompose line).padding, isBlank c = true := fun c hc ↦
    (isBlank_of_mem_padding hc).1
  have hright := h.right_eq free hlookup
  dsimp only at hright
  rcases hright with ⟨hbracket, hright⟩ | ⟨quote, hkey, hright⟩
  · rw [Decomposition.reassembled, hbracket]
    refine iff_of_true ?_ (by simp)
    rcases hright with hright | ⟨hnumeric, hright⟩
    · rw [hright, Lookup.text, List.append_assoc, List.singleton_append]
    · rw [hright, Lookup.text, List.append_assoc, List.singleton_append]
      exact count_index_eq hpadding hnumeric
  · have hcount := count_key_eq_iff hpadding (isQuote_of_lookup hkey) (decompose line).fragment
    rw [Decomposition.reassembled, hkey, hright, Lookup.text, List.append_assoc, List.cons_append,
      List.singleton_append]
    simpa only [Lookup.key.injEq, forall_eq'] using hcount

/-! ### The dot in its place -/

namespace Console

variable {console : Console}

/-- **A set under a bracket.** Nothing is offered, and nothing of the buffer changes but the text
before the cursor. In its place stands what comes before the bracket, with a dot, exactly if that
does not end in a character joined to whatever follows, and the lookup put together again has as
many clusters as what was typed from the bracket on. Without placeholder text in the line, what
comes before the bracket is the pretext and the expression, and the count is right unless the first
character of a key is joined to the white space typed before the quote but not to the quote, or to
the quote but not to the white space. -/
theorem complete_set (buffer : LineBuffer)
    (notImport : (console.settings.completeImports &&
      isImportStatement (trim buffer.before)) = false)
    (hlookup : (decompose buffer.before).lookup ≠ .absent)
    (hexpr : (decompose buffer.before).expr ≠ []) {items : List Value}
    (hresolve : console.resolve (decompose buffer.before).expr = some (.set items)) :
    let d := decompose buffer.before
    let edited := (console.complete buffer.before buffer).2
    (console.complete buffer.before buffer).1 = [] ∧
      edited = { buffer with before := edited.before } ∧
      ∃ left right, buffer.before = left ++ '[' :: right ∧
        (mask left).text =
          (maskedParts buffer.before).pretext ++ (maskedParts buffer.before).expr ∧
        (edited.before = left ++ ['.'] ↔
          (∀ c ∈ left.getLast?, breakClass c ≠ .prepend) ∧
            count ('[' :: right) = count d.reassembled) ∧
        (PlaceholderFree buffer.before → left = d.pretext ++ d.expr ∧
          (count ('[' :: right) = count d.reassembled ↔
            ∀ quote, d.lookup = .key quote → ∀ b ∈ d.padding.getLast?, ∀ c ∈ d.fragment.head?,
              joinsClasses (breakClass b) (breakClass c) =
                joinsClasses (breakClass quote) (breakClass c))) := by
  intro d edited
  have hcomplete : console.complete buffer.before buffer =
      ([], { buffer with before := dropLast (count d.reassembled) buffer.before ++ ['.'] }) := by
    rw [complete, if_neg (Bool.eq_false_iff.1 notImport)]
    dsimp only
    rw [if_neg hlookup, completeLookup, hresolve]
    simp only [Value.flavour, mendSetLookup, LineBuffer.deleteLeft, LineBuffer.insert,
      Decomposition.reassembled, d]
  have hedited : edited =
      { buffer with before := dropLast (count d.reassembled) buffer.before ++ ['.'] } := by
    rw [show edited = (console.complete buffer.before buffer).2 from rfl, hcomplete]
  obtain ⟨left, right, hopened⟩ := exists_openedAt hlookup
  refine ⟨by rw [hcomplete], by rw [hedited], left, right, hopened.eq_append, hopened.mask_eq, ?_,
    fun free ↦ ⟨hopened.left_eq free hlookup, hopened.count_eq_iff free hlookup⟩⟩
  have hdrop := dropLast_append_eq_iff (hopened.left_ne_nil hexpr) (count d.reassembled) '[' right
  rw [← hopened.eq_append] at hdrop
  rw [hedited, List.append_left_inj, hdrop, joinsTo_bracket_eq_false_iff]
  exact and_congr_right' eq_comm

/-- A key with an accent in it, behind a space and with text after the cursor. -/
theorem complete_set_behind_spaced_key :
    let console := seeing (Namespace.empty.setGlobal "s" (.set [.int 1]))
    let buffer := { LineBuffer.ofText 80 "x = s[ 'cafe\u0301".toList with after := ")".toList }
    (decompose buffer.before).lookup ≠ .absent ∧ (decompose buffer.before).expr = ['s'] ∧
      console.resolve (decompose buffer.before).expr = some (.set [.int 1]) ∧
      console.complete buffer.before buffer = ([], { buffer with before := "x = s.".toList }) := by
  intro console buffer
  have hlookup : (decompose buffer.before).lookup = .key '\'' := by decide +kernel
  have hkeyed : (decompose buffer.before).lookup ≠ .absent := by simp [hlookup]
  have hexpr : (decompose buffer.before).expr = ['s'] := by decide +kernel
  have hresolve : console.resolve (decompose buffer.before).expr = some (.set [.int 1]) := by
    rw [hexpr]
    exact resolve_of_name rfl (by decide) (by decide) (by decide) rfl
  have hpadding : (decompose buffer.before).padding.getLast? = some ' ' := by decide +kernel
  have hfragment : (decompose buffer.before).fragment.head? = some 'c' := by decide +kernel
  have free : PlaceholderFree buffer.before := placeholderFree_of_not_mem (by decide)
  obtain ⟨hnone, hframe, left, right, -, -, hedited, hparts⟩ :=
    complete_set buffer (by decide +kernel) hkeyed (by simp [hexpr]) hresolve
  obtain ⟨hleft, hcount⟩ := hparts free
  have hleft : left = "x = s".toList := hleft.trans (by decide +kernel)
  have hbefore : (console.complete buffer.before buffer).2.before = left ++ ['.'] := by
    refine hedited.2 ⟨?_, hcount.2 ?_⟩
    · rw [hleft, show "x = s".toList.getLast? = some 's' by decide]
      rintro c ⟨⟩
      decide +kernel
    · rw [hlookup, hpadding, hfragment]
      rintro quote ⟨⟩ b ⟨⟩ c ⟨⟩
      decide +kernel
  refine ⟨hkeyed, hexpr, hresolve, Prod.ext hnone ?_⟩
  rw [hframe, hbefore, hleft]
  rfl

/-- An accent in front of the key is joined to its quote, but not to the line feed that comes
behind the quote when the parts are put together: the name in front of the bracket is deleted with
what was typed. The Malayalam sign is a name whose bracket belongs to its cluster. -/
theorem exists_complete_set_ne :
    let console name := seeing (Namespace.empty.setGlobal name (.set [.int 1]))
    let accented := LineBuffer.ofText 80 ("s".toList ++ '[' :: "\n'\u0301".toList)
    let signed := LineBuffer.ofText 80 ("\u0d4e".toList ++ ['['])
    ((decompose accented.before).lookup = .key '\'' ∧
      (decompose accented.before).expr = "s".toList ∧
      (console "s").resolve (decompose accented.before).expr = some (.set [.int 1]) ∧
      ((console "s").complete accented.before accented).2.before ≠ "s".toList ++ ['.']) ∧
    (decompose signed.before).lookup = .bracket ∧
      (decompose signed.before).expr = "\u0d4e".toList ∧
      (console "\u0d4e").resolve (decompose signed.before).expr = some (.set [.int 1]) ∧
      ((console "\u0d4e").complete signed.before signed).2.before ≠ "\u0d4e".toList ++ ['.'] := by
  intro console accented signed
  have hname : (decompose accented.before).expr = "s".toList := by decide +kernel
  have hsign : (decompose signed.before).expr = "\u0d4e".toList := by decide +kernel
  refine ⟨⟨by decide +kernel, hname, ?_, by decide +kernel⟩, by decide +kernel, hsign, ?_,
    by decide +kernel⟩
  · rw [hname]
    exact resolve_of_name rfl (by decide) (by decide) (by decide) rfl
  · rw [hsign]
    exact resolve_of_name rfl (by decide +kernel) (by decide) (by decide) rfl

end Console

end LineCompletion
