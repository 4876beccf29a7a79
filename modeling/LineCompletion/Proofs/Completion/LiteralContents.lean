import LineCompletion.Proofs.Completion.TypedText
import LineCompletion.Proofs.Line.Contents

/-!
# Completion does not look into literals

Two lines that differ only in the contents of a literal, and have that literal before the
expression, are completed alike: the same suggestions in the same order, shown in the same way, each
with the literal that its line has (`complete_with_contents`).

**One answer for both lines.** The literal is in the pretext of either line, and the other parts are
the same (`decompose_with_contents`). All that is found is found by those, and the pretext is put in
front afterwards, in the same way for every kind of suggestion (`Suggestion.keeping`). So
`exists_complete_eq` gives, for the parts behind the pretext, one list of what is added, and every
line with those parts is completed by that list, whatever its pretext is. The two lines are two uses
of it, and no relation between two runs is needed. It is had from the two kinds of completion one by
one (`exists_completeName_eq`, `exists_completeLookup_eq`).

Completion looks at one more thing, which is whether the line is an import statement. That is
decided before the first quote (`isImportStatement_append_quote`), so two lines with the same text
up to a literal are both import statements or neither is.

Which other contents a literal may be given is the relation `OtherContents`: plain ones on one line,
without quotes, backslashes and placeholder text, so that they are masked in one piece again. The
literal has to be one that masking takes out (`MaskedAt`), and there is such a place in the line for
every literal that is masked. The buffer is included: what a completion does to it is the same for
both lines too, as it depends on the parts of the lookup alone.

Nothing is said of a literal inside the expression, as a key in a subscript is. There its contents
matter, as they should.
-/

namespace LineCompletion

open Text

/-! ### The beginning of a line -/

/-- Whether a text starts with a word is decided before a character that the word does not have, or
by that character. -/
theorem startsWithWord_append_cons {c : Char} {word : List Char} (hc : c ∉ word)
    (s t t' : List Char) :
    startsWithWord word (s ++ c :: t) = startsWithWord word (s ++ c :: t') := by
  have hbegins (u : List Char) (hstart : word <+: s ++ c :: u) : word <+: s := by
    rcases List.prefix_or_prefix_of_prefix hstart (List.prefix_append s _) with h | ⟨rest, rfl⟩
    · exact h
    · rw [List.prefix_append_right_inj] at hstart
      have hrest : c ∉ rest := fun hmem ↦ hc (List.mem_append_right s hmem)
      obtain rfl := eq_nil_of_prefix_cons hrest hstart
      exact (List.append_nil s).symm ▸ List.prefix_rfl
  by_cases hword : word <+: s
  · obtain ⟨rest, rfl⟩ := hword
    rw [startsWithWord, startsWithWord, List.append_assoc, List.append_assoc, List.drop_left,
      List.drop_left, List.isPrefixOf_iff_prefix.2 (List.prefix_append _ _),
      List.isPrefixOf_iff_prefix.2 (List.prefix_append _ _)]
    cases rest <;> rfl
  · have hlonger (u : List Char) : word.isPrefixOf (s ++ c :: u) = false :=
      Bool.eq_false_iff.2 fun hstart ↦ hword (hbegins u (List.isPrefixOf_iff_prefix.1 hstart))
    rw [startsWithWord, startsWithWord, hlonger, hlonger]
    rfl

/-- Whether a line is an import statement is decided before its first quote. -/
theorem isImportStatement_append_quote {quote : Char} (hquote : isQuote quote = true)
    (s t t' : List Char) :
    isImportStatement (trim (s ++ quote :: t)) = isImportStatement (trim (s ++ quote :: t')) := by
  have hblank : isBlank quote = false := (opens_of_isQuote hquote).notBlank
  have himport : quote ∉ "import".toList := by
    rcases isQuote_iff.1 hquote with rfl | rfl <;> decide
  have hfrom : quote ∉ "from".toList := by
    rcases isQuote_iff.1 hquote with rfl | rfl <;> decide
  rw [trim_append_cons hblank, trim_append_cons hblank, isImportStatement, isImportStatement,
    startsWithWord_append_cons himport _ _ (trimEnd t'),
    startsWithWord_append_cons hfrom _ _ (trimEnd t')]

/-! ### What is kept and what comes after -/

/-- A suggestion that keeps what a line begins with and goes on with a text of its own. -/
def Suggestion.keeping (line kept : List Char) (added : List Char × List Char) : Suggestion :=
  .replacing line (kept ++ added.1) added.2

/-- A part of what is kept may be counted to what is added. -/
theorem Suggestion.keeping_append (line kept behind : List Char) :
    keeping line (kept ++ behind) =
      keeping line kept ∘ fun added ↦ (behind ++ added.1, added.2) := by
  funext added
  rw [Function.comp_apply, keeping, keeping, List.append_assoc]

namespace Console

variable (console : Console) (parts : Decomposition)

/-- What is found goes behind the pretext with all that is put around it. -/
theorem exists_suggestions_eq (before : List Char) (found : List (List Char)) (after : List Char) :
    ∃ added : List (List Char × List Char), ∀ line pretext,
      suggestions line (pretext ++ before) found after =
        added.map (Suggestion.keeping line pretext) := by
  refine ⟨found.map fun s ↦ (before ++ s ++ after, s), fun line pretext ↦ ?_⟩
  rw [suggestions, List.map_map]
  refine List.map_congr_left fun s _ ↦ ?_
  simp [Suggestion.keeping]

/-- What is found for a name does not depend on the pretext. -/
theorem exists_completeName_eq : ∃ added : List (List Char × List Char), ∀ line pretext,
    console.completeName line { parts with pretext := pretext } =
      added.map (Suggestion.keeping line pretext) := by
  simpa only [completeName] using exists_suggestions_eq parts.padding _ []

/-- What is found for a lookup does not depend on the pretext, and neither does what is done to the
buffer. -/
theorem exists_completeLookup_eq (buffer : LineBuffer) :
    ∃ (added : List (List Char × List Char)) (edited : LineBuffer), ∀ line pretext,
      console.completeLookup line { parts with pretext := pretext } buffer =
        (added.map (Suggestion.keeping line pretext), edited) := by
  rcases hv : console.resolve parts.expr with - | v
  · exact ⟨[], buffer, fun _ _ ↦ by simp only [completeLookup, hv]; rfl⟩
  rcases hflavour : v.flavour console.host with - | - | - | -
  · let quote := parts.lookup.quote?.getD console.settings.keyQuote
    obtain ⟨added, hadded⟩ := exists_suggestions_eq (parts.expr ++ '[' :: parts.padding ++ [quote])
      (console.keyMatches v parts.fragment) [quote, ']']
    refine ⟨added, buffer, fun line pretext ↦ ?_⟩
    rw [← hadded]
    simp only [completeLookup, hv, hflavour, List.append_assoc, quote]
  · obtain ⟨added, hadded⟩ := exists_suggestions_eq
      (parts.expr ++ parts.lookup.text ++ parts.padding) (console.indexMatches v parts.fragment)
      [']']
    refine ⟨added, buffer, fun line pretext ↦ ?_⟩
    rw [← hadded]
    simp only [completeLookup, hv, hflavour, List.append_assoc]
  · refine ⟨[], mendSetLookup parts buffer, fun line pretext ↦ ?_⟩
    simp only [completeLookup, hv, hflavour]
    rfl
  · refine ⟨[], buffer, fun line pretext ↦ ?_⟩
    simp only [completeLookup, hv, hflavour]
    rfl

/-- What is offered for a line that is no import statement depends on its pretext in one way only:
every suggestion keeps it. -/
theorem exists_complete_eq (buffer : LineBuffer) :
    ∃ (added : List (List Char × List Char)) (edited : LineBuffer), ∀ line pretext,
      (console.settings.completeImports && isImportStatement (trim line)) = false →
      decompose line = { parts with pretext := pretext } →
        console.complete line buffer = (added.map (Suggestion.keeping line pretext), edited) := by
  by_cases hlookup : parts.lookup = .absent
  · obtain ⟨added, hadded⟩ := console.exists_completeName_eq parts
    refine ⟨added, buffer, fun line pretext notImport hparts ↦ ?_⟩
    rw [← hadded, ← hparts]
    exact (if_neg (Bool.eq_false_iff.1 notImport)).trans (if_pos (by rw [hparts]; exact hlookup))
  · obtain ⟨added, edited, hadded⟩ := console.exists_completeLookup_eq parts buffer
    refine ⟨added, edited, fun line pretext notImport hparts ↦ ?_⟩
    rw [← hadded, ← hparts]
    exact (if_neg (Bool.eq_false_iff.1 notImport)).trans (if_neg (by rw [hparts]; exact hlookup))

end Console

/-- **Completion does not look into literals.** Take a line without placeholder text, not an import
statement, and a literal in it that ends up in the pretext. With any other plain contents of the
literal, the masked text is the same, and so are the parts of the line but for the literal in the
pretext; and the same is offered, one suggestion after the other and shown in the same way, each
with the literal of its line. Every literal that is masked has such a place in the line
(`exists_maskedAt`). -/
theorem complete_with_contents {console : Console} {left literal literal' right : List Char}
    (free : PlaceholderFree (left ++ literal ++ right))
    (notImport : (console.settings.completeImports &&
      isImportStatement (trim (left ++ literal ++ right))) = false)
    (h : MaskedAt left literal right)
    (hkept : left ++ literal <+: (decompose (left ++ literal ++ right)).pretext)
    (hother : OtherContents literal literal') (buffer : LineBuffer) :
    let line := left ++ literal ++ right
    let line' := left ++ literal' ++ right
    (mask line').text = (mask line).text ∧
      (∃ behind, (decompose line).pretext = left ++ literal ++ behind ∧
        decompose line' = { decompose line with pretext := left ++ literal' ++ behind }) ∧
      ∃ (added : List (List Char × List Char)) (edited : LineBuffer),
        console.complete line buffer =
          (added.map (Suggestion.keeping line (left ++ literal)), edited) ∧
        console.complete line' buffer =
          (added.map (Suggestion.keeping line' (left ++ literal')), edited) := by
  intro line line'
  obtain ⟨htext, behind, hpretext, hparts⟩ := decompose_with_contents free h hkept hother
  obtain ⟨added, edited, hadded⟩ := console.exists_complete_eq (decompose line) buffer
  have notImport' :
      (console.settings.completeImports && isImportStatement (trim line')) = false := by
    obtain @⟨quote, body, body', hquote, -⟩ := hother
    have hquoted (s : List Char) :
        left ++ (quote :: s ++ [quote]) ++ right = left ++ quote :: (s ++ quote :: right) := by
      simp
    rw [← notImport, hquoted body, show line' = _ from hquoted body',
      isImportStatement_append_quote hquote left _ (body ++ quote :: right)]
  have hline := hadded line (decompose line).pretext notImport rfl
  have hline' := hadded line' _ notImport' hparts
  rw [hpretext] at hline
  refine ⟨htext, ⟨behind, hpretext, hparts⟩,
    added.map fun added ↦ (behind ++ added.1, added.2), edited, ?_, ?_⟩
  · rw [hline, List.map_map, Suggestion.keeping_append]
  · rw [hline', List.map_map, Suggestion.keeping_append]

/-- Other contents for a literal with an escaped quote in it, behind a quote that is not closed. -/
theorem complete_behind_open_quote :
    let left := "\"x(".toList
    let literal := "'a\\']'".toList
    let literal' := "'), ('".toList
    let right := ") + ab'".toList
    PlaceholderFree (left ++ literal ++ right) ∧
      (oneWordConsole.settings.completeImports &&
        isImportStatement (trim (left ++ literal ++ right))) = false ∧
      MaskedAt left literal right ∧
      left ++ literal <+: (decompose (left ++ literal ++ right)).pretext ∧
      OtherContents literal literal' ∧
      (oneWordConsole.complete (left ++ literal ++ right) (.ofText 80 [])).1.map (·.value) =
        ["\"x('a\\']') + abc".toList] ∧
      (oneWordConsole.complete (left ++ literal' ++ right) (.ofText 80 [])).1.map (·.value) =
        ["\"x('), (') + abc".toList] := by
  intro left literal literal' right
  have free : PlaceholderFree (left ++ literal ++ right) :=
    placeholderFree_of_not_mem (by decide)
  have notImport : (oneWordConsole.settings.completeImports &&
      isImportStatement (trim (left ++ literal ++ right))) = false := by decide +kernel
  have hmasked : MaskedAt left literal right := by decide +kernel
  have hkept : left ++ literal <+: (decompose (left ++ literal ++ right)).pretext := by
    decide +kernel
  have hother : OtherContents literal literal' :=
    @OtherContents.mk '\'' "a\\']".toList "), (".toList (by decide)
      ⟨by decide, by decide, placeholderFree_of_not_mem (by decide)⟩
  obtain ⟨-, -, added, edited, hline, hline'⟩ :=
    complete_with_contents free notImport hmasked hkept hother (.ofText 80 [])
  have hfound : (oneWordConsole.complete (left ++ literal ++ right) (.ofText 80 [])).1.map
      (·.value) = [left ++ literal ++ ") + abc".toList] := by decide +kernel
  refine ⟨free, notImport, hmasked, hkept, hother, hfound, ?_⟩
  rw [hline, List.map_map] at hfound
  rw [hline', List.map_map]
  obtain ⟨rest, rfl, hrest⟩ := List.map_eq_singleton_iff.1 hfound
  have hrest : rest.1 = ") + abc".toList := List.append_cancel_left hrest
  show [left ++ literal' ++ rest.1] = _
  rw [hrest]
  rfl

end LineCompletion
