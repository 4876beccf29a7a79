import LineCompletion.Proofs.Completion.BareNames
import LineCompletion.Proofs.Completion.KeyPress

/-!
# Pressing the completion key again

Where several names go on from the beginning of one, the key puts in place what they share, and a
second press has nothing left to do but to list them again (`press_press`): the suggestions have the
same values and are shown in the same way and order, the listing is the same, and the rest of the
buffer stays as it is.

**This rests on the words and not on what is appended to them.** What two different words share,
each with its suffix, ends before either suffix begins, because a suffix does not go on as a name
(`prefix_word`). It takes two different words: what one word shares with itself has its suffix in
it. So the text put in place is again the beginning of a name, all the words that went on from the
shorter beginning go on from the longer one, and no others do
(`Console.OffersNames.bareMatches_shared`). The suggestions of the second press have the same
values, and what these share is already there.

Two structures carry the conditions. `EndsInName` is about the line: it ends in the beginning of a
name, with every literal before it closed; a longer beginning of a name leaves that as it is
(`EndsInName.of_prefix`), so the line after the first press is one of these too. `OffersNames` is
about what the console knows: keywords and names are spelled like names, and what is appended to a
keyword does not go on as a name. Of hints this is proved (`isNameChar_of_mem_hint`).

Whether the line is an import statement has to be asked before the press and after it, since a
completed keyword may make one of a line that was none.

The one thing that does change is that the line is to be drawn again, which is asked for at every
press. Members behind a dot and keys in brackets are not looked at here.
-/

namespace LineCompletion

open Text

/-! ### What words share -/

section Words

variable {word word' suffix suffix' shared : List Char}

/-- A word ends where the characters of a name end. -/
theorem takeWhile_word (hword : ∀ c ∈ word, isNameChar c = true)
    (hsuffix : ∀ c ∈ suffix.head?, isNameChar c = false) :
    (word ++ suffix).takeWhile isNameChar = word := by
  rw [List.takeWhile_append_of_pos hword]
  cases suffix with
  | nil => simp
  | cons c suffix => simp [hsuffix c rfl]

/-- **What two different words share ends before what is appended to them.** -/
theorem prefix_word (hword : ∀ c ∈ word, isNameChar c = true)
    (hword' : ∀ c ∈ word', isNameChar c = true)
    (hsuffix : ∀ c ∈ suffix.head?, isNameChar c = false)
    (hsuffix' : ∀ c ∈ suffix'.head?, isNameChar c = false) (hne : word ≠ word')
    (h : shared <+: word ++ suffix) (h' : shared <+: word' ++ suffix') : shared <+: word := by
  rcases List.prefix_or_prefix_of_prefix h (List.prefix_append word suffix) with h | ⟨rest, rfl⟩
  · exact h
  rw [List.prefix_append_right_inj] at h
  cases rest with
  | nil => simp
  | cons c rest =>
    -- Then both words would end where the first suffix begins.
    obtain ⟨more, rfl⟩ := h
    obtain ⟨more', heq⟩ := h'
    have hwords : (word' ++ suffix').takeWhile isNameChar = word := by
      rw [← heq, List.append_assoc]
      exact takeWhile_word hword hsuffix
    exact absurd (hwords.symm.trans (takeWhile_word hword' hsuffix')) hne

end Words

/-! ### Lines that end in a name -/

/-- A line ends in the beginning of a name. -/
structure EndsInName (p s : List Char) : Prop where
  /-- There is no placeholder text in the line. -/
  free : PlaceholderFree (p ++ s)
  /-- Every literal before the name is closed. -/
  closed : Quoteless (mask p).text
  /-- Nothing comes before the name, or a delimiter that closes no bracket. -/
  delimited : ∀ c ∈ p.getLast?, isDelimiter c = true ∧ isCloser c = false
  /-- The name is spelled like one. -/
  name : ∀ c ∈ s, isNameChar c = true
  /-- It is no number. -/
  not_number : ∃ c ∈ s, isNumeric c = false

namespace EndsInName

variable {p s : List Char}

/-- The name may go on. -/
theorem of_prefix {longer : List Char} (h : EndsInName p s) (hlonger : s <+: longer)
    (hname : ∀ c ∈ longer, isNameChar c = true) : EndsInName p longer where
  free := (h.free.part (List.prefix_append p s).isInfix).append fun hmem ↦
    absurd (hname _ hmem) (by decide +kernel)
  closed := h.closed
  delimited := h.delimited
  name := hname
  not_number := h.not_number.imp fun _ hc ↦ ⟨hlonger.subset hc.1, hc.2⟩

/-- Such a line is not blank. -/
theorem not_blank (h : EndsInName p s) : ¬ Blank (p ++ s) := fun hblank ↦ by
  obtain ⟨c, hc, -⟩ := h.not_number
  have hname := h.name c hc
  rw [isNameChar_of_isBlank (hblank c (List.mem_append_right p hc))] at hname
  exact absurd hname (by simp)

end EndsInName

namespace Console

/-! ### What is offered -/

/-- The words that a console can offer are names, and what is appended to one does not go on as a
name. No keyword is there twice. -/
structure OffersNames (console : Console) : Prop where
  /-- No keyword is there twice. -/
  nodup : (console.keywords.map Keyword.word).Nodup
  /-- Keywords are spelled like names. -/
  keyword : ∀ k ∈ console.keywords, ∀ c ∈ k.word.toList, isNameChar c = true
  /-- What is appended to a keyword does not go on as a name. -/
  suffix : ∀ k ∈ console.keywords, ∀ c ∈ k.suffix.toList.head?, isNameChar c = false
  /-- So are the names that can be seen. -/
  name : ∀ b ∈ console.ns.visible, ∀ c ∈ b.1.toList, isNameChar c = true

/-- The words offered for the beginning of a name, each with what is appended to it. -/
def offeredWords (console : Console) (start : List Char) : List (List Char × List Char) :=
  (Keyword.startingWith console.keywords start).map (fun k ↦ (k.word.toList, k.suffix.toList)) ++
    (console.offeredNames start).map fun (name, v) ↦
      (name.toList, (v.hint console.host).suffix console.settings.keyQuote)

variable {console : Console} {start longer : List Char}

/-- What is offered is each word with what is appended to it. -/
theorem bareMatches_eq_map (console : Console) (start : List Char) :
    console.bareMatches start = (console.offeredWords start).map fun w ↦ w.1 ++ w.2 := by
  rw [bareMatches_eq, offeredWords, List.map_append, List.map_map, List.map_map]
  rfl

/-- No word is offered twice. -/
theorem nodup_offeredWords (h : console.OffersNames) (start : List Char) :
    ((console.offeredWords start).map Prod.fst).Nodup := by
  have hnodup := (nodup_offered h.nodup start).map fun _ _ heq ↦ String.toList_injective heq
  simpa [offeredWords, Function.comp_def] using hnodup

/-- A hint does not go on as a name. -/
theorem isNameChar_of_mem_hint (hint : Hint) (quote : Char) :
    ∀ c ∈ (hint.suffix quote).head?, isNameChar c = false := by
  cases hint <;> simp [Hint.suffix] <;> decide

/-- Every word offered is spelled like a name and ends where what is appended begins. -/
theorem OffersNames.word_and_suffix (h : console.OffersNames) {w : List Char × List Char}
    (hw : w ∈ console.offeredWords start) :
    (∀ c ∈ w.1, isNameChar c = true) ∧ ∀ c ∈ w.2.head?, isNameChar c = false := by
  rcases List.mem_append.1 hw with hw | hw
  · obtain ⟨k, hk, rfl⟩ := List.mem_map.1 hw
    have hk := (List.mem_filter.1 hk).1
    exact ⟨h.keyword k hk, h.suffix k hk⟩
  · obtain ⟨⟨name, v⟩, hname, rfl⟩ := List.mem_map.1 hw
    exact ⟨h.name _ (List.mem_filter.1 hname).1, isNameChar_of_mem_hint _ _⟩

/-- Every word that is offered goes on from the beginning. -/
theorem prefix_of_mem_offeredWords {w : List Char × List Char}
    (hw : w ∈ console.offeredWords start) : start <+: w.1 := by
  rcases List.mem_append.1 hw with hw | hw
  · obtain ⟨k, hk, rfl⟩ := List.mem_map.1 hw
    exact List.isPrefixOf_iff_prefix.1 (List.mem_filter.1 hk).2
  · obtain ⟨⟨name, v⟩, hname, rfl⟩ := List.mem_map.1 hw
    exact (mem_offeredNames_iff.1 hname).2.2.1

/-- Of several words there is one that differs from a given one. -/
theorem exists_ne_of_two_le {α β : Type} {l : List α} {f : α → β} (h : (l.map f).Nodup)
    (hlength : 2 ≤ l.length) (b : β) : ∃ a ∈ l, b ≠ f a := by
  obtain - | ⟨first, - | ⟨second, others⟩⟩ := l
  · exact absurd hlength (by simp)
  · exact absurd hlength (by simp)
  · have hne : f first ≠ f second := fun heq ↦ by
      have hfirst := (List.nodup_cons.1 h).1
      rw [heq] at hfirst
      exact hfirst List.mem_cons_self
    by_cases hb : b = f first
    · exact ⟨second, by simp, hb ▸ hne⟩
    · exact ⟨first, by simp, hb⟩

/-- **What several offered words share is the beginning of each of them**, without what is appended
to it. -/
theorem OffersNames.prefix_word (h : console.OffersNames)
    (hseveral : 2 ≤ (console.offeredWords start).length) {shared : List Char}
    (hshared : LongestCommonPrefix (console.bareMatches start) shared) :
    ∀ w ∈ console.offeredWords start, shared <+: w.1 := by
  intro w hw
  obtain ⟨other, hother, hne⟩ := exists_ne_of_two_le (nodup_offeredWords h start) hseveral w.1
  have hstarts {w : List Char × List Char} (hw : w ∈ console.offeredWords start) :
      shared <+: w.1 ++ w.2 :=
    hshared.starts _ (by rw [bareMatches_eq_map]; exact List.mem_map_of_mem hw)
  obtain ⟨hword, hsuffix⟩ := h.word_and_suffix hw
  obtain ⟨hword', hsuffix'⟩ := h.word_and_suffix hother
  exact LineCompletion.prefix_word hword hword' hsuffix hsuffix' hne (hstarts hw) (hstarts hother)

/-- **A longer beginning offers the same**, if every word that was offered goes on from it. -/
theorem bareMatches_eq_of_prefix (hlonger : start <+: longer)
    (h : ∀ w ∈ console.offeredWords start, longer <+: w.1) :
    console.bareMatches longer = console.bareMatches start := by
  have hkeywords : Keyword.startingWith console.keywords longer =
      Keyword.startingWith console.keywords start := by
    refine List.filter_congr fun k hk ↦ Bool.eq_iff_iff.2 ?_
    rw [List.isPrefixOf_iff_prefix, List.isPrefixOf_iff_prefix]
    refine ⟨hlonger.trans, fun hstart ↦ h (k.word.toList, k.suffix.toList) ?_⟩
    refine List.mem_append_left _ (List.mem_map.2 ⟨k, ?_, rfl⟩)
    exact List.mem_filter.2 ⟨hk, List.isPrefixOf_iff_prefix.2 hstart⟩
  have hnames : console.offeredNames longer = console.offeredNames start := by
    rw [offeredNames, hkeywords]
    refine List.filter_congr fun b hb ↦ Bool.eq_iff_iff.2 ?_
    obtain ⟨name, v⟩ := b
    rw [Bool.and_eq_true, Bool.and_eq_true, List.isPrefixOf_iff_prefix, List.isPrefixOf_iff_prefix]
    refine and_congr_left fun hfree ↦ ⟨hlonger.trans, fun hname ↦ ?_⟩
    refine h (name.toList, _) (List.mem_append_right _ (List.mem_map.2 ⟨(name, v), ?_, rfl⟩))
    refine List.mem_filter.2 ⟨hb, ?_⟩
    rw [Bool.and_eq_true, List.isPrefixOf_iff_prefix]
    exact ⟨hname, hfree⟩
  rw [bareMatches_eq, bareMatches_eq, hkeywords, hnames]

/-- **What the offered words share is the beginning of a name again, and offers the same.** -/
theorem OffersNames.bareMatches_shared (h : console.OffersNames)
    (hseveral : 2 ≤ (console.bareMatches start).length) {shared : List Char}
    (hshared : LongestCommonPrefix (console.bareMatches start) shared) :
    start <+: shared ∧ (∀ c ∈ shared, isNameChar c = true) ∧
      console.bareMatches shared = console.bareMatches start := by
  have hlonger : start <+: shared := hshared.longest start fun t ht ↦ by
    rw [bareMatches_eq_map] at ht
    obtain ⟨w, hw, rfl⟩ := List.mem_map.1 ht
    exact (prefix_of_mem_offeredWords hw).trans (List.prefix_append _ _)
  have hwords : 2 ≤ (console.offeredWords start).length := by
    rwa [bareMatches_eq_map, List.length_map] at hseveral
  have hall := h.prefix_word hwords hshared
  refine ⟨hlonger, fun c hc ↦ ?_, bareMatches_eq_of_prefix hlonger hall⟩
  obtain ⟨w, hw⟩ := List.exists_mem_of_length_pos (Nat.lt_of_lt_of_le Nat.zero_lt_two hwords)
  exact (h.word_and_suffix hw).1 c ((hall w hw).subset hc)

/-- What is offered behind a line that ends in the beginning of a name. -/
theorem complete_eq_suggestions (console : Console) {p s : List Char} (buffer : LineBuffer)
    (h : EndsInName p s)
    (notImport :
      (console.settings.completeImports && isImportStatement (trim (p ++ s))) = false) :
    console.complete (p ++ s) buffer =
      (suggestions (p ++ s) p (console.bareMatches s) [], buffer) := by
  obtain ⟨pretext, padding, hsplit, hparts⟩ :=
    decompose_append_name h.free h.closed h.delimited h.name h.not_number
  have hdot : s.contains '.' = false := by
    rw [List.contains_eq_mem, decide_eq_false_iff_not]
    exact fun hmem ↦ absurd (h.name _ hmem) (by decide)
  have hempty : s.isEmpty = false := by
    rw [List.isEmpty_eq_false_iff]
    exact List.ne_nil_of_mem h.not_number.choose_spec.1
  rw [complete_of_absent buffer notImport (by rw [hparts]), completeName, hparts]
  simp only [hdot, hempty, Bool.false_eq_true, if_false, ← hsplit]

/-- The values of suggestions: what was found, behind what stands before it. -/
theorem map_value_suggestions (line before : List Char) (found : List (List Char)) :
    (suggestions line before found []).map Suggestion.value = found.map (before ++ ·) := by
  simp [suggestions, Suggestion.replacing]

/-- What is shown of suggestions: what was found. -/
theorem map_display_suggestions (line before : List Char) (found : List (List Char)) :
    (suggestions line before found []).map Suggestion.display = found := by
  simp [suggestions, Suggestion.replacing, Function.comp_def]

/-- What suggestions share is what stands before them all, and what the matches share. -/
theorem exists_commonPrefix_suggestions {found : List (List Char)} (hne : found ≠ [])
    (line before : List Char) :
    ∃ shared, commonPrefix (suggestions line before found []) = before ++ shared ∧
      LongestCommonPrefix found shared := by
  have hfound : suggestions line before found [] ≠ [] := by simpa [suggestions] using hne
  have hcommon := longestCommonPrefix_commonPrefix hfound
  rw [map_value_suggestions] at hcommon
  exact exists_longestCommonPrefix_append hcommon

end Console

/-! ### Pressing the key -/

namespace TabHandler

/-- What a press of the key leaves where several suggestions replace the whole line. -/
theorem press_of_two_le (handler : TabHandler) {buffer : LineBuffer} {found : List Suggestion}
    (hblank : ¬ Blank buffer.before)
    (hfound : handler.completer buffer.before buffer = (found, buffer))
    (hseveral : 2 ≤ found.length) (hstart : ∀ s ∈ found, s.span.start = 0) :
    (handler.press buffer).2 =
      { buffer with
        before := if buffer.before <+: commonPrefix found then commonPrefix found else buffer.before
        listings := buffer.listings ++
          [handler.layout.listing (found.map Suggestion.display) buffer.width]
        redisplays := buffer.redisplays + 1 } := by
  obtain - | ⟨first, - | ⟨second, others⟩⟩ := found
  · exact absurd hseveral (by simp)
  · exact absurd hseveral (by simp)
  · have hclusters : Grapheme.clusters buffer.before = [] ++ Grapheme.clusters buffer.before := rfl
    rw [press_of_several hblank hfound, offer_eq hclusters (hstart first List.mem_cons_self),
      Grapheme.clusters_flatten]
    rfl

/-- A press of the key behind the beginning of a name that several words go on from: what they share
is put in place, and they are listed. -/
theorem press_of_name (handler : TabHandler) {console : Console} {buffer : LineBuffer}
    {p s shared : List Char} (hcompleter : handler.completer = console.complete)
    (hbefore : buffer.before = p ++ s) (h : EndsInName p s)
    (notImport : (console.settings.completeImports && isImportStatement (trim (p ++ s))) = false)
    (hseveral : 2 ≤ (console.bareMatches s).length)
    (hshared : LongestCommonPrefix (console.bareMatches s) shared) (hlonger : s <+: shared) :
    (handler.press buffer).2 =
      { buffer with
        before := p ++ shared
        listings := buffer.listings ++
          [handler.layout.listing (console.bareMatches s) buffer.width]
        redisplays := buffer.redisplays + 1 } := by
  have hcomplete := console.complete_eq_suggestions buffer h notImport
  have hfound : handler.completer buffer.before buffer =
      (Console.suggestions (p ++ s) p (console.bareMatches s) [], buffer) := by
    rw [hcompleter, hbefore, hcomplete]
  have hlength : 2 ≤ (Console.suggestions (p ++ s) p (console.bareMatches s) []).length := by
    rwa [Console.suggestions, List.length_map]
  obtain ⟨rest, heq, hrest⟩ := Console.exists_commonPrefix_suggestions
    (List.ne_nil_of_length_pos (Nat.lt_of_lt_of_le Nat.zero_lt_two hseveral)) (p ++ s) p
  rw [hrest.unique hshared] at heq
  rw [press_of_two_le handler (hbefore ▸ h.not_blank) hfound hlength fun suggestion hmem ↦
    Console.start_of_mem_complete (by rwa [hcomplete]), heq, hbefore,
    if_pos ((List.prefix_append_right_inj p).2 hlonger), Console.map_display_suggestions]

/-- **A second press of the completion key changes nothing.** The line before the cursor ends in the
beginning of a name, the words that can be offered are names, and several of them go on from it.
Unless the line is an import statement before the press or after it, pressing the key again gives
suggestions with the same values and displays in the same order, writes the same listing, and leaves
the rest of the buffer as it is, but that it is to be drawn again. -/
theorem press_press (handler : TabHandler) {console : Console} {buffer : LineBuffer}
    {p s : List Char} (hcompleter : handler.completer = console.complete)
    (hbefore : buffer.before = p ++ s) (h : EndsInName p s) (hwords : console.OffersNames)
    (notImport : (console.settings.completeImports &&
      isImportStatement (trim buffer.before)) = false)
    (notImport' : (console.settings.completeImports &&
      isImportStatement (trim (handler.press buffer).2.before)) = false)
    (hseveral : 2 ≤ (console.complete buffer.before buffer).1.length) :
    let pressed := (handler.press buffer).2
    let again := (handler.press pressed).2
    let offered (b : LineBuffer) := (console.complete b.before b).1.map fun suggestion ↦
      (suggestion.value, suggestion.display)
    offered pressed = offered buffer ∧
      ∃ listing, pressed.listings = buffer.listings ++ [listing] ∧
        again = { pressed with
          listings := pressed.listings ++ [listing], redisplays := pressed.redisplays + 1 } := by
  intro pressed again offered
  rw [hbefore] at notImport hseveral
  have hcomplete := console.complete_eq_suggestions buffer h notImport
  have hmatches : 2 ≤ (console.bareMatches s).length := by
    rwa [hcomplete, Console.suggestions, List.length_map] at hseveral
  have hpos := Nat.lt_of_lt_of_le Nat.zero_lt_two hmatches
  obtain ⟨shared, -, hshared⟩ := Console.exists_commonPrefix_suggestions
    (List.ne_nil_of_length_pos hpos) (p ++ s) p
  -- The line still ends in the beginning of a name after the press, and the same is offered for it.
  obtain ⟨hlonger, hname, hsame⟩ := hwords.bareMatches_shared hmatches hshared
  have hextended := h.of_prefix hlonger hname
  have hpressed : pressed = _ := press_of_name handler hcompleter hbefore h notImport hmatches
    hshared hlonger
  have hpressedBefore : pressed.before = p ++ shared := by rw [hpressed]
  have notImport' : (console.settings.completeImports &&
      isImportStatement (trim (p ++ shared))) = false := hpressedBefore ▸ notImport'
  have hagain : again = _ := press_of_name handler hcompleter hpressedBefore hextended notImport'
    (hsame ▸ hmatches) (hsame ▸ hshared) List.prefix_rfl
  refine ⟨?_, handler.layout.listing (console.bareMatches s) buffer.width, ?_, ?_⟩
  · have hcompleteAgain := console.complete_eq_suggestions pressed hextended notImport'
    dsimp only [offered]
    rw [hpressedBefore, hbefore, hcomplete, hcompleteAgain, hsame]
    simp only [Console.suggestions, Suggestion.replacing, List.map_map, Function.comp_def]
  · rw [hpressed]
  · rw [hagain, hsame, ← hpressedBefore, hpressed]

/-- A keyword with a colon behind it, a list and a mapping, behind a literal with a bracket in it
and in front of more text. The first press puts in place all that the three words share. -/
theorem press_press_of_three :
    let ns := (Namespace.empty.setGlobal "prefix_a" (.list [])).setGlobal "prefix_b" (.dict [])
    let console := { Console.seeing ns with keywords := [⟨"pass", ""⟩, ⟨"prefix", ":"⟩] }
    let handler : TabHandler := ⟨console.complete, .standard, ['\t']⟩
    let p := "f('(', ".toList
    let s := "pre".toList
    let buffer : LineBuffer := ⟨p ++ s, ")".toList, 80, [], 0⟩
    let pressed := (handler.press buffer).2
    EndsInName p s ∧ console.OffersNames ∧
      2 ≤ (console.complete buffer.before buffer).1.length ∧
      pressed.before = "f('(', prefix".toList ∧
      ∃ listing, pressed.listings = [listing] ∧
        (handler.press pressed).2 = { pressed with
          listings := [listing, listing], redisplays := pressed.redisplays + 1 } := by
  intro ns console handler p s buffer pressed
  have hlast : p.getLast? = some ' ' := by decide
  have hline : EndsInName p s :=
    { free := placeholderFree_of_not_mem (by decide)
      closed := by decide +kernel
      delimited := fun c hc ↦ Option.some.inj (hlast.symm.trans hc) ▸ by decide
      name := List.all_eq_true.1 (by decide +kernel)
      not_number := ⟨'p', by decide +kernel⟩ }
  have hkeywords : console.keywords.all (·.word.toList.all isNameChar) = true := by decide +kernel
  have hnames : console.ns.visible.all (·.1.toList.all isNameChar) = true := by decide +kernel
  have hwords : console.OffersNames :=
    { nodup := by decide +kernel
      keyword := fun k hk ↦ List.all_eq_true.1 (List.all_eq_true.1 hkeywords k hk)
      suffix := fun k hk ↦ by
        rcases List.mem_pair.1 hk with rfl | rfl
        · simp
        · have hcolon : isNameChar ':' = false := by decide +kernel
          simpa using hcolon
      name := fun b hb ↦ List.all_eq_true.1 (List.all_eq_true.1 hnames b hb) }
  have hseveral : 2 ≤ (console.complete buffer.before buffer).1.length := by decide +kernel
  obtain ⟨-, listing, hlisting, hagain⟩ := @press_press handler console _ _ _ rfl rfl hline
    hwords (by decide +kernel) (by decide +kernel) hseveral
  refine ⟨hline, hwords, hseveral, by decide +kernel, listing, hlisting, ?_⟩
  rw [hlisting] at hagain
  exact hagain

end TabHandler

end LineCompletion
