import LineCompletion.Proofs.Completion.KeyPress
import LineCompletion.Proofs.Completion.SetLookup
import LineCompletion.Proofs.Completion.TypedText
import LineCompletion.Proofs.Line.OpenQuote
import Mathlib.Algebra.BigOperators.Group.List.Basic

/-!
# When the line is drawn again

What a press of the completion key reports, and whether it asks for the line to be drawn again. The
two go together on every path (`press_cases`), and where they say that the line is as it was, it is
as the completer left it. So a press is followed on the screen whenever the completer leaves the
buffer alone (`follows_of_completer`).

**What it means to be followed** is a structure with three fields (`TabStatus.Follows`): the line is
reported as changed just when it was once asked to be drawn again; it was asked to be drawn again if
there is anything else to see, be it text, cursor or listings; and a line that is reported as
unchanged is unchanged, and so is the screen.

**A console leaves the buffer alone, but for one case** (`complete_snd`): a set under a bracket,
where it puts a dot in place of what was typed of the lookup and offers nothing (`SubscriptsSet`).
That always changes the text (`dropLast_reassembled_append_ne`). Only the deletion of a single dot
could be undone by the insertion of one, and what is deleted there is a dot only if the lookup is a
single cluster, hence the bracket alone (`Decomposition.eq_of_count_reassembled_le_one`), and then
the line ends in that bracket (`getLast?_mask_of_bracket`).

So a press leaves an old line on the screen exactly when a set stands under the bracket
(`press_follows_iff`), for every console, every way of laying out listings and every indentation.
What is followed there is the pair of what the press reports and asks for; what a terminal does with
it is not part of this.

The first section is about what a fragment behind a bracket can be, which decides how many clusters
the lookup has.
-/

namespace LineCompletion

open Text Decomposition

/-! ### Fragments behind a bracket -/

namespace Decomposition

/-- What is known of the fragment before a bracket is taken off: it starts with a quote, or it is a
number. -/
def Draft.QuotedOrNumeric (d : Draft) : Prop :=
  ∀ typed ∈ d.fragment, (∃ quote rest, typed = quote :: rest ∧ isQuote quote = true) ∨
    ∀ c ∈ typed, isNumeric c = true

/-- What is taken for an index or a key is a number or starts with a quote. -/
theorem quotedOrNumeric_takeIndex (masked : List Char) :
    (Draft.ofMasked masked).takeIndex.QuotedOrNumeric := by
  intro typed htyped
  rw [Draft.takeIndex] at htyped
  split at htyped
  · rename_i hnumber
    obtain rfl := Option.some.inj htyped
    simp only [isNumber, Bool.and_eq_true] at hnumber
    exact .inr (List.all_eq_true.1 hnumber.2.2)
  · rw [fragment_ofMasked] at htyped
    exact .inl ((splitAtOpenQuote_spec masked).2 typed htyped)

/-- Where no quote was taken the fragment is a number. -/
theorem isNumeric_of_takeLookup {d : Draft} (h : d.QuotedOrNumeric)
    (hlookup : d.takeLookup.1 = .bracket) :
    ∀ c ∈ d.takeLookup.2.fragment.getD [], isNumeric c = true := by
  obtain ⟨pretext, expr, padding, fragment⟩ := d
  rw [Draft.takeLookup] at hlookup ⊢
  split at hlookup
  · rename_i hbracket
    rw [if_pos hbracket]
    rcases fragment with - | - | ⟨first, rest⟩
    · simp
    · simp
    · dsimp only at hlookup ⊢
      split at hlookup
      · exact absurd hlookup (by simp)
      · rename_i hquote
        rw [if_neg hquote]
        rcases h (first :: rest) rfl with ⟨quote, typed, heq, hopen⟩ | hnumeric
        · obtain ⟨rfl, -⟩ := List.cons.inj heq
          exact absurd hopen hquote
        · exact hnumeric
  · exact absurd hlookup (by simp)

/-- A call that is left out does not change the fragment. -/
theorem fragment_takeCall (d : Draft) : d.takeCall.fragment = d.fragment := by
  rw [Draft.takeCall]
  split <;> rfl

end Decomposition

/-- Without a quote behind the bracket only a number is a fragment. -/
theorem isNumeric_of_mem_fragment {line : List Char} (h : (decompose line).lookup = .bracket) :
    (decompose line).fragment = (maskedParts line).fragment ∧
      ∀ c ∈ (decompose line).fragment, isNumeric c = true := by
  have hmasked : ∀ c ∈ (maskedParts line).fragment, isNumeric c = true := by
    show ∀ c ∈ (Draft.takeCall _).fragment.getD [], isNumeric c = true
    rw [fragment_takeCall]
    exact isNumeric_of_takeLookup (quotedOrNumeric_takeIndex _) h
  have hrestore : (decompose line).fragment = (maskedParts line).fragment := by
    rw [decompose_eq_restoredBy]
    refine MaskedLine.restore_of_not_mem _ fun hmem ↦ ?_
    exact absurd (hmasked _ hmem) (by decide +kernel)
  exact ⟨hrestore, by rwa [hrestore]⟩

/-! ### The dot makes a difference -/

namespace Text.Grapheme

/-- A text that is not empty has a cluster. -/
theorem count_pos {s : List Char} (h : s ≠ []) : 0 < count s := by
  cases s with
  | nil => exact absurd rfl h
  | cons c rest => exact Nat.succ_pos _

/-- Every cluster that is deleted takes a character with it. -/
theorem length_dropLast_add_le (n : Nat) (s : List Char) :
    (dropLast n s).length + min n (count s) ≤ s.length := by
  have hparts : s.length = (dropLast n s).length +
      ((clusters s).drop ((clusters s).length - n)).flatten.length := by
    rw [dropLast, ← List.length_append, ← List.flatten_append, List.take_append_drop,
      clusters_flatten]
  have hdeleted : ((clusters s).drop ((clusters s).length - n)).length ≤
      ((clusters s).drop ((clusters s).length - n)).flatten.length := by
    rw [List.length_flatten]
    refine le_of_eq_of_le (List.length_map _).symm (List.length_le_sum_of_one_le _ fun k hk ↦ ?_)
    obtain ⟨cluster, hcluster, rfl⟩ := List.mem_map.1 hk
    exact List.length_pos_iff.2 (ne_nil_of_mem_clusters (List.mem_of_mem_drop hcluster))
  rw [List.length_drop] at hdeleted
  rw [count]
  omega

end Text.Grapheme

open Text.Grapheme

/-- What was typed of a lookup is a single cluster only if nothing but the bracket was typed. -/
theorem Decomposition.eq_of_count_reassembled_le_one {line : List Char}
    (hlookup : (decompose line).lookup ≠ .absent)
    (hcount : count (decompose line).reassembled ≤ 1) :
    (decompose line).lookup = .bracket ∧ (decompose line).padding = [] ∧
      (decompose line).fragment = [] := by
  rw [reassembled] at hcount
  rcases hd : (decompose line).lookup with - | - | quote
  · exact absurd hd hlookup
  · rw [hd, Lookup.text, List.append_assoc, List.singleton_append] at hcount
    have hhead : ∀ c ∈ ((decompose line).padding ++ (decompose line).fragment).head?,
        (breakClass c).isLoose = true := fun c hc ↦ by
      rcases List.mem_append.1 (List.mem_of_mem_head? hc) with hpadding | hfragment
      · exact isLoose_of_isBlank (isBlank_of_mem_padding hpadding).1
      · rw [breakClass_of_isNumeric ((isNumeric_of_mem_fragment hd).2 c hfragment)]
        rfl
    rw [count_cons_of_other inert_bracket hhead] at hcount
    have hnil : (decompose line).padding ++ (decompose line).fragment = [] := by
      by_contra hne
      have hpos := count_pos hne
      omega
    exact ⟨rfl, List.append_eq_nil_iff.1 hnil⟩
  · -- The bracket and the quote are two clusters by themselves.
    have hquote := inert_of_isQuote (isQuote_of_lookup hd)
    rw [hd, Lookup.text, List.append_assoc, List.cons_append, List.singleton_append] at hcount
    have hhead : ∀ c ∈ (quote :: ((decompose line).padding ++ (decompose line).fragment)).head?,
        (breakClass c).isLoose = true := fun c hc ↦ by
      rw [← Option.some.inj hc, hquote.2]
      rfl
    rw [count_cons_of_other inert_bracket hhead] at hcount
    have hpos := count_pos (List.cons_ne_nil quote
      ((decompose line).padding ++ (decompose line).fragment))
    omega

/-- A line whose lookup is a bracket alone ends in that. -/
theorem getLast?_mask_of_bracket {line : List Char} (hlookup : (decompose line).lookup = .bracket)
    (hpadding : (decompose line).padding = []) (hfragment : (decompose line).fragment = []) :
    (mask line).text.getLast? = some '[' := by
  obtain ⟨place, hfits, hdivides⟩ := exists_divides_maskedParts line
  rw [(isNumeric_of_mem_fragment hlookup).1] at hfragment
  have hlookup : (maskedParts line).lookup = .bracket := by
    rwa [decompose_eq_restoredBy] at hlookup
  have hpadding : (maskedParts line).padding = [] := by
    rwa [decompose_eq_restoredBy] at hpadding
  rw [hlookup] at hfits
  rw [← hdivides.flatten_eq]
  rcases hfits with rfl | rfl <;> simp [inOrder, hlookup, hpadding, hfragment, Lookup.text]

/-- **The dot that is put in place of a lookup changes the text.** -/
theorem dropLast_reassembled_append_ne {line : List Char}
    (hlookup : (decompose line).lookup ≠ .absent) :
    dropLast (count (decompose line).reassembled) line ++ ['.'] ≠ line := by
  intro heq
  obtain ⟨left, right, hopened⟩ := exists_openedAt hlookup
  have hbracket : '[' ∈ line := by
    rw [hopened.eq_append]
    exact List.mem_append_right _ List.mem_cons_self
  have hlength : (dropLast (count (decompose line).reassembled) line).length + 1 = line.length := by
    simpa using congrArg List.length heq
  have hdeleted := length_dropLast_add_le (count (decompose line).reassembled) line
  rcases Nat.lt_or_ge 1 (count (decompose line).reassembled) with hmany | hone
  · -- Then the whole line is deleted, and was nothing but the dot.
    have hnil : dropLast (count (decompose line).reassembled) line = [] := by
      have hcount : (clusters line).length ≤ 1 := by
        have hline : count line = (clusters line).length := rfl
        omega
      rw [dropLast, Nat.sub_eq_zero_of_le (by omega)]
      rfl
    rw [hnil] at heq
    rw [← heq] at hbracket
    exact absurd hbracket (by decide)
  · obtain ⟨hlookup, hpadding, hfragment⟩ := eq_of_count_reassembled_le_one hlookup hone
    have hlast : line.getLast? = some '.' := by rw [← heq, List.getLast?_concat]
    have hmasked := getLast?_maskFrom (by decide) hlast false 0
    rw [show (maskFrom false 0 line).text.getLast? = some '[' from
      getLast?_mask_of_bracket hlookup hpadding hfragment] at hmasked
    exact absurd hmasked (by decide)

/-! ### Sets under a bracket -/

/-- Only a set behaves like one. -/
theorem Value.exists_of_flavour_eq_set {host : Host} {v : Value} (h : v.flavour host = .set) :
    ∃ items, v = .set items := by
  have hprobe : (if v.supportsLookup then Flavour.probe host v else Flavour.unknown) ≠ .set := by
    rw [Flavour.probe]
    repeat' split
    all_goals simp
  cases v with
  | set items => exact ⟨items, rfl⟩
  | dict | list | tuple => exact absurd h (by simp [flavour])
  | _ => exact absurd h hprobe

namespace Console

/-- A line ends in a lookup in a set. -/
structure SubscriptsSet (console : Console) (line : List Char) : Prop where
  /-- It is no import statement. -/
  notImport : (console.settings.completeImports && isImportStatement (trim line)) = false
  /-- It ends in a lookup. -/
  lookup : (decompose line).lookup ≠ .absent
  /-- The expression before the bracket has a set for its value. -/
  resolve : ∃ items, console.resolve (decompose line).expr = some (.set items)

variable {console : Console} {line : List Char}

/-- What is done to the buffer for a set, as a deletion and a dot. -/
theorem mendSetLookup_eq (d : Decomposition) (buffer : LineBuffer) :
    mendSetLookup d buffer =
      { buffer with before := dropLast (count d.reassembled) buffer.before ++ ['.'] } := rfl

/-- For a set nothing is offered, and the lookup gives way to a dot. -/
theorem SubscriptsSet.complete_eq (h : console.SubscriptsSet line) (buffer : LineBuffer) :
    console.complete line buffer = ([], mendSetLookup (decompose line) buffer) := by
  obtain ⟨items, hitems⟩ := h.resolve
  rw [complete, if_neg (Bool.eq_false_iff.1 h.notImport)]
  dsimp only
  rw [if_neg h.lookup, completeLookup, hitems]
  rfl

/-- A line that ends in a lookup is not blank. -/
theorem SubscriptsSet.not_blank (h : console.SubscriptsSet line) : ¬ Blank line := by
  obtain ⟨left, right, hopened⟩ := exists_openedAt h.lookup
  intro hblank
  refine absurd (hblank '[' ?_) (by decide)
  rw [hopened.eq_append]
  exact List.mem_append_right _ List.mem_cons_self

/-- **A console edits the buffer for a set under a bracket alone.** -/
theorem complete_snd (h : ¬ console.SubscriptsSet line) (buffer : LineBuffer) :
    (console.complete line buffer).2 = buffer := by
  cases himport : console.settings.completeImports && isImportStatement (trim line) with
  | true => rw [complete_of_import buffer himport]
  | false =>
    by_cases hlookup : (decompose line).lookup = .absent
    · rw [complete_of_absent buffer himport hlookup]
    · rw [complete, if_neg (Bool.eq_false_iff.1 himport)]
      dsimp only
      rw [if_neg hlookup, completeLookup]
      split
      · rfl
      · rename_i v hv
        split
        · rfl
        · rfl
        · rename_i hset
          obtain ⟨items, rfl⟩ := Value.exists_of_flavour_eq_set hset
          exact absurd ⟨himport, hlookup, items, hv⟩ h
        · rfl

end Console

/-! ### Pressing the key -/

/-- What a press of the key reports, and what it asks of the terminal, is what it has done. -/
structure TabStatus.Follows (status : TabStatus) (buffer pressed : LineBuffer) : Prop where
  /-- The line is reported as changed just when it was once asked to be drawn again. -/
  redisplay_iff : status = .redisplay ↔ pressed.redisplays = buffer.redisplays + 1
  /-- It was asked to be drawn again if there is anything else to see. -/
  requested : pressed.text ≠ buffer.text ∨ pressed.cursor ≠ buffer.cursor ∨
    pressed.listings ≠ buffer.listings → pressed.redisplays = buffer.redisplays + 1
  /-- A line that is not reported as changed is as it was, and so is the screen. -/
  unchanged : status = .refresh → pressed.text = buffer.text ∧ pressed.cursor = buffer.cursor ∧
    pressed.listings = buffer.listings ∧ pressed.redisplays = buffer.redisplays

namespace TabHandler

variable {handler : TabHandler} {buffer : LineBuffer}

/-- Accepting a suggestion does not ask for anything to be drawn. -/
theorem redisplays_accept (only : Suggestion) (typed : List Char) (buffer : LineBuffer) :
    (accept only typed buffer).redisplays = buffer.redisplays := by
  rw [accept]
  split <;> rfl

/-- Neither does offering several. -/
theorem redisplays_offer (handler : TabHandler) (first : Suggestion) (found : List Suggestion)
    (typed : List Char) (buffer : LineBuffer) :
    (handler.offer first found typed buffer).redisplays = buffer.redisplays := by
  rw [offer]
  split <;> rfl

/-- **What a press can do.** It has the line drawn again, it does nothing on a blank line, or it
finds nothing to offer and leaves the buffer as the completer did. -/
theorem press_cases (handler : TabHandler) (buffer : LineBuffer) :
    let completed := (handler.completer buffer.before buffer).2
    (handler.press buffer).1 = .redisplay ∧
        ((handler.press buffer).2.redisplays = buffer.redisplays + 1 ∨
          (handler.press buffer).2.redisplays = completed.redisplays + 1) ∨
      handler.press buffer = (.refresh, buffer) ∨ handler.press buffer = (.refresh, completed) := by
  dsimp only
  rw [press]
  split
  · split
    · exact .inr (.inl rfl)
    · exact .inl ⟨rfl, .inl rfl⟩
  · rcases handler.completer buffer.before buffer with ⟨found, completed⟩
    dsimp only
    split
    · exact .inr (.inr rfl)
    · exact .inl ⟨rfl, .inr (congrArg (· + 1) (redisplays_accept _ _ _))⟩
    · exact .inl ⟨rfl, .inr (congrArg (· + 1) (redisplays_offer _ _ _ _ _))⟩

/-- A completer that leaves the buffer alone is followed. -/
theorem follows_of_completer (handler : TabHandler)
    (h : (handler.completer buffer.before buffer).2 = buffer) :
    (handler.press buffer).1.Follows buffer (handler.press buffer).2 := by
  have hcases := handler.press_cases buffer
  dsimp only at hcases
  rw [h, or_self, or_self] at hcases
  rcases hcases with ⟨hstatus, hredisplays⟩ | hpress
  · exact ⟨iff_of_true hstatus hredisplays, fun _ ↦ hredisplays, fun hrefresh ↦
      absurd (hstatus.symm.trans hrefresh) (by simp)⟩
  · rw [hpress]
    exact ⟨iff_of_false (by simp) (by simp), fun hchanged ↦ by simp at hchanged,
      fun _ ↦ ⟨rfl, rfl, rfl, rfl⟩⟩

/-- Where a set stands under the bracket a press reports no change, whatever has been done to the
buffer. -/
theorem press_of_subscriptsSet {console : Console}
    (hcompleter : handler.completer = console.complete) (h : console.SubscriptsSet buffer.before) :
    handler.press buffer =
      (.refresh, Console.mendSetLookup (decompose buffer.before) buffer) := by
  simp only [press, isEmpty_trim_iff, h.not_blank, hcompleter, h.complete_eq, if_false]

/-- **The screen follows the buffer except for a set under a bracket.** Whatever a console sees, it
is reported that the line was changed just when it was once asked to be drawn again. A press that
has changed the text, the cursor or the listings has asked for that, and one that reports no change
has made none, if and only if the line does not end in a lookup in a set. There the text before the
cursor changes, and nothing else: no change is reported, and the old line stays on the screen. -/
theorem press_follows_iff (console : Console) (layout : Layout) (indent : List Char)
    (buffer : LineBuffer) :
    let handler : TabHandler := ⟨console.complete, layout, indent⟩
    let status := (handler.press buffer).1
    let pressed := (handler.press buffer).2
    (status = .redisplay ↔ pressed.redisplays = buffer.redisplays + 1) ∧
      (status.Follows buffer pressed ↔ ¬ console.SubscriptsSet buffer.before) ∧
      (console.SubscriptsSet buffer.before → status = .refresh ∧
        pressed.before ≠ buffer.before ∧ pressed = { buffer with before := pressed.before }) := by
  intro handler status pressed
  by_cases hset : console.SubscriptsSet buffer.before
  · have hpress : handler.press buffer = _ := press_of_subscriptsSet rfl hset
    rw [Console.mendSetLookup_eq] at hpress
    have hstatus : status = .refresh := congrArg Prod.fst hpress
    have hpressed : pressed = _ := congrArg Prod.snd hpress
    have hredisplays : pressed.redisplays = buffer.redisplays := by rw [hpressed]
    have hafter : pressed.after = buffer.after := by rw [hpressed]
    have hbefore : pressed.before ≠ buffer.before := by
      rw [hpressed]
      exact dropLast_reassembled_append_ne hset.lookup
    refine ⟨iff_of_false (by rw [hstatus]; simp) (by omega),
      iff_of_false (fun hfollows ↦ hbefore ?_) fun h ↦ h hset,
      fun _ ↦ ⟨hstatus, hbefore, by rw [hpressed]⟩⟩
    -- The text after the cursor is the same, so that before it would be.
    have htext := (hfollows.unchanged hstatus).1
    rwa [LineBuffer.text, LineBuffer.text, hafter, List.append_left_inj] at htext
  · have hfollows : status.Follows buffer pressed :=
      handler.follows_of_completer (Console.complete_snd hset buffer)
    exact ⟨hfollows.redisplay_iff, iff_of_true hfollows hset, fun h ↦ absurd h hset⟩

/-- A set bound to a name: its bracket gives way to a dot, and the line is not drawn again. -/
theorem exists_not_follows :
    let console := Console.seeing (Namespace.empty.setGlobal "s" (.set [.int 1]))
    let handler : TabHandler := ⟨console.complete, .standard, ['\t']⟩
    let buffer := LineBuffer.ofText 80 "s[".toList
    handler.press buffer = (.refresh, .ofText 80 "s.".toList) ∧
      ¬ (handler.press buffer).1.Follows buffer (handler.press buffer).2 := by
  intro console handler buffer
  have hpress : handler.press buffer = (.refresh, .ofText 80 "s.".toList) := by decide +kernel
  refine ⟨hpress, fun hfollows ↦ ?_⟩
  have htext := (hfollows.unchanged (congrArg Prod.fst hpress)).1
  rw [hpress] at htext
  exact absurd htext (by decide)

end TabHandler

end LineCompletion
