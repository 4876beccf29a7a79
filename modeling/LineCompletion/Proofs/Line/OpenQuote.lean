import LineCompletion.Proofs.Line.Lookup
import LineCompletion.Proofs.Line.Pieces

/-!
# The quote that is still open

A line may leave quotes over when it is masked, and what is typed from the open one on is split off:
it is the fragment, behind the quote of a key if that was moved to the lookup (`unclosed`). Whatever
else is taken off the line, this text is the masked text from some quote on, restored
(`unclosed_decompose`).

Which quote that is depends on its kind. It is the first single quote, wherever double quotes stand,
and only without any the first double quote. So it is the first quote of the masked text exactly if
that is a single quote or no single quote follows it (`unclosed_eq_restore_iff`); an apostrophe in a
key between double quotes is taken for the quote that opens it (`exists_unclosed_ne_restore`).

**What one would expect.** The first quote that masking leaves over is the one that opens what is
being typed, since every literal before it was closed. Looking for the two kinds of quotes one after
the other finds another one, if both are left over in the wrong order. The condition is one on the
masked line and not on the line: quotes in closed literals do not count, so a key between double
quotes may hold whole literals between single ones (`unclosed_eq_restore_behind_key`).

**Following the fragment.** The open quote is found by the first draft. The steps behind it move
text between the lookup and the fragment and never between these two and the rest
(`unclosed_takeLookup`, `unclosed_takeCall`), so it is enough to say what the first draft splits
off.

**Literals behind the quote.** What is split off may hold literals that were masked, between quotes
of the other kind. They are put back with it, and restoring leaves the quote in front of them alone
(`MaskedLine.restore_cons_of_isQuote`).
-/

namespace LineCompletion

open Text Decomposition

namespace Decomposition

/-- What was typed of a key or a string, from the quote that opens it on. -/
def unclosed (d : Decomposition) : List Char := d.lookup.quote?.toList ++ d.fragment

/-! ### Following the fragment -/

/-- The fragment of the first draft is what is split off at the open quote. -/
theorem fragment_ofMasked (masked : List Char) :
    (Draft.ofMasked masked).fragment = (splitAtOpenQuote masked).2 := by
  rw [Draft.ofMasked]
  dsimp only
  split <;> rfl

/-- Behind an open quote no index is taken off. -/
theorem takeIndex_of_fragment {d : Draft} {text : List Char} (h : d.fragment = some text) :
    d.takeIndex = d := by
  rw [Draft.takeIndex, h, if_neg (by simp)]

/-- Taking a lookup off moves a quote from the fragment to the lookup, where it is counted again. -/
theorem unclosed_takeLookup (d : Draft) :
    (d.takeLookup.2.parts d.takeLookup.1).unclosed = d.fragment.getD [] := by
  rw [Draft.takeLookup]
  split
  · obtain ⟨pretext, expr, padding, fragment⟩ := d
    rcases fragment with - | - | ⟨c, rest⟩
    · rfl
    · rfl
    · dsimp only
      split <;> rfl
  · rfl

/-- Taking opened arguments off leaves the open quote alone. -/
theorem unclosed_takeCall (d : Draft) (lookup : Lookup) :
    (d.takeCall.parts lookup).unclosed = (d.parts lookup).unclosed := by
  rw [Draft.takeCall]
  split <;> rfl

end Decomposition

/-- What the parts of a masked line have of the open quote is the masked text from it on. -/
theorem unclosed_maskedParts {line text : List Char}
    (h : (splitAtOpenQuote (mask line).text).2 = some text) :
    (maskedParts line).unclosed = text := by
  have hfragment := (fragment_ofMasked (mask line).text).trans h
  calc (maskedParts line).unclosed
      = ((Draft.ofMasked (mask line).text).takeIndex.takeLookup.2.parts
          (Draft.ofMasked (mask line).text).takeIndex.takeLookup.1).unclosed :=
        unclosed_takeCall _ _
    _ = (Draft.ofMasked (mask line).text).takeIndex.fragment.getD [] := unclosed_takeLookup _
    _ = text := by rw [takeIndex_of_fragment hfragment, hfragment, Option.getD_some]

/-- A quote is left alone by restoring. -/
theorem MaskedLine.restore_cons_of_isQuote (masked : MaskedLine) {quote : Char}
    (h : isQuote quote = true) (s : List Char) :
    masked.restore (quote :: s) = quote :: masked.restore s := by
  refine masked.restore_append_of_open_not_mem (s := [quote]) (fun hmem ↦ ?_) s
  rw [List.mem_singleton] at hmem
  exact absurd h (by rw [← hmem]; decide)

/-- **What is split off is the masked text from the open quote on, restored.** -/
theorem unclosed_decompose {line text : List Char}
    (h : (splitAtOpenQuote (mask line).text).2 = some text) :
    (decompose line).unclosed = (mask line).restore text := by
  rw [decompose_eq_restoredBy, ← unclosed_maskedParts h]
  show (maskedParts line).lookup.quote?.toList ++ (mask line).restore (maskedParts line).fragment =
    (mask line).restore ((maskedParts line).lookup.quote?.toList ++ (maskedParts line).fragment)
  rcases hlookup : (maskedParts line).lookup with - | - | quote
  · rfl
  · rfl
  · have hquote : isQuote quote = true := by
      refine @isQuote_of_lookup line quote ?_
      rw [decompose_eq_restoredBy]
      exact hlookup
    exact ((mask line).restore_cons_of_isQuote hquote _).symm

/-! ### Which quote is open -/

/-- The first single quote is open, whatever stands before it. -/
theorem unclosed_of_single {line before rest : List Char}
    (hmasked : (mask line).text = before ++ '\'' :: rest) (h : '\'' ∉ before) :
    (decompose line).unclosed = (mask line).restore ('\'' :: rest) :=
  unclosed_decompose (by rw [hmasked, splitAtOpenQuote_of_single h])

/-- The first quote is open if it is a double one and no single quote comes behind it. -/
theorem unclosed_of_double {line before rest : List Char}
    (hmasked : (mask line).text = before ++ '"' :: rest) (h : Quoteless before)
    (hrest : '\'' ∉ rest) :
    (decompose line).unclosed = (mask line).restore ('"' :: rest) :=
  unclosed_decompose (by rw [hmasked, splitAtOpenQuote_of_double h hrest])

/-- **What is split off starts at the first quote left over just when no single quote comes behind a
double one.** In a masked line whose first quote is given, the text that is split off is the line
from that quote on, its literals put back, exactly if the quote is a single one or no single quote
follows. From the first single quote on it is, if there is one. -/
theorem unclosed_eq_restore_iff {line left right : List Char} {quote : Char}
    (hmasked : (mask line).text = left ++ quote :: right) (hleft : Quoteless left)
    (hquote : isQuote quote = true) :
    ((decompose line).unclosed = (mask line).restore (quote :: right) ↔
        quote = '\'' ∨ '\'' ∉ right) ∧
      ∀ before rest, quote :: right = before ++ '\'' :: rest → '\'' ∉ before →
        (decompose line).unclosed = (mask line).restore ('\'' :: rest) := by
  have hnone : '\'' ∉ left := fun hmem ↦ absurd (hleft _ hmem) (by decide)
  have hsingle (before rest : List Char) (heq : quote :: right = before ++ '\'' :: rest)
      (hbefore : '\'' ∉ before) :
      (decompose line).unclosed = (mask line).restore ('\'' :: rest) := by
    refine @unclosed_of_single line (left ++ before) rest ?_ ?_
    · rw [hmasked, heq, List.append_assoc]
    · rw [List.mem_append, not_or]
      exact ⟨hnone, hbefore⟩
  refine ⟨⟨fun hunclosed ↦ ?_, ?_⟩, hsingle⟩
  · -- Behind a double quote a single one would be where the text begins.
    by_contra hnot
    rw [not_or, not_not] at hnot
    obtain ⟨hne, hmem⟩ := hnot
    obtain ⟨before, rest, hright, hbefore⟩ := List.eq_append_cons_of_mem hmem
    have hbefore : '\'' ∉ quote :: before := by
      rw [List.mem_cons, not_or]
      exact ⟨fun heq ↦ hne heq.symm, hbefore⟩
    rw [hsingle (quote :: before) rest (by rw [hright]; rfl) hbefore,
      (mask line).restore_cons_of_isQuote (by decide),
      (mask line).restore_cons_of_isQuote hquote] at hunclosed
    exact hne (List.cons.inj hunclosed).1.symm
  · rintro (rfl | hright)
    · exact unclosed_of_single hmasked hnone
    · rcases isQuote_iff.1 hquote with rfl | rfl
      · exact unclosed_of_single hmasked hnone
      · exact unclosed_of_double hmasked hleft hright

/-- A key between double quotes that has literals between single ones in it, behind another key. -/
theorem unclosed_eq_restore_behind_key :
    let line := "d['k'][\"a 'b' c".toList
    let left := "d[".toList ++ placeholder 0 ++ "][".toList
    let right := "a ".toList ++ placeholder 1 ++ " c".toList
    (mask line).text = left ++ '"' :: right ∧ Quoteless left ∧
      (decompose line).unclosed = (mask line).restore ('"' :: right) ∧
      (decompose line).unclosed = "\"a 'b' c".toList := by
  intro line left right
  have hmasked : (mask line).text = left ++ '"' :: right := by decide +kernel
  have hleft : Quoteless left := by decide +kernel
  exact ⟨hmasked, hleft,
    (unclosed_eq_restore_iff hmasked hleft (by decide)).1.2 (.inr (by decide +kernel)),
    by decide +kernel⟩

/-- An apostrophe in a key between double quotes is taken for the quote that opens the key. -/
theorem exists_unclosed_ne_restore :
    ∃ (line left right : List Char) (quote : Char), (mask line).text = left ++ quote :: right ∧
      Quoteless left ∧ isQuote quote = true ∧
      (decompose line).unclosed ≠ (mask line).restore (quote :: right) :=
  ⟨"d[\"it's".toList, "d[".toList, "it's".toList, '"', by decide +kernel, by decide,
    by decide, by decide +kernel⟩

end LineCompletion
