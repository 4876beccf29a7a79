import LineCompletion.Proofs.Line.Restoring
import LineCompletion.Proofs.Text.Literal

/-!
# Masking goes from left to right

What masking does to the beginning of a line does not depend on what follows, once no quote of the
beginning is left over: every literal that opens in it then closes in it. `exists_maskFrom_append`
says so. What follows is masked on its own, its literals numbered after those before, and the only
thing carried over is whether a backslash stands at the seam. That matters to a quote and to nothing
else, so it does not where no quote is left over either (`maskFrom_escaped`).

From the other side, a character found in the masked line stands in the line, and what comes before
it is masked as if the line ended there (`exists_append_of_maskFrom`), whatever quotes are left
over.

**One step.** A step of masking takes a literal off the front of the text, or a character. Which of
the two it is, is decided by `leadingLiteral?` and the backslash before (`char_or_literal`), and
either step is one equation (`maskFrom_literal`, `maskFrom_char`). Nothing later unfolds `maskFrom`
again. In these equations a masked text is a sum: what the step masks, followed by what the rest is
masked as, with texts and literals both joined. So a statement on masked texts says at once what
becomes of the text and which literals there are.

**The condition on quotes.** `Quoteless` is asked of the masked text, where it is weaker than it
would be of the text: the quotes of its literals are gone there. That a text is `Unquoted` is more.
It has no quotes and no backslashes at all, and so it is masked as itself and without any effect on
what follows.

**What fails otherwise.** A quote that is left over is one whose partner has not been typed. As soon
as it is typed, everything between them becomes a literal, so the same beginning is then masked
otherwise. This is why a line with an open quote can be said little about by its parts.
-/

namespace LineCompletion

open Text

/-- There is no quote in a text. -/
def Quoteless (s : List Char) : Prop := ∀ c ∈ s, isQuote c = false

instance (s : List Char) : Decidable (Quoteless s) := List.decidableBAll _ s

/-- Two texts have no quotes together if neither has one. -/
theorem quoteless_append {s t : List Char} : Quoteless (s ++ t) ↔ Quoteless s ∧ Quoteless t :=
  List.forall_mem_append

theorem quoteless_cons {c : Char} {s : List Char} :
    Quoteless (c :: s) ↔ isQuote c = false ∧ Quoteless s :=
  List.forall_mem_cons

/-- A class of characters without quotes. -/
theorem quoteless_of_forall {p : Char → Bool} (hp : p '\'' = false ∧ p '"' = false)
    {s : List Char} (h : ∀ c ∈ s, p c = true) : Quoteless s := by
  refine fun c hc ↦ Bool.eq_false_iff.2 fun hquote ↦ ?_
  have hpc := h c hc
  rcases isQuote_iff.1 hquote with rfl | rfl
  · exact absurd hpc (by rw [hp.1]; simp)
  · exact absurd hpc (by rw [hp.2]; simp)

theorem quoteless_placeholder (index : Nat) : Quoteless (placeholder index) :=
  quoteless_of_forall (by decide) fun _ ↦ isPlaceholderChar_of_mem

/-- A text without anything that masking could take for the beginning of a literal, or that keeps it
from taking what follows for one. -/
def Unquoted (s : List Char) : Prop := ∀ c ∈ s, isQuote c = false ∧ c ≠ '\\'

instance (s : List Char) : Decidable (Unquoted s) := List.decidableBAll _ s

theorem Unquoted.append {s t : List Char} (hs : Unquoted s) (ht : Unquoted t) :
    Unquoted (s ++ t) :=
  List.forall_mem_append.2 ⟨hs, ht⟩

theorem Unquoted.cons {c : Char} {s : List Char} (hc : isQuote c = false ∧ c ≠ '\\')
    (hs : Unquoted s) : Unquoted (c :: s) :=
  List.forall_mem_cons.2 ⟨hc, hs⟩

/-- A text without quotes and backslashes may stand in a literal as it is. -/
theorem Unquoted.body {s : List Char} (h : Unquoted s) {quote : Char}
    (hquote : isQuote quote = true) : Body quote s :=
  body_of_not_mem (fun hmem ↦ ne_of_isQuote hquote (h quote hmem).1 rfl) fun hmem ↦ (h _ hmem).2 rfl

/-! ### Literals -/

/-- A text starts with a literal when a body on one line stands there between equal quotes. -/
theorem leadingLiteral?_eq_some_iff {s literal after : List Char} :
    leadingLiteral? s = some (literal, after) ↔
      ∃ quote body, isQuote quote = true ∧ Body quote body ∧ '\n' ∉ body ∧
        literal = quote :: body ++ [quote] ∧ s = literal ++ after := by
  constructor
  · intro h
    have hs := eq_append_of_leadingLiteral? h
    cases s with
    | nil => exact absurd h (by simp [leadingLiteral?])
    | cons quote rest =>
      rw [leadingLiteral?] at h
      split at h
      · rename_i hquote
        obtain ⟨⟨body, behind⟩, hsplit, heq⟩ := Option.map_eq_some_iff.1 h
        obtain ⟨rfl, rfl⟩ := Prod.mk.inj heq
        obtain ⟨hbody, hline, -⟩ := (splitBody?_eq_some_iff hquote).1 hsplit
        exact ⟨quote, body, hquote, hbody, hline.resolve_left (by simp), rfl, hs⟩
      · exact absurd h (by simp)
  · rintro ⟨quote, body, hquote, hbody, hline, rfl, rfl⟩
    rw [List.cons_append, List.cons_append, List.append_assoc, leadingLiteral?, if_pos hquote,
      List.singleton_append, splitBody?_append hquote hbody (.inr hline)]
    rfl

/-- A literal is a literal in front of any text. -/
theorem leadingLiteral?_literal {s literal after : List Char}
    (h : leadingLiteral? s = some (literal, after)) (t : List Char) :
    leadingLiteral? (literal ++ t) = some (literal, t) := by
  obtain ⟨quote, body, hquote, hbody, hline, hliteral, -⟩ := leadingLiteral?_eq_some_iff.1 h
  exact leadingLiteral?_eq_some_iff.2 ⟨quote, body, hquote, hbody, hline, hliteral, rfl⟩

/-- A literal at the front of a text is there whatever follows the text. -/
theorem leadingLiteral?_append {s literal after : List Char}
    (h : leadingLiteral? s = some (literal, after)) (t : List Char) :
    leadingLiteral? (s ++ t) = some (literal, after ++ t) := by
  rw [eq_append_of_leadingLiteral? h, List.append_assoc]
  exact leadingLiteral?_literal h (after ++ t)

/-- A literal that began without the rest would begin with it. -/
theorem leadingLiteral?_of_append {s t : List Char} (h : leadingLiteral? (s ++ t) = none) :
    leadingLiteral? s = none := by
  refine Option.eq_none_iff_forall_not_mem.2 fun found hfound ↦ ?_
  exact absurd ((leadingLiteral?_append hfound t).symm.trans h) (by simp)

/-- A text starts with no literal when it does not begin with a quote, or that is not closed. -/
theorem leadingLiteral?_cons_eq_none_iff {c : Char} {rest : List Char} :
    leadingLiteral? (c :: rest) = none ↔ (isQuote c = true → splitBody? c false rest = none) := by
  rw [leadingLiteral?]
  split
  · simp [*]
  · simp [*]

/-- Where no quote stands no literal begins. -/
theorem leadingLiteral?_of_not_isQuote {c : Char} (h : isQuote c = false) (rest : List Char) :
    leadingLiteral? (c :: rest) = none :=
  leadingLiteral?_cons_eq_none_iff.2 fun hquote ↦ absurd hquote (by rw [h]; simp)

/-- A quote that does not come again opens no literal. -/
theorem leadingLiteral?_of_not_mem {c : Char} {rest : List Char} (h : c ∉ rest) :
    leadingLiteral? (c :: rest) = none := by
  refine leadingLiteral?_cons_eq_none_iff.2 fun _ ↦ ?_
  rcases hsplit : splitBody? c false rest with - | ⟨body, after⟩
  · rfl
  · rw [eq_append_of_splitBody? hsplit] at h
    exact absurd (List.mem_append_right _ List.mem_cons_self) h

/-- A literal ends in a quote. -/
theorem exists_getLast_of_leadingLiteral? {s literal after : List Char}
    (h : leadingLiteral? s = some (literal, after)) :
    ∃ c ∈ literal.getLast?, isQuote c = true := by
  obtain ⟨quote, body, hquote, -, -, rfl, -⟩ := leadingLiteral?_eq_some_iff.1 h
  exact ⟨quote, List.getLast?_concat, hquote⟩

/-! ### One step of masking -/

/-- Two masked texts one after the other. -/
instance : Append MaskedLine := ⟨fun a b ↦ ⟨a.text ++ b.text, a.literals ++ b.literals⟩⟩

theorem MaskedLine.text_append (a b : MaskedLine) : (a ++ b).text = a.text ++ b.text := rfl

theorem MaskedLine.literals_append (a b : MaskedLine) :
    (a ++ b).literals = a.literals ++ b.literals := rfl

theorem MaskedLine.append_assoc (a b c : MaskedLine) : a ++ b ++ c = a ++ (b ++ c) := by
  show MaskedLine.mk (a.text ++ b.text ++ c.text) (a.literals ++ b.literals ++ c.literals) = _
  rw [List.append_assoc, List.append_assoc]
  rfl

/-- What two masked texts go on with is the same, if they begin in the same way and are the same. -/
theorem MaskedLine.append_cancel_left {a b c : MaskedLine} (h : a ++ b = a ++ c) : b = c := by
  obtain ⟨htext, hliterals⟩ := MaskedLine.mk.inj h
  obtain ⟨text, literals⟩ := b
  obtain ⟨text', literals'⟩ := c
  obtain rfl : text = text' := List.append_cancel_left htext
  obtain rfl : literals = literals' := List.append_cancel_left hliterals
  rfl

/-- What is masked is a literal that the text starts with, and no backslash comes before it. -/
theorem eq_false_and_of_masked {escaped : Bool} {s literal after : List Char}
    (h : (if escaped then none else leadingLiteral? s) = some (literal, after)) :
    escaped = false ∧ leadingLiteral? s = some (literal, after) := by
  cases escaped with
  | true => exact absurd h (by simp)
  | false => exact ⟨rfl, h⟩

/-- A character is kept when it comes behind a backslash or begins no literal. -/
theorem or_of_unmasked {escaped : Bool} {s : List Char}
    (h : (if escaped then none else leadingLiteral? s) = none) :
    escaped = true ∨ leadingLiteral? s = none := by
  cases escaped with
  | true => exact .inl rfl
  | false => exact .inr h

/-- Either a character is masked as it is, or a literal is. -/
theorem char_or_literal (escaped : Bool) (s : List Char) :
    (escaped = true ∨ leadingLiteral? s = none) ∨
      ∃ literal after, escaped = false ∧ leadingLiteral? s = some (literal, after) := by
  cases escaped with
  | true => exact .inl (.inl rfl)
  | false =>
    rcases hleading : leadingLiteral? s with - | ⟨literal, after⟩
    · exact .inl (.inr rfl)
    · exact .inr ⟨literal, after, rfl, rfl⟩

theorem maskFrom_nil (escaped : Bool) (index : Nat) : maskFrom escaped index [] = ⟨[], []⟩ := by
  rw [maskFrom]

/-- A literal becomes its placeholder, and masking goes on behind it. -/
theorem maskFrom_literal {s literal after : List Char}
    (h : leadingLiteral? s = some (literal, after)) (index : Nat) :
    maskFrom false index s =
      ⟨placeholder index, [literal]⟩ ++ maskFrom false (index + 1) after := by
  cases s with
  | nil => exact absurd h (by simp [leadingLiteral?])
  | cons c rest =>
    rw [maskFrom]
    split
    · rename_i hleading
      obtain ⟨rfl, rfl⟩ := Prod.mk.inj (Option.some.inj (hleading.symm.trans h))
      rfl
    · rename_i hleading
      exact absurd (hleading.symm.trans h) (by simp)

/-- Any other character is kept, and masking goes on behind it. -/
theorem maskFrom_char {escaped : Bool} {c : Char} {rest : List Char}
    (h : escaped = true ∨ leadingLiteral? (c :: rest) = none) (index : Nat) :
    maskFrom escaped index (c :: rest) = ⟨[c], []⟩ ++ maskFrom (c == '\\') index rest := by
  rw [maskFrom]
  split
  · rename_i hleading
    rcases h with rfl | h
    · exact absurd hleading (by simp)
    · rw [h] at hleading
      exact absurd hleading (by simp)
  · rfl

/-! ### Where no quote is left over -/

/-- What a backslash stands before matters only if that is a quote, and then it is left over. -/
theorem maskFrom_escaped {escaped : Bool} {index : Nat} {s : List Char}
    (h : Quoteless (maskFrom escaped index s).text) :
    maskFrom escaped index s = maskFrom false index s := by
  cases escaped with
  | false => rfl
  | true =>
    cases s with
    | nil => rw [maskFrom_nil, maskFrom_nil]
    | cons c rest =>
      rw [maskFrom_char (.inl rfl)] at h
      rw [maskFrom_char (.inl rfl), maskFrom_char (.inr (leadingLiteral?_of_not_isQuote ?_ rest))]
      exact h c List.mem_cons_self

/-- **Masking goes from left to right.** Where the beginning of a text leaves no quote over, it is
masked as it is without the rest. -/
theorem exists_maskFrom_append {escaped : Bool} {index : Nat} {s : List Char}
    (h : Quoteless (maskFrom escaped index s).text) (t : List Char) :
    ∃ escaped', maskFrom escaped index (s ++ t) = maskFrom escaped index s ++
      maskFrom escaped' (index + (maskFrom escaped index s).literals.length) t := by
  fun_induction maskFrom escaped index s with
  | case1 escaped index => exact ⟨escaped, rfl⟩
  | case2 escaped index c rest literal after hleading masked ih =>
    obtain ⟨rfl, hliteral⟩ := eq_false_and_of_masked hleading
    obtain ⟨escaped', hrest⟩ := ih (quoteless_append.1 h).2
    refine ⟨escaped', ?_⟩
    rw [maskFrom_literal (leadingLiteral?_append hliteral t), hrest, ← MaskedLine.append_assoc,
      Nat.add_assoc, Nat.add_comm 1]
    rfl
  | case3 escaped index c rest hleading masked ih =>
    obtain ⟨hc, hrest⟩ := quoteless_cons.1 h
    obtain ⟨escaped', happend⟩ := ih hrest
    refine ⟨escaped', ?_⟩
    rw [List.cons_append, maskFrom_char (.inr (leadingLiteral?_of_not_isQuote hc _)), happend]
    rfl

/-- A text in which no quote comes again has no literals. -/
theorem maskFrom_eq_self {s : List Char} (h : s.Pairwise fun a b ↦ isQuote a = true → a ≠ b)
    (escaped : Bool) (index : Nat) : maskFrom escaped index s = ⟨s, []⟩ := by
  induction s generalizing escaped with
  | nil => exact maskFrom_nil escaped index
  | cons c rest ih =>
    obtain ⟨hc, hrest⟩ := List.pairwise_cons.1 h
    have hleading : leadingLiteral? (c :: rest) = none := by
      cases hquote : isQuote c with
      | false => exact leadingLiteral?_of_not_isQuote hquote rest
      | true => exact leadingLiteral?_of_not_mem fun hmem ↦ hc c hmem hquote rfl
    rw [maskFrom_char (.inr hleading), ih hrest]
    rfl

/-- **A place in a masked text** that is no part of a placeholder is a place in the text, and what
comes before it is masked as it is without the rest. -/
theorem exists_append_of_maskFrom {escaped : Bool} {index : Nat} {s before after : List Char}
    {c : Char} (hc : isPlaceholderChar c = false)
    (h : (maskFrom escaped index s).text = before ++ c :: after) :
    ∃ left right, s = left ++ c :: right ∧ (maskFrom escaped index left).text = before ∧
      ∃ rest, maskFrom escaped index s = maskFrom escaped index left ++ rest := by
  fun_induction maskFrom escaped index s generalizing before with
  | case1 => exact absurd h (by simp)
  | case2 =>
    rename_i escaped index d rest literal following hleading masked ih
    obtain ⟨rfl, hliteral⟩ := eq_false_and_of_masked hleading
    obtain ⟨behind, rfl, hmasked⟩ : ∃ behind, before = placeholder index ++ behind ∧
        masked.text = behind ++ c :: after := by
      rcases List.append_eq_append_iff.1 h with ⟨behind, hbefore, hmasked⟩ | ⟨part, hpart, hmasked⟩
      · exact ⟨behind, hbefore, hmasked⟩
      · -- The place is not in the placeholder, so this comes right before it.
        obtain - | ⟨d, part⟩ := part
        · exact ⟨[], by simpa using hpart.symm, hmasked.symm⟩
        · obtain ⟨rfl, -⟩ := List.cons.inj hmasked
          have hmem : c ∈ placeholder index := hpart ▸ List.mem_append_right _ List.mem_cons_self
          rw [isPlaceholderChar_of_mem hmem] at hc
          exact absurd hc (by simp)
    obtain ⟨left, right, rfl, htext, more, hmore⟩ := ih hmasked
    have hleft := maskFrom_literal (leadingLiteral?_literal hliteral left) index
    refine ⟨literal ++ left, right, ?_, ?_, more, ?_⟩
    · rw [eq_append_of_leadingLiteral? hliteral, List.append_assoc]
    · rw [hleft, MaskedLine.text_append, htext]
    · rw [hleft, MaskedLine.append_assoc, ← hmore]
      rfl
  | case3 =>
    rename_i escaped index d rest hleading masked ih
    obtain - | ⟨e, before⟩ := before
    · obtain ⟨rfl, -⟩ := List.cons.inj h
      refine ⟨[], rest, rfl, by rw [maskFrom_nil], ⟨d :: masked.text, masked.literals⟩, ?_⟩
      rw [maskFrom_nil]
      rfl
    · obtain ⟨rfl, hmasked⟩ := List.cons.inj h
      obtain ⟨left, right, rfl, htext, more, hmore⟩ := ih hmasked
      have hchar : escaped = true ∨ leadingLiteral? (d :: left) = none :=
        (or_of_unmasked hleading).imp_right leadingLiteral?_of_append
      refine ⟨d :: left, right, rfl, ?_, more, ?_⟩
      · rw [maskFrom_char hchar, MaskedLine.text_append, htext]
        rfl
      · rw [maskFrom_char hchar, MaskedLine.append_assoc, ← hmore]
        rfl

/-! ### Where a masked text ends -/

/-- A text that ends in anything but a quote ends in it masked as well. -/
theorem getLast?_maskFrom {c : Char} (hc : isQuote c = false) {s : List Char}
    (h : s.getLast? = some c) (escaped : Bool) (index : Nat) :
    (maskFrom escaped index s).text.getLast? = some c := by
  fun_induction maskFrom escaped index s with
  | case1 => exact absurd h (by simp)
  | case2 escaped index d rest literal after hleading masked ih =>
    obtain ⟨-, hleading⟩ := eq_false_and_of_masked hleading
    rw [eq_append_of_leadingLiteral? hleading] at h
    rw [List.getLast?_append] at h ⊢
    rcases hafter : after.getLast? with - | d
    · -- Then the literal is the end of the text, and it ends in a quote.
      obtain ⟨q, hq, hquote⟩ := exists_getLast_of_leadingLiteral? hleading
      rw [hafter, Option.none_or, hq, Option.some.injEq] at h
      rw [h, hc] at hquote
      exact absurd hquote (by simp)
    · rw [hafter, Option.some_or] at h
      rw [ih (hafter.trans h), Option.some_or]
  | case3 escaped index d rest hleading masked ih =>
    cases rest with
    | nil =>
      show (d :: (maskFrom (d == '\\') index []).text).getLast? = some c
      rwa [maskFrom_nil]
    | cons e rest =>
      rw [List.getLast?_cons_cons] at h
      rw [show d :: masked.text = [d] ++ masked.text from rfl, List.getLast?_append, ih h]
      rfl

/-- Masking leaves something of every text but the empty one. -/
theorem maskFrom_ne_nil {s : List Char} (h : s ≠ []) (escaped : Bool) (index : Nat) :
    (maskFrom escaped index s).text ≠ [] := by
  intro hnil
  have hstands := standsFor_maskFrom escaped index s
  rw [hnil] at hstands
  cases hstands
  exact h rfl

end LineCompletion
