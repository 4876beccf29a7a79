import LineCompletion.Proofs.Line.Contents

/-!
# Masking a masked line

Masking takes every literal out of a line at once: what it leaves holds none (`HoldsLiteral`), so
masking it again changes nothing (`mask_mask`). A text is left as it is just when it holds no
literal (`mask_eq_self_iff`), which makes the two the same statement.

What has to be shown is that taking a literal out completes no other one. A quote that was left over
in front of it had its search for a closing quote fail. The search came to the literal, passed
through it in step with the search for the literal's own end, and failed behind it. Now it passes
through the placeholder instead, comes to the same place and fails as before
(`splitBody?_maskFrom`). A backslash that is left over stands before the same character as it did,
so the search takes that along in both texts, and this is why the statement of that lemma has two
halves.

**What counts as a literal.** `IsLiteral` is a quote, a body on one line and the same quote again,
and a text holds one where no backslash comes right before it (`HoldsLiteral`). Neither definition
speaks of masking or of a search from left to right. They are about any place in the text, so
`mask_eq_self_iff` says more than that masking stops: there is nothing left that a second look from
another place would find.

**Rounds.** A procedure that takes one literal out after another makes one round for each of them.
Each takes two quotes at least out of the text (`two_mul_length_literals_le`), so the number of
rounds is bounded by half the length of the line. Here masking is one walk along the line, and the
list of its literals stands for the rounds.

**No condition on the line.** What was typed may hold placeholders of its own. They are nothing to
masking, which looks at quotes and backslashes only; they matter where literals are put back.
-/

namespace LineCompletion

open Text

/-! ### Texts that hold literals -/

/-- A text is a string literal, quotes included, that stands on one line. -/
def IsLiteral (s : List Char) : Prop :=
  ∃ quote body, isQuote quote = true ∧ Body quote body ∧ '\n' ∉ body ∧ s = quote :: body ++ [quote]

/-- Somewhere in a text stands a literal, and no backslash comes right before it. -/
def HoldsLiteral (s : List Char) : Prop :=
  ∃ before literal after, s = before ++ literal ++ after ∧ IsLiteral literal ∧
    before.getLast? ≠ some '\\'

/-- Whether a backslash comes right before what follows a text, given whether one comes right before
the text. -/
def endsInBackslash (escaped : Bool) (before : List Char) : Bool :=
  before.getLast?.elim escaped (· == '\\')

theorem endsInBackslash_cons (escaped : Bool) (c : Char) (before : List Char) :
    endsInBackslash escaped (c :: before) = endsInBackslash (c == '\\') before := by
  rw [endsInBackslash, endsInBackslash, List.getLast?_cons]
  cases before.getLast? <;> rfl

/-- A literal is found at the front of any text that it begins. -/
theorem IsLiteral.leadingLiteral? {literal : List Char} (h : IsLiteral literal)
    (after : List Char) : leadingLiteral? (literal ++ after) = some (literal, after) := by
  obtain ⟨quote, body, hquote, hbody, hline, heq⟩ := h
  exact leadingLiteral?_eq_some_iff.2 ⟨quote, body, hquote, hbody, hline, heq, rfl⟩

/-- What is found at the front of a text is a literal. -/
theorem isLiteral_of_leadingLiteral? {s literal after : List Char}
    (h : leadingLiteral? s = some (literal, after)) : IsLiteral literal := by
  obtain ⟨quote, body, hquote, hbody, hline, heq, -⟩ := leadingLiteral?_eq_some_iff.1 h
  exact ⟨quote, body, hquote, hbody, hline, heq⟩

theorem not_isLiteral_nil : ¬ IsLiteral [] := fun ⟨_, _, _, _, _, heq⟩ ↦ absurd heq (by simp)

/-- A text is masked as it is just when a backslash comes right before each of its literals. -/
theorem maskFrom_eq_self_iff {escaped : Bool} {index : Nat} {s : List Char} :
    maskFrom escaped index s = ⟨s, []⟩ ↔ ∀ before literal after,
      s = before ++ literal ++ after → IsLiteral literal →
        endsInBackslash escaped before = true := by
  induction s generalizing escaped with
  | nil =>
    refine iff_of_true (maskFrom_nil escaped index) fun before literal after hs hliteral ↦ ?_
    have hnil : literal = [] := by
      simpa using (List.append_eq_nil_iff.1 (List.append_eq_nil_iff.1 hs.symm).1).2
    exact absurd (hnil ▸ hliteral) not_isLiteral_nil
  | cons c s ih =>
    rcases char_or_literal escaped (c :: s) with hc | ⟨literal, after, rfl, hliteral⟩
    · have hstep : maskFrom escaped index (c :: s) = ⟨c :: s, []⟩ ↔
          maskFrom (c == '\\') index s = ⟨s, []⟩ := by
        rw [maskFrom_char hc]
        exact ⟨fun h ↦ MaskedLine.append_cancel_left (a := ⟨[c], []⟩) (c := ⟨s, []⟩) h,
          fun h ↦ by rw [h]; rfl⟩
      rw [hstep, ih]
      constructor
      · intro h before literal after hs hliteral
        cases before with
        | nil =>
          -- A literal right at the beginning is left alone only behind a backslash.
          have hleading := hliteral.leadingLiteral? after
          rw [List.nil_append] at hs
          rw [← hs] at hleading
          exact hc.resolve_right (by rw [hleading]; simp)
        | cons d before =>
          obtain ⟨rfl, htail⟩ := List.cons.inj hs
          rw [endsInBackslash_cons]
          exact h before literal after htail hliteral
      · intro h before literal after hs hliteral
        rw [← endsInBackslash_cons escaped]
        exact h (c :: before) literal after (by rw [hs]; rfl) hliteral
    · refine iff_of_false (fun h ↦ ?_) fun h ↦ ?_
      · rw [maskFrom_literal hliteral] at h
        exact absurd (congrArg MaskedLine.literals h) (by simp [MaskedLine.literals_append])
      · have hnot := h [] literal after (eq_append_of_leadingLiteral? hliteral)
          (isLiteral_of_leadingLiteral? hliteral)
        exact absurd hnot (by simp [endsInBackslash])

/-- Where nothing comes before the text, only its own end matters. -/
theorem endsInBackslash_false_iff {before : List Char} :
    endsInBackslash false before = true ↔ before.getLast? = some '\\' := by
  rw [endsInBackslash]
  cases before.getLast? <;> simp

/-- **Masking leaves a text alone just when it holds no literal.** -/
theorem mask_eq_self_iff {s : List Char} : mask s = ⟨s, []⟩ ↔ ¬ HoldsLiteral s := by
  rw [mask, maskFrom_eq_self_iff]
  simp only [endsInBackslash_false_iff, HoldsLiteral, not_exists, not_and, not_not]

/-! ### What masking leaves over -/

theorem unquoted_placeholder (index : Nat) : Unquoted (placeholder index) := fun c hc ↦ by
  refine ⟨quoteless_placeholder index c hc, ?_⟩
  rintro rfl
  exact absurd (isPlaceholderChar_of_mem hc) (by decide)

theorem newline_not_mem_placeholder (index : Nat) : '\n' ∉ placeholder index := fun hmem ↦
  absurd (isPlaceholderChar_of_mem hmem) (by decide)

/-- **A search for a closing quote that fails in a text fails in what masking leaves of it.** It
does so behind a backslash too, which takes the first character of both along. -/
theorem splitBody?_maskFrom {quote : Char} (hquote : isQuote quote = true) (escaped : Bool)
    (index : Nat) (s : List Char) :
    (splitBody? quote false s = none →
        splitBody? quote false (maskFrom escaped index s).text = none) ∧
      (escaped = true → splitBody? quote false ('\\' :: s) = none →
        splitBody? quote false ('\\' :: (maskFrom escaped index s).text) = none) := by
  fun_induction maskFrom escaped index s with
  | case1 => exact ⟨id, fun _ ↦ id⟩
  | case2 escaped index c rest literal after hleading masked ih =>
    obtain ⟨rfl, hliteral⟩ := eq_false_and_of_masked hleading
    refine ⟨fun h ↦ ?_, fun h ↦ absurd h (by simp)⟩
    obtain ⟨opening, body, hopening, hbody, hline, rfl, hs⟩ :=
      leadingLiteral?_eq_some_iff.1 hliteral
    have hs : c :: rest = opening :: (body ++ opening :: after) := by rw [hs]; simp
    rw [hs, splitBody?_cons_eq_none_iff (ne_of_isQuote hopening rfl) (ne_of_isQuote hopening rfl)]
      at h
    have hafter := splitBody?_behind_eq_none hopening hbody hline h.2
    exact splitBody?_unquoted_append_eq_none hquote (unquoted_placeholder index)
      (newline_not_mem_placeholder index) (ih.1 hafter)
  | case3 escaped index c rest hleading masked ih =>
    refine ⟨fun h ↦ ?_, fun _ h ↦ ?_⟩
    · by_cases hslash : c = '\\'
      · obtain rfl := hslash
        exact ih.2 rfl h
      · rw [splitBody?_cons_of_ne hslash] at h ⊢
        split at h
        · exact absurd h (by simp)
        · split at h
          · rename_i hne hstays
            rw [if_neg hne, if_pos hstays]
          · rename_i hne hstays
            rw [Option.map_eq_none_iff] at h
            rw [if_neg hne, if_neg hstays, Option.map_eq_none_iff]
            exact ih.1 h
    · rw [splitBody?] at h ⊢
      split at h
      · rename_i hstays
        rw [if_pos hstays]
      · rename_i hstays
        rw [Option.map_eq_none_iff] at h
        rw [if_neg hstays, Option.map_eq_none_iff]
        exact ih.1 h

/-- Masking goes through a text without quotes and backslashes. -/
theorem maskFrom_unquoted_append {s : List Char} (hs : Unquoted s) (index : Nat) (t : List Char) :
    maskFrom false index (s ++ t) = ⟨s, []⟩ ++ maskFrom false index t := by
  induction s with
  | nil => rfl
  | cons c s ih =>
    obtain ⟨⟨hquote, hslash⟩, hs⟩ := List.forall_mem_cons.1 hs
    rw [List.cons_append, maskFrom_char (.inr (leadingLiteral?_of_not_isQuote hquote _)),
      beq_false_of_ne hslash, ih hs]
    rfl

/-- **What masking leaves of a text is masked as it is**, whatever its literals were numbered
from. -/
theorem maskFrom_text (escaped : Bool) (index other : Nat) (s : List Char) :
    maskFrom escaped other (maskFrom escaped index s).text =
      ⟨(maskFrom escaped index s).text, []⟩ := by
  fun_induction maskFrom escaped index s with
  | case1 escaped => exact maskFrom_nil escaped other
  | case2 escaped index c rest literal after hleading masked ih =>
    obtain ⟨rfl, -⟩ := eq_false_and_of_masked hleading
    rw [maskFrom_unquoted_append (unquoted_placeholder index), ih]
    rfl
  | case3 escaped index c rest hleading masked ih =>
    have hchar : escaped = true ∨ leadingLiteral? (c :: masked.text) = none := by
      refine (or_of_unmasked hleading).imp_right fun hnone ↦ ?_
      rw [leadingLiteral?_cons_eq_none_iff] at hnone ⊢
      exact fun hquote ↦ (splitBody?_maskFrom hquote _ index rest).1 (hnone hquote)
    rw [maskFrom_char hchar, ih]
    rfl

/-- Each literal that is masked takes two quotes at least out of a text. -/
theorem two_mul_length_literals_le (escaped : Bool) (index : Nat) (s : List Char) :
    2 * (maskFrom escaped index s).literals.length ≤ s.length := by
  fun_induction maskFrom escaped index s with
  | case1 => exact Nat.le_refl _
  | case2 escaped index c rest literal after hleading masked ih =>
    obtain ⟨-, hliteral⟩ := eq_false_and_of_masked hleading
    obtain ⟨quote, body, -, -, -, rfl, hs⟩ := leadingLiteral?_eq_some_iff.1 hliteral
    have hafter : 2 * masked.literals.length ≤ after.length := ih
    rw [hs]
    simp only [List.length_cons, List.length_append, List.length_nil]
    omega
  | case3 escaped index c rest hleading masked ih =>
    exact Nat.le_succ_of_le ih

/-- **Masking is complete.** It ends after one round for each literal, and these take up two
characters each at least. What it leaves of a line, whatever the line is, holds no literal but right
behind a backslash, so that masking it again changes nothing and finds no literal. -/
theorem mask_mask (line : List Char) :
    ¬ HoldsLiteral (mask line).text ∧ mask (mask line).text = ⟨(mask line).text, []⟩ ∧
      2 * (mask line).literals.length ≤ line.length := by
  have hmask : mask (mask line).text = ⟨(mask line).text, []⟩ := maskFrom_text false 0 0 line
  exact ⟨mask_eq_self_iff.1 hmask, hmask, two_mul_length_literals_le false 0 line⟩

end LineCompletion
