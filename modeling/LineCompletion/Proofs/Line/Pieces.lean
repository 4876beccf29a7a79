import LineCompletion.Proofs.Line.Restoring
import Mathlib.Data.List.Induction

/-!
# Masked lines cut into pieces

A masked line may be cut into pieces, and the literals put back into one piece after another. Joined
again, the pieces are the line exactly if no placeholder was cut (`flatten_restore_eq_iff`).

That they are the line otherwise is the induction on what a masked text stands for
(`StandsFor.flatten_map_restore`). What is new here is the other direction. Restoring leaves alone
what a piece begins with, up to the first character that opens a placeholder, and what it ends in,
behind the last one that closes a placeholder. So the two sides of a placeholder that was cut are
still beside each other when the pieces are joined, and the line does not have a placeholder in it.

**Which seams count.** `MaskedLine.IsCut` speaks of the placeholders of the line's own literals, by
their numbers, and of the two texts beside a seam as they are. `CutsPlaceholder` speaks of any
number. In a line without placeholders of its own the two come to the same
(`isCut_of_cutsPlaceholder`), since every placeholder in its masked form stands for one of its
literals (`StandsFor.exists_literal`).

**Cut in several pieces at once.** A placeholder has three characters at least, so it may be cut
twice and a whole piece may lie inside it. The condition is therefore not put on neighbouring pieces
but on every way to divide the list of pieces in two. What a placeholder leaves at the end of the
first half may go through several pieces there, and `suffix_flatten_map_restore` and
`prefix_flatten_map_restore` go through them one by one.

**What is not claimed.** The pieces are joined in their order. That a piece has a meaning of its
own, such as an expression, is shown where a line is taken apart.
-/

namespace LineCompletion

/-! ### What no placeholder reaches into -/

/-- Every placeholder closes. -/
theorem placeholderClose_mem (i : Nat) : placeholderClose ∈ placeholder i :=
  List.mem_append_right _ (List.mem_singleton_self _)

/-- A placeholder closes at its end and opens at its beginning, whatever it is divided into. -/
theorem not_mem_of_placeholder_eq_append {i : Nat} {before after : List Char}
    (h : placeholder i = before ++ after) (hbefore : before ≠ []) (hafter : after ≠ []) :
    placeholderClose ∉ before ∧ placeholderOpen ∉ after := by
  have hnot : placeholderClose ∉ placeholderOpen :: Number.digits i := fun hmem ↦ by
    rcases List.mem_cons.1 hmem with heq | hmem
    · exact placeholderOpen_ne_placeholderClose heq.symm
    · exact absurd (Number.isDigit_of_mem_digits hmem) (by rw [isDigit_placeholderClose]; simp)
  constructor
  · have hdrop : (placeholderOpen :: Number.digits i ++ [placeholderClose]).dropLast =
        (before ++ after).dropLast := congrArg List.dropLast h
    rw [List.dropLast_concat, List.dropLast_append_of_ne_nil hafter] at hdrop
    exact fun hmem ↦ hnot (hdrop ▸ List.mem_append_left _ hmem)
  · obtain ⟨c, before, rfl⟩ := List.exists_cons_of_ne_nil hbefore
    have htail : Number.digits i ++ [placeholderClose] = before ++ after := (List.cons.inj h).2
    exact fun hmem ↦ placeholderOpen_not_mem_digits i (htail ▸ List.mem_append_right _ hmem)

/-- A placeholder that begins in a text does not end behind it, if what follows closes none. -/
theorem prefix_of_prefix_append_of_not_mem {i : Nat} {s t : List Char} (h : placeholderClose ∉ t)
    (hstart : placeholder i <+: s ++ t) : placeholder i <+: s := by
  rcases List.prefix_or_prefix_of_prefix hstart (List.prefix_append s t) with hs | ⟨u, hu⟩
  · exact hs
  · have hut : u ⊆ t := by
      rw [← hu, List.prefix_append_right_inj] at hstart
      exact hstart.subset
    have hsplit : s ++ u = (placeholderOpen :: Number.digits i) ++ [placeholderClose] := hu
    rcases List.append_eq_append_iff.1 hsplit with ⟨v, -, rfl⟩ | ⟨v, -, hclose⟩
    · exact absurd (hut (List.mem_append_right v (List.mem_singleton_self _))) h
    · rcases List.append_eq_singleton_iff.1 hclose.symm with ⟨-, rfl⟩ | ⟨-, rfl⟩
      · exact absurd (hut (List.mem_singleton_self _)) h
      · have heq : placeholder i = s := hu.symm.trans (List.append_nil s)
        exact heq ▸ List.prefix_rfl

/-- Where no placeholder closes nothing is replaced. -/
theorem replaceAll_of_close_not_mem {t : List Char} (h : placeholderClose ∉ t) (i : Nat)
    (replacement : List Char) : replaceAll (placeholder i) replacement 0 t = t := by
  induction t with
  | nil => rfl
  | cons c t ih =>
    have hnone : ¬ placeholder i <+: c :: t := fun hstart ↦
      h (hstart.subset (placeholderClose_mem i))
    rw [replaceAll_cons_of_ne hnone, ih fun hmem ↦ h (List.mem_cons_of_mem c hmem)]

/-- What is replaced is in front of a text in which no placeholder closes. -/
theorem replaceAll_append_of_close_not_mem {t : List Char} (h : placeholderClose ∉ t) (i : Nat)
    (replacement s : List Char) :
    replaceAll (placeholder i) replacement 0 (s ++ t) =
      replaceAll (placeholder i) replacement 0 s ++ t := by
  by_cases hstart : placeholder i <+: s
  · obtain ⟨rest, rfl⟩ := hstart
    rw [List.append_assoc, replaceAll_placeholder_append, replaceAll_placeholder_append,
      replaceAll_append_of_close_not_mem h, List.append_assoc]
  · cases s with
    | nil => exact replaceAll_of_close_not_mem h i replacement
    | cons c s =>
      have hlonger : ¬ placeholder i <+: c :: (s ++ t) := fun hlonger ↦
        hstart (prefix_of_prefix_append_of_not_mem (s := c :: s) h hlonger)
      rw [List.cons_append, replaceAll_cons_of_ne hlonger, replaceAll_cons_of_ne hstart,
        replaceAll_append_of_close_not_mem h, List.cons_append]
termination_by s.length
decreasing_by
  · rename_i hs
    simp only [← hs, placeholder, List.length_append, List.length_cons]
    omega
  · simp

namespace MaskedLine

variable (masked : MaskedLine)

/-- What a text ends in is left alone, if it closes no placeholder. -/
theorem restore_append_of_close_not_mem {t : List Char} (h : placeholderClose ∉ t)
    (s : List Char) : masked.restore (s ++ t) = masked.restore s ++ t := by
  suffices ∀ (literals : List (List Char)) (index : Nat) (s : List Char),
      restoreFrom index literals (s ++ t) = restoreFrom index literals s ++ t from this _ _ s
  intro literals
  induction literals with
  | nil => exact fun _ _ ↦ rfl
  | cons literal others ih =>
    intro index s
    rw [restoreFrom, restoreFrom, replaceAll_append_of_close_not_mem h, ih]

/-- What a text begins with is left alone, if it opens no placeholder. -/
theorem restore_append_of_open_not_mem {s : List Char} (h : placeholderOpen ∉ s)
    (t : List Char) : masked.restore (s ++ t) = s ++ masked.restore t := by
  suffices ∀ (literals : List (List Char)) (index : Nat) (t : List Char),
      restoreFrom index literals (s ++ t) = s ++ restoreFrom index literals t from this _ _ t
  intro literals
  induction literals with
  | nil => exact fun _ _ ↦ rfl
  | cons literal others ih =>
    intro index t
    rw [restoreFrom, restoreFrom, placeholder, List.cons_append, replaceAll_append_of_not_mem h, ih]

/-- The same at the end of several pieces, however many of them the text goes through. -/
theorem suffix_flatten_map_restore {t : List Char} (h : placeholderClose ∉ t)
    {pieces : List (List Char)} (hend : t <:+ pieces.flatten) :
    t <:+ (pieces.map masked.restore).flatten := by
  induction pieces using List.reverseRecOn generalizing t with
  | nil => exact hend
  | append_singleton pieces piece ih =>
    rw [List.flatten_append, List.flatten_singleton] at hend
    rw [List.map_append, List.flatten_append, List.map_singleton, List.flatten_singleton]
    have hsplit := List.suffix_or_suffix_of_suffix hend (List.suffix_append _ piece)
    rcases hsplit with ⟨s, rfl⟩ | ⟨s, rfl⟩
    · rw [masked.restore_append_of_close_not_mem h]
      exact ⟨_, List.append_assoc _ _ _⟩
    · -- The last piece closes no placeholder at all, so restoring does nothing to it.
      rw [List.mem_append, not_or] at h
      have hpiece : masked.restore piece = piece := by
        simpa [MaskedLine.restore_of_not_mem] using masked.restore_append_of_close_not_mem h.2 []
      obtain ⟨u, hu⟩ := hend
      rw [← List.append_assoc, List.append_left_inj] at hu
      obtain ⟨v, hv⟩ := ih h.1 ⟨u, hu⟩
      exact ⟨v, by rw [hpiece, ← hv, List.append_assoc]⟩

/-- And at their beginning. -/
theorem prefix_flatten_map_restore {t : List Char} (h : placeholderOpen ∉ t)
    {pieces : List (List Char)} (hstart : t <+: pieces.flatten) :
    t <+: (pieces.map masked.restore).flatten := by
  induction pieces generalizing t with
  | nil => exact hstart
  | cons piece pieces ih =>
    rw [List.flatten_cons] at hstart
    rw [List.map_cons, List.flatten_cons]
    have hsplit := List.prefix_or_prefix_of_prefix hstart (List.prefix_append piece _)
    rcases hsplit with ⟨s, rfl⟩ | ⟨s, rfl⟩
    · rw [masked.restore_append_of_open_not_mem h]
      exact ⟨_, (List.append_assoc _ _ _).symm⟩
    · rw [List.mem_append, not_or] at h
      rw [masked.restore_of_not_mem h.1]
      rw [List.prefix_append_right_inj] at hstart ⊢
      exact ih h.2 hstart

end MaskedLine

/-! ### Seams of a masked line -/

/-- What does not open a placeholder is in front of all those of a text. -/
theorem placeholder_infix_of_append {i : Nat} {s t : List Char} (h : placeholderOpen ∉ s)
    (hpart : placeholder i <:+: s ++ t) : placeholder i <:+: t := by
  induction s with
  | nil => exact hpart
  | cons c s ih =>
    rw [List.mem_cons, not_or] at h
    rcases List.infix_cons_iff.1 hpart with hstart | hpart
    · exact absurd (List.cons_prefix_cons.1 hstart).1 h.1
    · exact ih h.2 hpart

/-- Every placeholder in a masked text stands for a literal. -/
theorem StandsFor.exists_literal {literal? : Nat → Option (List Char)} {masked plain : List Char}
    (h : StandsFor literal? masked plain) (free : PlaceholderFree plain) {i : Nat}
    (hpart : placeholder i <:+: masked) : ∃ text, literal? i = some text := by
  induction h with
  | nil => exact absurd (List.infix_nil.1 hpart) (by simp [placeholder])
  | @char masked plain c rest ih =>
    rcases List.infix_cons_iff.1 hpart with hstart | hpart
    · exact absurd hstart (rest.not_prefix_placeholder free i)
    · exact ih (free.part (List.suffix_cons _ _).isInfix) hpart
  | @literal masked plain k text hk rest ih =>
    rcases List.infix_cons_iff.1 hpart with hstart | hpart
    · obtain rfl := eq_of_prefix_placeholder hstart
      exact ⟨text, hk⟩
    · exact ih (free.part (List.suffix_append _ _).isInfix)
        (placeholder_infix_of_append (placeholderOpen_not_mem_digits k) hpart)

/-- The seam between two parts of a masked line is inside the placeholder of one of its literals. -/
def MaskedLine.IsCut (masked : MaskedLine) (left right : List Char) : Prop :=
  ∃ i < masked.literals.length, ∃ before after, placeholder i = before ++ after ∧
    before ≠ [] ∧ after ≠ [] ∧ before <:+ left ∧ after <+: right

/-- A masked line has no other placeholders than those of its literals, so no other could be cut. -/
theorem isCut_of_cutsPlaceholder {line left right : List Char} (free : PlaceholderFree line)
    (hline : left ++ right = (mask line).text) (h : CutsPlaceholder left right) :
    (mask line).IsCut left right := by
  obtain ⟨i, before, after, hplaceholder, hbefore, hafter, ⟨u, rfl⟩, ⟨v, rfl⟩⟩ := h
  have hpart : placeholder i <:+: (mask line).text := ⟨u, v, by rw [hplaceholder, ← hline]; simp⟩
  obtain ⟨text, hi⟩ := (standsFor_mask line).exists_literal free hpart
  exact ⟨i, (List.getElem?_eq_some_iff.1 hi).1, before, after, hplaceholder, hbefore, hafter,
    List.suffix_append _ _, List.prefix_append _ _⟩

/-- Pieces none of whose seams cuts a placeholder may be joined one after another. -/
theorem uncut_of_forall_seams {pieces : List (List Char)}
    (h : ∀ front back, pieces = front ++ back → ¬ CutsPlaceholder front.flatten back.flatten) :
    Uncut pieces := by
  induction pieces with
  | nil => trivial
  | cons piece rest ih =>
    refine ⟨by simpa using h [piece] rest rfl, ih fun front back hrest hcut ↦ ?_⟩
    refine h (piece :: front) back (by rw [hrest, List.cons_append]) (hcut.of_suffix ?_)
    exact List.suffix_append _ _

/-- Where a placeholder is cut, its two sides are still beside each other after restoring. -/
theorem MaskedLine.IsCut.placeholder_infix {masked : MaskedLine} {front back : List (List Char)}
    (h : masked.IsCut front.flatten back.flatten) :
    ∃ i, placeholder i <:+: ((front ++ back).map masked.restore).flatten := by
  obtain ⟨i, -, before, after, hplaceholder, hbefore, hafter, hend, hstart⟩ := h
  obtain ⟨hclose, hopen⟩ := not_mem_of_placeholder_eq_append hplaceholder hbefore hafter
  obtain ⟨u, hu⟩ := masked.suffix_flatten_map_restore hclose hend
  obtain ⟨v, hv⟩ := masked.prefix_flatten_map_restore hopen hstart
  refine ⟨i, u, v, ?_⟩
  rw [List.map_append, List.flatten_append, ← hu, ← hv, hplaceholder]
  simp

/-- **Masking is undone piece by piece, unless a placeholder is cut.** However the masked line is
cut, its pieces with the literals put back into each of them make up the line exactly if no seam is
inside a placeholder. Restoring the masked line in one piece gives the line. -/
theorem flatten_restore_eq_iff {line : List Char} (free : PlaceholderFree line)
    {pieces : List (List Char)} (hpieces : pieces.flatten = (mask line).text) :
    ((pieces.map (mask line).restore).flatten = line ↔
      ∀ front back, pieces = front ++ back → ¬ (mask line).IsCut front.flatten back.flatten) ∧
    (mask line).restore (mask line).text = line := by
  refine ⟨⟨?_, fun h ↦ ?_⟩, MaskedLine.restore_mask free⟩
  · rintro hline front back rfl hcut
    obtain ⟨i, hpart⟩ := hcut.placeholder_infix
    rw [hline] at hpart
    exact free _ (Number.digits_ne_nil i) (fun _ ↦ Number.isDigit_of_mem_digits) hpart
  · refine flatten_map_restore free (uncut_of_forall_seams fun front back hsplit hcut ↦ ?_) hpieces
    refine h front back hsplit (isCut_of_cutsPlaceholder free ?_ hcut)
    rw [← hpieces, hsplit, List.flatten_append]

/-- Two literals cut off the text around them, and the first one cut behind its number. -/
theorem flatten_restore_of_two_literals :
    let line := "f('a', \"b\")".toList
    let first := "f(".toList ++ [placeholderOpen, '0']
    let second := placeholderClose :: ", ".toList
    let pieces := ["f(".toList, placeholder 0 ++ ", ".toList, placeholder 1, ")".toList]
    let cut := [first, second, placeholder 1 ++ ")".toList]
    PlaceholderFree line ∧ pieces.flatten = (mask line).text ∧
      (∀ front back, pieces = front ++ back → ¬ (mask line).IsCut front.flatten back.flatten) ∧
      cut.flatten = (mask line).text ∧ (cut.map (mask line).restore).flatten ≠ line := by
  intro line first second pieces cut
  have free : PlaceholderFree line := placeholderFree_of_not_mem (by decide)
  have hpieces : pieces.flatten = (mask line).text := by decide +kernel
  have hcut : cut.flatten = (mask line).text := by decide +kernel
  refine ⟨free, hpieces, ?_, hcut, fun hline ↦ ?_⟩
  · exact (flatten_restore_eq_iff free hpieces).1.1 (by decide +kernel)
  · refine (flatten_restore_eq_iff free hcut).1.1 hline [first] [second, _] rfl
      ⟨0, by decide +kernel, [placeholderOpen, '0'], [placeholderClose], rfl, by simp, by simp, ?_⟩
    exact ⟨⟨"f(".toList, rfl⟩, ⟨_, rfl⟩⟩

end LineCompletion
