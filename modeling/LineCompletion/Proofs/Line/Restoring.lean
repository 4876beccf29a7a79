import LineCompletion.Line.Masked

/-!
# Masking is undone by restoring

A masked text stands for a plain one: most of its characters for themselves, each of its
placeholders for a literal. `StandsFor` says so one step at a time, and everything here is an
induction on it. A line masked stands for itself (`standsFor_mask`).

Restoring puts in one literal after another. What one such step keeps is the plain text, whatever
literals are left (`StandsFor.replaceAll`), so after the last of them the plain text is what remains
(`StandsFor.restoreFrom_eq`). The step rests on the plain text holding nothing that looks like a
placeholder (`PlaceholderFree`): no character that stands for itself can then be where a placeholder
seems to begin, neither before the literals are put in nor while they are.

The parts of a masked text may also be restored one by one, as long as no placeholder is cut by the
seam between two of them (`flatten_map_restore`).

**Why a relation.** Restoring is a search for text, and it would find a placeholder that the user
typed as readily as one that masking put there. Between the two ends of the procedure there are
texts of both kinds: some literals are back and others are not. `StandsFor` describes them all. It
takes the literals as a partial function of their numbers, so putting one back is making that
function smaller, and at the end it is nowhere defined (`StandsFor.eq_of_no_literal`).

**Placeholders do not run into each other.** A placeholder is a character that opens it, digits and
a character that closes it. None of these is another, so a text starts with one placeholder at most
(`eq_of_prefix_placeholder`), and where a replacement looks for one number it steps over all others
(`replaceAll_other_placeholder_append`).

**Seams.** A seam between two parts cuts a placeholder when some of it stands at the end of the one
part and the rest at the beginning of the other (`CutsPlaceholder`). It does not if there is a
character on either side that is in no placeholder, which is how it is excluded wherever a line is
taken apart (`not_cutsPlaceholder_of_head`, `not_cutsPlaceholder_of_getLast`).
-/

namespace LineCompletion

open Text

/-! ### Placeholders -/

theorem isDigit_placeholderOpen : placeholderOpen.isDigit = false := by decide

theorem isDigit_placeholderClose : placeholderClose.isDigit = false := by decide

theorem placeholderOpen_ne_placeholderClose : placeholderOpen ≠ placeholderClose := by decide

/-- A placeholder is made of what opens it, digits and what closes it. -/
theorem eq_or_isDigit_of_mem_placeholder {i : Nat} {c : Char} (h : c ∈ placeholder i) :
    c = placeholderOpen ∨ c.isDigit = true ∨ c = placeholderClose := by
  rcases List.mem_append.1 h with hc | hc
  · exact (List.mem_cons.1 hc).imp_right fun hc ↦ .inl (Number.isDigit_of_mem_digits hc)
  · exact .inr (.inr (List.mem_singleton.1 hc))

/-- A placeholder opens at its beginning only. -/
theorem placeholderOpen_not_mem_digits (i : Nat) :
    placeholderOpen ∉ Number.digits i ++ [placeholderClose] := by
  intro h
  rcases List.mem_append.1 h with hc | hc
  · exact absurd (Number.isDigit_of_mem_digits hc) (by rw [isDigit_placeholderOpen]; simp)
  · exact placeholderOpen_ne_placeholderClose (List.mem_singleton.1 hc)

/-- A run of digits with what closes it is read off in one way. -/
theorem digits_eq_of_prefix_close {ds es rest : List Char} (hds : ∀ c ∈ ds, c.isDigit = true)
    (hes : ∀ c ∈ es, c.isDigit = true)
    (h : ds ++ [placeholderClose] <+: es ++ placeholderClose :: rest) : ds = es := by
  -- What closes a run is no digit, so neither run can be the longer one.
  induction ds generalizing es with
  | nil =>
    cases es with
    | nil => rfl
    | cons e es =>
      obtain ⟨rfl, -⟩ := List.cons_prefix_cons.1 h
      exact absurd (hes _ List.mem_cons_self) (by rw [isDigit_placeholderClose]; simp)
  | cons d ds ih =>
    cases es with
    | nil =>
      obtain ⟨rfl, -⟩ := List.cons_prefix_cons.1 h
      exact absurd (hds _ List.mem_cons_self) (by rw [isDigit_placeholderClose]; simp)
    | cons e es =>
      obtain ⟨rfl, htail⟩ := List.cons_prefix_cons.1 h
      rw [ih (fun c hc ↦ hds c (List.mem_cons_of_mem _ hc))
        (fun c hc ↦ hes c (List.mem_cons_of_mem _ hc)) htail]

/-- Of all placeholders, a text starts with one at most. -/
theorem eq_of_prefix_placeholder {i k : Nat} {rest : List Char}
    (h : placeholder k <+: placeholder i ++ rest) : k = i := by
  obtain ⟨-, htail⟩ := List.cons_prefix_cons.1 h
  have hdigits : Number.digits k ++ [placeholderClose] <+:
      Number.digits i ++ placeholderClose :: rest := by simpa using htail
  exact Number.digits_injective (digits_eq_of_prefix_close
    (fun _ ↦ Number.isDigit_of_mem_digits) (fun _ ↦ Number.isDigit_of_mem_digits) hdigits)

/-- Nothing in a line looks like a placeholder, whatever its number. -/
def PlaceholderFree (line : List Char) : Prop :=
  ∀ digits, digits ≠ [] → (∀ c ∈ digits, c.isDigit = true) →
    ¬ (placeholderOpen :: digits ++ [placeholderClose]) <:+: line

/-- A line in which no placeholder opens has none. -/
theorem placeholderFree_of_not_mem {line : List Char} (h : placeholderOpen ∉ line) :
    PlaceholderFree line := fun _ _ _ hpart ↦
  h (hpart.subset (by simp))

/-- A part of a line without placeholders has none. -/
theorem PlaceholderFree.part {line part : List Char} (free : PlaceholderFree line)
    (h : part <:+: line) : PlaceholderFree part := fun digits hne hdigits hpart ↦
  free digits hne hdigits (hpart.trans h)

/-- Text that closes no placeholder makes none behind a text that has none. -/
theorem PlaceholderFree.append {s t : List Char} (free : PlaceholderFree s)
    (ht : placeholderClose ∉ t) : PlaceholderFree (s ++ t) := by
  rintro digits hne hdigits ⟨before, after, heq⟩
  rcases List.append_eq_append_iff.1 heq with ⟨rest, hs, -⟩ | ⟨rest, hs, rfl⟩
  · exact free digits hne hdigits ⟨before, rest, hs.symm⟩
  · -- What reaches behind the seam would have to end there.
    rcases rest.eq_nil_or_concat with rfl | ⟨rest, c, rfl⟩
    · exact free digits hne hdigits ⟨before, [], by simpa using hs⟩
    · rw [List.concat_eq_append, ← List.append_assoc, ← List.append_assoc] at hs
      obtain rfl : placeholderClose = c := (List.append_inj' hs rfl).2 |> List.singleton_inj.1
      exact absurd (by simp) ht

/-- A line without placeholders does not start with one. -/
theorem PlaceholderFree.not_prefix_placeholder {line : List Char} (free : PlaceholderFree line)
    (i : Nat) : ¬ placeholder i <+: line := fun h ↦
  free (Number.digits i) (Number.digits_ne_nil i) (fun _ ↦ Number.isDigit_of_mem_digits) h.isInfix

/-! ### What a masked text stands for -/

/-- A masked text stands for a plain one, placeholders standing for the literals given. -/
inductive StandsFor (literal? : Nat → Option (List Char)) : List Char → List Char → Prop
  /-- No text stands for none. -/
  | nil : StandsFor literal? [] []
  /-- A character stands for itself. -/
  | char {masked plain : List Char} (c : Char) (rest : StandsFor literal? masked plain) :
      StandsFor literal? (c :: masked) (c :: plain)
  /-- A placeholder stands for its literal. -/
  | literal {masked plain : List Char} {i : Nat} {text : List Char} (hi : literal? i = some text)
      (rest : StandsFor literal? masked plain) :
      StandsFor literal? (placeholder i ++ masked) (text ++ plain)

namespace StandsFor

variable {literal? : Nat → Option (List Char)} {masked plain : List Char}

/-- Characters in front that stand for themselves may be added on both sides. -/
theorem text_append (s : List Char) (h : StandsFor literal? masked plain) :
    StandsFor literal? (s ++ masked) (s ++ plain) := by
  induction s with
  | nil => exact h
  | cons c s ih => exact .char c ih

/-- More literals make no difference to what a text stands for. -/
theorem mono {other? : Nat → Option (List Char)}
    (hle : ∀ i text, literal? i = some text → other? i = some text)
    (h : StandsFor literal? masked plain) : StandsFor other? masked plain := by
  induction h with
  | nil => exact .nil
  | char c _ ih => exact .char c ih
  | literal hi _ ih => exact .literal (hle _ _ hi) ih

/-- Without literals a text stands for itself only. -/
theorem eq_of_no_literal (h : StandsFor literal? masked plain) (hnone : ∀ i, literal? i = none) :
    masked = plain := by
  induction h with
  | nil => rfl
  | char c _ ih => rw [ih]
  | literal hi => rw [hnone] at hi; exact absurd hi (by simp)

/-- The end of a placeholder shows in a masked text only where it shows in the plain one: no
placeholder begins with a digit or with what closes one. -/
theorem prefix_close {digits : List Char} (h : StandsFor literal? masked plain)
    (hdigits : ∀ c ∈ digits, c.isDigit = true) (hstart : digits ++ [placeholderClose] <+: masked) :
    digits ++ [placeholderClose] <+: plain := by
  -- Each digit uses up one character of the masked text, and that one stands for itself.
  induction digits generalizing masked plain with
  | nil =>
    cases h with
    | nil => exact absurd (List.prefix_nil.1 hstart) (by simp)
    | char c rest =>
      obtain ⟨rfl, -⟩ := List.cons_prefix_cons.1 hstart
      exact List.cons_prefix_cons.2 ⟨rfl, List.nil_prefix⟩
    | literal hi rest =>
      exact absurd (List.cons_prefix_cons.1 hstart).1 placeholderOpen_ne_placeholderClose.symm
  | cons d digits ih =>
    cases h with
    | nil => exact absurd (List.prefix_nil.1 hstart) (by simp)
    | char c rest =>
      obtain ⟨rfl, htail⟩ := List.cons_prefix_cons.1 hstart
      exact List.cons_prefix_cons.2
        ⟨rfl, ih rest (fun c hc ↦ hdigits c (List.mem_cons_of_mem _ hc)) htail⟩
    | literal hi rest =>
      obtain ⟨rfl, -⟩ := List.cons_prefix_cons.1 hstart
      exact absurd (hdigits _ List.mem_cons_self) (by rw [isDigit_placeholderOpen]; simp)

/-- A character that stands for itself begins no placeholder. -/
theorem not_prefix_placeholder {c : Char} (h : StandsFor literal? masked plain)
    (free : PlaceholderFree (c :: plain)) (k : Nat) : ¬ placeholder k <+: c :: masked := by
  intro hstart
  obtain ⟨rfl, htail⟩ := List.cons_prefix_cons.1 hstart
  refine free.not_prefix_placeholder k (List.cons_prefix_cons.2 ⟨rfl, ?_⟩)
  exact h.prefix_close (fun _ ↦ Number.isDigit_of_mem_digits) htail

end StandsFor

/-! ### Masking -/

/-- What masking leaves of a text stands for the text, its placeholders for the literals masked. -/
theorem standsFor_maskFrom (escaped : Bool) (index : Nat) (s : List Char) :
    StandsFor (fun i ↦ if i < index then none else (maskFrom escaped index s).literals[i - index]?)
      (maskFrom escaped index s).text s := by
  fun_induction maskFrom escaped index s with
  | case1 => exact .nil
  | case2 escaped index c rest literal after hleading masked ih =>
    have hsplit : c :: rest = literal ++ after := by
      cases escaped with
      | false => exact eq_append_of_leadingLiteral? hleading
      | true => exact absurd hleading (by simp)
    rw [hsplit]
    refine .literal (by simp) (ih.mono fun i text hi ↦ ?_)
    -- The literals after the first one are those of the rest, numbered from the next index on.
    by_cases hlt : i < index + 1
    · rw [if_pos hlt] at hi
      exact absurd hi (by simp)
    · rw [if_neg hlt] at hi
      rw [if_neg (by omega), ← hi, show i - index = i - (index + 1) + 1 by omega]
      rfl
  | case3 escaped index c rest hleading masked ih => exact .char c ih

/-- **A masked line stands for the line.** -/
theorem standsFor_mask (line : List Char) :
    StandsFor (fun i ↦ (mask line).literals[i]?) (mask line).text line :=
  (standsFor_maskFrom false 0 line).mono fun i text hi ↦ by simpa [mask] using hi

/-! ### Putting the literals back -/

/-- A replacement goes on behind what it has replaced. -/
theorem replaceAll_skip (pattern replacement s rest : List Char) :
    replaceAll pattern replacement s.length (s ++ rest) =
      replaceAll pattern replacement 0 rest := by
  induction s with
  | nil => rfl
  | cons c s ih => exact ih

/-- A character at which the pattern does not begin stays. -/
theorem replaceAll_cons_of_ne {pattern : List Char} {c : Char} {rest : List Char}
    (h : ¬ pattern <+: c :: rest) (replacement : List Char) :
    replaceAll pattern replacement 0 (c :: rest) = c :: replaceAll pattern replacement 0 rest := by
  rw [replaceAll, if_neg (by rwa [List.isPrefixOf_iff_prefix])]

/-- What does not hold the first character of the pattern is left alone. -/
theorem replaceAll_append_of_not_mem {first : Char} {s : List Char} (h : first ∉ s)
    (pattern replacement rest : List Char) :
    replaceAll (first :: pattern) replacement 0 (s ++ rest) =
      s ++ replaceAll (first :: pattern) replacement 0 rest := by
  induction s with
  | nil => rfl
  | cons c s ih =>
    rw [List.mem_cons, not_or] at h
    rw [List.cons_append, replaceAll_cons_of_ne, ih h.2, List.cons_append]
    exact fun hstart ↦ h.1 (List.cons_prefix_cons.1 hstart).1

/-- A placeholder is replaced by its literal. -/
theorem replaceAll_placeholder_append (k : Nat) (replacement rest : List Char) :
    replaceAll (placeholder k) replacement 0 (placeholder k ++ rest) =
      replacement ++ replaceAll (placeholder k) replacement 0 rest := by
  -- What is left of the pattern behind its first character is skipped.
  show (if (placeholder k).isPrefixOf (placeholder k ++ rest) then replacement ++
    replaceAll (placeholder k) replacement (Number.digits k ++ [placeholderClose]).length
      (Number.digits k ++ [placeholderClose] ++ rest) else _) = _
  rw [if_pos (List.isPrefixOf_iff_prefix.2 (List.prefix_append _ _)), replaceAll_skip]

/-- A placeholder of another number stays. -/
theorem replaceAll_other_placeholder_append {i k : Nat} (h : k ≠ i) (replacement rest : List Char) :
    replaceAll (placeholder k) replacement 0 (placeholder i ++ rest) =
      placeholder i ++ replaceAll (placeholder k) replacement 0 rest := by
  have hfirst : ¬ placeholder k <+: placeholder i ++ rest := fun hstart ↦
    h (eq_of_prefix_placeholder hstart)
  exact (replaceAll_cons_of_ne hfirst replacement).trans (congrArg _
    (replaceAll_append_of_not_mem (placeholderOpen_not_mem_digits i) _ replacement rest))

/-- **A step of restoring keeps the plain text.** With one literal put in for its placeholder, the
text stands for what it stood for, by the other literals alone. -/
theorem StandsFor.replaceAll {literal? : Nat → Option (List Char)} {masked plain text : List Char}
    {k : Nat} (h : StandsFor literal? masked plain) (free : PlaceholderFree plain)
    (hk : ∀ t, literal? k = some t → t = text) :
    StandsFor (fun i ↦ if i = k then none else literal? i)
      (replaceAll (placeholder k) text 0 masked) plain := by
  induction h with
  | nil => exact .nil
  | char c rest ih =>
    -- Here the plain text must be free of placeholders: the character is not taken for one.
    rw [replaceAll_cons_of_ne (rest.not_prefix_placeholder free k)]
    exact .char c (ih (free.part (List.suffix_cons _ _).isInfix))
  | @literal masked plain i t hi rest ih =>
    have ih := ih (free.part (List.suffix_append _ _).isInfix)
    by_cases hik : i = k
    · -- The literal put in is not searched again, so it may hold what it likes.
      obtain rfl := hik
      rw [replaceAll_placeholder_append, hk t hi]
      exact ih.text_append text
    · rw [replaceAll_other_placeholder_append (Ne.symm hik)]
      exact .literal (by rw [if_neg hik, hi]) ih

/-- **Restoring gives the plain text.** -/
theorem StandsFor.restoreFrom_eq {index : Nat} {literals : List (List Char)}
    {masked plain : List Char} (free : PlaceholderFree plain)
    (h : StandsFor (fun i ↦ if i < index then none else literals[i - index]?) masked plain) :
    restoreFrom index literals masked = plain := by
  induction literals generalizing index masked with
  | nil => exact h.eq_of_no_literal fun i ↦ by simp
  | cons literal others ih =>
    -- The step takes the literal with the least index, and the others are those after it.
    refine ih ((h.replaceAll (k := index) free fun t ht ↦ ?_).mono fun i text hi ↦ ?_)
    · simpa using ht.symm
    · by_cases hik : i = index
      · rw [if_pos hik] at hi
        exact absurd hi (by simp)
      · rw [if_neg hik] at hi
        by_cases hlt : i < index
        · rw [if_pos hlt] at hi
          exact absurd hi (by simp)
        · rw [if_neg hlt, show i - index = i - (index + 1) + 1 by omega] at hi
          rw [if_neg (by omega), ← hi]
          rfl

/-- **Restoring a masked line gives the line.** -/
theorem MaskedLine.restore_mask {line : List Char} (free : PlaceholderFree line) :
    (mask line).restore (mask line).text = line :=
  StandsFor.restoreFrom_eq free (by simpa using standsFor_mask line)

/-- A text in which no placeholder opens is left alone. -/
theorem restoreFrom_of_not_mem {s : List Char} (h : placeholderOpen ∉ s) (index : Nat)
    (literals : List (List Char)) : restoreFrom index literals s = s := by
  induction literals generalizing index with
  | nil => rfl
  | cons literal others ih =>
    have hsame : replaceAll (placeholder index) literal 0 (s ++ []) = s ++ [] :=
      replaceAll_append_of_not_mem h _ literal []
    rw [List.append_nil] at hsame
    rw [restoreFrom, hsame, ih]

/-- What has no placeholder is restored as it is. -/
theorem MaskedLine.restore_of_not_mem (masked : MaskedLine) {s : List Char}
    (h : placeholderOpen ∉ s) : masked.restore s = s :=
  restoreFrom_of_not_mem h 0 masked.literals

/-! ### Seams -/

/-- The seam between two texts cuts a placeholder: the one ends as it begins, and the other goes on
with the rest of it. -/
def CutsPlaceholder (left right : List Char) : Prop :=
  ∃ i before after, placeholder i = before ++ after ∧ before ≠ [] ∧ after ≠ [] ∧
    before <:+ left ∧ after <+: right

theorem not_cutsPlaceholder_nil_left (right : List Char) : ¬ CutsPlaceholder [] right :=
  fun ⟨_, _, _, _, hne, _, hbefore, _⟩ ↦ hne (List.suffix_nil.1 hbefore)

theorem not_cutsPlaceholder_nil_right (left : List Char) : ¬ CutsPlaceholder left [] :=
  fun ⟨_, _, _, _, _, hne, _, hafter⟩ ↦ hne (List.prefix_nil.1 hafter)

/-- What is further off the seam does not matter. -/
theorem CutsPlaceholder.of_suffix {left left' right : List Char} (h : CutsPlaceholder left' right)
    (hleft : left' <:+ left) : CutsPlaceholder left right := by
  obtain ⟨i, before, after, hplaceholder, hbefore, hafter, hend, hstart⟩ := h
  exact ⟨i, before, after, hplaceholder, hbefore, hafter, hend.trans hleft, hstart⟩

/-- Nor does it matter what comes later on the right. -/
theorem CutsPlaceholder.of_prefix {left right right' : List Char} (h : CutsPlaceholder left right')
    (hright : right' <+: right) : CutsPlaceholder left right := by
  obtain ⟨i, before, after, hplaceholder, hbefore, hafter, hend, hstart⟩ := h
  exact ⟨i, before, after, hplaceholder, hbefore, hafter, hend, hstart.trans hright⟩

/-- Whether a character may stand in a placeholder. -/
def isPlaceholderChar (c : Char) : Bool :=
  c == placeholderOpen || c.isDigit || c == placeholderClose

/-- What is in a placeholder may stand in one. -/
theorem isPlaceholderChar_of_mem {i : Nat} {c : Char} (h : c ∈ placeholder i) :
    isPlaceholderChar c = true := by
  simp only [isPlaceholderChar, Bool.or_eq_true, beq_iff_eq, or_assoc]
  exact eq_or_isDigit_of_mem_placeholder h

/-- A seam in front of a character that is in no placeholder cuts none. -/
theorem not_cutsPlaceholder_of_head {left right : List Char}
    (h : ∀ c ∈ right.head?, isPlaceholderChar c = false) : ¬ CutsPlaceholder left right := by
  rintro ⟨i, before, after, hplaceholder, -, hne, -, rest, rfl⟩
  obtain ⟨c, after, rfl⟩ := List.exists_cons_of_ne_nil hne
  have hc := isPlaceholderChar_of_mem (i := i) (c := c) (by rw [hplaceholder]; simp)
  rw [h c rfl] at hc
  exact absurd hc (by simp)

/-- A seam behind a character that is in no placeholder cuts none. -/
theorem not_cutsPlaceholder_of_getLast {left right : List Char}
    (h : ∀ c ∈ left.getLast?, isPlaceholderChar c = false) : ¬ CutsPlaceholder left right := by
  rintro ⟨i, before, after, hplaceholder, hne, -, ⟨rest, rfl⟩, -⟩
  have hc := isPlaceholderChar_of_mem (i := i) (c := before.getLast hne)
    (by rw [hplaceholder]; exact List.mem_append_left _ (List.getLast_mem hne))
  have hlast : (rest ++ before).getLast? = some (before.getLast hne) := by
    rw [List.getLast?_append, List.getLast?_eq_some_getLast hne]
    rfl
  rw [h _ hlast] at hc
  exact absurd hc (by simp)

/-- A text cut at no placeholder: the two parts stand for two parts of what it stands for. -/
theorem StandsFor.split {literal? : Nat → Option (List Char)} {left right plain : List Char}
    (h : StandsFor literal? (left ++ right) plain) (hcut : ¬ CutsPlaceholder left right) :
    ∃ before after, plain = before ++ after ∧ StandsFor literal? left before ∧
      StandsFor literal? right after := by
  generalize hmasked : left ++ right = masked at h
  induction h generalizing left with
  | nil =>
    obtain ⟨rfl, rfl⟩ := List.append_eq_nil_iff.1 hmasked
    exact ⟨[], [], rfl, .nil, .nil⟩
  | @char masked plain c rest ih =>
    cases left with
    | nil =>
      obtain rfl : right = c :: masked := hmasked
      exact ⟨[], c :: plain, rfl, .nil, .char c rest⟩
    | cons d left =>
      obtain ⟨rfl, htail⟩ := List.cons.inj hmasked
      have hcut' : ¬ CutsPlaceholder left right := fun h ↦
        hcut (h.of_suffix (List.suffix_cons d left))
      obtain ⟨before, after, rfl, hbefore, hafter⟩ := ih hcut' htail
      exact ⟨d :: before, after, rfl, .char d hbefore, hafter⟩
  | @literal masked plain i text hi rest ih =>
    -- The placeholder lies before the seam, behind it or across it.
    rcases List.append_eq_append_iff.1 hmasked with ⟨v, hplaceholder, rfl⟩ | ⟨left', rfl, htail⟩
    · by_cases hleft : left = []
      · obtain rfl := hleft
        rw [List.nil_append] at hplaceholder
        exact ⟨[], text ++ plain, rfl, .nil, hplaceholder ▸ .literal hi rest⟩
      by_cases hv : v = []
      · obtain rfl := hv
        rw [List.append_nil] at hplaceholder
        refine ⟨text, plain, rfl, ?_, rest⟩
        simpa [hplaceholder] using StandsFor.literal hi .nil
      · exact absurd ⟨i, left, v, hplaceholder, hleft, hv, List.suffix_rfl, List.prefix_append _ _⟩
          hcut
    · have hcut' : ¬ CutsPlaceholder left' right := fun h ↦
        hcut (h.of_suffix (List.suffix_append (placeholder i) left'))
      obtain ⟨before, after, rfl, hbefore, hafter⟩ := ih hcut' htail.symm
      exact ⟨text ++ before, after, by rw [List.append_assoc], .literal hi hbefore, hafter⟩

/-- Whether a list of texts may be joined at its seams: none of them cuts a placeholder. -/
def Uncut : List (List Char) → Prop
  | [] => True
  | piece :: rest => ¬ CutsPlaceholder piece rest.flatten ∧ Uncut rest

/-- Pieces that cut no placeholder are restored, together, to what they stand for together. -/
theorem StandsFor.flatten_map_restore {masked : MaskedLine} {plain : List Char}
    {pieces : List (List Char)} (free : PlaceholderFree plain) (uncut : Uncut pieces)
    (h : StandsFor (fun i ↦ masked.literals[i]?) pieces.flatten plain) :
    (pieces.map masked.restore).flatten = plain := by
  induction pieces generalizing plain with
  | nil =>
    cases h with
    | nil => rfl
  | cons piece rest ih =>
    obtain ⟨before, after, rfl, hbefore, hafter⟩ := h.split uncut.1
    have hpiece : masked.restore piece = before :=
      StandsFor.restoreFrom_eq (free.part (List.prefix_append _ _).isInfix) (by simpa using hbefore)
    rw [List.map_cons, List.flatten_cons, hpiece,
      ih (free.part (List.suffix_append _ _).isInfix) uncut.2 hafter]

/-- **Masking is undone piece by piece**, wherever the masked line is cut outside placeholders. -/
theorem flatten_map_restore {line : List Char} {pieces : List (List Char)}
    (free : PlaceholderFree line) (uncut : Uncut pieces)
    (hpieces : pieces.flatten = (mask line).text) :
    (pieces.map (mask line).restore).flatten = line :=
  StandsFor.flatten_map_restore free uncut (hpieces ▸ standsFor_mask line)

end LineCompletion
