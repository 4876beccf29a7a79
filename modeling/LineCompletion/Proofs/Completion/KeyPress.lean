import LineCompletion.Completion.Tab
import LineCompletion.Proofs.Completion.Offers
import LineCompletion.Proofs.Expression.Reading
import LineCompletion.Proofs.Text.Boundaries

/-!
# What a press of the completion key leaves

The buffer after a press of the key, for any completer that leaves it alone (`press_edits`). On a
blank line the text before the cursor is indented. Otherwise a single suggestion ends up in place of
what it replaces, whether it was appended to or deleted first; and so does the longest common prefix
of several, if it extends what they replace, and the suggestions are listed once. The text after the
cursor stays as it is.

**What is counted is what is there.** The text replaced is measured alone, in clusters, and is
deleted from the end of the whole text (`dropLast_count`). The two are the same where the text
begins between two clusters, which is the one hypothesis on the spans; it is stated by dividing the
clusters before the cursor into those kept and those replaced, so that it is about clusters of the
line and not of its parts. Whatever a console suggests replaces the whole line
(`Console.start_of_mem_complete`), so for it the hypothesis is always met.

**The common prefix is said independently of how it is found** (`LongestCommonPrefix`): every value
starts with it, and it starts with whatever they all start with. That determines it
(`LongestCommonPrefix.unique`), and the program's own is such a one
(`longestCommonPrefix_commonPrefix`).

The proof takes a press apart by how many suggestions there are (`press_of_nil`, `press_of_single`,
`press_of_several`), with one equation for what each of the two edits does to the buffer
(`accept_eq`, `offer_eq`). What a press reports, and whether the line is drawn again, is not asked
here.
-/

namespace LineCompletion

open Text

/-! ### Common prefixes -/

/-- A text starts both of two texts exactly if it starts what they share. -/
theorem prefix_sharedPrefix_iff {p s t : List Char} :
    p <+: sharedPrefix s t ↔ p <+: s ∧ p <+: t := by
  fun_induction sharedPrefix s t generalizing p with
  | case1 a s t ih =>
    cases p with
    | nil => simp
    | cons c p =>
      rw [List.cons_prefix_cons, List.cons_prefix_cons, List.cons_prefix_cons, ih,
        and_and_left]
  | case2 a s b t hne =>
    cases p with
    | nil => simp
    | cons c p =>
      rw [List.cons_prefix_cons, List.cons_prefix_cons]
      constructor
      · intro h
        exact absurd (List.prefix_nil.1 h) (by simp)
      · rintro ⟨⟨rfl, -⟩, rfl, -⟩
        exact absurd rfl hne
  | case3 s t hne =>
    constructor
    · intro h
      rw [List.prefix_nil.1 h]
      exact ⟨List.nil_prefix, List.nil_prefix⟩
    · rintro ⟨⟨u, rfl⟩, v, rfl⟩
      -- A common prefix that is not empty would be the beginning of both.
      cases p with
      | nil => exact List.nil_prefix
      | cons c p => exact (hne _ _ _ _ rfl rfl).elim

/-- A text starts all of some texts exactly if it starts what they all share. -/
theorem prefix_foldl_sharedPrefix_iff {p first : List Char} {others : List Suggestion} :
    p <+: others.foldl (fun shared s ↦ sharedPrefix shared s.value) first ↔
      p <+: first ∧ ∀ s ∈ others, p <+: s.value := by
  induction others generalizing first with
  | nil => simp
  | cons s others ih =>
    rw [List.foldl_cons, ih, prefix_sharedPrefix_iff, List.forall_mem_cons, and_assoc]

/-- The longest text that all of some texts start with. -/
structure LongestCommonPrefix (texts : List (List Char)) (shared : List Char) : Prop where
  /-- They all start with it. -/
  starts : ∀ t ∈ texts, shared <+: t
  /-- It starts with all that they start with. -/
  longest : ∀ other, (∀ t ∈ texts, other <+: t) → other <+: shared

/-- **The common prefix of suggestions is the longest one of their values.** -/
theorem longestCommonPrefix_commonPrefix {found : List Suggestion} (hne : found ≠ []) :
    LongestCommonPrefix (found.map Suggestion.value) (commonPrefix found) := by
  have hiff : ∀ p, p <+: commonPrefix found ↔ ∀ t ∈ found.map Suggestion.value, p <+: t := by
    intro p
    cases found with
    | nil => exact absurd rfl hne
    | cons first others =>
      rw [commonPrefix, prefix_foldl_sharedPrefix_iff, List.map_cons, List.forall_mem_cons,
        List.forall_mem_map]
  exact ⟨(hiff _).1 List.prefix_rfl, fun p ↦ (hiff p).2⟩

/-- There is only one longest common prefix. -/
theorem LongestCommonPrefix.unique {texts : List (List Char)} {shared shared' : List Char}
    (h : LongestCommonPrefix texts shared) (h' : LongestCommonPrefix texts shared') :
    shared = shared' :=
  (h'.longest _ h.starts).eq_of_length_le (h.longest _ h'.starts).length_le

/-- Texts behind the same beginning share that and what they share without it. -/
theorem exists_longestCommonPrefix_append {before shared : List Char} {texts : List (List Char)}
    (h : LongestCommonPrefix (texts.map (before ++ ·)) shared) :
    ∃ rest, shared = before ++ rest ∧ LongestCommonPrefix texts rest := by
  have hbefore : before <+: shared := h.longest before fun t ht ↦ by
    obtain ⟨text, -, rfl⟩ := List.mem_map.1 ht
    exact List.prefix_append _ _
  obtain ⟨rest, rfl⟩ := hbefore
  refine ⟨rest, rfl, fun t ht ↦ ?_, fun other hother ↦ ?_⟩
  · exact (List.prefix_append_right_inj before).1 (h.starts _ (List.mem_map_of_mem ht))
  · refine (List.prefix_append_right_inj before).1 (h.longest _ fun t ht ↦ ?_)
    obtain ⟨text, htext, rfl⟩ := List.mem_map.1 ht
    exact (List.prefix_append_right_inj before).2 (hother text htext)

/-! ### The key -/

/-- A suggestion replaces the text from where its span starts. -/
theorem Suggestion.replaced_append {s : Suggestion} {left : List Char}
    (h : s.span.start = byteLength left) (right : List Char) :
    s.replaced (left ++ right) = right := by
  rw [replaced, h, splitAtByte?_append]

namespace TabHandler

variable {handler : TabHandler} {buffer : LineBuffer} {left right : List (List Char)}

/-- Accepting a suggestion puts it in place of what it replaces. -/
theorem accept_eq (hclusters : Grapheme.clusters buffer.before = left ++ right) {only : Suggestion}
    (h : only.span.start = byteLength left.flatten) :
    accept only buffer.before buffer = { buffer with before := left.flatten ++ only.value } := by
  have hbefore : buffer.before = left.flatten ++ right.flatten := by
    rw [← List.flatten_append, ← hclusters, Grapheme.clusters_flatten]
  have hreplaced : only.replaced buffer.before = right.flatten := by
    rw [hbefore, Suggestion.replaced_append h]
  rw [accept, Suggestion.extension?, hreplaced]
  rcases hrest : Suggestion.dropPrefix? right.flatten only.value with - | rest
  · show { buffer with before := Grapheme.dropLast _ buffer.before ++ only.value } = _
    rw [Grapheme.dropLast_count hclusters]
  · show { buffer with before := buffer.before ++ rest } = _
    rw [Suggestion.dropPrefix?_eq_some_iff.1 hrest, hbefore, List.append_assoc]

/-- Offering several puts in place what they share, if that goes on from what they replace, and
lists them. -/
theorem offer_eq (hclusters : Grapheme.clusters buffer.before = left ++ right)
    {first : Suggestion} {found : List Suggestion}
    (h : first.span.start = byteLength left.flatten) :
    handler.offer first found buffer.before buffer =
      { buffer with
        before := if right.flatten <+: commonPrefix found then left.flatten ++ commonPrefix found
          else buffer.before
        listings := buffer.listings ++
          [handler.layout.listing (found.map Suggestion.display) buffer.width] } := by
  have hbefore : buffer.before = left.flatten ++ right.flatten := by
    rw [← List.flatten_append, ← hclusters, Grapheme.clusters_flatten]
  have hreplaced : first.replaced buffer.before = right.flatten := by
    rw [hbefore, Suggestion.replaced_append h]
  rw [offer, hreplaced]
  rcases hrest : Suggestion.dropPrefix? right.flatten (commonPrefix found) with - | rest
  · have hnot : ¬ right.flatten <+: commonPrefix found := by
      rintro ⟨rest, hrest'⟩
      rw [Suggestion.dropPrefix?_eq_some_iff.2 hrest'.symm] at hrest
      exact absurd hrest (by simp)
    rw [if_neg hnot]
    rfl
  · have hrest := Suggestion.dropPrefix?_eq_some_iff.1 hrest
    rw [if_pos ⟨rest, hrest.symm⟩, hrest, ← List.append_assoc, ← hbefore]
    rfl

end TabHandler

/-- Nothing is left of a text without the white space around it just when it is white space. -/
theorem isEmpty_trim_iff {s : List Char} : (trim s).isEmpty = true ↔ Blank s := by
  rw [List.isEmpty_iff, trim]
  constructor
  · intro h
    have hall : Blank (trimStart s) := fun c hc ↦
      List.dropWhile_eq_nil_iff.1 (List.reverse_eq_nil_iff.1 h) c (List.mem_reverse.2 hc)
    -- What is left after the white space at the start begins with something else.
    have hhead := List.head?_dropWhile_not isBlank s
    rcases htrim : trimStart s with - | ⟨c, rest⟩
    · exact List.dropWhile_eq_nil_iff.1 htrim
    · rw [trimStart] at htrim
      rw [htrim] at hhead
      have hblank := hall c (by rw [trimStart, htrim]; exact List.mem_cons_self)
      rw [show isBlank c = false by simpa using hhead] at hblank
      exact absurd hblank (by simp)
  · intro h
    rw [trimStart_of_blank h]
    rfl

/-- Whatever a console suggests replaces the whole line. -/
theorem Console.start_of_mem_complete {console : Console} {line : List Char} {buffer : LineBuffer}
    {s : Suggestion} (h : s ∈ (console.complete line buffer).1) : s.span.start = 0 := by
  have hsuggestions {before after : List Char} {found : List (List Char)}
      (h : s ∈ suggestions line before found after) : s.span.start = 0 := by
    obtain ⟨match', -, rfl⟩ := List.mem_map.1 h
    rfl
  rw [complete] at h
  split at h
  · obtain ⟨-, name, -, rfl⟩ := mem_importSuggestions_iff.1 h
    rfl
  · dsimp only at h
    split at h
    · exact hsuggestions h
    · rw [completeLookup] at h
      split at h
      · exact absurd h List.not_mem_nil
      · split at h
        · exact hsuggestions h
        · exact hsuggestions h
        · exact absurd h List.not_mem_nil
        · exact absurd h List.not_mem_nil

namespace TabHandler

section Press

variable {handler : TabHandler} {buffer : LineBuffer} {found : List Suggestion}

/-- On a blank line the key indents, and lists nothing. -/
theorem press_of_blank (h : Blank buffer.before) :
    (handler.press buffer).2.before = buffer.before ++ handler.indent ∧
      (handler.press buffer).2.after = buffer.after ∧
      (handler.press buffer).2.listings = buffer.listings := by
  rw [press]
  dsimp only
  rw [if_pos (isEmpty_trim_iff.2 h)]
  split
  · rename_i hindent
    rw [List.isEmpty_iff.1 hindent, List.append_nil]
    exact ⟨rfl, rfl, rfl⟩
  · exact ⟨rfl, rfl, rfl⟩

/-- Without suggestions the buffer stays as it is. -/
theorem press_of_nil (h : ¬ Blank buffer.before)
    (hfound : handler.completer buffer.before buffer = ([], buffer)) :
    (handler.press buffer).2 = buffer := by
  simp only [press, isEmpty_trim_iff, h, hfound, if_false]

/-- A single suggestion is accepted, and the line drawn again. -/
theorem press_of_single {only : Suggestion} (h : ¬ Blank buffer.before)
    (hfound : handler.completer buffer.before buffer = ([only], buffer)) :
    (handler.press buffer).2 = (accept only buffer.before buffer).requestRedisplay := by
  simp only [press, isEmpty_trim_iff, h, hfound, if_false]

/-- Several suggestions are offered, and the line drawn again. -/
theorem press_of_several {first second : Suggestion} {others : List Suggestion}
    (h : ¬ Blank buffer.before)
    (hfound : handler.completer buffer.before buffer = (first :: second :: others, buffer)) :
    (handler.press buffer).2 =
      (handler.offer first (first :: second :: others) buffer.before buffer).requestRedisplay := by
  simp only [press, isEmpty_trim_iff, h, hfound, if_false]

end Press

/-- **What a press of the completion key leaves.** The completer does not touch the buffer, and what
its suggestions replace begins between the same two clusters. Then the text after the cursor stays
as it is. The text before it is indented if it is blank; it stays as it is without suggestions; a
single one stands in place of what it replaces, and of several the longest common prefix, if it goes
on from what they replace. Several suggestions on a line that is not blank are listed once, and
nothing else is ever listed. -/
theorem press_edits (handler : TabHandler) {buffer : LineBuffer} {found : List Suggestion}
    {left right : List (List Char)}
    (hfound : handler.completer buffer.before buffer = (found, buffer))
    (hclusters : Grapheme.clusters buffer.before = left ++ right)
    (hspans : ∀ s ∈ found, s.span.start = byteLength left.flatten) :
    let pressed := (handler.press buffer).2
    pressed.after = buffer.after ∧
      (Blank buffer.before → pressed.before = buffer.before ++ handler.indent) ∧
      (¬ Blank buffer.before →
        (found = [] → pressed.before = buffer.before) ∧
        (∀ only, found = [only] → pressed.before = left.flatten ++ only.value) ∧
        (2 ≤ found.length → ∃ shared,
          LongestCommonPrefix (found.map Suggestion.value) shared ∧
          pressed.before =
            if right.flatten <+: shared then left.flatten ++ shared else buffer.before)) ∧
      pressed.listings = buffer.listings ++
        (if ¬ Blank buffer.before ∧ 2 ≤ found.length then
          [handler.layout.listing (found.map Suggestion.display) buffer.width] else []) ∧
      ∀ console : Console, handler.completer = console.complete →
        ∀ s ∈ found, s.span.start = 0 := by
  intro pressed
  have hconsole : ∀ console : Console, handler.completer = console.complete →
      ∀ s ∈ found, s.span.start = 0 := by
    intro console hcompleter s hs
    rw [hcompleter] at hfound
    exact Console.start_of_mem_complete (by rwa [hfound])
  by_cases hblank : Blank buffer.before
  · obtain ⟨hbefore, hafter, hlistings⟩ := @press_of_blank handler _ hblank
    refine ⟨hafter, fun _ ↦ hbefore, fun h ↦ absurd hblank h, ?_, hconsole⟩
    rw [if_neg fun h ↦ h.1 hblank, List.append_nil]
    exact hlistings
  rcases found with - | ⟨first, - | ⟨second, others⟩⟩
  · have hpressed : pressed = buffer := press_of_nil hblank hfound
    rw [hpressed]
    refine ⟨rfl, fun h ↦ absurd h hblank, fun _ ↦ ⟨fun _ ↦ rfl, fun only h ↦ absurd h (by simp),
      fun h ↦ absurd h (by simp)⟩, ?_, hconsole⟩
    rw [if_neg (by simp), List.append_nil]
  · have hpressed : pressed = _ := (press_of_single hblank hfound).trans
      (congrArg _ (accept_eq hclusters (hspans first List.mem_cons_self)))
    rw [hpressed]
    refine ⟨rfl, fun h ↦ absurd h hblank, fun _ ↦ ⟨fun h ↦ absurd h (by simp), fun only h ↦ ?_,
      fun h ↦ absurd h (by simp)⟩, ?_, hconsole⟩
    · obtain rfl := List.singleton_inj.1 h
      rfl
    · rw [if_neg (by simp), List.append_nil]
      rfl
  · have hpressed : pressed = _ := (press_of_several hblank hfound).trans
      (congrArg _ (offer_eq hclusters (hspans first List.mem_cons_self)))
    rw [hpressed]
    refine ⟨rfl, fun h ↦ absurd h hblank, fun _ ↦ ⟨fun h ↦ absurd h (by simp),
      fun only h ↦ absurd h (by simp), fun _ ↦ ?_⟩, ?_, hconsole⟩
    · exact ⟨_, longestCommonPrefix_commonPrefix (by simp), rfl⟩
    · have hlisted : ¬ Blank buffer.before ∧ 2 ≤ (first :: second :: others).length :=
        ⟨hblank, by simp⟩
      rw [if_pos hlisted]
      rfl

/-- A letter typed with a combining accent gives way, as a whole, to a word that has it. -/
theorem press_edits_accented :
    let only : Suggestion := ⟨"\u00e9t\u00e9".toList, [], ⟨2, 5, by decide⟩⟩
    let handler : TabHandler := ⟨fun _ buffer ↦ ([only], buffer), Layout.standard, []⟩
    let buffer : LineBuffer := ⟨"x e\u0301".toList, "!".toList, 80, [], 0⟩
    handler.completer buffer.before buffer = ([only], buffer) ∧
      Grapheme.clusters buffer.before = [['x'], [' ']] ++ [['e', '\u0301']] ∧
      only.span.start = byteLength [['x'], [' ']].flatten ∧
      (handler.press buffer).2.before = "x \u00e9t\u00e9".toList ∧
      (handler.press buffer).2.after = "!".toList ∧ (handler.press buffer).2.listings = [] := by
  intro only handler buffer
  have hclusters : Grapheme.clusters buffer.before = [['x'], [' ']] ++ [['e', '\u0301']] := by
    decide +kernel
  have hspan : only.span.start = byteLength [['x'], [' ']].flatten := by decide
  have hblank : ¬ Blank buffer.before := by decide
  have hfound : handler.completer buffer.before buffer = ([only], buffer) := rfl
  obtain ⟨hafter, -, hbefore, hlistings, -⟩ := press_edits handler hfound hclusters fun s hs ↦ by
    rwa [List.mem_singleton.1 hs]
  exact ⟨hfound, hclusters, hspan, (hbefore hblank).2.1 only rfl, hafter, hlistings⟩

end TabHandler

end LineCompletion
