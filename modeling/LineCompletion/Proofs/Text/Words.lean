import LineCompletion.Text.Blank
import Mathlib.Data.List.TakeWhile

/-!
# White space around words

A text is trimmed and divided at white space character by character, and what is read off the result
is had from two equations. Trimming stops at a character that is no white space
(`trim_append_cons`), so nothing on either side of one is lost. Words end at one that is
(`words_append_cons`), so the words of a text are those before any white space in it followed by
those behind it; trimming changes none of them (`words_trim`).

**Typing at the end of a line.** What these are for is a line that is being typed. There a word
grows at the end, and completion reads the line again from the start. As long as what is added has
no white space in it, the trimmed line grows by just that (`trim_append_word`), its indentation
stays (`indentation_append_word`), and only its last word is another one. `exists_last_word` finds
that word: a trimmed line of several words ends in one, with white space in front.

**Cutting with a remainder.** Trimming forgets what it takes off, and a completed line has to have
that again. So the parts are tied back to the whole: the white space in front and the trimmed rest
make up the line up to its end (`indentation_append_trim`), and the white space at the end is what
was trimmed off there (`trimEnd_append_blank`, `trailingBlanks_append_blank`).

What counts as white space is no matter here. All that is asked of a character is whether
`isBlank` holds of it, and no lemma looks into that table.
-/

namespace LineCompletion.Text

/-! ### Trimming -/

/-- What stops a run keeps everything behind it from being dropped. -/
theorem dropWhile_append_cons {p : Char → Bool} {c : Char} (hc : p c = false) (s t : List Char) :
    (s ++ c :: t).dropWhile p = s.dropWhile p ++ c :: t := by
  rw [List.dropWhile_append, List.dropWhile_cons_of_neg (by simp [hc])]
  split
  · rename_i hempty
    rw [List.isEmpty_iff.1 hempty, List.nil_append]
  · rfl

/-- Trimming a text takes nothing off before a character in it that is no white space, but what it
takes off there without the rest. -/
theorem trim_append_cons {c : Char} (hc : isBlank c = false) (s t : List Char) :
    trim (s ++ c :: t) = trimStart s ++ c :: trimEnd t := by
  have hreverse : (trimStart s ++ c :: t).reverse = t.reverse ++ c :: (trimStart s).reverse := by
    simp
  have hstart : trimStart (s ++ c :: t) = trimStart s ++ c :: t := dropWhile_append_cons hc s t
  rw [trim, hstart, trimEnd, hreverse, dropWhile_append_cons hc]
  simp [trimEnd]

/-- The white space that a text starts with is decided before a character that is none. -/
theorem indentation_append_cons {c : Char} (hc : isBlank c = false) (s t : List Char) :
    indentation (s ++ c :: t) = indentation s := by
  rw [indentation, List.takeWhile_append, List.takeWhile_cons_of_neg (by simp [hc]),
    List.append_nil]
  split
  · rename_i hlength
    exact ((List.takeWhile_prefix isBlank).eq_of_length hlength).symm
  · rfl

/-- What is trimmed off behind a character that is no white space is all the white space there. -/
theorem trimEnd_append_blank {s w : List Char} (hs : ∀ c ∈ s.getLast?, isBlank c = false)
    (hw : ∀ c ∈ w, isBlank c = true) : trimEnd (s ++ w) = s := by
  have hw : ∀ c ∈ w.reverse, isBlank c = true := fun c hc ↦ hw c (List.mem_reverse.1 hc)
  rw [trimEnd, List.reverse_append, List.dropWhile_append_of_pos hw]
  rw [← List.head?_reverse] at hs
  rcases hrev : s.reverse with - | ⟨c, rest⟩
  · rw [← List.reverse_reverse s, hrev]
    rfl
  · rw [List.dropWhile_cons_of_neg (by rw [hs c (by rw [hrev]; rfl)]; simp), ← hrev,
      List.reverse_reverse]

/-- White space at the end of a text is its trailing white space, if none comes before it. -/
theorem trailingBlanks_append_blank {s w : List Char} (hs : ∀ c ∈ s.getLast?, isBlank c = false)
    (hw : ∀ c ∈ w, isBlank c = true) : trailingBlanks (s ++ w) = w := by
  have happend := trimEnd_append_trailingBlanks (s ++ w)
  rw [trimEnd_append_blank hs hw] at happend
  exact List.append_cancel_left happend

/-- A text that was trimmed at its end does not end in white space. -/
theorem getLast?_trimEnd (s : List Char) : ∀ c ∈ (trimEnd s).getLast?, isBlank c = false := by
  intro c hc
  have hhead := List.head?_dropWhile_not isBlank s.reverse
  rw [trimEnd, List.getLast?_reverse, Option.mem_def] at hc
  rw [hc] at hhead
  exact hhead

/-- Only a text that ends in white space is changed by trimming its end. -/
theorem trimEnd_eq_self_iff {s : List Char} :
    trimEnd s = s ↔ ∀ c ∈ s.getLast?, isBlank c = false := by
  constructor
  · intro htrim
    exact htrim ▸ getLast?_trimEnd s
  · intro hlast
    simpa using trimEnd_append_blank hlast (w := []) (by simp)

/-- A text that starts and ends in no white space is what is left of it between white space. -/
theorem trim_append_blank {s w : List Char} (hhead : ∃ c ∈ s.head?, isBlank c = false)
    (hlast : ∀ c ∈ s.getLast?, isBlank c = false) (hw : ∀ c ∈ w, isBlank c = true) :
    trim (s ++ w) = s := by
  obtain ⟨c, hc, hblank⟩ := hhead
  obtain ⟨rest, rfl⟩ := List.head?_eq_some_iff.1 hc
  have hstart : trimStart (c :: rest ++ w) = c :: rest ++ w :=
    List.dropWhile_cons_of_neg (by simp [hblank])
  rw [trim, hstart, trimEnd_append_blank hlast hw]

/-- Trimming the end of a line that is not blank leaves the white space it begins with. -/
theorem indentation_append_trim {line : List Char} (h : trim line ≠ []) :
    indentation line ++ trim line = trimEnd line := by
  have hline : trimEnd line =
      ((trimStart line).reverse ++ (indentation line).reverse |>.dropWhile isBlank).reverse := by
    rw [← List.reverse_append, indentation_append_trimStart]
    rfl
  have hrest : ((trimStart line).reverse.dropWhile isBlank).isEmpty = false := by
    rw [List.isEmpty_eq_false_iff]
    rintro hnil
    exact h (by rw [trim, trimEnd, hnil]; rfl)
  rw [hline, List.dropWhile_append, hrest, if_neg (by simp), List.reverse_append,
    List.reverse_reverse]
  rfl

/-- What is typed of a word at the end of a text is kept when the text is trimmed. -/
theorem trim_append_word {s t : List Char} (hne : s ≠ []) (hend : trimEnd s = s)
    (ht : ∀ c ∈ t, isBlank c = false) : trim (s ++ t) = trim s ++ t := by
  rcases List.eq_nil_or_concat s with rfl | ⟨p, c, rfl⟩
  · exact absurd rfl hne
  rw [List.concat_eq_append] at hend ⊢
  have hc : isBlank c = false := trimEnd_eq_self_iff.1 hend c (by simp)
  have hkept : trimEnd t = t :=
    trimEnd_eq_self_iff.2 fun d hd ↦ ht d (List.mem_of_getLast? hd)
  rw [List.append_assoc, List.singleton_append, trim_append_cons hc, trim_append_cons hc, hkept]
  simp [trimEnd]

/-- What is typed at the end of a word leaves the white space in front alone. -/
theorem indentation_append_word {s t : List Char} (hne : s ≠ []) (hend : trimEnd s = s) :
    indentation (s ++ t) = indentation s := by
  rcases List.eq_nil_or_concat s with rfl | ⟨p, c, rfl⟩
  · exact absurd rfl hne
  rw [List.concat_eq_append] at hend ⊢
  have hc : isBlank c = false := trimEnd_eq_self_iff.1 hend c (by simp)
  rw [List.append_assoc, List.singleton_append, indentation_append_cons hc,
    indentation_append_cons hc]

/-! ### Words -/

theorem not_blank_of_any {s : List Char} (h : s.any isBlank = false) :
    ∀ c ∈ s, isBlank c = false := fun c hc ↦
  Bool.eq_false_iff.2 (List.any_eq_false.1 h c hc)

/-- White space ends a word, and the words behind it are read on their own. -/
theorem leadingWord_append_cons {b : Char} (hb : isBlank b = true) (s t : List Char) :
    leadingWord (s ++ b :: t) = ((leadingWord s).1, (leadingWord s).2 ++ words t) := by
  induction s with
  | nil => simp only [List.nil_append, leadingWord, words, hb, if_true]
  | cons c s ih =>
    simp only [List.cons_append, leadingWord, ih]
    by_cases hc : isBlank c = true
    · rw [if_pos hc, if_pos hc]
      split <;> rfl
    · rw [if_neg hc, if_neg hc]

/-- **Words end at white space.** The words of a text are those before any white space in it and
those behind it. -/
theorem words_append_cons {b : Char} (hb : isBlank b = true) (s t : List Char) :
    words (s ++ b :: t) = words s ++ words t := by
  simp only [words.eq_1 (s ++ b :: t), words.eq_1 s, leadingWord_append_cons hb]
  split <;> rfl

theorem words_cons_of_blank {b : Char} (hb : isBlank b = true) (s : List Char) :
    words (b :: s) = words s :=
  words_append_cons hb [] s

/-- In white space alone there are no words. -/
theorem words_of_blank {s : List Char} (h : ∀ c ∈ s, isBlank c = true) : words s = [] := by
  induction s with
  | nil => rfl
  | cons b s ih =>
    rw [words_cons_of_blank (h b List.mem_cons_self)]
    exact ih fun c hc ↦ h c (List.mem_cons_of_mem _ hc)

/-- A text without white space is one word. -/
theorem words_of_word {w : List Char} (hne : w ≠ []) (h : ∀ c ∈ w, isBlank c = false) :
    words w = [w] := by
  have hleading : leadingWord w = (w, []) := by
    clear hne
    induction w with
    | nil => rfl
    | cons c w ih =>
      rw [leadingWord, ih fun d hd ↦ h d (List.mem_cons_of_mem _ hd)]
      simp [h c List.mem_cons_self]
  rw [words, hleading]
  simp [hne]

/-- White space at the end of a text adds no word. -/
theorem words_append_of_blank {w : List Char} (hw : ∀ c ∈ w, isBlank c = true) (s : List Char) :
    words (s ++ w) = words s := by
  cases w with
  | nil => rw [List.append_nil]
  | cons b w =>
    rw [words_append_cons (hw b List.mem_cons_self),
      words_of_blank fun c hc ↦ hw c (List.mem_cons_of_mem _ hc), List.append_nil]

/-- White space in front of a text adds no word. -/
theorem words_of_blank_append {w : List Char} (hw : ∀ c ∈ w, isBlank c = true) (s : List Char) :
    words (w ++ s) = words s := by
  induction w with
  | nil => rfl
  | cons b w ih =>
    rw [List.cons_append, words_cons_of_blank (hw b List.mem_cons_self),
      ih fun c hc ↦ hw c (List.mem_cons_of_mem _ hc)]

/-- Trimming takes off no word. -/
theorem words_trim (s : List Char) : words (trim s) = words s := by
  have hend := words_append_of_blank (w := trailingBlanks (trimStart s))
    (fun _ ↦ isBlank_of_mem_trailingBlanks) (trimEnd (trimStart s))
  have hstart := words_of_blank_append (w := indentation s)
    (fun _ hc ↦ List.mem_takeWhile_imp hc) (trimStart s)
  rw [trim, ← hend, trimEnd_append_trailingBlanks, ← hstart, indentation_append_trimStart]

/-- A trimmed text of several words ends in a word, with white space before it. -/
theorem exists_last_word {s : List Char} (h : 2 ≤ (words s).length) :
    ∃ before b word, trim s = before ++ b :: word ∧ words before ≠ [] ∧ isBlank b = true ∧
      word ≠ [] ∧ ∀ c ∈ word, isBlank c = false := by
  rw [← words_trim] at h
  rcases hfind : (trim s).reverse.find? isBlank with - | b
  · -- Without white space there would be one word at most.
    have hword : ∀ c ∈ trim s, isBlank c = false := fun c hc ↦ by
      simpa using List.find?_eq_none.1 hfind c (List.mem_reverse.2 hc)
    by_cases hne : trim s = []
    · rw [hne] at h
      exact absurd h (by decide)
    · rw [words_of_word hne hword] at h
      exact absurd h (by simp)
  · obtain ⟨hb, after, before, hreverse, hafter⟩ := List.find?_eq_some_iff_append.1 hfind
    have htrim : trim s = before.reverse ++ b :: after.reverse := by
      rw [← List.reverse_reverse (trim s), hreverse]
      simp
    have hword : ∀ c ∈ after.reverse, isBlank c = false := fun c hc ↦ by
      simpa using hafter c (List.mem_reverse.1 hc)
    have hne : after.reverse ≠ [] := fun hnil ↦ by
      have hlast := getLast?_trimEnd (trimStart s) b
      rw [← trim, htrim, hnil] at hlast
      exact absurd (hlast (by simp)) (by simp [hb])
    refine ⟨_, b, _, htrim, fun hnil ↦ ?_, hb, hne, hword⟩
    rw [htrim, words_append_cons hb, hnil, words_of_word hne hword] at h
    exact absurd h (by simp)

end LineCompletion.Text
