import Mathlib.Data.List.TakeWhile

/-!
# Where tokens end

A token is cut off the start of a text as its longest run of characters of some kind: the digits of
a number, the characters of a name, white space. The run is found whatever follows it, as long as it
is not followed by one more of them.

**The side condition.** That nothing more of the kind follows is asked of the first character of the
rest only, in the form `∀ c ∈ rest.head?, p c = false`. An empty rest meets it without a case of its
own, and a rest that starts with a character that is known meets it by one evaluation. All readers
in this library state what may follow a token in this form, so that what one of them leaves over is
what the next one asks for (`head?_dropWhile_eq_false`).

**Both halves.** A reader takes the run and goes on behind it, so each fact is needed for
`List.takeWhile` (`takeWhile_append_of_stop`) and for `List.dropWhile`
(`dropWhile_append_of_stop`). Expressions and JSON are both scanned in this way and share these
lemmas. Which characters make up which token is said where the token is read.
-/

namespace LineCompletion

/-- A run is found as it is, if what follows it starts with none of its kind. -/
theorem takeWhile_append_of_stop {p : Char → Bool} {s rest : List Char} (hs : ∀ c ∈ s, p c = true)
    (hrest : ∀ c ∈ rest.head?, p c = false) : (s ++ rest).takeWhile p = s := by
  rw [List.takeWhile_append_of_pos hs]
  cases rest with
  | nil => rw [List.takeWhile_nil, List.append_nil]
  | cons c rest => rw [List.takeWhile_cons_of_neg (by simpa using hrest c rfl), List.append_nil]

/-- What follows a run is what is left behind it. -/
theorem dropWhile_append_of_stop {p : Char → Bool} {s rest : List Char} (hs : ∀ c ∈ s, p c = true)
    (hrest : ∀ c ∈ rest.head?, p c = false) : (s ++ rest).dropWhile p = rest := by
  rw [List.dropWhile_append_of_pos hs]
  cases rest with
  | nil => rfl
  | cons c rest => rw [List.dropWhile_cons_of_neg (by simpa using hrest c rfl)]

/-- What is left behind a run begins with no more of it. -/
theorem head?_dropWhile_eq_false {p : Char → Bool} {s : List Char} :
    ∀ c ∈ (s.dropWhile p).head?, p c = false := by
  intro c hc
  have hhead := List.head?_dropWhile_not p s
  rw [Option.mem_def.1 hc] at hhead
  exact hhead

theorem head_append {s t : List Char} {P : Char → Prop} (h : ∃ c ∈ s.head?, P c) :
    ∃ c ∈ (s ++ t).head?, P c := by
  obtain ⟨c, hc, hP⟩ := h
  exact ⟨c, by rw [List.head?_append, Option.mem_def.1 hc]; rfl, hP⟩

end LineCompletion
