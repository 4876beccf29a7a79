import LineCompletion.Json.Reader
import LineCompletion.Proofs.Json.Numbers
import LineCompletion.Proofs.Json.Strings
import Mathlib.Data.List.Forall2

/-!
# How JSON is written

The grammar of JSON, as a relation between a value and the texts it may be written as:

* `Written` relates a value to a text without white space around it, with one constructor for each
  kind of value;
* `WrittenElements`, `WrittenMember` and `WrittenMembers` relate what stands between brackets to its
  text, where white space is free around elements, names and values;
* `Document` allows white space around the whole.

**Nothing here speaks of reading.** The relation is between values and texts and follows the syntax
of JSON. A list of elements is one element, or an element, a comma and a list of elements, so no
comma stands at the end, and an array of nothing is a case of its own. Nothing bounds how deep
brackets are nested.

**A value keeps its spelling.** A string is its body, as it stands between the quotes, and a number
is its text. So each value has texts that differ in white space alone, and what a body stands for is
a question of its own. Names may be repeated in an object, as the syntax allows it; whether a reader
of settings accepts that is for the reader to say.

What reading relies on is how a written value begins. It begins with a character that is no white
space, which is skipped before a value, and does not close an array, by which an array of nothing is
recognised (`Written.head`). Elements begin so behind white space (`WrittenElements.exists_head`),
and members begin with a quote (`WrittenMembers.exists_head`). The converse is not claimed: not
every such character begins a value.
-/

namespace LineCompletion.Json

/-! ### The grammar -/

/-- White space and nothing else. -/
def Space (s : List Char) : Prop := ∀ c ∈ s, isSpace c = true

/-- No white space is white space too. -/
theorem space_nil : Space [] := fun _ hc ↦ absurd hc List.not_mem_nil

mutual

/-- A value and a text that it may be written as. -/
inductive Written : Json → List Char → Prop
  /-- The null value. -/
  | null : Written .null "null".toList
  /-- A truth value. -/
  | bool (b : Bool) : Written (.bool b) (toString b).toList
  /-- A number. -/
  | number {s : List Char} (h : NumberText s) : Written (.number s) s
  /-- A string. -/
  | string {body : List Char} (h : StringBody body) :
      Written (.string body) ('"' :: (body ++ ['"']))
  /-- An array of nothing. -/
  | emptyArray {s : List Char} (h : Space s) : Written (.array []) ('[' :: (s ++ [']']))
  /-- An array. -/
  | array {elements : List Json} {s : List Char} (h : WrittenElements elements s) :
      Written (.array elements) ('[' :: (s ++ [']']))
  /-- An object of nothing. -/
  | emptyObject {s : List Char} (h : Space s) : Written (.object []) ('{' :: (s ++ ['}']))
  /-- An object. -/
  | object {members : List (List Char × Json)} {s : List Char} (h : WrittenMembers members s) :
      Written (.object members) ('{' :: (s ++ ['}']))

/-- Elements, at least one, with commas between them. -/
inductive WrittenElements : List Json → List Char → Prop
  /-- The last element. -/
  | single {j : Json} {before s after : List Char} (hbefore : Space before) (hj : Written j s)
      (hafter : Space after) : WrittenElements [j] (before ++ (s ++ after))
  /-- An element, a comma, and the elements after it. -/
  | cons {j : Json} {elements : List Json} {before s after t : List Char} (hbefore : Space before)
      (hj : Written j s) (hafter : Space after) (helements : WrittenElements elements t) :
      WrittenElements (j :: elements) (before ++ (s ++ (after ++ ',' :: t)))

/-- A name between quotes, a colon and a value. -/
inductive WrittenMember : List Char × Json → List Char → Prop
  /-- White space may stand on both sides of the colon. -/
  | mk {name gap before s : List Char} {j : Json} (hname : StringBody name) (hgap : Space gap)
      (hbefore : Space before) (hj : Written j s) :
      WrittenMember (name, j) ('"' :: (name ++ '"' :: (gap ++ ':' :: (before ++ s))))

/-- Members, at least one, with commas between them. -/
inductive WrittenMembers : List (List Char × Json) → List Char → Prop
  /-- The last member. -/
  | single {m : List Char × Json} {before s after : List Char} (hbefore : Space before)
      (hm : WrittenMember m s) (hafter : Space after) :
      WrittenMembers [m] (before ++ (s ++ after))
  /-- A member, a comma, and the members after it. -/
  | cons {m : List Char × Json} {members : List (List Char × Json)} {before s after t : List Char}
      (hbefore : Space before) (hm : WrittenMember m s) (hafter : Space after)
      (hmembers : WrittenMembers members t) :
      WrittenMembers (m :: members) (before ++ (s ++ (after ++ ',' :: t)))

end

/-- A text that holds one value and white space around it. -/
def Document (j : Json) (text : List Char) : Prop :=
  ∃ before s after, text = before ++ (s ++ after) ∧ Space before ∧ Written j s ∧ Space after

/-! ### How written values begin -/

/-- A character that may begin a value, as far as it matters around it: white space is skipped
before one, and a bracket there would close the array. -/
structure Opens (c : Char) : Prop where
  /-- It is not skipped. -/
  notSpace : isSpace c = false
  /-- It closes no array. -/
  notClose : c ≠ ']'

/-- A digit may begin a value: it is neither white space nor a bracket. -/
theorem opens_of_isDigit {c : Char} (h : c.isDigit = true) : Opens c where
  notSpace := by
    refine Bool.eq_false_iff.2 fun hspace ↦ ?_
    simp only [isSpace, Bool.or_eq_true, beq_iff_eq] at hspace
    rcases hspace with ((rfl | rfl) | rfl) | rfl <;> exact absurd h (by decide)
  notClose := by
    rintro rfl
    exact absurd h (by decide)

/-- **A written value begins with a character that may begin one.** In particular it is not empty.
-/
theorem Written.head {j : Json} {s : List Char} (h : Written j s) : ∃ c ∈ s.head?, Opens c := by
  cases h with
  | null => exact ⟨'n', rfl, ⟨rfl, by decide⟩⟩
  | bool b => cases b <;> exact ⟨_, rfl, ⟨rfl, by decide⟩⟩
  | number h =>
    obtain ⟨c, t, rfl, hc | rfl⟩ := h.exists_head
    · exact ⟨c, rfl, opens_of_isDigit hc⟩
    · exact ⟨'-', rfl, ⟨rfl, by decide⟩⟩
  | string | emptyArray | array | emptyObject | object => exact ⟨_, rfl, ⟨rfl, by decide⟩⟩

/-- Elements begin with white space, if any, and the first character of a value behind it. -/
theorem WrittenElements.exists_head {elements : List Json} {s : List Char}
    (h : WrittenElements elements s) :
    ∃ before t, s = before ++ t ∧ Space before ∧ ∃ c ∈ t.head?, Opens c := by
  cases h with
  | single hbefore hj hafter => exact ⟨_, _, rfl, hbefore, head_append hj.head⟩
  | cons hbefore hj hafter helements => exact ⟨_, _, rfl, hbefore, head_append hj.head⟩

/-- A member begins with the quote of its name. -/
theorem WrittenMember.head {m : List Char × Json} {s : List Char} (h : WrittenMember m s) :
    s.head? = some '"' := by
  cases h
  rfl

/-- Members begin with white space, if any, and the quote of a name behind it. -/
theorem WrittenMembers.exists_head {members : List (List Char × Json)} {s : List Char}
    (h : WrittenMembers members s) :
    ∃ before t, s = before ++ '"' :: t ∧ Space before := by
  cases h with
  | single hbefore hm hafter =>
    obtain ⟨t, rfl⟩ := List.head?_eq_some_iff.1 hm.head
    exact ⟨_, _, rfl, hbefore⟩
  | cons hbefore hm hafter hmembers =>
    obtain ⟨t, rfl⟩ := List.head?_eq_some_iff.1 hm.head
    exact ⟨_, _, rfl, hbefore⟩

/-! ### The parts of what is written -/

/-- What stands between the quotes of a written string is the body of one. -/
theorem Written.stringBody {body s : List Char} (h : Written (.string body) s) :
    StringBody body := by
  cases h with
  | string hbody => exact hbody

/-- Each of the members that are written together is written somewhere among them. -/
theorem WrittenMembers.exists_written {members : List (List Char × Json)} {s : List Char}
    (h : WrittenMembers members s) : ∀ m ∈ members, ∃ t, WrittenMember m t := by
  cases h with
  | single _ hm _ => exact List.forall_mem_singleton.2 ⟨_, hm⟩
  | cons _ hm _ hmembers => exact List.forall_mem_cons.2 ⟨⟨_, hm⟩, hmembers.exists_written⟩

/-- Each member of an object in a document is written somewhere in it. -/
theorem Document.exists_written {members : List (List Char × Json)} {text : List Char}
    (h : Document (.object members) text) : ∀ m ∈ members, ∃ t, WrittenMember m t := by
  obtain ⟨-, s, -, -, -, hs, -⟩ := h
  cases hs with
  | emptyObject => exact fun _ hm ↦ absurd hm List.not_mem_nil
  | object hmembers => exact hmembers.exists_written

/-- Members without white space, joined by commas. -/
theorem writtenMembers_intercalate {members : List (List Char × Json)} {texts : List (List Char)}
    (h : List.Forall₂ WrittenMember members texts) (hne : members ≠ []) :
    WrittenMembers members ([','].intercalate texts) := by
  induction h with
  | nil => exact absurd rfl hne
  | @cons m t members texts hm hall ih =>
    cases hall with
    | nil => simpa using WrittenMembers.single space_nil hm space_nil
    | cons hm' hall =>
      rw [List.intercalate_cons_cons]
      simpa using WrittenMembers.cons space_nil hm space_nil (ih (List.cons_ne_nil _ _))

end LineCompletion.Json
