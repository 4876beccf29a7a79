import LineCompletion.Proofs.Json.Grammar

/-!
# Reading JSON reads the grammar

A text is read as a JSON value exactly when it is a document of that value (`read?_eq_some_iff`).
Since reading is a function, a text is a document of one value at most, which is not proved of the
grammar itself.

**Whatever is written is read** (`Written.reads`), whatever follows it, as long as that could not
belong to a number (`Stops`). The condition is needed: digits behind a number would be read with it.
Behind an element there are white space, a comma or a bracket, so inside of brackets the condition
is always met (`Reads.run_stop`). The induction is on how the value is written, and each of its
cases is one of the equations under *One value*: what the reader does for a first character, given
what it does inside of the brackets.

A reader has a depth for the brackets inside, by which it is a function at all. What stands inside
brackets is shorter than the text with them, so a depth beyond the length of the text is always
enough, and a depth that a text could run out of is never seen from outside. In particular no text
is refused because its brackets are nested too deep.

**Whatever is read is written** (`readsOnlyWritten_ofDepth`). There the induction is the reader's
own: on the depth, and on the length of what is left for the elements of one array. What is carried
along is `ReadsOnlyWritten`, a property of the reader inside of the brackets; that one reader has it
gives it to the reader one bracket further out (`written_of_readAfter`).

White space before a value belongs to the reading of the value, and white space behind the last
value to the reading of the document; between the two directions it is `skip_append` and
`exists_space_append` that say so.
-/

namespace LineCompletion.Json

/-! ### White space -/

/-- White space before a value is skipped, and nothing of the value. -/
theorem skip_append {w s : List Char} (hw : Space w) (hs : ∃ c ∈ s.head?, Opens c)
    (rest : List Char) : skip (w ++ (s ++ rest)) = s ++ rest := by
  obtain ⟨c, hc, hopens⟩ := head_append hs
  refine dropWhile_append_of_stop hw fun d hd ↦ ?_
  obtain rfl : c = d := Option.some.inj (hc.symm.trans hd)
  exact hopens.notSpace

/-- White space is skipped up to a character that is none. -/
theorem skip_append_cons {w : List Char} (hw : Space w) {c : Char} (hc : isSpace c = false)
    (rest : List Char) : skip (w ++ c :: rest) = c :: rest :=
  dropWhile_append_of_stop hw fun _ hd ↦ Option.some.inj hd ▸ hc

/-- What a text without the white space at its start leaves out is that white space. -/
theorem exists_space_append {s t : List Char} (h : skip s = t) : ∃ w, s = w ++ t ∧ Space w :=
  ⟨s.takeWhile isSpace, by rw [← h, skip, List.takeWhile_append_dropWhile],
    fun _ hc ↦ List.mem_takeWhile_imp hc⟩

/-! ### What may follow a value -/

/-- What may follow a value: nothing that a number could go on with. -/
def Stops (rest : List Char) : Prop := ∀ c ∈ rest.head?, isNumberChar c = false

/-- The end of the text may follow a value. -/
theorem stops_nil : Stops [] := fun _ hc ↦ absurd hc (by simp)

/-- White space does not belong to a number. -/
theorem isNumberChar_of_isSpace {c : Char} (h : isSpace c = true) : isNumberChar c = false := by
  simp only [isSpace, Bool.or_eq_true, beq_iff_eq] at h
  rcases h with ((rfl | rfl) | rfl) | rfl <;> rfl

/-- White space may follow a value if what is behind it may. -/
theorem stops_space_append {w rest : List Char} (hw : Space w) (hrest : Stops rest) :
    Stops (w ++ rest) := by
  cases w with
  | nil => exact hrest
  | cons c w =>
    exact fun d hd ↦ Option.some.inj hd ▸ isNumberChar_of_isSpace (hw c List.mem_cons_self)

/-- White space and a character that does not belong to a number may follow a value. -/
theorem stops_space_append_cons {w : List Char} (hw : Space w) {c : Char}
    (hc : isNumberChar c = false) (rest : List Char) : Stops (w ++ c :: rest) :=
  stops_space_append hw fun _ hd ↦ Option.some.inj hd ▸ hc

/-! ### One value -/

section Steps

variable {inner : JsonReader} {c : Char} {s rest more : List Char}

/-- A reader goes by the first character that is no white space. -/
theorem run_ofDepth_of_skip (depth : Nat) (h : skip s = c :: rest) :
    (JsonReader.ofDepth (depth + 1)).run s = readAfter (JsonReader.ofDepth depth) c rest := by
  rw [JsonReader.run_ofDepth_succ, h]

/-- A number is read if what follows could not belong to it. -/
theorem readAfter_number {number : List Char} (h : NumberText (c :: number)) (hrest : Stops rest) :
    readAfter inner c (number ++ rest) = .ok (.number (c :: number), rest) := by
  obtain ⟨d, t, heq, hd⟩ := h.exists_head
  obtain ⟨rfl, rfl⟩ := List.cons.inj heq
  have hchars : ∀ x ∈ number, isNumberChar x = true := fun x hx ↦
    h.isNumberChar x (List.mem_cons_of_mem _ hx)
  have hne : ∀ x : Char, x.isDigit = false → x ≠ '-' → c ≠ x := by
    rintro x hx hminus rfl
    rcases hd with hd | hd
    · exact absurd hd (by rw [hx]; simp)
    · exact hminus hd
  rw [readAfter, takeWhile_append_of_stop hchars hrest, dropWhile_append_of_stop hchars hrest]
  · exact if_pos (isNumber_iff.2 h)
  · exact fun heq ↦ hne '"' rfl (by decide) heq
  · exact fun heq ↦ hne '[' rfl (by decide) heq
  · exact fun heq ↦ hne '{' rfl (by decide) heq
  · exact fun _ heq _ ↦ hne 'n' rfl (by decide) heq
  · exact fun _ heq _ ↦ hne 't' rfl (by decide) heq
  · exact fun _ heq _ ↦ hne 'f' rfl (by decide) heq

/-- A string is read up to its closing quote. -/
theorem readAfter_string {body : List Char} (h : readBody? s = some (body, rest)) :
    readAfter inner '"' s = .ok (.string body, rest) := by
  rw [readAfter, h]

/-- An array is empty if it is closed before anything stands in it. -/
theorem readAfter_emptyArray (h : skip s = ']' :: rest) :
    readAfter inner '[' s = .ok (.array [], rest) := by
  rw [readAfter, h]
  rfl

/-- An array that is not closed at once has the elements that are read from there. -/
theorem readAfter_array {elements : List Json} (hopen : (skip s).head? ≠ some ']')
    (h : readElements inner s = .ok (elements, rest)) :
    readAfter inner '[' s = .ok (.array elements, rest) := by
  rw [readAfter]
  split
  · rename_i hclose
    exact absurd (by rw [hclose]; rfl) hopen
  · rw [h]

/-- An object is empty if it is closed before anything stands in it. -/
theorem readAfter_emptyObject (h : skip s = '}' :: rest) :
    readAfter inner '{' s = .ok (.object [], rest) := by
  rw [readAfter, h]
  rfl

/-- An object that is not closed at once has the members that are read from there. -/
theorem readAfter_object {members : List (List Char × Json)} (hopen : (skip s).head? ≠ some '}')
    (h : readMembers inner s = .ok (members, rest)) :
    readAfter inner '{' s = .ok (.object members, rest) := by
  rw [readAfter]
  split
  · rename_i hclose
    exact absurd (by rw [hclose]; rfl) hopen
  · rw [h]

/-- An element before the closing bracket is the last one. -/
theorem readElements_single {j : Json} (hrun : inner.run s = .ok (j, rest))
    (hclose : skip rest = ']' :: more) : readElements inner s = .ok ([j], more) := by
  rw [readElements]
  split
  · rename_i heq
    exact absurd (hrun.symm.trans heq) (by simp)
  · rename_i heq
    obtain ⟨rfl, rfl⟩ := Prod.mk.inj (Except.ok.inj (hrun.symm.trans heq))
    split
    · exact absurd (List.cons.inj (hclose.symm.trans ‹_›)).1 (by decide)
    · rename_i hmore
      obtain ⟨-, rfl⟩ := List.cons.inj (hclose.symm.trans hmore)
      rfl
    · rename_i hother
      exact absurd hclose (hother more)

/-- An element before a comma is followed by those that are read behind it. -/
theorem readElements_cons {j : Json} {elements : List Json} {left : List Char}
    (hrun : inner.run s = .ok (j, rest)) (hcomma : skip rest = ',' :: more)
    (hmore : readElements inner more = .ok (elements, left)) :
    readElements inner s = .ok (j :: elements, left) := by
  rw [readElements]
  split
  · rename_i heq
    exact absurd (hrun.symm.trans heq) (by simp)
  · rename_i heq
    obtain ⟨rfl, rfl⟩ := Prod.mk.inj (Except.ok.inj (hrun.symm.trans heq))
    split
    · rename_i hmore'
      obtain ⟨-, rfl⟩ := List.cons.inj (hcomma.symm.trans hmore')
      rw [hmore]
    · exact absurd (List.cons.inj (hcomma.symm.trans ‹_›)).1 (by decide)
    · rename_i hother _
      exact absurd hcomma (hother more)

/-- A member is read as its name, a colon and its value. -/
theorem readMember_eq {name : List Char} {j : Json} {afterQuote afterName : List Char}
    (hquote : skip s = '"' :: afterQuote) (hname : readBody? afterQuote = some (name, afterName))
    (hcolon : skip afterName = ':' :: more) (hrun : inner.run more = .ok (j, rest)) :
    readMember inner s = .ok ((name, j), rest) := by
  rw [readMember, hquote]
  simp only [hname, hcolon, hrun]

/-- A member before the closing bracket is the last one. -/
theorem readMembers_single {m : List Char × Json} (hrun : readMember inner s = .ok (m, rest))
    (hclose : skip rest = '}' :: more) : readMembers inner s = .ok ([m], more) := by
  rw [readMembers]
  split
  · rename_i heq
    exact absurd (hrun.symm.trans heq) (by simp)
  · rename_i heq
    obtain ⟨rfl, rfl⟩ := Prod.mk.inj (Except.ok.inj (hrun.symm.trans heq))
    split
    · exact absurd (List.cons.inj (hclose.symm.trans ‹_›)).1 (by decide)
    · rename_i hmore
      obtain ⟨-, rfl⟩ := List.cons.inj (hclose.symm.trans hmore)
      rfl
    · rename_i hother
      exact absurd hclose (hother more)

/-- A member before a comma is followed by those that are read behind it. -/
theorem readMembers_cons {m : List Char × Json} {members : List (List Char × Json)}
    {left : List Char} (hrun : readMember inner s = .ok (m, rest))
    (hcomma : skip rest = ',' :: more) (hmore : readMembers inner more = .ok (members, left)) :
    readMembers inner s = .ok (m :: members, left) := by
  rw [readMembers]
  split
  · rename_i heq
    exact absurd (hrun.symm.trans heq) (by simp)
  · rename_i heq
    obtain ⟨rfl, rfl⟩ := Prod.mk.inj (Except.ok.inj (hrun.symm.trans heq))
    split
    · rename_i hmore'
      obtain ⟨-, rfl⟩ := List.cons.inj (hcomma.symm.trans hmore')
      rw [hmore]
    · exact absurd (List.cons.inj (hcomma.symm.trans ‹_›)).1 (by decide)
    · rename_i hother _
      exact absurd hcomma (hother more)

end Steps

/-! ### What is written is read -/

/-- Reading reads a value off the start of a text, whatever follows it, if the depth is enough. -/
structure Reads (j : Json) (s : List Char) : Prop where
  /-- The value is read. -/
  run_eq : ∀ {depth before rest}, s.length ≤ depth → Space before → Stops rest →
    (JsonReader.ofDepth (depth + 1)).run (before ++ (s ++ rest)) = .ok (j, rest)

/-- A value inside brackets is read up to the white space before the comma or bracket behind it. -/
theorem Reads.run_stop {j : Json} {s before after rest : List Char} (h : Reads j s) {depth : Nat}
    (hdepth : s.length < depth) (hbefore : Space before) (hafter : Space after) {c : Char}
    (hc : isNumberChar c = false) :
    (JsonReader.ofDepth depth).run (before ++ (s ++ (after ++ c :: rest))) =
      .ok (j, after ++ c :: rest) := by
  obtain ⟨depth, rfl⟩ : ∃ d, depth = d + 1 := ⟨depth - 1, by omega⟩
  exact h.run_eq (Nat.le_of_lt_succ hdepth) hbefore (stops_space_append_cons hafter hc rest)

mutual

/-- **Whatever is written is read.** -/
theorem Written.reads {j : Json} {s : List Char} (h : Written j s) : Reads j s := by
  refine ⟨fun {depth before rest} hdepth hbefore hrest ↦ ?_⟩
  -- A bracket takes one level of the depth and at least one character of the text, so the depth
  -- that is left is enough for what is inside.
  have hskip := skip_append hbefore h.head rest
  cases h with
  | null => exact run_ofDepth_of_skip depth hskip
  | bool b => cases b <;> exact run_ofDepth_of_skip depth hskip
  | number h =>
    obtain ⟨c, number, rfl, -⟩ := h.exists_head
    exact (run_ofDepth_of_skip depth hskip).trans (readAfter_number h hrest)
  | @string body h =>
    have hskip : skip _ = '"' :: (body ++ '"' :: rest) := hskip.trans (by simp)
    exact (run_ofDepth_of_skip depth hskip).trans (readAfter_string (readBody?_append h rest))
  | @emptyArray s h =>
    have hskip : skip _ = '[' :: (s ++ ']' :: rest) := hskip.trans (by simp)
    refine (run_ofDepth_of_skip depth hskip).trans ?_
    exact readAfter_emptyArray (skip_append_cons h rfl rest)
  | @array elements s h =>
    have hskip : skip _ = '[' :: (s ++ ']' :: rest) := hskip.trans (by simp)
    have hlength : s.length < depth := by
      simp only [List.length_cons, List.length_append, List.length_nil] at hdepth
      omega
    refine (run_ofDepth_of_skip depth hskip).trans (readAfter_array ?_ (h.reads hlength rest))
    -- An empty array is tried first, but no element begins with a bracket that closes.
    obtain ⟨w, t, rfl, hw, ht⟩ := h.exists_head
    obtain ⟨c, hc, hopens⟩ := head_append (t := ']' :: rest) ht
    rw [List.append_assoc, skip_append hw ht, Option.mem_def.1 hc]
    rintro ⟨⟩
    exact hopens.notClose rfl
  | @emptyObject s h =>
    have hskip : skip _ = '{' :: (s ++ '}' :: rest) := hskip.trans (by simp)
    refine (run_ofDepth_of_skip depth hskip).trans ?_
    exact readAfter_emptyObject (skip_append_cons h rfl rest)
  | @object members s h =>
    have hskip : skip _ = '{' :: (s ++ '}' :: rest) := hskip.trans (by simp)
    have hlength : s.length < depth := by
      simp only [List.length_cons, List.length_append, List.length_nil] at hdepth
      omega
    refine (run_ofDepth_of_skip depth hskip).trans (readAfter_object ?_ (h.reads hlength rest))
    obtain ⟨w, t, rfl, hw⟩ := h.exists_head
    rw [List.append_assoc, List.cons_append, skip_append_cons hw rfl]
    simp

/-- Elements are read up to the closing bracket, and the bracket with them. -/
theorem WrittenElements.reads {elements : List Json} {s : List Char}
    (h : WrittenElements elements s) {depth : Nat} (hdepth : s.length < depth) (rest : List Char) :
    readElements (JsonReader.ofDepth depth) (s ++ ']' :: rest) = .ok (elements, rest) := by
  cases h with
  | single hbefore hj hafter =>
    simp only [List.length_append] at hdepth
    simp only [List.append_assoc]
    exact readElements_single (hj.reads.run_stop (by omega) hbefore hafter rfl)
      (skip_append_cons hafter rfl rest)
  | cons hbefore hj hafter helements =>
    simp only [List.length_append, List.length_cons] at hdepth
    simp only [List.append_assoc, List.cons_append]
    exact readElements_cons (hj.reads.run_stop (by omega) hbefore hafter rfl)
      (skip_append_cons hafter rfl _) (helements.reads (by omega) rest)

/-- A member is read whatever white space stands before and behind it. -/
theorem WrittenMember.reads {m : List Char × Json} {s : List Char} (h : WrittenMember m s)
    {depth : Nat} (hdepth : s.length < depth) {before after : List Char} (hbefore : Space before)
    (hafter : Space after) {c : Char} (hc : isNumberChar c = false) (rest : List Char) :
    readMember (JsonReader.ofDepth depth) (before ++ (s ++ (after ++ c :: rest))) =
      .ok (m, after ++ c :: rest) := by
  cases h with
  | mk hname hgap hspace hj =>
    simp only [List.length_append, List.length_cons] at hdepth
    simp only [List.append_assoc, List.cons_append]
    exact readMember_eq (skip_append_cons hbefore rfl _) (readBody?_append hname _)
      (skip_append_cons hgap rfl _) (hj.reads.run_stop (by omega) hspace hafter hc)

/-- Members are read up to the closing bracket, and the bracket with them. -/
theorem WrittenMembers.reads {members : List (List Char × Json)} {s : List Char}
    (h : WrittenMembers members s) {depth : Nat} (hdepth : s.length < depth) (rest : List Char) :
    readMembers (JsonReader.ofDepth depth) (s ++ '}' :: rest) = .ok (members, rest) := by
  cases h with
  | single hbefore hm hafter =>
    simp only [List.length_append] at hdepth
    simp only [List.append_assoc]
    exact readMembers_single (hm.reads (by omega) hbefore hafter rfl rest)
      (skip_append_cons hafter rfl rest)
  | cons hbefore hm hafter hmembers =>
    simp only [List.length_append, List.length_cons] at hdepth
    simp only [List.append_assoc, List.cons_append]
    exact readMembers_cons (hm.reads (by omega) hbefore hafter rfl _)
      (skip_append_cons hafter rfl _) (hmembers.reads (by omega) rest)

end

/-! ### What is read is written -/

/-- A reader reads nothing but what is written, with white space before it. -/
def ReadsOnlyWritten (reader : JsonReader) : Prop :=
  ∀ {s rest : List Char} {j : Json}, reader.run s = .ok (j, rest) →
    ∃ before t, s = before ++ (t ++ rest) ∧ Space before ∧ Written j t

section Reader

variable {inner : JsonReader} {s rest : List Char}

/-- The elements that are read up to a bracket are written there. -/
theorem writtenElements_of_readElements (h : ReadsOnlyWritten inner) {elements : List Json}
    (hread : readElements inner s = .ok (elements, rest)) :
    ∃ t, s = t ++ ']' :: rest ∧ WrittenElements elements t := by
  fun_induction readElements inner s generalizing elements rest with
  | case1 => exact absurd hread (by simp)
  | case2 => exact absurd hread (by simp)
  | case3 s j left hrun more hcomma elements' rest' hmore ih =>
    obtain ⟨rfl, rfl⟩ := Prod.mk.inj (Except.ok.inj hread)
    obtain ⟨t, rfl, helements⟩ := ih hmore
    obtain ⟨before, u, rfl, hbefore, hj⟩ := h hrun
    obtain ⟨after, rfl, hafter⟩ := exists_space_append hcomma
    exact ⟨_, by simp, .cons hbefore hj hafter helements⟩
  | case4 s j left hrun more hclose =>
    obtain ⟨rfl, rfl⟩ := Prod.mk.inj (Except.ok.inj hread)
    obtain ⟨before, u, rfl, hbefore, hj⟩ := h hrun
    obtain ⟨after, rfl, hafter⟩ := exists_space_append hclose
    exact ⟨_, by simp, .single hbefore hj hafter⟩
  | case5 => exact absurd hread (by simp)

/-- A member that is read is written, with white space before it. -/
theorem writtenMember_of_readMember (h : ReadsOnlyWritten inner) {m : List Char × Json}
    (hread : readMember inner s = .ok (m, rest)) :
    ∃ before t, s = before ++ (t ++ rest) ∧ Space before ∧ WrittenMember m t := by
  rw [readMember] at hread
  split at hread
  · rename_i afterQuote hquote
    obtain ⟨before, rfl, hbefore⟩ := exists_space_append hquote
    split at hread
    · exact absurd hread (by simp)
    · rename_i name afterName hname
      obtain ⟨hbody, rfl⟩ := readBody?_eq_some_iff.1 hname
      split at hread
      · rename_i afterColon hcolon
        obtain ⟨gap, rfl, hgap⟩ := exists_space_append hcolon
        split at hread
        · exact absurd hread (by simp)
        · rename_i j left hrun
          obtain ⟨rfl, rfl⟩ := Prod.mk.inj (Except.ok.inj hread)
          obtain ⟨space, u, rfl, hspace, hj⟩ := h hrun
          exact ⟨before, _, by simp, hbefore, .mk hbody hgap hspace hj⟩
      · exact absurd hread (by simp)
  · exact absurd hread (by simp)

/-- The members that are read up to a bracket are written there. -/
theorem writtenMembers_of_readMembers (h : ReadsOnlyWritten inner)
    {members : List (List Char × Json)} (hread : readMembers inner s = .ok (members, rest)) :
    ∃ t, s = t ++ '}' :: rest ∧ WrittenMembers members t := by
  fun_induction readMembers inner s generalizing members rest with
  | case1 => exact absurd hread (by simp)
  | case2 => exact absurd hread (by simp)
  | case3 s m left hrun more hcomma members' rest' hmore ih =>
    obtain ⟨rfl, rfl⟩ := Prod.mk.inj (Except.ok.inj hread)
    obtain ⟨t, rfl, hmembers⟩ := ih hmore
    obtain ⟨before, u, rfl, hbefore, hm⟩ := writtenMember_of_readMember h hrun
    obtain ⟨after, rfl, hafter⟩ := exists_space_append hcomma
    exact ⟨_, by simp, .cons hbefore hm hafter hmembers⟩
  | case4 s m left hrun more hclose =>
    obtain ⟨rfl, rfl⟩ := Prod.mk.inj (Except.ok.inj hread)
    obtain ⟨before, u, rfl, hbefore, hm⟩ := writtenMember_of_readMember h hrun
    obtain ⟨after, rfl, hafter⟩ := exists_space_append hclose
    exact ⟨_, by simp, .single hbefore hm hafter⟩
  | case5 => exact absurd hread (by simp)

/-- One step outwards: what is read from its first character on is written if that is so inside its
brackets. -/
theorem written_of_readAfter (h : ReadsOnlyWritten inner) {c : Char} {j : Json}
    (hread : readAfter inner c s = .ok (j, rest)) : ∃ t, c :: s = t ++ rest ∧ Written j t := by
  rw [readAfter.eq_def] at hread
  split at hread
  · obtain ⟨rfl, rfl⟩ := Prod.mk.inj (Except.ok.inj hread)
    exact ⟨_, rfl, .null⟩
  · obtain ⟨rfl, rfl⟩ := Prod.mk.inj (Except.ok.inj hread)
    exact ⟨_, rfl, .bool true⟩
  · obtain ⟨rfl, rfl⟩ := Prod.mk.inj (Except.ok.inj hread)
    exact ⟨_, rfl, .bool false⟩
  · split at hread
    · exact absurd hread (by simp)
    · rename_i body left hsplit
      obtain ⟨rfl, rfl⟩ := Prod.mk.inj (Except.ok.inj hread)
      obtain ⟨hbody, rfl⟩ := readBody?_eq_some_iff.1 hsplit
      exact ⟨_, by simp, .string hbody⟩
  · split at hread
    · rename_i left hclose
      obtain ⟨rfl, rfl⟩ := Prod.mk.inj (Except.ok.inj hread)
      obtain ⟨w, rfl, hw⟩ := exists_space_append hclose
      exact ⟨_, by simp, .emptyArray hw⟩
    · split at hread
      · exact absurd hread (by simp)
      · rename_i elements left helements
        obtain ⟨rfl, rfl⟩ := Prod.mk.inj (Except.ok.inj hread)
        obtain ⟨t, rfl, ht⟩ := writtenElements_of_readElements h helements
        exact ⟨_, by simp, .array ht⟩
  · split at hread
    · rename_i left hclose
      obtain ⟨rfl, rfl⟩ := Prod.mk.inj (Except.ok.inj hread)
      obtain ⟨w, rfl, hw⟩ := exists_space_append hclose
      exact ⟨_, by simp, .emptyObject hw⟩
    · split at hread
      · exact absurd hread (by simp)
      · rename_i members left hmembers
        obtain ⟨rfl, rfl⟩ := Prod.mk.inj (Except.ok.inj hread)
        obtain ⟨t, rfl, ht⟩ := writtenMembers_of_readMembers h hmembers
        exact ⟨_, by simp, .object ht⟩
  · dsimp only at hread
    split at hread
    · rename_i hnumber
      obtain ⟨rfl, rfl⟩ := Prod.mk.inj (Except.ok.inj hread)
      exact ⟨_, by rw [List.cons_append, List.takeWhile_append_dropWhile],
        .number (isNumber_iff.1 hnumber)⟩
    · exact absurd hread (by simp)

end Reader

/-- **Whatever is read is written**, however deep the reader goes. -/
theorem readsOnlyWritten_ofDepth (depth : Nat) : ReadsOnlyWritten (JsonReader.ofDepth depth) := by
  induction depth with
  | zero => exact fun h ↦ nomatch h
  | succ depth ih =>
    intro s rest j h
    rcases hskip : skip s with - | ⟨c, t⟩
    · exact absurd h (by simp [JsonReader.run_ofDepth_succ, hskip])
    · rw [run_ofDepth_of_skip depth hskip] at h
      obtain ⟨w, rfl, hw⟩ := exists_space_append hskip
      obtain ⟨u, heq, hu⟩ := written_of_readAfter ih h
      exact ⟨w, u, by rw [heq], hw, hu⟩

/-! ### Documents -/

/-- **Reading decides the grammar.** A text is read as a value exactly when it is a document of that
value. -/
theorem read?_eq_some_iff {s : List Char} {j : Json} : read? s = some j ↔ Document j s := by
  rw [read?]
  constructor
  · intro h
    split at h
    · rename_i j' rest hrun
      split at h
      · rename_i hempty
        obtain rfl := Option.some.inj h
        obtain ⟨before, t, heq, hbefore, ht⟩ := readsOnlyWritten_ofDepth _ hrun
        exact ⟨before, t, rest, heq, hbefore, ht,
          List.dropWhile_eq_nil_iff.1 (List.isEmpty_iff.1 hempty)⟩
      · exact absurd h (by simp)
    · exact absurd h (by simp)
  · rintro ⟨before, t, after, rfl, hbefore, ht, hafter⟩
    have hstops : Stops after := by simpa using stops_space_append hafter stops_nil
    have hlength : t.length ≤ (before ++ (t ++ after)).length := by
      simp only [List.length_append]
      omega
    have hskip : skip after = [] := List.dropWhile_eq_nil_iff.2 hafter
    rw [ht.reads.run_eq hlength hbefore hstops]
    dsimp only
    rw [hskip]
    rfl

end LineCompletion.Json
