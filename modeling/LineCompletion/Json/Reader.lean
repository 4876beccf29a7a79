import LineCompletion.Json.Basic
import LineCompletion.Json.Number
import LineCompletion.Json.Quoted
import LineCompletion.Text.Reader

/-!
# Reading JSON

A reader for one level of brackets is built from a reader for the level inside it
(`JsonReader.ofDepth`), and every reader makes progress: what is left is shorter than what was
given. Progress is a field of a reader, as it is where expressions are read, and the lemmas on
lengths are what the field needs. The depth is a device of the definition only: a text is at least
as long as its brackets are deep, so a reader of that depth never runs out of it, and `Json.read?`
reads a whole text so.

A value is recognised by its first character (`readAfter`). Numbers are cut off where the characters
of numbers end, and checked afterwards. What is wrong with a text that is no JSON is not said.
-/

namespace LineCompletion.Json

/-! ### White space -/

/-- The white space of JSON. -/
def isSpace (c : Char) : Bool := c == ' ' || c == '\n' || c == '\t' || c == '\r'

/-- The text without the white space it starts with. -/
def skip (s : List Char) : List Char := s.dropWhile isSpace

/-- A text is no shorter than without its white space. -/
theorem length_skip_le (s : List Char) : (skip s).length ≤ s.length :=
  (List.dropWhile_suffix _).length_le

/-! ### Elements and members -/

/-- A reader of values. JSON that breaks off says nothing about the place. -/
abbrev JsonReader := Reader Unit Json

/-- Reads elements with commas between them, at least one, and the bracket after them. -/
def readElements (inner : JsonReader) (s : List Char) : Except Unit (List Json × List Char) :=
  match _h : inner.run s with
  | .error e => .error e
  | .ok (element, rest) =>
    match _hr : skip rest with
    | ',' :: more =>
      match readElements inner more with
      | .error e => .error e
      | .ok (elements, rest) => .ok (element :: elements, rest)
    | ']' :: more => .ok ([element], more)
    | _ => .error ()
termination_by s.length
decreasing_by
  have := inner.progress _h
  have le := length_skip_le rest
  rw [_hr, List.length_cons] at le
  omega

/-- Reads a name, the colon after it and a value. -/
def readMember (inner : JsonReader) (s : List Char) :
    Except Unit ((List Char × Json) × List Char) :=
  match skip s with
  | '"' :: rest =>
    match readBody? rest with
    | none => .error ()
    | some (name, rest) =>
      match skip rest with
      | ':' :: rest =>
        match inner.run rest with
        | .error e => .error e
        | .ok (value, rest) => .ok ((name, value), rest)
      | _ => .error ()
  | _ => .error ()

/-- A member that is read takes something off the text. -/
theorem length_of_readMember {inner : JsonReader} {s rest : List Char} {m : List Char × Json}
    (h : readMember inner s = .ok (m, rest)) : rest.length < s.length := by
  have le := length_skip_le s
  unfold readMember at h
  split at h
  · rename_i afterQuote open_
    rw [open_, List.length_cons] at le
    split at h
    · simp at h
    · rename_i name afterName body
      have := length_of_readBody? body
      have le' := length_skip_le afterName
      split at h
      · rename_i afterColon colon
        rw [colon, List.length_cons] at le'
        split at h
        · simp at h
        · rename_i run
          obtain ⟨-, rfl⟩ := Prod.mk.inj (Except.ok.inj h)
          have := inner.progress run
          omega
      · simp at h
  · simp at h

/-- Reads members with commas between them, at least one, and the brace after them. -/
def readMembers (inner : JsonReader) (s : List Char) :
    Except Unit (List (List Char × Json) × List Char) :=
  match _h : readMember inner s with
  | .error e => .error e
  | .ok (member, rest) =>
    match _hr : skip rest with
    | ',' :: more =>
      match readMembers inner more with
      | .error e => .error e
      | .ok (members, rest) => .ok (member :: members, rest)
    | '}' :: more => .ok ([member], more)
    | _ => .error ()
termination_by s.length
decreasing_by
  have := length_of_readMember _h
  have le := length_skip_le rest
  rw [_hr, List.length_cons] at le
  omega

/-- Elements that are read take something off the text. -/
theorem length_of_readElements {inner : JsonReader} {s rest : List Char} {es : List Json}
    (h : readElements inner s = .ok (es, rest)) : rest.length < s.length := by
  fun_induction readElements inner s generalizing es rest with
  | case1 => simp at h
  | case2 => simp at h
  | case3 s e left run more after elements left' read ih =>
    obtain ⟨rfl, rfl⟩ := Prod.mk.inj (Except.ok.inj h)
    have := ih read
    have := inner.progress run
    have le := length_skip_le left
    rw [after, List.length_cons] at le
    omega
  | case4 s e left run more after =>
    obtain ⟨rfl, rfl⟩ := Prod.mk.inj (Except.ok.inj h)
    have := inner.progress run
    have le := length_skip_le left
    rw [after, List.length_cons] at le
    omega
  | case5 => simp at h

/-- Members that are read take something off the text. -/
theorem length_of_readMembers {inner : JsonReader} {s rest : List Char}
    {ms : List (List Char × Json)} (h : readMembers inner s = .ok (ms, rest)) :
    rest.length < s.length := by
  fun_induction readMembers inner s generalizing ms rest with
  | case1 => simp at h
  | case2 => simp at h
  | case3 s m left run more after members left' read ih =>
    obtain ⟨rfl, rfl⟩ := Prod.mk.inj (Except.ok.inj h)
    have := ih read
    have := length_of_readMember run
    have le := length_skip_le left
    rw [after, List.length_cons] at le
    omega
  | case4 s m left run more after =>
    obtain ⟨rfl, rfl⟩ := Prod.mk.inj (Except.ok.inj h)
    have := length_of_readMember run
    have le := length_skip_le left
    rw [after, List.length_cons] at le
    omega
  | case5 => simp at h

/-! ### Values -/

/-- Reads a value that starts with a given character, from the text after it. -/
def readAfter (inner : JsonReader) (c : Char) (s : List Char) : Except Unit (Json × List Char) :=
  match c, s with
  | 'n', 'u' :: 'l' :: 'l' :: rest => .ok (.null, rest)
  | 't', 'r' :: 'u' :: 'e' :: rest => .ok (.bool true, rest)
  | 'f', 'a' :: 'l' :: 's' :: 'e' :: rest => .ok (.bool false, rest)
  | '"', s =>
    match readBody? s with
    | none => .error ()
    | some (body, rest) => .ok (.string body, rest)
  | '[', s =>
    match skip s with
    | ']' :: rest => .ok (.array [], rest)
    | _ =>
      match readElements inner s with
      | .error e => .error e
      | .ok (elements, rest) => .ok (.array elements, rest)
  | '{', s =>
    match skip s with
    | '}' :: rest => .ok (.object [], rest)
    | _ =>
      match readMembers inner s with
      | .error e => .error e
      | .ok (members, rest) => .ok (.object members, rest)
  | c, s =>
    let number := c :: s.takeWhile isNumberChar
    if isNumber number then .ok (.number number, s.dropWhile isNumberChar) else .error ()

/-- A value takes nothing back of what comes behind its first character. -/
theorem length_of_readAfter {inner : JsonReader} {c : Char} {s rest : List Char} {j : Json}
    (h : readAfter inner c s = .ok (j, rest)) : rest.length ≤ s.length := by
  have le := length_skip_le s
  unfold readAfter at h
  split at h
  · obtain ⟨-, rfl⟩ := Prod.mk.inj (Except.ok.inj h)
    simp only [List.length_cons]
    omega
  · obtain ⟨-, rfl⟩ := Prod.mk.inj (Except.ok.inj h)
    simp only [List.length_cons]
    omega
  · obtain ⟨-, rfl⟩ := Prod.mk.inj (Except.ok.inj h)
    simp only [List.length_cons]
    omega
  · split at h
    · simp at h
    · rename_i body
      obtain ⟨-, rfl⟩ := Prod.mk.inj (Except.ok.inj h)
      exact Nat.le_of_lt (length_of_readBody? body)
  · split at h
    · rename_i close
      obtain ⟨-, rfl⟩ := Prod.mk.inj (Except.ok.inj h)
      rw [close, List.length_cons] at le
      omega
    · split at h
      · simp at h
      · rename_i read
        obtain ⟨-, rfl⟩ := Prod.mk.inj (Except.ok.inj h)
        exact Nat.le_of_lt (length_of_readElements read)
  · split at h
    · rename_i close
      obtain ⟨-, rfl⟩ := Prod.mk.inj (Except.ok.inj h)
      rw [close, List.length_cons] at le
      omega
    · split at h
      · simp at h
      · rename_i read
        obtain ⟨-, rfl⟩ := Prod.mk.inj (Except.ok.inj h)
        exact Nat.le_of_lt (length_of_readMembers read)
  · simp only at h
    split at h
    · obtain ⟨-, rfl⟩ := Prod.mk.inj (Except.ok.inj h)
      exact (List.dropWhile_suffix _).length_le
    · simp at h

/-- The reader that allows arrays and objects of the given depth inside what it reads. -/
def JsonReader.ofDepth : Nat → JsonReader
  | 0 =>
    { run := fun _ ↦ .error ()
      progress := by simp }
  | depth + 1 =>
    let inner := JsonReader.ofDepth depth
    { run := fun s ↦
        match skip s with
        | [] => .error ()
        | c :: rest => readAfter inner c rest
      progress := by
        intro s j rest h
        have le := length_skip_le s
        split at h
        · simp at h
        · rename_i c left trimmed
          rw [trimmed, List.length_cons] at le
          have := length_of_readAfter h
          omega }

/-- One level of brackets: a value by its first character that is no white space. -/
theorem JsonReader.run_ofDepth_succ (depth : Nat) (s : List Char) :
    (JsonReader.ofDepth (depth + 1)).run s =
      match skip s with
      | [] => .error ()
      | c :: rest => readAfter (JsonReader.ofDepth depth) c rest := rfl

/-- The value that a whole text is, with white space around it. A text is at least as long as it is
deep, so the depth that is allowed never matters. -/
def read? (s : List Char) : Option Json :=
  match (JsonReader.ofDepth (s.length + 1)).run s with
  | .ok (j, rest) => if (skip rest).isEmpty then some j else none
  | .error _ => none

end LineCompletion.Json
