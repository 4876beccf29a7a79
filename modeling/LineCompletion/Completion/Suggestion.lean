import LineCompletion.Buffer
import LineCompletion.Number.Decimal

/-!
# Suggestions

A suggestion is a text with the part of the line that it replaces; that part runs up to the cursor.
When the suggestion only extends what it replaces, accepting it appends the extension. Several
suggestions share a longest common prefix.
-/

namespace LineCompletion

open Text

/-! ### Spans -/

/-- Bounds of a span, the end before the start. -/
structure InvertedSpan where
  /-- Where the span should start. -/
  start : Nat
  /-- Where the span should end. -/
  stop : Nat
  deriving DecidableEq, Repr

/-- How inverted bounds are reported. -/
def InvertedSpan.message (bounds : InvertedSpan) : String :=
  "Can't create a Span whose end < start, start=" ++ String.ofList (Number.digits bounds.start) ++
    ", end=" ++ String.ofList (Number.digits bounds.stop)

/-- A part of a line, by byte offsets. -/
structure Span where
  /-- Where it starts. -/
  start : Nat
  /-- Where it ends. -/
  stop : Nat
  /-- It does not end before it starts. -/
  ordered : start ≤ stop
  deriving DecidableEq, Repr

/-- The span between two offsets, unless they are inverted. -/
def Span.ofBounds (start stop : Nat) : Except InvertedSpan Span :=
  if h : start ≤ stop then .ok ⟨start, stop, h⟩ else .error ⟨start, stop⟩

/-! ### Suggestions -/

/-- What could stand in the line, and what it replaces. -/
structure Suggestion where
  /-- The text that replaces the span. -/
  value : List Char
  /-- The text shown in a listing. -/
  display : List Char
  /-- The part of the line that is replaced. -/
  span : Span
  deriving DecidableEq, Repr

namespace Suggestion

/-- A suggestion that replaces a whole line. -/
def replacing (line value display : List Char) : Suggestion :=
  ⟨value, display, ⟨0, byteLength line, Nat.zero_le _⟩⟩

/-- The part of the typed text that is replaced. All of it is, when the span starts nowhere in
it. -/
def replaced (s : Suggestion) (typed : List Char) : List Char :=
  match splitAtByte? typed s.span.start with
  | some (_, after) => after
  | none => typed

/-- What is left of a text after a given start. -/
def dropPrefix? : (start : List Char) → List Char → Option (List Char)
  | [], s => some s
  | _ :: _, [] => none
  | a :: start, c :: s => if a = c then dropPrefix? start s else none

/-- What to append to the typed text, when the suggestion extends what it replaces. -/
def extension? (s : Suggestion) (typed : List Char) : Option (List Char) :=
  dropPrefix? (s.replaced typed) s.value

theorem dropPrefix?_eq_some_iff {start s rest : List Char} :
    dropPrefix? start s = some rest ↔ s = start ++ rest := by
  fun_induction dropPrefix? start s with
  | case1 => simp [eq_comm]
  | case2 => simp
  | case3 a start s ih => simpa using ih
  | case4 a start c s ne => simp [Ne.symm ne]

end Suggestion

/-! ### Common prefixes -/

/-- The longest common prefix of two texts. -/
def sharedPrefix : List Char → List Char → List Char
  | a :: as, b :: bs => if a = b then a :: sharedPrefix as bs else []
  | _, _ => []

/-- The longest text that every suggestion starts with; nothing without suggestions. -/
def commonPrefix : List Suggestion → List Char
  | [] => []
  | first :: others => others.foldl (fun shared s ↦ sharedPrefix shared s.value) first.value

/-- Turns the line typed so far, and the buffer that holds it, into suggestions. It may also edit
the buffer, to mend what cannot be completed. -/
abbrev Completer := List Char → LineBuffer → List Suggestion × LineBuffer

end LineCompletion
