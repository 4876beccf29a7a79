import LineCompletion.Proofs.Expression.Scanning
import Mathlib.Logic.Relation

/-!
# A machine that evaluates while it reads

The value of a text can be found without an expression in between, by a machine with a byte offset
into the text, a counter of the expressions that were begun and have not ended, and a stack of the
brackets that are open (`Machine`). One step reads a token and does what it says (`Machine.step?`).
A step fails where it would slice the text inside a character or beyond its end, and where the
counter would fall below zero.

Where the offset is that of a rest of the text, no slice fails, and the parts of a step are written
down for that rest (`primary?_offset`, `steps?_offset`, `items?_offset`, `resume?_items_offset`,
`resume?_key_offset`, `finish?_offset`).

**Why a second evaluator.** Reading a text into an expression and evaluating that is one way to find
its value, and there nothing can go wrong with offsets, counters and slices, since it has none. An
evaluator that works on the text itself has all of them, and questions about it: is the offset
always between two characters, is the counter right when an error is passed up, how many brackets
can be open at once. This machine is such an evaluator, with every state of it in the open. That it
finds the values that evaluation finds is shown with `Mirroring`; what holds of its states, with
`Moves`.

**Control and frames.** The control says what is due next: an expression, what one begins with, a
step behind it, an item, or the way back with a value or a failure. A frame is an open bracket with
what was found before it: the container of a key, or the items so far and what they are for. The
machine looks at nothing but its own state, the text and the namespace, and no step looks more than
one token ahead.

**Failing and raising.** A step that fails, as `none`, is a fault of the machine. A failure that is
raised, such as a problem with the syntax, is an outcome and is carried in the control. None of the
lemmas here says that the first kind cannot happen. They say what a step does where the offset is
that of a rest of the text, and that a step leaves the offset there is shown from them.
-/

namespace LineCompletion

open Text

/-! ### Machines -/

/-- Why a machine has no value to give. -/
inductive Failure where
  /-- It finds a problem with the text at a byte offset. -/
  | raised (position : Nat) (problem : SyntaxProblem)
  /-- A step of the evaluation reports a failure. -/
  | reported (cause : EvalError)

/-- The failure as the error of an evaluation. -/
def Failure.error : Failure → EvalError
  | raised position problem => .syntaxError position problem
  | reported cause => cause

/-- Brackets around items, by what the items are for. -/
inductive Bracket where
  /-- They are grouped, or make a tuple. -/
  | round
  /-- They make a list. -/
  | square
  /-- They are the arguments of a call. -/
  | call (callee : Value)

namespace Bracket

/-- The closing bracket. -/
def close : Bracket → Char
  | square => ']'
  | round | call _ => ')'

/-- What the brackets stand for, from the values of the items and whether no item came after the
last comma. -/
def value (host : Host) (items : List Value) (ended : Bool) : Bracket → Except EvalError Value
  | round =>
    match items, ended with
    | [v], false => .ok v
    | items, _ => .ok (.tuple items)
  | square => .ok (.list items)
  | call callee => callee.call host items

end Bracket

/-- An open bracket, and what was read of the expression that it belongs to. -/
inductive Frame where
  /-- A bracket around items, and the values of those before the place where reading is. -/
  | items (bracket : Bracket) (before : List Value)
  /-- A bracket around a key, and the value that is looked in. -/
  | key (container : Value)

/-- What a machine does next. -/
inductive Control where
  /-- An expression is due. -/
  | enter
  /-- An expression was begun, and its first part is due. -/
  | primary
  /-- A part of the expression has a value, and may have steps behind it. -/
  | steps (v : Value)
  /-- An item or the closing bracket is due. -/
  | items
  /-- The expression ends. -/
  | leave (result : Except Failure Value)
  /-- The expression has ended, inside the innermost open bracket or inside none. -/
  | back (result : Except Failure Value)
  /-- Nothing: the whole text is read. -/
  | finished (result : Except Failure Value)

namespace Control

/-- What comes after a part of an expression is evaluated. -/
def ofResult : Except EvalError Value → Control
  | .ok v => steps v
  | .error cause => leave (.error (.reported cause))

/-- Whether reading is inside the innermost expression that was begun, and not inside a bracket of
it. -/
def inside : Control → Bool
  | primary | steps _ | leave _ => true
  | enter | items | back _ | finished _ => false

/-- The failure on the way out, if there is one. -/
def failure? : Control → Option Failure
  | leave (.error f) | back (.error f) | finished (.error f) => some f
  | _ => none

end Control

/-- A machine in the middle of a text. -/
structure Machine where
  /-- The byte offset up to which the text is read. -/
  position : Nat
  /-- How many expressions were begun and have not ended. -/
  depth : Nat
  /-- The brackets that are open, the innermost first. -/
  frames : List Frame
  /-- What comes next. -/
  control : Control

namespace Machine

/-- The machine in front of a text. -/
def start : Machine := ⟨0, 0, [], .enter⟩

/-- How many expressions are begun: one around each open bracket, and the one that reading is
inside. -/
def active (m : Machine) : Nat := m.frames.length + m.control.inside.toNat

/-- The expression ends with a problem. -/
def fail (m : Machine) (position : Nat) (problem : SyntaxProblem) : Machine :=
  { m with position, control := .leave (.error (.raised position problem)) }

/-- A token is scanned, and what it says is done. -/
def scanned {α : Type} (m : Machine) (value : α → Except EvalError Value) : Scanned α → Machine
  | (.ok a, stop) => { m with position := stop, control := .ofResult (value a) }
  | (.error problem, stop) => m.fail stop problem

/-- A bracket is opened. -/
def push (m : Machine) (position : Nat) (frame : Frame) (control : Control) : Machine :=
  { m with position, frames := frame :: m.frames, control }

/-- A bracket is closed if the text goes on with its closing bracket. -/
def close (m : Machine) (start : Nat) (rest : List Char) (outer : List Frame) (close : Char)
    (result : Except EvalError Value) : Machine :=
  if rest.head? = some close then
    { m with position := start + close.utf8Size, frames := outer, control := .ofResult result }
  else { m with frames := outer }.fail start (.expected close)

section Step

variable (host : Host) (ns : Namespace) (text : List Char)

/-- What a name stands for where an expression is due. -/
def nameValue (name : String) : Except EvalError Value :=
  match name with
  | "None" => .ok .none
  | "True" => .ok (.bool true)
  | "False" => .ok (.bool false)
  | name => Expr.nameStep ns name

/-- Reads the first part of an expression. -/
def primary? (m : Machine) : Option Machine := do
  let start ← skip? isBlank text m.position
  match ← from? text start with
  | [] => some (m.fail start .endOfExpression)
  | c :: _ =>
    if isNameStart c then
      (scanName? text start).map (m.scanned (nameValue ns))
    else if c.isDigit || c == '-' then (scanNumber? text start).map (m.scanned .ok)
    else if isQuote c then (scanString? text c (start + c.utf8Size)).map (m.scanned .ok)
    else if c = '(' then some (m.push (start + c.utf8Size) (.items .round []) .items)
    else if c = '[' then some (m.push (start + c.utf8Size) (.items .square []) .items)
    else some (m.fail start .noExpression)

/-- Reads a step behind a part of an expression, or finds that there is none. -/
def steps? (m : Machine) (v : Value) : Option Machine := do
  let start ← skip? isBlank text m.position
  match ← from? text start with
  | '.' :: _ =>
    let start ← skip? isBlank text (start + 1)
    (scanName? text start).map (m.scanned (Expr.memberStep v))
  | '[' :: _ => some (m.push (start + 1) (.key v) .enter)
  | '(' :: _ => some (m.push (start + 1) (.items (.call v) []) .items)
  | _ => some { m with position := start, control := .leave (.ok v) }

/-- Goes on inside a bracket around items, where one of them or the closing bracket is due. -/
def items? (m : Machine) (bracket : Bracket) (before : List Value) (outer : List Frame) :
    Option Machine := do
  let start ← skip? isBlank text m.position
  let rest ← from? text start
  if rest.head? = some bracket.close then
    return m.close start rest outer bracket.close (bracket.value host before true)
  else return { m with position := start, control := .enter }

/-- Goes on inside the innermost bracket behind an expression with a value. -/
def resume? (m : Machine) (v : Value) (outer : List Frame) (frame : Frame) : Option Machine := do
  let start ← skip? isBlank text m.position
  let rest ← from? text start
  match frame with
  | .key container => return m.close start rest outer ']' (Expr.lookupStep host container v)
  | .items bracket before =>
    if rest.head? = some ',' then
      return { m with
        position := start + 1
        frames := .items bracket (before ++ [v]) :: outer
        control := .items }
    else return m.close start rest outer bracket.close (bracket.value host (before ++ [v]) false)

/-- Goes on behind the whole expression, where the text has to end. -/
def finish? (m : Machine) : Except Failure Value → Option Machine
  | .error f => some { m with control := .finished (.error f) }
  | .ok v => do
    let stop ← skip? isBlank text m.position
    let result := if stop < byteLength text then .error (.raised stop .trailingInput) else .ok v
    return { m with position := stop, control := .finished result }

/-- One step of a machine. There is none after the last, and none where a slice fails. -/
def step? (m : Machine) : Option Machine :=
  match m.control, m.frames with
  | .enter, _ =>
    if maxNesting ≤ m.depth then
      some { m with control := .back (.error (.raised m.position .tooDeep)) }
    else some { m with depth := m.depth + 1, control := .primary }
  | .primary, _ => primary? ns text m
  | .steps v, _ => steps? text m v
  | .items, .items bracket before :: outer => items? host text m bracket before outer
  | .leave r, _ =>
    if m.depth = 0 then none else some { m with depth := m.depth - 1, control := .back r }
  | .back (.ok v), frame :: outer => resume? host text m v outer frame
  | .back (.error f), _ :: outer => some { m with frames := outer, control := .leave (.error f) }
  | .back r, [] => finish? text m r
  | .items, _ | .finished _, _ => none

/-- A machine comes to another state after some steps. -/
abbrev Reaches : Machine → Machine → Prop :=
  Relation.ReflTransGen fun m m' ↦ m.step? host ns text = some m'

end Step

/-! ### Steps where a rest of the text begins -/

section AtRest

variable {host : Host} {ns : Namespace} {text s : List Char} {m : Machine}

/-- Skipping white space leads from a rest of the text to a rest of the text. -/
theorem trimStart_suffix_text (h : s <:+ text) : trimStart s <:+ text := dropWhile_suffix_text h

theorem suffix_of_trimStart_eq {c : Char} {rest : List Char} (h : s <:+ text)
    (htrim : trimStart s = c :: rest) : c :: rest <:+ text :=
  htrim ▸ trimStart_suffix_text h

/-- White space is skipped from one rest of the text to another. -/
theorem skip?_isBlank (h : s <:+ text) :
    skip? isBlank text (offset text s) = some (offset text (trimStart s)) :=
  skip?_offset _ h

variable (h : s <:+ text) (hm : m.position = offset text s)

include h hm

/-- What an expression begins with is decided by the first character that is not white space. -/
theorem primary?_offset : primary? ns text m = match trimStart s with
    | [] => some (m.fail (offset text []) .endOfExpression)
    | c :: rest =>
      if isNameStart c then
        (scanName? text (offset text (c :: rest))).map (m.scanned (nameValue ns))
      else if c.isDigit || c == '-' then
        (scanNumber? text (offset text (c :: rest))).map (m.scanned .ok)
      else if isQuote c then
        (scanString? text c (offset text rest)).map (m.scanned .ok)
      else if c = '(' then some (m.push (offset text rest) (.items .round []) .items)
      else if c = '[' then some (m.push (offset text rest) (.items .square []) .items)
      else some (m.fail (offset text (c :: rest)) .noExpression) := by
  have htrim := trimStart_suffix_text h
  rw [primary?, hm, skip?_isBlank h]
  show (from? text (offset text (trimStart s))).bind _ = _
  rw [from?_offset htrim]
  generalize trimStart s = left at htrim
  cases left with
  | nil => rfl
  | cons c rest =>
    show (if isNameStart c then _ else _) = (if isNameStart c then _ else _)
    rw [← offset_cons htrim]

/-- What step comes next is decided by the first character that is not white space. -/
theorem steps?_offset (v : Value) : steps? text m v = match trimStart s with
    | '.' :: rest =>
      (scanName? text (offset text (trimStart rest))).map (m.scanned (Expr.memberStep v))
    | '[' :: rest => some (m.push (offset text rest) (.key v) .enter)
    | '(' :: rest => some (m.push (offset text rest) (.items (.call v) []) .items)
    | rest => some { m with position := offset text rest, control := .leave (.ok v) } := by
  have htrim := trimStart_suffix_text h
  rw [steps?, hm, skip?_isBlank h]
  show (from? text (offset text (trimStart s))).bind _ = _
  rw [from?_offset htrim]
  generalize trimStart s = left at htrim
  split
  · rename_i rest
    have hrest : offset text ('.' :: rest) + 1 = offset text rest := offset_cons htrim
    show (skip? isBlank text _).bind _ = _
    rw [hrest, skip?_isBlank ((List.suffix_cons _ _).trans htrim)]
    rfl
  · rw [← offset_cons htrim]
    rfl
  · rw [← offset_cons htrim]
    rfl
  · rename_i hdot hsquare hround
    show (match left with | '.' :: _ => _ | '[' :: _ => _ | '(' :: _ => _ | _ => _) = _
    split
    · exact absurd rfl (hdot _)
    · exact absurd rfl (hsquare _)
    · exact absurd rfl (hround _)
    · rfl

/-- A bracket around items is closed at once, or an item is due. -/
theorem items?_offset (bracket : Bracket) (before : List Value) (outer : List Frame) :
    items? host text m bracket before outer =
      if (trimStart s).head? = some bracket.close then
        some (m.close (offset text (trimStart s)) (trimStart s) outer bracket.close
          (bracket.value host before true))
      else some { m with position := offset text (trimStart s), control := .enter } := by
  rw [items?, hm, skip?_isBlank h]
  show (from? text (offset text (trimStart s))).bind _ = _
  rw [from?_offset (trimStart_suffix_text h)]
  rfl

/-- Behind a key its bracket has to be closed. -/
theorem resume?_key_offset (v : Value) (outer : List Frame) (container : Value) :
    resume? host text m v outer (.key container) =
      some (m.close (offset text (trimStart s)) (trimStart s) outer ']'
        (Expr.lookupStep host container v)) := by
  rw [resume?, hm, skip?_isBlank h]
  show (from? text (offset text (trimStart s))).bind _ = _
  rw [from?_offset (trimStart_suffix_text h)]
  rfl

/-- Behind an item comes a comma, or the bracket has to be closed. -/
theorem resume?_items_offset (v : Value) (outer : List Frame) (bracket : Bracket)
    (before : List Value) :
    resume? host text m v outer (.items bracket before) =
      if (trimStart s).head? = some ',' then
        some { m with
          position := offset text (trimStart s) + 1
          frames := .items bracket (before ++ [v]) :: outer
          control := .items }
      else some (m.close (offset text (trimStart s)) (trimStart s) outer bracket.close
        (bracket.value host (before ++ [v]) false)) := by
  rw [resume?, hm, skip?_isBlank h]
  show (from? text (offset text (trimStart s))).bind _ = _
  rw [from?_offset (trimStart_suffix_text h)]
  rfl

/-- Behind the whole expression the text has to end. -/
theorem finish?_offset (v : Value) : finish? text m (.ok v) = some { m with
    position := offset text (trimStart s)
    control := .finished (match trimStart s with
      | [] => .ok v
      | rest => .error (.raised (offset text rest) .trailingInput)) } := by
  rw [finish?, hm, skip?_isBlank h]
  have hend := offset_lt_iff (trimStart_suffix_text h)
  generalize trimStart s = left at hend
  show some { m with position := offset text left, control := .finished (if _ then _ else _) } = _
  cases left with
  | nil => rw [if_neg fun hlt ↦ hend.1 hlt rfl]
  | cons c rest => rw [if_pos (hend.2 (List.cons_ne_nil c rest))]

end AtRest

end Machine

end LineCompletion
