import LineCompletion.Expression.Basic
import LineCompletion.Text.Blank
import LineCompletion.Text.Identifier
import LineCompletion.Text.Literal
import LineCompletion.Text.Reader

/-!
# Reading expressions

Text is read into an expression without looking at any value. Where the text stops making sense,
reading is `Stuck`: the expressions completed so far are kept, because they are evaluated before the
problem is noticed, and their failure comes first. So reading and evaluating are two passes, and yet
give the errors that a single pass over the text gives.

**How it is built.** A reader for one level of brackets is built from a reader for the level inside
it (`ExprReader.ofDepth`), and every reader makes progress: what is left is shorter than what was
given. Both facts together make reading end. The depth is part of the language and not a device of
the definition: brackets that are nested deeper than `maxNesting` are refused. Progress is a field
of a reader, so a reader that makes none cannot be built, and the lemmas on lengths in between
(`length_of_readItems`, `length_of_readSteps`, `length_of_readPrimary`) are what the field needs.

The four kinds of steps are in this order: tokens, of which numbers take a point only before a
digit; items between commas, with a note of whether a comma came last, since that makes a tuple of
one item; a primary expression, by its first character; and what follows it, members, subscripts and
calls, as many as there are. A whole text is one expression with white space around it (`readExpr`).
-/

namespace LineCompletion

open Text

/-! ### Results -/

/-- Where the text stops making sense. -/
structure Stuck where
  /-- The complete expressions before that place, in the order in which they are evaluated. -/
  done : List Expr
  /-- What is wrong there. -/
  problem : SyntaxProblem
  /-- The text from that place on. -/
  rest : List Char

/-- The same place, after one more complete expression. -/
def Stuck.after (stuck : Stuck) (e : Expr) : Stuck := { stuck with done := e :: stuck.done }

/-- What a reader gives: something read and the text after it, or the place where it is stuck. -/
abbrev Read (α : Type) := Except Stuck (α × List Char)

/-- A reader of expressions. -/
abbrev ExprReader := Reader Stuck Expr

/-! ### Tokens -/

/-- Reads a name after a dot. -/
def readIdentifier (s : List Char) : Read String :=
  let name := s.takeWhile isNameChar
  let rest := s.dropWhile isNameChar
  match name with
  | [] => .error ⟨[], .noIdentifier, rest⟩
  | c :: _ => if c.isDigit then .error ⟨[], .noIdentifier, rest⟩ else .ok (String.ofList name, rest)

/-- Reads a name where an expression is due. Three names stand for constants. -/
def readName (s : List Char) : Expr × List Char :=
  let e := match String.ofList (s.takeWhile isNameChar) with
    | "None" => .null
    | "True" => .bool true
    | "False" => .bool false
    | name => .name name
  (e, s.dropWhile isNameChar)

/-- Whether a character can stand inside a number: an ASCII digit, or an underscore between
digits. -/
def isNumberChar (c : Char) : Bool := c.isDigit || c == '_'

/-- Reads a number after its sign. A point belongs to it only before a digit. -/
def readNumber (negative : Bool) (s : List Char) : Read Expr :=
  let digitsOf (t : List Char) := t.filter Char.isDigit
  let whole := s.takeWhile isNumberChar
  let integer (rest : List Char) : Read Expr :=
    match Number.integer negative (digitsOf whole) with
    | .ok i => .ok (.int i, rest)
    | .error cause => .error ⟨[], .number cause, rest⟩
  match s.dropWhile isNumberChar with
  | '.' :: after =>
    if after.head?.any Char.isDigit then
      let fraction := digitsOf (after.takeWhile isNumberChar)
      let x := Binary64.ofDecimal negative (Number.ofDigits (digitsOf whole ++ fraction))
        (-fraction.length)
      .ok (.float x, after.dropWhile isNumberChar)
    else integer ('.' :: after)
  | rest => integer rest

/-- Reads a string after its opening quote. It may span lines. -/
def readString (quote : Char) (s : List Char) : Read Expr :=
  match splitBody? quote true s with
  | some (body, rest) => .ok (.str quote body, rest)
  | none => .error ⟨[], .unterminatedString, []⟩

/-! ### Brackets -/

/-- Reads items with commas between them up to a closing bracket, and whether no item came after the
last comma. -/
def readItems (inner : ExprReader) (close : Char) (s : List Char) : Read (List Expr × Bool) :=
  if (trimStart s).head? = some close then .ok (([], true), (trimStart s).tail)
  else
    match _h : inner.run (trimStart s) with
    | .error stuck => .error stuck
    | .ok (e, rest) =>
      match _hr : trimStart rest with
      | ',' :: more =>
        match readItems inner close more with
        | .error stuck => .error (stuck.after e)
        | .ok ((items, ended), rest) => .ok ((e :: items, ended), rest)
      | left =>
        if left.head? = some close then .ok (([e], false), left.tail)
        else .error ⟨[e], .expected close, left⟩
termination_by s.length
decreasing_by
  have := inner.progress _h
  have := length_trimStart_le s
  have le := length_trimStart_le rest
  rw [_hr, List.length_cons] at le
  omega

/-- Reads a name, a literal or a bracketed expression. -/
def readPrimary (inner : ExprReader) (s : List Char) : Read Expr :=
  match trimStart s with
  | [] => .error ⟨[], .endOfExpression, []⟩
  | c :: rest =>
    if isNameStart c then .ok (readName (c :: rest))
    else if c.isDigit then readNumber false (c :: rest)
    else if c = '-' then readNumber true rest
    else if isQuote c then readString c rest
    else if c = '(' then
      -- Only an item without a comma after it is grouped; with one it is a tuple.
      match readItems inner ')' rest with
      | .error stuck => .error stuck
      | .ok (([e], false), rest) => .ok (.group e, rest)
      | .ok ((items, _), rest) => .ok (.tuple items, rest)
    else if c = '[' then
      match readItems inner ']' rest with
      | .error stuck => .error stuck
      | .ok ((items, _), rest) => .ok (.list items, rest)
    else .error ⟨[], .noExpression, c :: rest⟩

/-! ### Members, subscripts and calls -/

theorem length_of_readIdentifier {s rest : List Char} {name : String}
    (h : readIdentifier s = .ok (name, rest)) : rest.length ≤ s.length := by
  unfold readIdentifier at h
  simp only at h
  split at h
  · simp at h
  · split at h
    · simp at h
    · obtain ⟨rfl, rfl⟩ := Prod.mk.inj (Except.ok.inj h)
      exact (List.dropWhile_suffix _).length_le

theorem length_of_readItems {inner : ExprReader} {close : Char} {s rest : List Char}
    {items : List Expr × Bool} (h : readItems inner close s = .ok (items, rest)) :
    rest.length < s.length := by
  fun_induction readItems inner close s generalizing items rest with
  | case1 s head =>
    obtain ⟨rfl, rfl⟩ := Prod.mk.inj (Except.ok.inj h)
    have le := length_trimStart_le s
    cases ht : trimStart s with
    | nil => simp [ht] at head
    | cons c u =>
      simp only [ht, List.length_cons, List.tail_cons] at *
      omega
  | case2 => simp at h
  | case3 => simp at h
  | case4 s _ e left run more trimmed items' ended rest' read ih =>
    obtain ⟨rfl, rfl⟩ := Prod.mk.inj (Except.ok.inj h)
    have := ih read
    have := inner.progress run
    have := length_trimStart_le s
    have le := length_trimStart_le left
    rw [trimmed, List.length_cons] at le
    omega
  | case5 s _ e left run =>
    obtain ⟨rfl, rfl⟩ := Prod.mk.inj (Except.ok.inj h)
    have := inner.progress run
    have := length_trimStart_le s
    have := length_trimStart_le left
    simp only [List.length_tail]
    omega
  | case6 => simp at h

/-- Reads what follows an expression: members, subscripts and calls, as many as there are. -/
def readSteps (inner : ExprReader) (e : Expr) (s : List Char) : Read Expr :=
  match _hs : trimStart s with
  | '.' :: afterDot =>
    match _h : readIdentifier (trimStart afterDot) with
    | .error stuck => .error (stuck.after e)
    | .ok (name, rest) => readSteps inner (.member e name) rest
  | '[' :: rest =>
    match _h : inner.run rest with
    | .error stuck => .error (stuck.after e)
    | .ok (key, rest) =>
      match _hr : trimStart rest with
      | ']' :: more => readSteps inner (.subscript e key) more
      | left => .error ⟨[e, key], .expected ']', left⟩
  | '(' :: rest =>
    match _h : readItems inner ')' rest with
    | .error stuck => .error (stuck.after e)
    | .ok ((args, _), rest) => readSteps inner (.call e args) rest
  | left => .ok (e, left)
termination_by s.length
decreasing_by
  · have := length_of_readIdentifier _h
    have := length_trimStart_le s
    have := length_trimStart_le afterDot
    simp only [_hs, List.length_cons] at *
    omega
  · have := inner.progress _h
    have := length_trimStart_le s
    have := length_trimStart_le rest
    simp only [_hs, _hr, List.length_cons] at *
    omega
  · have := length_of_readItems _h
    have := length_trimStart_le s
    simp only [_hs, List.length_cons] at *
    omega

theorem length_of_readSteps {inner : ExprReader} {e e' : Expr} {s rest : List Char}
    (h : readSteps inner e s = .ok (e', rest)) : rest.length ≤ s.length := by
  fun_induction readSteps inner e s generalizing e' rest with
  | case1 => simp at h
  | case2 e s afterDot trimmed name left read ih =>
    have := ih h
    have := length_of_readIdentifier read
    have := length_trimStart_le afterDot
    have le := length_trimStart_le s
    rw [trimmed, List.length_cons] at le
    omega
  | case3 => simp at h
  | case4 e s inside trimmed key left run more closing ih =>
    have := ih h
    have := inner.progress run
    have le := length_trimStart_le s
    rw [trimmed, List.length_cons] at le
    have le := length_trimStart_le left
    rw [closing, List.length_cons] at le
    omega
  | case5 => simp at h
  | case6 => simp at h
  | case7 e s inside trimmed args ended left read ih =>
    have := ih h
    have := length_of_readItems read
    have le := length_trimStart_le s
    rw [trimmed, List.length_cons] at le
    omega
  | case8 e s =>
    obtain ⟨rfl, rfl⟩ := Prod.mk.inj (Except.ok.inj h)
    exact length_trimStart_le s

/-! ### Whole expressions -/

theorem length_of_readNumber {negative : Bool} {s rest : List Char} {e : Expr}
    (h : readNumber negative s = .ok (e, rest)) :
    rest.length ≤ (s.dropWhile isNumberChar).length := by
  have integer_rest {digits left : List Char}
      (h : (match Number.integer negative digits with
        | .ok i => .ok (.int i, left)
        | .error cause => .error ⟨[], .number cause, left⟩ : Read Expr) = .ok (e, rest)) :
      rest = left := by
    split at h
    · exact (Prod.mk.inj (Except.ok.inj h)).2.symm
    · simp at h
  unfold readNumber at h
  simp only at h
  split at h
  · rename_i after eq
    split at h
    · obtain ⟨-, rfl⟩ := Prod.mk.inj (Except.ok.inj h)
      have := (List.dropWhile_suffix isNumberChar (l := after)).length_le
      rw [eq, List.length_cons]
      omega
    · exact Nat.le_of_eq (congrArg List.length ((integer_rest h).trans eq.symm))
  · exact Nat.le_of_eq (congrArg List.length (integer_rest h))

theorem length_of_readPrimary {inner : ExprReader} {s rest : List Char} {e : Expr}
    (h : readPrimary inner s = .ok (e, rest)) : rest.length < s.length := by
  have le := length_trimStart_le s
  have drop_le (p : Char → Bool) (c : Char) (l : List Char) (hc : p c = true) :
      ((c :: l).dropWhile p).length ≤ l.length := by
    rw [List.dropWhile_cons_of_pos hc]
    exact (List.dropWhile_suffix p).length_le
  unfold readPrimary at h
  split at h
  · simp at h
  · rename_i c left trimmed
    rw [trimmed, List.length_cons] at le
    split at h
    · rename_i start
      obtain ⟨-, rfl⟩ := Prod.mk.inj (Except.ok.inj h)
      have := drop_le isNameChar c left (isNameChar_of_isNameStart start)
      omega
    · split at h
      · rename_i digit
        have := length_of_readNumber h
        have := drop_le isNumberChar c left (by simp [isNumberChar, digit])
        omega
      · split at h
        · have := length_of_readNumber h
          have := (List.dropWhile_suffix isNumberChar (l := left)).length_le
          omega
        · split at h
          · unfold readString at h
            split at h
            · rename_i body after split_
              obtain ⟨-, rfl⟩ := Prod.mk.inj (Except.ok.inj h)
              have := length_lt_of_splitBody? split_
              omega
            · simp at h
          · split at h
            · split at h
              · simp at h
              · rename_i read
                obtain ⟨-, rfl⟩ := Prod.mk.inj (Except.ok.inj h)
                have := length_of_readItems read
                omega
              · rename_i read
                obtain ⟨-, rfl⟩ := Prod.mk.inj (Except.ok.inj h)
                have := length_of_readItems read
                omega
            · split at h
              · split at h
                · simp at h
                · rename_i read
                  obtain ⟨-, rfl⟩ := Prod.mk.inj (Except.ok.inj h)
                  have := length_of_readItems read
                  omega
              · simp at h

/-- The reader that allows brackets of the given depth around what it reads. -/
def ExprReader.ofDepth : Nat → ExprReader
  | 0 =>
    { run := fun s ↦ .error ⟨[], .tooDeep, s⟩
      progress := by simp }
  | depth + 1 =>
    let inner := ExprReader.ofDepth depth
    { run := fun s ↦
        match readPrimary inner s with
        | .error stuck => .error stuck
        | .ok (e, rest) => readSteps inner e rest
      progress := by
        intro s e rest h
        split at h
        · simp at h
        · rename_i primary left read
          have := length_of_readPrimary read
          have := length_of_readSteps h
          omega }

/-- One level of brackets: a primary expression, and what follows it. -/
theorem ExprReader.run_ofDepth_succ (depth : Nat) (s : List Char) :
    (ExprReader.ofDepth (depth + 1)).run s =
      match readPrimary (ExprReader.ofDepth depth) s with
      | .error stuck => .error stuck
      | .ok (e, rest) => readSteps (ExprReader.ofDepth depth) e rest := by
  rw [ExprReader.ofDepth]

/-- Reads a whole text as one expression. -/
def readExpr (s : List Char) : Except Stuck Expr :=
  match (ExprReader.ofDepth maxNesting).run s with
  | .error stuck => .error stuck
  | .ok (e, rest) =>
    match trimStart rest with
    | [] => .ok e
    | left => .error ⟨[e], .trailingInput, left⟩

end LineCompletion
