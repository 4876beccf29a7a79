/-!
# String literals

A string literal stands between two equal quotes, single or double. A backslash takes the character
after it along, so an escaped quote does not end the literal. `splitBody?` finds where the text of a
literal ends; `unescape` says what that text stands for.
-/

namespace LineCompletion.Text

/-- Whether a character opens a string literal. -/
def isQuote (c : Char) : Bool := c == '\'' || c == '"'

theorem isQuote_iff {c : Char} : isQuote c = true ↔ c = '\'' ∨ c = '"' := by
  rw [isQuote, Bool.or_eq_true, beq_iff_eq, beq_iff_eq]

/-- The text up to the quote that ends a literal, and what comes after that quote. A literal that
may not span lines is not ended by a quote on a later one. -/
def splitBody? (quote : Char) (spansLines : Bool) : List Char → Option (List Char × List Char)
  | [] => none
  | '\\' :: escaped :: rest =>
    if escaped = '\n' && !spansLines then none
    else (splitBody? quote spansLines rest).map fun (body, after) ↦ ('\\' :: escaped :: body, after)
  | c :: rest =>
    if c = quote then some ([], rest)
    else if c = '\n' && !spansLines then none
    else (splitBody? quote spansLines rest).map fun (body, after) ↦ (c :: body, after)

/-- A character that takes none along is no backslash, unless it is the last one. -/
theorem ne_backslash_of_unpaired {c : Char} {rest : List Char}
    (hpair : ∀ d s, c = '\\' → rest = d :: s → False) (hnil : rest = [] → c ≠ '\\') :
    c ≠ '\\' := by
  cases rest with
  | nil => exact hnil rfl
  | cons d s => exact fun hc ↦ hpair d s hc rfl

/-- A literal is its body, its closing quote and what follows. -/
theorem eq_append_of_splitBody? {quote : Char} {spansLines : Bool} {s body after : List Char}
    (h : splitBody? quote spansLines s = some (body, after)) : s = body ++ quote :: after := by
  fun_induction splitBody? quote spansLines s generalizing body after with
  | case1 => simp at h
  | case2 => simp at h
  | case3 escaped rest _ ih =>
    obtain ⟨⟨b, a⟩, hba, heq⟩ := Option.map_eq_some_iff.1 h
    obtain ⟨rfl, rfl⟩ := Prod.mk.inj heq
    simp [ih hba]
  | case4 => simp_all
  | case5 => simp at h
  | case6 c rest _ _ _ ih =>
    obtain ⟨⟨b, a⟩, hba, heq⟩ := Option.map_eq_some_iff.1 h
    obtain ⟨rfl, rfl⟩ := Prod.mk.inj heq
    simp [ih hba]

theorem length_lt_of_splitBody? {quote : Char} {spansLines : Bool} {s body after : List Char}
    (h : splitBody? quote spansLines s = some (body, after)) : after.length < s.length := by
  rw [eq_append_of_splitBody? h]
  simp only [List.length_append, List.length_cons]
  omega

/-- What the body of a literal stands for. A backslash before a character that needs no escape
stands for itself. -/
def unescape : List Char → List Char
  | '\\' :: c :: rest =>
    match c with
    | 'n' => '\n' :: unescape rest
    | 't' => '\t' :: unescape rest
    | 'r' => '\r' :: unescape rest
    | '0' => '\x00' :: unescape rest
    | '\\' | '\'' | '"' => c :: unescape rest
    | _ => '\\' :: c :: unescape rest
  | c :: rest => c :: unescape rest
  | [] => []

end LineCompletion.Text
