import LineCompletion.Proofs.Expression.Meaning
import LineCompletion.Proofs.Text.Slices

/-!
# Names and literals in a text in one piece

Names, numbers and strings are read once more, this time by slices of a text that stays in one
piece: a scan begins at a byte offset, ends at one, and fails if any slice on the way does
(`scanName?`, `scanNumber?`, `scanString?`). Literals come with their values, as they are when the
text is evaluated while it is read.

Where a rest of the text begins, no slice fails, and a scan agrees with the reader of that rest on
what is read, on where that ends, and on what is wrong otherwise (`Scans`).

**The relation.** A scan and a reader give different things: a value and an offset the one, an
expression and a rest of the text the other. `Scans` compares both outcomes at once. If something is
read, the scan has something related to it and ends at the offset of the rest; if the reader is
stuck, the scan reports the same problem at the same place. It also says that a token hands over no
complete expression and never finds the nesting too deep. These are the two things that hold of
tokens and not of expressions.

**Numbers.** The reader cuts the digits off piece by piece: sign, whole part, point, fraction. The
scan finds the end of the number first, takes everything up to there, throws the underscores away
and then looks for the sign and the point again. That both come to one number is the longest part
here, and it goes by the pieces: `numberStop?_offset` says where the end is, `scanNumber?_eq` that
the literal is what stands before it, and `numberOf_int` and `numberOf_float` what the literal is
worth.

**Strings.** What a string stands for is put together on the way, escape by escape, where the reader
takes the body first and unescapes it afterwards (`scanBody?_offset`). A backslash at the very end
of the text is the one place at which the two look at different characters, and both find there that
the string is not closed.
-/

namespace LineCompletion

open Text

/-- What a scan gives: what was read, or what is wrong, and the byte offset behind it. -/
abbrev Scanned (α : Type) := Except SyntaxProblem α × Nat

/-- A scan of a text agrees with a reader of the rest at which it begins, and what the reader reads
and what is scanned are related. -/
def Scans {α β : Type} (text : List Char) (related : α → β → Prop)
    (scan : Option (Scanned β)) : Read α → Prop
  | .ok (a, rest) =>
    rest <:+ text ∧ ∃ b, related a b ∧ scan = some (.ok b, offset text rest)
  | .error stuck =>
    stuck.rest <:+ text ∧ stuck.done = [] ∧ stuck.problem ≠ .tooDeep ∧
      scan = some (.error stuck.problem, offset text stuck.rest)

/-! ### Names -/

/-- Scans a name. -/
def scanName? (text : List Char) (start : Nat) : Option (Scanned String) := do
  let stop ← skip? isNameChar text start
  let name ← between? text start stop
  return (if name.head?.all Char.isDigit then .error .noIdentifier else .ok (String.ofList name),
    stop)

section Slicing

variable {text s : List Char} {p : Char → Bool}

theorem dropWhile_suffix_text (h : s <:+ text) : s.dropWhile p <:+ text :=
  (List.dropWhile_suffix p).trans h

/-- The characters that were skipped are what stands between the two offsets. -/
theorem between?_takeWhile (h : s <:+ text) :
    between? text (offset text s) (offset text (s.dropWhile p)) = some (s.takeWhile p) := by
  have hs : s.takeWhile p ++ s.dropWhile p = s := List.takeWhile_append_dropWhile
  have hbetween := between?_offset (hs.symm ▸ h : s.takeWhile p ++ s.dropWhile p <:+ text)
  rwa [hs] at hbetween

end Slicing

/-- **A name is scanned as it is read.** -/
theorem scans_readIdentifier {text s : List Char} (h : s <:+ text) :
    Scans text Eq (scanName? text (offset text s)) (readIdentifier s) := by
  have hrest : s.dropWhile isNameChar <:+ text := dropWhile_suffix_text h
  have hscan : scanName? text (offset text s) =
      some (if (s.takeWhile isNameChar).head?.all Char.isDigit then .error .noIdentifier
        else .ok (String.ofList (s.takeWhile isNameChar)),
        offset text (s.dropWhile isNameChar)) := by
    rw [scanName?, skip?_offset _ h]
    show (between? text _ _).bind _ = _
    rw [between?_takeWhile h]
    rfl
  rw [hscan, readIdentifier]
  cases hname : s.takeWhile isNameChar with
  | nil => exact ⟨hrest, rfl, by simp, rfl⟩
  | cons c name =>
    show Scans text Eq _ (if c.isDigit then _ else _)
    by_cases hdigit : c.isDigit = true
    · rw [if_pos hdigit]
      exact ⟨hrest, rfl, by simp, by simp [hdigit]⟩
    · rw [if_neg hdigit]
      exact ⟨hrest, _, rfl, by simp [hdigit]⟩

/-! ### Numbers -/

/-- The offset behind the digits of a number, and whether there is a point among them. A point
belongs to it only before a digit. -/
def numberStop? (text : List Char) (start : Nat) : Option (Bool × Nat) := do
  let stop ← skip? isNumberChar text start
  match ← from? text stop with
  | '.' :: _ =>
    let after ← from? text (stop + 1)
    if after.head?.any Char.isDigit then
      let stop ← skip? isNumberChar text (stop + 1)
      return (true, stop)
    else return (false, stop)
  | _ => return (false, stop)

/-- The number that its digits stand for, with a point among them or without. -/
def unsignedNumber (isFloat negative : Bool) (digits : List Char) : Except SyntaxProblem Value :=
  if isFloat then
    let fraction := (digits.dropWhile (· != '.')).tail
    .ok (.float (Binary64.ofDecimal negative
      (Number.ofDigits (digits.takeWhile (· != '.') ++ fraction)) (-fraction.length)))
  else
    match Number.integer negative digits with
    | .ok i => .ok (.int i)
    | .error cause => .error (.number cause)

/-- The number that a literal stands for, underscores left out. -/
def numberOf (isFloat : Bool) (literal : List Char) : Except SyntaxProblem Value :=
  match literal.filter (· != '_') with
  | '-' :: digits => unsignedNumber isFloat true digits
  | digits => unsignedNumber isFloat false digits

/-- Scans a number with its sign. -/
def scanNumber? (text : List Char) (start : Nat) : Option (Scanned Value) := do
  let rest ← from? text start
  let (isFloat, stop) ← numberStop? text (if rest.head? = some '-' then start + 1 else start)
  let literal ← between? text start stop
  return (numberOf isFloat literal, stop)

section Number

variable {text : List Char} {negative isFloat : Bool}

/-- Without underscores, the characters of a number are its digits. -/
theorem filter_eq_digitsOf {s : List Char} (hs : ∀ c ∈ s, isNumberChar c = true) :
    s.filter (· != '_') = digitsOf s := by
  refine List.filter_congr fun c hc ↦ ?_
  have hchar := hs c hc
  rw [isNumberChar, Bool.or_eq_true, beq_iff_eq] at hchar
  rcases hchar with hdigit | rfl
  · rw [hdigit, bne_iff_ne]
    rintro rfl
    exact absurd hdigit (by decide)
  · rfl

/-- The sign of a number is told from its digits. -/
theorem numberOf_signed {s : List Char} (hs : (s.filter (· != '_')).head? ≠ some '-') :
    numberOf isFloat (signed negative s) =
      unsignedNumber isFloat negative (s.filter (· != '_')) := by
  cases negative with
  | true =>
    show numberOf isFloat ('-' :: s) = _
    rw [numberOf, List.filter_cons_of_pos (by decide)]
    rfl
  | false =>
    show numberOf isFloat s = _
    rw [numberOf]
    split
    · rename_i hhead
      exact absurd (hhead ▸ rfl) hs
    · rfl

/-- No digit is a sign. -/
theorem ne_minus_of_mem_digitsOf {s : List Char} {c : Char} (h : c ∈ digitsOf s) : c ≠ '-' := by
  rintro rfl
  exact absurd (List.mem_filter.1 h).2 (by decide)

/-- The literal of an integer is worth what its digits spell. -/
theorem numberOf_int {s : List Char} (hs : ∀ c ∈ s, isNumberChar c = true) :
    numberOf false (signed negative s) = match Number.integer negative (digitsOf s) with
      | .ok i => .ok (.int i)
      | .error cause => .error (.number cause) := by
  have hdigits := filter_eq_digitsOf hs
  rw [numberOf_signed, hdigits]
  · rfl
  · rw [hdigits]
    exact fun hhead ↦ ne_minus_of_mem_digitsOf (List.mem_of_mem_head? hhead) rfl

/-- The literal of a floating-point number is worth what its digits spell on both sides of the
point. -/
theorem numberOf_float {s t : List Char} (hs : ∀ c ∈ s, isNumberChar c = true)
    (ht : ∀ c ∈ t, isNumberChar c = true) :
    numberOf true (signed negative (s ++ '.' :: t)) =
      .ok (.float (Binary64.ofDecimal negative (Number.ofDigits (digitsOf s ++ digitsOf t))
        (-(digitsOf t).length))) := by
  have hdigits : (s ++ '.' :: t).filter (· != '_') = digitsOf s ++ '.' :: digitsOf t := by
    rw [List.filter_append, List.filter_cons_of_pos (by decide), filter_eq_digitsOf hs,
      filter_eq_digitsOf ht]
  have hwhole : ∀ c ∈ digitsOf s, (c != '.') = true := by
    intro c hc
    rw [bne_iff_ne]
    rintro rfl
    exact absurd (List.mem_filter.1 hc).2 (by decide)
  have hpoint : ∀ c ∈ ('.' :: digitsOf t).head?, (c != '.') = false := fun c hc ↦
    Option.some.inj hc ▸ rfl
  rw [numberOf_signed, hdigits, unsignedNumber, if_pos rfl, takeWhile_append_of_stop hwhole hpoint,
    dropWhile_append_of_stop hwhole hpoint]
  · rfl
  · rw [hdigits]
    cases hs : digitsOf s with
    | nil => simp
    | cons c rest => simpa using ne_minus_of_mem_digitsOf (hs ▸ List.mem_cons_self)

/-- A number ends behind its digits, or behind those after a point that a digit follows. -/
theorem numberStop?_offset {s : List Char} (h : s <:+ text) :
    numberStop? text (offset text s) = match s.dropWhile isNumberChar with
      | '.' :: after =>
        if after.head?.any Char.isDigit then
          some (true, offset text (after.dropWhile isNumberChar))
        else some (false, offset text ('.' :: after))
      | rest => some (false, offset text rest) := by
  have hrest : s.dropWhile isNumberChar <:+ text := dropWhile_suffix_text h
  rw [numberStop?, skip?_offset _ h]
  show (from? text _).bind _ = _
  rw [from?_offset hrest]
  generalize s.dropWhile isNumberChar = left at hrest
  split
  · rename_i after
    have hafter : after <:+ text := (List.suffix_cons _ _).trans hrest
    have hbehind : offset text ('.' :: after) + 1 = offset text after := offset_cons hrest
    show (from? text _).bind _ = _
    rw [hbehind, from?_offset hafter]
    show (if _ then (skip? isNumberChar text _).bind _ else _) = _
    rw [skip?_offset _ hafter]
    rfl
  · rename_i hpoint
    obtain - | ⟨c, after⟩ := left
    · rfl
    · show (match c :: after with | '.' :: _ => _ | _ => _ : Option (Bool × Nat)) = _
      split
      · rename_i heq
        exact absurd heq (hpoint _)
      · rfl

/-- The literal of a number is what stands between its ends. -/
theorem scanNumber?_eq {s literal rest : List Char} (hs : s = literal ++ rest)
    (h : signed negative s <:+ text) (hsign : negative = false → s.head? ≠ some '-')
    (hstop : numberStop? text (offset text s) = some (isFloat, offset text rest)) :
    scanNumber? text (offset text (signed negative s)) =
      some (numberOf isFloat (signed negative literal), offset text rest) := by
  have hstart : (if (signed negative s).head? = some '-' then offset text (signed negative s) + 1
      else offset text (signed negative s)) = offset text s := by
    cases negative with
    | true => exact (if_pos rfl).trans (offset_cons h)
    | false => exact if_neg (hsign rfl)
  have hliteral : between? text (offset text (signed negative s)) (offset text rest) =
      some (signed negative literal) := by
    rw [hs, ← signed_append] at h ⊢
    exact between?_offset h
  rw [scanNumber?, from?_offset h]
  show (numberStop? text (if _ then _ else _)).bind _ = _
  rw [hstart, hstop]
  show (between? text _ _).bind _ = _
  rw [hliteral]
  rfl

/-- **A number is scanned as it is read**, with its sign. -/
theorem scans_readNumber {s : List Char} (h : signed negative s <:+ text)
    (hsign : negative = false → s.head? ≠ some '-') (host : Host) (ns : Namespace) :
    Scans text (fun e v ↦ e.eval host ns = .ok v)
      (scanNumber? text (offset text (signed negative s))) (readNumber negative s) := by
  have hs : s <:+ text := by
    cases negative with
    | true => exact (List.suffix_cons _ _).trans h
    | false => exact h
  have happend : s.takeWhile isNumberChar ++ s.dropWhile isNumberChar = s :=
    List.takeWhile_append_dropWhile
  have hwhole : ∀ c ∈ s.takeWhile isNumberChar, isNumberChar c = true := fun c hc ↦
    List.mem_takeWhile_imp hc
  have hstop := numberStop?_offset hs
  have hinteger {rest : List Char} (hrest : s.dropWhile isNumberChar = rest)
      (hstop : numberStop? text (offset text s) = some (false, offset text rest)) :
      Scans text (fun e v ↦ e.eval host ns = .ok v)
        (scanNumber? text (offset text (signed negative s)))
        (match Number.integer negative (digitsOf (s.takeWhile isNumberChar)) with
          | .ok i => .ok (.int i, rest)
          | .error cause => .error ⟨[], .number cause, rest⟩ : Read Expr) := by
    subst hrest
    rw [scanNumber?_eq happend.symm h hsign hstop, numberOf_int hwhole]
    cases Number.integer negative (digitsOf (s.takeWhile isNumberChar)) with
    | ok i => exact ⟨dropWhile_suffix_text hs, _, rfl, rfl⟩
    | error cause => exact ⟨dropWhile_suffix_text hs, rfl, by simp, rfl⟩
  rw [readNumber]
  dsimp only
  split
  · rename_i after hafter
    rw [hafter] at hstop
    split
    · rename_i hdigit
      have hsuffix : after <:+ text :=
        (List.suffix_cons _ _).trans (hafter ▸ dropWhile_suffix_text hs)
      have hfraction : ∀ c ∈ after.takeWhile isNumberChar, isNumberChar c = true := fun c hc ↦
        List.mem_takeWhile_imp hc
      have hliteral : s = (s.takeWhile isNumberChar ++ '.' :: after.takeWhile isNumberChar) ++
          after.dropWhile isNumberChar := by
        rw [List.append_assoc, List.cons_append, List.takeWhile_append_dropWhile, ← hafter, happend]
      rw [scanNumber?_eq hliteral h hsign (hstop.trans (if_pos hdigit)),
        numberOf_float hwhole hfraction]
      exact ⟨dropWhile_suffix_text hsuffix, _, rfl, rfl⟩
    · rename_i hdigit
      exact hinteger hafter (hstop.trans (if_neg hdigit))
  · rename_i rest hpoint
    refine hinteger rfl (hstop.trans ?_)
    split
    · rename_i after hafter
      exact absurd hafter (hpoint after)
    · rfl

theorem scans_readNumber_of_isDigit {c : Char} {s : List Char} (h : c :: s <:+ text)
    (hc : c.isDigit = true) (host : Host) (ns : Namespace) :
    Scans text (fun e v ↦ e.eval host ns = .ok v) (scanNumber? text (offset text (c :: s)))
      (readNumber false (c :: s)) := by
  have hs : signed false (c :: s) <:+ text := h
  refine scans_readNumber hs (fun _ hhead ↦ ?_) host ns
  obtain rfl := Option.some.inj hhead
  exact absurd hc (by decide)

theorem scans_readNumber_of_minus {s : List Char} (h : '-' :: s <:+ text) (host : Host)
    (ns : Namespace) :
    Scans text (fun e v ↦ e.eval host ns = .ok v) (scanNumber? text (offset text ('-' :: s)))
      (readNumber true s) := by
  have hs : signed true s <:+ text := h
  exact scans_readNumber hs (fun hpositive ↦ absurd hpositive (by simp)) host ns

end Number

/-! ### Strings -/

/-- Scans a string after its opening quote, behind what was read of it. -/
def scanBody? (text : List Char) (quote : Char) (read : List Char) (start : Nat) :
    Option (Scanned (List Char)) :=
  match _h : from? text start with
  | none => none
  | some [] => some (.error .unterminatedString, start)
  | some (c :: _) =>
    if c = quote then some (.ok read, start + c.utf8Size)
    else if c = '\\' then
      match _hd : from? text (start + c.utf8Size) with
      | none => none
      | some [] => some (.error .unterminatedString, start + c.utf8Size)
      | some (d :: _) =>
        scanBody? text quote (read ++ unescape ['\\', d]) (start + c.utf8Size + d.utf8Size)
    else scanBody? text quote (read ++ [c]) (start + c.utf8Size)
termination_by byteLength text - start
decreasing_by
  all_goals
    obtain ⟨hrest, rfl⟩ := from?_eq_some_iff.1 _h
    have := (offset_lt_iff hrest).2 (List.cons_ne_nil _ _)
    have := c.utf8Size_pos
    omega

/-- Scans a string after its opening quote. -/
def scanString? (text : List Char) (quote : Char) (start : Nat) : Option (Scanned Value) := do
  let (read, stop) ← scanBody? text quote [] start
  return (read.map fun s ↦ .str (String.ofList s), stop)

theorem unescape_cons_of_ne {c : Char} (hc : c ≠ '\\') (s : List Char) :
    unescape (c :: s) = c :: unescape s := by
  rw [unescape]
  exact fun _ _ hslash _ ↦ hc hslash

/-- What a backslash takes along is unescaped on its own. -/
theorem unescape_backslash (c : Char) (s : List Char) :
    unescape ('\\' :: c :: s) = unescape ['\\', c] ++ unescape s := by
  have hpair := escaped_unescape ['\\', c]
  generalize unescape ['\\', c] = t at hpair
  cases hpair with
  | plain hc _ => exact absurd rfl hc
  | escape hc hnil =>
    cases hnil
    exact (Escaped.escape hc (escaped_unescape s)).eq
  | kept hc hnil =>
    cases hnil
    exact (Escaped.kept hc (escaped_unescape s)).eq

section Body

variable {text s : List Char} {quote : Char} (read : List Char)

theorem scanBody?_nil : scanBody? text quote read (offset text []) =
    some (.error .unterminatedString, offset text []) := by
  rw [scanBody?]
  split <;> simp_all [from?_offset List.nil_suffix]

/-- A character of a string is the closing quote, or is scanned over. -/
theorem scanBody?_cons {c : Char} (h : c :: s <:+ text) (hslash : c ≠ '\\') :
    scanBody? text quote read (offset text (c :: s)) =
      if c = quote then some (.ok read, offset text s)
      else scanBody? text quote (read ++ [c]) (offset text s) := by
  rw [scanBody?]
  split <;> rename_i hfrom <;> rw [from?_offset h] at hfrom
  · exact absurd hfrom (by simp)
  · exact absurd hfrom (by simp)
  · obtain ⟨rfl, rfl⟩ := List.cons.inj (Option.some.inj hfrom)
    rw [offset_cons h, if_neg hslash]

/-- An escape in a string is scanned over, and what it stands for is kept. -/
theorem scanBody?_backslash {c : Char} (h : '\\' :: c :: s <:+ text) (hquote : '\\' ≠ quote) :
    scanBody? text quote read (offset text ('\\' :: c :: s)) =
      scanBody? text quote (read ++ unescape ['\\', c]) (offset text s) := by
  have hnext : c :: s <:+ text := (List.suffix_cons _ _).trans h
  rw [scanBody?]
  split <;> rename_i hfrom <;> rw [from?_offset h] at hfrom
  · exact absurd hfrom (by simp)
  · exact absurd hfrom (by simp)
  · obtain ⟨rfl, rfl⟩ := List.cons.inj (Option.some.inj hfrom)
    rw [if_neg hquote, if_pos rfl]
    split <;> rename_i hfrom' <;> rw [offset_cons h, from?_offset hnext] at hfrom'
    · exact absurd hfrom' (by simp)
    · exact absurd hfrom' (by simp)
    · obtain ⟨rfl, rfl⟩ := List.cons.inj (Option.some.inj hfrom')
      rw [offset_cons h, offset_cons hnext]

theorem scanBody?_backslash_end (h : ['\\'] <:+ text) (hquote : '\\' ≠ quote) :
    scanBody? text quote read (offset text ['\\']) =
      some (.error .unterminatedString, offset text []) := by
  rw [scanBody?]
  split <;> rename_i hfrom <;> rw [from?_offset h] at hfrom
  · exact absurd hfrom (by simp)
  · exact absurd hfrom (by simp)
  · obtain ⟨rfl, rfl⟩ := List.cons.inj (Option.some.inj hfrom)
    rw [if_neg hquote, if_pos rfl]
    split <;> simp_all [offset_cons h, from?_offset List.nil_suffix]

end Body

/-- A string is scanned up to its closing quote, and what it stands for is put together on the
way. -/
theorem scanBody?_offset {text : List Char} {quote : Char} (hquote : isQuote quote = true)
    (read : List Char) {s : List Char} (h : s <:+ text) :
    scanBody? text quote read (offset text s) =
      match splitBody? quote true s with
      | some (body, rest) => some (.ok (read ++ unescape body), offset text rest)
      | none => some (.error .unterminatedString, offset text []) := by
  have hslash : '\\' ≠ quote := (ne_of_isQuote hquote rfl).symm
  fun_induction splitBody? quote true s generalizing read with
  | case1 => exact scanBody?_nil read
  | case2 => simp_all
  | case3 escaped rest _ ih =>
    rw [scanBody?_backslash read h hslash,
      ih _ ((List.suffix_cons _ _).trans ((List.suffix_cons _ _).trans h))]
    cases splitBody? quote true rest with
    | none => rfl
    | some found => simp [unescape_backslash escaped found.1]
  | case4 rest hpair =>
    rw [scanBody?_cons read h hslash.symm, if_pos rfl]
    simp [unescape]
  | case5 => simp_all
  | case6 c rest hpair hne _ ih =>
    by_cases hc : c = '\\'
    · -- A backslash with no character behind it ends the text.
      obtain - | ⟨d, rest⟩ := rest
      · subst hc
        exact scanBody?_backslash_end read h hslash
      · exact absurd rfl (hpair d rest hc)
    · rw [scanBody?_cons read h hc, if_neg hne, ih _ ((List.suffix_cons _ _).trans h)]
      cases splitBody? quote true rest with
      | none => rfl
      | some found => simp [unescape_cons_of_ne hc]

/-- **A string is scanned as it is read.** -/
theorem scans_readString {text : List Char} {quote : Char} (hquote : isQuote quote = true)
    {s : List Char} (h : s <:+ text) (host : Host) (ns : Namespace) :
    Scans text (fun e v ↦ e.eval host ns = .ok v) (scanString? text quote (offset text s))
      (readString quote s) := by
  rw [scanString?, scanBody?_offset hquote [] h, readString]
  cases hbody : splitBody? quote true s with
  | none => exact ⟨List.nil_suffix, rfl, by simp, rfl⟩
  | some found =>
    have hs := eq_append_of_splitBody? hbody
    have hrest : found.2 <:+ s := ⟨found.1 ++ [quote], by rw [hs, List.append_assoc]; rfl⟩
    exact ⟨hrest.trans h, _, rfl, rfl⟩

end LineCompletion
