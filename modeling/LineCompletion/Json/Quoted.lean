/-!
# JSON strings

The text between the quotes of a JSON string. `readBody?` finds where it ends and checks its
escapes; `decode?` says what it stands for, and `encode` writes a text that way. A code unit that is
no character by itself passes the check and stands for nothing.
-/

namespace LineCompletion.Json

/-! ### Escapes -/

/-- The value of a hexadecimal digit. -/
def hexDigit? (c : Char) : Option Nat :=
  if c.isDigit then some (c.toNat - '0'.toNat)
  else if 'a' ≤ c ∧ c ≤ 'f' then some (c.toNat - 'a'.toNat + 10)
  else if 'A' ≤ c ∧ c ≤ 'F' then some (c.toNat - 'A'.toNat + 10)
  else none

/-- The number of four hexadecimal digits, and what follows them. -/
def hex4? : List Char → Option (Nat × List Char)
  | a :: b :: c :: d :: rest =>
    match hexDigit? a, hexDigit? b, hexDigit? c, hexDigit? d with
    | some a, some b, some c, some d => some (a * 4096 + b * 256 + c * 16 + d, rest)
    | _, _, _, _ => none
  | _ => none

/-- What a single character after a backslash stands for. -/
def simpleEscape? : Char → Option Char
  | '"' => some '"'
  | '\\' => some '\\'
  | '/' => some '/'
  | 'b' => some '\x08'
  | 'f' => some '\x0c'
  | 'n' => some '\n'
  | 'r' => some '\r'
  | 't' => some '\t'
  | _ => none

/-! ### Reading -/

/-- The body of a string and what follows its closing quote. Escapes must be escapes of JSON; a code
unit that is no character by itself is let pass. -/
def readBody? : List Char → Option (List Char × List Char)
  | [] => none
  | '"' :: rest => some ([], rest)
  | '\\' :: 'u' :: a :: b :: c :: d :: rest =>
    if (hex4? [a, b, c, d]).isSome then
      (readBody? rest).map fun (body, after) ↦ ('\\' :: 'u' :: a :: b :: c :: d :: body, after)
    else none
  | '\\' :: c :: rest =>
    if (simpleEscape? c).isSome then
      (readBody? rest).map fun (body, after) ↦ ('\\' :: c :: body, after)
    else none
  | c :: rest =>
    if c == '\\' || c.toNat < 0x20 then none
    else (readBody? rest).map fun (body, after) ↦ (c :: body, after)

theorem length_of_readBody? {s body after : List Char} (h : readBody? s = some (body, after)) :
    after.length < s.length := by
  fun_induction readBody? s generalizing body after with
  | case1 => simp at h
  | case2 rest =>
    obtain ⟨rfl, rfl⟩ := Prod.mk.inj (Option.some.inj h)
    simp
  | case3 a b c d rest _ ih =>
    obtain ⟨⟨inner, left⟩, read, eq⟩ := Option.map_eq_some_iff.1 h
    obtain ⟨rfl, rfl⟩ := Prod.mk.inj eq
    have := ih read
    simp only [List.length_cons]
    omega
  | case4 => simp at h
  | case5 c rest _ _ ih =>
    obtain ⟨⟨inner, left⟩, read, eq⟩ := Option.map_eq_some_iff.1 h
    obtain ⟨rfl, rfl⟩ := Prod.mk.inj eq
    have := ih read
    simp only [List.length_cons]
    omega
  | case6 => simp at h
  | case7 => simp at h
  | case8 c rest _ _ _ _ ih =>
    obtain ⟨⟨inner, left⟩, read, eq⟩ := Option.map_eq_some_iff.1 h
    obtain ⟨rfl, rfl⟩ := Prod.mk.inj eq
    have := ih read
    simp only [List.length_cons]
    omega

/-- Whether a number is the first half of a pair that stands for one character. -/
def isHighSurrogate (n : Nat) : Bool := 0xD800 ≤ n && n ≤ 0xDBFF

/-- Whether a number is the second half of a pair that stands for one character. -/
def isLowSurrogate (n : Nat) : Bool := 0xDC00 ≤ n && n ≤ 0xDFFF

/-- What the body of a string stands for. The halves of a pair must come together. -/
def decode? : List Char → Option (List Char)
  | [] => some []
  | '\\' :: 'u' :: a :: b :: c :: d :: rest =>
    match hex4? [a, b, c, d] with
    | none => none
    | some (n, _) =>
      if isHighSurrogate n then
        match rest with
        | '\\' :: 'u' :: a' :: b' :: c' :: d' :: rest =>
          match hex4? [a', b', c', d'] with
          | some (m, _) =>
            if isLowSurrogate m then
              (decode? rest).map
                (Char.ofNat (0x10000 + (n - 0xD800) * 0x400 + (m - 0xDC00)) :: ·)
            else none
          | none => none
        | _ => none
      else if isLowSurrogate n then none
      else (decode? rest).map (Char.ofNat n :: ·)
  | '\\' :: c :: rest =>
    match simpleEscape? c with
    | some decoded => (decode? rest).map (decoded :: ·)
    | none => none
  | c :: rest => (decode? rest).map (c :: ·)

/-! ### Writing -/

/-- How one character is written in a string. -/
def encodeChar (c : Char) : List Char :=
  match c with
  | '"' => ['\\', '"']
  | '\\' => ['\\', '\\']
  | '\x08' => ['\\', 'b']
  | '\x0c' => ['\\', 'f']
  | '\n' => ['\\', 'n']
  | '\r' => ['\\', 'r']
  | '\t' => ['\\', 't']
  | c =>
    if c.toNat < 0x20 then
      let hex := Nat.toDigits 16 c.toNat
      '\\' :: 'u' :: List.replicate (4 - hex.length) '0' ++ hex
    else [c]

/-- A text as the body of a string. -/
def encode (s : List Char) : List Char := s.flatMap encodeChar

end LineCompletion.Json
