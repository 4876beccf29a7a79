/-!
# Byte offsets and byte strings

Positions in a line count the bytes of its UTF-8 form. `byteLength` measures text in bytes, and
`splitAtByte?` cuts it at an offset that falls between two characters. Byte strings are read as
UTF-8 with a replacement character for each maximal part that is no character (`decodeLossy`).
-/

namespace LineCompletion.Text

/-! ### Offsets -/

/-- How many bytes a text takes in UTF-8. -/
def byteLength : List Char → Nat
  | [] => 0
  | c :: s => c.utf8Size + byteLength s

@[simp] theorem byteLength_nil : byteLength [] = 0 := rfl

@[simp] theorem byteLength_cons (c : Char) (s : List Char) :
    byteLength (c :: s) = c.utf8Size + byteLength s := rfl

@[simp] theorem byteLength_append (s t : List Char) :
    byteLength (s ++ t) = byteLength s + byteLength t := by
  induction s with
  | nil => simp
  | cons c s ih => rw [List.cons_append, byteLength_cons, byteLength_cons, ih, Nat.add_assoc]

/-- The text before and after a byte offset, unless the offset lies inside a character or beyond
the end. -/
def splitAtByte? : List Char → Nat → Option (List Char × List Char)
  | s, 0 => some ([], s)
  | [], _ + 1 => none
  | c :: rest, n + 1 =>
    if c.utf8Size ≤ n + 1 then
      (splitAtByte? rest (n + 1 - c.utf8Size)).map fun (before, after) ↦ (c :: before, after)
    else none

theorem splitAtByte?_append (s t : List Char) :
    splitAtByte? (s ++ t) (byteLength s) = some (s, t) := by
  induction s with
  | nil =>
    show splitAtByte? t 0 = some ([], t)
    rw [splitAtByte?.eq_def]
  | cons c s ih =>
    have hpos := c.utf8Size_pos
    obtain ⟨n, hn⟩ : ∃ n, byteLength (c :: s) = n + 1 :=
      ⟨byteLength (c :: s) - 1, by rw [byteLength_cons]; omega⟩
    have hrest : n + 1 - c.utf8Size = byteLength s := by rw [← hn, byteLength_cons]; omega
    rw [hn, List.cons_append, splitAtByte?, if_pos (by rw [← hn, byteLength_cons]; omega), hrest,
      ih]
    rfl

theorem splitAtByte?_eq_some_iff {s before after : List Char} {n : Nat} :
    splitAtByte? s n = some (before, after) ↔ s = before ++ after ∧ n = byteLength before := by
  refine ⟨fun h ↦ ?_, fun ⟨hs, hn⟩ ↦ hs ▸ hn ▸ splitAtByte?_append before after⟩
  fun_induction splitAtByte? s n generalizing before with
  | case1 s => obtain ⟨rfl, rfl⟩ := Prod.mk.inj (Option.some.inj h); exact ⟨rfl, rfl⟩
  | case2 => exact absurd h (by simp)
  | case3 c rest n hle ih =>
    obtain ⟨⟨left, right⟩, hrest, heq⟩ := Option.map_eq_some_iff.1 h
    obtain ⟨rfl, rfl⟩ := Prod.mk.inj heq
    obtain ⟨rfl, hn⟩ := ih hrest
    exact ⟨rfl, by rw [byteLength_cons]; omega⟩
  | case4 => exact absurd h (by simp)

/-! ### Decoding -/

/-- The bytes that may follow a leading byte, and how many of them make up a character. -/
structure LeadRule where
  /-- Bytes after the leading one. -/
  count : Nat
  /-- Least second byte. -/
  low : UInt8
  /-- Greatest second byte. -/
  high : UInt8
  /-- The bits that the leading byte contributes are its remainder by this. -/
  leadSize : Nat

/-- What may follow a leading byte of a character of two bytes or more; nothing may follow any other
byte. The bounds keep out overlong forms, surrogates and values past the last code point. -/
def leadRule? (b : UInt8) : Option LeadRule :=
  if 0xC2 ≤ b && b ≤ 0xDF then some ⟨1, 0x80, 0xBF, 32⟩
  else if b == 0xE0 then some ⟨2, 0xA0, 0xBF, 16⟩
  else if b == 0xED then some ⟨2, 0x80, 0x9F, 16⟩
  else if 0xE1 ≤ b && b ≤ 0xEF then some ⟨2, 0x80, 0xBF, 16⟩
  else if b == 0xF0 then some ⟨3, 0x90, 0xBF, 8⟩
  else if 0xF1 ≤ b && b ≤ 0xF3 then some ⟨3, 0x80, 0xBF, 8⟩
  else if b == 0xF4 then some ⟨3, 0x80, 0x8F, 8⟩
  else none

/-- A character that has been read in part: its bits so far, and the bytes still owed. -/
structure Partial where
  /-- The bits read so far. -/
  bits : Nat
  /-- How many bytes are still owed. -/
  owed : Nat
  /-- Least byte that continues it. -/
  low : UInt8
  /-- Greatest byte that continues it. -/
  high : UInt8

/-- The character shown for bytes that are no character. -/
def replacement : Char := '\uFFFD'

/-- Reads a byte with no character unfinished: the text it completes, and what it leaves open. -/
def startByte (b : UInt8) : List Char × Option Partial :=
  if b < 0x80 then ([Char.ofNat b.toNat], none)
  else match leadRule? b with
    | some rule =>
      ([], some ⟨b.toNat % rule.leadSize, rule.count, rule.low, rule.high⟩)
    | none => ([replacement], none)

/-- Reads a byte after an unfinished character. One that cannot continue it ends the unfinished
part, which is shown as one replacement, and is read afresh. -/
def continueByte (p : Partial) (b : UInt8) : List Char × Option Partial :=
  if p.low ≤ b && b ≤ p.high then
    let bits := p.bits * 64 + b.toNat % 64
    if p.owed = 1 then ([Char.ofNat bits], none)
    else ([], some ⟨bits, p.owed - 1, 0x80, 0xBF⟩)
  else
    let (text, next) := startByte b
    (replacement :: text, next)

/-- Reads bytes as UTF-8, starting inside a character when one is given. -/
def decodeFrom : Option Partial → List UInt8 → List Char
  | none, [] => []
  | some _, [] => [replacement]
  | pending, b :: rest =>
    let (text, next) := pending.elim (startByte b) (continueByte · b)
    text ++ decodeFrom next rest

/-- A byte string as text, with one replacement character for each maximal invalid part. -/
def decodeLossy (bytes : List UInt8) : List Char := decodeFrom none bytes

end LineCompletion.Text
