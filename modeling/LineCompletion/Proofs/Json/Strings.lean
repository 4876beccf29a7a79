import LineCompletion.Json.Quoted

/-!
# What the body of a string stands for

Two relations on the text between the quotes of a string.

* `StringBody` is the grammar: any character but the quote, the backslash and the control characters
  may stand for itself, and an escape is one of the short ones or a code unit of four hexadecimal
  digits.
* `StandsFor` relates a body to the text it stands for. It speaks of whole characters: beyond the
  first plane a character is written as the two halves that it is divided into.

**The two are not the same.** What stands for a text is grammatical (`StandsFor.stringBody`), but a
body with a half of a character on its own is grammatical and stands for no text. So a body is read
without looking at what it stands for, and decoded afterwards, and each step has its own relation. A
text has many bodies, since every character may be written by its number.

Reading a body reads the grammar (`readBody?_eq_some_iff`): what is read up to the closing quote is
the only body there. In one direction the induction is on the body, with one lemma for each of its
constructors (`readBody?_plain`, `readBody?_short`, `readBody?_unit`); in the other it is the
reader's own.

Decoding gives what a body stands for (`decode?_eq_some_iff`). Here the case to watch is two code
units in a row, which are the halves of one character or two characters, as the first of them is the
first half of a character or not. The two do not meet, since no character has the number of a half
(`decode?_unit`, `decode?_pair`), and two halves are joined to the character that is divided into
them (`halves_of_surrogates`).

Every text is stood for by its encoding (`standsFor_encode`), so a text that is encoded and decoded
is had back. Whether a body stands for a text is decidable, through reading and decoding.
-/

namespace LineCompletion.Json

/-! ### The relations -/

/-- A character that may stand for itself in a string. -/
structure Plain (c : Char) : Prop where
  /-- A quote would end the string. -/
  ne_quote : c ≠ '"'
  /-- A backslash begins an escape. -/
  ne_backslash : c ≠ '\\'
  /-- Control characters have to be escaped. -/
  printable : 0x20 ≤ c.toNat

instance (c : Char) : Decidable (Plain c) :=
  decidable_of_iff (c ≠ '"' ∧ c ≠ '\\' ∧ 0x20 ≤ c.toNat)
    ⟨fun ⟨hquote, hbackslash, hprintable⟩ ↦ ⟨hquote, hbackslash, hprintable⟩,
      fun h ↦ ⟨h.ne_quote, h.ne_backslash, h.printable⟩⟩

/-- Four hexadecimal digits and the number they give. -/
def HexDigits (digits : List Char) (n : Nat) : Prop := hex4? digits = some (n, [])

/-- The first of the two halves of a character beyond the first plane. -/
def highHalf (c : Char) : Nat := 0xD800 + (c.toNat - 0x10000) / 0x400

/-- The second of the two halves of a character beyond the first plane. -/
def lowHalf (c : Char) : Nat := 0xDC00 + (c.toNat - 0x10000) % 0x400

/-- What may stand between the quotes of a string. -/
inductive StringBody : List Char → Prop
  /-- Nothing. -/
  | nil : StringBody []
  /-- A character that stands for itself. -/
  | plain {c : Char} {rest : List Char} (hc : Plain c) (hrest : StringBody rest) :
      StringBody (c :: rest)
  /-- A short escape. -/
  | short {e c : Char} {rest : List Char} (he : simpleEscape? e = some c)
      (hrest : StringBody rest) : StringBody ('\\' :: e :: rest)
  /-- A code unit. -/
  | unit {a b c d : Char} {n : Nat} {rest : List Char} (hn : HexDigits [a, b, c, d] n)
      (hrest : StringBody rest) : StringBody ('\\' :: 'u' :: a :: b :: c :: d :: rest)

/-- The body of a string and the text it stands for. -/
inductive StandsFor : List Char → List Char → Prop
  /-- Nothing. -/
  | nil : StandsFor [] []
  /-- A character that stands for itself. -/
  | plain {c : Char} {body s : List Char} (hc : Plain c) (h : StandsFor body s) :
      StandsFor (c :: body) (c :: s)
  /-- A short escape. -/
  | short {e c : Char} {body s : List Char} (he : simpleEscape? e = some c)
      (h : StandsFor body s) : StandsFor ('\\' :: e :: body) (c :: s)
  /-- The number of a character. -/
  | unit {a b c d x : Char} {body s : List Char} (hx : HexDigits [a, b, c, d] x.toNat)
      (h : StandsFor body s) : StandsFor ('\\' :: 'u' :: a :: b :: c :: d :: body) (x :: s)
  /-- The two halves of a character. -/
  | pair {a b c d a' b' c' d' x : Char} {body s : List Char} (hx : 0x10000 ≤ x.toNat)
      (hhigh : HexDigits [a, b, c, d] (highHalf x)) (hlow : HexDigits [a', b', c', d'] (lowHalf x))
      (h : StandsFor body s) :
      StandsFor ('\\' :: 'u' :: a :: b :: c :: d :: '\\' :: 'u' :: a' :: b' :: c' :: d' :: body)
        (x :: s)

/-- What stands for a text is the body of a string. -/
theorem StandsFor.stringBody {body s : List Char} (h : StandsFor body s) : StringBody body := by
  induction h with
  | nil => exact .nil
  | plain hc _ ih => exact .plain hc ih
  | short he _ ih => exact .short he ih
  | unit hx _ ih => exact .unit hx ih
  | pair _ hhigh hlow _ ih => exact .unit hhigh (.unit hlow ih)

/-- A text without anything to escape stands for itself. -/
theorem standsFor_self {s : List Char} (h : ∀ c ∈ s, Plain c) : StandsFor s s := by
  induction s with
  | nil => exact .nil
  | cons c s ih =>
    obtain ⟨hc, hs⟩ := List.forall_mem_cons.1 h
    exact .plain hc (ih hs)

/-! ### Hexadecimal digits -/

/-- A hexadecimal digit is less than sixteen. -/
theorem hexDigit?_lt {c : Char} {n : Nat} (h : hexDigit? c = some n) : n < 16 := by
  rw [hexDigit?] at h
  split at h
  · rename_i hc
    have hcode := Char.isDigit_iff_toNat.1 hc
    have := Option.some.inj h
    simp only [Char.reduceToNat] at this hcode
    omega
  · split at h
    · rename_i hc
      have hle : c.toNat ≤ 'f'.toNat := hc.2
      have := Option.some.inj h
      simp only [Char.reduceToNat] at this hle
      omega
    · split at h
      · rename_i hc
        have hle : c.toNat ≤ 'F'.toNat := hc.2
        have := Option.some.inj h
        simp only [Char.reduceToNat] at this hle
        omega
      · exact absurd h (by simp)

/-- Four of them give a number of sixteen bits. -/
theorem HexDigits.lt {digits : List Char} {n : Nat} (h : HexDigits digits n) : n < 0x10000 := by
  rw [HexDigits, hex4?.eq_def] at h
  split at h
  · split at h
    · rename_i ha hb hc hd
      have := hexDigit?_lt ha
      have := hexDigit?_lt hb
      have := hexDigit?_lt hc
      have := hexDigit?_lt hd
      have := (Prod.mk.inj (Option.some.inj h)).1
      omega
    · exact absurd h (by simp)
  · exact absurd h (by simp)

/-- They are four characters. -/
theorem HexDigits.exists_eq {digits : List Char} {n : Nat} (h : HexDigits digits n) :
    ∃ a b c d, digits = [a, b, c, d] := by
  rw [HexDigits, hex4?.eq_def] at h
  split at h
  · split at h
    · obtain ⟨-, rfl⟩ := Prod.mk.inj (Option.some.inj h)
      exact ⟨_, _, _, _, rfl⟩
    · exact absurd h (by simp)
  · exact absurd h (by simp)

/-- The four that are read off the start of a text, as the digits of their number. -/
theorem hexDigits_of_hex4? {a b c d : Char} {n : Nat} {rest : List Char}
    (h : hex4? [a, b, c, d] = some (n, rest)) : HexDigits [a, b, c, d] n := by
  refine h.trans ?_
  rw [hex4?] at h
  split at h
  · obtain ⟨-, rfl⟩ := Prod.mk.inj (Option.some.inj h)
    rfl
  · exact absurd h (by simp)

/-- The letter of code units is none of the short escapes. -/
theorem ne_u_of_simpleEscape? {e c : Char} (h : simpleEscape? e = some c) : e ≠ 'u' := by
  rintro rfl
  exact absurd h (by simp [simpleEscape?])

/-! ### Reading -/

/-- A character that stands for itself is read as it is. -/
theorem readBody?_plain {c : Char} (hc : Plain c) (rest : List Char) :
    readBody? (c :: rest) = (readBody? rest).map fun (body, after) ↦ (c :: body, after) := by
  have hcontrol : ¬ (c == '\\' || decide (c.toNat < 0x20)) = true := by
    have := hc.printable
    simp only [Bool.or_eq_true, beq_iff_eq, decide_eq_true_eq, hc.ne_backslash, false_or]
    omega
  rw [readBody?, if_neg hcontrol]
  · exact hc.ne_quote
  · exact fun _ _ _ _ _ heq ↦ absurd heq hc.ne_backslash
  · exact fun _ _ heq ↦ absurd heq hc.ne_backslash

/-- A short escape is read as two characters, whatever it stands for. -/
theorem readBody?_short {e c : Char} (he : simpleEscape? e = some c) (rest : List Char) :
    readBody? ('\\' :: e :: rest) =
      (readBody? rest).map fun (body, after) ↦ ('\\' :: e :: body, after) := by
  rw [readBody?, if_pos (by rw [he]; rfl)]
  exact fun _ _ _ _ _ heq ↦ absurd heq (ne_u_of_simpleEscape? he)

/-- A code unit is read as six characters, whatever it stands for. -/
theorem readBody?_unit {a b c d : Char} {n : Nat} (hn : HexDigits [a, b, c, d] n)
    (rest : List Char) : readBody? ('\\' :: 'u' :: a :: b :: c :: d :: rest) =
      (readBody? rest).map fun (body, after) ↦
        ('\\' :: 'u' :: a :: b :: c :: d :: body, after) := by
  rw [readBody?, if_pos (Option.isSome_iff_exists.2 ⟨_, hn⟩)]

/-- A body is read up to the quote behind it, and not beyond. -/
theorem readBody?_append {body : List Char} (h : StringBody body) (rest : List Char) :
    readBody? (body ++ '"' :: rest) = some (body, rest) := by
  induction h with
  | nil => rfl
  | plain hc _ ih => rw [List.cons_append, readBody?_plain hc, ih]; rfl
  | short he _ ih => rw [List.cons_append, List.cons_append, readBody?_short he, ih]; rfl
  | unit hn _ ih => simp only [List.cons_append]; rw [readBody?_unit hn, ih]; rfl

/-- **Reading up to the closing quote reads the grammar.** -/
theorem readBody?_eq_some_iff {s body after : List Char} :
    readBody? s = some (body, after) ↔ StringBody body ∧ s = body ++ '"' :: after := by
  refine ⟨fun h ↦ ?_, fun ⟨hbody, hs⟩ ↦ hs ▸ readBody?_append hbody after⟩
  fun_induction readBody? s generalizing body after with
  | case1 => exact absurd h (by simp)
  | case2 rest =>
    obtain ⟨rfl, rfl⟩ := Prod.mk.inj (Option.some.inj h)
    exact ⟨.nil, rfl⟩
  | case3 a b c d rest hhex ih =>
    obtain ⟨⟨inner, left⟩, hread, heq⟩ := Option.map_eq_some_iff.1 h
    obtain ⟨rfl, rfl⟩ := Prod.mk.inj heq
    obtain ⟨hinner, rfl⟩ := ih hread
    obtain ⟨⟨n, _⟩, hn⟩ := Option.isSome_iff_exists.1 hhex
    exact ⟨.unit (hexDigits_of_hex4? hn) hinner, rfl⟩
  | case4 => exact absurd h (by simp)
  | case5 e rest _ hescape ih =>
    obtain ⟨⟨inner, left⟩, hread, heq⟩ := Option.map_eq_some_iff.1 h
    obtain ⟨rfl, rfl⟩ := Prod.mk.inj heq
    obtain ⟨hinner, rfl⟩ := ih hread
    obtain ⟨c, hc⟩ := Option.isSome_iff_exists.1 hescape
    exact ⟨.short hc hinner, rfl⟩
  | case6 => exact absurd h (by simp)
  | case7 => exact absurd h (by simp)
  | case8 c rest hquote _ _ hplain ih =>
    obtain ⟨⟨inner, left⟩, hread, heq⟩ := Option.map_eq_some_iff.1 h
    obtain ⟨rfl, rfl⟩ := Prod.mk.inj heq
    obtain ⟨hinner, rfl⟩ := ih hread
    simp only [Bool.or_eq_true, beq_iff_eq, decide_eq_true_eq, not_or, Nat.not_lt] at hplain
    exact ⟨.plain ⟨hquote, hplain.1, hplain.2⟩ hinner, rfl⟩

/-! ### Decoding -/

/-- A number that is one of a character is the number of that character. -/
theorem toNat_ofNat_of_isValidChar {n : Nat} (h : n.isValidChar) : (Char.ofNat n).toNat = n := by
  rw [Char.ofNat, dif_pos h]
  rfl

/-- A character that stands for itself is decoded to itself. -/
theorem decode?_plain {c : Char} (hc : Plain c) (body : List Char) :
    decode? (c :: body) = (decode? body).map (c :: ·) := by
  rw [decode?]
  · exact fun _ _ _ _ _ heq ↦ absurd heq hc.ne_backslash
  · exact fun _ _ heq ↦ absurd heq hc.ne_backslash

/-- A short escape is decoded to its character. -/
theorem decode?_short {e c : Char} (he : simpleEscape? e = some c) (body : List Char) :
    decode? ('\\' :: e :: body) = (decode? body).map (c :: ·) := by
  rw [decode?, he]
  exact fun _ _ _ _ _ heq ↦ absurd heq (ne_u_of_simpleEscape? he)

/-- The number of a character is decoded to it: it is not taken for a half, since no character has
such a number. -/
theorem decode?_unit {a b c d x : Char} (hx : HexDigits [a, b, c, d] x.toNat) (body : List Char) :
    decode? ('\\' :: 'u' :: a :: b :: c :: d :: body) = (decode? body).map (x :: ·) := by
  have hchar : x.toNat.isValidChar := x.valid
  rw [Nat.isValidChar] at hchar
  have hhigh : isHighSurrogate x.toNat = false := by
    simp only [isHighSurrogate, Bool.and_eq_false_iff, decide_eq_false_iff_not]
    omega
  have hlow : isLowSurrogate x.toNat = false := by
    simp only [isLowSurrogate, Bool.and_eq_false_iff, decide_eq_false_iff_not]
    omega
  rw [decode?, show hex4? [a, b, c, d] = some (x.toNat, []) from hx]
  simp only [hhigh, hlow, Bool.false_eq_true, if_false, Char.ofNat_toNat]

/-- The two halves of a character are decoded to it. -/
theorem decode?_pair {a b c d a' b' c' d' x : Char} (hx : 0x10000 ≤ x.toNat)
    (hhigh : HexDigits [a, b, c, d] (highHalf x)) (hlow : HexDigits [a', b', c', d'] (lowHalf x))
    (body : List Char) :
    decode? ('\\' :: 'u' :: a :: b :: c :: d :: '\\' :: 'u' :: a' :: b' :: c' :: d' :: body) =
      (decode? body).map (x :: ·) := by
  have hchar : x.toNat.isValidChar := x.valid
  rw [Nat.isValidChar] at hchar
  have hhigh' : isHighSurrogate (highHalf x) = true := by
    refine Bool.and_eq_true_iff.2 ⟨decide_eq_true ?_, decide_eq_true ?_⟩ <;> rw [highHalf] <;> omega
  have hlow' : isLowSurrogate (lowHalf x) = true := by
    refine Bool.and_eq_true_iff.2 ⟨decide_eq_true ?_, decide_eq_true ?_⟩ <;> rw [lowHalf] <;> omega
  have hjoined : 0x10000 + (highHalf x - 0xD800) * 0x400 + (lowHalf x - 0xDC00) = x.toNat := by
    rw [highHalf, lowHalf]
    omega
  rw [decode?, show hex4? [a, b, c, d] = some (highHalf x, []) from hhigh]
  simp only [hhigh', if_true, show hex4? [a', b', c', d'] = some (lowHalf x, []) from hlow, hlow',
    hjoined, Char.ofNat_toNat]

/-- A body that stands for a text is decoded to it. -/
theorem decode?_of_standsFor {body s : List Char} (h : StandsFor body s) :
    decode? body = some s := by
  induction h with
  | nil => rfl
  | plain hc _ ih => rw [decode?_plain hc, ih]; rfl
  | short he _ ih => rw [decode?_short he, ih]; rfl
  | unit hx _ ih => rw [decode?_unit hx, ih]; rfl
  | pair hx hhigh hlow _ ih => rw [decode?_pair hx hhigh hlow, ih]; rfl

/-- Behind a code unit there is a body. -/
theorem StringBody.of_unit {a b c d : Char} {rest : List Char}
    (h : StringBody ('\\' :: 'u' :: a :: b :: c :: d :: rest)) : StringBody rest := by
  cases h with
  | plain hc => exact absurd rfl hc.ne_backslash
  | short he => exact absurd rfl (ne_u_of_simpleEscape? he)
  | unit _ hrest => exact hrest

/-- Behind a short escape there is a body. -/
theorem StringBody.of_short {e c : Char} {rest : List Char} (h : StringBody ('\\' :: e :: rest))
    (he : simpleEscape? e = some c) : StringBody rest := by
  cases h with
  | plain hc => exact absurd rfl hc.ne_backslash
  | short _ hrest => exact hrest
  | unit => exact absurd rfl (ne_u_of_simpleEscape? he)

/-- Two halves are those of the character they are joined to. -/
theorem halves_of_surrogates {n m : Nat} (hn : isHighSurrogate n = true)
    (hm : isLowSurrogate m = true) :
    ∃ x, x = Char.ofNat (0x10000 + (n - 0xD800) * 0x400 + (m - 0xDC00)) ∧ 0x10000 ≤ x.toNat ∧
      highHalf x = n ∧ lowHalf x = m := by
  obtain ⟨hn, hn'⟩ := Bool.and_eq_true_iff.1 hn
  obtain ⟨hm, hm'⟩ := Bool.and_eq_true_iff.1 hm
  rw [decide_eq_true_iff] at hn hn' hm hm'
  have hvalid : (0x10000 + (n - 0xD800) * 0x400 + (m - 0xDC00)).isValidChar :=
    .inr ⟨by omega, by omega⟩
  have hx := toNat_ofNat_of_isValidChar hvalid
  refine ⟨_, rfl, ?_, ?_, ?_⟩
  · omega
  · rw [highHalf, hx]
    omega
  · rw [lowHalf, hx]
    omega

/-- A body that is decoded to a text stands for it. The induction follows the decoder, so it goes by
one code unit or by two at once. -/
theorem standsFor_of_decode? {body s : List Char} (hbody : StringBody body)
    (h : decode? body = some s) : StandsFor body s := by
  -- Five of the cases give a text, one for each constructor.
  fun_induction decode? body generalizing s with
  | case1 =>
    obtain rfl := Option.some.inj h
    exact .nil
  | case2 => exact absurd h (by simp)
  | case3 a b c d n _ hhex hhigh a' b' c' d' rest m _ hhex' hlow ih =>
    obtain ⟨t, ht, rfl⟩ := Option.map_eq_some_iff.1 h
    obtain ⟨x, hjoined, hx, rfl, rfl⟩ := halves_of_surrogates hhigh hlow
    rw [← hjoined]
    exact .pair hx (hexDigits_of_hex4? hhex) (hexDigits_of_hex4? hhex')
      (ih hbody.of_unit.of_unit ht)
  | case4 => exact absurd h (by simp)
  | case5 => exact absurd h (by simp)
  | case6 => exact absurd h (by simp)
  | case7 => exact absurd h (by simp)
  | case8 a b c d rest n _ hhex hhigh hlow ih =>
    obtain ⟨t, ht, rfl⟩ := Option.map_eq_some_iff.1 h
    have hdigits := hexDigits_of_hex4? hhex
    have hlt := hdigits.lt
    -- The code unit is neither half of a character, so it is the number of one.
    have hvalid : n.isValidChar := by
      simp only [isHighSurrogate, isLowSurrogate, Bool.and_eq_true, decide_eq_true_eq] at hhigh hlow
      rw [Nat.isValidChar]
      omega
    have hn : (Char.ofNat n).toNat = n := toNat_ofNat_of_isValidChar hvalid
    rw [← hn] at hdigits
    exact .unit hdigits (ih hbody.of_unit ht)
  | case9 e rest _ c hescape ih =>
    obtain ⟨t, ht, rfl⟩ := Option.map_eq_some_iff.1 h
    exact .short hescape (ih (hbody.of_short hescape) ht)
  | case10 => exact absurd h (by simp)
  | case11 c rest hunit hshort ih =>
    obtain ⟨t, ht, rfl⟩ := Option.map_eq_some_iff.1 h
    cases hbody with
    | plain hc hrest => exact .plain hc (ih hrest ht)
    | short => exact (hshort _ _ rfl rfl).elim
    | unit => exact (hunit _ _ _ _ _ rfl rfl).elim

/-- **Decoding a body gives what it stands for**, and nothing where it stands for no text. -/
theorem decode?_eq_some_iff {body s : List Char} (hbody : StringBody body) :
    decode? body = some s ↔ StandsFor body s :=
  ⟨standsFor_of_decode? hbody, decode?_of_standsFor⟩

/-- Whether a body stands for a text is decided by reading it and decoding it. -/
instance (body s : List Char) : Decidable (StandsFor body s) :=
  decidable_of_iff (readBody? (body ++ ['"']) = some (body, []) ∧ decode? body = some s)
    ⟨fun ⟨hread, hdecode⟩ ↦ standsFor_of_decode? (readBody?_eq_some_iff.1 hread).1 hdecode,
      fun h ↦ ⟨readBody?_append h.stringBody [], decode?_of_standsFor h⟩⟩

/-! ### Encoding -/

/-- A control character has four digits behind zeros. -/
theorem hexDigits_control : ∀ n < 0x20,
    HexDigits (List.replicate (4 - (Nat.toDigits 16 n).length) '0' ++ Nat.toDigits 16 n) n := by
  unfold HexDigits
  decide

/-- What one character is written as stands for it. -/
theorem standsFor_encodeChar_append (c : Char) {body s : List Char} (h : StandsFor body s) :
    StandsFor (encodeChar c ++ body) (c :: s) := by
  unfold encodeChar
  split
  · exact .short rfl h
  · exact .short rfl h
  · exact .short rfl h
  · exact .short rfl h
  · exact .short rfl h
  · exact .short rfl h
  · exact .short rfl h
  · rename_i hquote hbackslash _ _ _ _ _
    dsimp only
    split
    · rename_i hcontrol
      have hdigits := hexDigits_control _ hcontrol
      obtain ⟨a, b, c', d, heq⟩ := hdigits.exists_eq
      rw [heq] at hdigits
      simp only [List.cons_append, heq]
      exact .unit hdigits h
    · rename_i hcontrol
      exact .plain ⟨hquote, hbackslash, Nat.not_lt.1 hcontrol⟩ h

/-- **Every text is stood for by its encoding.** -/
theorem standsFor_encode (s : List Char) : StandsFor (encode s) s := by
  induction s with
  | nil => exact .nil
  | cons c s ih =>
    rw [encode, List.flatMap_cons]
    exact standsFor_encodeChar_append c ih

end LineCompletion.Json
