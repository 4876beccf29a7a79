import LineCompletion.Text.Width.Class

/-!
# What the text to the right joins

The columns of a character can depend on what comes after it. `Start` says what the text to the
right starts with, as far as it may join the character before it: a pictograph behind a joiner, half
a flag, or a letter that forms a ligature in its script. The ligatures of the scripts are here too.
Joiners and ignorable marks may stand anywhere inside most of them.
-/

namespace LineCompletion.Text.Width

/-- What a text starts with, as far as it may join the character before it. -/
inductive Start where
  /-- Nothing that joins. -/
  | plain
  /-- A line feed. -/
  | lineFeed
  /-- A skin tone. -/
  | skinTone
  /-- A pictograph drawn as emoji. -/
  | emoji
  /-- A joiner and a pictograph drawn as emoji. -/
  | joinedEmoji
  /-- The enclosing keycap, joined to a pictograph. -/
  | joinedKeycap
  /-- One regional indicator. -/
  | indicator
  /-- Two regional indicators or more. -/
  | indicators
  /-- One regional indicator, joined to a pictograph. -/
  | joinedIndicator
  /-- Two regional indicators or more, joined to a pictograph, and whether they pair off. -/
  | joinedIndicators (paired : Bool)
  /-- The closing tag of a flag, joined to a pictograph, and how many letters and digits of its
  region have come before it. -/
  | joinedTag (letters digits : Nat)
  /-- Arabic alef. -/
  | alef
  /-- Hebrew lamed, and whether a joiner comes before it. -/
  | lamed (joined : Bool)
  /-- A Khmer letter that can be written below the line. -/
  | subscriptLetter
  /-- Buginese ya, and whether a joiner comes before it. -/
  | ya (joined : Bool)
  /-- Buginese vowel sign i, joined to ya. -/
  | vowelYa
  /-- A Tifinagh consonant, and whether a joiner comes before it. -/
  | tifinagh (joined : Bool)
  /-- The Tifinagh consonant joiner and a consonant. -/
  | joinedTifinagh
  /-- The second half of a Lisu tone. -/
  | lisuTone
  /-- Old Turkic orkhon i, and whether a joiner comes before it. -/
  | orkhonI (joined : Bool)
  /-- Kirat Rai vowel sign e. -/
  | kiratE
  /-- Kirat Rai vowel sign ai, composed or not. -/
  | kiratAi
  deriving DecidableEq, Repr

namespace Start

/-- Whether a ligature of its script may still form beyond a sign for a style. The vowels of Kirat
Rai only join right next to each other. -/
def isScript : Start → Bool
  | .alef | .lamed _ | .subscriptLetter | .ya _ | .vowelYa | .tifinagh _ | .joinedTifinagh
  | .lisuTone | .orkhonI _ => true
  | _ => false

/-- Whether a pictograph in front would be joined to one in the text. -/
def isJoined : Start → Bool
  | .joinedEmoji | .joinedKeycap => true
  | _ => false

/-- The start as far as a ligature of its script may form in front of it. -/
def script (start : Start) : Start := if start.isScript then start else .plain

/-- The same start with a joiner in front, where a joiner makes a difference to a ligature. -/
def join : Start → Start
  | .lamed _ => .lamed true
  | .ya _ => .ya true
  | .tifinagh _ => .tifinagh true
  | .orkhonI _ => .orkhonI true
  | start => start

end Start

/-! ### Letters of ligatures -/

/-- Arabic letters of the shape of alef. -/
def alefs : CharSet where
  ranges := [(0x622, 0x623), (0x625, 0x625), (0x627, 0x627), (0x671, 0x673), (0x675, 0x675),
    (0x773, 0x774), (0x870, 0x882)]

/-- Arabic letters of the shape of lam. -/
def lams : CharSet where
  ranges := [(0x644, 0x644), (0x6B5, 0x6B8), (0x76A, 0x76A), (0x8A6, 0x8A6), (0x8C7, 0x8C7)]

/-- Khmer letters that a coeng sign moves below the line. -/
def subscriptLetters : CharSet where
  ranges := [(0x1780, 0x1782), (0x1784, 0x1787), (0x1789, 0x178C), (0x178E, 0x1793),
    (0x1795, 0x1798), (0x179B, 0x179D), (0x17A0, 0x17A0), (0x17A2, 0x17A2), (0x17A7, 0x17A7),
    (0x17AB, 0x17AC), (0x17AF, 0x17AF)]

/-- Tifinagh consonants. -/
def tifinaghConsonants : CharSet where
  ranges := [(0x2D31, 0x2D65), (0x2D6F, 0x2D6F)]

/-- Default-ignorable marks, which may stand anywhere inside a ligature. -/
def ignorableMarks : CharSet where
  ranges := [(0x34F, 0x34F), (0x17B4, 0x17B5), (0x180B, 0x180D), (0x180F, 0x180F),
    (0xFE00, 0xFE0F), (0xE0100, 0xE01EF)]

/-- Formats that Arabic letters join through, beside the nonspacing marks. -/
def joiningFormats : CharSet where
  ranges := [(0xAD, 0xAD), (0x61C, 0x61C), (0x70F, 0x70F), (0x200B, 0x200B), (0x200E, 0x200F),
    (0x202A, 0x202E), (0x2060, 0x2064), (0x206A, 0x206F), (0xFEFF, 0xFEFF), (0x1BCA0, 0x1BCA3),
    (0x1D173, 0x1D17A), (0xE0001, 0xE0001)]

/-- Characters attached to the one before them that Arabic letters do not join through: the spacing
marks, the zero-width non-joiner and the Tifinagh consonant joiner. -/
def separatingMarks : CharSet where
  ranges := [
    (0x9BE, 0x9BE), (0x9D7, 0x9D7), (0xB3E, 0xB3E), (0xB57, 0xB57), (0xBBE, 0xBBE), (0xBD7, 0xBD7),
    (0xCC0, 0xCC0), (0xCC2, 0xCC2), (0xCC7, 0xCC8), (0xCCA, 0xCCB), (0xCD5, 0xCD6), (0xD3E, 0xD3E),
    (0xD57, 0xD57), (0xDCF, 0xDCF), (0xDDF, 0xDDF), (0x1715, 0x1715), (0x1734, 0x1734),
    (0x1B35, 0x1B35), (0x1B3B, 0x1B3B), (0x1B3D, 0x1B3D), (0x1B43, 0x1B44), (0x1BAA, 0x1BAA),
    (0x1BF2, 0x1BF3), (0x200C, 0x200C), (0x2D7F, 0x2D7F), (0x302E, 0x302F), (0xA953, 0xA953),
    (0xA9C0, 0xA9C0), (0x111C0, 0x111C0), (0x11235, 0x11235), (0x1133E, 0x1133E),
    (0x1134D, 0x1134D), (0x11357, 0x11357), (0x113B8, 0x113B8), (0x113C2, 0x113C2),
    (0x113C5, 0x113C5), (0x113C7, 0x113C9), (0x113CF, 0x113CF), (0x114B0, 0x114B0),
    (0x114BD, 0x114BD), (0x115AF, 0x115AF), (0x116B6, 0x116B6), (0x11930, 0x11930),
    (0x1193D, 0x1193D), (0x11F41, 0x11F41), (0x16FF0, 0x16FF1), (0x1D165, 0x1D166),
    (0x1D16D, 0x1D172)]

/-- Whether Arabic letters join through a character. -/
def isArabicTransparent (c : Char) : Bool :=
  (isAttached c && !separatingMarks.contains c) || newerMarks.contains c ||
    joiningFormats.contains c

/-! ### Ligatures -/

/-- The columns a character adds, and what it starts, when it completes or continues a ligature of
its script. -/
def ligature? (c : Char) : Start → Option (Int × Start)
  | .alef =>
    if lams.contains c then some (0, .plain)
    else if isArabicTransparent c then some (0, .alef) else none
  | .lamed true => if c = '\u05D0' then some (0, .plain) else none
  | .subscriptLetter => if c = '\u17D2' then some (-1, .plain) else none
  | .ya true => if c = '\u1A17' then some (0, .vowelYa) else none
  | .vowelYa => if c = '\u1A15' then some (0, .plain) else none
  | .tifinagh joined =>
    if c = '\u2D7F' then some (1, .joinedTifinagh)
    else if joined && tifinaghConsonants.contains c then some (0, .plain) else none
  | .joinedTifinagh => if tifinaghConsonants.contains c then some (-1, .plain) else none
  | .lisuTone => if 0xA4F8 ≤ c.toNat && c.toNat ≤ 0xA4FB then some (0, .plain) else none
  | .orkhonI true => if c.toNat = 0x10C32 then some (0, .plain) else none
  | .kiratE =>
    if c.toNat = 0x16D63 || c.toNat = 0x16D69 then some (0, .plain)
    else if c.toNat = 0x16D67 then some (0, .kiratAi)
    else if c.toNat = 0x16D68 then some (1, .kiratE) else none
  | .kiratAi => if c.toNat = 0x16D63 then some (0, .plain) else none
  | _ => none

/-- What the text starts with behind a joiner or an ignorable mark that stands inside a ligature.
Such a character adds no column. -/
def through? (c : Char) (start : Start) : Option Start :=
  if !start.isScript || start = .alef then none
  else if c = Grapheme.zeroWidthJoiner then some start.join
  else if ignorableMarks.contains c then some start
  else none

/-! ### Tags

The flag of a region is a black flag, the letters and digits of the region as tags, and a closing
tag. Letters come last: up to four behind three digits, and three to six where there is no digit. -/

/-- Tags for a letter. -/
def tagLetters : CharSet where
  ranges := [(0xE0061, 0xE007A)]

/-- Tags for a digit. -/
def tagDigits : CharSet where
  ranges := [(0xE0030, 0xE0039)]

/-- What a tag, or the black flag in front of them all, starts before the given letters and digits
of a region. None of them adds a column. -/
def tagged? (c : Char) (letters digits : Nat) : Option Start :=
  if c.toNat = 0x1F3F4 then
    if digits = 3 || (digits = 0 && 3 ≤ letters) then some .emoji else none
  else if tagLetters.contains c then
    if digits = 0 && letters < 6 then some (.joinedTag (letters + 1) 0) else none
  else if tagDigits.contains c then
    if letters ≤ 4 && digits < 3 then some (.joinedTag letters (digits + 1)) else none
  else none

/-- The columns a character adds in front of a pictograph or a flag that it joins, and what it
starts. -/
def pictograph? (c : Char) : Start → Option (Int × Start)
  | .skinTone =>
    if modifierBases.contains c then some (0, .emoji)
    else if c = Grapheme.zeroWidthJoiner then some (0, .joinedEmoji) else none
  | .emoji => if c = Grapheme.zeroWidthJoiner then some (0, .joinedEmoji) else none
  | .indicator => if Grapheme.regionalIndicators.contains c then some (1, .indicators) else none
  | .indicators =>
    if Grapheme.regionalIndicators.contains c then some (1, .indicators)
    else if c = Grapheme.zeroWidthJoiner then some (0, .joinedEmoji) else none
  | .joinedEmoji =>
    if c = '\u20E3' then some (0, .joinedKeycap)
    else if c.toNat = 0xE007F then some (0, .joinedTag 0 0)
    else if Grapheme.regionalIndicators.contains c then some (1, .joinedIndicator)
    else if Grapheme.skinTones.contains c then some (0, .skinTone)
    else if emojiByDefault.contains c then some (0, .emoji) else none
  | .joinedIndicator =>
    if Grapheme.regionalIndicators.contains c then some (-1, .joinedIndicators true) else none
  | .joinedIndicators paired =>
    if Grapheme.regionalIndicators.contains c then
      some (if paired then 3 else -1, .joinedIndicators !paired)
    else if c = Grapheme.zeroWidthJoiner then some (0, .joinedEmoji) else none
  | .joinedTag letters digits => (tagged? c letters digits).map (0, ·)
  | _ => none

end LineCompletion.Text.Width
