import LineCompletion.Text.Width.Ligature

/-!
# Display width

How many columns a text takes on a terminal outside an East Asian context. Most characters keep the
columns they have on their own. The exceptions are sequences drawn as one: a line break of two
characters, pictographs with a style, a skin tone or a joiner, and the ligatures of a few scripts.

The text is read from its end. `Follow` says what the characters to the right start with, as far as
they may join the one being read, and the styles that signs in front of them ask for. A sign acts on
the character right before it and leaves a ligature open, so signs in a row may ask for two styles.

One step puts a character in front of a text (`place`). It takes a style that is asked for if it has
one, or is a sign that asks for one, or else stands in front of what it joins or on its own. What it
adds is an integer, as a ligature may take a column back that was given to the letter before it. The
columns of a whole text are a natural number all the same, which has a proof of its own.
-/

namespace LineCompletion.Text.Width

/-- A style that a sign asks for. -/
inductive Style where
  /-- Drawn as text. -/
  | text
  /-- Drawn as an emoji. -/
  | emoji
  /-- Drawn in full width. -/
  | wide
  deriving DecidableEq, Repr

/-- The text to the right of a character. -/
structure Follow where
  /-- What it starts with behind the signs for a style. -/
  start : Start
  /-- Whether text style is asked for. -/
  text : Bool := false
  /-- Whether emoji style is asked for. -/
  emoji : Bool := false
  /-- Whether full width is asked for. -/
  wide : Bool := false
  deriving DecidableEq, Repr

/-! ### Single characters -/

/-- What a character starts, seen from its left. -/
def startOf (c : Char) : Start :=
  if c = '\n' then .lineFeed
  else if c.toNat ≤ 0xA0 then .plain
  else if Grapheme.skinTones.contains c then .skinTone
  else if Grapheme.regionalIndicators.contains c then .indicator
  else if emojiByDefault.contains c then .emoji
  else if alefs.contains c then .alef
  else if c = '\u05DC' then .lamed false
  else if subscriptLetters.contains c then .subscriptLetter
  else if c = '\u1A10' then .ya false
  else if tifinaghConsonants.contains c then .tifinagh false
  else if c = '\uA4FC' || c = '\uA4FD' then .lisuTone
  else if c.toNat = 0x10C03 then .orkhonI false
  else if c.toNat = 0x16D67 then .kiratE
  else if c.toNat = 0x16D68 then .kiratAi
  else .plain

/-- The columns a character adds on its own, and what it starts. -/
def alone (c : Char) : Int × Start := (columns c, startOf c)

/-- The style that a sign asks for. -/
def styleOf? (c : Char) : Option Style :=
  if c = '\uFE0E' then some .text
  else if c = '\uFE0F' then some .emoji
  else if c = '\uFE01' then some .wide
  else none

/-- The quotation marks that can be drawn in full width. -/
def isCurlyQuote (c : Char) : Bool :=
  c == '\u2018' || c == '\u2019' || c == '\u201C' || c == '\u201D'

/-! ### Styles asked for -/

namespace Follow

/-- The text with one more sign for a style in front. A text that no ligature and no joined
pictograph starts is forgotten behind the sign. -/
def ask (next : Follow) (style : Style) : Follow :=
  match style with
  | .text => { kept with text := true }
  | .emoji => { (if next.start.isJoined then next else kept) with emoji := true }
  | .wide => { kept with wide := true }
where
  /-- What stays of the text behind any sign. -/
  kept : Follow := if next.start.isScript then next else { start := .plain }

/-- The text once a character without emoji style has come before it. Only emoji style keeps a
pictograph joined across its sign. -/
def refuseEmoji (next : Follow) : Follow :=
  if next.emoji then { next with start := next.start.script, emoji := false } else next

/-- The text once a character without the other style asked for has come before it. Text style is
refused first, and a wish for full width behind it stays. -/
def refuse (next : Follow) : Follow :=
  if next.text then { next with text := false } else { next with wide := false }

end Follow

/-- The columns a character adds when it takes a style asked for, and what it starts. -/
def styled? (c : Char) (next : Follow) : Option (Int × Start) :=
  if next.emoji && emojiOnRequest.contains c then
    some (if next.start.isJoined then 0 else 2, .emoji)
  else if next.text then
    if textOnRequest.contains c then some (1, .plain) else none
  else if next.wide && isCurlyQuote c then some (2, .plain) else none

/-! ### Whole texts -/

/-- The columns a character adds in front of what it joins or on its own, and what it starts. -/
def joined (c : Char) (start : Start) : Int × Start :=
  if c = '\r' && start = .lineFeed then (0, .plain)
  else (ligature? c start <|> pictograph? c start).getD (alone c)

/-- The columns a character that takes no style adds in front of a text, and what it starts. A wish
for full width that is left keeps the character from joining. -/
def placeUnstyled (c : Char) (next : Follow) : Int × Follow :=
  match through? c next.start with
  | some start => (0, { next with start })
  | none =>
    let (added, start) := if next.wide then alone c else joined c next.start
    (added, { start })

/-- The columns a character adds in front of the given text, and what it starts. -/
def place (c : Char) (next : Follow) : Int × Follow :=
  match styled? c next with
  | some (added, start) => (added, { start })
  | none =>
    match styleOf? c with
    | some style => (0, next.refuseEmoji.ask style)
    | none => placeUnstyled c next.refuseEmoji.refuse

/-- The columns of a text, and what it starts with. -/
def measure : List Char → Int × Follow
  | [] => (0, { start := .plain })
  | c :: rest =>
    let (width, next) := measure rest
    let (added, start) := place c next
    (width + added, start)

end LineCompletion.Text.Width

namespace LineCompletion.Text

/-- How many columns a text takes on a terminal. -/
def displayWidth (s : List Char) : Nat := (Width.measure s).1.toNat

end LineCompletion.Text
