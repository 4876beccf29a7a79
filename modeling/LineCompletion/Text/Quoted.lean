import LineCompletion.Text.Extending
import LineCompletion.Text.Printable

/-!
# Quoted text

Text as it is shown inside a value: between double quotes, on one line, with every character that
has no visible form of its own written as an escape. A single quote is left alone.
-/

namespace LineCompletion.Text

/-- A code point in hexadecimal between braces, as in `\u{e9}`. -/
def codePointEscape (c : Char) : List Char :=
  ['\\', 'u', '{'] ++ Nat.toDigits 16 c.toNat ++ ['}']

/-- How one character is written inside quoted text. -/
def quotedChar (c : Char) : List Char :=
  match c with
  | '\n' => ['\\', 'n']
  | '\r' => ['\\', 'r']
  | '\t' => ['\\', 't']
  | '\x00' => ['\\', '0']
  | '\\' => ['\\', '\\']
  | '"' => ['\\', '"']
  | c => if isAttached c || !isPrintable c then codePointEscape c else [c]

/-- Text between double quotes, with escapes where a character needs one. -/
def quoted (s : List Char) : List Char := '"' :: s.flatMap quotedChar ++ ['"']

end LineCompletion.Text
