import LoopPainter.Text.Digits
import LoopPainter.Text.Printable

/-!
# Quoted text

Text inside a list, a mapping or an error message is shown between quotes.  The
quote is the apostrophe, unless the text has an apostrophe and no double quote.
The backslash, the quote itself and unprintable characters are escaped, by the
shortest of the two-, four- and eight-digit forms that fits.

Byte strings use the same rule after a leading `b`, with every byte above the
ASCII range escaped.
-/

namespace LoopPainter.Text

/-- The quote that surrounds a text. -/
def quoteFor (s : List Char) : Char :=
  if s.contains '\'' && !s.contains '"' then '"' else '\''

/-- The escape of a character by its number. -/
def numericEscape (n : Nat) : List Char :=
  if n < 0x100 then '\\' :: 'x' :: padded 16 2 n
  else if n < 0x10000 then '\\' :: 'u' :: padded 16 4 n
  else '\\' :: 'U' :: padded 16 8 n

/-- One character between quotes `q`; `shown` says which are shown as themselves. -/
def escapeChar (q : Char) (shown : Char → Bool) (c : Char) : List Char :=
  if c == q || c == '\\' then ['\\', c]
  else if c == '\t' then ['\\', 't']
  else if c == '\n' then ['\\', 'n']
  else if c == '\r' then ['\\', 'r']
  else if shown c then [c]
  else numericEscape c.toNat

/-- A text between quotes. -/
def quoted (s : List Char) : List Char :=
  let q := quoteFor s
  q :: s.flatMap (escapeChar q isPrintable) ++ [q]

/-- A text between quotes with every character beyond ASCII escaped. -/
def quotedAscii (s : List Char) : List Char :=
  let q := quoteFor s
  q :: s.flatMap (escapeChar q fun c => isPrintable c && c.toNat < 0x80) ++ [q]

/-- A string between quotes. -/
def quotedString (s : String) : String :=
  String.ofList (quoted s.toList)

/-- A byte string: `b` and the bytes between quotes. -/
def quotedBytes (bytes : List UInt8) : List Char :=
  'b' :: quotedAscii (bytes.map fun b => Char.ofNat b.toNat)

/-- The bytes in hexadecimal, two digits each. -/
def hexBytes (bytes : List UInt8) : List Char :=
  bytes.flatMap fun b => padded 16 2 b.toNat

end LoopPainter.Text
