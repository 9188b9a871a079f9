/-!
# Blank characters and trimming

Names, numbers and option values may be padded with blanks.  A blank is any
character with the white-space property, and also the four information
separators `U+001C` to `U+001F`; the zero-width characters (`U+200B`, `U+2060`,
`U+FEFF`) and the Mongolian vowel separator are not blanks.

Whole-number fields of a job trim a smaller set: the separators are not part of
it (`isSpace`).
-/

namespace LoopPainter.Text

/-- The characters with the white-space property. -/
def isSpace (c : Char) : Bool :=
  let n := c.toNat
  (9 ≤ n && n ≤ 13) || n == 0x20 || n == 0x85 || n == 0xa0 || n == 0x1680 ||
    (0x2000 ≤ n && n ≤ 0x200a) || n == 0x2028 || n == 0x2029 || n == 0x202f ||
    n == 0x205f || n == 0x3000

/-- White space and the four information separators. -/
def isBlank (c : Char) : Bool :=
  isSpace c || (0x1c ≤ c.toNat && c.toNat ≤ 0x1f)

/-- Drop the characters satisfying `p` at both ends. -/
def trimBy (p : Char → Bool) (s : List Char) : List Char :=
  ((s.dropWhile p).reverse.dropWhile p).reverse

/-- Drop the blanks at both ends. -/
def strip (s : List Char) : List Char :=
  trimBy isBlank s

end LoopPainter.Text
