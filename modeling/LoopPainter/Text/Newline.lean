/-!
# Line ends

A line of a text file ends with a line feed, a carriage return, or both in this order.
`unifyBreaks` makes each of them a line feed.
-/

namespace LoopPainter.Text

/-- The text with a line feed at the end of every line. -/
def unifyBreaks : List Char → List Char
  | '\r' :: '\n' :: rest => '\n' :: unifyBreaks rest
  | '\r' :: rest => '\n' :: unifyBreaks rest
  | c :: rest => c :: unifyBreaks rest
  | [] => []

end LoopPainter.Text
