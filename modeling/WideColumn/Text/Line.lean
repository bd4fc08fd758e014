/-!
# Lines of text

A line ends at a line feed, a carriage return, both in this order, or one of the rarer line and
paragraph breaks. The break that ends a text begins no further line.
-/

namespace WideColumn.Text

/-- A character that ends a line. -/
def isLineBreak (c : Char) : Bool :=
  ('\n' ≤ c && c ≤ '\r') || ('\x1c' ≤ c && c ≤ '\x1e') || c == '\u0085' || c == '\u2028' ||
    c == '\u2029'

/-- A text read from its end, without the break that ends it. -/
def dropBreak : List Char → List Char
  | '\n' :: '\r' :: cs => cs
  | c :: cs => if isLineBreak c then cs else c :: cs
  | [] => []

/-- The last line of a text. -/
def lastLine (s : String) : String :=
  String.ofList ((dropBreak s.toList.reverse).takeWhile fun c => !isLineBreak c).reverse

end WideColumn.Text
