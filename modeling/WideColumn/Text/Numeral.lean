import WideColumn.Text.Blank
import WideColumn.Text.Digit

/-!
# Numerals in free text

A numeral may be written with the digits of any script and between blanks. `plain` brings such a
text into the characters `0` to `9` and trims it. A text of ASCII characters alone is taken as it
is, so that there the information separators are no blanks.
-/

namespace WideColumn.Text

/-- A blank of ASCII other than an information separator. -/
def isPlainBlank (c : Char) : Bool := c == ' ' || ('\t' ≤ c && c ≤ '\r')

/-- The characters without the plain blanks at either end. -/
def trimPlain (cs : List Char) : List Char :=
  ((cs.dropWhile isPlainBlank).reverse.dropWhile isPlainBlank).reverse

/-- A character in ASCII: a blank becomes a space, a digit one of `0` to `9`, and any other
character beyond ASCII a question mark, which is in no numeral. -/
def plainChar (c : Char) : Char :=
  if c.toNat < 127 then c
  else if isBlank c then ' '
  else match digitValue? c with
    | some d => Char.ofNat ('0'.toNat + d)
    | none => '?'

/-- The characters of a numeral in ASCII, without the blanks around them. -/
def plain (cs : List Char) : List Char :=
  trimPlain (if cs.all fun c => c.toNat < 128 then cs else cs.map plainChar)

theorem plainChar_ascii (c : Char) (h : c.toNat < 127) : plainChar c = c := by
  simp [plainChar, h]

end WideColumn.Text
