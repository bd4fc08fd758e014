import WideColumn.Text.Range

/-!
# Blanks

The blanks of Unicode 14 together with the four information separators, and the functions that
remove them from the ends of a text. A blank inside a text stays.
-/

namespace WideColumn.Text

/-- The runs of blank characters, in order. -/
def blankRuns : List (Nat × Nat) := [
    (0x9, 0xD), (0x1C, 0x20), (0x85, 0x85), (0xA0, 0xA0), (0x1680, 0x1680), (0x2000, 0x200A),
    (0x2028, 0x2029), (0x202F, 0x202F), (0x205F, 0x205F), (0x3000, 0x3000)]

/-- White space, the line ends and the information separators. -/
def isBlank (c : Char) : Bool := inRuns blankRuns c

/-- The characters without the blanks in front. -/
def stripLeft (cs : List Char) : List Char := cs.dropWhile isBlank

/-- The characters without the blanks at the end. -/
def stripRight (cs : List Char) : List Char := (cs.reverse.dropWhile isBlank).reverse

/-- The characters without the blanks at either end. -/
def stripChars (cs : List Char) : List Char := stripRight (stripLeft cs)

/-- The text without the blanks at either end. -/
def strip (s : String) : String := String.ofList (stripChars s.toList)

theorem isBlank_newline : isBlank '\n' = true := by decide

end WideColumn.Text
