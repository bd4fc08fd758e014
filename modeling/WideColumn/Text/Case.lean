import WideColumn.Text.Range
import WideColumn.Text.CaseTable

/-!
# Case mapping

`lower` and `upper` map every character to its image in Unicode 14, which may be longer than one
character. A capital sigma that ends a word becomes the final form of the small letter.
-/

namespace WideColumn.Text

/-- The image of a code point under runs of shifts. -/
def shifted? (runs : List (Nat × Nat × Nat × Int)) (n : Nat) : Option Nat :=
  (runs.find? fun (first, last, step, _) =>
    decide (first ≤ n) && decide (n ≤ last) && (n - first) % step == 0).map
      fun (_, _, _, shift) => (n + shift).toNat

/-- The image of a character under a case table: first the long images, then the runs. -/
def mapCase (specials : List (Nat × List Nat)) (runs : List (Nat × Nat × Nat × Int))
    (c : Char) : List Char :=
  match specials.find? fun entry => entry.1 == c.toNat with
  | some (_, image) => image.map Char.ofNat
  | none => [((shifted? runs c.toNat).map Char.ofNat).getD c]

/-- The lower-case image of one character, wherever it stands. -/
def lowerChar (c : Char) : List Char :=
  if c.toNat < 0x80 then [c.toLower] else mapCase lowerSpecials lowerRuns c

/-- The upper-case image of one character. -/
def upperChar (c : Char) : List Char :=
  if c.toNat < 0x80 then [c.toUpper] else mapCase upperSpecials upperRuns c

/-- The next character that is not passed over is a cased letter. -/
def facesCased (cs : List Char) : Bool :=
  match cs.dropWhile (inRuns caseIgnorableRuns) with
  | c :: _ => inRuns casedRuns c
  | [] => false

/-- The lower-case image of a text; `before` holds the characters already passed, last first. -/
def lowerFrom (before : List Char) : List Char → List Char
  | [] => []
  | 'Σ' :: rest =>
    (if facesCased before && !facesCased rest then 'ς' else 'σ') :: lowerFrom ('Σ' :: before) rest
  | c :: rest => lowerChar c ++ lowerFrom (c :: before) rest

/-- The lower-case image of a text. -/
def lower (s : String) : String := String.ofList (lowerFrom [] s.toList)

/-- The upper-case image of a text. -/
def upper (s : String) : String := String.ofList (s.toList.flatMap upperChar)

end WideColumn.Text
