import WideColumn.Failure
import WideColumn.Text.Blank

/-!
# Identifiers and literals

Names of tables, columns, indexes and views enter a statement between double quotes, and only when
they consist of letters, digits and low lines. Literals enter it between single quotes with each
quote inside written twice.

A final line end does not count when a name is checked.
-/

namespace WideColumn

namespace Name

/-- An ASCII letter. -/
def isLetter (c : Char) : Bool := ('a' ≤ c && c ≤ 'z') || ('A' ≤ c && c ≤ 'Z')

/-- An ASCII letter, a digit or the low line. -/
def isInner (c : Char) : Bool := isLetter c || ('0' ≤ c && c ≤ '9') || c == '_'

/-- The characters without a line end at the very end. -/
def withoutFinalNewline (cs : List Char) : List Char :=
  if cs.getLast? = some '\n' then cs.dropLast else cs

/-- A character that may start a name, then characters that may continue one. -/
def startsWith (first : Char → Bool) : List Char → Bool
  | [] => false
  | c :: cs => first c && cs.all isInner

/-- The name of a table or of a view: a letter, then letters, digits and low lines. -/
def isTable (s : String) : Bool := startsWith isLetter (withoutFinalNewline s.toList)

/-- A name that may be quoted: a letter or low line, then letters, digits and low lines. -/
def isColumn (cs : List Char) : Bool :=
  startsWith (fun c => isLetter c || c == '_') (withoutFinalNewline cs)

/-- The greatest length of the name of a table or of a view. -/
def maxLength : Nat := 48

end Name

/-- A name that has been accepted for quoting. -/
structure Identifier where
  chars : List Char
  isColumn : Name.isColumn chars = true

namespace Identifier

/-- A name as it is accepted: without blanks around it and without double quotes. -/
def clean (s : String) : List Char := (Text.stripChars s.toList).filter (· != '"')

/-- Refuses a name that cannot be quoted. -/
def invalid (name : List Char) : Failure :=
  let name := String.ofList name
  .refusal {
    code := .invalidQuery
    message := .text ("Invalid identifier: '" ++ name ++ "'")
    details := .map (if name.isEmpty then [] else details [("field", .text name)]) }

/-- Accept a name. -/
def ofText (s : String) : Except Failure Identifier :=
  if h : Name.isColumn (clean s) = true then .ok ⟨clean s, h⟩ else .error (invalid (clean s))

/-- The accepted name. -/
def text (i : Identifier) : String := String.ofList i.chars

/-- The name between double quotes. -/
def quoted (i : Identifier) : String := "\"" ++ i.text ++ "\""

end Identifier

/-- Each single quote written twice. -/
def doubleQuotes : List Char → List Char
  | [] => []
  | c :: cs => if c = '\'' then '\'' :: '\'' :: doubleQuotes cs else c :: doubleQuotes cs

/-- A text as a literal. -/
def literal (s : String) : String := String.ofList ('\'' :: doubleQuotes s.toList ++ ['\''])

end WideColumn
