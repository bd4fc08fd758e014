import WideColumn.Identifier
import WideColumn.Text.Blank
import WideColumn.Text.Digit

/-!
# Projections

What a query answers for each row: every column, a column, a column under another name, or a
function of columns and literals. A projection is read from its text, and what it writes into a
statement consists of quoted names, function names and literals only.
-/

namespace WideColumn

/-- An argument of a function in a projection. -/
inductive Argument where
  | all
  | literal (text : String)
  | column (name : Identifier)

/-- An item of a projection. -/
inductive Projection where
  | all
  | column (name : Identifier)
  | renamed (source name : Identifier)
  | application (function : String) (arguments : List Argument) (name : Option Identifier)

namespace Projection

/-- The text of an argument. -/
def argumentText : Argument → String
  | .all => "*"
  | .literal text => text
  | .column name => name.quoted

/-- The new name of an item. -/
def nameText : Option Identifier → String
  | none => ""
  | some name => " AS " ++ name.quoted

/-- The text of an item. -/
def render : Projection → String
  | all => "*"
  | column name => name.quoted
  | renamed source name => source.quoted ++ " AS " ++ name.quoted
  | application function arguments name =>
    function ++ "(" ++ ",".intercalate (arguments.map argumentText) ++ ")" ++ nameText name

/-! ## Reading -/

/-- A letter or low line, letters in any case; the dotted capital I, the dotless i, the long s and
the Kelvin sign are letters in another case too. -/
def isLetter (c : Char) : Bool :=
  Name.isLetter c || c == '_' || [0x130, 0x131, 0x17F, 0x212A].contains c.toNat

/-- A letter, digit or low line. -/
def isInner (c : Char) : Bool := isLetter c || ('0' ≤ c && c ≤ '9')

/-- A name, with letters in any case. -/
def isWord : List Char → Bool
  | [] => false
  | c :: cs => isLetter c && cs.all isInner

/-- The name after the word `as`, which stands between blanks. -/
def newName? (cs : List Char) : Option (List Char) :=
  let word := Text.stripLeft cs
  match word with
  | a :: s :: rest =>
    let name := Text.stripLeft rest
    if word.length < cs.length ∧ (a = 'a' ∨ a = 'A') ∧ (s = 's' ∨ s = 'S' ∨ s.toNat = 0x17F) ∧
        name.length < rest.length ∧ isWord name then some name
    else none
  | _ => none

/-- A column and its new name. -/
def renamed? (cs : List Char) : Option (List Char × List Char) :=
  let word := cs.takeWhile isInner
  if isWord word then (newName? (cs.dropWhile isInner)).map (word, ·) else none

/-- The characters before and after the last closing parenthesis. -/
def splitLastClosing (cs : List Char) : Option (List Char × List Char) :=
  let after := (cs.reverse.takeWhile (· != ')')).reverse
  if after.length < cs.length then some (cs.take (cs.length - after.length - 1), after) else none

/-- The parts of an applied function: its name, its arguments as one text and the new name. -/
def application? (cs : List Char) : Option (List Char × List Char × Option (List Char)) :=
  let function := cs.takeWhile isInner
  match Text.stripLeft (cs.dropWhile isInner) with
  | '(' :: rest =>
    (splitLastClosing rest).bind fun (inside, after) =>
      let arguments := Text.stripChars inside
      if !isWord function || arguments.contains '\n' then none
      else if after.isEmpty then some (function, arguments, none)
      else (newName? after).map fun name => (function, arguments, some name)
  | _ => none

/-- Digits, at least one. -/
def isDigits (cs : List Char) : Bool := !cs.isEmpty && cs.all Text.isDigit

/-- A number with an optional sign and fraction. -/
def isNumber (cs : List Char) : Bool :=
  let body := match cs with
    | '-' :: rest => rest
    | _ => cs
  let whole := body.takeWhile (· != '.')
  match body.dropWhile (· != '.') with
  | [] => isDigits whole
  | _ :: fraction => isDigits whole && isDigits fraction

/-- A text between single quotes that has no quote inside. -/
def isQuoted (cs : List Char) : Bool :=
  match cs with
  | '\'' :: rest => rest.getLast? = some '\'' && !rest.dropLast.contains '\''
  | _ => false

/-- Refuse a projection. -/
def refused {α : Type} (message : String) : Except Failure α :=
  .error (.refusal { code := .invalidProjection, message := .text message })

/-- Read an argument of the function in an item. -/
def readArgument (item argument : List Char) : Except Failure Argument :=
  if argument = ['*'] then .ok .all
  else if isNumber argument || isQuoted argument then .ok (.literal (String.ofList argument))
  else if Name.isColumn argument then .column <$> Identifier.ofText (String.ofList argument)
  else refused ("Invalid argument '" ++ String.ofList argument ++ "' in projection '" ++
    String.ofList item ++ "'")

/-- Read the arguments of the function in an item. -/
def readArguments (item arguments : List Char) : Except Failure (List Argument) :=
  if arguments.isEmpty then .ok []
  else ((String.ofList arguments).splitOn ",").mapM fun a =>
    readArgument item (Text.stripChars a.toList)

/-- Accept a new name, if there is one. -/
def readName : Option (List Char) → Except Failure (Option Identifier)
  | none => .ok none
  | some name => some <$> Identifier.ofText (String.ofList name)

/-- Read an item without blanks around it. -/
def read (item : List Char) : Except Failure Projection :=
  if item = ['*'] then .ok .all
  else if Name.isColumn item then column <$> Identifier.ofText (String.ofList item)
  else match renamed? item with
    | some (source, name) =>
      return renamed (← Identifier.ofText (String.ofList source))
        (← Identifier.ofText (String.ofList name))
    | none =>
      match application? item with
      | some (function, arguments, name) => do
        let arguments ← readArguments item arguments
        return application (String.ofList function) arguments (← readName name)
      | none => refused ("Invalid projection: '" ++ String.ofList item ++ "'")

/-- Read an item. -/
def ofText (s : String) : Except Failure Projection := read (Text.stripChars s.toList)

/-- The text of a list of items; an empty list stands for every column. -/
def renderAll (items : List Projection) : String :=
  if items.isEmpty then "*" else ", ".intercalate (items.map render)

end Projection

end WideColumn
