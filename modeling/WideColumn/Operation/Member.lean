import WideColumn.Coercion
import WideColumn.Identifier
import WideColumn.Statement.Kind

/-!
# Members of operations

What the members of operations have in common when they are given as data: the kind, the name of a
table or view, and maps with text keys.
-/

namespace WideColumn

namespace Member

open Coercion

/-- The kind, which may be said again but not changed. -/
def kind (k : StatementKind) (es : List (Value × Value)) : Checked Unit :=
  defaulted es "operation_type" () fun v =>
    if v.text? = some k.name then .ok ()
    else fault "literal_error"
      ("Input should be <QueryType." ++ k.name ++ ": '" ++ k.name ++ "'>") v

/-- The name of a table. -/
def tableName : Coercion String := fun v =>
  (textWithin 1 (some Name.maxLength) v).andThen fun s =>
    if Name.isTable s then .ok s
    else broken ("Invalid table_name: '" ++ s ++ "'. Must start with a letter and contain only " ++
      "alphanumeric or underscore characters.") v

/-- The name of a view. -/
def viewName : Coercion String := fun v =>
  (textWithin 1 (some Name.maxLength) v).andThen fun s =>
    if Name.isTable s then .ok s else broken ("Invalid view_name: '" ++ s ++ "'") v

/-- The table of an operation of a kind. -/
def table (k : StatementKind) (es : List (Value × Value)) : Checked String :=
  kind k es *> required es "table_name" tableName

end Member

namespace Value

/-- A map with text keys as a value. -/
def ofEntries (es : List (String × Value)) : Value := .map (es.map fun e => (.text e.1, e.2))

/-- A list of texts as a value. -/
def ofTexts (xs : List String) : Value := .list (xs.map .text)

/-- Nothing as null. -/
def ofOption (v : Option Value) : Value := v.getD .null

mutual

/-- The value with every tuple in lists, tuples and maps turned into a list. -/
def listed : Value → Value
  | .list xs => .list (listedAll xs)
  | .tuple xs => .list (listedAll xs)
  | .map es => .map (listedEntries es)
  | v => v

/-- Elements with every tuple turned into a list. -/
def listedAll : List Value → List Value
  | [] => []
  | x :: xs => listed x :: listedAll xs

/-- Entries with every tuple among the values turned into a list. -/
def listedEntries : List (Value × Value) → List (Value × Value)
  | [] => []
  | (k, v) :: es => (k, listed v) :: listedEntries es

end

end Value

end WideColumn
