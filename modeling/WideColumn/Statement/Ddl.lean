import WideColumn.Statement.Kind
import WideColumn.IndexTarget

/-!
# Statements that define tables

A definition names tables, columns, indexes and views. It is first put together over names as
they were given, `Ddl String`; `Ddl.accept` turns it into a definition over identifiers, `Ddl
Identifier`, or refuses the first name that cannot be quoted; and only a definition over
identifiers has a text.
-/

namespace WideColumn

/-- The key of a table or view: the columns of the partition, and the clustering columns with
their directions, which are written only when the key is ordered. -/
structure KeyClause (ν : Type) where
  partition : List ν
  clustering : List (ν × String)
  ordered : Bool

/-- A column of a table that is created. -/
structure ColumnClause (ν : Type) where
  name : ν
  typeText : String
  isStatic : Bool

/-- A statement that defines a table, an index or a view, over names of a kind. -/
inductive Ddl (ν : Type) where
  | createTable (table : ν) (columns : List (ColumnClause ν)) (key : KeyClause ν)
  | dropTable (table : ν) (ifExists : Bool)
  | addColumn (table column : ν) (typeText : String) (isStatic : Bool)
  | dropColumn (table column : ν)
  | retypeColumn (table column : ν) (typeText : String)
  | createIndex (table : ν) (target : IndexTarget)
  | createCustomIndex (table column : ν) (implementation : String)
      (options : List (String × String))
  | dropIndex (name : ν) (ifExists : Bool)
  /-- The columns of a view; none stand for all columns of the table. -/
  | createView (view table : ν) (select : Option (List ν)) (key : KeyClause ν)
  | dropView (view : ν) (ifExists : Bool)

namespace Ddl

/-- The kind of a definition. -/
def kind {ν : Type} : Ddl ν → StatementKind
  | createTable .. => .createTable
  | dropTable .. => .dropTable
  | addColumn .. | dropColumn .. | retypeColumn .. => .alterTable
  | createIndex .. => .createIndex
  | createCustomIndex .. => .createCustomIndex
  | dropIndex .. => .dropIndex
  | createView .. => .createView
  | dropView .. => .dropView

/-! ## Accepting names -/

/-- Accept each name of a list. -/
def acceptNames (names : List String) : Except Failure (List Identifier) :=
  names.mapM Identifier.ofText

/-- Accept the name of a column. -/
def acceptColumn (c : ColumnClause String) : Except Failure (ColumnClause Identifier) :=
  return { name := ← Identifier.ofText c.name, typeText := c.typeText, isStatic := c.isStatic }

/-- Accept the names of a key. -/
def acceptKey (k : KeyClause String) : Except Failure (KeyClause Identifier) := do
  let partition ← acceptNames k.partition
  let clustering ← acceptNames (k.clustering.map (·.1))
  return {
    partition, ordered := k.ordered, clustering := clustering.zip (k.clustering.map (·.2)) }

/-- Accept the names of a view's columns. -/
def acceptSelect : Option (List String) → Except Failure (Option (List Identifier))
  | none => .ok none
  | some names => some <$> acceptNames names

/-- Accept every name of a definition, the columns first. -/
def accept : Ddl String → Except Failure (Ddl Identifier)
  | createTable table columns key => do
    let columns ← columns.mapM acceptColumn
    let table ← Identifier.ofText table
    return createTable table columns (← acceptKey key)
  | dropTable table ifExists => return dropTable (← Identifier.ofText table) ifExists
  | addColumn table column type isStatic =>
    return addColumn (← Identifier.ofText table) (← Identifier.ofText column) type isStatic
  | dropColumn table column =>
    return dropColumn (← Identifier.ofText table) (← Identifier.ofText column)
  | retypeColumn table column type =>
    return retypeColumn (← Identifier.ofText table) (← Identifier.ofText column) type
  | createIndex table target => return createIndex (← Identifier.ofText table) target
  | createCustomIndex table column implementation options =>
    return createCustomIndex (← Identifier.ofText table) (← Identifier.ofText column)
      implementation options
  | dropIndex name ifExists => return dropIndex (← Identifier.ofText name) ifExists
  | createView view table select key => do
    let select ← acceptSelect select
    let key ← acceptKey key
    return createView (← Identifier.ofText view) (← Identifier.ofText table) select key
  | dropView view ifExists => return dropView (← Identifier.ofText view) ifExists

/-! ## The text -/

/-- Names between quotes, separated. -/
def quotedList (separator : String) (names : List Identifier) : String :=
  separator.intercalate (names.map Identifier.quoted)

/-- The primary key. -/
def primaryKeyText (k : KeyClause Identifier) : String :=
  "PRIMARY KEY(" ++ ",".intercalate
    (("(" ++ quotedList "," k.partition ++ ")") :: k.clustering.map fun c => c.1.quoted) ++ ")"

/-- The order of the rows of a partition. -/
def orderText (k : KeyClause Identifier) : String :=
  if k.ordered then
    " WITH CLUSTERING ORDER BY (" ++
      ", ".intercalate (k.clustering.map fun c => c.1.quoted ++ " " ++ c.2) ++ ")"
  else ""

/-- A type with the mark of a static column. -/
def typeSuffix (typeText : String) (isStatic : Bool) : String :=
  typeText ++ if isStatic then " STATIC" else ""

/-- A column that is created. -/
def columnText (c : ColumnClause Identifier) : String :=
  c.name.quoted ++ " " ++ typeSuffix c.typeText c.isStatic

/-- What a drop says when the thing may be absent. -/
def ifExistsText (ifExists : Bool) : String := if ifExists then " IF EXISTS" else ""

/-- The options of a custom index. -/
def optionsText (options : List (String × String)) : String :=
  if options.isEmpty then ""
  else " WITH OPTIONS = \x7b" ++
    ", ".intercalate (options.map fun o => literal o.1 ++ ": " ++ literal o.2) ++ "\x7d"

/-- The columns of a view. -/
def selectText : Option (List Identifier) → String
  | none => "*"
  | some names => quotedList ", " names

/-- The condition that the key columns of a view have values. -/
def notNullText (k : KeyClause Identifier) : String :=
  " AND ".intercalate
    ((k.partition ++ k.clustering.map (·.1)).map fun c => c.quoted ++ " IS NOT NULL")

/-- The text of a definition. -/
def render : Ddl Identifier → String
  | createTable table columns key =>
    "CREATE TABLE IF NOT EXISTS " ++ table.quoted ++ " (" ++
      ", ".intercalate (columns.map columnText) ++ ", " ++ primaryKeyText key ++ ")" ++
      orderText key ++ ";"
  | dropTable table ifExists => "DROP TABLE" ++ ifExistsText ifExists ++ " " ++ table.quoted ++ ";"
  | addColumn table column type isStatic =>
    "ALTER TABLE " ++ table.quoted ++ " ADD " ++ column.quoted ++ " " ++ typeSuffix type isStatic ++
      ";"
  | dropColumn table column => "ALTER TABLE " ++ table.quoted ++ " DROP " ++ column.quoted ++ ";"
  | retypeColumn table column type =>
    "ALTER TABLE " ++ table.quoted ++ " ALTER " ++ column.quoted ++ " TYPE " ++ type ++ ";"
  | createIndex table target =>
    "CREATE INDEX IF NOT EXISTS ON " ++ table.quoted ++ " (" ++ target.format ++ ");"
  | createCustomIndex table column implementation options =>
    "CREATE CUSTOM INDEX IF NOT EXISTS ON " ++ table.quoted ++ " (" ++ column.quoted ++
      ") USING " ++ literal implementation ++ optionsText options ++ ";"
  | dropIndex name ifExists => "DROP INDEX" ++ ifExistsText ifExists ++ " " ++ name.quoted ++ ";"
  | createView view table select key =>
    "CREATE MATERIALIZED VIEW IF NOT EXISTS " ++ view.quoted ++ " AS SELECT " ++
      selectText select ++ " FROM " ++ table.quoted ++ " WHERE " ++ notNullText key ++ " " ++
      primaryKeyText key ++ orderText key ++ ";"
  | dropView view ifExists =>
    "DROP MATERIALIZED VIEW" ++ ifExistsText ifExists ++ " " ++ view.quoted ++ ";"

end Ddl

end WideColumn
