import WideColumn.Arguments
import WideColumn.Sorting
import WideColumn.Schema.Live
import WideColumn.Schema.Definition

/-!
# Introspection

Reads a live table from the tables in which the store describes itself: one row for each column,
index and view. Rows may come in any order; key columns are ordered by their positions.
-/

namespace WideColumn

namespace Introspection

open Coercion

/-- A row by the names of its columns. -/
abbrev Row := List (Value × Value)

/-- A part of a row that has to be there. -/
def requiredPart (row : Row) (name : String) : Except Failure Value :=
  match Value.get? row name with
  | some v => .ok v
  | none => .error (.absentKey name)

/-- A part of a row; null when it is not there. -/
def part (row : Row) (name : String) : Value := (Value.get? row name).getD .null

/-- The row is of a kind. -/
def isKind (kind : String) (row : Row) : Bool := (part row "kind").eqv (.text kind)

/-! ## Order -/

/-- Rows in the order of their keys; keys that have no order fail. -/
def sortByKey (rows : List (Value × Row)) : Except Failure (List (Value × Row)) :=
  (Sorting.sort (fun e f => Value.less e.1 f.1) rows).mapError (Failure.ofUnordered "<")

/-- The names of the columns of a kind, by position. -/
def keyColumns (rows : List Row) (kind : String) : Except Failure (List Value) := do
  let keyed := (rows.filter (isKind kind)).map fun row =>
    ((Value.get? row "position").getD (.int 0), row)
  (← sortByKey keyed).mapM fun e => requiredPart e.2 "column_name"

/-- The direction of a clustering column in capitals; ascending when none is given. -/
def direction (row : Row) : String :=
  let order := part row "clustering_order"
  Text.upper (if order.isTrue then order.display else "asc")

/-- Put values under keys one after the other. -/
def putAll {α : Type} (es : List (Value × α)) : List (Value × α) :=
  let put (acc : List (Value × α)) (e : Value × α) : List (Value × α) :=
    if acc.any fun f => e.1.eqv f.1 then acc.map fun f => if e.1.eqv f.1 then (f.1, e.2) else f
    else acc ++ [e]
  es.foldl put []

/-- The directions of the clustering columns. -/
def clusteringOrder (rows : List Row) : Except Failure (List (Value × Value)) := do
  let entries ← (rows.filter (isKind "clustering")).mapM fun row => do
    let name ← requiredPart row "column_name"
    name.checkKey
    return (name, Value.text (direction row))
  return putAll entries

/-! ## Columns -/

/-- A column with its name. -/
def column (row : Row) : Except Failure (Value × Column) := do
  let (name, argument) ← ColumnType.split (← requiredPart row "type")
  let c : Column := {
    type := ColumnType.canonicalName name
    argument := ColumnType.canonicalArgument argument
    isStatic := isKind "static" row }
  let key ← requiredPart row "column_name"
  key.checkKey
  return (key, c)

/-! ## Indexes -/

/-- An index read from a row: its name under its target, or a custom index with its name. -/
inductive FoundIndex where
  | onTarget (target : String) (name : Value)
  | custom (index : CustomIndex) (name : Value)

/-- The entries without a key. -/
def without (key : String) (es : List (Value × Value)) : List (Value × Value) :=
  es.filter fun e => !e.1.eqv (.text key)

/-- A custom index from its options, in which its target and its implementation stand too. -/
def customIndex (target : Value) (options : List (Value × Value)) : Except Failure CustomIndex := do
  let target ← IndexTarget.ofValue target
  let implementation := (Value.get? options "class_name").getD (.text "")
  let own := without "class_name" options
  (CustomIndex.mk target.column
    <$> (text implementation).under "using"
    <*> pure (Keyed.ofList (own.map fun e => (e.1.display, e.2.display)))).toExcept
      "NormalizedCustomIndex"

/-- Read an index. -/
def index (row : Row) : Except Failure FoundIndex := do
  let given := part row "options"
  let options ← if given.isTrue then given.toEntries else .ok []
  let target := (Value.get? options "target").getD (.text "")
  if isKind "CUSTOM" row then
    let i ← customIndex target (without "target" options)
    return .custom i (← requiredPart row "index_name")
  else
    let target ← IndexTarget.ofValue target
    return .onTarget target.canonical (← requiredPart row "index_name")

/-! ## Queries -/

/-- Query a system table. A failure that is not a refusal becomes one that tells the statement. -/
def query (table : SystemTable) (params : List Value) : Action (List Row) := do
  let outcome ← Action.attempt do
    let rows ← Store.run table.query params .definition
    Action.lift (rows.mapM Value.toEntries)
  match outcome with
  | .ok rows => pure rows
  | .error (.refusal r) => throw (.refusal r)
  | .error f => Action.refuse (Refusal.definitionFailed .schemaQuery f.toCause (.text table.query))

/-- The names of all columns in order. -/
def columnNames (rows : List Row) : Except Failure (List Value) := do
  let named ← rows.mapM fun row => return (← requiredPart row "column_name", row)
  return (← sortByKey named).map (·.1)

/-- A view from its row and the rows of its columns. -/
def view (row : Row) (columns : List Row) : Except Failure View := do
  let clustering ← keyColumns columns "clustering"
  let select ← if (part row "include_all_columns").isTrue then pure [Value.text "*"]
    else columnNames columns
  let partition ← keyColumns columns "partition_key"
  let order ← clusteringOrder columns
  (View.mk <$> (positioned text select).under "select"
    <*> (positioned text partition).under "partition_key"
    <*> (positioned text clustering).under "clustering_key"
    <*> (mapOf text (.map order)).under "clustering_order").toExcept "NormalizedView"

/-- Read the views one after the other, each with a query for its columns. -/
def views (keyspace : Value) : List Row → Action (List (Value × View))
  | [] => pure []
  | row :: rows => do
    let name ← Action.lift (requiredPart row "view_name")
    let columns ← query .columns [keyspace, name]
    let v ← Action.lift (view row columns)
    Action.lift name.checkKey
    return (name, v) :: (← views keyspace rows)

/-- The names that indexes on targets have. -/
def targetNames (found : List FoundIndex) : List (Value × Value) :=
  Introspection.putAll (found.filterMap fun
    | .onTarget target name => some (.text target, name)
    | .custom .. => none)

/-- The names that custom indexes have. -/
def customNames (found : List FoundIndex) : List (Value × Value) :=
  Introspection.putAll (found.filterMap fun
    | .onTarget .. => none
    | .custom i name => some (.text i.key, name))

/-- The custom indexes under their keys. -/
def customIndexes (found : List FoundIndex) : List (String × CustomIndex) :=
  Keyed.ofList (found.filterMap fun
    | .onTarget .. => none
    | .custom i _ => some (i.key, i))

/-- The targets of indexes, as often as they were found. -/
def targets (found : List FoundIndex) : List String :=
  found.filterMap fun
    | .onTarget target _ => some target
    | .custom .. => none

/-- Put a live table together from what was read. -/
def assemble (table : String) (rows : List Row) (columns : List (Value × Column))
    (found : List FoundIndex) (views : List (Value × View)) : Except Failure LiveTable := do
  let partition ← keyColumns rows "partition_key"
  let clustering ← keyColumns rows "clustering"
  let order ← clusteringOrder rows
  let shape := TableShape.mk <$> (keyed columns).under "fields"
    <*> (positioned text partition).under "partition_key"
    <*> (positioned text clustering).under "clustering_key"
    <*> (mapOf text (.map order)).under "clustering_order"
    <*> pure (Ordered.all (targets found))
    <*> pure (customIndexes found)
    <*> (keyed views).under "materialized_views"
  (LiveTable.mk <$> shape
    <*> pure table
    <*> (mapOf text (.map (targetNames found))).under "index_names"
    <*> (mapOf text (.map (customNames found))).under "custom_index_names").toExcept "LiveSchema"

/-- The name of the journal of introspection. -/
def logger : String := "cqlflow.schema.live"

/-- A number of things as a value. -/
def countOf {α : Type} (xs : List α) : Value := .int xs.length

/-- Read a table; there is none when it has no columns. -/
def read (keyspace : Value) (table : String) : Action (Option LiveTable) := do
  let about := [keyspace, .text table]
  match ← query .columns about with
  | [] =>
    Action.note 10 logger "schema.live.absent" [("table", .text table), ("keyspace", keyspace)]
    return none
  | rows =>
    -- what cannot be parsed in the rows is outside of what a query wraps
    let columns := putAll (← Action.lift (rows.mapM column))
    let found ← Action.lift ((← query .indexes about).mapM index)
    let views := putAll (← views keyspace (← query .views about))
    let live ← Action.lift (assemble table rows columns found views)
    Action.note 10 logger "schema.live.fetched" [
      ("table", .text table), ("columns", countOf columns), ("indexes", countOf (targets found)),
      ("custom_indexes", countOf (customIndexes found)), ("views", countOf views)]
    return some live

end Introspection

/-- Read a live table of a keyspace from the store, inside a span. -/
def LiveTable.fetch (keyspace : Value) (table : String) : Action (Option LiveTable) :=
  Action.traced "cqlflow.schema.fetch_live_schema" [] (Introspection.read keyspace table)

end WideColumn
