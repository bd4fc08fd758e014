import WideColumn.Schema.Table
import WideColumn.CustomIndex
import WideColumn.Keyed

/-!
# The shape of a table

Two tables have the same shape when the store could not tell them apart: the same columns, keys,
orders, indexes and views, in whatever order and spelling they were declared. A shape is canonical
when types, index targets and orders are spelled out in the one usual way; `TableShape.canonical`
brings a shape into that form, and canonical shapes are equal exactly when the tables are.
-/

namespace WideColumn

/-- A column as the store has it. -/
structure Column where
  type : String
  argument : Option String := none
  isStatic : Bool := false
  deriving DecidableEq, Repr

namespace Column

/-- The text of the column's type. -/
def typeText (c : Column) : String := ColumnType.format c.type c.argument

/-- The column with its type spelled in the usual way. -/
def canonical (c : Column) : Column where
  type := ColumnType.canonicalName c.type
  argument := ColumnType.canonicalArgument c.argument
  isStatic := c.isStatic

end Column

/-- The structure of a table without the names of its indexes. -/
structure TableShape where
  columns : List (String × Column)
  partitionKey : List String
  clusteringKey : List String := []
  clusteringOrder : List (String × String) := []
  indexes : List String := []
  customIndexes : List (String × CustomIndex) := []
  views : List (String × View) := []

/-- The direction of each clustering column: the given one in capitals, ascending otherwise. -/
def canonicalOrder (key : List String) (order : List (String × String)) :
    List (String × String) :=
  Keyed.ofList (key.map fun c => (c, Text.upper ((Keyed.get? order c).getD "ASC")))

namespace View

/-- The view with its columns in order and every direction given. -/
def canonical (v : View) : View where
  select := if v.selectsAll then ["*"] else Ordered.distinct v.select
  partitionKey := v.partitionKey
  clusteringKey := v.clusteringKey
  clusteringOrder := canonicalOrder v.clusteringKey v.clusteringOrder

/-- The same columns and keys, and the same directions in any order. -/
def eqv (v w : View) : Bool :=
  v.select == w.select && v.partitionKey == w.partitionKey &&
    v.clusteringKey == w.clusteringKey &&
    Keyed.eqv (· == ·) v.clusteringOrder w.clusteringOrder

end View

namespace CustomIndex

/-- The index with blanks and quotes removed from its column and blanks from its implementation. -/
def canonical (i : CustomIndex) : CustomIndex where
  column := Text.strip (unquoted i.column)
  implementation := Text.strip i.implementation
  options := i.options

/-- The index that a declaration describes; options become texts. -/
def ofDeclaration (d : IndexDeclaration) : CustomIndex where
  column := d.column
  implementation := d.implementation
  options := d.options.map fun e => (e.1, e.2.display)

/-- The same column and implementation, and the same options in any order. -/
def eqv (i j : CustomIndex) : Bool :=
  i.column == j.column && i.implementation == j.implementation &&
    Keyed.eqv (· == ·) i.options j.options

/-- Put an index under its key before the first greater key. -/
def insertOrdered (i : CustomIndex) : List (String × CustomIndex) → List (String × CustomIndex)
  | [] => [(i.key, i)]
  | (k, j) :: rest =>
    if i.key < k then (i.key, i) :: (k, j) :: rest else (k, j) :: insertOrdered i rest

/-- Indexes in the order of their keys, each under its key; of two with one key the later one. -/
def keyed (is : List CustomIndex) : List (String × CustomIndex) :=
  Keyed.ofList (is.foldl (fun acc i => insertOrdered i acc) [])

end CustomIndex

namespace TableShape

/-- The columns of the key. -/
def keyColumns (s : TableShape) : List String := s.partitionKey ++ s.clusteringKey

/-- The canonical form of index targets. -/
def canonicalTargets (targets : List String) : Except String (List String) := do
  return Ordered.distinct ((← targets.mapM IndexTarget.ofText).map IndexTarget.canonical)

/-- The canonical form of a shape; a target that cannot be read has none. -/
def canonical (s : TableShape) : Except String TableShape := do
  return {
    columns := s.columns.map fun e => (e.1, e.2.canonical)
    partitionKey := s.partitionKey
    clusteringKey := s.clusteringKey
    clusteringOrder := canonicalOrder s.clusteringKey s.clusteringOrder
    indexes := ← canonicalTargets s.indexes
    customIndexes := CustomIndex.keyed (s.customIndexes.map fun e => e.2.canonical)
    views := s.views.map fun e => (e.1, e.2.canonical) }

/-- The same columns, keys, orders, indexes and views, in any order. -/
def eqv (s t : TableShape) : Bool :=
  Keyed.eqv (· == ·) s.columns t.columns && s.partitionKey == t.partitionKey &&
    s.clusteringKey == t.clusteringKey &&
    Keyed.eqv (· == ·) s.clusteringOrder t.clusteringOrder && s.indexes == t.indexes &&
    Keyed.eqv CustomIndex.eqv s.customIndexes t.customIndexes && Keyed.eqv View.eqv s.views t.views

/-- The same keys in the same order with the same directions. -/
def sameKey (s t : TableShape) : Bool :=
  s.partitionKey == t.partitionKey && s.clusteringKey == t.clusteringKey &&
    Keyed.eqv (· == ·) s.clusteringOrder t.clusteringOrder

end TableShape

namespace Field

/-- The column of a field. -/
def column (f : Field) : Column where
  type := f.type
  argument := f.argument
  isStatic := f.isStatic

end Field

namespace Table

/-- The shape of a declared table as it was declared. -/
def shape (t : Table) : TableShape where
  columns := t.storedFields.map fun f => (f.name, f.column)
  partitionKey := t.partitionKey
  clusteringKey := t.clusteringKey
  clusteringOrder := t.clusteringOrder
  indexes := t.indexes
  customIndexes := t.customIndexes.map fun d =>
    let i := CustomIndex.ofDeclaration d
    (i.key, i)
  views := t.views

end Table

end WideColumn
