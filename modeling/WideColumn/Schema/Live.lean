import WideColumn.Schema.Shape

/-!
# Live tables

A table as the store has it: its shape, and the names of its indexes, by which they are dropped.
The helpers give the table after one thing was taken away or added, and what depends on a column.
-/

namespace WideColumn

/-- A table of the store. The names of indexes are under their targets, those of custom indexes
under their keys. -/
structure LiveTable extends TableShape where
  table : String
  indexNames : List (String × String) := []
  customIndexNames : List (String × String) := []

/-- What refers to a column. -/
structure Dependents where
  indexes : List String
  customIndexes : List String
  views : List String

/-- The view selects the column, or has it in its key. -/
def View.dependsOn (v : View) (column : String) : Bool :=
  v.selectsAll || v.select.contains column || v.keyColumns.contains column

namespace LiveTable

/-- The targets that are on a column; one that cannot be read fails. -/
def indexesOn (column : String) (targets : List String) : Except String (List String) := do
  let read ← targets.mapM fun s => return (s, ← IndexTarget.ofText s)
  return (read.filter fun e => e.2.column == column).map (·.1)

/-- The indexes, custom indexes and views that refer to a column. -/
def dependentsOf (l : LiveTable) (column : String) : Except Failure Dependents :=
  match indexesOn column l.indexes with
  | .error message => .error (.badValue message)
  | .ok indexes => .ok {
      indexes
      customIndexes := (l.customIndexes.filter fun e => e.2.column == column).map (·.1)
      views := (l.views.filter fun e => e.2.dependsOn column).map (·.1) }

/-- The table without a column. -/
def withoutColumn (l : LiveTable) (column : String) : LiveTable :=
  { l with columns := Keyed.erase column l.columns }

/-- The table with a column, in place of one of the same name. -/
def withColumn (l : LiveTable) (name : String) (c : Column) : LiveTable :=
  { l with columns := Keyed.put name c l.columns }

/-- The table without an index. -/
def withoutIndex (l : LiveTable) (target : String) : LiveTable :=
  { l with
    indexes := l.indexes.filter (· != target)
    indexNames := Keyed.erase target l.indexNames }

/-- The table without a custom index. -/
def withoutCustomIndex (l : LiveTable) (key : String) : LiveTable :=
  { l with
    customIndexes := Keyed.erase key l.customIndexes
    customIndexNames := Keyed.erase key l.customIndexNames }

/-- The table without a view. -/
def withoutView (l : LiveTable) (view : String) : LiveTable :=
  { l with views := Keyed.erase view l.views }

end LiveTable

/-- Something whose shape may be asked for. -/
inductive Describable where
  | declared (t : Table)
  | live (l : LiveTable)
  /-- A value of a class that has no shape. -/
  | other (className : String)

namespace Describable

/-- The canonical form of a shape; an index target that cannot be read is refused. -/
def canonicalOf (s : TableShape) : Except Failure TableShape :=
  match s.canonical with
  | .ok s => .ok s
  | .error message => .error (.refusal (Refusal.invalidSchema
      (.text ("Schema normalization failed: " ++ message)) .null .null []
      (some ⟨ExceptionKind.badValue.name, message, true⟩)))

/-- The canonical shape. -/
def shape : Describable → Except Failure TableShape
  | declared t => canonicalOf t.shape
  | live l => canonicalOf l.toTableShape
  | other className => .error (.refusal (Refusal.invalidSchema
      (.text ("Cannot normalize object of type " ++ className))))

end Describable

end WideColumn
