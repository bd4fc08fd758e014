import WideColumn.Schema.Live

/-!
# Differences between tables

What has to change for a live table to become a declared one, column by column, and which indexes
and views come and go. Both sides are compared in their canonical shapes, so that spelling and order
make no difference.
-/

namespace WideColumn

/-- An aspect of a column, in the order of precedence when several differ. -/
inductive ColumnAspect where
  | type
  | argument
  | isStatic
  deriving DecidableEq, Repr

/-- The name of an aspect. -/
def ColumnAspect.name : ColumnAspect → String
  | .type => "type"
  | .argument => "type_def"
  | .isStatic => "static"

/-- The first aspect in which two columns differ. -/
def Column.changedAspect? (old new : Column) : Option ColumnAspect :=
  if old.type ≠ new.type then some .type
  else if old.argument ≠ new.argument then some .argument
  else if old.isStatic ≠ new.isStatic then some .isStatic
  else none

/-- The difference of one column. -/
inductive ColumnDiff where
  | added (name : String) (new : Column)
  | removed (name : String) (old : Column)
  | changed (name : String) (aspect : ColumnAspect) (old new : Column)
  deriving DecidableEq

namespace ColumnDiff

/-- The column. -/
def name : ColumnDiff → String
  | added n _ | removed n _ | changed n _ _ _ => n

/-- The kind of difference in a word. -/
def kind : ColumnDiff → String
  | added .. => "added"
  | removed .. => "removed"
  | changed .. => "changed"

/-- The aspect that changed. -/
def aspect? : ColumnDiff → Option ColumnAspect
  | changed _ a _ _ => some a
  | _ => none

/-- The live column. -/
def old? : ColumnDiff → Option Column
  | added .. => none
  | removed _ old | changed _ _ old _ => some old

/-- The declared column. -/
def new? : ColumnDiff → Option Column
  | added _ new | changed _ _ _ new => some new
  | removed .. => none

/-- The path to what differs. -/
def path (d : ColumnDiff) : List String :=
  ["fields", d.name] ++ (d.aspect?.map ColumnAspect.name).toList

end ColumnDiff

/-- The differences between two tables. A view whose definition changed is both removed and
added. -/
structure SchemaDiff where
  columns : List ColumnDiff
  keyChanged : Bool
  addedIndexes : List String
  removedIndexes : List String
  addedCustomIndexes : List String
  removedCustomIndexes : List String
  addedViews : List String
  removedViews : List String

namespace SchemaDiff

/-- Nothing differs. -/
def isEmpty (d : SchemaDiff) : Bool :=
  d.columns.isEmpty && !d.keyChanged && d.addedIndexes.isEmpty && d.removedIndexes.isEmpty &&
    d.addedCustomIndexes.isEmpty && d.removedCustomIndexes.isEmpty && d.addedViews.isEmpty &&
    d.removedViews.isEmpty

/-- The columns with a kind of difference. -/
def ofKind (d : SchemaDiff) (kind : String) : List String :=
  (d.columns.filter fun c => c.kind == kind).map ColumnDiff.name

/-- The difference of a declared column from the live columns. -/
def columnDiff? (live : List (String × Column)) (e : String × Column) : Option ColumnDiff :=
  match Keyed.get? live e.1 with
  | none => some (.added e.1 e.2)
  | some old => (old.changedAspect? e.2).map fun a => .changed e.1 a old e.2

/-- The differences of columns: additions and changes in declared order, then removals in live
order. -/
def columnDiffs (live declared : List (String × Column)) : List ColumnDiff :=
  declared.filterMap (columnDiff? live) ++
    (live.filter fun e => (Keyed.get? declared e.1).isNone).map fun e => .removed e.1 e.2

/-- The texts of the first list that are not in the second, in order. -/
def less (xs ys : List String) : List String :=
  Ordered.distinct (xs.filter fun x => !ys.contains x)

/-- The names of views of the first list that the second does not have in the same form. -/
def changedViews (xs ys : List (String × View)) : List String :=
  Ordered.distinct ((xs.filter fun e => !Keyed.holds View.eqv ys e.1 e.2).map (·.1))

/-- The differences between two shapes. -/
def between (live declared : TableShape) : SchemaDiff where
  columns := columnDiffs live.columns declared.columns
  keyChanged := !live.sameKey declared
  addedIndexes := less declared.indexes live.indexes
  removedIndexes := less live.indexes declared.indexes
  addedCustomIndexes := less (Keyed.names declared.customIndexes) (Keyed.names live.customIndexes)
  removedCustomIndexes :=
    less (Keyed.names live.customIndexes) (Keyed.names declared.customIndexes)
  addedViews := changedViews declared.views live.views
  removedViews := changedViews live.views declared.views

end SchemaDiff

/-- The differences between a live and a declared table. -/
def Describable.diff (live declared : Describable) : Except Failure SchemaDiff :=
  return SchemaDiff.between (← live.shape) (← declared.shape)

end WideColumn
