import WideColumn.Operation.Definition
import WideColumn.Operation.Row

/-!
# Operations

An operation says what is to be done on one table, as plain data. It is put together from named
arguments and can be shown as a map again.
-/

namespace WideColumn

/-- An operation on a table. -/
inductive Operation where
  | select (o : Selection)
  | insert (o : Insertion)
  | update (o : Modification)
  | delete (o : Deletion)
  | truncate (o : Truncation)
  | createTable (o : TableCreation)
  | dropTable (o : TableRemoval)
  | alterTable (o : ColumnChange)
  | createIndex (o : IndexCreation)
  | createCustomIndex (o : CustomIndexCreation)
  | dropIndex (o : IndexRemoval)
  | createView (o : ViewCreation)
  | dropView (o : ViewRemoval)

namespace Operation

/-- The kind of the statement that is asked for. -/
def kind : Operation → StatementKind
  | select _ => .select
  | insert _ => .insert
  | update _ => .update
  | delete _ => .delete
  | truncate _ => .truncate
  | createTable _ => .createTable
  | dropTable _ => .dropTable
  | alterTable _ => .alterTable
  | createIndex _ => .createIndex
  | createCustomIndex _ => .createCustomIndex
  | dropIndex _ => .dropIndex
  | createView _ => .createView
  | dropView _ => .dropView

/-- The table. -/
def table : Operation → String
  | select o => o.table
  | insert o => o.table
  | update o => o.table
  | delete o => o.table
  | truncate o => o.table
  | createTable o => o.table
  | dropTable o => o.table
  | alterTable o => o.table
  | createIndex o => o.table
  | createCustomIndex o => o.table
  | dropIndex o => o.table
  | createView o => o.table
  | dropView o => o.table

/-- The members after the kind and the table; those without a value are left out. -/
def members : Operation → List (String × Value)
  | select o => o.toEntries
  | insert o => o.toEntries
  | update o => o.toEntries
  | delete o => o.toEntries
  | truncate _ => []
  | createTable o => o.toEntries
  | dropTable o => o.toEntries
  | alterTable o => o.toEntries
  | createIndex o => o.toEntries
  | createCustomIndex o => o.toEntries
  | dropIndex o => o.toEntries
  | createView o => o.toEntries
  | dropView o => o.toEntries

/-- The operation as a map in which tuples are lists. -/
def toMap (o : Operation) : Value :=
  (Value.ofEntries ([("operation_type", .text o.kind.name), ("table_name", .text o.table)] ++
    o.members)).listed

/-- An operation of a kind given as data. -/
def ofEntries (k : StatementKind) (es : List (Value × Value)) : Checked Operation :=
  match k with
  | .select => select <$> Selection.ofEntries es
  | .insert => insert <$> Insertion.ofEntries es
  | .update => update <$> Modification.ofEntries es
  | .delete => delete <$> Deletion.ofEntries es
  | .truncate => truncate <$> Truncation.ofEntries es
  | .createTable => createTable <$> TableCreation.ofEntries es
  | .dropTable => dropTable <$> TableRemoval.ofEntries es
  | .alterTable => alterTable <$> ColumnChange.ofEntries es
  | .createIndex => createIndex <$> IndexCreation.ofEntries es
  | .createCustomIndex => createCustomIndex <$> CustomIndexCreation.ofEntries es
  | .dropIndex => dropIndex <$> IndexRemoval.ofEntries es
  | .createView => createView <$> ViewCreation.ofEntries es
  | .dropView => dropView <$> ViewRemoval.ofEntries es

/-- An operation from named arguments, on a given table unless the arguments name one. -/
def ofArguments (k : StatementKind) (table : String) (arguments : List (Value × Value)) :
    Except Failure Operation :=
  if arguments.all fun e => e.1.text?.isSome then
    let es := arguments.foldl (fun es e => Value.insertEntry e.1 e.2 es)
      [(.text "table_name", .text table)]
    (ofEntries k es).toExcept k.operationName
  else .error .badType

end Operation

end WideColumn
