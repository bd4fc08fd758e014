/-!
# Kinds of statements

Statements that read and write rows, and statements that define tables, indexes and views.
-/

namespace WideColumn

/-- The kind of a statement. -/
inductive StatementKind where
  | select
  | insert
  | update
  | delete
  | truncate
  | createTable
  | dropTable
  | alterTable
  | createIndex
  | createCustomIndex
  | dropIndex
  | createView
  | dropView
  deriving DecidableEq, Repr

/-- The name of a kind. -/
def StatementKind.name : StatementKind → String
  | .select => "SELECT"
  | .insert => "INSERT"
  | .update => "UPDATE"
  | .delete => "DELETE"
  | .truncate => "TRUNCATE"
  | .createTable => "CREATE_TABLE"
  | .dropTable => "DROP_TABLE"
  | .alterTable => "ALTER_TABLE"
  | .createIndex => "CREATE_INDEX"
  | .createCustomIndex => "CREATE_CUSTOM_INDEX"
  | .dropIndex => "DROP_INDEX"
  | .createView => "CREATE_MATERIALIZED_VIEW"
  | .dropView => "DROP_MATERIALIZED_VIEW"

/-- Every kind. -/
def StatementKind.all : List StatementKind := [
  .select, .insert, .update, .delete, .truncate, .createTable, .dropTable, .alterTable,
  .createIndex, .createCustomIndex, .dropIndex, .createView, .dropView]

/-- The name of the structure that asks for a statement of a kind. -/
def StatementKind.operationName : StatementKind → String
  | .select => "Select"
  | .insert => "Insert"
  | .update => "Update"
  | .delete => "Delete"
  | .truncate => "Truncate"
  | .createTable => "CreateTable"
  | .dropTable => "DropTable"
  | .alterTable => "AlterTable"
  | .createIndex => "CreateIndex"
  | .createCustomIndex => "CreateCustomIndex"
  | .dropIndex => "DropIndex"
  | .createView => "CreateMaterializedView"
  | .dropView => "DropMaterializedView"

/-- The kind whose operation has a given name. -/
def StatementKind.ofOperationName? (s : String) : Option StatementKind :=
  StatementKind.all.find? (·.operationName == s)

end WideColumn
