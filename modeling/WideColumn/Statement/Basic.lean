import WideColumn.Statement.Ddl
import WideColumn.Statement.Row

/-!
# Statements

A statement is put together from accepted names, operands and relations. Its text and the values
to bind are functions of it.
-/

namespace WideColumn

/-- A statement. -/
inductive Statement where
  | select (s : SelectStatement)
  | insert (s : InsertStatement)
  | update (s : UpdateStatement)
  | delete (s : DeleteStatement)
  | truncate (table : Identifier)
  | define (d : Ddl Identifier)

namespace Statement

/-- The kind of a statement. -/
def kind : Statement → StatementKind
  | select _ => .select
  | insert _ => .insert
  | update _ => .update
  | delete _ => .delete
  | truncate _ => .truncate
  | define d => d.kind

/-- The text of a statement. -/
def render : Statement → String
  | select s => s.render
  | insert s => s.render
  | update s => s.render
  | delete s => s.render
  | truncate table => "TRUNCATE TABLE " ++ table.quoted ++ ";"
  | define d => d.render

/-- The values to bind, in the order of their placeholders. -/
def params : Statement → List Value
  | select s => s.params
  | insert s => s.params
  | update s => s.params
  | delete s => s.params
  | truncate _ | define _ => []

end Statement

end WideColumn
