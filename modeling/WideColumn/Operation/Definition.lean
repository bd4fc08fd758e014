import WideColumn.Operation.Member
import WideColumn.Refusal.Basic
import WideColumn.Statement.Ddl
import WideColumn.Text.Case

/-!
# Operations on tables

What is asked for when a table, an index or a view is created, changed or dropped. An operation is
given as data (`ofEntries`) or put together from parts (`checked`); either way its parts keep the
same rules. `ddl` gives the definition that it stands for, over names as they were given.
-/

namespace WideColumn

open Coercion

/-- A column of a table to be created. -/
structure ColumnSpec where
  name : String
  typeText : String
  isStatic : Bool

namespace ColumnSpec

/-- A column given as data. -/
def coercion : Coercion ColumnSpec := structureOf "ColumnDefinition" fun es =>
  ColumnSpec.mk <$> required es "name" (textWithin 1)
    <*> required es "cql_type" (textWithin 1)
    <*> defaulted es "static" false truth

/-- A column as a map. -/
def toValue (c : ColumnSpec) : Value := .ofEntries [
  ("name", .text c.name), ("cql_type", .text c.typeText), ("static", .bool c.isStatic)]

end ColumnSpec

/-- The key of a table or view to be created, with directions for some clustering columns. -/
structure KeySpec where
  partition : List String
  clustering : List String
  order : List (String × String)

namespace KeySpec

/-- A key from the members of an operation. -/
def ofEntries (es : List (Value × Value)) : Checked KeySpec :=
  KeySpec.mk <$> required es "partition_key" (nonEmptyListOf text)
    <*> defaulted es "clustering_key" [] (listOf text)
    <*> defaulted es "clustering_order" [] (mapOf text)

/-- A key from its parts. -/
def checked (k : KeySpec) : Checked KeySpec :=
  (fun _ => k) <$> (nonEmptyListOf text (.ofTexts k.partition)).under "partition_key"

/-- The members of an operation that give the key. -/
def toEntries (k : KeySpec) : List (String × Value) := [
  ("partition_key", .ofTexts k.partition), ("clustering_key", .ofTexts k.clustering),
  ("clustering_order", .ofEntries (k.order.map fun o => (o.1, .text o.2)))]

/-- The direction of a clustering column; ascending when none is given. -/
def direction (k : KeySpec) (column : String) : String :=
  match k.order.find? fun o => o.1 == column with
  | some o => Text.upper o.2
  | none => "ASC"

/-- The key as a statement writes it. The order is written when any direction is given. -/
def clause (k : KeySpec) : KeyClause String where
  partition := k.partition
  clustering := k.clustering.map fun c => (c, k.direction c)
  ordered := !k.order.isEmpty

end KeySpec

/-- The creation of a table. -/
structure TableCreation where
  table : String
  columns : List ColumnSpec
  key : KeySpec

namespace TableCreation

/-- Every key column is a column. -/
def checkKey (found : Value) (o : TableCreation) : Checked TableCreation :=
  let names := o.columns.map (·.name)
  let absent := (o.key.partition ++ o.key.clustering).filter fun c => !names.contains c
  if absent.isEmpty then .ok o
  else broken ("Key columns " ++ (Value.ofTexts absent).spelled ++ " are not defined in table '" ++
    o.table ++ "'") found

/-- A creation given as data. -/
def ofEntries (es : List (Value × Value)) : Checked TableCreation :=
  (TableCreation.mk <$> Member.table .createTable es
    <*> required es "columns" (nonEmptyListOf ColumnSpec.coercion)
    <*> KeySpec.ofEntries es).andThen (checkKey (.map es))

/-- The members of the operation after its table. -/
def toEntries (o : TableCreation) : List (String × Value) :=
  ("columns", .list (o.columns.map ColumnSpec.toValue)) :: o.key.toEntries

/-- A creation from its parts. -/
def checked (o : TableCreation) : Checked TableCreation :=
  ((fun _ _ _ => o) <$> (Member.tableName (.text o.table)).under "table_name"
    <*> (nonEmptyListOf ColumnSpec.coercion (.list (o.columns.map ColumnSpec.toValue))).under
      "columns"
    <*> o.key.checked).andThen
      (checkKey (.ofEntries (("table_name", .text o.table) :: o.toEntries)))

/-- The definition. -/
def ddl (o : TableCreation) : Ddl String :=
  .createTable o.table
    (o.columns.map fun c => ⟨c.name, c.typeText, c.isStatic⟩) o.key.clause

end TableCreation

/-- The removal of a table. -/
structure TableRemoval where
  table : String
  ifExists : Bool := true

namespace TableRemoval

/-- A removal given as data. -/
def ofEntries (es : List (Value × Value)) : Checked TableRemoval :=
  TableRemoval.mk <$> Member.table .dropTable es <*> defaulted es "if_exists" true truth

/-- A removal from its parts. -/
def checked (o : TableRemoval) : Checked TableRemoval :=
  (fun _ => o) <$> (Member.tableName (.text o.table)).under "table_name"

/-- The members of the operation after its table. -/
def toEntries (o : TableRemoval) : List (String × Value) := [("if_exists", .bool o.ifExists)]

/-- The definition. -/
def ddl (o : TableRemoval) : Ddl String := .dropTable o.table o.ifExists

end TableRemoval

/-- What is done to a column. -/
inductive ColumnAction where
  | add
  | drop
  | retype
  deriving DecidableEq, Repr

namespace ColumnAction

/-- The keyword of an action. -/
def keyword : ColumnAction → String
  | add => "ADD"
  | drop => "DROP"
  | retype => "ALTER"

/-- An action given as data. -/
def coercion : Coercion ColumnAction :=
  wordOf (fun s => [add, drop, retype].find? fun a => a.keyword == s) "'ADD', 'DROP' or 'ALTER'"

end ColumnAction

/-- The change of a column. -/
structure ColumnChange where
  table : String
  action : ColumnAction
  column : String
  typeText : Option String := none
  isStatic : Bool := false

namespace ColumnChange

/-- A type is given exactly where the column gets one. -/
def checkType (found : Value) (o : ColumnChange) : Checked ColumnChange :=
  let isTyped := !(o.typeText.getD "").isEmpty
  match o.action, isTyped with
  | .drop, true => broken "ALTER TABLE DROP does not take a column type" found
  | .drop, false => .ok o
  | _, true => .ok o
  | a, false => broken ("ALTER TABLE " ++ a.keyword ++ " requires a column type") found

/-- A change given as data. -/
def ofEntries (es : List (Value × Value)) : Checked ColumnChange :=
  (ColumnChange.mk <$> Member.table .alterTable es
    <*> required es "action" ColumnAction.coercion
    <*> required es "column" (textWithin 1)
    <*> defaulted es "cql_type" none (nullable text)
    <*> defaulted es "static" false truth).andThen (checkType (.map es))

/-- The members of the operation after its table. -/
def toEntries (o : ColumnChange) : List (String × Value) :=
  [("action", .text o.action.keyword), ("column", .text o.column)] ++
    (o.typeText.map fun t => ("cql_type", Value.text t)).toList ++ [("static", .bool o.isStatic)]

/-- A change from its parts. -/
def checked (o : ColumnChange) : Checked ColumnChange :=
  ((fun _ _ => o) <$> (Member.tableName (.text o.table)).under "table_name"
    <*> (textWithin 1 none (.text o.column)).under "column").andThen
      (checkType (.ofEntries (("table_name", .text o.table) :: o.toEntries)))

/-- The definition. -/
def ddl (o : ColumnChange) : Ddl String :=
  match o.action with
  | .add => .addColumn o.table o.column (o.typeText.getD "") o.isStatic
  | .drop => .dropColumn o.table o.column
  | .retype => .retypeColumn o.table o.column (o.typeText.getD "")

end ColumnChange

/-- The creation of an index. -/
structure IndexCreation where
  table : String
  target : String

namespace IndexCreation

/-- A creation given as data. -/
def ofEntries (es : List (Value × Value)) : Checked IndexCreation :=
  IndexCreation.mk <$> Member.table .createIndex es <*> required es "target" (textWithin 1)

/-- A creation from its parts. -/
def checked (o : IndexCreation) : Checked IndexCreation :=
  (fun _ _ => o) <$> (Member.tableName (.text o.table)).under "table_name"
    <*> (textWithin 1 none (.text o.target)).under "target"

/-- The members of the operation after its table. -/
def toEntries (o : IndexCreation) : List (String × Value) := [("target", .text o.target)]

/-- The definition; a target that cannot be read is refused. -/
def ddl (o : IndexCreation) : Except Failure (Ddl String) :=
  match IndexTarget.ofText o.target with
  | .ok target => .ok (.createIndex o.table target)
  | .error message =>
    .error (.refusal (Refusal.invalidSchema (.text message) (.text o.table)))

end IndexCreation

/-- The creation of a custom index. -/
structure CustomIndexCreation where
  table : String
  column : String
  implementation : String
  options : List (String × Value)

namespace CustomIndexCreation

/-- A creation given as data. -/
def ofEntries (es : List (Value × Value)) : Checked CustomIndexCreation :=
  CustomIndexCreation.mk <$> Member.table .createCustomIndex es
    <*> required es "on" (textWithin 1)
    <*> required es "using" (textWithin 1)
    <*> defaulted es "options" [] (mapOf any)

/-- A creation from its parts. -/
def checked (o : CustomIndexCreation) : Checked CustomIndexCreation :=
  (fun _ _ _ => o) <$> (Member.tableName (.text o.table)).under "table_name"
    <*> (textWithin 1 none (.text o.column)).under "on"
    <*> (textWithin 1 none (.text o.implementation)).under "using"

/-- The members of the operation after its table. -/
def toEntries (o : CustomIndexCreation) : List (String × Value) := [
  ("on", .text o.column), ("using", .text o.implementation), ("options", .ofEntries o.options)]

/-- The definition. -/
def ddl (o : CustomIndexCreation) : Ddl String :=
  .createCustomIndex o.table o.column o.implementation
    (o.options.map fun e => (e.1, e.2.display))

end CustomIndexCreation

/-- The removal of an index by its name. -/
structure IndexRemoval where
  table : String
  name : String
  ifExists : Bool := true

namespace IndexRemoval

/-- A removal given as data. -/
def ofEntries (es : List (Value × Value)) : Checked IndexRemoval :=
  IndexRemoval.mk <$> Member.table .dropIndex es
    <*> required es "index_name" (textWithin 1)
    <*> defaulted es "if_exists" true truth

/-- A removal from its parts. -/
def checked (o : IndexRemoval) : Checked IndexRemoval :=
  (fun _ _ => o) <$> (Member.tableName (.text o.table)).under "table_name"
    <*> (textWithin 1 none (.text o.name)).under "index_name"

/-- The members of the operation after its table. -/
def toEntries (o : IndexRemoval) : List (String × Value) := [
  ("index_name", .text o.name), ("if_exists", .bool o.ifExists)]

/-- The definition. -/
def ddl (o : IndexRemoval) : Ddl String := .dropIndex o.name o.ifExists

end IndexRemoval

/-- The creation of a view. -/
structure ViewCreation where
  table : String
  view : String
  select : List String
  key : KeySpec

namespace ViewCreation

/-- A creation given as data. -/
def ofEntries (es : List (Value × Value)) : Checked ViewCreation :=
  ViewCreation.mk <$> Member.table .createView es
    <*> required es "view_name" Member.viewName
    <*> defaulted es "select" ["*"] (listOf text)
    <*> KeySpec.ofEntries es

/-- A creation from its parts. -/
def checked (o : ViewCreation) : Checked ViewCreation :=
  (fun _ _ _ => o) <$> (Member.tableName (.text o.table)).under "table_name"
    <*> (Member.viewName (.text o.view)).under "view_name"
    <*> o.key.checked

/-- The members of the operation after its table. -/
def toEntries (o : ViewCreation) : List (String × Value) :=
  [("view_name", .text o.view), ("select", .ofTexts o.select)] ++ o.key.toEntries

/-- The definition. -/
def ddl (o : ViewCreation) : Ddl String :=
  .createView o.view o.table (if o.select.contains "*" then none else some o.select) o.key.clause

end ViewCreation

/-- The removal of a view. -/
structure ViewRemoval where
  table : String
  view : String
  ifExists : Bool := true

namespace ViewRemoval

/-- A removal given as data. -/
def ofEntries (es : List (Value × Value)) : Checked ViewRemoval :=
  ViewRemoval.mk <$> Member.table .dropView es
    <*> required es "view_name" Member.viewName
    <*> defaulted es "if_exists" true truth

/-- A removal from its parts. -/
def checked (o : ViewRemoval) : Checked ViewRemoval :=
  (fun _ _ => o) <$> (Member.tableName (.text o.table)).under "table_name"
    <*> (Member.viewName (.text o.view)).under "view_name"

/-- The members of the operation after its table. -/
def toEntries (o : ViewRemoval) : List (String × Value) := [
  ("view_name", .text o.view), ("if_exists", .bool o.ifExists)]

/-- The definition. -/
def ddl (o : ViewRemoval) : Ddl String := .dropView o.view o.ifExists

end ViewRemoval

end WideColumn
