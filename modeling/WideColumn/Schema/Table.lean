import WideColumn.Schema.Field
import WideColumn.IndexTarget
import WideColumn.Refusal.Basic

/-!
# Declared tables

The declaration of a table: its fields, its key, the order within a partition, indexes, views over
the same rows and hooks around writes. A draft holds the parts as they were given; `register`
checks that they fit together, so that every statement that creates the table can be built.
-/

namespace WideColumn

/-- A view that the store keeps over the rows of a table, under a key of its own. -/
structure View where
  select : List String
  partitionKey : List String
  clusteringKey : List String
  clusteringOrder : List (String × String)
  deriving DecidableEq, Repr

namespace View

/-- The columns of the key. -/
def keyColumns (v : View) : List String := v.partitionKey ++ v.clusteringKey

/-- The view has every column of the table. -/
def selectsAll (v : View) : Bool := v.select.contains "*"

end View

/-- A declared index with an implementation and options. -/
structure IndexDeclaration where
  column : String
  implementation : String
  options : List (String × Value)

/-- A lifecycle hook: before or after a kind of write. -/
inductive HookName where
  | beforeSave
  | afterSave
  | beforeUpdate
  | afterUpdate
  | beforeDelete
  | afterDelete
  deriving DecidableEq, Repr

namespace HookName

/-- Every hook, in the order in which hooks are listed. -/
def all : List HookName :=
  [.beforeSave, .afterSave, .beforeUpdate, .afterUpdate, .beforeDelete, .afterDelete]

/-- The name of a hook. -/
def name : HookName → String
  | .beforeSave => "before_save"
  | .afterSave => "after_save"
  | .beforeUpdate => "before_update"
  | .afterUpdate => "after_update"
  | .beforeDelete => "before_delete"
  | .afterDelete => "after_delete"

/-- The hook with a given name. -/
def ofName? (s : String) : Option HookName := all.find? (·.name == s)

end HookName

/-- The parts of a declaration before they are checked against each other. -/
structure TableDraft where
  name : String
  fields : List (String × Field)
  partitionKey : List String
  clusteringKey : List String := []
  clusteringOrder : List (String × String) := []
  indexes : List String := []
  customIndexes : List IndexDeclaration := []
  views : List (String × View) := []
  defaultTtl : Option Int := none
  hooks : List (String × Value) := []

/-- A declared table. -/
structure Table where
  name : String
  fields : List Field
  partitionKey : List String
  clusteringKey : List String
  clusteringOrder : List (String × String)
  indexes : List String
  customIndexes : List IndexDeclaration
  views : List (String × View)
  defaultTtl : Option Int
  hooks : List (HookName × Value)

namespace Table

/-- The columns of the key. -/
def keyColumns (t : Table) : List String := t.partitionKey ++ t.clusteringKey

/-- The field with a given name. -/
def field? (t : Table) (name : String) : Option Field := t.fields.find? (·.name == name)

/-- The fields that are columns. -/
def storedFields (t : Table) : List Field := t.fields.filter fun f => !f.isVirtual

/-- The name is in the key. -/
def isKey (t : Table) (name : String) : Bool := t.keyColumns.contains name

/-- The name of a field's type. -/
def typeOf? (t : Table) (name : String) : Option String := (t.field? name).map (·.type)

/-- The view with a given name. -/
def view? (t : Table) (name : String) : Option View :=
  (t.views.find? fun v => v.1 == name).map (·.2)

/-- The hook with a given name. -/
def hook? (t : Table) (name : HookName) : Option Value :=
  (t.hooks.find? fun h => h.1 == name).map (·.2)

end Table

namespace TableDraft

/-- Fail with an invalid definition. -/
def invalid {α : Type} (table message : String) (field : Option String := none) :
    Except Failure α :=
  .error (.refusal (Refusal.invalidSchema (.text message) (.text table)
    ((field.map Value.text).getD .null)))

/-- The columns of the key. -/
def keyColumns (d : TableDraft) : List String := d.partitionKey ++ d.clusteringKey

/-- The field registered under a name. -/
def field? (d : TableDraft) (name : String) : Option Field :=
  (d.fields.find? fun f => f.1 == name).map (·.2)

/-- The name of the table or of a view is allowed. -/
def checkName (s : String) : Except Failure Unit :=
  if Name.isTable s then .ok () else .error (.refusal (Refusal.invalidTableName (.text s)))

/-- A default that is a plain value has to be one that the column accepts. -/
def defaultFits (type : ColumnType) (default : Value) : Bool :=
  match default with
  | .missing | .null => true
  | v => v.isCallable || v.isStoreFunction || type.accepts v

/-- A field has a known type, with an argument where one is needed, and a default that fits. -/
def checkField (table : String) (f : Field) : Except Failure Unit :=
  match f.columnType? with
  | none =>
    invalid table ("Field '" ++ f.name ++ "' has unknown type '" ++ f.type ++ "'") (some f.name)
  | some type =>
    if type.needsArgument && (f.argument.getD "").isEmpty then
      invalid table ("Field '" ++ f.name ++ "' of type '" ++ f.type ++
        "' requires a type_def such as '<text>'") (some f.name)
    else if defaultFits type f.default then .ok ()
    else invalid table ("Default value for '" ++ f.name ++ "' is not a valid " ++ f.type)
      (some f.name)

/-- A field is registered under its own name. -/
def checkEntry (table : String) (e : String × Field) : Except Failure Unit :=
  if e.2.name = e.1 then checkField table e.2
  else invalid table ("Field registered as '" ++ e.1 ++ "' is named '" ++ e.2.name ++ "'")
    (some e.1)

/-- A key column is a field that is a column, and not a static one. -/
def checkKeyColumn (d : TableDraft) (column : String) : Except Failure Unit :=
  match d.field? column with
  | none => invalid d.name ("Key column '" ++ column ++ "' is not a declared field") (some column)
  | some f =>
    if f.isVirtual || f.isStatic then
      invalid d.name ("Key column '" ++ column ++ "' cannot be virtual or static") (some column)
    else .ok ()

/-- The columns of an order are clustering columns. -/
def checkOrder (d : TableDraft) (e : String × String) : Except Failure Unit :=
  if d.clusteringKey.contains e.1 then .ok ()
  else invalid d.name ("Clustering order references '" ++ e.1 ++
    "', which is not a clustering column") (some e.1)

/-- The column is a field that is stored; `what` says who refers to it. -/
def requireStored (d : TableDraft) (column what : String) : Except Failure Unit :=
  match d.field? column with
  | some f =>
    if f.isVirtual then
      invalid d.name (what ++ " references unknown column '" ++ column ++ "'") (some column)
    else .ok ()
  | none => invalid d.name (what ++ " references unknown column '" ++ column ++ "'") (some column)

/-- An index is on a column. -/
def checkIndex (d : TableDraft) (expression : String) : Except Failure Unit :=
  match IndexTarget.ofText expression with
  | .error message => invalid d.name message
  | .ok target => d.requireStored target.column ("Index '" ++ expression ++ "'")

/-- A custom index is on a column, its name taken without double quotes. -/
def checkCustomIndex (d : TableDraft) (i : IndexDeclaration) : Except Failure Unit :=
  d.requireStored (String.ofList (i.column.toList.filter (· != '"'))) "Custom index"

/-- A key column of a view is a column and is selected. -/
def checkViewKey (d : TableDraft) (name : String) (v : View) (column : String) :
    Except Failure Unit := do
  d.requireStored column ("Materialized view '" ++ name ++ "' key")
  if !v.selectsAll && !v.select.contains column then
    invalid d.name ("Materialized view '" ++ name ++ "' must select its key column '" ++ column ++
      "'") (some column)

/-- A list of names as messages show it. -/
def spelledNames (names : List String) : String := (Value.list (names.map .text)).spelled

/-- A view has an allowed name, selects columns, and its key holds the key of the table. -/
def checkView (d : TableDraft) (e : String × View) : Except Failure Unit := do
  let (name, v) := e
  checkName name
  (v.select.filter (· != "*")).forM fun column =>
    d.requireStored column ("Materialized view '" ++ name ++ "'")
  v.keyColumns.forM (d.checkViewKey name v)
  let absent := d.keyColumns.filter fun c => !v.keyColumns.contains c
  if !absent.isEmpty then
    invalid d.name ("Materialized view '" ++ name ++ "' key must include base key columns " ++
      spelledNames absent)
  v.clusteringOrder.forM fun e =>
    if v.clusteringKey.contains e.1 then .ok ()
    else invalid d.name ("Materialized view '" ++ name ++ "' orders by non-clustering column '" ++
      e.1 ++ "'") (some e.1)

/-- A hook has a known name and can be called. -/
def checkHook (d : TableDraft) (e : String × Value) : Except Failure (HookName × Value) :=
  match HookName.ofName? e.1 with
  | some name =>
    if e.2.isCallable then .ok (name, e.2)
    else invalid d.name ("Hook '" ++ e.1 ++ "' must be a known hook and callable")
  | none => invalid d.name ("Hook '" ++ e.1 ++ "' must be a known hook and callable")

/-- The parts of a declaration fit together. -/
def check (d : TableDraft) : Except Failure Unit := do
  if Name.maxLength < d.name.length then
    .error (.refusal (Refusal.invalidTableName (.text d.name)))
  checkName d.name
  d.fields.forM (checkEntry d.name)
  d.keyColumns.forM d.checkKeyColumn
  if !decide d.keyColumns.Nodup then
    invalid d.name ("Key of table '" ++ d.name ++ "' repeats a column")
  d.clusteringOrder.forM d.checkOrder
  if d.clusteringKey.isEmpty && d.fields.any (·.2.isStatic) then
    invalid d.name ("Static columns require clustering columns in table '" ++ d.name ++ "'")
  d.indexes.forM d.checkIndex
  d.customIndexes.forM d.checkCustomIndex
  d.views.forM d.checkView

/-- Register a declaration. -/
def register (d : TableDraft) : Except Failure Table := do
  d.check
  let hooks ← d.hooks.mapM d.checkHook
  return {
    name := d.name
    fields := d.fields.map (·.2)
    partitionKey := d.partitionKey
    clusteringKey := d.clusteringKey
    clusteringOrder := d.clusteringOrder
    indexes := d.indexes
    customIndexes := d.customIndexes
    views := d.views
    defaultTtl := d.defaultTtl
    hooks }

end TableDraft

end WideColumn
