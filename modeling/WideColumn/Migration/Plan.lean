import WideColumn.Operation.Definition
import WideColumn.Schema.Diff
import WideColumn.Settings

/-!
# Migration plans

A plan says how a live table is brought in line with the declared one: which questions are asked and
which statements are sent, in order, and how it ends. It is worked out before anything is asked or
sent, on the assumption that every question is approved and every statement succeeds; a run of the
plan stops at the first question that is not approved and at the first statement that fails.
-/

namespace WideColumn

/-- How a migration ended. -/
inductive MigrationState where
  | created
  | noOp
  | altered
  | recreated
  | failed
  deriving DecidableEq, Repr

/-- The name of a state. -/
def MigrationState.name : MigrationState → String
  | .created => "created"
  | .noOp => "no_op"
  | .altered => "altered"
  | .recreated => "recreated"
  | .failed => "failed"

/-- A question that is asked before data may be lost. -/
inductive Question where
  | addColumn (column : String) (new : Column)
  | removeColumn (column : String)
  | retypeColumn (column : String) (old new : Column)
  /-- A key column has changed, so that the table has to be recreated. -/
  | changeKey (column : String) (old new : Column)
  /-- A column is removed and added in its new form. -/
  | replaceColumn (column : String) (old new : Column)
  /-- An index, custom index or view is dropped; `kind` says which in words. -/
  | dropDependent (kind label : String)
  | recreateTable
  deriving DecidableEq

namespace Question

/-- A column as a question shows it. -/
def label (c : Column) : String := c.typeText ++ if c.isStatic then " static" else ""

/-- The text of a question about a table. -/
def prompt (table : String) : Question → String
  | addColumn column new =>
    "Migration: add field '" ++ column ++ "' (" ++ new.typeText ++ ") to table '" ++ table ++ "'?"
  | removeColumn column =>
    "Migration: remove field '" ++ column ++ "' from table '" ++ table ++ "'? " ++
      "Its data and any dependent indexes or materialized views will be dropped"
  | retypeColumn column old new =>
    "Migration: change type of field '" ++ column ++ "' in table '" ++ table ++ "' from " ++
      old.typeText ++ " to " ++ new.typeText ++ "?"
  | changeKey column old new =>
    "Migration: key field '" ++ column ++ "' of table '" ++ table ++ "' changed from " ++
      old.typeText ++ " to " ++ new.typeText ++ ", which requires dropping and " ++
      "recreating the table. All data in the table will be lost. Continue?"
  | replaceColumn column old new =>
    "Migration: field '" ++ column ++ "' of table '" ++ table ++ "' changed from " ++ label old ++
      " to " ++ label new ++ ". Remove and re-add it? Its data will be lost"
  | dropDependent kind label =>
    "Migration: drop " ++ kind ++ " '" ++ label ++ "' of table '" ++ table ++ "'?"
  | recreateTable =>
    "Migration: model schema for table '" ++ table ++ "' has changed. " ++
      "Drop the table and recreate it? All data in the table will be lost"

end Question

/-- A statement of a plan with its name and its phase. -/
structure Step where
  name : String
  phase : Phase
  statement : Ddl Identifier

/-- A move of a plan. -/
inductive Move where
  | ask (q : Question)
  | send (s : Step)

/-- A part of a plan: its moves, and what it comes to. -/
structure Draft (α : Type) where
  moves : List Move
  outcome : Except Failure α

namespace Draft

/-- A part without moves. -/
def pure {α : Type} (a : α) : Draft α := ⟨[], .ok a⟩

/-- One part after another; a part that fails is the last one. -/
def bind {α β : Type} (d : Draft α) (f : α → Draft β) : Draft β :=
  match d.outcome with
  | .ok a =>
    let next := f a
    ⟨d.moves ++ next.moves, next.outcome⟩
  | .error e => ⟨d.moves, .error e⟩

instance : Monad Draft where
  pure := Draft.pure
  bind := Draft.bind

/-- A computation without moves. -/
def lift {α : Type} (r : Except Failure α) : Draft α := ⟨[], r⟩

/-- Fail. -/
def fail {α : Type} (f : Failure) : Draft α := ⟨[], .error f⟩

/-- Ask a question. -/
def ask (q : Question) : Draft Unit := ⟨[.ask q], .ok ()⟩

/-- Send the statement of a definition whose parts have been checked. -/
def send {α : Type} (name : String) (phase : Phase) (kind : StatementKind) (made : Checked α)
    (ddl : α → Except Failure (Ddl String)) : Draft Unit := do
  let statement ← lift (made.toExcept kind.operationName >>= ddl >>= Ddl.accept)
  ⟨[.send ⟨name, phase, statement⟩], .ok ()⟩

end Draft

/-! ## Types that the store converts in place -/

/-- The pairs of a live and a declared type that the store converts in place. -/
def wideningPairs : List (String × String) := [
  ("ascii", "text"), ("bigint", "varint"), ("int", "varint"), ("smallint", "varint"),
  ("tinyint", "varint"), ("timeuuid", "uuid")]

/-- The column can be altered in place. Any scalar other than a counter converts to blob; a type
with an argument never converts. -/
def Column.widensTo (old new : Column) : Bool :=
  (old.argument.getD "").isEmpty && (new.argument.getD "").isEmpty &&
    (wideningPairs.contains (old.type, new.type) ||
      (new.type == "blob" && old.type != "counter" &&
        !((ColumnType.ofName? old.type).map ColumnType.needsArgument).getD false))

namespace Migration

/-! ## Creating -/

/-- The creation of the table alone. -/
def tableCreation (t : Table) : TableCreation where
  table := t.name
  columns := t.storedFields.map fun f => ⟨f.name, f.typeText, f.isStatic⟩
  key := ⟨t.partitionKey, t.clusteringKey, t.clusteringOrder⟩

/-- Create an index. -/
def createIndex (t : Table) (target : String) : Draft Unit :=
  Draft.send ("create_index:" ++ target) .indexCreate .createIndex
    (IndexCreation.checked ⟨t.name, target⟩) IndexCreation.ddl

/-- Create a custom index. -/
def createCustomIndex (t : Table) (i : CustomIndex) : Draft Unit :=
  Draft.send ("create_custom_index:" ++ i.column) .indexCreate .createCustomIndex
    (CustomIndexCreation.checked ⟨t.name, i.column, i.implementation,
      i.options.map fun o => (o.1, .text o.2)⟩) fun o => .ok o.ddl

/-- Create a view. -/
def createView (t : Table) (name : String) (v : View) : Draft Unit :=
  Draft.send ("create_materialized_view:" ++ name) .viewCreate .createView
    (ViewCreation.checked ⟨t.name, name, v.select,
      ⟨v.partitionKey, v.clusteringKey, v.clusteringOrder⟩⟩) fun o => .ok o.ddl

/-- Create the table, its indexes, its custom indexes and its views. -/
def createAll (t : Table) : Draft Unit := do
  Draft.send "create_table" .create .createTable (tableCreation t).checked fun o => .ok o.ddl
  t.indexes.forM (createIndex t)
  let shape ← Draft.lift (Describable.declared t).shape
  shape.customIndexes.forM fun e => createCustomIndex t e.2
  t.views.forM fun e => createView t e.1 e.2

/-! ## Dropping -/

/-- Drop a view. -/
def dropView (t : Table) (l : LiveTable) (view : String) : Draft LiveTable := do
  Draft.send ("drop_materialized_view:" ++ view) .viewDrop .dropView
    (ViewRemoval.checked { table := t.name, view }) fun o => .ok o.ddl
  return l.withoutView view

/-- An index without a known name cannot be dropped. -/
def nameless (t : Table) (what : String) (detail key : String) : Failure :=
  .refusal (Refusal.definitionFailed .indexDrop
    ⟨ExceptionKind.lookup.name, "No live index name found for " ++ what ++ " '" ++ key ++ "'",
      false⟩ .null (details [("table", .text t.name), (detail, .text key)]))

/-- Send the drop of an index. -/
def sendIndexDrop (t : Table) (step name : String) : Draft Unit :=
  Draft.send (step ++ ":" ++ name) .indexDrop .dropIndex
    (IndexRemoval.checked { table := t.name, name }) fun o => .ok o.ddl

/-- Drop the index on a target. -/
def dropIndex (t : Table) (l : LiveTable) (target : String) : Draft LiveTable := do
  match Keyed.get? l.indexNames target with
  | none => Draft.fail (nameless t "target" "target" target)
  | some name => do
    sendIndexDrop t "drop_index" name
    return l.withoutIndex target

/-- Drop the custom index under a key. -/
def dropCustomIndex (t : Table) (l : LiveTable) (key : String) : Draft LiveTable := do
  match Keyed.get? l.customIndexNames key with
  | none => Draft.fail (nameless t "custom index" "custom_index" key)
  | some name => do
    sendIndexDrop t "drop_custom_index" name
    return l.withoutCustomIndex key

/-- Drop what refers to a column: views, then indexes, then custom indexes. -/
def dropDependents (t : Table) (l : LiveTable) (column : String) : Draft LiveTable := do
  let ds ← Draft.lift (l.dependentsOf column)
  let l ← ds.views.foldlM (dropView t) l
  let l ← ds.indexes.foldlM (dropIndex t) l
  ds.customIndexes.foldlM (dropCustomIndex t) l

/-- Drop the views and the table, and create everything anew. -/
def recreate (t : Table) (l : LiveTable) : Draft Unit := do
  let _ ← (Keyed.names l.views).foldlM (dropView t) l
  Draft.send "drop_table" .drop .dropTable (TableRemoval.checked { table := t.name }) fun o =>
    .ok o.ddl
  createAll t

/-! ## Altering -/

/-- Add a column. -/
def addColumn (t : Table) (l : LiveTable) (name : String) (c : Column) : Draft LiveTable := do
  Draft.send ("alter_add:" ++ name) .alter .alterTable
    (ColumnChange.checked ⟨t.name, .add, name, some c.typeText, c.isStatic⟩) fun o => .ok o.ddl
  return l.withColumn name c

/-- Remove a column and what refers to it. -/
def removeColumn (t : Table) (l : LiveTable) (name : String) : Draft LiveTable := do
  let l ← dropDependents t l name
  Draft.send ("alter_drop:" ++ name) .alter .alterTable
    (ColumnChange.checked { table := t.name, action := .drop, column := name }) fun o => .ok o.ddl
  return l.withoutColumn name

/-- Alter the type of a column in place. -/
def retypeColumn (t : Table) (l : LiveTable) (name : String) (c : Column) : Draft LiveTable := do
  Draft.send ("alter_type:" ++ name) .alter .alterTable
    (ColumnChange.checked ⟨t.name, .retype, name, some c.typeText, c.isStatic⟩) fun o => .ok o.ddl
  return l.withColumn name c

/-- Apply the difference of one column. Nothing is left to alter when the table was recreated. -/
def applyDiff (t : Table) (l : LiveTable) : ColumnDiff → Draft (Option LiveTable)
  | .added name new => do
    Draft.ask (.addColumn name new)
    some <$> addColumn t l name new
  | .removed name _ => do
    Draft.ask (.removeColumn name)
    some <$> removeColumn t l name
  | .changed name aspect old new =>
    if aspect = .type ∧ old.widensTo new then do
      Draft.ask (.retypeColumn name old new)
      some <$> retypeColumn t l name new
    else if t.isKey name then do
      Draft.ask (.changeKey name old new)
      -- the type of a key column cannot change, and no column of the key can be dropped
      recreate t l
      return none
    else do
      Draft.ask (.replaceColumn name old new)
      let l ← removeColumn t l name
      some <$> addColumn t l name new

/-- Apply differences of columns, as long as the table is not recreated. -/
def applyDiffs (t : Table) (l : LiveTable) : List ColumnDiff → Draft (Option LiveTable)
  | [] => return some l
  | d :: ds => do
    match ← applyDiff t l d with
    | none => return none
    | some l => applyDiffs t l ds

/-- Drop a view that is not declared in the same form. -/
def dropUndeclaredView (t : Table) (l : LiveTable) (view : String) : Draft LiveTable := do
  Draft.ask (.dropDependent "materialized view" view)
  dropView t l view

/-- Drop an index that is not declared. -/
def dropUndeclaredIndex (t : Table) (l : LiveTable) (target : String) : Draft LiveTable := do
  Draft.ask (.dropDependent "index" target)
  dropIndex t l target

/-- Drop a custom index that is not declared. -/
def dropUndeclaredCustomIndex (t : Table) (l : LiveTable) (key : String) : Draft LiveTable := do
  match Keyed.get? l.customIndexes key with
  | none => Draft.fail (.absentKey key)
  | some i => do
    Draft.ask (.dropDependent "custom index" i.column)
    dropCustomIndex t l key

/-- Create the declared custom index under a key. -/
def createDeclaredCustomIndex (t : Table) (shape : TableShape) (key : String) : Draft Unit :=
  match Keyed.get? shape.customIndexes key with
  | none => Draft.fail (.absentKey key)
  | some i => createCustomIndex t i

/-- Create the declared view of a name. -/
def createDeclaredView (t : Table) (name : String) : Draft Unit :=
  match t.view? name with
  | none => Draft.fail (.absentKey name)
  | some v => createView t name v

/-- Drop and create the indexes and views that still differ. -/
def reconcile (t : Table) (l : LiveTable) : Draft Unit := do
  let d ← Draft.lift (Describable.diff (.live l) (.declared t))
  let l ← d.removedViews.foldlM (dropUndeclaredView t) l
  let l ← d.removedIndexes.foldlM (dropUndeclaredIndex t) l
  let _ ← d.removedCustomIndexes.foldlM (dropUndeclaredCustomIndex t) l
  let shape ← Draft.lift (Describable.declared t).shape
  d.addedIndexes.forM (createIndex t)
  d.addedCustomIndexes.forM (createDeclaredCustomIndex t shape)
  d.addedViews.forM (createDeclaredView t)

/-- Alter the table column by column, then its indexes and views. -/
def alter (t : Table) (l : LiveTable) (d : SchemaDiff) : Draft MigrationState := do
  match ← applyDiffs t l d.columns with
  | none => return .recreated
  | some l => do
    reconcile t l
    return .altered

/-! ## Deciding -/

/-- A list of names as a value. -/
def namesValue (names : List String) : Value := .list (names.map .text)

/-- What was added and removed. -/
def changesValue (added removed : List String) : Value := .map [
  (.text "added", namesValue added), (.text "removed", namesValue removed)]

/-- The differences as details show them. -/
def describe (d : SchemaDiff) : Value := .map [
  (.text "fields", namesValue (d.columns.map fun c =>
    c.kind ++ ":" ++ ".".intercalate (c.path.drop 1))),
  (.text "key_changed", .bool d.keyChanged),
  (.text "indexes", changesValue d.addedIndexes d.removedIndexes),
  (.text "custom_indexes", changesValue d.addedCustomIndexes d.removedCustomIndexes),
  (.text "views", changesValue d.addedViews d.removedViews)]

/-- A difference that the policy does not allow to resolve. -/
def mismatch (t : Table) (d : SchemaDiff) : Failure :=
  .refusal (Refusal.schemaMismatch (.text t.name) .null (details [("changes", describe d)]))

/-- Ask whether the table may be recreated, and recreate it. -/
def recreateAsking (t : Table) (l : LiveTable) : Draft MigrationState := do
  Draft.ask .recreateTable
  recreate t l
  return .recreated

/-- The plan for a declared table under a policy, given the live table if there is one. -/
def plan (t : Table) (policy : Policy) (live : Option LiveTable) : Draft MigrationState :=
  match live with
  | none => do
    createAll t
    return .created
  | some l => do
    let d ← Draft.lift (Describable.diff (.live l) (.declared t))
    if d.isEmpty then return .noOp
    else match policy with
      | .safe => Draft.fail (mismatch t d)
      | .drop => recreateAsking t l
      | .alter => if d.keyChanged then recreateAsking t l else alter t l d

end Migration

end WideColumn
