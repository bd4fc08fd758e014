import WideColumn.Migration.Run
import WideColumn.Model.Execution
import WideColumn.Model.Record

/-!
# Models

A model is one table with what is needed to work on it. Before its first statement, and again after
the table was dropped, it brings the live table in line with the declared one; as long as that does
not succeed, no statement is sent. The records that it made are kept in the model, each at a place
of its own, so that everybody who holds a record sees the same one.
-/

namespace WideColumn

/-- A model. -/
structure Model where
  table : Table
  settings : Settings := {}
  /-- Where the live table is known from; nothing stands for the keyspace of the settings. -/
  source : Option LiveSource := none
  /-- Makes results of rows; nothing stands for records. -/
  factory : Option Value := none
  isReady : Bool := false
  lastMigration : Option MigrationResult := none
  records : List Record := []

/-- A record of a model, by its place. -/
structure RecordRef where
  place : Nat
  deriving DecidableEq, Repr

/-- What a call on a model answers. -/
inductive Answer where
  | statement (s : Statement)
  | migration (r : MigrationResult)
  | value (v : Value)
  | record (r : RecordRef)
  | records (rs : List RecordRef)

namespace Model

/-- A computation on a model and a session. -/
abbrev Run (α : Type) := ExceptT Failure (StateM (Model × Session)) α

/-- An action on the session alone. -/
def act {α : Type} (a : Action α) : Run α := ExceptT.mk fun s =>
  let (outcome, session) := a.perform s.2
  (outcome, (s.1, session))

/-- The model. -/
def this : Run Model := return (← get).1

/-- Change the model. -/
def change (f : Model → Model) : Run Unit := modify fun s => (f s.1, s.2)

/-- A computation without effects, its failure being new. -/
def lift {α : Type} (r : Except Failure α) : Run α := act (Action.lift r)

/-- Run a computation inside a span that names the table. -/
def traced {α : Type} (name : String) (r : Run α) : Run α := do
  let m ← this
  let place ← act (Action.openSpan name (details [("cqlflow.table", .text m.table.name)]))
  tryCatch r fun f => do
    act (Action.recordFailure place f)
    throw f

/-! ## The life of the table -/

/-- There is nothing that live tables could be known from. -/
def noKeyspace (t : Table) : Refusal :=
  Refusal.definitionFailed .schemaQuery
    ⟨ExceptionKind.badValue.name,
      "No keyspace configured; set CQLFLOW_KEYSPACE or pass a schema_oracle", false⟩
    .null (details [("table", .text t.name)])

/-- Where the live table is known from. -/
def liveSource (m : Model) : Except Failure LiveSource :=
  match m.source, m.settings.keyspace with
  | some s, _ => .ok s
  | none, some keyspace =>
    if keyspace.isEmpty then .error (.refusal (noKeyspace m.table))
    else .ok (.keyspace (.text keyspace))
  | none, none => .error (.refusal (noKeyspace m.table))

/-- Bring the live table in line with the declared one. The model is ready exactly when that
succeeds. -/
def synchronize : Run MigrationResult := do
  change fun m => { m with isReady := false }
  let m ← this
  let source ← lift m.liveSource
  let (result, failure) ← act (Migration.sync m.settings source m.table)
  change fun m => { m with lastMigration := some result }
  match failure with
  | some f => throw f
  | none =>
    change fun m => { m with isReady := true }
    return result

/-- Synchronize a model that is not ready. -/
def ensureReady : Run Unit := do
  if !(← this).isReady then
    let _ ← synchronize

/-! ## Statements -/

/-- An operation whose parts are not of the right shape. -/
def invalidOperation (k : StatementKind) (table : String) (f : Malformed) : Refusal :=
  Refusal.invalidQuery (.text ("Invalid " ++ Text.lower k.operationName ++ " on table '" ++ table ++
      "': " ++ f.firstMessage)) .null .invalidQuery (details [("table", .text table)])
    (some (Failure.malformed f).toCause)

/-- An operation on the table made of its parts. -/
def operation (k : StatementKind) (parts : List (String × Value)) : Run Operation := do
  let table := (← this).table.name
  match Operation.ofArguments k table (parts.map fun e => (.text e.1, e.2)) with
  | .ok o => return o
  | .error (.malformed f) => act (Action.refuse (invalidOperation k table f))
  | .error f => throw f

/-- The statement of an operation with its hooks. -/
def compile (o : Operation) : Run Prepared := do
  act (Operation.compile (← this).table o)

/-- Execute a statement, synchronizing first if the model is not ready. -/
def execute (p : Prepared) (options : ExecutionOptions) : Run (List Value) :=
  traced "cqlflow.model.execute" do
    ensureReady
    act (p.execute (← this).table.name options)

/-- The statement of an operation, or the rows that it answers. -/
def dispatch (o : Operation) (compileOnly : Bool) (options : ExecutionOptions := {}) :
    Run (Statement ⊕ List Value) := do
  let p ← compile o
  if compileOnly then return .inl p.statement else return .inr (← execute p options)

/-! ## Dropping the table -/

/-- The statements that drop the declared views and then the table, each with its phase. -/
def dropStatements : Run (List (Phase × Statement)) := do
  let views ← (← this).table.views.mapM fun v => do
    let p ← compile (← operation .dropView [("view_name", .text v.1)])
    return (Phase.viewDrop, p.statement)
  let p ← compile (← operation .dropTable [])
  return views ++ [(.drop, p.statement)]

/-- Send a statement that drops something. -/
def sendDrop (table : String) (phase : Phase) (s : Statement) : Action String := do
  Action.note 20 modelLogger "model.ddl.execute" [
    ("table", .text table), ("statement", .text s.render)]
  match ← Action.attempt (s.send .definition) with
  | .ok _ => return s.render
  | .error (.refusal r) => throw (.refusal r)
  | .error f => Action.refuse (Refusal.definitionFailed phase f.toCause (.text s.render)
      (details [("table", .text table)]))

/-- Drop the declared views and the table; answers the statements. The model is not ready
afterwards. -/
def dropTable : Run (List String) := do
  let statements ← dropStatements
  let table := (← this).table.name
  let sent ← statements.mapM fun s => act (sendDrop table s.1 s.2)
  change fun m => { m with isReady := false }
  return sent

/-! ## Records -/

/-- Keep a record. -/
def keep (r : Record) : Run RecordRef := do
  let place := (← this).records.length
  change fun m => { m with records := m.records ++ [r] }
  return ⟨place⟩

/-- The record at a place. -/
def recordAt (r : RecordRef) : Run Record := return ((← this).records[r.place]?).getD {}

/-- Put a record into its place. -/
def replace (r : RecordRef) (new : Record) : Run Unit :=
  change fun m => { m with records := m.records.set r.place new }

end Model

end WideColumn
