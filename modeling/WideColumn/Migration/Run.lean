import WideColumn.Migration.Plan
import WideColumn.Schema.Introspection

/-!
# Running a migration

The live table is fetched, a plan is worked out, and its moves are made in order: each question has
to be approved, each statement has to succeed. The result lists the statements that were sent; what
was sent before a failure stays.
-/

namespace WideColumn

/-- Who approves changes. -/
inductive Approver where
  /-- Approves every change. -/
  | automatic
  /-- Is asked, and answers. -/
  | operator

/-- Where live tables are known from. -/
inductive LiveSource where
  /-- Answers the same for every table. -/
  | given (answer : Except Failure (Option LiveTable))
  /-- The system tables of a keyspace. -/
  | keyspace (name : Value)

namespace LiveSource

/-- Fetch the live table of a name. -/
def fetch (s : LiveSource) (table : String) : Action (Option LiveTable) :=
  match s with
  | given answer => do
    modify fun s => { s with consulted := table :: s.consulted }
    Action.lift answer
  | keyspace name => LiveTable.fetch name table

end LiveSource

/-- A statement that was sent, and the text of its failure. -/
structure StepResult where
  step : Step
  failure : Option String

/-- What a migration did. -/
structure MigrationResult where
  table : String
  policy : Policy
  state : MigrationState := .failed
  steps : List StepResult := []
  error : Option Refusal := none

namespace MigrationResult

/-- The number of statements that succeeded. -/
def succeeded (r : MigrationResult) : Nat := r.steps.countP fun s => s.failure.isNone

/-- The number of statements that failed. -/
def failed (r : MigrationResult) : Nat := r.steps.countP fun s => s.failure.isSome

end MigrationResult

namespace Migration

/-! ## Approval -/

/-- An answer approves only as the letter y, in any case and with blanks around it. -/
def isApproved (answer : Value) : Bool :=
  let text := if answer.isTrue then answer.display else ""
  Text.lower (Text.strip text) == "y"

/-- A question as it is put to a person at a terminal. -/
def consolePrompt (prompt : String) : String := prompt ++ " (y/n): "

/-- The answer to a question; an operator who has nothing more to say approves. -/
def answer (a : Approver) (prompt : String) : Action Value :=
  match a with
  | .automatic => do
    Action.note 20 "cqlflow.migration.confirmation" "migration.confirmation.auto_approved"
      [("prompt", .text prompt)]
    return .text "y"
  | .operator =>
    modifyGet fun s =>
      ((s.answers.head?).getD (.text "y"),
        { s with answers := s.answers.drop 1, asked := prompt :: s.asked })

/-- The name of the journal of migrations. -/
def logger : String := "cqlflow.migration.planner"

/-- Ask a question; one that is not approved is refused. -/
def confirm (a : Approver) (table : String) (q : Question) : Action Unit := do
  let prompt := q.prompt table
  let about := [("table", Value.text table), ("prompt", .text prompt)]
  Action.note 20 logger "migration.confirmation.requested" about
  if !isApproved (← answer a prompt) then
    Action.note 30 logger "migration.confirmation.declined" about
    Action.refuse (Refusal.schemaMismatch (.text table)
      (.text ("Migration declined for table '" ++ table ++ "': " ++ prompt)))

/-! ## Moves -/

/-- A failure in a phase as a refusal, which is noted; what is a refusal already stays as it is. -/
def wrapped (phase : Phase) (table : String) (statement : Value) (f : Failure) :
    Action Failure :=
  match f with
  | .refusal r => return .refusal r
  | f => do
    let r := Refusal.definitionFailed phase f.toCause statement (details [("table", .text table)])
    Action.noteRefusal r
    return .refusal r

/-- Send the statement of a step; the outcome is the failure of the store, if there was one. -/
def sendStep (s : Step) : Action (Except Failure Unit) := do
  let statement := s.statement.render
  Action.note 20 "cqlflow.migration.pipeline" "migration.ddl.execute" [
    ("step", .text s.name), ("phase", .text s.phase.name), ("statement", .text statement)]
  Action.attempt do
    let _ ← Store.run statement [] .definition

/-- Make moves until one fails. Answers the statements sent and the failure. -/
def perform (a : Approver) (table : String) : List Move →
    Action (List StepResult × Option Failure)
  | [] => return ([], none)
  | .ask q :: rest => do
    match ← Action.attempt (confirm a table q) with
    | .error f => return ([], some f)
    | .ok () => perform a table rest
  | .send s :: rest => do
    match ← sendStep s with
    | .ok () =>
      let (steps, failure) ← perform a table rest
      return (⟨s, none⟩ :: steps, failure)
    | .error f =>
      return ([⟨s, some f.text⟩], some (← wrapped s.phase table (.text s.statement.render) f))

/-- Make the moves of a draft, then come to its outcome. -/
def performDraft (a : Approver) (table : String) (d : Draft MigrationState) :
    Action (List StepResult × Except Failure MigrationState) := do
  match ← perform a table d.moves with
  | (steps, some f) => return (steps, .error f)
  | (steps, none) => return (steps, ← Action.attempt (Action.lift d.outcome))

/-! ## Synchronizing -/

/-- Fetch the live table; a failure that is not a refusal becomes one. -/
def fetchLive (source : LiveSource) (table : String) : Action (Option LiveTable) := do
  match ← Action.attempt (source.fetch table) with
  | .ok live => return live
  | .error f => throw (← wrapped .schemaQuery table .null f)

/-- Fetch the live table and carry its plan out. -/
def carryOut (a : Approver) (source : LiveSource) (t : Table) (policy : Policy) :
    Action (List StepResult × Except Failure MigrationState) := do
  match ← Action.attempt (fetchLive source t.name) with
  | .error f => return ([], .error f)
  | .ok live => performDraft a t.name (plan t policy live)

/-- Note how a migration ended. -/
def noteEnd (r : MigrationResult) : Action Unit :=
  match r.error with
  | some e => Action.note 40 logger "migration.plan.failed" [
      ("table", .text r.table), ("error_code", .text e.code.number),
      ("steps", .int r.steps.length)]
  | none => Action.note 20 logger "migration.plan.complete" [
      ("table", .text r.table), ("state", .text r.state.name),
      ("total_steps", .int r.steps.length), ("successful", .int r.succeeded),
      ("failed", .int r.failed)]

/-- Bring the live table in line with the declared one. Answers what was done and the failure. -/
def synchronize (settings : Settings) (a : Approver) (source : LiveSource) (t : Table) :
    Action (MigrationResult × Option Failure) := do
  let policy ← settings.notedPolicy
  Action.note 20 logger "migration.plan.start"
    [("table", .text t.name), ("policy", .text policy.name)]
  let (steps, outcome) ← carryOut a source t policy
  let result : MigrationResult := { table := t.name, policy, steps }
  match outcome with
  | .ok state =>
    let result := { result with state }
    noteEnd result
    return (result, none)
  | .error (.refusal r) =>
    let result := { result with error := some r }
    noteEnd result
    return (result, some (.refusal r))
  -- what is no refusal is not noted, and the result has no error of its own
  | .error f => return (result, some f)

/-- The one who approves changes under given settings. -/
def approver (settings : Settings) : Approver :=
  if settings.migration.autoApprove then .automatic else .operator

/-- Synchronize a table inside a span, with the table as the context of the journal. -/
def sync (settings : Settings) (source : LiveSource) (t : Table) :
    Action (MigrationResult × Option Failure) :=
  Action.tracedOutcome "cqlflow.migration.sync" (details [("cqlflow.table", .text t.name)])
    (Action.inTable t.name (synchronize settings (approver settings) source t))

end Migration

end WideColumn
