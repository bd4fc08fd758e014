import WideColumn.Journal.Entry

/-!
# Sessions

A session is what a run of the library meets and leaves behind: the store with its scripted
failures and rows, the operator's answers, the counters of counting functions, the events noted by
functions, the journal and the spans. An `Action` reads and extends a session and ends in a value
or in a failure; what was recorded before a failure stays recorded.
-/

namespace WideColumn

/-- How a statement is to be executed. -/
structure ExecutionOptions where
  prepare : Bool := true
  fetchSize : Option Int := none
  consistency : Option String := none
  deriving DecidableEq

/-- Statements that define tables are sent unprepared and without paging. -/
def ExecutionOptions.definition : ExecutionOptions := { prepare := false }

/-- One statement sent to the store. -/
structure Call where
  statement : String
  params : List Value
  options : ExecutionOptions

/-- The rows of the tables in which the store describes itself, by table name. -/
structure SystemRows where
  columns : List (String × List Value) := []
  indexes : List (String × List Value) := []
  views : List (String × List Value) := []

/-- The store: what it will answer, and the statements it was sent, the latest first. -/
structure Store where
  failures : List (Option Failure) := []
  rows : List Value := []
  system : SystemRows := {}
  sent : List Call := []

/-- A call noted by a function. -/
structure Event where
  name : String
  arguments : List Value

/-- A span of work: its attributes, the failures recorded on it and the text of its error. -/
structure Span where
  name : String
  attributes : List (Value × Value)
  exceptions : List String := []
  status : Option String := none

/-- A session. The lists of what was recorded have the latest first. -/
structure Session where
  store : Store := {}
  answers : List Value := []
  asked : List String := []
  consulted : List String := []
  counts : List (Nat × Int) := []
  events : List Event := []
  journal : List Entry := []
  spans : List Span := []
  requestId : Option String := none
  table : Option String := none
  active : Option SpanContext := none

/-- A computation over a session that may fail. -/
abbrev Action (α : Type) := ExceptT Failure (StateM Session) α

namespace Action

/-- Run an action on a session. -/
def perform {α : Type} (a : Action α) (s : Session) : Except Failure α × Session := a.run s

/-- Write a line into the journal under the current context. -/
def note (level : Int) (logger message : String) (extras : List (String × Value) := [])
    (exception : Option String := none) : Action Unit :=
  modify fun s => { s with journal :=
    ⟨level, logger, message, extras, exception, s.requestId, s.table, s.active⟩ :: s.journal }

/-- Note in the journal that a refusal is made. -/
def noteRefusal (r : Refusal) : Action Unit :=
  note 40 "cqlflow.common.exceptions" r.message.display
    [("error_code", .text r.code.number), ("details", r.details)]
    (r.cause.map Cause.journalLine)

/-- Make a refusal: it is noted in the journal and fails the action. -/
def refuse {α : Type} (r : Refusal) : Action α := do
  noteRefusal r
  throw (.refusal r)

/-- Fail in a new way; a refusal is noted in the journal. -/
def fail {α : Type} : Failure → Action α
  | .refusal r => refuse r
  | f => throw f

/-- The value of a computation without effects, its failure being new. -/
def lift {α : Type} : Except Failure α → Action α
  | .ok a => pure a
  | .error f => fail f

/-- The outcome of an action as a value. -/
def attempt {α : Type} (a : Action α) : Action (Except Failure α) :=
  tryCatch (.ok <$> a) fun f => pure (.error f)

/-- Open a span; answers its place. -/
def openSpan (name : String) (attributes : List (Value × Value)) : Action Nat :=
  modifyGet fun s => (s.spans.length, { s with spans := { name, attributes } :: s.spans })

/-- Record a failure on the span at a place. -/
def recordFailure (place : Nat) (f : Failure) : Action Unit :=
  modify fun s => { s with spans := s.spans.modify (s.spans.length - 1 - place) fun span =>
    { span with exceptions := span.exceptions ++ [f.className], status := some f.text } }

/-- Run an action that answers a failure beside its result inside a span: the failure is recorded on
the span. -/
def tracedOutcome {α : Type} (name : String) (attributes : List (Value × Value))
    (a : Action (α × Option Failure)) : Action (α × Option Failure) := do
  let place ← openSpan name attributes
  match ← attempt a with
  | .ok (x, some f) =>
    recordFailure place f
    return (x, some f)
  | .ok (x, none) => return (x, none)
  | .error f =>
    recordFailure place f
    throw f

/-- Run an action inside a span: a failure is recorded on the span and passed on. -/
def traced {α : Type} (name : String) (attributes : List (Value × Value)) (a : Action α) :
    Action α :=
  (·.1) <$> tracedOutcome name attributes ((·, none) <$> a)

/-- The attributes that data stands for: those without a value are left out. -/
def attributesOf (v : Value) : Except Failure (List (Value × Value)) :=
  match v with
  | .map es => .ok (es.filter fun e => !(e.2 matches .null))
  | v => if v.isTrue then .error (.lacks v "items") else .ok []

/-- Run an action inside a span whose attributes are given as data. -/
def tracedBy {α : Type} (name : String) (attributes : Value) (a : Action α) : Action α :=
  match attributesOf attributes with
  | .ok attributes => traced name attributes a
  | .error f => do
    let _ ← openSpan name []
    throw f

/-- Run an action with a table as the context of its journal lines. -/
def inTable {α : Type} (table : String) (a : Action α) : Action α := do
  let before := (← get).table
  modify fun s => { s with table := some table }
  let outcome ← attempt a
  modify fun s => { s with table := before }
  match outcome with
  | .ok x => pure x
  | .error f => throw f

end Action

/-! ## The store -/

/-- What the store describes in its system tables. -/
inductive SystemTable where
  | columns
  | indexes
  | views
  deriving DecidableEq

/-- The queries on the system tables. -/
def SystemTable.query : SystemTable → String
  | .columns =>
    "SELECT * FROM system_schema.columns WHERE keyspace_name = ? AND table_name = ?;"
  | .indexes =>
    "SELECT * FROM system_schema.indexes WHERE keyspace_name = ? AND table_name = ?;"
  | .views =>
    "SELECT * FROM system_schema.views WHERE keyspace_name = ? AND base_table_name = ? " ++
      "ALLOW FILTERING;"

namespace SystemRows

/-- The rows about one table. -/
def find (r : SystemRows) (kind : SystemTable) (table : String) : List Value :=
  let rows := match kind with
    | .columns => r.columns
    | .indexes => r.indexes
    | .views => r.views
  ((rows.find? fun e => e.1 == table).map (·.2)).getD []

end SystemRows

namespace Store

/-- The rows that answer a statement. -/
def rowsFor (s : Store) (statement : String) (params : List Value) : List Value :=
  match [SystemTable.columns, .indexes, .views].find? fun t => t.query == statement with
  | some t => match params with
    | [_, .text table] => s.system.find t table
    | _ => []
  | none => s.rows

/-- Send a statement: it is recorded first, then the store fails or answers. -/
def run (statement : String) (params : List Value) (options : ExecutionOptions) :
    Action (List Value) := do
  let s ← get
  let store := s.store
  set { s with store := { store with
    sent := ⟨statement, params, options⟩ :: store.sent, failures := store.failures.drop 1 } }
  match store.failures.head? with
  | some (some f) => Action.fail f
  | _ => pure (store.rowsFor statement params)

end Store

end WideColumn
