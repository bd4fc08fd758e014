import WideColumn.Operation.Compile

/-!
# Executing statements

A statement is sent once. When the store answers that the table has changed under a prepared
statement, it is sent a second time, unprepared, and never a third time. A failure that is not a
refusal becomes one that tells the statement.
-/

namespace WideColumn

/-- The code by which the store says that a prepared statement no longer fits its table. -/
def staleStatementCode : Value := .int 8704

/-- The name of the journal of models. -/
def modelLogger : String := "cqlflow.model.model"

namespace Statement

/-- Send the statement with options. -/
def send (s : Statement) (options : ExecutionOptions) : Action (List Value) :=
  Store.run s.render s.params options

/-- Pass a failure on; one that is not a refusal becomes one. -/
def failed {α : Type} (s : Statement) (about : List (String × Value)) (f : Failure) : Action α :=
  match f with
  | .refusal r => throw (.refusal r)
  | f => Action.refuse (Refusal.statementFailed (.text s.render) f.toCause (details about))

/-- Send the statement a second time as a definition. -/
def sendAgain (s : Statement) (table : String) (first : Failure) : Action (List Value) := do
  Action.note 30 modelLogger "model.query.fallback" [
    ("table", .text table), ("statement", .text s.render), ("error", .text first.text)]
  match ← Action.attempt (s.send .definition) with
  | .ok rows => return rows
  | .error f => s.failed [("table", .text table), ("fallback", .bool true)] f

/-- Execute the statement on a table. -/
def execute (s : Statement) (table : String) (options : ExecutionOptions) :
    Action (List Value) := do
  match ← Action.attempt (s.send options) with
  | .ok rows => return rows
  | .error f =>
    match f.storeCode.eqv? staleStatementCode with
    | some true => s.sendAgain table f
    | some false => s.failed [("table", .text table)] f
    -- the code cannot be compared, and the failure that it came with is lost
    | none => throw (.ofUnordered "==" .undefined)

end Statement

namespace Prepared

/-- The name of the hook before a statement of a kind. -/
def beforeHookName : StatementKind → String
  | .update => "before_update"
  | .insert => "before_save"
  | .delete => "before_delete"
  | k => "before_" ++ k.name

/-- Run the hook before the statement; it vetoes by answering exactly false. -/
def askBefore (p : Prepared) (table : String) : Action Unit := do
  match p.before with
  | none => return
  | some hook =>
    match ← hook.run with
    | .bool false =>
      Action.refuse
        (Refusal.hookRejected (.text (beforeHookName p.statement.kind)) (.text table))
    | _ => return

/-- Run the hook after the statement. -/
def tellAfter (p : Prepared) : Action Unit := do
  match p.after with
  | none => return
  | some hook => let _ ← hook.run

/-- Execute the statement between its hooks. -/
def execute (p : Prepared) (table : String) (options : ExecutionOptions) :
    Action (List Value) := do
  p.askBefore table
  Action.note 10 modelLogger "model.query.execute" [
    ("table", .text table), ("query_type", .text p.statement.kind.name),
    ("statement", .text p.statement.render)]
  let rows ← p.statement.execute table options
  p.tellAfter
  return rows

end Prepared

end WideColumn
