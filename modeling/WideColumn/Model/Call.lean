import WideColumn.Arguments
import WideColumn.Model.Basic
import WideColumn.Schema.Definition

/-!
# Calls on models and records

The calls that a model answers and those that its records answer, with their arguments given as
data. A call that asks for its statement only is compiled and sends nothing.
-/

namespace WideColumn

open Coercion

/-- The options of execution given as data. -/
def ExecutionOptions.ofParts (fetchSize consistency : Value) : Except Failure ExecutionOptions :=
  (ExecutionOptions.mk true <$> (nullable (integerFrom 1) fetchSize).under "fetch_size"
    <*> (nullable Coercion.text consistency).under "consistency").toExcept "ExecutionOptions"

/-- The calls on a model. -/
inductive ModelCall where
  | find
  | findOne
  | insert
  | update
  | delete
  | truncate
  | dropTable
  | synchronize
  | new
  | render
  deriving DecidableEq, Repr

/-- The calls on a record. -/
inductive RecordCall where
  | get
  | set
  | update
  | item
  | contains
  | names
  | isModified
  | primaryKey
  | persistable
  | toMap
  | save
  | delete
  | render
  deriving DecidableEq, Repr

namespace ModelCall

/-- The parameters of a selection that are given by name. -/
def selectionOptions : List String := [
  "select", "distinct", "allow_filtering", "materialized_view", "raw", "return_query",
  "fetch_size", "consistency"]

/-- The parameters of a call. -/
def parameters : ModelCall → Parameters
  | find | findOne => { placed := ["query"], named := selectionOptions }
  | insert =>
    { placed := ["values"], named := ["if_not_exists", "ttl", "return_query"], required := 1 }
  | update => {
    placed := ["query", "values"], named := ["ttl", "if_exists", "conditions", "return_query"]
    required := 2 }
  | delete => { placed := ["query"], named := ["return_query"], required := 1 }
  | truncate => { named := ["return_query"] }
  | new => { placed := ["values"] }
  | dropTable | synchronize | render => {}

end ModelCall

namespace RecordCall

/-- The parameters of a call; what is given to a save or a delete by name is for the model. -/
def parameters : RecordCall → Parameters
  | get => { placed := ["name", "default"], required := 1 }
  | set => { placed := ["name", "value"], required := 2 }
  | update => { placed := ["values"], required := 1 }
  | item | contains => { placed := ["name"], required := 1 }
  | isModified => { placed := ["name"] }
  | names | primaryKey | persistable | toMap | render | save | delete => {}

end RecordCall

namespace Model

/-! ## Selecting -/

/-- The answer of a statement without results of its own. -/
def rowsAnswer : Statement ⊕ List Value → Answer
  | .inl s => .statement s
  | .inr rows => .value (.list rows)

/-- The record of a row. -/
def recordOfRow (row : Value) : Run RecordRef := do
  keep (.ofRow (← lift (Definition.entriesOrNone row)))

/-- What rows are answered as: records, or what the factory makes of them. -/
def collect (rows : List Value) : Run Answer := do
  match (← this).factory with
  | none => .records <$> rows.mapM recordOfRow
  | some f => return .value (.list (← rows.mapM fun row => act (Callback.apply f [row])))

/-- Select rows with a query. -/
def findWith (query : List (Value × Value)) (b : Bound) : Run Answer := do
  let o ← operation .select [
    ("query", .map query), ("select", b.get "select"),
    ("distinct", b.get "distinct" (.bool false)),
    ("allow_filtering", b.get "allow_filtering" (.bool false)),
    ("materialized_view", b.get "materialized_view")]
  let options ← lift (ExecutionOptions.ofParts (b.get "fetch_size") (b.get "consistency"))
  match ← dispatch o (b.holds "return_query") options with
  | .inl s => return .statement s
  | .inr rows => if b.holds "raw" then return .value (.list rows) else collect rows

/-- The entries of an optional argument; one that counts as false has none. -/
def entriesOrEmpty (v : Value) : Except Failure (List (Value × Value)) :=
  if v.isTrue then v.toEntries else .ok []

/-- Select rows. -/
def find (b : Bound) : Run Answer := do
  findWith (← lift (entriesOrEmpty (b.get "query"))) b

/-- The first of the results; null when there is none. -/
def firstOf : Answer → Answer
  | .records (r :: _) => .record r
  | .value (.list (v :: _)) => .value v
  | .records [] | .value (.list []) => .value .null
  | a => a

/-- The entries of a map that is given; nothing else will do. -/
def mapEntries (v : Value) : Except Failure (List (Value × Value)) :=
  match v with
  | .map es => .ok es
  | v => if v.isTrue then .error .badType else .ok []

/-- Select the first row. -/
def findOne (b : Bound) : Run Answer := do
  let query ← lift (mapEntries (b.get "query"))
  firstOf <$> findWith (Value.insertEntry (.text Query.limitKey) (.int 1) query) b

/-! ## Changing rows -/

/-- Insert a row. -/
def insert (b : Bound) : Run Answer := do
  let values ← lift (b.get "values").toEntries
  let o ← operation .insert [
    ("values", .map values), ("if_not_exists", b.get "if_not_exists" (.bool false)),
    ("ttl", b.get "ttl")]
  rowsAnswer <$> dispatch o (b.holds "return_query")

/-- Conditions of an update; none when the argument counts as false. -/
def conditionsOf (v : Value) : Except Failure Value :=
  if v.isTrue then .map <$> v.toEntries else .ok .null

/-- Update rows. -/
def update (b : Bound) : Run Answer := do
  let query ← lift (b.get "query").toEntries
  let values ← lift (b.get "values").toEntries
  let conditions ← lift (conditionsOf (b.get "conditions"))
  let o ← operation .update [
    ("query", .map query), ("values", .map values), ("ttl", b.get "ttl"),
    ("if_exists", b.get "if_exists" (.bool false)), ("conditions", conditions)]
  rowsAnswer <$> dispatch o (b.holds "return_query")

/-- Delete rows. -/
def delete (b : Bound) : Run Answer := do
  let query ← lift (b.get "query").toEntries
  let o ← operation .delete [("query", .map query)]
  rowsAnswer <$> dispatch o (b.holds "return_query")

/-- Delete all rows. -/
def truncate (b : Bound) : Run Answer := do
  rowsAnswer <$> dispatch (← operation .truncate []) (b.holds "return_query")

/-! ## Records -/

/-- Assign entries one after the other. -/
def assignAll (t : Table) (es : List (Value × Value)) (r : Record) : Except Failure Record :=
  es.foldlM (fun r e => r.set t e.1 e.2) r

/-- Make a record that the store does not have yet. -/
def new (b : Bound) : Run Answer := do
  let es ← lift (Definition.entriesOrNone (b.get "values"))
  .record <$> (keep (← lift (assignAll (← this).table es {})))

/-- Answer a call. -/
def call (c : ModelCall) (a : Arguments) : Run Answer := do
  let b ← lift (a.bind c.parameters)
  match c with
  | .find => find b
  | .findOne => findOne b
  | .insert => insert b
  | .update => update b
  | .delete => delete b
  | .truncate => truncate b
  | .dropTable => return .value (.list ((← dropTable).map .text))
  | .synchronize => .migration <$> synchronize
  | .new => new b
  | .render => return .value (.text ("Model(" ++ Text.quoted (← this).table.name ++ ")"))

end Model

namespace RecordRef

/-- Assign a field of the record. -/
def assign (r : RecordRef) (name value : Value) : Model.Run Unit := do
  let new ← Model.lift ((← Model.recordAt r).set (← Model.this).table name value)
  Model.replace r new

/-- Assign entries one after the other; those before one that fails stay assigned. -/
def assignEach (r : RecordRef) : List (Value × Value) → Model.Run Unit
  | [] => return
  | e :: es => do
    r.assign e.1 e.2
    r.assignEach es

/-- Look a name up. -/
def lookup (r : RecordRef) (name : Value) : Model.Run (Option Value) := do
  Model.lift ((← Model.recordAt r).lookup name)

/-- The value under a name that has to be there. -/
def item (r : RecordRef) (name : Value) : Model.Run Value := do
  match ← r.lookup name with
  | some v => return v
  | none => throw (.absentValue name)

/-- Insert the record; it counts as saved unless only its statement was asked for. -/
def save (r : RecordRef) (options : List (String × Value)) : Model.Run Answer := do
  let values := (← Model.recordAt r).persistable (← Model.this).table
  match ← Model.call .insert ⟨[.map values], options⟩ with
  | .statement s => return .statement s
  | _ =>
    Model.replace r (← Model.recordAt r).saved
    return .record r

/-- Delete the record by its key. -/
def delete (r : RecordRef) (options : List (String × Value)) : Model.Run Answer := do
  Model.call .delete ⟨[.map ((← Model.recordAt r).primaryKey (← Model.this).table)], options⟩

/-- Answer a call. -/
def call (r : RecordRef) (c : RecordCall) (a : Arguments) : Model.Run Answer := do
  let forModel := c = .save ∨ c = .delete
  let b ← Model.lift ((if forModel then { a with named := [] } else a).bind c.parameters)
  let record ← Model.recordAt r
  let t := (← Model.this).table
  match c with
  | .get => return .value ((← r.lookup (b.get "name")).getD (b.get "default"))
  | .set => do
    r.assign (b.get "name") (b.get "value")
    return .value .null
  | .update => do
    match b.get "values" with
    | .map es => r.assignEach es
    | v => throw (.lacks v "items")
    return .value .null
  | .item => .value <$> r.item (b.get "name")
  | .contains => return .value (.bool (← r.lookup (b.get "name")).isSome)
  | .names => return .value (.list record.names)
  | .isModified => return .value (.bool (← Model.lift (record.isModified (b.get "name"))))
  | .primaryKey => return .value (.map (record.primaryKey t))
  | .persistable => return .value (.map (record.persistable t))
  | .toMap => return .value (.map record.values)
  | .save => r.save a.named
  | .delete => r.delete a.named
  | .render => return .value (.text (record.render t))

end RecordRef

end WideColumn
