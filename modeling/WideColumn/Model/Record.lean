import WideColumn.Refusal.Basic
import WideColumn.Schema.Table

/-!
# Records

A record is one row of a table in memory: its values, the names that were assigned since it was last
saved, and whether the store has it. Only declared fields can be assigned; a row that was read from
the store is kept as it came and starts without assignments.
-/

namespace WideColumn

/-- A record. -/
structure Record where
  values : List (Value × Value) := []
  /-- The fields assigned since the record was read or saved, each once. -/
  modified : List String := []
  isPersisted : Bool := false

namespace Record

/-- A row read from the store. -/
def ofRow (row : List (Value × Value)) : Record := { values := row, isPersisted := true }

/-- The declared field of a name. -/
def field? (t : Table) (name : Value) : Option Field := name.text?.bind t.field?

/-- A name that is not declared. -/
def undeclared (t : Table) (name : Value) : Failure :=
  .refusal (Refusal.invalidSchema (.text ("Field '" ++ name.display ++
    "' is not declared in table '" ++ t.name ++ "'")) (.text t.name) name)

/-- Assign a declared field. -/
def set (t : Table) (name value : Value) (r : Record) : Except Failure Record :=
  match name.checkKey, field? t name with
  | .error f, _ => .error f
  | .ok _, none => .error (undeclared t name)
  | .ok _, some f => .ok { r with
      values := Value.insertEntry name value r.values
      modified := if r.modified.contains f.name then r.modified else r.modified ++ [f.name] }

/-- The value under a name. -/
def get? (r : Record) (name : Value) : Option Value := Value.lookup name r.values

/-- Look a name up; it has to be one that may be a key. -/
def lookup (r : Record) (name : Value) : Except Failure (Option Value) := do
  name.checkKey
  return r.get? name

/-- Whether a field was assigned since the record was saved; for null, whether any field was. A set
is no name, but it may be asked for. -/
def isModified (r : Record) (name : Value) : Except Failure Bool :=
  match name with
  | .null => .ok !r.modified.isEmpty
  | .set .. => .ok false
  | name => do
    name.checkKey
    return (r.modified.map Value.text).any name.eqv

/-- The names in the order in which they were first assigned. -/
def names (r : Record) : List Value := r.values.map (·.1)

/-- The values of the key columns; null where there is none. -/
def primaryKey (t : Table) (r : Record) : List (Value × Value) :=
  t.keyColumns.map fun c => (.text c, (r.get? (.text c)).getD .null)

/-- The values that the store keeps: those of declared fields that are not virtual. -/
def persistable (t : Table) (r : Record) : List (Value × Value) :=
  r.values.filter fun e => match field? t e.1 with
    | some f => !f.isVirtual
    | none => false

/-- The record after it was saved. -/
def saved (r : Record) : Record := { r with modified := [], isPersisted := true }

/-- The record as text. -/
def render (t : Table) (r : Record) : String :=
  "Record(" ++ t.name ++ ", " ++ (Value.map r.values).spelled ++ ")"

end Record

end WideColumn
