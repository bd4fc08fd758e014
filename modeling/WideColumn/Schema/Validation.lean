import WideColumn.Schema.Table

/-!
# Validation of values

A field checks a value in a chain: the type of its column first, then the validators of its rules
in the order of their declaration. The first check that fails decides the complaint, and nothing
after it runs, so that a validator never sees a value of the wrong type. Null-like values and
functions of the store always pass.
-/

namespace WideColumn

/-- The wording of a complaint about a value. -/
inductive Complaint where
  /-- Names the value, the field and the type. -/
  | standard
  | fixed (text : String)
  /-- Made by a function from the value, the field and the type. -/
  | made (producer : Value)

namespace Complaint

/-- The wording that a rule declares. -/
def ofMessage : Option Value → Complaint
  | none => standard
  | some (.text s) => fixed s
  | some producer => made producer

/-- The text of the standard complaint. -/
def standardText (value : Value) (f : Field) : String :=
  "Invalid Value: \"" ++ value.display ++ "\" for Field: " ++ f.name ++ " (Type: " ++ f.type ++ ")"

/-- Word a complaint about a value. -/
def word (c : Complaint) (value : Value) (f : Field) : Action Value :=
  match c with
  | standard => pure (.text (standardText value f))
  | fixed text => pure (.text text)
  | made producer => Callback.apply producer [value, .text f.name, .text f.type]

end Complaint

/-- One check of a chain. -/
inductive Check where
  | type (t : ColumnType)
  | validator (f : Value)

/-- The value passes the check. -/
def Check.passes (c : Check) (value : Value) : Action Bool :=
  match c with
  | .type t => pure (t.accepts value)
  | .validator f => Value.isTrue <$> Callback.apply f [value]

/-- The complaint of the first check that the value does not pass. -/
def firstComplaint (value : Value) : List (Check × Complaint) → Action (Option Complaint)
  | [] => pure none
  | (check, complaint) :: rest => do
    if ← check.passes value then firstComplaint value rest else pure (some complaint)

/-- A field whose type is known, ready to check values. -/
structure FieldValidator where
  field : Field
  type : ColumnType
  typed : field.columnType? = some type

namespace FieldValidator

/-- The validator of a field, if its type is known. -/
def ofField? (f : Field) : Option FieldValidator :=
  match h : f.columnType? with
  | some type => some ⟨f, type, h⟩
  | none => none

/-- The validator of a field; an unknown type is refused. -/
def ofField (f : Field) : Except Failure FieldValidator :=
  match ofField? f with
  | some v => .ok v
  | none => .error (.refusal (Refusal.invalidSchema
      (.text ("Field '" ++ f.name ++ "' has unknown type '" ++ f.type ++ "'")) .null
      (.text f.name)))

/-- The check that a rule adds to the chain; rules of flags alone add none. -/
def ruleCheck? (r : Rule) : Option (Check × Complaint) :=
  r.validator.map fun f => (.validator f, .ofMessage r.message)

/-- The checks in the order in which they run. -/
def chain (v : FieldValidator) : List (Check × Complaint) :=
  (.type v.type, .standard) :: v.field.rules.filterMap ruleCheck?

/-- The value needs no check: it is null-like or a function of the store. -/
def exempts (value : Value) : Bool := value.isNullLike || value.isStoreFunction

/-- The complaint about a value, if it does not pass. -/
def validate (v : FieldValidator) (value : Value) : Action (Option Complaint) :=
  if exempts value then pure none else firstComplaint value v.chain

/-- The wording of the complaint about a value; null when it passes. -/
def messageFor (v : FieldValidator) (value : Value) : Action Value := do
  match ← v.validate value with
  | none => pure .null
  | some complaint => complaint.word value v.field

/-- Refuse a value about which there is a complaint. A complaint that is worded as null does not
count. -/
def check (v : FieldValidator) (value : Value) : Action Unit := do
  match ← v.messageFor value with
  | .null => pure ()
  | message => Action.refuse (Refusal.invalidValue message (.text v.field.name) value)

end FieldValidator

namespace Table

/-- The validator of the field with a given name. -/
def validator? (t : Table) (name : String) : Option FieldValidator :=
  (t.field? name).bind FieldValidator.ofField?

/-- Fail with a name that is not a field. -/
def unresolved (t : Table) (name : String) : Refusal :=
  Refusal.invalidSchema (.text ("Field '" ++ name ++
    "' does not resolve to a known type in table '" ++ t.name ++ "'")) (.text t.name) (.text name)

/-- The validator of the field with a given name; other names are refused. -/
def validator (t : Table) (name : String) : Action FieldValidator :=
  match t.validator? name with
  | some v => pure v
  | none => Action.refuse (t.unresolved name)

end Table

end WideColumn
