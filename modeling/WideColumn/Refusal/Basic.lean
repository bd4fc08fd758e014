import WideColumn.Failure

/-!
# The refusals of the library

The wording and the details of each refusal. Details supplied by the caller come first; an empty
table or field name is left out.
-/

namespace WideColumn.Refusal

/-- Add a detail unless its value is empty. -/
def withNonEmpty (key : String) (value : Value) (ds : List (Value × Value)) :
    List (Value × Value) :=
  if value.isTrue then withDetail key value ds else ds

/-- A table name that is not allowed. -/
def invalidTableName (name : Value) (ds : List (Value × Value) := [])
    (cause : Option Cause := none) : Refusal where
  code := .invalidTableName
  message := .text ("Invalid table name: '" ++ name.display ++
    "'. Table names must be alphanumeric with underscores and start with a letter")
  details := .map (withDetail "table" (.text name.display) ds)
  cause

/-- A table definition that is not valid. -/
def invalidSchema (message : Value) (table field : Value := .null)
    (ds : List (Value × Value) := []) (cause : Option Cause := none) : Refusal where
  code := .invalidSchema
  message
  details := .map (withNonEmpty "field" field (withNonEmpty "table" table ds))
  cause

/-- A rule for values that is not well formed. -/
def invalidRule (message field : Value) (ds : List (Value × Value) := [])
    (cause : Option Cause := none) : Refusal where
  code := .invalidValidatorRule
  message
  details := .map (withNonEmpty "field" field ds)
  cause

/-- A value that its field does not accept. -/
def invalidValue (message field value : Value) (ds : List (Value × Value) := [])
    (cause : Option Cause := none) : Refusal where
  code := .invalidValue
  message
  details :=
    let ds := withNonEmpty "field" field ds
    .map (match value with
      | .null => ds
      | v => withDetail "value" (.text v.display) ds)
  cause

/-- A query, projection or update that cannot be compiled. -/
def invalidQuery (message : Value) (field : Value := .null) (code : ErrorCode := .invalidQuery)
    (ds : List (Value × Value) := []) (cause : Option Cause := none) : Refusal where
  code
  message
  details := .map (withNonEmpty "field" field ds)
  cause

/-- A primary key field without a value. -/
def unsetKey (field : Value) (ds : List (Value × Value) := [])
    (cause : Option Cause := none) : Refusal where
  code := .unsetKey
  message := .text ("Primary key field '" ++ field.display ++ "' must be set and cannot be null")
  details := .map (withDetail "field" field ds)
  cause

/-- A required field without a value. -/
def unsetRequired (field : Value) (ds : List (Value × Value) := [])
    (cause : Option Cause := none) : Refusal where
  code := .unsetRequired
  message := .text ("Required field '" ++ field.display ++ "' must be set and cannot be null")
  details := .map (withDetail "field" field ds)
  cause

/-- A live table that differs from the declared one and may not be changed. -/
def schemaMismatch (table : Value) (message : Value := .null)
    (ds : List (Value × Value) := []) (cause : Option Cause := none) : Refusal where
  code := .schemaMismatch
  message := if message.isTrue then message else .text ("Declared schema for table '" ++
    table.display ++ "' does not match the live table. " ++
    "Set the migration policy to 'alter' or 'drop' to reconcile it")
  details := .map (withDetail "table" table ds)
  cause

/-- A statement that a hook vetoed. -/
def hookRejected (hook table : Value) (ds : List (Value × Value) := [])
    (cause : Option Cause := none) : Refusal where
  code := .hookRejected
  message := .text ("Lifecycle hook '" ++ hook.display ++ "' rejected the statement on table '" ++
    table.display ++ "'")
  details := .map (withDetail "table" table (withDetail "hook" hook ds))
  cause

/-- A statement as details show it: a text is cut to its first five hundred characters. -/
def clippedStatement : Value → Value
  | .text s => .text (if 500 < s.length then String.ofList (s.toList.take 500) ++ "..." else s)
  | v => v

/-- A statement that failed while table definitions were read or changed. -/
def definitionFailed (phase : Phase) (cause : Cause) (statement : Value := .null)
    (ds : List (Value × Value) := []) : Refusal where
  code := phase.code
  message := .text ("Schema " ++ " ".intercalate phase.words ++ " failed: " ++ cause.text)
  details := .map (withNonEmpty "statement" (clippedStatement statement)
    (withDetail "phase" (.text phase.name) ds))
  cause := some cause

/-- The phase of a failure is not one of the phases. -/
def unknownPhase (name : String) : Failure :=
  .badValue ("Unknown DDL phase: " ++ name)

/-- An ordinary statement that failed. -/
def statementFailed (statement : Value) (cause : Cause) (ds : List (Value × Value) := []) :
    Refusal where
  code := .store
  message := .text ("Statement execution failed: " ++ cause.text)
  details := .map (withDetail "statement" (clippedStatement statement) ds)
  cause := some cause

end WideColumn.Refusal
