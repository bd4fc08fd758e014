import WideColumn.ColumnType
import WideColumn.Callback

/-!
# Fields

A field of a declared table: its type, its default and the rules for its values. A virtual field is
known to the application and is no column of the table.
-/

namespace WideColumn

/-- A rule for the values of a field: a validator with the wording of its complaint, or flags. -/
structure Rule where
  validator : Option Value := none
  message : Option Value := none
  required : Bool := false
  ignoreDefault : Bool := false

/-- A field of a declared table. -/
structure Field where
  name : String
  type : String
  argument : Option String := none
  /-- The default value, or a function that makes one; `missing` when there is none. -/
  default : Value := .missing
  rules : List Rule := []
  isVirtual : Bool := false
  isStatic : Bool := false

namespace Field

/-- The field has a default. -/
def hasDefault (f : Field) : Bool := !f.default.isMissing

/-- Writes have to supply a value. -/
def isRequired (f : Field) : Bool := f.rules.any (·.required)

/-- Values made by the default are not validated. -/
def ignoresDefault (f : Field) : Bool := f.rules.any (·.ignoreDefault)

/-- The text of the column's type. -/
def typeText (f : Field) : String := ColumnType.format f.type f.argument

/-- The type, if it is known. -/
def columnType? (f : Field) : Option ColumnType := ColumnType.ofName? f.type

/-- A counter. -/
def isCounter (f : Field) : Bool := f.columnType? == some .counter

/-- A list, a set or a map that is not frozen. -/
def isCollection (f : Field) : Bool := (f.columnType?.map ColumnType.isCollection).getD false

/-- The type needs an argument, so that values are not lists of values of the type. -/
def needsArgument (f : Field) : Bool := (f.columnType?.map ColumnType.needsArgument).getD false

/-- The kind of collection the column holds. -/
def collectionKind? (f : Field) : Option ColumnType :=
  ColumnType.collectionKind? f.type f.argument

/-- The value of the default: functions are called each time, all else is the value itself. -/
def resolveDefault (f : Field) : Action Value :=
  if f.default.isCallable then Callback.apply f.default [] else pure f.default

end Field

end WideColumn
