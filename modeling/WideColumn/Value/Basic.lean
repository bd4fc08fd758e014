import WideColumn.ErrorCode
import WideColumn.Number.Decimal
import WideColumn.Scalar.Calendar
import WideColumn.Scalar.Uuid

/-!
# Values

The values that callers supply and that are bound to statements: scalars, collections, the two
markers for a column left alone and a field not supplied, functions and exceptions. A map keeps its
entries in the order in which their keys first appeared.
-/

namespace WideColumn

/-- The three containers of octets. -/
inductive OctetKind where
  | bytes
  | array
  | view
  deriving DecidableEq, Repr

/-- What a function value does with its fixed arguments and the arguments of a call. -/
inductive Behaviour where
  /-- The first argument exceeds the fixed one. -/
  | above
  /-- The first argument is less than the fixed one. -/
  | below
  /-- The first argument has at least the fixed length. -/
  | minLength
  /-- The first argument has at most the fixed length. -/
  | maxLength
  /-- The first argument is a text that starts with the fixed one. -/
  | startsWith
  /-- The first argument is equal to an element of the fixed list. -/
  | memberOf
  /-- Answers the fixed value. -/
  | constant
  /-- Notes the first argument and answers the fixed value. -/
  | observe
  /-- Answers the fixed number, then the next one, and so on. -/
  | count
  /-- Joins the field name, the type name and the text of the value. -/
  | summarize
  /-- Looks the fixed key up in the row. -/
  | pick
  /-- Notes its name and all arguments, and answers the second fixed value or null. -/
  | hook
  /-- Raises the fixed exception. -/
  | raise
  deriving DecidableEq, Repr

/-- The exceptions that come from outside the library and those of ill-shaped data. -/
inductive ExceptionKind where
  | runtime
  | badValue
  | timeout
  | connection
  | absentKey
  | badType
  | noAttribute
  | lookup
  | outOfRange
  /-- A comparison with a decimal that is not a number. -/
  | undefined
  /-- A moment that the clock cannot hold. -/
  | system
  /-- A text for which there is no room. -/
  | memory
  /-- A setting that cannot be read. -/
  | setting
  /-- An exception with a code of the store. -/
  | coded
  /-- One of the library's own refusals. -/
  | library (code : ErrorCode)
  deriving DecidableEq, Repr

/-- The name of the class of an exception. -/
def ExceptionKind.name : ExceptionKind → String
  | .runtime => "RuntimeError"
  | .badValue => "ValueError"
  | .timeout => "TimeoutError"
  | .connection => "ConnectionError"
  | .absentKey => "KeyError"
  | .badType => "TypeError"
  | .noAttribute => "AttributeError"
  | .lookup => "LookupError"
  | .outOfRange => "OverflowError"
  | .undefined => "InvalidOperation"
  | .system => "OSError"
  | .memory => "MemoryError"
  | .setting => "SettingsError"
  | .coded => "CodeError"
  | .library _ => "CQLFlowError"

/-- A value. -/
inductive Value where
  | null
  | bool (b : Bool)
  | int (n : Int)
  | float (x : Binary64)
  | decimal (d : Decimal)
  | text (s : String)
  | octets (kind : OctetKind) (bs : List UInt8)
  | list (xs : List Value)
  | tuple (xs : List Value)
  | set (frozen : Bool) (xs : List Value)
  | map (entries : List (Value × Value))
  /-- Bound in place of a value to leave the column untouched. -/
  | unset
  /-- A field that was not supplied at all. -/
  | missing
  | uuid (u : Uuid)
  | address (a : Address)
  | date (d : Date)
  | timestamp (t : Timestamp)
  | time (t : TimeOfDay)
  | duration (d : Duration)
  /-- A function; `site` tells apart functions of the same behaviour. -/
  | function (behaviour : Behaviour) (fixed : List Value) (site : Nat)
  /-- An exception; its code is `missing` when it has none. -/
  | exception (kind : ExceptionKind) (message code : Value)
  deriving Inhabited

namespace Value

/-- The key under which an update or query map marks a function of the store. -/
def storeFunctionKey : String := "$db_function"

/-- No concrete value: null, or one of the two markers. -/
def isNullLike : Value → Bool
  | null | unset | missing => true
  | _ => false

/-- A function that can be called. -/
def isCallable : Value → Bool
  | function .. => true
  | _ => false

/-- The value is the marker of a field not supplied. -/
def isMissing : Value → Bool
  | missing => true
  | _ => false

/-- The value counts as true in a condition: empty collections, zeros, null and the markers do
not. -/
def isTrue : Value → Bool
  | null | unset | missing => false
  | bool b => b
  | int n => n != 0
  | float x => !x.isZero
  | decimal d => !d.isZero
  | text s => !s.isEmpty
  | octets _ bs => !bs.isEmpty
  | list xs | tuple xs | set _ xs => !xs.isEmpty
  | map es => !es.isEmpty
  | duration d => d.totalMicroseconds != 0
  | _ => true

mutual

/-- The value is an exception or holds one. -/
def holdsException : Value → Bool
  | exception .. => true
  | list xs | tuple xs | set _ xs => anyHoldsException xs
  | map es => anyEntryHoldsException es
  | _ => false

/-- A value of the list is an exception or holds one. -/
def anyHoldsException : List Value → Bool
  | [] => false
  | x :: xs => holdsException x || anyHoldsException xs

/-- A key or a value of the entries is an exception or holds one. -/
def anyEntryHoldsException : List (Value × Value) → Bool
  | [] => false
  | (k, v) :: es => holdsException k || holdsException v || anyEntryHoldsException es

end

/-- The elements of a list or a tuple. -/
def sequence? : Value → Option (List Value)
  | list xs | tuple xs => some xs
  | _ => none

/-- The text of a text value. -/
def text? : Value → Option String
  | text s => some s
  | _ => none

/-- The name of the value's class, as messages give it. -/
def className : Value → String
  | null => "NoneType"
  | bool _ => "bool"
  | int _ => "int"
  | float _ => "float"
  | decimal _ => "Decimal"
  | text _ => "str"
  | octets .bytes _ => "bytes"
  | octets .array _ => "bytearray"
  | octets .view _ => "memoryview"
  | list _ => "list"
  | tuple _ => "tuple"
  | set false _ => "set"
  | set true _ => "frozenset"
  | map _ => "dict"
  | unset => "_Unset"
  | missing => "_Missing"
  | uuid _ => "UUID"
  | address (.v4 _) => "IPv4Address"
  | address (.v6 ..) => "IPv6Address"
  | date _ => "date"
  | timestamp _ => "datetime"
  | time _ => "time"
  | duration _ => "timedelta"
  | function .. => "function"
  | exception kind .. => kind.name

/-- The name of the value's kind with the module it belongs to, as messages on operands give it. -/
def kindName : Value → String
  | decimal _ => "decimal.Decimal"
  | date _ => "datetime.date"
  | timestamp _ => "datetime.datetime"
  | time _ => "datetime.time"
  | duration _ => "datetime.timedelta"
  | v => v.className

mutual

/-- What keeps the value from being the key of a map: it can change, holds something that can, or
refuses to be compared. -/
def keyFault? : Value → Option String
  | decimal d => if d.isSignaling then some "Cannot hash a signaling NaN value" else none
  | list _ => some "unhashable type: 'list'"
  | map _ => some "unhashable type: 'dict'"
  | set false _ => some "unhashable type: 'set'"
  | octets .array _ => some "unhashable type: 'bytearray'"
  | tuple xs => keyFaultAmong? xs
  | _ => none

/-- What keeps the first element that cannot be the key of a map from being one. -/
def keyFaultAmong? : List Value → Option String
  | [] => none
  | x :: xs => (keyFault? x).or (keyFaultAmong? xs)

end

/-- The value may be the key of a map. -/
def canBeKey (v : Value) : Bool := v.keyFault?.isNone

end Value

end WideColumn
