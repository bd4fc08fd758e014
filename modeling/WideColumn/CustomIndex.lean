import WideColumn.Hash.Sha1
import WideColumn.Value.Json
import WideColumn.Failure

/-!
# Custom indexes

An index backed by a named implementation with options. It is identified by the digest of its
content, in which the order of the options does not count.
-/

namespace WideColumn

/-- An index with an implementation and options as texts. -/
structure CustomIndex where
  column : String
  implementation : String
  options : List (String × String)
  deriving DecidableEq, Repr

namespace CustomIndex

/-- The text without double quotes. -/
def unquoted (s : String) : String := String.ofList (s.toList.filter (· != '"'))

/-- The text that identifies an index with a column, an implementation and options. -/
def payloadOf (column implementation options : Value) : Except Value.Unwritable String :=
  Value.canonicalText (.map [
    (.text "on", .text (unquoted column.display)),
    (.text "using", implementation),
    (.text "options", if options.isTrue then options else .map [])])

/-- The digest of an ASCII text. -/
def digestOf (payload : String) : String :=
  Sha1.hexDigest (payload.toList.map fun c => UInt8.ofNat c.toNat)

/-- The options as a map value. -/
def optionsValue (options : List (String × String)) : Value :=
  .map (options.map fun e => (.text e.1, .text e.2))

/-- The text that identifies the index. -/
def payload (ci : CustomIndex) : String :=
  (payloadOf (.text ci.column) (.text ci.implementation) (optionsValue ci.options)).toOption.getD ""

/-- The digest that identifies the index. -/
def key (ci : CustomIndex) : String := digestOf ci.payload

/-- The digest of a definition given as a map: its column without quotes, its implementation and
its options. -/
def keyOfDefinition (v : Value) : Except Failure String :=
  match v with
  | .map es =>
    let part (key : String) (absent : Value) := (Value.get? es key).getD absent
    match payloadOf (part "on" (.text "")) (part "using" .null) (part "options" .null) with
    | .ok p => .ok (digestOf p)
    | .error (.key k) => .error (.wrongType
        ("keys must be str, int, float, bool or None, not " ++ k.className))
    | .error (.unordered u) => .error (.ofUnordered "<" u)
  | v => .error (.lacks v "get")

end CustomIndex

end WideColumn
