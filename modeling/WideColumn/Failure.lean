import WideColumn.Text.Line
import WideColumn.Value.Display

/-!
# Failures

Three kinds of failure leave the library: a refusal with a code and details, a report that data did
not have the expected shape, and an exception of a collaborator or of ill-shaped data, passed on as
it came.
-/

namespace WideColumn

/-- The exception behind a refusal: the name of its class and its text. `inHand` says that it was
being handled when the refusal was made, so that the journal shows it. -/
structure Cause where
  name : String
  text : String
  inHand : Bool

/-- A refusal of the library. -/
structure Refusal where
  code : ErrorCode
  message : Value
  details : Value := .map []
  cause : Option Cause := none

/-- One fault found in data of the wrong shape: where it lies, what kind it is, its wording, and
the data found there. -/
structure Issue where
  path : List String
  kind : String
  message : String
  found : Value

/-- The faults found in the data of one structure, in the order of its members. -/
structure Malformed where
  subject : String
  issues : List Issue

/-- A failure. An exception that was thrown has its text and the code that it carries. -/
inductive Failure where
  | refusal (r : Refusal)
  | malformed (m : Malformed)
  | thrown (kind : ExceptionKind) (text : String) (code : Value)

namespace Refusal

/-- The text of a refusal: number, message and, if there is one, the cause. -/
def text (r : Refusal) : String :=
  "[" ++ r.code.number ++ "] " ++ r.message.display ++
    match r.cause with
    | none => ""
    | some c => " (caused by: " ++ c.name ++ ": " ++ c.text ++ ")"

/-- The refusal as a map, for reports. -/
def toMap (r : Refusal) : List (String × Value) := [
  ("type", .text "CQLFlowError"),
  ("message", r.message),
  ("error_code", .text r.code.number),
  ("error_name", .text r.code.name),
  ("details", r.details),
  ("phase", match r.code.phase? with
    | some p => .text p.name
    | none => .null)]

end Refusal

namespace Issue

/-- As many characters from the first as fit into a number of octets of UTF-8. -/
def withinOctets : Nat → List Char → List Char
  | _, [] => []
  | room, c :: cs =>
    if c.utf8Size ≤ room then c :: withinOctets (room - c.utf8Size) cs else []

/-- A spelled value cut to its beginning and end when it takes more than fifty octets. -/
def clipped (s : String) : String :=
  if s.utf8ByteSize ≤ 50 then s
  else
    let cs := s.toList
    String.ofList (withinOctets 25 cs) ++ "..." ++
      String.ofList (withinOctets 24 cs.reverse).reverse

/-- A step of a path as the report shows it: between backward ticks when it holds a point. -/
def step (s : String) : String := if s.toList.contains '.' then "\x60" ++ s ++ "\x60" else s

/-- The address of a page: its scheme, its host and the path to it. -/
def address (scheme host : String) (path : List String) : String :=
  scheme ++ "://" ++ "/".intercalate (host :: path)

/-- Where the description of a kind of fault is found. -/
def reference (i : Issue) : String :=
  "    For further information visit " ++
    address "https" "errors.pydantic.dev" ["2.14", "v", i.kind]

/-- The lines that report a fault. -/
def lines (i : Issue) : List String :=
  (if i.path.isEmpty then [] else [".".intercalate (i.path.map step)]) ++
  ["  " ++ i.message ++ " [type=" ++ i.kind ++ ", input_value=" ++ clipped i.found.spelled ++
      ", input_type=" ++ i.found.className ++ "]", i.reference]

end Issue

namespace Malformed

/-- The report on ill-shaped data. -/
def text (m : Malformed) : String :=
  let n := m.issues.length
  "\n".intercalate
    ((toString n ++ (if n = 1 then " validation error for " else " validation errors for ") ++
      m.subject) :: m.issues.flatMap Issue.lines)

/-- The wording of the first fault. -/
def firstMessage (m : Malformed) : String := (m.issues.head?.map (·.message)).getD ""

end Malformed

namespace Failure

/-- The name of the failure's class. -/
def className : Failure → String
  | refusal _ => "CQLFlowError"
  | malformed _ => "ValidationError"
  | thrown kind _ _ => kind.name

/-- The failure as one text. -/
def text : Failure → String
  | refusal r => r.text
  | malformed m => m.text
  | thrown _ text _ => text

/-- The code of the store that an exception carries; `missing` when it carries none. -/
def storeCode : Failure → Value
  | thrown _ _ code => code
  | _ => .missing

/-- The exception as a cause; `inHand` when it is being handled. -/
def toCause (f : Failure) (inHand : Bool := true) : Cause := ⟨f.className, f.text, inHand⟩

/-- The failure that an exception value stands for. -/
def ofException (kind : ExceptionKind) (message code : Value) : Failure :=
  match kind with
  | .library c => .refusal { code := c, message }
  | kind => .thrown kind (Value.exception kind message code).display code

/-- Data of the wrong type. -/
def wrongType (message : String) : Failure := .thrown .badType message .missing

/-- Data of the wrong type, nothing being said about it. -/
def badType : Failure := wrongType ""

/-- A value that is not as it should be. -/
def badValue (message : String) : Failure := .thrown .badValue message .missing

/-- A number beyond the range of its place. -/
def outOfRange : Failure := .thrown .outOfRange "" .missing

/-- A member that the data does not have. -/
def noAttribute : Failure := .thrown .noAttribute "" .missing

/-- A member that the value does not have. -/
def lacks (v : Value) (member : String) : Failure :=
  .thrown .noAttribute
    ("'" ++ v.kindName ++ "' object has no attribute '" ++ member ++ "'") .missing

/-- A key that is not there. -/
def absentValue (key : Value) : Failure := .thrown .absentKey key.spelled .missing

/-- A name that is not there. -/
def absentKey (name : String) : Failure := absentValue (.text name)

/-- A value that cannot be gone through. -/
def notIterable (v : Value) : Failure :=
  wrongType ("'" ++ v.kindName ++ "' object is not iterable")

/-- A pattern is matched against a value that is no text. -/
def notText (v : Value) : Failure :=
  match v with
  | .octets .. => wrongType "cannot use a string pattern on a bytes-like object"
  | v => wrongType ("expected string or bytes-like object, got '" ++ v.kindName ++ "'")

/-- Two values have no order; `symbol` is the comparison that was asked for. -/
def ofUnordered (symbol : String) : Value.Unordered → Failure
  | .kinds a b => wrongType ("'" ++ symbol ++ "' not supported between instances of '" ++
      a.kindName ++ "' and '" ++ b.kindName ++ "'")
  | .versions a b => wrongType (a.render ++ " and " ++ b.render ++ " are not of the same version")
  | .dates => wrongType "can't compare datetime.datetime to datetime.date"
  | .undefined => .thrown .undefined "[<class 'decimal.InvalidOperation'>]" .missing

end Failure

/-- The value can be the key of a map. -/
def Value.checkKey (v : Value) : Except Failure Unit :=
  match v.keyFault? with
  | some fault => .error (.wrongType fault)
  | none => .ok ()

/-- The greatest number of digits of an integer that is written. -/
def longestInteger : Nat := 4300

/-- The integer has few enough digits to be written. -/
def checkWritable (n : Int) : Except Failure Unit :=
  if n.natAbs < Nat.pow 10 longestInteger then .ok ()
  else .error (.badValue ("Exceeds the limit (" ++ toString longestInteger ++
    " digits) for integer string conversion; " ++
    "use sys.set_int_max_str_digits() to increase the limit"))

/-- The name of a failure's class with the module it belongs to. -/
def fullName (className : String) : String :=
  match className with
  | "CQLFlowError" => "cqlflow.common.exceptions.CQLFlowError"
  | "ValidationError" => "pydantic_core._pydantic_core.ValidationError"
  | "InvalidOperation" => "decimal.InvalidOperation"
  | name => name

/-- The line that the journal shows for a failure: the last one of its name and its text. -/
def failureLine (className text : String) : String :=
  Text.lastLine (if text.isEmpty then fullName className
    else fullName className ++ ": " ++ text)

/-- The line that the journal shows for a failure. -/
def Failure.journalLine (f : Failure) : String := failureLine f.className f.text

/-- The line that the journal shows for the exception behind a refusal. -/
def Cause.journalLine (c : Cause) : String :=
  if c.inHand then failureLine c.name c.text else "NoneType: None"

/-! ## Details -/

/-- Details under text keys. -/
def details (entries : List (String × Value)) : List (Value × Value) :=
  entries.map fun e => (.text e.1, e.2)

/-- Add a detail, replacing one of the same key. -/
def withDetail (key : String) (value : Value) (ds : List (Value × Value)) : List (Value × Value) :=
  Value.insertEntry (.text key) value ds

end WideColumn
