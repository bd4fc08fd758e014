import WideColumn.Arguments
import WideColumn.Refusal.Basic

/-!
# Forms of refusals

A refusal may be asked for by its form, with its parts given as data: each form names its parts and
says how many of them have to be there. Every form also takes details and a cause; a form that is
about a failed statement takes its cause from that failure instead.
-/

namespace WideColumn

/-- The exception value as a failure. -/
def Value.failure? : Value → Option Failure
  | .exception kind message code => some (.ofException kind message code)
  | _ => none

/-- What a value says when it is the cause of a refusal. -/
def Value.asCause (v : Value) : Cause :=
  match v.failure? with
  | some f => f.toCause
  | none => ⟨v.className, v.display, true⟩

/-- The cause that a value gives: none when the value counts as false. -/
def Value.cause? (v : Value) : Option Cause := if v.isTrue then some v.asCause else none

/-- The forms of refusals. -/
inductive RefusalForm where
  | tableName
  | schema
  | rule
  | value
  | query
  | unsetKey
  | unsetRequired
  | mismatch
  | hook
  | definition
  | statement
  /-- Any message, and a code that is named beside the parts. -/
  | worded
  /-- Any code that is named beside the parts, and a message. -/
  | coded
  deriving DecidableEq, Repr

/-- A refusal that was asked for, and its text. -/
structure Worded where
  refusal : Refusal
  text : String

namespace RefusalForm

/-- The parameters of a form: the names of its parts in order, and how many of them have to be
there. -/
def parameters : RefusalForm → Parameters
  | tableName => { placed := ["table_name"], named, required := 1 }
  | schema => { placed := ["message", "table", "field"], named, required := 1 }
  | rule => { placed := ["message", "field"], named, required := 1 }
  | value => { placed := ["message", "field", "value"], named, required := 1 }
  | query => { placed := ["message", "field", "error_code"], named, required := 1 }
  | unsetKey | unsetRequired => { placed := ["field"], named, required := 1 }
  | mismatch => { placed := ["table", "message"], named, required := 1 }
  | hook => { placed := ["hook", "table"], named, required := 2 }
  | definition => { placed := ["phase", "original_error", "statement"], named, required := 2 }
  | statement => { placed := ["statement", "original_error"], named, required := 2 }
  | worded => { placed := ["message", "error_code", "details", "cause"], required := 1 }
  | coded => { placed := ["error_code", "message"], named, required := 2 }
where
  /-- The parts that every form has. -/
  named : List String := ["details", "cause"]

/-- The code of a name. -/
def codeOf (v : Value) : Except Failure ErrorCode := do
  v.checkKey
  match v.text?.bind ErrorCode.ofName? with
  | some c => return c
  | none => throw (.absentValue v)

/-- The statement that failed: a text, or a collection that is short enough to be shown whole. -/
def checkStatement (v : Value) : Except Failure Unit :=
  match v, v.length? with
  | .text _, _ => .ok ()
  | _, some n => if 500 < n then .error .badType else .ok ()
  | _, none => .error .badType

/-- The refusal of a failed statement that defines tables. -/
def ofDefinition (part : String → Value) (ds : List (Value × Value)) : Except Failure Refusal := do
  let phase := part "phase"
  phase.checkKey
  match phase.text?.bind Phase.ofName? with
  | none => throw (Refusal.unknownPhase phase.display)
  | some p =>
    let statement := part "statement"
    if statement.isTrue then checkStatement statement
    let r := Refusal.definitionFailed p (part "original_error").asCause statement ds
    return { r with cause := (part "original_error").cause? }

/-- The refusal of a failed ordinary statement. -/
def ofStatement (part : String → Value) (ds : List (Value × Value)) : Except Failure Refusal := do
  checkStatement (part "statement")
  let r := Refusal.statementFailed (part "statement") (part "original_error").asCause ds
  return { r with cause := (part "original_error").cause? }

/-- The refusal made of parts and of details that come before its own. -/
def make (f : RefusalForm) (code : ErrorCode) (part : String → Value)
    (ds : List (Value × Value)) : Except Failure Refusal :=
  let cause := (part "cause").cause?
  match f with
  | tableName => .ok (.invalidTableName (part "table_name") ds cause)
  | schema => .ok (.invalidSchema (part "message") (part "table") (part "field") ds cause)
  | rule => .ok (.invalidRule (part "message") (part "field") ds cause)
  | value => .ok (.invalidValue (part "message") (part "field") (part "value") ds cause)
  | query => .ok (.invalidQuery (part "message") (part "field") code ds cause)
  | unsetKey => .ok (.unsetKey (part "field") ds cause)
  | unsetRequired => .ok (.unsetRequired (part "field") ds cause)
  | mismatch => .ok (.schemaMismatch (part "table") (part "message") ds cause)
  | hook => .ok (.hookRejected (part "hook") (part "table") ds cause)
  | definition => ofDefinition part ds
  | statement => ofStatement part ds
  | worded | coded => .ok ⟨code, part "message", .map ds, cause⟩

/-- The refusal made of parts and of details given as data. Details that are no map cannot be added
to; where nothing is added they stand as they are, or are none when they count as false. -/
def makeWith (f : RefusalForm) (code : ErrorCode) (part : String → Value) (given : Value) :
    Except Failure Refusal := do
  match given with
  | .map es => f.make code part es
  | v =>
    let r ← f.make code part []
    if r.details.isTrue then throw .badType
    else return { r with details := if v.isTrue then v else .map [] }

/-- The value of a part that names a code beside the other arguments, and the arguments without
it. -/
def takeCode (name : String) (a : Arguments) : Option Value × Arguments :=
  (Keyed.get? a.named name, { a with named := Keyed.erase name a.named })

/-- A refusal whose code is named: by default that of the store. Without a message the code is the
message. -/
def ofCode (f : RefusalForm) (a : Arguments) : Except Failure Worded := do
  let (name, a) := takeCode "code" a
  let code ← codeOf (name.getD (.text ErrorCode.store.name))
  let number := Value.text code.number
  let b ← Arguments.bind { a with placed := match f with
    | worded => a.placed ++ [number]
    | _ => number :: a.placed } f.parameters
  if f = worded ∧ 1 < a.placed.length then throw .noAttribute
  else if f = worded ∧ a.placed.isEmpty then
    let r ← f.makeWith .store (b.get ·) (b.get "details")
    return ⟨r, { r with message := .text ("ErrorCode." ++ code.name) }.text⟩
  else
    let r ← f.makeWith code (b.get ·) (b.get "details")
    return ⟨r, r.text⟩

/-- A refusal of a form that has a code of its own; one for queries may be given another by name. -/
def ofParts (f : RefusalForm) (a : Arguments) : Except Failure Worded := do
  let code ← match Keyed.get? a.named "error_code" with
    | some name => codeOf name
    | none => pure .invalidQuery
  let b ← a.bind f.parameters
  let r ← f.makeWith code (b.get ·) (b.get "details" (.map []))
  if f = query ∧ 2 < a.placed.length then throw .noAttribute else return ⟨r, r.text⟩

/-- The refusal of a form with its parts given by place and by name. One that holds an exception
cannot be reported. -/
def ofArguments (f : RefusalForm) (a : Arguments) : Except Failure Worded := do
  let w ← if f = worded ∨ f = coded then f.ofCode a else f.ofParts a
  if w.refusal.message.holdsException || w.refusal.details.holdsException then throw .badType
  else return w

end RefusalForm

end WideColumn
