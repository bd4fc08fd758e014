import WideColumn.Journal.Line
import WideColumn.Journal.Template
import WideColumn.Scalar.Instant
import WideColumn.Settings

/-!
# The journal

A journal has a context, which stands in every line, and a threshold below which nothing is written.
Before it is set up it writes nothing at all. Contexts of tables may be entered one inside the
other; leaving one brings back the table from before.
-/

namespace WideColumn

/-- Something said to the journal. -/
structure Remark where
  level : Int
  logger : String
  template : Value
  arguments : List Value := []
  extras : List (String × Value) := []
  exception : Option Failure := none
  active : Option SpanContext := none

/-- The journal. -/
structure Journal where
  requestId : Option String := none
  table : Option String := none
  /-- The tables of the contexts around the present one. -/
  outer : List (Option String) := []
  threshold : Option Int := none

namespace Remark

/-- What the remark says of itself under a name; extras come before what was given. -/
def own (r : Remark) (name : String) (given : Value) : Value :=
  (Keyed.get? r.extras name).getD given

/-- The message: the template filled with the arguments, or as it is when there are none. -/
def message (r : Remark) : Except Failure String :=
  let template := (r.own "msg" r.template).display
  match Keyed.get? r.extras "args" with
  | some v => if v.isTrue then Template.fill template (.ofValue v) else .ok template
  | none =>
    if r.arguments.isEmpty then .ok template else Template.fill template (.ofList r.arguments)

/-- The members that stand first. -/
def head (r : Remark) : Except Failure (List (String × Value)) := do
  return [("level", r.own "levelname" (.text (Journal.levelName r.level))),
    ("logger", r.own "name" (.text r.logger)), ("message", .text (← r.message))]

/-- The line of the exception. -/
def exceptionLine (r : Remark) : Except Failure (Option String) :=
  match Keyed.get? r.extras "exc_info" with
  | some v => if v.isTrue then .error .badType else .ok none
  | none => .ok (r.exception.map Failure.journalLine)

end Remark

/-- The double that a text writes. -/
def instantOfText (s : String) : Except Failure Binary64 :=
  match Binary64.ofText? s with
  | some x => .ok x
  | none => .error (.badValue ("could not convert string to float: " ++ Text.quoted s))

/-- The double that tells when something was said. -/
def instantOf (v : Value) : Except Failure Binary64 :=
  match v with
  | .float x => .ok x
  | .int n => .ok (.ofInt n)
  | .bool b => .ok (.ofInt (if b then 1 else 0))
  | _ => .error .badType

namespace Journal

/-! ## Context -/

/-- Set the request and the table; what is not given stays. -/
def setContext (j : Journal) (requestId table : Option String) : Journal :=
  { j with requestId := requestId.orElse fun _ => j.requestId
           table := table.orElse fun _ => j.table }

/-- Forget the request and the table. -/
def clearContext (j : Journal) : Journal := { j with requestId := none, table := none }

/-- Enter the context of a table. -/
def enter (j : Journal) (table : String) : Journal :=
  { j with table := some table, outer := j.table :: j.outer }

/-- Leave the context of a table. -/
def leave (j : Journal) : Journal :=
  match j.outer with
  | [] => j
  | table :: outer => { j with table, outer }

/-! ## Setting up -/

/-- The thresholds by their names. -/
def thresholds : List (String × Int) := [
  ("CRITICAL", 50), ("FATAL", 50), ("ERROR", 40), ("WARN", 30), ("WARNING", 30), ("INFO", 20),
  ("DEBUG", 10), ("NOTSET", 0)]

/-- Set the journal up with a threshold, given by its name in any case. -/
def setUp (j : Journal) (level : Value) : Except Failure Journal :=
  match level with
  | .text s =>
    match Keyed.get? thresholds (Text.upper s) with
    | some n => .ok { j with threshold := some n }
    | none => .error (.badValue "Unable to configure handler 'console'")
  | _ => .error .noAttribute

/-- Set the journal up as the settings say; answers the level. -/
def configure (j : Journal) (env : Environment) (given : List (Value × Value)) :
    Except Failure (String × Journal) := do
  let settings ← Settings.read env given
  return (settings.logLevel, ← j.setUp (.text settings.logLevel))

/-! ## Writing -/

/-- The line of a remark with the time at which it was made; the context is left out unless
`stamped`. -/
def format (j : Journal) (r : Remark) (created : Binary64) (stamped : Bool) :
    Except Failure (List (String × Value)) := do
  let r := { r with extras := Keyed.ofList r.extras }
  let time ← Timestamp.ofSeconds (← instantOf (r.own "created" (.float created)))
  let head ← r.head
  let extras := if stamped then stamp j.requestId j.table r.extras else r.extras
  line (members (("timestamp", .text (time.iso "T" ++ "+00:00")) :: head) extras r.active
    (← r.exceptionLine))

/-- The remark is not below the threshold; before the journal is set up, warnings count. -/
def admits (j : Journal) (level : Int) : Bool := 0 < level && (j.threshold.getD 30) ≤ level

/-- The lines that a remark leaves in the journal: none when it is below the threshold, or when it
cannot be written. Extras may not take the names by which an entry describes itself. -/
def emit (j : Journal) (r : Remark) : Except Failure (List (List (String × Value))) :=
  let r := { r with
    logger := if r.logger.isEmpty then "root" else r.logger
    extras := Keyed.ofList r.extras }
  if !j.admits r.level then .ok []
  else
    match (Keyed.names r.extras).find? fun n => (["message", "asctime"] ++ ownNames).contains n with
    | some n => .error (.absentKey n)
    | none =>
      match j.threshold, r.head with
      | some _, .ok head =>
        match line (members head (stamp j.requestId j.table r.extras) r.active
            (r.exception.map Failure.journalLine)) with
        | .ok l => .ok [l]
        | .error _ => .ok []
      | _, _ => .ok []

end Journal

end WideColumn
