import WideColumn.Journal.Entry
import WideColumn.Keyed
import WideColumn.Value.Json

/-!
# Journal lines

An entry is written as one line of named members: level, logger and message first, then the members
that tell what was worked on, in a fixed order, then the place in a trace, then everything else in
the order in which it was given, and the exception last. A member that is already there is not
written twice, and what only describes the entry itself is not written at all.
-/

namespace WideColumn.Journal

/-- The members that follow the message when they are there, in this order. -/
def promoted : List String := ["table", "step", "phase", "statement", "error_code"]

/-- The names by which an entry describes itself. -/
def ownNames : List String := [
  "name", "msg", "args", "levelname", "levelno", "pathname", "filename", "module", "exc_info",
  "exc_text", "stack_info", "lineno", "funcName", "created", "msecs", "relativeCreated", "thread",
  "threadName", "processName", "process"]

/-- The names that are never written as they are. -/
def reserved : List String := ownNames ++ [
  "asctime", "message", "otelTraceID", "otelSpanID", "otelServiceName", "otelTraceSampled",
  "cqlflow_version"]

/-- The greatest number of characters of a statement in a line. -/
def longestStatement : Nat := 2000

/-- The names of the levels. -/
def levelNames : List (Int × String) := [
  (50, "CRITICAL"), (40, "ERROR"), (30, "WARNING"), (20, "INFO"), (10, "DEBUG"), (0, "NOTSET")]

/-- The name of a level; one without a name is given by its number. -/
def levelName (level : Int) : String :=
  match levelNames.find? fun e => e.1 == level with
  | some e => e.2
  | none => "Level " ++ toString level

/-- A text or null. -/
def textOrNull (s : Option String) : Value := (s.map Value.text).getD .null

/-- The extras completed by the context: the request, the table unless one is given, and who
writes. -/
def stamp (requestId table : Option String) (extras : List (String × Value)) :
    List (String × Value) :=
  let es := Keyed.put "request_id" (textOrNull requestId) extras
  let es := if (Keyed.get? es "table").isSome then es else Keyed.put "table" (textOrNull table) es
  Keyed.put "sdk_name" (.text "cqlflow") es

/-- A statement cut to its greatest length. -/
def clipStatement (name : String) (v : Value) : Value :=
  match v with
  | .text s =>
    if name = "statement" ∧ longestStatement < s.length then
      .text (String.ofList (s.toList.take longestStatement) ++ "...")
    else v
  | v => v

/-- The members that follow the message. -/
def promotedMembers (extras : List (String × Value)) : List (String × Value) :=
  promoted.filterMap fun name =>
    match Keyed.get? extras name with
    | none | some .null => none
    | some v => some (name, clipStatement name v)

/-- The place in a trace: the one given with the entry, else that of the active span. -/
def traceMembers (extras : List (String × Value)) (active : Option SpanContext) :
    List (String × Value) :=
  match Keyed.get? extras "otelTraceID", Keyed.get? extras "otelSpanID" with
  | some .null, some _ => []
  | some trace, some span => [("trace_id", trace), ("span_id", span)]
  | _, _ =>
    match active with
    | some c =>
      if c.isValid then [
        ("trace_id", .text (String.ofList (Text.hex 32 c.trace))),
        ("span_id", .text (String.ofList (Text.hex 16 c.span)))]
      else []
    | none => []

/-- The members of a line that begins with `head`. -/
def members (head extras : List (String × Value)) (active : Option SpanContext)
    (exception : Option String) : List (String × Value) :=
  let first := head ++ promotedMembers extras ++ traceMembers extras active
  let others := extras.filter fun e =>
    !(reserved ++ promoted).contains e.1 && !(Keyed.names first).contains e.1
  match exception with
  | some line => Keyed.put "exception" (.text line) (first ++ others)
  | none => first ++ others

/-- A line: what it cannot hold is written as text, and a map whose keys cannot be written
fails. -/
def line (ms : List (String × Value)) : Except Failure (List (String × Value)) :=
  ms.mapM fun m =>
    match m.2.toData? with
    | some v => .ok (m.1, v)
    | none => .error .badType

end WideColumn.Journal

namespace WideColumn

/-- The line of an entry. -/
def Entry.line (e : Entry) : Except Failure (List (String × Value)) :=
  Journal.line (Journal.members
    [("level", .text (Journal.levelName e.level)), ("logger", .text e.logger),
      ("message", .text e.message)]
    (Journal.stamp e.requestId e.table e.extras) e.active e.exception)

end WideColumn
