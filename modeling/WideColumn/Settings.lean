import WideColumn.Coercion
import WideColumn.Keyed
import WideColumn.Session
import WideColumn.Text.Case
import WideColumn.Value.Json.Reader

/-!
# Settings

How an application runs: its environment, its keyspace, the level of its journal, and how a live
table that differs from the declared one is dealt with. Members that are not given are read from
environment variables and take their defaults otherwise. The names of members and of variables do
not depend on case.
-/

namespace WideColumn

open Coercion

/-- What is done when a live table differs from the declared one. -/
inductive Policy where
  /-- The table is left alone; a difference is refused. -/
  | safe
  /-- The table is altered, or recreated when its key has changed. -/
  | alter
  /-- The table is dropped and created anew. -/
  | drop
  deriving DecidableEq, Repr

namespace Policy

/-- Every policy. -/
def all : List Policy := [safe, alter, drop]

/-- The name of a policy. -/
def name : Policy → String
  | safe => "safe"
  | alter => "alter"
  | drop => "drop"

/-- A policy given as data. -/
def coercion : Coercion Policy :=
  wordOf (fun s => all.find? fun p => p.name == s) "'safe', 'alter' or 'drop'"

end Policy

/-- The environment variables, in the order in which they were set. -/
abbrev Environment := List (String × String)

namespace Environment

/-- The value of a variable; of several that differ in case alone the last one counts. -/
def get? (env : Environment) (name : String) : Option String :=
  (env.findRev? fun e => Text.lower e.1 == name).map (·.2)

/-- The variables with a prefix, by the rest of their names. -/
def under (env : Environment) (start : String) : List (String × String) :=
  Keyed.ofList (env.filterMap fun e =>
    let name := (Text.lower e.1).toList
    if start.toList.isPrefixOf name then some (String.ofList (name.drop start.length), e.2)
    else none)

/-- The members that variables with a prefix hold. -/
def membersUnder (env : Environment) (start : String) (members : List String) :
    List (Value × Value) :=
  members.filterMap fun m => (env.get? (start ++ m)).map fun s => (Value.text m, Value.text s)

end Environment

/-! ## Members given as data -/

namespace Members

/-- The member that a name means. -/
def find? (members : List String) (name : String) : Option String :=
  members.find? fun m => m == Text.lower name

/-- Put entries over others. -/
def layered (given kept : List (Value × Value)) : List (Value × Value) :=
  given.foldl (fun es e => Value.insertEntry e.1 e.2 es) kept

/-- The entries that mean a member, under the member's name; of several for one member the first
counts. -/
def given (members : List String) (es : List (Value × Value)) : List (Value × Value) :=
  members.filterMap fun m =>
    ((layered es []).find? fun e => e.1.text?.bind (find? members) == some m).map fun e =>
      (.text m, e.2)

/-- Every entry under the name of the member that it means, if it means one; of several for one
member the last counts. -/
def renamed (members : List String) (es : List (Value × Value)) : List (Value × Value) :=
  layered (es.map fun e => ((((e.1.text?.bind (find? members)).map Value.text).getD e.1), e.2)) []

/-- The names of all entries are texts. -/
def checkNames (es : List (Value × Value)) : Except Failure Unit :=
  if es.all fun e => e.1 matches .text _ then .ok ()
  else .error (.wrongType "keywords must be strings")

/-- A value put at the end of a path of names. What stands in the way and is no map stays. -/
def plant (value : Value) : List String → Value → Value
  | [], _ => value
  | name :: path, .map es =>
    let inner := (Value.get? es name).getD (.map [])
    .map (Value.insertEntry (.text name) (plant value path inner) es)
  | _ :: _, v => v

end Members

/-! ## Migration -/

/-- How differences between live and declared tables are dealt with. -/
structure MigrationSettings where
  policy : Policy := .safe
  /-- Every change is approved without a question. -/
  autoApprove : Bool := false
  deriving DecidableEq

namespace MigrationSettings

/-- The members by their names. -/
def members : List String := ["policy", "disable_interactive_confirmation"]

/-- Settings given as data over those of the environment. -/
def ofEntries (env : Environment) (given : List (Value × Value)) : Checked MigrationSettings :=
  let es := Members.layered (Members.given members given)
    (env.membersUnder "cqlflow_migration_" members)
  MigrationSettings.mk <$> defaulted es "policy" .safe Policy.coercion
    <*> defaulted es "disable_interactive_confirmation" false truth

/-- The settings of an environment with given members. -/
def read (env : Environment) (given : List (Value × Value)) : Except Failure MigrationSettings :=
  (ofEntries env given).toExcept "MigrationSettings"

end MigrationSettings

/-! ## The application -/

/-- The settings of an application. -/
structure Settings where
  appEnv : String := "dev"
  keyspace : Option String := none
  logLevel : String := "INFO"
  migration : MigrationSettings := {}

namespace Settings

/-- The levels of the journal by name. -/
def levels : List String := ["DEBUG", "INFO", "WARNING", "ERROR", "CRITICAL"]

/-- The name of a level, in any case. -/
def level : Coercion String := fun v =>
  (text v).andThen fun s =>
    let upper := Text.upper s
    if levels.contains upper then .ok upper else broken ("Unknown log level: " ++ s) v

/-- The members that variables of their own names hold. -/
def members : List String := ["app_env", "keyspace", "log_level"]

/-- The migration members that nested variables hold. -/
def nestedMigration (env : Environment) : List (Value × Value) :=
  let tree := (env.under "cqlflow_migration__").foldl
    (fun tree e => Members.plant (.text e.2) (e.1.splitOn "__") tree) (Value.map [])
  match tree with
  | .map es => es
  | _ => []

/-- The migration settings that the environment gives: a variable of their own holds them as
structured text, which nested variables complete when it is a map. -/
def migrationOf? (env : Environment) : Except Failure (Option Value) :=
  let nested := nestedMigration env
  match env.get? "cqlflow_migration" with
  | none => .ok (if nested.isEmpty then none else some (.map nested))
  | some s =>
    match Value.ofJson? s with
    | none => .error (.thrown .setting
        "error parsing value for field \"migration\" from source \"EnvSettingsSource\"" .missing)
    | some .null => .ok none
    | some (.map es) =>
      .ok (some (.map (Members.renamed MigrationSettings.members (Members.layered nested es))))
    | some v => .ok (some v)

/-- Migration settings that are given over those of the environment: a map completes a map, and
anything else replaces it. -/
def migrationOver (given kept : Option Value) : Option Value :=
  match given, kept with
  | some (.map es), some (.map ks) => some (.map (Members.layered es ks))
  | some v, _ => some v
  | none, kept => kept

/-- The migration settings from their data. When they are not given at all they are read on their
own, and a fault in them is reported alone. -/
def migrationSettings (env : Environment) (data : Option Value) :
    Except Failure (Checked MigrationSettings) := do
  match data with
  | none => Checked.ok <$> MigrationSettings.read env []
  | some v =>
    if let .map es := v then Members.checkNames es
    return (structureOf "MigrationSettings" (MigrationSettings.ofEntries env) v).under "migration"

/-- The settings of an environment with given members. -/
def read (env : Environment) (given : List (Value × Value)) : Except Failure Settings := do
  let given := Members.given (members ++ ["migration"]) given
  let kept ← migrationOf? env
  let migration ← migrationSettings env (migrationOver (Value.get? given "migration") kept)
  let es := Members.layered given (env.membersUnder "cqlflow_" members)
  (Settings.mk <$> defaulted es "app_env" "dev" text
    <*> defaulted es "keyspace" none (nullable text)
    <*> defaulted es "log_level" "INFO" level
    <*> migration).toExcept "_Settings"

/-- The application runs in production. -/
def isProduction (s : Settings) : Bool :=
  ["prod", "production"].contains (Text.lower (Text.strip s.appEnv))

/-- The policy that counts: in production it is the safe one. -/
def effectivePolicy (s : Settings) : Policy :=
  if s.isProduction then .safe else s.migration.policy

/-- The policy that counts; that it was made safe is noted in the journal. -/
def notedPolicy (s : Settings) : Action Policy := do
  if s.effectivePolicy ≠ s.migration.policy then
    Action.note 30 "cqlflow.settings.main" "settings.migration.forced_safe" [
      ("configured_policy", .text s.migration.policy.name), ("app_env", .text s.appEnv)]
  return s.effectivePolicy

/-- The settings kept for the application: read once, and again when that is forced. -/
def obtain (env : Environment) (kept : Option Settings) (force : Bool) :
    Except Failure Settings :=
  match kept with
  | some s => if force then read env [] else .ok s
  | none => read env []

end Settings

end WideColumn
