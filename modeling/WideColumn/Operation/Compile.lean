import WideColumn.Operation.Basic
import WideColumn.Statement.Basic
import WideColumn.Schema.Validation

/-!
# From operations to statements

Puts the statement for an operation together. Fields that are not supplied to an insertion take
their defaults; key fields and required fields have to have a value; values are checked before they
are bound, except those that a default made for a field that says so. Hooks around a write are
prepared with the data of the operation and are not called here.
-/

namespace WideColumn

/-- A function with the arguments it will be called with. -/
structure PreparedCall where
  function : Value
  arguments : List Value

/-- Call the function. -/
def PreparedCall.run (c : PreparedCall) : Action Value := Callback.apply c.function c.arguments

/-- A statement with the hooks around it. -/
structure Prepared where
  statement : Statement
  before : Option PreparedCall := none
  after : Option PreparedCall := none

namespace Compile

/-- The entries of a query. -/
def queryEntries (query : List (String × Value)) : List (Value × Value) :=
  query.map fun e => (.text e.1, e.2)

/-- The value under a key. -/
def get? (es : List (String × Value)) (key : String) : Option Value :=
  (es.find? fun e => e.1 == key).map (·.2)

/-! ## Selections -/

/-- Refuse a part of a query. -/
def refuseQuery {α : Type} (message : String) (code : ErrorCode := .invalidQuery)
    (field : Value := .null) : Action α :=
  Action.refuse (Refusal.invalidQuery (.text message) field code)

/-- The names in a text or in a list of texts. -/
def names? : Value → Option (List String)
  | .text s => some [s]
  | .list xs | .tuple xs => xs.mapM Value.text?
  | _ => none

/-- The grouping that a query asks for. -/
def grouping : Value → Action (Option (List Identifier))
  | .null => pure none
  | v =>
    match names? v with
    | some (n :: ns) => some <$> Query.acceptAll (n :: ns)
    | _ => refuseQuery (Query.groupKey ++ " expects a list of field names")

/-- The directions with their keys. -/
def directions : List (String × Direction) := [("$asc", .ascending), ("$desc", .descending)]

/-- The direction of a key, in any case. -/
def direction? (key : Value) : Option Direction :=
  (directions.find? fun d => d.1 == Text.lower key.display).map (·.2)

/-- The order by the columns under one direction. -/
def orderEntry (key columns : Value) : Action (List (Identifier × Direction)) :=
  match direction? key with
  | none =>
    refuseQuery ("Invalid order direction '" ++ key.display ++ "', expected one of " ++
      (Value.ofTexts (directions.map (·.1))).spelled) .invalidOrderBy
  | some d =>
    match names? columns with
    | some names => (fun is => is.map (·, d)) <$> Query.acceptAll names
    | none => refuseQuery ("Order by " ++ key.display ++
        " expects a field name or a list of field names") .invalidOrderBy

/-- The order by the columns under each direction. -/
def orderEntries : List (Value × Value) → Action (List (Identifier × Direction))
  | [] => pure []
  | (key, columns) :: es => do return (← orderEntry key columns) ++ (← orderEntries es)

/-- The order that a query asks for. -/
def order : Value → Action (Option (List (Identifier × Direction)))
  | .null => pure none
  | .map (e :: es) => some <$> orderEntries (e :: es)
  | _ => refuseQuery (Query.orderKey ++ " expects a mapping such as \x7b'$asc': 'name'\x7d")
      .invalidOrderBy

/-- A limit that a query asks for. -/
def limit (query : List (String × Value)) (key : String) : Action (Option Int) :=
  match get? query key with
  | none => pure none
  | some v =>
    let refused : Action (Option Int) :=
      refuseQuery (key ++ " expects a positive integer, got " ++ v.spelled) .invalidLimit
    match v with
    | .int n => if 0 < n then pure (some n) else refused
    | _ => refused

/-- The table or the view to select from. -/
def source (t : Table) (o : Selection) : Action String :=
  match o.view with
  | none => pure o.table
  | some view =>
    if view.isEmpty then pure o.table
    else if (t.view? view).isSome then pure view
    else refuseQuery ("Materialized view '" ++ view ++ "' is not declared on table '" ++ t.name ++
      "'")

/-- The statement of a selection. -/
def selection (t : Table) (o : Selection) : Action SelectStatement := do
  let source ← source t o
  let relations ← Query.relations t (queryEntries o.query)
  let items ← Action.lift ((o.items.getD []).mapM Projection.ofText)
  let source ← Identifier.accept source
  let grouping ← grouping (.ofOption (get? o.query Query.groupKey))
  let order ← order (.ofOption (get? o.query Query.orderKey))
  let partitionLimit ← limit o.query Query.partitionLimitKey
  let limit ← limit o.query Query.limitKey
  return {
    isDistinct := o.isDistinct, items, source, relations, grouping, order, partitionLimit, limit
    allowFiltering := o.allowFiltering }

/-! ## Values of fields -/

/-- The value of a field for a write, and whether its default made it. -/
structure Resolved where
  value : Value
  byDefault : Bool

/-- The value supplied, or else the one that the default makes. -/
def resolveValue (f : Field) (supplied : Value) : Action Resolved :=
  if supplied.isMissing && f.hasDefault then
    (fun v => ⟨v, true⟩) <$> f.resolveDefault
  else pure ⟨supplied, false⟩

/-- The value of a field for a write; key fields and required fields have to have one. -/
def resolve (t : Table) (f : Field) (supplied : Value) : Action Resolved := do
  let r ← resolveValue f supplied
  if r.value.isNullLike then
    let ds := details [("table", .text t.name)]
    if t.isKey f.name then Action.refuse (Refusal.unsetKey (.text f.name) ds)
    else if f.isRequired then Action.refuse (Refusal.unsetRequired (.text f.name) ds)
    else pure r
  else pure r

/-- The operand of a value for a write. What a default made is bound unchecked where the field
says so. -/
def writeOperand (v : FieldValidator) (r : Resolved) : Action Operand :=
  if r.byDefault && v.field.ignoresDefault && !r.value.isStoreFunction then
    pure (.bound r.value)
  else Operand.compile v false r.value

/-- Refuse a write. -/
def refuseWrite {α : Type} (message : String) (field : Option String := none) : Action α :=
  refuseQuery message .invalidUpdateOperation ((field.map Value.text).getD .null)

/-! ## Insertions -/

/-- The columns of an insertion: the fields that have a value, in the order of the table. -/
def insertColumns (t : Table) (values : List (String × Value)) :
    List Field → Action (List (Identifier × Operand))
  | [] => pure []
  | f :: fs =>
    if f.isVirtual then insertColumns t values fs
    else do
      let r ← resolve t f ((get? values f.name).getD .missing)
      if r.value.isMissing then insertColumns t values fs
      else if f.isCounter then
        refuseWrite ("Counter field '" ++ f.name ++ "' cannot be inserted, use update") f.name
      else
        let operand ← writeOperand (← t.validator f.name) r
        let column ← Identifier.accept f.name
        return (column, operand) :: (← insertColumns t values fs)

/-- An integer or null. -/
def integerValue (n : Option Int) : Value := (n.map Value.int).getD .null

/-- A time to live, which is written into the statement. -/
def timeToLive (ttl : Option Int) : Action (Option Int) := do
  if let some n := ttl then Action.lift (checkWritable n)
  return ttl

/-- The call of a hook of the table. -/
def hookCall (t : Table) (name : HookName) (arguments : List Value) : Option PreparedCall :=
  (t.hook? name).map fun f => ⟨f, arguments⟩

/-- Put an insertion together. -/
def insertion (t : Table) (o : Insertion) : Action Prepared := do
  let unknown := (o.values.map (·.1)).filter fun n => (t.field? n).isNone
  if !unknown.isEmpty then
    Action.refuse (Refusal.invalidSchema (.text ("Fields " ++ (Value.ofTexts unknown).spelled ++
      " are not declared in table '" ++ t.name ++ "'")) (.text t.name))
  let columns ← insertColumns t o.values t.fields
  let table ← Identifier.accept o.table
  -- the default of the table is for insertions only
  let ttl ← timeToLive (o.ttl <|> t.defaultTtl)
  let arguments := [Value.ofEntries o.values,
    .ofEntries [("ttl", integerValue ttl), ("if_not_exists", .bool o.ifNotExists)]]
  return {
    statement := .insert { table, columns, ifNotExists := o.ifNotExists, ttl }
    before := hookCall t .beforeSave arguments
    after := hookCall t .afterSave arguments }

/-! ## Updates -/

/-- What a map for a collection asks to do with its elements. -/
inductive Directive where
  | add
  | append
  | prepend
  | replace
  | remove
  deriving DecidableEq, Repr

/-- The directives with their keys. -/
def directives : List (String × Directive) := [
  ("$add", .add), ("$append", .append), ("$prepend", .prepend), ("$replace", .replace),
  ("$remove", .remove)]

/-- The directive of a key, in any case. -/
def directive? (key : String) : Option Directive :=
  (directives.find? fun d => d.1 == Text.lower key).map (·.2)

/-- The directive that a value is, with its key as given and its operand: a map with that key
alone. -/
def directiveOf? : Value → Option (String × Directive × Value)
  | .map [(.text key, operand)] => (directive? key).map fun d => (key, d, operand)
  | _ => none

/-- The keys that a removal from a map names. -/
def removedKeys? : Value → Option (List Value)
  | .map es => some (es.map (·.1))
  | .list xs | .tuple xs => some xs
  | .set false xs => some (Value.setOrder xs)
  | _ => none

/-- The replacement of an entry of a map or an element of a list. -/
def replacement (f : Field) (column : Identifier) (operand : Value) : Action Assignment :=
  match f.columnType? with
  | some .map =>
    match operand with
    | .map [(key, value)] => pure (.replace column key value)
    | _ => refuseWrite ("$replace on map '" ++ f.name ++ "' expects exactly one entry") f.name
  | some .list =>
    match operand.sequence? with
    | some [index, value] => pure (.replace column index value)
    | _ => refuseWrite ("$replace on list '" ++ f.name ++ "' expects [index, value]") f.name
  | _ => refuseWrite ("$replace requires a map or list field, '" ++ f.name ++ "' is " ++ f.type)
      f.name

/-- The removal of elements. -/
def removal (v : FieldValidator) (column : Identifier) (operand : Value) : Action Assignment :=
  if v.type = .map then
    match removedKeys? operand with
    | some keys => pure (.removeKeys column keys)
    | none => refuseWrite ("$remove on map '" ++ v.field.name ++
        "' expects a mapping or a list of keys") v.field.name
  else return .remove column (← Operand.compile v false operand)

/-- The assignment of a directive. -/
def directiveAssignment (v : FieldValidator) (column : Identifier) (directive : Directive)
    (operand : Value) : Action Assignment :=
  match directive with
  | .replace => replacement v.field column operand
  | .remove => removal v column operand
  | .add | .append => return .extend column (← Operand.compile v false operand)
  | .prepend => do
    let operand ← Operand.compile v false operand
    if v.type = .list then return .prepend column operand
    else refuseWrite ("$prepend requires a list field, '" ++ v.field.name ++ "' is " ++
      v.field.type) v.field.name

/-- The assignment of a value to a column. -/
def assignment (v : FieldValidator) (r : Resolved) : Action Assignment := do
  let column ← Identifier.accept v.field.name
  match directiveOf? r.value with
  | none => return .set column (← writeOperand v r)
  | some (key, directive, operand) =>
    if v.field.isCollection then directiveAssignment v column directive operand
    else refuseWrite (key ++ " requires a collection field, '" ++ v.field.name ++ "' is " ++
      v.field.type) v.field.name

/-- The assignments of an update, in the order of its values. -/
def assignments (t : Table) : List (String × Value) → Action (List Assignment)
  | [] => pure []
  | (name, supplied) :: rest => do
    let v ← t.validator name
    if v.field.isVirtual then assignments t rest
    else
      let r ← resolve t v.field supplied
      if r.value.isMissing then assignments t rest
      else if t.isKey name then
        refuseWrite ("Primary key field '" ++ name ++ "' cannot be updated") name
      else
        let first ← assignment v r
        return first :: (← assignments t rest)

/-- The relations that find the rows of a write; there has to be one. -/
def requiredRelations (t : Table) (query : List (String × Value)) (what : String) :
    Action (List Relation) := do
  match ← Query.relations t (queryEntries query) with
  | [] => refuseQuery (what ++ " requires a non-empty query")
  | rs => pure rs

/-- The condition of an update. -/
def condition (t : Table) (o : Modification) : Action Condition :=
  if o.ifExists then pure .exists
  else match o.conditions with
    | none | some [] => pure .always
    | some es => .relations <$> Query.relations t (queryEntries es)

/-- Put an update together. -/
def modification (t : Table) (o : Modification) : Action Prepared := do
  let assignments ← assignments t o.values
  if assignments.isEmpty then
    refuseWrite ("Update on table '" ++ t.name ++ "' has no fields to set")
  let relations ← requiredRelations t o.query "Update"
  let table ← Identifier.accept o.table
  let ttl ← timeToLive o.ttl
  let condition ← condition t o
  let arguments := [Value.ofEntries o.query, .ofEntries o.values, .ofEntries [
    ("ttl", integerValue o.ttl), ("if_exists", .bool o.ifExists),
    ("conditions", .ofOption (o.conditions.map Value.ofEntries))]]
  return {
    statement := .update { table, ttl, assignments, relations, condition }
    before := hookCall t .beforeUpdate arguments
    after := hookCall t .afterUpdate arguments }

/-! ## Other operations -/

/-- Put a deletion together. -/
def deletion (t : Table) (o : Deletion) : Action Prepared := do
  let relations ← requiredRelations t o.query "Delete"
  let table ← Identifier.accept o.table
  let arguments := [Value.ofEntries o.query, .map []]
  return {
    statement := .delete { table, relations }
    before := hookCall t .beforeDelete arguments
    after := hookCall t .afterDelete arguments }

/-- Put a definition together. -/
def definition (d : Ddl String) : Action Prepared :=
  return { statement := .define (← Action.lift d.accept) }

end Compile

open Compile in
/-- Put the statement of an operation together. -/
def Operation.compile (t : Table) : Operation → Action Prepared
  | select o => return { statement := .select (← selection t o) }
  | insert o => insertion t o
  | update o => modification t o
  | delete o => deletion t o
  | truncate o => return { statement := .truncate (← Identifier.accept o.table) }
  | createTable o => definition o.ddl
  | dropTable o => definition o.ddl
  | alterTable o => definition o.ddl
  | createIndex o => do definition (← Action.lift o.ddl)
  | createCustomIndex o => definition o.ddl
  | dropIndex o => definition o.ddl
  | createView o => definition o.ddl
  | dropView o => definition o.ddl

end WideColumn
