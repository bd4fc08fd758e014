import WideColumn.Query.Operand

/-!
# Relations

A query maps fields to values. Each entry of a field is a relation: a bare value stands for
equality, a map whose keys are all operators gives one relation for each of them, and a list gives
the relations of its elements unless the field itself holds lists. Every value is bound, so the
text of a relation has only names, operators, placeholders and literals.
-/

namespace WideColumn

/-- A comparison of a column, or of a token, with an operand. -/
inductive Comparison where
  | eq | ne | isNot | gt | lt | gte | lte | like
  deriving DecidableEq, Repr

namespace Comparison

/-- The sign of a comparison. -/
def sign : Comparison → String
  | eq => "="
  | ne => "!="
  | isNot => "IS NOT"
  | gt => ">"
  | lt => "<"
  | gte => ">="
  | lte => "<="
  | like => "LIKE"

/-- The comparisons allowed between tokens. -/
def comparesTokens : Comparison → Bool
  | eq | gt | lt | gte | lte => true
  | _ => false

end Comparison

/-- An operator of a query. -/
inductive Operator where
  | compare (c : Comparison)
  | isIn
  | token
  | contains
  | containsKey
  deriving DecidableEq, Repr

namespace Operator

/-- The operators with their keys. -/
def keys : List (String × Operator) := [
  ("$eq", .compare .eq), ("$ne", .compare .ne), ("$isnt", .compare .isNot), ("$gt", .compare .gt),
  ("$lt", .compare .lt), ("$gte", .compare .gte), ("$lte", .compare .lte), ("$in", .isIn),
  ("$like", .compare .like), ("$token", .token), ("$contains", .contains),
  ("$contains_key", .containsKey)]

/-- The operator of a key, in any case. -/
def ofKey? (key : String) : Option Operator :=
  (keys.find? fun k => k.1 == Text.lower key).map (·.2)

end Operator

/-- A relation of a query. -/
inductive Relation where
  | compare (column : Identifier) (comparison : Comparison) (operand : Operand)
  | isIn (column : Identifier) (items : List Value)
  /-- A map has a value under a key. -/
  | entry (column : Identifier) (key value : Value)
  | contains (column : Identifier) (value : Value)
  | containsKey (column : Identifier) (key : Value)
  | token (columns : List Identifier) (comparison : Comparison) (operands : List Operand)
  /-- A query in the words of a search index. -/
  | search (query : String)
  /-- A query to a custom index by its name. -/
  | expression (index query : String)

namespace Relation

/-- The text of a relation. -/
def render : Relation → String
  | compare column c o => column.quoted ++ " " ++ c.sign ++ " " ++ o.render
  | isIn column _ => column.quoted ++ " IN ?"
  | entry column _ _ => column.quoted ++ "[?] = ?"
  | contains column _ => column.quoted ++ " CONTAINS ?"
  | containsKey column _ => column.quoted ++ " CONTAINS KEY ?"
  | token columns c os =>
    "token(" ++ ",".intercalate (columns.map Identifier.quoted) ++ ") " ++ c.sign ++ " token(" ++
      ",".intercalate (os.map Operand.render) ++ ")"
  | search query => "solr_query=" ++ literal query
  | expression index query => "expr(" ++ index ++ "," ++ literal query ++ ")"

/-- The values that a relation binds, in the order of its placeholders. -/
def params : Relation → List Value
  | compare _ _ o => o.params
  | isIn _ items => [.list items]
  | entry _ key value => [key, value]
  | contains _ v | containsKey _ v => [v]
  | token _ _ os => os.flatMap Operand.params
  | search _ | expression .. => []

/-- Relations that all have to hold. -/
def clause (rs : List Relation) : String := " AND ".intercalate (rs.map render)

end Relation

/-! ## Entries of a query -/

namespace Query

/-- The key of a query in the words of a search index. -/
def searchKey : String := "$solr_query"

/-- The key of a query to a custom index. -/
def expressionKey : String := "$expr"

/-- The key of the order of the rows. -/
def orderKey : String := "$orderby"

/-- The key of the grouping of the rows. -/
def groupKey : String := "$groupby"

/-- The key of the greatest number of rows. -/
def limitKey : String := "$limit"

/-- The key of the greatest number of rows of each partition. -/
def partitionLimitKey : String := "$per_partition_limit"

/-- The keys that shape the answer and are no relations. -/
def shapeKeys : List String := [orderKey, groupKey, limitKey, partitionLimitKey]

/-- Fail with an operator that is not allowed. -/
def refuseOperator {α : Type} (message field : String) : Action α :=
  Action.refuse (Refusal.invalidQuery (.text message) (.text field) .invalidOperator)

/-- Put an operand under its operator: in place when the operator is there. -/
def putOperand (o : Operator) (operand : Value) :
    List (Operator × Value) → List (Operator × Value)
  | [] => [(o, operand)]
  | (p, v) :: rest => if p = o then (p, operand) :: rest else (p, v) :: putOperand o operand rest

/-- The operator of a key that is a text. -/
def operatorOf? (key : Value) : Option Operator := key.text?.bind Operator.ofKey?

/-- The operands of an entry by their operators. A map with any other key, or with none, is the
operand of an equality. -/
def operands (entry : Value) : List (Operator × Value) :=
  let whole := [(Operator.compare .eq, entry)]
  match entry with
  | .map [] => whole
  | .map es =>
    match es.mapM fun e => (operatorOf? e.1).map fun o => (o, e.2) with
    | some found => found.foldl (fun os e => putOperand e.1 e.2 os) []
    | none => whole
  | _ => whole

/-- A list of fields, for a token. -/
def isComposite (key : String) : Bool := key.toList.contains ','

/-- The entries under a field. -/
def entries (t : Table) (key : String) (relation : Value) : Action (List Value) := do
  match relation with
  | .list xs =>
    if isComposite key then pure xs
    else if (← t.validator key).type.needsArgument then pure [relation]
    else pure xs
  | _ => pure [relation]

/-- The operands of a token, one for each column. -/
def tokenOperands (t : Table) : List String → List Value → Action (List Operand)
  | column :: columns, item :: items => do
    return (← t.operand column item true) :: (← tokenOperands t columns items)
  | _, _ => pure []

/-- Accept names for quoting. -/
def acceptAll : List String → Action (List Identifier)
  | [] => pure []
  | n :: ns => do return (← Identifier.accept n) :: (← acceptAll ns)

/-- The values for the columns of a token: the value itself for one column, a list with one value
for each otherwise. -/
def tokenValues? (columns : List String) (value : Value) : Option (List Value) :=
  match columns with
  | [_] => some [value]
  | _ => value.sequence?.filter fun vs => vs.length == columns.length

/-- The comparison between tokens that a key stands for. -/
def tokenComparison? (key : Value) : Option Comparison :=
  match Operator.ofKey? key.display with
  | some (.compare c) => if c.comparesTokens then some c else none
  | _ => none

/-- The relation of a token. -/
def tokenRelation (t : Table) (key : String) (operand : Value) : Action Relation :=
  match operand with
  | .map [(operator, value)] =>
    match tokenComparison? operator with
    | some c =>
      let columns := (key.splitOn ",").map Text.strip
      match tokenValues? columns value with
      | some values => do
        let operands ← tokenOperands t columns values
        return .token (← acceptAll columns) c operands
      | none => refuseOperator ("$token on '" ++ key ++ "' expects " ++ toString columns.length ++
          " value(s) matching the field list") key
    | none => refuseOperator
        ("Operator '" ++ Text.lower operator.display ++ "' is not allowed inside $token") key
  | .map _ =>
    refuseOperator ("$token on '" ++ key ++ "' expects exactly one comparison operator") key
  | _ => refuseOperator ("$token on '" ++ key ++ "' expects an operator mapping") key

/-- Bind each item of a list. -/
def bindAll (t : Table) (key : String) : List Value → Action (List Value)
  | [] => pure []
  | x :: xs => do return (← t.bindValue key x) :: (← bindAll t key xs)

/-- The relation of a field that is a collection with an element or an entry. -/
def containsRelation (f : Field) (column : Identifier) (operand : Value) : Action Relation :=
  if f.collectionKind?.isNone then
    refuseOperator ("$contains requires a collection field, '" ++ f.name ++ "' is " ++ f.type)
      f.name
  else match f.columnType?, operand with
    | some .map, .map [(key, value)] => pure (.entry column key value)
    | _, _ => pure (.contains column operand)

/-- The relation of a field that is a map with a key. -/
def containsKeyRelation (f : Field) (column : Identifier) (operand : Value) : Action Relation :=
  if f.collectionKind? = some .map then pure (.containsKey column operand)
  else refuseOperator ("$contains_key requires a map field, '" ++ f.name ++ "' is " ++ f.type)
    f.name

/-- The relation of an operator on a single field. -/
def fieldRelation (t : Table) (key : String) (operator : Operator) (operand : Value) :
    Action Relation := do
  let v ← t.validator key
  let column ← Identifier.accept key
  match operator with
  | .compare c => return .compare column c (← Operand.compile v true operand)
  | .isIn =>
    match operand.sequence? with
    | some items => return .isIn column (← bindAll t key items)
    | none => refuseOperator ("$in on '" ++ key ++ "' expects a list operand") key
  | .contains => containsRelation v.field column operand
  | .containsKey => containsKeyRelation v.field column operand
  | .token => tokenRelation t key operand

/-- The relation of an operator under a key. -/
def relation (t : Table) (key : String) (operator : Operator) (operand : Value) :
    Action Relation :=
  if operator = .token then tokenRelation t key operand
  else if isComposite key then
    refuseOperator ("Composite field list '" ++ key ++ "' is only valid with $token") key
  else fieldRelation t key operator operand

/-- The relations of the operators of one entry. -/
def operatorRelations (t : Table) (key : String) :
    List (Operator × Value) → Action (List Relation)
  | [] => pure []
  | (o, v) :: rest => do return (← relation t key o v) :: (← operatorRelations t key rest)

/-- The relations of the entries of one key. -/
def entryRelations (t : Table) (key : String) : List Value → Action (List Relation)
  | [] => pure []
  | e :: es => do return (← operatorRelations t key (operands e)) ++ (← entryRelations t key es)

/-- The relation of a query to a custom index. -/
def expressionRelation (v : Value) : Action Relation :=
  let malformed : Action Relation := Action.refuse (Refusal.invalidQuery
    (.text ("'" ++ expressionKey ++ "' expects a mapping with 'index' and 'query'"))
    (.text expressionKey))
  match v with
  | .map es =>
    match Value.get? es "index", Value.get? es "query" with
    | some index, some query => pure (.expression index.display query.display)
    | _, _ => malformed
  | _ => malformed

/-- The relations under one key of a query. -/
def keyRelations (t : Table) (key : Value) (value : Value) : Action (List Relation) :=
  match key with
  | .text key =>
    if key = searchKey then pure [.search value.display]
    else if key = expressionKey then List.singleton <$> expressionRelation value
    -- these keys are read with the selection and ask for no relation
    else if shapeKeys.contains key then pure []
    else if key.toList.head? = some '$' then
      refuseOperator ("Unknown query key '" ++ key ++ "'") key
    else do entryRelations t key (← entries t key value)
  | .octets .bytes _ | .octets .array _ => throw .badType
  | key => throw (.lacks key "startswith")

/-- The relations of a query in the order of its keys. -/
def relations (t : Table) : List (Value × Value) → Action (List Relation)
  | [] => pure []
  | (key, value) :: rest => do return (← keyRelations t key value) ++ (← relations t rest)

/-- The relations of a query given as a value: what counts as false asks for nothing. -/
def ofValue (t : Table) (query : Value) : Action (List Relation) :=
  match query with
  | .map es => relations t es
  | v => if v.isTrue then throw (.lacks v "items") else pure []

end Query

end WideColumn
