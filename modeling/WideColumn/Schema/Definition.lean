import WideColumn.Schema.Table
import WideColumn.Coercion

/-!
# The declarative form of a table

A table is usually declared as one map: its fields with their types and rules, its key, and what
else belongs to it. `Table.ofDefinition` reads the map and registers the table. `Table.ofParts`
registers a table whose parts are given as structures already.
-/

namespace WideColumn

open Coercion

/-! ## Structures given as data -/

namespace Rule

/-- A rule given as data. -/
def coercion : Coercion Rule := structureOf "FieldRule" fun es =>
  Rule.mk <$> defaulted es "validator" none (nullable callable)
    <*> defaulted es "message" none (nullable textOrCallable)
    <*> defaulted es "required" false truth
    <*> defaulted es "ignore_default" false truth

end Rule

namespace Field

/-- A field from the entries of a map. -/
def ofEntries (es : List (Value × Value)) : Checked Field :=
  Field.mk <$> required es "name" (textWithin 1)
    <*> required es "type" (textWithin 1)
    <*> defaulted es "type_def" none (nullable text)
    <*> defaulted es "default" .missing any
    <*> defaulted es "rules" [] (tupleOf Rule.coercion)
    <*> defaulted es "virtual" false truth
    <*> defaulted es "static" false truth

/-- A field given as data. -/
def coercion : Coercion Field := structureOf "FieldSchema" ofEntries

end Field

namespace IndexDeclaration

/-- An index declaration from the entries of a map. -/
def ofEntries (es : List (Value × Value)) : Checked IndexDeclaration :=
  IndexDeclaration.mk <$> required es "on" (textWithin 1)
    <*> required es "using" (textWithin 1)
    <*> defaulted es "options" [] (mapOf any)

/-- An index declaration given as data. -/
def coercion : Coercion IndexDeclaration := structureOf "CustomIndexSchema" ofEntries

end IndexDeclaration

namespace View

/-- A view given as data. -/
def coercion : Coercion View := structureOf "MaterializedViewSchema" fun es =>
  View.mk <$> defaulted es "select" ["*"] (tupleOf text)
    <*> required es "partition_key" (tupleOf text)
    <*> defaulted es "clustering_key" [] (tupleOf text)
    <*> defaulted es "clustering_order" [] (mapOf text)

end View

namespace TableDraft

/-- The parts of a declaration from the entries of a map. -/
def ofEntries (es : List (Value × Value)) : Checked TableDraft :=
  TableDraft.mk <$> required es "table_name" text
    <*> required es "fields" (mapOf Field.coercion)
    <*> required es "partition_key" (tupleOf text)
    <*> defaulted es "clustering_key" [] (tupleOf text)
    <*> defaulted es "clustering_order" [] (mapOf text)
    <*> defaulted es "indexes" [] (tupleOf text)
    <*> defaulted es "custom_indexes" [] (tupleOf IndexDeclaration.coercion)
    <*> defaulted es "materialized_views" [] (mapOf View.coercion)
    <*> defaulted es "default_ttl" none (nullable (integerFrom 0))
    <*> defaulted es "hooks" [] (mapOf callable)

end TableDraft

/-! ## Reading the declarative form -/

namespace Definition

/-- Fail with an invalid definition of what is given as a table, of one of its fields if one is
given. -/
def invalidIn {α : Type} (table : Value) (message : String) (field : Value := .null) :
    Except Failure α :=
  .error (.refusal (Refusal.invalidSchema (.text message) table field))

/-- Fail with an invalid definition of a table, of one of its fields if one is given. -/
def invalid {α : Type} (table message : String) (field : Value := .null) : Except Failure α :=
  invalidIn (.text table) message field

/-- The elements that a value yields one after the other: those of a collection, the keys of a
map, the characters of a text. -/
def elements (v : Value) : Except Failure (List Value) :=
  match v with
  | .list xs | .tuple xs | .set _ xs => .ok xs
  | .map es => .ok (es.map (·.1))
  | .text s => .ok (s.toList.map fun c => .text (String.singleton c))
  | .octets _ bs => .ok (bs.map fun b => .int b.toNat)
  | v => .error (.notIterable v)

/-- The elements of a value, nothing when it is empty or null. -/
def elementsOrNone (v : Value) : Except Failure (List Value) :=
  if v.isTrue then elements v else .ok []

/-- The entries of a map, nothing when the value is empty or null. -/
def entriesOrNone (v : Value) : Except Failure (List (Value × Value)) :=
  match v with
  | .map es => .ok es
  | v => if v.isTrue then .error (.lacks v "items") else .ok []

/-- The value under a key; null when there is none. -/
def part (es : List (Value × Value)) (key : String) : Value := (Value.get? es key).getD .null

/-- A text that is not empty. -/
def isName : Value → Bool
  | .text s => !s.isEmpty
  | _ => false

/-- Split a key into the columns of the partition, given alone or as a list, and the clustering
columns after it. -/
def parseKey (key table : Value) : Except Failure (List String × List String) := do
  let parts := match key with
    | .text s => [Value.text s]
    | .list xs | .tuple xs => xs
    | _ => []
  match parts with
  | [] => invalidIn table ("Table '" ++ table.display ++ "' must declare a non-empty key")
  | head :: rest =>
    let partition ← match head with
      | .text s => pure [Value.text s]
      | v => elementsOrNone v
    if partition.isEmpty || !partition.all isName then
      invalidIn table ("Table '" ++ table.display ++ "' has an invalid partition key: " ++
        head.spelled)
    else if !rest.all isName then
      invalidIn table ("Table '" ++ table.display ++ "' has an invalid clustering key: " ++
        (Value.list rest).spelled)
    else return (partition.filterMap Value.text?, rest.filterMap Value.text?)

/-- A direction is ascending or descending in any case. -/
def parseDirection (table : Value) (e : Value × Value) : Except Failure (Value × Value) :=
  let direction := Text.upper (Text.strip e.2.display)
  if direction == "ASC" || direction == "DESC" then .ok (e.1, .text direction)
  else invalidIn table ("Clustering order for '" ++ e.1.display ++
    "' must be ASC or DESC, got " ++ e.2.spelled) e.1

/-- The directions of clustering columns. -/
def parseOrder (order table : Value) : Except Failure (List (Value × Value)) := do
  (← entriesOrNone order).mapM (parseDirection table)

/-- Fail with a rule that is not well formed. -/
def invalidRule {α : Type} (message : String) (field : Value) : Except Failure α :=
  .error (.refusal (Refusal.invalidRule (.text message) field))

/-- One validator of a rule, given alone or with the wording of its complaint. -/
def parseValidator (field entry : Value) : Except Failure Rule :=
  let es := match entry with
    | .map es => es
    | v => [(.text "validator", v)]
  let validator := part es "validator"
  let message := part es "message"
  if !validator.isCallable then
    invalidRule ("Validator for field '" ++ field.display ++ "' must be callable") field
  else match message with
    | .null => .ok { validator := some validator }
    | .text s => .ok { validator := some validator, message := some (.text s) }
    | m =>
      if m.isCallable then .ok { validator := some validator, message := some m }
      else invalidRule ("Validator message for field '" ++ field.display ++
        "' must be a string or callable") field

/-- The validators of a rule map: a list of them, or one with its message. -/
def validatorsOf (es : List (Value × Value)) (field : Value) : Except Failure (List Value) :=
  match Value.get? es "validators" with
  | some (.list xs) => .ok xs
  | some (.tuple xs) => .ok xs
  | some _ => invalidRule ("'validators' for field '" ++ field.display ++ "' must be a list") field
  | none =>
    match Value.get? es "validator" with
    | some v => .ok [.map [(.text "validator", v), (.text "message", part es "message")]]
    | none => .ok []

/-- The rules of a field: the validators in order, then the flags. -/
def parseRules (rule field : Value) : Except Failure (List Rule) :=
  match rule with
  | .null => .ok []
  | .map es => do
    let flags : Rule := {
      required := (part es "required").isTrue, ignoreDefault := (part es "ignore_default").isTrue }
    let rules ← (← validatorsOf es field).mapM (parseValidator field)
    return if flags.required || flags.ignoreDefault then rules ++ [flags] else rules
  | v =>
    if v.isCallable then .ok [{ validator := some v }]
    else invalidRule ("Rule for field '" ++ field.display ++ "' must be a callable or a mapping")
      field

/-- The name and the argument of a declared type. -/
def parseType (table : String) (name type : Value) :
    Except Failure (String × Option String) :=
  match ColumnType.split? type.display with
  | some parts => .ok parts
  | none => invalid table (ColumnType.malformed (Text.quoted type.display)) name

/-- Read one field: its type alone, or a map with its type and more. -/
def parseField (name definition : Value) (table : String) : Except Failure Field := do
  let es := match definition with
    | .map es => es
    | .text s => [(.text "type", .text s)]
    | _ => []
  match Value.get? es "type" with
  | none => invalid table ("Field '" ++ name.display ++ "' must declare a type") name
  | some type =>
    let (typeName, inlineArgument) ← parseType table name type
    let given := (Value.get? es "type_def").getD (part es "typeDef")
    let argument := if given.isTrue then given
      else (inlineArgument.map Value.text).getD .null
    let rules ← parseRules (part es "rule") name
    (Field.mk <$> (textWithin 1 none name).under "name"
      <*> pure typeName
      <*> (nullable text argument).under "type_def"
      <*> pure ((Value.get? es "default").getD .missing)
      <*> pure rules
      <*> pure (part es "virtual").isTrue
      <*> pure (part es "static").isTrue).toExcept "FieldSchema"

/-- Read one view. -/
def parseView (name definition : Value) (table : String) : Except Failure View :=
  match definition with
  | .map es => do
    let (partitionKey, clusteringKey) ← parseKey (part es "key") (.text table)
    let select := part es "select"
    let columns ← match select with
      | .text s => if s.isEmpty then pure [.text "*"] else pure [.text s]
      | v => if v.isTrue then elements v else pure [.text "*"]
    let order ← parseOrder (part es "clustering_order") (.text table)
    (View.mk <$> (positioned text columns).under "select"
      <*> pure partitionKey
      <*> pure clusteringKey
      <*> (mapOf text (.map order)).under "clustering_order").toExcept "MaterializedViewSchema"
  | _ => invalid table ("Materialized view '" ++ name.display ++ "' must be a mapping")

/-- Read one custom index. -/
def parseCustomIndex (v : Value) : Except Failure IndexDeclaration :=
  match v with
  | .map es =>
    if es.all fun e => e.1.text?.isSome then
      (IndexDeclaration.ofEntries es).toExcept "CustomIndexSchema"
    else .error .badType
  | _ => .error .badType

/-- The hooks that are given. -/
def givenHooks (es : List (Value × Value)) : List (Value × Value) :=
  HookName.all.filterMap fun h =>
    let v := part es h.name
    if v.isTrue then some (.text h.name, v) else none

/-- The parts of a declaration, read from its map. -/
def parseDraft (name : String) (es fields : List (Value × Value))
    (key : List String × List String) (customIndexes : List Value) (options : Value) :
    Except Failure TableDraft := do
  let fields ← fields.mapM fun e => return (e.1, ← parseField e.1 e.2 name)
  let order ← parseOrder (part es "clustering_order") (.text name)
  let indexes ← elementsOrNone (part es "indexes")
  let customIndexes ← customIndexes.mapM parseCustomIndex
  let views ← (← entriesOrNone (part es "materialized_views")).mapM fun e =>
    return (e.1, ← parseView e.1 e.2 name)
  let ttl ← match options with
    | .map os => pure (part os "ttl")
    | v => if v.isTrue then .error .noAttribute else pure .null
  (TableDraft.mk name <$> (keyed fields).under "fields"
    <*> pure key.1
    <*> pure key.2
    <*> (mapOf text (.map order)).under "clustering_order"
    <*> (positioned text indexes).under "indexes"
    <*> pure customIndexes
    <*> (keyed views).under "materialized_views"
    <*> (nullable (integerFrom 0) ttl).under "default_ttl"
    <*> (mapOf callable (.map (givenHooks es))).under "hooks").toExcept "TableSchema"

/-- Ill-shaped parts are an invalid definition of the table. -/
def wrapMalformed {α : Type} (table : String) : Except Failure α → Except Failure α
  | .error (.malformed m) => .error (.refusal (Refusal.invalidSchema
      (.text ("Invalid definition for table '" ++ table ++ "': " ++ m.firstMessage)) (.text table)
      .null [] (some (Failure.malformed m).toCause)))
  | r => r

end Definition

namespace Table

open Definition

/-- Register the table that a map declares. -/
def ofDefinition (name definition : Value) : Except Failure Table := do
  match name with
  | .text table =>
    if !Name.isTable table then .error (.refusal (Refusal.invalidTableName name))
    else match definition with
      | .map es =>
        match part es "fields" with
        | .map (f :: fs) =>
          let key ← parseKey (part es "key") name
          let listed ← elementsOrNone (part es "custom_indexes")
          let single := part es "custom_index"
          let customIndexes := if single.isTrue then listed ++ [single] else listed
          -- only from here on is a malformed part reported as one
          wrapMalformed table do
            (← parseDraft table es (f :: fs) key customIndexes (part es "options")).register
        | _ => invalid table ("Table '" ++ table ++ "' must declare at least one field")
      | _ => invalid table "Table definition must be a mapping"
  | v => .error (.refusal (Refusal.invalidTableName v))

/-- Register a table from its parts given as data. -/
def ofParts (parts : Value) : Except Failure Table :=
  match parts with
  | .map es =>
    if es.all fun e => e.1.text?.isSome then do
      (← (TableDraft.ofEntries es).toExcept "TableSchema").register
    else .error .badType
  | _ => .error .badType

end Table

end WideColumn
