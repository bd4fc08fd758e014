import WideColumn.Operation.Member

/-!
# Operations on rows

What is asked for when rows are selected, inserted, updated or deleted. Queries and values are kept
as they were given; they are looked into when the statement is put together.
-/

namespace WideColumn

open Coercion

/-- A selection of rows, from the table or from one of its views. -/
structure Selection where
  table : String
  query : List (String × Value) := []
  items : Option (List String) := none
  isDistinct : Bool := false
  allowFiltering : Bool := false
  view : Option String := none

/-- The insertion of a row. -/
structure Insertion where
  table : String
  values : List (String × Value) := []
  ifNotExists : Bool := false
  ttl : Option Int := none

/-- The update of the rows that a query finds. -/
structure Modification where
  table : String
  query : List (String × Value)
  values : List (String × Value)
  ttl : Option Int := none
  ifExists : Bool := false
  conditions : Option (List (String × Value)) := none

/-- The deletion of the rows that a query finds. -/
structure Deletion where
  table : String
  query : List (String × Value)

/-- The removal of all rows. -/
structure Truncation where
  table : String

namespace Selection

/-- A selection given as data. -/
def ofEntries (es : List (Value × Value)) : Checked Selection :=
  Selection.mk <$> Member.table .select es
    <*> defaulted es "query" [] (mapOf any)
    <*> defaulted es "select" none (nullable (listOf text))
    <*> defaulted es "distinct" false truth
    <*> defaulted es "allow_filtering" false truth
    <*> defaulted es "materialized_view" none (nullable text)

/-- The members of the operation after its table. -/
def toEntries (o : Selection) : List (String × Value) :=
  [("query", Value.ofEntries o.query)] ++
    (o.items.map fun xs => ("select", Value.ofTexts xs)).toList ++
    [("distinct", .bool o.isDistinct), ("allow_filtering", .bool o.allowFiltering)] ++
    (o.view.map fun v => ("materialized_view", Value.text v)).toList

end Selection

namespace Insertion

/-- An insertion given as data. -/
def ofEntries (es : List (Value × Value)) : Checked Insertion :=
  Insertion.mk <$> Member.table .insert es
    <*> defaulted es "values" [] (mapOf any)
    <*> defaulted es "if_not_exists" false truth
    <*> defaulted es "ttl" none (nullable (integerFrom 0))

/-- The members of the operation after its table. -/
def toEntries (o : Insertion) : List (String × Value) :=
  [("values", Value.ofEntries o.values), ("if_not_exists", .bool o.ifNotExists)] ++
    (o.ttl.map fun n => ("ttl", Value.int n)).toList

end Insertion

namespace Modification

/-- Values, at least one. -/
def values? : Coercion (List (String × Value)) := fun v =>
  (mapOf any v).andThen fun es =>
    if es.isEmpty then broken "values cannot be empty" v else .ok es

/-- Only one kind of condition is given. -/
def checkCondition (found : Value) (o : Modification) : Checked Modification :=
  if o.ifExists && !(o.conditions.getD []).isEmpty then
    broken "Update accepts either if_exists or conditions, not both" found
  else .ok o

/-- An update given as data. -/
def ofEntries (es : List (Value × Value)) : Checked Modification :=
  (Modification.mk <$> Member.table .update es
    <*> required es "query" (mapOf any)
    <*> required es "values" values?
    <*> defaulted es "ttl" none (nullable (integerFrom 0))
    <*> defaulted es "if_exists" false truth
    <*> defaulted es "conditions" none (nullable (mapOf any))).andThen (checkCondition (.map es))

/-- The members of the operation after its table. -/
def toEntries (o : Modification) : List (String × Value) :=
  [("query", Value.ofEntries o.query), ("values", Value.ofEntries o.values)] ++
    (o.ttl.map fun n => ("ttl", Value.int n)).toList ++ [("if_exists", .bool o.ifExists)] ++
    (o.conditions.map fun es => ("conditions", Value.ofEntries es)).toList

end Modification

namespace Deletion

/-- A deletion given as data. -/
def ofEntries (es : List (Value × Value)) : Checked Deletion :=
  Deletion.mk <$> Member.table .delete es <*> required es "query" (mapOf any)

/-- The members of the operation after its table. -/
def toEntries (o : Deletion) : List (String × Value) := [("query", Value.ofEntries o.query)]

end Deletion

namespace Truncation

/-- A truncation given as data. -/
def ofEntries (es : List (Value × Value)) : Checked Truncation :=
  Truncation.mk <$> Member.table .truncate es

end Truncation

end WideColumn
