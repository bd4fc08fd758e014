import WideColumn.Query.Relation
import WideColumn.Statement.Projection

/-!
# Statements on rows

Selections, insertions, updates and deletions over accepted names, operands and relations. The
values are bound in the order in which their placeholders stand in the text.
-/

namespace WideColumn

/-- The direction of an order. -/
inductive Direction where
  | ascending
  | descending
  deriving DecidableEq, Repr

/-- The keyword of a direction. -/
def Direction.keyword : Direction → String
  | .ascending => "ASC"
  | .descending => "DESC"

/-- A selection of rows. -/
structure SelectStatement where
  isDistinct : Bool
  items : List Projection
  source : Identifier
  relations : List Relation
  grouping : Option (List Identifier)
  order : Option (List (Identifier × Direction))
  partitionLimit : Option Int
  limit : Option Int
  allowFiltering : Bool

/-- The insertion of a row. -/
structure InsertStatement where
  table : Identifier
  columns : List (Identifier × Operand)
  ifNotExists : Bool
  ttl : Option Int

/-- What an update does to a column. -/
inductive Assignment where
  | set (column : Identifier) (operand : Operand)
  /-- Puts elements at the end of a list, or into a set or map. -/
  | extend (column : Identifier) (operand : Operand)
  | prepend (column : Identifier) (operand : Operand)
  | remove (column : Identifier) (operand : Operand)
  /-- Removes the entries of a map under keys. -/
  | removeKeys (column : Identifier) (keys : List Value)
  /-- Replaces the value under a key of a map, or at an index of a list. -/
  | replace (column : Identifier) (key value : Value)

/-- What has to hold for an update to be made. -/
inductive Condition where
  | always
  | exists
  | relations (rs : List Relation)

/-- An update of rows. -/
structure UpdateStatement where
  table : Identifier
  ttl : Option Int
  assignments : List Assignment
  relations : List Relation
  condition : Condition

/-- A deletion of rows. -/
structure DeleteStatement where
  table : Identifier
  relations : List Relation

/-- The time after which what is written expires. -/
def ttlText : Option Int → String
  | none => ""
  | some n => " USING TTL " ++ toString n

namespace SelectStatement

/-- The condition on the rows. -/
def whereText (rs : List Relation) : String :=
  if rs.isEmpty then "" else " WHERE " ++ Relation.clause rs

/-- The grouping of the rows. -/
def groupText : Option (List Identifier) → String
  | none => ""
  | some names => " GROUP BY " ++ ", ".intercalate (names.map Identifier.quoted)

/-- The order of the rows. -/
def orderText : Option (List (Identifier × Direction)) → String
  | none => ""
  | some parts => " ORDER BY " ++
      ", ".intercalate (parts.map fun p => p.1.quoted ++ " " ++ p.2.keyword)

/-- A limit under its keyword. -/
def limitText (keyword : String) : Option Int → String
  | none => ""
  | some n => keyword ++ toString n

/-- The text of a selection. -/
def render (s : SelectStatement) : String :=
  "SELECT " ++ (if s.isDistinct then "DISTINCT " else "") ++ Projection.renderAll s.items ++
    " FROM " ++ s.source.quoted ++ whereText s.relations ++ groupText s.grouping ++
    orderText s.order ++ limitText " PER PARTITION LIMIT " s.partitionLimit ++
    limitText " LIMIT " s.limit ++ (if s.allowFiltering then " ALLOW FILTERING" else "") ++ ";"

/-- The values that a selection binds. -/
def params (s : SelectStatement) : List Value := s.relations.flatMap Relation.params

end SelectStatement

namespace InsertStatement

/-- The text of an insertion. -/
def render (s : InsertStatement) : String :=
  "INSERT INTO " ++ s.table.quoted ++ " (" ++
    ", ".intercalate (s.columns.map fun c => c.1.quoted) ++ ") VALUES (" ++
    ", ".intercalate (s.columns.map fun c => c.2.render) ++ ")" ++
    (if s.ifNotExists then " IF NOT EXISTS" else "") ++ ttlText s.ttl ++ ";"

/-- The values that an insertion binds. -/
def params (s : InsertStatement) : List Value := s.columns.flatMap fun c => c.2.params

end InsertStatement

namespace Assignment

/-- The text of an assignment. -/
def render : Assignment → String
  | set c o => c.quoted ++ "=" ++ o.render
  | extend c o => c.quoted ++ "=" ++ c.quoted ++ " + " ++ o.render
  | prepend c o => c.quoted ++ "=" ++ o.render ++ " + " ++ c.quoted
  | remove c o => c.quoted ++ "=" ++ c.quoted ++ " - " ++ o.render
  | removeKeys c _ => c.quoted ++ "=" ++ c.quoted ++ " - ?"
  | replace c _ _ => c.quoted ++ "[?]=?"

/-- The values that an assignment binds. -/
def params : Assignment → List Value
  | set _ o | extend _ o | prepend _ o | remove _ o => o.params
  | removeKeys _ keys => [.list keys]
  | replace _ key value => [key, value]

end Assignment

namespace Condition

/-- The text of a condition. -/
def render : Condition → String
  | always => ""
  | .exists => " IF EXISTS"
  | relations rs => " IF " ++ Relation.clause rs

/-- The values that a condition binds. -/
def params : Condition → List Value
  | always | .exists => []
  | relations rs => rs.flatMap Relation.params

end Condition

namespace UpdateStatement

/-- The text of an update. -/
def render (s : UpdateStatement) : String :=
  "UPDATE " ++ s.table.quoted ++ ttlText s.ttl ++ " SET " ++
    ", ".intercalate (s.assignments.map Assignment.render) ++ " WHERE " ++
    Relation.clause s.relations ++ s.condition.render ++ ";"

/-- The values that an update binds. -/
def params (s : UpdateStatement) : List Value :=
  s.assignments.flatMap Assignment.params ++ s.relations.flatMap Relation.params ++
    s.condition.params

end UpdateStatement

namespace DeleteStatement

/-- The text of a deletion. -/
def render (s : DeleteStatement) : String :=
  "DELETE FROM " ++ s.table.quoted ++ " WHERE " ++ Relation.clause s.relations ++ ";"

/-- The values that a deletion binds. -/
def params (s : DeleteStatement) : List Value := s.relations.flatMap Relation.params

end DeleteStatement

end WideColumn
