import WideColumn.Schema.Validation
import WideColumn.Identifier

/-!
# Operands

What stands for a value in a statement: a placeholder with the value to bind, the change of a
counter, or the text of a function of the store. Only values that pass the validator of their field
become operands. A list for a field that does not hold lists is checked leaf by leaf and bound as
one value.
-/

namespace WideColumn

/-- Accept a name for quoting. -/
def Identifier.accept (name : String) : Action Identifier := Action.lift (Identifier.ofText name)

/-- What stands for a value in a statement. -/
inductive Operand where
  | bound (value : Value)
  /-- The counter's own column, increased or decreased. -/
  | change (column : Identifier) (negative : Bool) (magnitude : Nat)
  /-- A function of the store, in its own words. -/
  | storeFunction (text : String)

namespace Operand

/-- The text of an operand. -/
def render : Operand → String
  | bound _ => "?"
  | change column negative _ => column.quoted ++ (if negative then " - ?" else " + ?")
  | storeFunction text => text

/-- The value that is bound, if one is. -/
def value? : Operand → Option Value
  | bound v => some v
  | change _ _ n => some (.int n)
  | storeFunction _ => none

/-- The values that are bound. -/
def params (o : Operand) : List Value := o.value?.toList

/-- The operand of a single value that has passed its checks, or an exempt one. -/
def ofChecked (v : FieldValidator) (value : Value) (relation : Bool) : Action Operand :=
  match value with
  | .int n =>
    if v.type = .counter ∧ !relation then do
      return .change (← Identifier.accept v.field.name) (decide (n < 0)) n.natAbs
    else pure (.bound value)
  | value => pure (.bound value)

/-- The operand of a value that is not looked into. -/
def ofSingle (v : FieldValidator) (value : Value) (relation : Bool) : Action Operand :=
  if value.isNullLike then pure (.bound value)
  else match value.storeFunction? with
    | some f => pure (.storeFunction f.display)
    | none => do
      v.check value
      ofChecked v value relation

/-- Refuse a function of the store in a place where a value has to be bound. -/
def refuseFunction {α : Type} (message : String) (name : String) : Action α :=
  Action.refuse (Refusal.invalidQuery (.text message) (.text name))

mutual

/-- The operand of a value of a field. In a relation a counter is compared, elsewhere it is
changed. -/
def compile (v : FieldValidator) (relation : Bool) : Value → Action Operand
  | .list xs =>
    if v.type.needsArgument then ofSingle v (.list xs) relation
    else (fun ys => .bound (.list ys)) <$> compileAll v relation xs
  | value => ofSingle v value relation

/-- The values bound for the elements of a list. -/
def compileAll (v : FieldValidator) (relation : Bool) : List Value → Action (List Value)
  | [] => pure []
  | x :: xs => do
    match (← compile v relation x).value? with
    | none =>
      refuseFunction ("Database functions cannot be bound inside a value list for field '" ++
        v.field.name ++ "'") v.field.name
    -- of a change to a counter this is the magnitude alone
    | some y => return y :: (← compileAll v relation xs)

end

end Operand

namespace Table

/-- The operand of a value of a named field. -/
def operand (t : Table) (name : String) (value : Value) (relation : Bool := false) :
    Action Operand := do
  Operand.compile (← t.validator name) relation value

/-- The value to bind in a relation where only a placeholder may stand. -/
def bindValue (t : Table) (name : String) (value : Value) : Action Value := do
  match (← t.operand name value true).value? with
  | some v => pure v
  | none =>
    Operand.refuseFunction ("A database function cannot be used here for field '" ++ name ++ "'")
      name

end Table

end WideColumn
