import WideColumn.Migration.Run
import WideColumn.Schema.Definition

/-!
# Inquiries

The rules on types, index targets, names, keys and answers can be asked one by one with values as
they come. A rule that is about texts says what is wrong with a value that is none.
-/

namespace WideColumn

/-- What can be asked. -/
inductive Inquiry where
  | isKnownType
  | isCollection
  | needsArgument
  | canonicalType
  | canonicalArgument
  | splitType
  | collectionKind
  | formatType
  | accepts
  | parseTarget
  | canonicalTarget
  | targetColumn
  | formatTarget
  | customIndexKey
  | quoteName
  | quoteText
  | parseKey
  | parseOrder
  | isApproved
  | isStoreFunction
  | isNullLike
  | isUnset
  | storeFunction
  | widens
  | prompt
  deriving DecidableEq, Repr

namespace Inquiry

open Coercion

/-- The least and the greatest number of values with which something is asked. -/
def arity : Inquiry → Nat × Nat
  | collectionKind | formatType => (1, 2)
  | accepts | parseKey | parseOrder | prompt => (2, 2)
  | widens => (4, 4)
  | _ => (1, 1)

/-- The type that a value names, when it may be looked up in a map. -/
def namedType (v : Value) : Except Failure (Option ColumnType) := do
  v.checkKey
  return v.text?.bind ColumnType.ofName?

/-- The type that a value names, when it may be looked up in a set: there a set is no fault. -/
def memberType (v : Value) : Except Failure (Option ColumnType) :=
  match v with
  | .set .. => .ok none
  | v => namedType v

/-- The text, or null. -/
def ofText? (s : Option String) : Value := (s.map Value.text).getD .null

/-- A tuple of texts. -/
def ofTexts (xs : List String) : Value := .tuple (xs.map .text)

/-- An octet is a blank of ASCII. -/
def isBlankOctet (b : UInt8) : Bool := b == 0x20 || (0x09 ≤ b && b ≤ 0x0D)

/-- Octets without blanks around them, their letters small. -/
def cleanOctets (bs : List UInt8) : List UInt8 :=
  let bare := ((bs.dropWhile isBlankOctet).reverse.dropWhile isBlankOctet).reverse
  bare.map fun b => if 0x41 ≤ b ∧ b ≤ 0x5A then b + 0x20 else b

/-- The canonical name of a type; octets are treated alike, but have no other spellings. -/
def canonicalName (v : Value) : Except Failure Value :=
  match v with
  | .text s => .ok (.text (ColumnType.canonicalName s))
  | .octets .bytes bs => .ok (.octets .bytes (cleanOctets bs))
  | .octets .array _ => .error .badType
  | v => .error (.lacks v "strip")

/-- The canonical form of an argument. -/
def canonicalArgumentOf (v : Value) : Except Failure (Option String) :=
  match v with
  | .text s => .ok (ColumnType.canonicalArgument (some s))
  | v => if v.isTrue then .error (.notText v) else .ok none

/-- The octets between the first and the last one that are no blank hold nothing. -/
def isHollow (bs : List UInt8) : Bool := (cleanOctets bs).length ≤ 2

/-- The kind of collection of a type with an argument. -/
def collectionKindOf (name argument : Value) : Except Failure (Option String) := do
  match ← memberType name, argument with
  | none, _ => return none
  | some type, argument =>
    if type ≠ .frozen then return if type.isCollection then some type.name else none
    else match argument with
      | .text s => return (ColumnType.collectionKind? "frozen" (some s)).map ColumnType.name
      | .octets .view (_ :: _) => throw (.lacks argument "strip")
      | .octets kind bs =>
        if isHollow bs then return none else throw (.notText (.octets kind bs))
      | v => if v.isTrue then throw (.lacks v "strip") else return none

/-- A name between double quotes. -/
def quoted (v : Value) : Except Failure String :=
  match v with
  | .text s => (·.quoted) <$> Identifier.ofText s
  | .octets .bytes _ | .octets .array _ => .error .badType
  | v => .error (.lacks v "strip")

/-- A column from its type and its argument. -/
def columnOf (type argument : Value) : Except Failure Column :=
  ((fun type argument => { type, argument }) <$> (text type).under "type"
    <*> (nullable text argument).under "type_def" : Checked Column).toExcept "NormalizedField"

/-- The answer about the value at each place; those that are not given are null. -/
def answerAt (q : Inquiry) (place : Nat → Value) : Except Failure Value := do
  let target := IndexTarget.ofValue (place 0)
  match q with
  | isKnownType => return .bool (← namedType (place 0)).isSome
  | isCollection =>
    return .bool (((← memberType (place 0)).map ColumnType.isCollection).getD false)
  | needsArgument =>
    return .bool (((← memberType (place 0)).map ColumnType.needsArgument).getD false)
  | canonicalType => canonicalName (place 0)
  | canonicalArgument => ofText? <$> canonicalArgumentOf (place 0)
  | splitType =>
    let (name, argument) ← ColumnType.split (place 0)
    return .tuple [.text name, ofText? argument]
  | collectionKind => ofText? <$> collectionKindOf (place 0) (place 1)
  | formatType =>
    return .text ((place 0).display ++ if (place 1).isTrue then (place 1).display else "")
  | accepts =>
    match ← namedType (place 0) with
    | some t => return .bool (t.accepts (place 1))
    | none => throw (.absentValue (place 0))
  | parseTarget =>
    let t ← target
    return .tuple [ofText? (t.function.map IndexFunction.name), .text t.column]
  | canonicalTarget => (fun t => .text t.canonical) <$> target
  | targetColumn => (fun t => .text t.column) <$> target
  | formatTarget => (fun t => .text t.format) <$> target
  | customIndexKey => .text <$> CustomIndex.keyOfDefinition (place 0)
  | quoteName => .text <$> quoted (place 0)
  | quoteText => return .text (literal (place 0).display)
  | parseKey =>
    let (partition, clustering) ← Definition.parseKey (place 0) (place 1)
    return .tuple [ofTexts partition, ofTexts clustering]
  | parseOrder => .map <$> Definition.parseOrder (place 0) (place 1)
  | isApproved => return .bool (Migration.isApproved (place 0))
  | isStoreFunction => return .bool (place 0).isStoreFunction
  | isNullLike => return .bool (place 0).isNullLike
  | isUnset => return .bool (place 0 matches .unset)
  | storeFunction => return Value.mapOfList [(.text Value.storeFunctionKey, place 0)]
  | widens =>
    let narrow ← columnOf (place 0) (place 1)
    let wide ← columnOf (place 2) (place 3)
    return .bool (narrow.widensTo wide)
  | prompt => return .list [.list [.text (Migration.consolePrompt (place 1).display)], place 0]

/-- The answer about values; their number has to fit, and an answer cannot hold an exception. -/
def answer (q : Inquiry) (values : List Value) : Except Failure Value := do
  let (least, most) := q.arity
  if values.length < least ∨ most < values.length then throw .badType
  let v ← q.answerAt fun i => (values[i]?).getD .null
  if v.holdsException then throw .badType else return v

end Inquiry

end WideColumn
