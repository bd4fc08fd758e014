import WideColumn.Failure
import WideColumn.Text.Blank
import WideColumn.Text.Case
import WideColumn.Text.Word

/-!
# Column types

The types a column may declare. A type is a name, for collections, tuples and frozen values with an
argument in angle brackets. The name alone decides which values a column accepts; the argument is
part of the declared type and is not looked into.
-/

namespace WideColumn

/-- A column type without its argument. -/
inductive ColumnType where
  | ascii | bigint | blob | boolean | counter | date | decimal | double | duration | float | inet
  | int | list | map | set | smallint | text | time | timestamp | timeuuid | tinyint | tuple | uuid
  | varchar | varint | frozen
  deriving DecidableEq, Repr

namespace ColumnType

/-- Every type. -/
def all : List ColumnType := [
  .ascii, .bigint, .blob, .boolean, .counter, .date, .decimal, .double, .duration, .float, .inet,
  .int, .list, .map, .set, .smallint, .text, .time, .timestamp, .timeuuid, .tinyint, .tuple, .uuid,
  .varchar, .varint, .frozen]

/-- The name of a type. -/
def name : ColumnType → String
  | .ascii => "ascii"
  | .bigint => "bigint"
  | .blob => "blob"
  | .boolean => "boolean"
  | .counter => "counter"
  | .date => "date"
  | .decimal => "decimal"
  | .double => "double"
  | .duration => "duration"
  | .float => "float"
  | .inet => "inet"
  | .int => "int"
  | .list => "list"
  | .map => "map"
  | .set => "set"
  | .smallint => "smallint"
  | .text => "text"
  | .time => "time"
  | .timestamp => "timestamp"
  | .timeuuid => "timeuuid"
  | .tinyint => "tinyint"
  | .tuple => "tuple"
  | .uuid => "uuid"
  | .varchar => "varchar"
  | .varint => "varint"
  | .frozen => "frozen"

/-- The type with a given name. -/
def ofName? (s : String) : Option ColumnType := all.find? (·.name == s)

theorem ofName?_name (t : ColumnType) : ofName? t.name = some t := by cases t <;> decide

/-- Lists, sets and maps. -/
def isCollection : ColumnType → Bool
  | .list | .set | .map => true
  | _ => false

/-- The types that need an argument. -/
def needsArgument : ColumnType → Bool
  | .list | .set | .map | .tuple | .frozen => true
  | _ => false

/-- An integer, truth values apart, between two bounds. -/
def isIntegerWithin (low high : Int) : Value → Bool
  | .int n => low ≤ n && n ≤ high
  | _ => false

/-- An integer of `bits` bits with a sign. -/
def isWord (bits : Nat) (v : Value) : Bool :=
  isIntegerWithin (-Nat.pow 2 (bits - 1)) (Nat.pow 2 (bits - 1) - 1) v

/-- The text is the standard form of an identifier of version 1. -/
def isTimeUuid (u : Uuid) : Bool := u.version? == some 1

/-- The number of nanoseconds in a day. -/
def nanosecondsPerDay : Int := 86400 * 1000000000

/-- The values a column of the type accepts. -/
def accepts : ColumnType → Value → Bool
  | .ascii, .text s => s.toList.all fun c => c.toNat < 0x80
  | .bigint, v | .counter, v => isWord 64 v
  | .int, v => isWord 32 v
  | .smallint, v => isWord 16 v
  | .tinyint, v => isWord 8 v
  | .varint, .int _ => true
  | .blob, .octets .. => true
  | .boolean, .bool _ => true
  | .date, .date _ => true
  | .date, .text s => (Date.ofText? s).isSome
  | .decimal, .decimal _ | .decimal, .int _ | .decimal, .float _ => true
  | .double, .int _ | .double, .float _ | .float, .int _ | .float, .float _ => true
  | .duration, .duration _ | .duration, .text _ => true
  | .inet, .address _ => true
  | .inet, .text s => (Address.ofText? s).isSome
  | .list, .list _ | .list, .tuple _ | .tuple, .list _ | .tuple, .tuple _ => true
  | .set, .set .. | .set, .list _ | .set, .tuple _ => true
  | .map, .map _ => true
  | .text, .text _ | .varchar, .text _ => true
  | .time, .time _ => true
  | .time, v => isIntegerWithin 0 (nanosecondsPerDay - 1) v
  | .timestamp, .timestamp _ | .timestamp, .date _ | .timestamp, .int _ => true
  | .uuid, .uuid _ | .uuid, .text _ => true
  | .timeuuid, .uuid u => isTimeUuid u
  | .timeuuid, .text s => ((Uuid.ofText? s).map isTimeUuid).getD false
  | .frozen, _ => true
  | _, _ => false

/-! ## Names in other spellings -/

/-- Another spelling of a type is replaced by the usual one. -/
def usualName (s : String) : String := if s == "varchar" then "text" else s

/-- The canonical name of a type: blanks and case removed, other spellings replaced. -/
def canonicalName (s : String) : String := usualName (Text.lower (Text.strip s))

/-- The characters with each whole word `varchar` replaced by `text`; `inWord` says that a word
character stands before. -/
def replaceWord (inWord : Bool) : List Char → List Char
  | [] => []
  | 'v' :: 'a' :: 'r' :: 'c' :: 'h' :: 'a' :: 'r' :: rest =>
    if !inWord && !(rest.head?.map Text.isWord).getD false then
      't' :: 'e' :: 'x' :: 't' :: replaceWord true rest
    else 'v' :: 'a' :: 'r' :: 'c' :: 'h' :: 'a' :: 'r' :: replaceWord true rest
  | c :: rest => c :: replaceWord (Text.isWord c) rest

/-- The canonical form of an argument: blanks, quotes and case removed, other spellings of types
replaced; an empty argument counts as none. -/
def canonicalArgument : Option String → Option String
  | none => none
  | some s =>
    if s.isEmpty then none
    else
      let bare := String.ofList (s.toList.filter fun c => !Text.isBlank c && c != '"')
      some (String.ofList (replaceWord false (Text.lower bare).toList))

/-! ## Type expressions -/

/-- A letter of a type name. -/
def isNameChar (c : Char) : Bool := ('a' ≤ c && c ≤ 'z') || ('A' ≤ c && c ≤ 'Z') || c == '_'

/-- Split a type into its name in lower case and its argument with the brackets. -/
def splitChars (cs : List Char) : Option (List Char × Option (List Char)) :=
  let body := Text.stripLeft cs
  let name := body.takeWhile isNameChar
  let rest := Text.stripLeft (body.dropWhile isNameChar)
  if name.isEmpty then none
  else match rest with
    | [] => some (name.map Char.toLower, none)
    | '<' :: _ =>
      let argument := Text.stripRight rest
      if argument.getLast? = some '>' then some (name.map Char.toLower, some argument) else none
    | _ => none

/-- Split the text of a type such as `map<text, int>` into `map` and `<text, int>`. -/
def split? (s : String) : Option (String × Option String) :=
  (splitChars s.toList).map fun (name, argument) =>
    (String.ofList name, argument.map String.ofList)

/-- The type is not well formed. -/
def malformed (spelled : String) : String := "Malformed type: " ++ spelled

/-- Split the text of a type, or say that it is not well formed. -/
def split (v : Value) : Except Failure (String × Option String) :=
  match v with
  | .text s => match split? s with
    | some parts => .ok parts
    | none => .error (.badValue (malformed v.spelled))
  | v => .error (if v.isTrue then .notText v else .badValue (malformed v.spelled))

/-- The text of a type with its argument. -/
def format (name : String) (argument : Option String) : String := name ++ argument.getD ""

/-- The characters between the first and the last one. -/
def inner (cs : List Char) : List Char := (cs.drop 1).dropLast

/-- The kind of collection a column holds: that of its type, and for a frozen type that of the
type in its argument. -/
def collectionKind? (name : String) (argument : Option String) : Option ColumnType :=
  match ofName? name with
  | some .frozen =>
    match argument with
    | none => none
    | some a =>
      if a.isEmpty then none
      else
        (splitChars (inner (Text.stripChars a.toList))).bind fun (inside, _) =>
          (ofName? (String.ofList inside)).filter isCollection
  | some t => if t.isCollection then some t else none
  | none => none

end ColumnType

end WideColumn
