import WideColumn.Value.Compare

/-!
# The text of values

`display` is how a message shows a value; a text is shown as it is. Inside collections a value is
`spelled`: texts between quotes, scalars with the name of their kind.
-/

namespace WideColumn

namespace Value

/-- Elements of a set in the order in which it is shown: numbers by size, all else as it was put
together. -/
def setOrderBy {α : Type} (value : α → Value) (xs : List α) : List α :=
  if xs.all fun x => (value x).magnitude?.isSome then
    xs.mergeSort fun a b => !(scalarBeyond .below (value b) (value a)).toOption.getD false
  else xs

/-- The order in which a set is shown. -/
def setOrder (xs : List Value) : List Value := setOrderBy id xs

/-- A truth value in words. -/
def truthText (b : Bool) : String := if b then "True" else "False"

/-- A scalar as it is spelled inside a collection. -/
def spelledScalar : Value → String
  | null => "None"
  | bool b => truthText b
  | int n => toString n
  | float x => x.render
  | decimal d => "Decimal('" ++ d.render ++ "')"
  | text s => Text.quoted s
  | octets .bytes bs => Text.quotedOctets bs
  | octets .array bs => "bytearray(" ++ Text.quotedOctets bs ++ ")"
  | octets .view _ => "<memory>"
  | unset => "UNSET"
  | missing => "MISSING"
  | uuid u => u.spelled
  | address a => a.spelled
  | date d => d.spelled
  | timestamp t => t.spelled
  | time t => t.spelled
  | duration d => d.spelled
  | function .. => "<function>"
  | list _ | tuple _ | set .. | map _ | exception .. => ""

/-- Elements between brackets. -/
def bracketed (opening closing : String) (parts : List String) : String :=
  opening ++ ", ".intercalate parts ++ closing

/-- A tuple: one element alone keeps a comma. -/
def tupleText : List String → String
  | [part] => "(" ++ part ++ ",)"
  | parts => bracketed "(" ")" parts

/-- A set: an empty one is named, a frozen one always. -/
def setText (frozen : Bool) (parts : List String) : String :=
  match frozen, parts with
  | false, [] => "set()"
  | false, parts => bracketed "\x7b" "\x7d" parts
  | true, [] => "frozenset()"
  | true, parts => bracketed "frozenset(\x7b" "\x7d)" parts

mutual

/-- A value as it is spelled inside a collection. -/
def spelled : Value → String
  | list xs => bracketed "[" "]" (spelledAll xs)
  | tuple xs => tupleText (spelledAll xs)
  | set frozen xs => setText frozen (spelledSet xs)
  | map es => bracketed "\x7b" "\x7d" (spelledEntries es)
  | exception kind message _ => kind.name ++ "(" ++ spelled message ++ ")"
  | v => spelledScalar v

/-- The elements of a list, each spelled. -/
def spelledAll : List Value → List String
  | [] => []
  | x :: xs => spelled x :: spelledAll xs

/-- The elements of a set in the order in which it is shown, each spelled. -/
def spelledSet (xs : List Value) : List String :=
  (setOrderBy Prod.fst (xs.zip (spelledAll xs))).map (·.2)

/-- The entries of a map, each spelled. -/
def spelledEntries : List (Value × Value) → List String
  | [] => []
  | (k, v) :: es => (spelled k ++ ": " ++ spelled v) :: spelledEntries es

end

/-- The text of a value by itself. An exception shows its message: an absent key is spelled, and a
refusal of the library shows its code. -/
def display : Value → String
  | text s => s
  | decimal d => d.render
  | uuid u => u.render
  | address a => a.render
  | date d => d.iso
  | timestamp t => t.iso " "
  | time t => t.iso
  | duration d => d.render
  | exception .absentKey message _ => spelled message
  | exception (.library code) message _ => "[" ++ code.number ++ "] " ++ display message
  | exception _ message _ => display message
  | v => spelled v

end Value

end WideColumn
