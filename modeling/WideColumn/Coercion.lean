import WideColumn.Failure
import WideColumn.Keyed
import WideColumn.Text.Blank

/-!
# Coercion of data into structures

Data given as values is checked member by member against what a structure expects. Where it fits
loosely it is converted: `"12"` is an integer, `"yes"` is true, a tuple is a list. All faults are
collected, in the order of the members, each with the path that leads to it.
-/

namespace WideColumn

/-- The outcome of a check: a result, or all faults found. -/
inductive Checked (α : Type) where
  | ok (a : α)
  | bad (issues : List Issue)

namespace Checked

/-- Faults of both sides are collected. -/
def map2 {α β γ : Type} (f : α → β → γ) : Checked α → Checked β → Checked γ
  | ok a, ok b => ok (f a b)
  | ok _, bad js => bad js
  | bad is, ok _ => bad is
  | bad is, bad js => bad (is ++ js)

instance : Applicative Checked where
  pure := ok
  seq f x := map2 (fun g a => g a) f (x ())

/-- Continue only without faults. -/
def andThen {α β : Type} (c : Checked α) (f : α → Checked β) : Checked β :=
  match c with
  | ok a => f a
  | bad is => bad is

/-- Put a step in front of the path of every fault. -/
def under {α : Type} (step : String) : Checked α → Checked α
  | ok a => ok a
  | bad is => bad (is.map fun i => { i with path := step :: i.path })

/-- Check every element of a list. -/
def all {α β : Type} (check : α → Checked β) : List α → Checked (List β)
  | [] => ok []
  | a :: as => map2 List.cons (check a) (all check as)

/-- The outcome as a result or a report on ill-shaped data. -/
def toExcept {α : Type} (subject : String) : Checked α → Except Failure α
  | ok a => .ok a
  | bad issues => .error (.malformed ⟨subject, issues⟩)

end Checked

/-- A check of a value. -/
abbrev Coercion (α : Type) := Value → Checked α

namespace Coercion

/-- One fault at the value itself. -/
def fault {α : Type} (kind message : String) (found : Value) : Checked α :=
  .bad [⟨[], kind, message, found⟩]

/-- Any value. -/
def any : Coercion Value := .ok

/-- The octets of a text in UTF-8, read back. -/
def utf8? (bs : List UInt8) : Option String := String.fromUTF8? ⟨bs.toArray⟩

/-- A text. -/
def text : Coercion String
  | .text s => .ok s
  | .octets .view bs => fault "string_type" "Input should be a valid string" (.octets .view bs)
  | .octets kind bs =>
    match utf8? bs with
    | some s => .ok s
    | none => fault "string_unicode"
        "Input should be a valid string, unable to parse raw data as a unicode string"
        (.octets kind bs)
  | v => fault "string_type" "Input should be a valid string" v

/-- A number of things with its unit. -/
def counted (n : Nat) (unit : String) : String :=
  toString n ++ " " ++ unit ++ if n = 1 then "" else "s"

/-- A text of at least `low` characters and, if there is a limit, of at most `high`. -/
def textWithin (low : Nat) (high : Option Nat := none) : Coercion String := fun v =>
  (text v).andThen fun s =>
    if s.length < low then
      fault "string_too_short" ("String should have at least " ++ counted low "character") v
    else match high with
      | none => .ok s
      | some most =>
        if most < s.length then
          fault "string_too_long" ("String should have at most " ++ counted most "character") v
        else .ok s

/-- Null, or what the check accepts. -/
def nullable {α : Type} (check : Coercion α) : Coercion (Option α)
  | .null => .ok none
  | v => match check v with
    | .ok a => .ok (some a)
    | .bad is => .bad is

/-! ## Integers -/

/-- White space in the narrow sense: the information separators are none. -/
def isSpace (c : Char) : Bool := Text.isBlank c && !('\x1c' ≤ c && c ≤ '\x1f')

/-- The characters without the white space at either end. -/
def trim (cs : List Char) : List Char :=
  ((cs.dropWhile isSpace).reverse.dropWhile isSpace).reverse

/-- What follows zeros and low lines in front of a number; `last` is the character before. Of
nothing but zeros the last one stays, and so does the one before a fraction. -/
def afterZeros? (last : Char) : List Char → Option (List Char)
  | [] => some [last]
  | c :: rest =>
    if c = '0' ∨ c = '_' then afterZeros? c rest
    else if c = '.' then some (last :: c :: rest)
    else if ('1' ≤ c ∧ c ≤ '9') ∨ c = '-' then some (c :: rest)
    else none

/-- The characters without zeros in front. -/
def withoutZeros? : List Char → Option (List Char)
  | '0' :: rest => afterZeros? '0' rest
  | c :: rest => if ('1' ≤ c ∧ c ≤ '9') ∨ c = '-' then some (c :: rest) else none
  | [] => none

/-- The characters without a fraction of zeros, of which there has to be one. -/
def withoutFraction (cs : List Char) : List Char :=
  match cs.dropWhile (· != '.') with
  | '.' :: zero :: zeros =>
    if (zero :: zeros).all (· == '0') then cs.takeWhile (· != '.') else cs
  | _ => cs

/-- The characters without low lines; one stands neither at an end nor beside another. -/
def withoutLowLines? (cs : List Char) : Option (List Char) :=
  let doubled := (cs.zip (cs.drop 1)).contains ('_', '_')
  if cs.head? = some '_' ∨ cs.getLast? = some '_' ∨ doubled then none
  else some (cs.filter (· != '_'))

/-- The white space around a text, a plus sign, the zeros in front and a fraction of zeros are no
part of its numeral. -/
def bareNumeral? (s : String) : Option (List Char) :=
  let bare := match trim s.toList with
    | '+' :: rest => if rest.head? = some '-' then [] else rest
    | rest => rest
  (withoutZeros? bare).map withoutFraction

/-- The greatest number of characters of a numeral that is read. -/
def longestNumeral : Nat := 4300

/-- The characters begin with a numeral that is too long to be read; one that begins with a zero is
none. -/
def beginsTooLong (cs : List Char) : Bool :=
  let digits := match cs with
    | '-' :: ds => ds
    | ds => ds
  digits.head? != some '0' &&
    longestNumeral < cs.length - digits.length + (digits.takeWhile Text.isAsciiDigit).length

/-- The integer that a numeral with or without a minus sign writes; after the sign a zero stands
alone. -/
def integerOfNumeral? : List Char → Option Int
  | '-' :: '0' :: _ :: _ => none
  | '-' :: ds => (Text.asciiNumber? ds).map fun n => -(n : Int)
  | ds => (Text.asciiNumber? ds).map fun n => (n : Int)

/-- The number has too many digits. -/
def tooLarge (found : Value) : Checked Int :=
  fault "int_parsing_size" "Unable to parse input string as an integer, exceeded maximum size" found

/-- The integer a text writes, or a fault at the value it came from. -/
def parsedInteger (s : String) (found : Value) : Checked Int :=
  let bare := (bareNumeral? s).getD []
  let numeral := (withoutLowLines? bare).getD bare
  if beginsTooLong s.toList || beginsTooLong numeral then tooLarge found
  else match integerOfNumeral? numeral with
    | some n => .ok n
    | none => fault "int_parsing"
        "Input should be a valid integer, unable to parse string as an integer" found

/-- A number without a fractional part. -/
def wholeNumber (q? : Option Rat) (found : Value) : Checked Int :=
  match q? with
  | none => fault "finite_number" "Input should be a finite number" found
  | some q =>
    if q.den = 1 then .ok q.num
    else fault "int_from_float"
      "Input should be a valid integer, got a number with a fractional part" found

/-- The integers of 64 bits. -/
def isWord (n : Int) : Bool := -Nat.pow 2 63 ≤ n && n < Nat.pow 2 63

/-- The integers of 64 bits that a double may stand for: the least one is left out. -/
def isDoubleWord (n : Int) : Bool := isWord n && n != -Nat.pow 2 63

/-- An integer. -/
def integer : Coercion Int
  | .int n => .ok n
  | .bool b => .ok (if b then 1 else 0)
  | .float x => (wholeNumber x.value? (.float x)).andThen fun n =>
    if isDoubleWord n then .ok n else tooLarge (.float x)
  | .decimal d => wholeNumber d.value? (.decimal d)
  | .text s => parsedInteger s (.text s)
  | .octets .bytes bs => parsedInteger ((utf8? bs).getD "") (.octets .bytes bs)
  | v => fault "int_type" "Input should be a valid integer" v

/-- An integer that is not less than a bound. -/
def integerFrom (low : Int) : Coercion Int := fun v =>
  (integer v).andThen fun n =>
    if n < low then
      fault "greater_than_equal"
        ("Input should be greater than or equal to " ++ toString low) v
    else .ok n

/-! ## Truth values -/

/-- The words for true and for false. -/
def truthWords : List (String × Bool) := [
  ("0", false), ("off", false), ("f", false), ("false", false), ("n", false), ("no", false),
  ("1", true), ("on", true), ("t", true), ("true", true), ("y", true), ("yes", true)]

/-- The text is not a word for true or for false. -/
def unknownTruth (found : Value) : Checked Bool :=
  fault "bool_parsing" "Input should be a valid boolean, unable to interpret input" found

/-- The value is of a kind that stands for no truth value. -/
def noTruth (found : Value) : Checked Bool :=
  fault "bool_type" "Input should be a valid boolean" found

/-- A word for true or false in any case. -/
def truthOfText (s : String) (found : Value) : Checked Bool :=
  match truthWords.find? fun w => w.1 == String.ofList (s.toList.map Char.toLower) with
  | some (_, b) => .ok b
  | none => unknownTruth found

/-- A number as a truth value: zero or one, among the integers of 64 bits. -/
def truthOfNumber (n? : Option Int) (found : Value) : Checked Bool :=
  match n? with
  | some 0 => .ok false
  | some 1 => .ok true
  | some n => if isWord n then unknownTruth found else noTruth found
  | none => noTruth found

/-- A truth value. -/
def truth : Coercion Bool
  | .bool b => .ok b
  | .int n => truthOfNumber (some n) (.int n)
  | .float x => truthOfNumber (x.toInt?.filter isDoubleWord) (.float x)
  | .decimal d => truthOfNumber (d.nearest.toInt?.filter isDoubleWord) (.decimal d)
  | .text s => truthOfText s (.text s)
  | .octets .bytes bs => truthOfText ((utf8? bs).getD "") (.octets .bytes bs)
  | v => noTruth v

/-! ## Functions and collections -/

/-- A function. -/
def callable : Coercion Value := fun v =>
  if v.isCallable then .ok v else fault "callable_type" "Input should be callable" v

/-- A text or a function. -/
def textOrCallable : Coercion Value := fun v =>
  match text v with
  | .ok s => .ok (.text s)
  | .bad is =>
    if v.isCallable then .ok v
    else .bad ((is.map fun i => { i with path := ["str"] }) ++
      [⟨["callable"], "callable_type", "Input should be callable", v⟩])

/-- The elements of a list, a tuple, a set or a view of octets. -/
def elements? : Value → Option (List Value)
  | .list xs | .tuple xs | .set _ xs => some xs
  | .octets .view bs => some (bs.map fun b => .int b.toNat)
  | _ => none

/-- Check elements, each under its position. -/
def positioned {α : Type} (check : Coercion α) (xs : List Value) : Checked (List α) :=
  .all (fun e => (check e.1).under (toString e.2)) xs.zipIdx

/-- A list. -/
def listOf {α : Type} (check : Coercion α) : Coercion (List α) := fun v =>
  match elements? v with
  | some xs => positioned check xs
  | none => fault "list_type" "Input should be a valid list" v

/-- A list with at least one element. -/
def nonEmptyListOf {α : Type} (check : Coercion α) : Coercion (List α) := fun v =>
  (listOf check v).andThen fun xs =>
    if xs.isEmpty then
      fault "too_short" "List should have at least 1 item after validation, not 0" v
    else .ok xs

/-- A tuple of any length. -/
def tupleOf {α : Type} (check : Coercion α) : Coercion (List α) := fun v =>
  match elements? v with
  | some xs => positioned check xs
  | none => fault "tuple_type" "Input should be a valid tuple" v

/-- A key as a step of a path: truth values are given by their numbers. -/
def keyStep : Value → String
  | .text s => s
  | .bool b => if b then "1" else "0"
  | v => v.spelled

/-- Entries that have to have text keys, their values checked. Keys that come down to the same text
are one key. -/
def entriesOf {α β : Type} (check : α → Checked β) (es : List (Value × α)) :
    Checked (List (String × β)) :=
  (Checked.all (fun e => Checked.map2 Prod.mk (((text e.1).under "[key]").under (keyStep e.1))
    ((check e.2).under (keyStep e.1))) es).andThen fun es => .ok (Keyed.ofList es)

/-- A map with text keys. -/
def mapOf {α : Type} (check : Coercion α) : Coercion (List (String × α))
  | .map es => entriesOf check es
  | v => fault "dict_type" "Input should be a valid dictionary" v

/-- Entries that have to have text keys. -/
def keyed {α : Type} (es : List (Value × α)) : Checked (List (String × α)) := entriesOf .ok es

/-! ## Words -/

/-- One of a set of words, given as a text or as octets. -/
def wordOf {α : Type} (ofWord? : String → Option α) (expected : String) : Coercion α := fun v =>
  match text v with
  | .ok s => match ofWord? s with
    | some a => .ok a
    | none => fault "enum" ("Input should be " ++ expected) v
  | .bad _ => fault "enum" ("Input should be " ++ expected) v

/-! ## Structures -/

/-- A member that has to be there. -/
def required {α : Type} (entries : List (Value × Value)) (name : String) (check : Coercion α) :
    Checked α :=
  (match Value.get? entries name with
   | some v => check v
   | none => fault "missing" "Field required" (.map entries)).under name

/-- A member with a default for when it is not there. -/
def defaulted {α : Type} (entries : List (Value × Value)) (name : String) (absent : α)
    (check : Coercion α) : Checked α :=
  match Value.get? entries name with
  | some v => (check v).under name
  | none => .ok absent

/-- A structure made from the entries of a map. -/
def structureOf {α : Type} (subject : String) (make : List (Value × Value) → Checked α) :
    Coercion α
  | .map es => make es
  | v => fault "model_type"
      ("Input should be a valid dictionary or instance of " ++ subject) v

/-- A fault that a structure's own rule reports. -/
def broken {α : Type} (message : String) (found : Value) : Checked α :=
  fault "value_error" ("Value error, " ++ message) found

end Coercion

end WideColumn
