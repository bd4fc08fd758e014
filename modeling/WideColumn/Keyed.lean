/-!
# Entries under names

Lists of entries with a name each, in the order in which the names were first put. Putting a value
under a name that is there replaces the value and keeps the place.
-/

namespace WideColumn.Keyed

variable {α : Type}

/-- The value under a name. -/
def get? (es : List (String × α)) (name : String) : Option α :=
  (es.find? fun e => e.1 == name).map (·.2)

/-- Put a value under a name. -/
def put (name : String) (value : α) : List (String × α) → List (String × α)
  | [] => [(name, value)]
  | (n, v) :: es => if n = name then (n, value) :: es else (n, v) :: put name value es

/-- Put entries one after the other. -/
def ofList (es : List (String × α)) : List (String × α) :=
  es.foldl (fun acc e => put e.1 e.2 acc) []

/-- Remove the value under a name. -/
def erase (name : String) (es : List (String × α)) : List (String × α) :=
  es.filter fun e => e.1 != name

/-- The names. -/
def names (es : List (String × α)) : List String := es.map (·.1)

/-- The same values under the same names, in any order; `eqv` says when two values are the same. -/
def eqv (same : α → α → Bool) (xs ys : List (String × α)) : Bool :=
  xs.length == ys.length && xs.all fun e => match get? ys e.1 with
    | some v => same e.2 v
    | none => false

/-- The value under a name is the given one. -/
def holds (same : α → α → Bool) (es : List (String × α)) (name : String) (value : α) : Bool :=
  match get? es name with
  | some v => same v value
  | none => false

end WideColumn.Keyed

namespace WideColumn.Ordered

/-- Put a text into its place among ordered ones, unless it is there. -/
def insert (s : String) : List String → List String
  | [] => [s]
  | t :: ts => if s < t then s :: t :: ts else if s = t then t :: ts else t :: insert s ts

/-- The texts in order, repetitions left out. -/
def distinct (xs : List String) : List String := xs.foldr insert []

/-- Put a text into its place among ordered ones, repetitions kept. -/
def insertAgain (s : String) : List String → List String
  | [] => [s]
  | t :: ts => if s < t then s :: t :: ts else t :: insertAgain s ts

/-- The texts in order. -/
def all (xs : List String) : List String := xs.foldr insertAgain []

end WideColumn.Ordered
