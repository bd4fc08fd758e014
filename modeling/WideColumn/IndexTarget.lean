import WideColumn.Identifier

/-!
# Index targets

A secondary index is on a column or, for a collection, on its keys, its entries or its full value:
`name`, `keys(tags)`. The values of a collection are what an index is on when nothing else is said,
so `values(tags)` and `tags` are the same target.
-/

namespace WideColumn

/-- What part of a collection an index is on, other than its values. -/
inductive IndexFunction where
  | keys
  | entries
  | full
  deriving DecidableEq, Repr

/-- The name of an index function. -/
def IndexFunction.name : IndexFunction → String
  | .keys => "keys"
  | .entries => "entries"
  | .full => "full"

/-- An index target: a column, or a part of it. -/
structure IndexTarget where
  function : Option IndexFunction
  column : String
  deriving DecidableEq, Repr

namespace IndexTarget

/-- A function applied to what stands between its outer parentheses: the name, then the shortest
text that is followed by a closing parenthesis and nothing but blanks. -/
def applied? (cs : List Char) : Option (List Char × List Char) :=
  let name := cs.takeWhile fun c => Name.isLetter c || c == '_'
  match Text.stripLeft (cs.dropWhile fun c => Name.isLetter c || c == '_') with
  | '(' :: rest =>
    let body := Text.stripRight rest
    if name.isEmpty ∨ body.getLast? ≠ some ')' then none
    else
      let inside := body.dropLast
      let wrapped := Text.stripChars inside
      -- blanks alone count as what is wrapped unless they are all line ends
      if wrapped.isEmpty then (if inside.any (· != '\n') then some (name, []) else none)
      else if wrapped.contains '\n' then none
      else some (name, wrapped)
  | _ => none

/-- The parts of an index expression: the function if one is applied, and the column. -/
def parts? (cs : List Char) : Option (Option (List Char) × List Char) :=
  match applied? (Text.stripLeft cs) with
  | some (name, wrapped) => some (some name, wrapped)
  | none =>
    let bare := Text.stripChars cs
    if bare.isEmpty ∨ bare.contains '\n' then none else some (none, bare)

/-- The expression is not well formed. -/
def malformed (spelled : String) : String := "Malformed index expression: " ++ spelled

/-- Read an index expression; `spelled` is the expression as messages show it. -/
def read (spelled : String) (cs : List Char) : Except String IndexTarget :=
  match parts? cs with
  | none => .error (malformed spelled)
  | some (function, wrapped) =>
    let column := Text.stripChars (wrapped.filter (· != '"'))
    if column.isEmpty then .error (malformed spelled)
    else match function with
      | none => .ok ⟨none, String.ofList column⟩
      | some name =>
        match String.ofList (name.map Char.toLower) with
        -- values are what an index is on when no function is given
        | "values" => .ok ⟨none, String.ofList column⟩
        | "keys" => .ok ⟨some .keys, String.ofList column⟩
        | "entries" => .ok ⟨some .entries, String.ofList column⟩
        | "full" => .ok ⟨some .full, String.ofList column⟩
        | other => .error ("Unknown index function '" ++ other ++ "' in " ++ spelled)

/-- Read an index expression. -/
def ofText (s : String) : Except String IndexTarget := read (Text.quoted s) s.toList

/-- Read an index expression given as a value: only texts can be read, and what is empty is not
well formed. -/
def ofValue (v : Value) : Except Failure IndexTarget :=
  match v with
  | .text s => (ofText s).mapError .badValue
  | v => .error (if v.isTrue then .notText v else .badValue (malformed v.spelled))

/-- The canonical form of a target. -/
def canonical (t : IndexTarget) : String :=
  match t.function with
  | none => t.column
  | some f => f.name ++ "(" ++ t.column ++ ")"

/-- The target as a statement creates an index on it. -/
def format (t : IndexTarget) : String :=
  match t.function with
  | none => "\"" ++ t.column ++ "\""
  | some f => f.name ++ "(\"" ++ t.column ++ "\")"

end IndexTarget

end WideColumn
