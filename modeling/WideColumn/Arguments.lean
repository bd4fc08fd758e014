import WideColumn.Failure
import WideColumn.Keyed

/-!
# Arguments

A call is given arguments by place and by name. Its parameters say which names there are, which of
them may be given by place, and how many have to be given at all; arguments that do not fit are of
the wrong shape.
-/

namespace WideColumn

/-- The parameters of a call. -/
structure Parameters where
  /-- The parameters that may be given by place, in order. -/
  placed : List String := []
  /-- The parameters that are given by name only. -/
  named : List String := []
  /-- The number of parameters, from the first, that have to be given. -/
  required : Nat := 0

/-- The arguments of a call. -/
structure Arguments where
  placed : List Value := []
  named : List (String × Value) := []

/-- Arguments under the names of their parameters. -/
structure Bound where
  entries : List (String × Value)

namespace Arguments

/-- Every argument under a name. -/
def entries (a : Arguments) (p : Parameters) : List (String × Value) :=
  p.placed.zip a.placed ++ a.named

/-- The arguments fit the parameters: none is unknown, given twice or missing. -/
def fits (a : Arguments) (p : Parameters) : Bool :=
  let all := a.entries p
  a.placed.length ≤ p.placed.length && all.all (fun e => (p.placed ++ p.named).contains e.1) &&
    (Keyed.ofList all).length == all.length &&
    (p.placed.take p.required).all fun n => (Keyed.get? all n).isSome

/-- Put arguments under the names of their parameters. -/
def bind (a : Arguments) (p : Parameters) : Except Failure Bound :=
  if a.fits p then .ok ⟨a.entries p⟩ else .error .badType

end Arguments

namespace Bound

/-- The argument of a name, or the value that stands for it when it is not given. -/
def get (b : Bound) (name : String) (absent : Value := .null) : Value :=
  (Keyed.get? b.entries name).getD absent

/-- The argument of a name counts as true. -/
def holds (b : Bound) (name : String) : Bool := (b.get name).isTrue

end Bound

/-! ## Entries given as data -/

namespace Value

/-- The elements of a value that stands for a pair. -/
def elementsOfPair? : Value → Option (List Value)
  | list xs | tuple xs | set _ xs => some xs
  | text s => some (s.toList.map fun c => .text (String.ofList [c]))
  | octets _ bs => some (bs.map fun b => .int b.toNat)
  | map es => some (es.map (·.1))
  | _ => none

/-- The pair that the element at a place stands for. -/
def toPair (place : Nat) (v : Value) : Except Failure (Value × Value) :=
  match v.elementsOfPair? with
  | none => .error (.wrongType ("cannot convert dictionary update sequence element #" ++
      toString place ++ " to a sequence"))
  | some [k, x] => do
    k.checkKey
    return (k, x)
  | some xs => .error (.badValue ("dictionary update sequence element #" ++
      toString place ++ " has length " ++ toString xs.length ++ "; 2 is required"))

/-- Entries from pairs, one after the other. -/
def pairsFrom (place : Nat) : List Value → Except Failure (List (Value × Value))
  | [] => .ok []
  | v :: vs => do return (← toPair place v) :: (← pairsFrom (place + 1) vs)

/-- The entries of a map, or those that a sequence of pairs stands for. -/
def toEntries (v : Value) : Except Failure (List (Value × Value)) :=
  match v with
  | .map es => .ok es
  | v =>
    match v.elementsOfPair? with
    | none => .error (.notIterable v)
    | some xs => do
      match mapOfList (← pairsFrom 0 xs) with
      | .map es => .ok es
      | _ => .ok []

end Value

end WideColumn
