/-!
# Sorting by an order that may fail

A list is sorted by an order whose comparisons may fail: the first failure ends the sort. The list
begins with a run, which is turned round when it descends; every further value is put into its
place, found by halving, behind the values that it is not less than. So values that are not less
than each other keep their order, and which two values are compared first is fixed.
-/

namespace WideColumn.Sorting

variable {α ε : Type}

/-- Split a list where the run that follows `before` ends: the next value is less or is not less,
as `descending` says. -/
def spanRun (less : α → α → Except ε Bool) (descending : Bool) (before : α) :
    List α → Except ε (List α × List α)
  | [] => .ok ([], [])
  | x :: xs => do
    if (← less x before) = descending then
      let (run, rest) ← spanRun less descending x xs
      return (x :: run, rest)
    else return ([], x :: xs)

/-- The run at the beginning of a list, in ascending order, and the rest. -/
def firstRun (less : α → α → Except ε Bool) : List α → Except ε (List α × List α)
  | x :: y :: zs => do
    let descending ← less y x
    let (run, rest) ← spanRun less descending y zs
    -- a descending run has no two equal elements, so turning it round is stable
    return (if descending then (x :: y :: run).reverse else x :: y :: run, rest)
  | xs => .ok (xs, [])

/-- The place of a value in an ordered list, between two places. -/
def placeOf (less : α → α → Except ε Bool) (x : α) (xs : List α) (low high : Nat) :
    Except ε Nat :=
  if _h : low < high then
    let middle := low + (high - low) / 2
    match xs[middle]? with
    | none => .ok low
    | some y => do
      if ← less x y then placeOf less x xs low middle
      else placeOf less x xs (middle + 1) high
  else .ok low
termination_by high - low
decreasing_by all_goals omega

/-- Put a value into its place in an ordered list. -/
def insert (less : α → α → Except ε Bool) (xs : List α) (x : α) : Except ε (List α) := do
  let place ← placeOf less x xs 0 xs.length
  return xs.take place ++ x :: xs.drop place

/-- The values of a list in order. -/
def sort (less : α → α → Except ε Bool) (xs : List α) : Except ε (List α) := do
  let (run, rest) ← firstRun less xs
  rest.foldlM (insert less) run

end WideColumn.Sorting
