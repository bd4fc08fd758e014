import WideColumn.Session

/-!
# Calling functions

What a function value does when it is called: validators judge a value, message producers word a
complaint, default providers make a value, hooks observe a statement.
-/

namespace WideColumn.Callback

/-- The next number of a counting function. -/
def nextCount (site : Nat) (start : Int) : Action Int := do
  let s ← get
  let n := ((s.counts.find? fun c => c.1 == site).map (·.2)).getD start
  set { s with counts := (site, n + 1) :: s.counts.filter fun c => c.1 != site }
  pure n

/-- Note a call. -/
def observe (name : String) (arguments : List Value) : Action Unit :=
  modify fun s => { s with events := ⟨name, arguments⟩ :: s.events }

/-- The answer of a comparison; `symbol` names it when the values cannot be compared. -/
def judge (symbol : String) (answer : Except Value.Unordered Bool) : Action Value :=
  match answer with
  | .ok b => pure (.bool b)
  | .error e => throw (.ofUnordered symbol e)

/-- The length of the value lies on a side of a bound, or is equal to it. -/
def judgeLength (side : Value.Side) (value bound : Value) : Action Value :=
  match value.length? with
  | none => throw (.wrongType ("object of type '" ++ value.kindName ++ "' has no len()"))
  | some n =>
    let length := Value.int n
    judge (match side with | .below => "<=" | .above => ">=")
      ((Value.beyond side length bound).map (· || length.eqv bound))

/-- The text begins with another one. -/
def startsWith (value start : Value) : Action Value :=
  match value, start with
  | .text s, .text t => pure (.bool (t.toList.isPrefixOf s.toList))
  | .text _, v => throw (.wrongType
      ("startswith first arg must be str or a tuple of str, not " ++ v.kindName))
  | .octets .view _, _ => throw (.lacks value "startswith")
  | .octets .., v => throw (.wrongType
      ("startswith first arg must be bytes or a tuple of bytes, not " ++ v.kindName))
  | v, _ => throw (.lacks v "startswith")

/-- Call a function. -/
def call (behaviour : Behaviour) (fixed : List Value) (site : Nat) (arguments : List Value) :
    Action Value :=
  let own (i : Nat) : Value := (fixed[i]?).getD .null
  let given (i : Nat) : Value := (arguments[i]?).getD .null
  match behaviour with
  | .above => judge ">" (Value.beyond .above (given 0) (own 0))
  | .below => judge "<" (Value.beyond .below (given 0) (own 0))
  | .minLength => judgeLength .above (given 0) (own 0)
  | .maxLength => judgeLength .below (given 0) (own 0)
  | .startsWith => startsWith (given 0) (own 0)
  | .memberOf =>
    match own 0 with
    | .list xs => match (given 0).isIn? xs with
      | some b => pure (.bool b)
      | none => throw (.ofUnordered "==" .undefined)
    | v => throw (.wrongType ("argument of type '" ++ v.kindName ++ "' is not iterable"))
  | .constant => pure (own 0)
  | .observe => do
    observe "validator" [given 0]
    pure (own 0)
  | .count =>
    match own 0 with
    | .int n => Value.int <$> nextCount site n
    | _ => throw .badType
  | .summarize =>
    pure (.text ((given 1).display ++ ":" ++ (given 2).display ++ ":" ++ (given 0).display))
  | .pick =>
    match given 0 with
    | .map entries => do
      Action.lift (own 0).checkKey
      match Value.lookup (own 0) entries with
      | some v => pure v
      | none => throw (.absentValue (own 0))
    | _ => throw .badType
  | .hook => do
    observe (own 0).display arguments
    pure (own 1)
  | .raise =>
    match own 0 with
    | .exception kind message code => Action.fail (.ofException kind message code)
    | _ => throw .badType

/-- Call a value; what is not a function cannot be called. -/
def apply (f : Value) (arguments : List Value) : Action Value :=
  match f with
  | .function behaviour fixed site => call behaviour fixed site arguments
  | _ => throw .badType

end WideColumn.Callback
