import WideColumn.Number.Scaled
import WideColumn.Value.Basic

/-!
# Equality and order of values

Numbers are equal when they are equal as numbers, whatever their kind, so `1`, `true`, `1.0` and
the decimal `1.00` are one key of a map. Collections are equal element by element; sets and maps
are equal without regard to order. Functions and exceptions are equal only to themselves. Order is
partial: `beyond` says why two values have none.
-/

namespace WideColumn

/-- A number as equality and order see it. -/
inductive Magnitude where
  | finite (x : Scaled)
  | infinite (negative : Bool)
  | nan
  deriving DecidableEq

namespace Magnitude

/-- Equal as numbers; not-a-number is equal to nothing. -/
def eqv : Magnitude → Magnitude → Bool
  | finite x, finite y => x.compare y == .eq
  | infinite a, infinite b => a == b
  | _, _ => false

/-- Less as numbers. -/
def less : Magnitude → Magnitude → Bool
  | finite x, finite y => x.compare y == .lt
  | infinite true, finite _ => true
  | infinite true, infinite false => true
  | finite _, infinite false => true
  | _, _ => false

end Magnitude

/-- Lexicographic order of lists under an order of the elements. -/
def lexLess {α : Type} (less : α → α → Bool) : List α → List α → Bool
  | [], [] => false
  | [], _ :: _ => true
  | _ :: _, [] => false
  | a :: as, b :: bs => less a b || (!less b a && lexLess less as bs)

namespace Value

/-- The number that a numeric value stands for; truth values are one and zero. -/
def magnitude? : Value → Option Magnitude
  | bool b => some (.finite (.ofInt (if b then 1 else 0)))
  | int n => some (.finite (.ofInt n))
  | float (.infinite s) => some (.infinite s)
  | float x => some ((x.scaled?.map Magnitude.finite).getD .nan)
  | decimal (.infinite s) => some (.infinite s)
  | decimal d => some ((d.scaled?.map Magnitude.finite).getD .nan)
  | _ => none

/-- Equality of two values that are not collections. -/
def eqvScalar (a b : Value) : Bool :=
  match a.magnitude?, b.magnitude? with
  | some x, some y => x.eqv y
  | some _, none | none, some _ => false
  | none, none =>
    match a, b with
    | null, null | unset, unset | missing, missing => true
    | text s, text t => s == t
    | octets _ x, octets _ y => x == y
    | uuid x, uuid y => x == y
    | address x, address y => x == y
    | date x, date y => x == y
    | timestamp x, timestamp y => x == y
    | time x, time y => x == y
    | duration x, duration y => x == y
    | function _ _ i, function _ _ j => i == j
    | _, _ => false

/-- The value refuses to be compared with a number. -/
def isSignaling : Value → Bool
  | decimal d => d.isSignaling
  | _ => false

mutual

/-- Equality of values. -/
def eqv : Value → Value → Bool
  | list xs, list ys => eqvAll xs ys
  | tuple xs, tuple ys => eqvAll xs ys
  | set _ xs, set _ ys => xs.length == ys.length && subset xs ys
  | map xs, map ys => xs.length == ys.length && entriesIn xs ys
  | list _, _ | tuple _, _ | set .., _ | map _, _ => false
  | a, b => eqvScalar a b

/-- Equality element by element. -/
def eqvAll : List Value → List Value → Bool
  | [], [] => true
  | x :: xs, y :: ys => eqv x y && eqvAll xs ys
  | _, _ => false

/-- Every element of the first list is equal to one of the second. -/
def subset : List Value → List Value → Bool
  | [], _ => true
  | x :: xs, ys => ys.any (fun y => eqv x y) && subset xs ys

/-- Every entry of the first list has an equal one in the second. -/
def entriesIn : List (Value × Value) → List (Value × Value) → Bool
  | [], _ => true
  | (k, v) :: es, fs => fs.any (fun f => eqv k f.1 && eqv v f.2) && entriesIn es fs

end

/-- The value is equal to an element of the list. -/
def isIn (x : Value) (ys : List Value) : Bool := ys.any x.eqv

/-! ## Maps -/

/-- The value under a key. -/
def lookup (key : Value) : List (Value × Value) → Option Value
  | [] => none
  | (k, v) :: es => if key.eqv k then some v else lookup key es

/-- Put a value under a key: in place when the key is there, at the end otherwise. -/
def insertEntry (key value : Value) : List (Value × Value) → List (Value × Value)
  | [] => [(key, value)]
  | (k, v) :: es =>
    if key.eqv k then (k, value) :: es else (k, v) :: insertEntry key value es

/-- The map made by putting entries one after the other. -/
def mapOfList (entries : List (Value × Value)) : Value :=
  map (entries.foldl (fun es e => insertEntry e.1 e.2 es) [])

/-- The set of the elements of a list, repetitions left out. -/
def setOfList (frozen : Bool) (xs : List Value) : Value :=
  set frozen (xs.foldl (fun ys x => if x.isIn ys then ys else ys ++ [x]) [])

/-- The value under a text key. -/
def get? (entries : List (Value × Value)) (key : String) : Option Value := lookup (text key) entries

/-- The entry that marks a function of the store. -/
def storeFunction? : Value → Option Value
  | map es => get? es storeFunctionKey
  | _ => none

/-- The value marks a function of the store. -/
def isStoreFunction (v : Value) : Bool := v.storeFunction?.isSome

/-! ## Equality that may be refused -/

mutual

/-- Equality of values; nothing where a decimal refuses to be compared with a number. -/
def eqv? : Value → Value → Option Bool
  | list xs, list ys => if xs.length = ys.length then eqvAll? xs ys else some false
  | tuple xs, tuple ys => if xs.length = ys.length then eqvAll? xs ys else some false
  | map xs, map ys => if xs.length = ys.length then entriesIn? xs ys else some false
  | a, b =>
    if (a.isSignaling && b.magnitude?.isSome) || (b.isSignaling && a.magnitude?.isSome) then none
    else some (eqv a b)

/-- Equality element by element, up to the first two that are not equal. -/
def eqvAll? : List Value → List Value → Option Bool
  | x :: xs, y :: ys => do if ← eqv? x y then eqvAll? xs ys else some false
  | _, _ => some true

/-- Every entry of the first list has an equal one in the second. -/
def entriesIn? : List (Value × Value) → List (Value × Value) → Option Bool
  | [], _ => some true
  | (k, v) :: es, fs =>
    match fs.find? fun f => eqv k f.1 with
    | none => some false
    | some f => do if ← eqv? v f.2 then entriesIn? es fs else some false

end

/-- The value is equal to an element of the list; nothing where that cannot be said. -/
def isIn? (x : Value) : List Value → Option Bool
  | [] => some false
  | y :: ys => do if ← x.eqv? y then some true else x.isIn? ys

/-! ## Order -/

/-- The side of a bound on which a value may lie. -/
inductive Side where
  | below
  | above
  deriving DecidableEq

/-- Why two values have no order. -/
inductive Unordered where
  /-- Values of such kinds have no order. -/
  | kinds (left right : Value)
  /-- The addresses are of two versions. -/
  | versions (left right : Address)
  /-- One value is a date and the other a moment. -/
  | dates
  /-- A decimal is not a number. -/
  | undefined

/-- Less, or greater, as the side says. -/
def Side.holds {α : Type} (side : Side) (less : α → α → Bool) (a b : α) : Bool :=
  match side with
  | .below => less a b
  | .above => less b a

/-- The decimal is not a number. -/
def isUndefined : Value → Bool
  | decimal d => d.isNan
  | _ => false

/-- The value is a decimal. -/
def isDecimal : Value → Bool
  | decimal _ => true
  | _ => false

/-- Order of numbers; a decimal does not stand in one with what is not a number. -/
def numberBeyond (side : Side) (a b : Value) (x y : Magnitude) : Except Unordered Bool :=
  if (a.isDecimal || b.isDecimal) && (x == .nan || y == .nan) then .error .undefined
  else .ok (side.holds Magnitude.less x y)

/-- Order of addresses: by their bits. Of two addresses with the same bits, each is above the other
if their zones differ. -/
def addressBeyond (side : Side) (a b : Address) : Except Unordered Bool :=
  let ordered (x y : Nat) : Bool :=
    match side with
    | .below => decide (x < y)
    | .above => !decide (x < y) && a != b
  match a, b with
  | .v4 x, .v4 y => .ok (ordered x y)
  | .v6 x _, .v6 y _ => .ok (ordered x y)
  | _, _ => .error (.versions a b)

/-- Whether the first of two values that are not collections lies on a side of the second. -/
def scalarBeyond (side : Side) (a b : Value) : Except Unordered Bool :=
  match a.magnitude?, b.magnitude? with
  | some x, some y => numberBeyond side a b x y
  | none, none =>
    match a, b with
    | text s, text t => .ok (side.holds (fun a b => decide (a < b)) s t)
    | octets .view _, octets .view _ | octets .view _, octets .bytes _
    | octets .bytes _, octets .view _ => .error (.kinds a b)
    | octets _ x, octets _ y => .ok (side.holds (lexLess fun a b => decide (a < b)) x y)
    | date x, date y => .ok (side.holds (fun a b => decide (a < b)) x.ordinal y.ordinal)
    | timestamp x, timestamp y =>
      .ok (side.holds (fun a b => decide (a < b)) (x.iso " ") (y.iso " "))
    | date _, timestamp _ | timestamp _, date _ => .error .dates
    | time x, time y => .ok (side.holds (fun a b => decide (a < b)) x.iso y.iso)
    | duration x, duration y =>
      .ok (side.holds (fun a b => decide (a < b)) x.totalMicroseconds y.totalMicroseconds)
    | uuid x, uuid y => .ok (side.holds (fun a b => decide (a < b)) x.bits y.bits)
    | address x, address y => addressBeyond side x y
    | _, _ => .error (.kinds a b)
  | _, _ => .error (.kinds a b)

mutual

/-- Whether the first value lies on a side of the second. -/
def beyond (side : Side) : Value → Value → Except Unordered Bool
  | list xs, list ys => beyondAll side xs ys
  | tuple xs, tuple ys => beyondAll side xs ys
  | set _ xs, set _ ys => .ok (match side with
    | .below => decide (xs.length < ys.length) && subset xs ys
    | .above => decide (ys.length < xs.length) && subset ys xs)
  | a, b => scalarBeyond side a b

/-- Lexicographic order: the first elements that are not equal decide, then the lengths. -/
def beyondAll (side : Side) : List Value → List Value → Except Unordered Bool
  | x :: xs, y :: ys =>
    match eqv? x y with
    | none => .error .undefined
    | some true => beyondAll side xs ys
    | some false => beyond side x y
  | xs, ys => .ok (side.holds (fun m n => decide (m < n)) xs.length ys.length)

end

/-- Whether the first value is less than the second. -/
def less (a b : Value) : Except Unordered Bool := beyond .below a b

/-! ## Length -/

/-- The length of a text or a collection. -/
def length? : Value → Option Nat
  | text s => some s.length
  | octets _ bs => some bs.length
  | list xs | tuple xs | set _ xs => some xs.length
  | map es => some es.length
  | _ => none

end Value

end WideColumn
