import WideColumn.Number.Binary64

/-!
# Decimal numbers

A decimal keeps its coefficient and exponent, so `1.50` and `1.5` are equal and still written
differently. Its text is positional unless the exponent is positive or the number is below
`0.000001`.
-/

namespace WideColumn

/-- A decimal number: `± coefficient · 10 ^ exponent`, an infinity, or not a number. What is not a
number carries a payload and may be signaling: then it cannot even be compared for equality. -/
inductive Decimal where
  | finite (negative : Bool) (coefficient : Nat) (exponent : Int)
  | infinite (negative : Bool)
  | nan (signaling negative : Bool) (payload : Nat)
  deriving DecidableEq, Repr

namespace Decimal

/-- The payload that digits write; there may be none. -/
def payload? (cs : List Char) : Option Nat :=
  if cs.isEmpty then some 0 else Text.asciiNumber? cs

/-- What is written in words: an infinity, or not a number with its payload. -/
def ofWord? (negative : Bool) (cs : List Char) : Option Decimal :=
  match cs.map Char.toLower with
  | 'n' :: 'a' :: 'n' :: rest => (payload? rest).map (.nan false negative)
  | 's' :: 'n' :: 'a' :: 'n' :: rest => (payload? rest).map (.nan true negative)
  | word =>
    if ["inf", "infinity"].contains (String.ofList word) then some (.infinite negative) else none

/-- The number that a numeral without sign writes. -/
def ofNumeral? (negative : Bool) (cs : List Char) : Option Decimal :=
  (Binary64.splitDecimal cs).bind fun (whole, fraction, e) =>
    (Text.asciiNumber? (whole ++ fraction)).map fun n => .finite negative n (e - fraction.length)

/-- The decimal that a numeral or a word writes. -/
def ofText? (s : String) : Option Decimal :=
  let (negative, cs) := match s.toList with
    | '-' :: rest => (true, rest)
    | '+' :: rest => (false, rest)
    | rest => (false, rest)
  (ofWord? negative cs).or (ofNumeral? negative cs)

/-- Not a number. -/
def isNan : Decimal → Bool
  | nan .. => true
  | _ => false

/-- The decimal is zero of either sign. -/
def isZero : Decimal → Bool
  | finite _ c _ => c == 0
  | _ => false

/-- Not a number, and not to be compared at all. -/
def isSignaling : Decimal → Bool
  | nan signaling _ _ => signaling
  | _ => false

/-- The exact value; nothing for infinities and for not a number. -/
def value? : Decimal → Option Rat
  | .finite negative c e =>
    let magnitude : Rat :=
      if c = 0 then 0
      else if 0 ≤ e then (c * Nat.pow 10 e.toNat : Nat)
      else mkRat c (Nat.pow 10 (-e).toNat)
    some (if negative then -magnitude else magnitude)
  | _ => none

/-- The double nearest to a decimal. -/
def nearest : Decimal → Binary64
  | .finite negative c e => .ofDecimal negative c e
  | .infinite negative => .infinite negative
  | .nan .. => .nan

/-- The text of a decimal. -/
def render : Decimal → String
  | .nan signaling negative payload =>
    (if negative then "-" else "") ++ (if signaling then "sNaN" else "NaN") ++
      if payload = 0 then "" else toString payload
  | .infinite negative => if negative then "-Infinity" else "Infinity"
  | .finite negative c e =>
    let ds := Nat.toDigits 10 c
    let place : Int := e + ds.length - 1
    let body :=
      -- written out unless that takes more than five zeros behind the point
      if e ≤ 0 ∧ -6 ≤ place then
        let point : Int := ds.length + e
        if e = 0 then ds
        else if 0 < point then ds.take point.toNat ++ '.' :: ds.drop point.toNat
        else '0' :: '.' :: List.replicate (-point).toNat '0' ++ ds
      else
        let tail := match ds.drop 1 with
          | [] => []
          | rest => '.' :: rest
        ds.take 1 ++ tail ++ 'E' :: Binary64.exponentText 1 place
    String.ofList (if negative then '-' :: body else body)

end Decimal

end WideColumn
