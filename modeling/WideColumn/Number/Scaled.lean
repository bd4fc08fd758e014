import WideColumn.Number.Decimal

/-!
# Numbers by their digits

Every integer, double and decimal is a coefficient times a power of ten. Two such numbers are
compared without being written out: the place of the first digit decides, and only for numbers that
begin at one place the coefficients do, over the smaller of the two exponents. So a decimal whose
exponent is very large costs no more than its digits.
-/

namespace WideColumn

/-- The number `± coefficient · 10 ^ exponent`. -/
structure Scaled where
  negative : Bool
  coefficient : Nat
  exponent : Int
  deriving DecidableEq, Repr

namespace Scaled

/-- An integer. -/
def ofInt (n : Int) : Scaled := ⟨decide (n < 0), n.natAbs, 0⟩

/-- The number `± significand · 2 ^ exponent`. -/
def ofBinary (negative : Bool) (significand : Nat) (exponent : Int) : Scaled :=
  if 0 ≤ exponent then ⟨negative, significand * Nat.pow 2 exponent.toNat, 0⟩
  else ⟨negative, significand * Nat.pow 5 (-exponent).toNat, exponent⟩

/-- The place before the first digit of the coefficient. -/
def place (x : Scaled) : Int := (Nat.toDigits 10 x.coefficient).length + x.exponent

/-- The number is below zero. -/
def isBelowZero (x : Scaled) : Bool := x.negative && x.coefficient != 0

/-- The coefficient over a smaller exponent. -/
def coefficientOver (x : Scaled) (exponent : Int) : Nat :=
  x.coefficient * Nat.pow 10 (x.exponent - exponent).toNat

/-- The order of two numbers without their signs. -/
def compareSizes (x y : Scaled) : Ordering :=
  if x.coefficient = 0 ∨ y.coefficient = 0 then compare x.coefficient y.coefficient
  else (compare x.place y.place).then
    (compare (x.coefficientOver (min x.exponent y.exponent))
      (y.coefficientOver (min x.exponent y.exponent)))

/-- The order of two numbers. -/
def compare (x y : Scaled) : Ordering :=
  match x.isBelowZero, y.isBelowZero with
  | false, false => compareSizes x y
  | true, true => compareSizes y x
  | true, false => .lt
  | false, true => .gt

end Scaled

/-- A double that is a number by its digits. -/
def Binary64.scaled? : Binary64 → Option Scaled
  | .finite negative m e => some (.ofBinary negative m e)
  | _ => none

namespace Decimal

/-- A decimal that is a number by its digits. -/
def scaled? : Decimal → Option Scaled
  | .finite negative c e => some ⟨negative, c, e⟩
  | _ => none

/-- The whole part of a decimal that is a number. -/
def wholePart? : Decimal → Option Int
  | .finite negative c e =>
    let n : Nat :=
      if 0 ≤ e then c * Nat.pow 10 e.toNat
      else if (Nat.toDigits 10 c).length < (-e).toNat then 0
      else c / Nat.pow 10 (-e).toNat
    some (if negative then -n else n)
  | _ => none

end Decimal

end WideColumn
