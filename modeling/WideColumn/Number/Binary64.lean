import WideColumn.Text.Numeral

/-!
# Double-precision numbers

A double is kept as its exact value, a signed significand times a power of two, so that equality,
order and text are decided in integer arithmetic. `ofRatio` rounds a quotient to the nearest
double, a tie to the even significand, and `shortest` finds the decimal with the fewest digits
that rounds back.
-/

namespace WideColumn

/-- A double: `± significand · 2 ^ exponent`, an infinity, or not a number. -/
inductive Binary64 where
  | finite (negative : Bool) (significand : Nat) (exponent : Int)
  | infinite (negative : Bool)
  | nan
  deriving DecidableEq, Repr

namespace Binary64

/-- The least exponent of a double. -/
def minExponent : Int := -1074

/-- The greatest exponent of a double. -/
def maxExponent : Int := 971

/-- `num / den` rounded to the nearest natural number, a tie to the even one. -/
def roundRatio (num den : Nat) : Nat :=
  let q := num / den
  let r := num % den
  if 2 * r < den then q else if den < 2 * r then q + 1 else q + q % 2

/-- `num / (den · 2 ^ e)` rounded to the nearest natural number. -/
def scaledRound (num den : Nat) (e : Int) : Nat :=
  if 0 ≤ e then roundRatio num (den * Nat.pow 2 e.toNat)
  else roundRatio (num * Nat.pow 2 (-e).toNat) den

/-- The double nearest to `± num / den`. -/
def ofRatio (negative : Bool) (num den : Nat) : Binary64 :=
  if num = 0 ∨ den = 0 then .finite negative 0 minExponent
  else
    let guess : Int := (num.log2 : Int) - den.log2 - 53
    -- the quotient has 53 or 54 bits above the guessed exponent
    let e := if scaledRound num den guess < Nat.pow 2 53 then guess else guess + 1
    let e := max e minExponent
    let m := scaledRound num den e
    let (m, e) := if m = Nat.pow 2 53 then (Nat.pow 2 52, e + 1) else (m, e)
    if maxExponent < e then .infinite negative else .finite negative m e

/-- The double nearest to an integer. -/
def ofInt (n : Int) : Binary64 := ofRatio (n < 0) n.natAbs 1

/-- The exact value; nothing for infinities and for not a number. -/
def value? : Binary64 → Option Rat
  | .finite negative m e =>
    let magnitude : Rat :=
      if 0 ≤ e then (m * Nat.pow 2 e.toNat : Nat) else mkRat m (Nat.pow 2 (-e).toNat)
    some (if negative then -magnitude else magnitude)
  | _ => none

/-- The double is zero of either sign. -/
def isZero : Binary64 → Bool
  | .finite _ m _ => m == 0
  | _ => false

/-- The integer equal to the double, if there is one. -/
def toInt? (x : Binary64) : Option Int :=
  x.value?.bind fun q => if q.den = 1 then some q.num else none

/-! ## Shortest decimals -/

/-- The decimal exponent of the first digit of `num / den`, both positive. -/
def firstPlace (num den : Nat) : Int :=
  if den ≤ num then ((Nat.toDigits 10 (num / den)).length : Int) - 1
  else -((Nat.toDigits 10 ((den - 1) / num)).length : Int)

/-- `num / den / 10 ^ k` as a quotient of natural numbers. -/
def decimalScale (num den : Nat) (k : Int) : Nat × Nat :=
  if 0 ≤ k then (num, den * Nat.pow 10 k.toNat) else (num * Nat.pow 10 (-k).toNat, den)

/-- The point of the decimal grid `10 ^ k` that lies between `low` and `high` (all over `den`) and
is nearest to `num`; the ends count when `closed`, and a tie goes to the even point. -/
def gridPoint? (num low high den : Nat) (closed : Bool) (k : Int) : Option Nat :=
  let (n, d) := decimalScale num den k
  let below := n / d
  let inside (c : Nat) : Bool :=
    let (lo, dl) := decimalScale low den k
    let (hi, dh) := decimalScale high den k
    if closed then lo ≤ c * dl && c * dh ≤ hi else lo < c * dl && c * dh < hi
  match inside below, inside (below + 1) with
  | true, true =>
    let r := 2 * (n % d)
    some (if r < d then below else if d < r then below + 1 else below + below % 2)
  | true, false => some below
  | false, true => some (below + 1)
  | false, false => none

/-- The first grid with a point between the bounds, from one digit to seventeen. -/
def searchGrid (num low high den : Nat) (closed : Bool) (place : Int) :
    List Nat → Nat × Int
  | [] => let k := place - 16
          let (n, d) := decimalScale num den k
          (roundRatio n d, k)
  | n :: rest =>
    let k := place - n
    match gridPoint? num low high den closed k with
    | some c => (c, k)
    | none => searchGrid num low high den closed place rest

/-- The digits of the shortest decimal that rounds to `m · 2 ^ e`, and the decimal exponent of the
first one. -/
def shortest (m : Nat) (e : Int) : List Char × Int :=
  let narrow := m == Nat.pow 2 52 && minExponent < e
  let scale (k : Nat) : Nat := if 0 ≤ e then k * Nat.pow 2 e.toNat else k
  let den := if 0 ≤ e then 4 else 4 * Nat.pow 2 (-e).toNat
  let num := scale (4 * m)
  let low := scale (4 * m - if narrow then 1 else 2)
  let high := scale (4 * m + 2)
  let (c, k) := searchGrid num low high den (m % 2 == 0) (firstPlace num den) (List.range 17)
  let cs := Nat.toDigits 10 c
  let kept := (cs.reverse.dropWhile (· == '0')).reverse
  (if kept.isEmpty then ['0'] else kept, k + cs.length - 1)

/-- The layout of a double's text: positional between two decimal exponents, with the mark and the
least number of digits of the exponent otherwise. -/
structure Layout where
  firstPositional : Int
  firstScientific : Int
  mark : Char
  exponentDigits : Nat

/-- Positional from `0.0001` up to sixteen digits, and `e` with a sign and two digits beyond. -/
def plainLayout : Layout := ⟨-4, 16, 'e', 2⟩

/-- An exponent with its sign and at least `width` digits. -/
def exponentText (width : Nat) (e : Int) : List Char :=
  let ds := Nat.toDigits 10 e.natAbs
  (if e < 0 then '-' else '+') :: List.replicate (width - ds.length) '0' ++ ds

/-- The digits laid out as a number; `place` is the decimal exponent of the first digit. -/
def layOut (layout : Layout) (ds : List Char) (place : Int) : List Char :=
  if place < layout.firstPositional ∨ layout.firstScientific ≤ place then
    let tail := match ds.drop 1 with
      | [] => []
      | rest => '.' :: rest
    ds.take 1 ++ tail ++ layout.mark :: exponentText layout.exponentDigits place
  else if place < 0 then
    '0' :: '.' :: List.replicate (-place - 1).toNat '0' ++ ds
  else
    let whole := place.toNat + 1
    if ds.length ≤ whole then ds ++ List.replicate (whole - ds.length) '0' ++ ['.', '0']
    else ds.take whole ++ '.' :: ds.drop whole

/-- The text of a double: the shortest digits that read back. -/
def render : Binary64 → String
  | .nan => "nan"
  | .infinite negative => if negative then "-inf" else "inf"
  | .finite negative m e =>
    let body := if m = 0 then ['0', '.', '0']
      else let (ds, place) := shortest m e
           layOut plainLayout ds place
    String.ofList (if negative then '-' :: body else body)

/-! ## Reading -/

/-- The parts of an unsigned decimal: the digits before and after the point, and the exponent. -/
def splitDecimal (cs : List Char) : Option (List Char × List Char × Int) :=
  let mantissa := cs.takeWhile fun c => c != 'e' && c != 'E'
  let power := (cs.dropWhile fun c => c != 'e' && c != 'E').drop 1
  let whole := mantissa.takeWhile (· != '.')
  let fraction := (mantissa.dropWhile (· != '.')).drop 1
  let exponent? : Option Int :=
    if mantissa.length = cs.length then some 0
    else match power with
      | '-' :: ds => (Text.asciiNumber? ds).map fun n => -(n : Int)
      | '+' :: ds => (Text.asciiNumber? ds).map fun n => (n : Int)
      | ds => (Text.asciiNumber? ds).map fun n => (n : Int)
  if (whole ++ fraction).all (fun c => (Text.asciiDigit? c).isSome) && !(whole ++ fraction).isEmpty
  then exponent?.map fun e => (whole, fraction, e)
  else none

/-- The double nearest to `± n · 10 ^ e`. A number whose first digit stands beyond the range of
doubles is not computed. -/
def ofDecimal (negative : Bool) (n : Nat) (e : Int) : Binary64 :=
  let place : Int := (Nat.toDigits 10 n).length + e
  if n = 0 ∨ place < -330 then .finite negative 0 minExponent
  else if 310 < place then .infinite negative
  else if 0 ≤ e then ofRatio negative (n * Nat.pow 10 e.toNat) 1
  else ofRatio negative n (Nat.pow 10 (-e).toNat)

/-- The characters without the low lines, each of which has to stand between digits. -/
def joinDigits? (afterDigit : Bool) : List Char → Option (List Char)
  | [] => some []
  | '_' :: c :: rest =>
    if afterDigit && (Text.asciiDigit? c).isSome then
      (joinDigits? true rest).map (c :: ·)
    else none
  | c :: rest =>
    if c = '_' then none else (joinDigits? (Text.asciiDigit? c).isSome rest).map (c :: ·)

/-- The double nearest to a decimal numeral, also in words: `nan`, `inf` and `infinity`. The digits
may be of any script, with single low lines between them, and blanks may stand around all. -/
def ofText? (s : String) : Option Binary64 :=
  let (negative, cs) := match Text.plain s.toList with
    | '-' :: rest => (true, rest)
    | '+' :: rest => (false, rest)
    | rest => (false, rest)
  match String.ofList (cs.map Char.toLower) with
  | "nan" => some .nan
  | "inf" => some (.infinite negative)
  | "infinity" => some (.infinite negative)
  | _ =>
    ((joinDigits? false cs).bind splitDecimal).bind fun (whole, fraction, e) =>
      (Text.asciiNumber? (whole ++ fraction)).map fun n =>
        ofDecimal negative n (e - fraction.length)

end Binary64

end WideColumn
