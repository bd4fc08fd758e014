import WideColumn.Scalar.Address
import WideColumn.Text.Numeral

/-!
# Universally unique identifiers

A 128-bit number written in five groups of hexadecimal digits. Reading is lenient: a `urn:` or
`uuid:` label, braces and hyphens are dropped, and what is left has to be a hexadecimal number in
exactly 32 characters.
-/

namespace WideColumn

/-- A universally unique identifier. -/
structure Uuid where
  bits : Nat
  deriving DecidableEq, Repr

namespace Uuid

/-- The text with every occurrence of `word` taken out. -/
def without (word : String) (s : String) : String := "".intercalate (s.splitOn word)

/-- The digits of a hexadecimal number, single low lines between digits skipped. -/
def hexDigits? : Bool → List Char → Option (List Nat)
  | afterDigit, [] => if afterDigit then some [] else none
  | afterDigit, '_' :: rest => if afterDigit then hexDigits? false rest else none
  | _, c :: rest => do
    let d ← Address.hexDigit? c
    return d :: (← hexDigits? true rest)

/-- A hexadecimal number: blanks around it, a sign, the mark `0x`, decimal digits of any script and
single low lines between the digits are all allowed. -/
def hexNumber? (cs : List Char) : Option Int := do
  let (negative, body) := match Text.plain cs with
    | '-' :: rest => (true, rest)
    | '+' :: rest => (false, rest)
    | rest => (false, rest)
  let ds ← match body with
    | '0' :: 'x' :: '_' :: rest => hexDigits? false rest
    | '0' :: 'X' :: '_' :: rest => hexDigits? false rest
    | '0' :: 'x' :: rest => hexDigits? false rest
    | '0' :: 'X' :: rest => hexDigits? false rest
    | rest => hexDigits? false rest
  let n := ds.foldl (fun (n : Nat) d => n * 16 + d) 0
  return if negative then -n else n

/-- Read an identifier. -/
def ofText? (s : String) : Option Uuid :=
  let bare := (without "uuid:" (without "urn:" s)).toList
  let brace (c : Char) := c == '\x7b' || c == '\x7d'
  let inner := ((bare.dropWhile brace).reverse.dropWhile brace).reverse.filter (· != '-')
  if inner.length = 32 then
    (hexNumber? inner).bind fun n =>
      if 0 ≤ n ∧ n < Nat.pow 2 128 then some ⟨n.toNat⟩ else none
  else none

/-- The version, known only for identifiers of the standard variant. -/
def version? (u : Uuid) : Option Nat :=
  if u.bits / Nat.pow 2 62 % 4 = 2 then some (u.bits / Nat.pow 2 76 % 16) else none

/-- The identifier in groups of 8, 4, 4, 4 and 12 digits. -/
def render (u : Uuid) : String :=
  let ds := Text.hex 32 u.bits
  "-".intercalate ([(0, 8), (8, 4), (12, 4), (16, 4), (20, 12)].map fun (i, n) =>
    String.ofList ((ds.drop i).take n))

/-- The identifier spelled out. -/
def spelled (u : Uuid) : String := "UUID(" ++ Text.quoted u.render ++ ")"

end Uuid

end WideColumn
