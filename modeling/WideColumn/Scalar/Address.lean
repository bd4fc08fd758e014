import WideColumn.Text.Quoted
import WideColumn.Text.Digit

/-!
# Network addresses

Addresses of version 4 in four decimal octets and of version 6 in eight groups of hexadecimal
digits, the longest run of zero groups written as `::`. An octet has no leading zero.
-/

namespace WideColumn

/-- An address of version 4 or of version 6 with an optional zone. -/
inductive Address where
  | v4 (bits : Nat)
  | v6 (bits : Nat) (zone : Option String)
  deriving DecidableEq, Repr

namespace Address

/-- The characters between separators. -/
def splitChars (separator : Char) (cs : List Char) : List (List Char) :=
  match cs with
  | [] => [[]]
  | c :: rest =>
    if c = separator then [] :: splitChars separator rest
    else match splitChars separator rest with
      | part :: parts => (c :: part) :: parts
      | [] => [[c]]

/-- One octet in decimal. -/
def octet? (cs : List Char) : Option Nat :=
  if cs.length ≤ 3 ∧ (cs.head? ≠ some '0' ∨ cs = ['0']) then
    (Text.asciiNumber? cs).bind fun n => if n ≤ 255 then some n else none
  else none

/-- The bits of a version 4 address. -/
def v4Bits? (cs : List Char) : Option Nat :=
  match (splitChars '.' cs).mapM octet? with
  | some [a, b, c, d] => some (((a * 256 + b) * 256 + c) * 256 + d)
  | _ => none

/-- The value of a hexadecimal digit. -/
def hexDigit? (c : Char) : Option Nat :=
  if '0' ≤ c ∧ c ≤ '9' then some (c.toNat - '0'.toNat)
  else if 'a' ≤ c ∧ c ≤ 'f' then some (c.toNat - 'a'.toNat + 10)
  else if 'A' ≤ c ∧ c ≤ 'F' then some (c.toNat - 'A'.toNat + 10)
  else none

/-- One group of one to four hexadecimal digits. -/
def group? (cs : List Char) : Option Nat :=
  if cs.isEmpty ∨ 4 < cs.length then none
  else cs.foldlM (fun n c => (hexDigit? c).map (n * 16 + ·)) 0

/-- The groups of a version 6 address, the last one in the form of version 4 taken apart. -/
def groupTexts? (cs : List Char) : Option (List (List Char)) :=
  let parts := splitChars ':' cs
  match parts.getLast? with
  | none => none
  | some last =>
    if parts.length < 3 then none
    else if last.contains '.' then
      (v4Bits? last).map fun n =>
        parts.dropLast ++ [Nat.toDigits 16 (n / 65536), Nat.toDigits 16 (n % 65536)]
    else some parts

/-- The number that a list of groups writes. -/
def groupsValue (gs : List Nat) : Nat := gs.foldl (fun n g => n * 65536 + g) 0

/-- The bits of a version 6 address without its zone. -/
def v6Bits? (cs : List Char) : Option Nat := do
  let parts ← groupTexts? cs
  if 9 < parts.length then none
  else
    let inner := (parts.drop 1).dropLast
    match inner.count [] with
    | 0 =>
      if parts.length = 8 then return groupsValue (← parts.mapM group?) else none
    | 1 =>
      let i := inner.idxOf [] + 1
      let before := parts.take i
      let after := parts.drop (i + 1)
      -- an empty end is allowed only as part of the `::`
      let before ← if before.head? = some [] then (if before.length = 1 then some [] else none)
        else some before
      let after ← if after.getLast? = some [] then (if after.length = 1 then some [] else none)
        else some after
      if 8 ≤ before.length + after.length then none
      else
        let high ← before.mapM group?
        let low ← after.mapM group?
        return groupsValue (high ++ List.replicate (8 - high.length - low.length) 0 ++ low)
    | _ => none

/-- An address of either version. -/
def ofText? (s : String) : Option Address :=
  let cs := s.toList
  if cs.contains '/' then none
  else match v4Bits? cs with
    | some n => some (.v4 n)
    | none =>
      let body := cs.takeWhile (· != '%')
      let zone := (cs.dropWhile (· != '%')).drop 1
      if body.length = cs.length then (v6Bits? body).map (.v6 · none)
      else if zone.isEmpty ∨ zone.contains '%' then none
      else (v6Bits? body).map (.v6 · (some (String.ofList zone)))

/-- The start and the length of the longest run of zeros; of several the first. -/
def longestZeros (gs : List Nat) : Nat × Nat :=
  let runs := (List.range gs.length).map fun i => (i, ((gs.drop i).takeWhile (· == 0)).length)
  runs.foldl (fun best run => if best.2 < run.2 then run else best) (0, 0)

/-- The text of a version 6 address without its zone. -/
def v6Text (n : Nat) : String :=
  let gs := (List.range 8).map fun i => n / Nat.pow 65536 (7 - i) % 65536
  let hexes (l : List Nat) := ":".intercalate (l.map fun g => String.ofList (Nat.toDigits 16 g))
  let (start, length) := longestZeros gs
  if length ≤ 1 then hexes gs
  else hexes (gs.take start) ++ "::" ++ hexes (gs.drop (start + length))

/-- The text of an address. -/
def render : Address → String
  | .v4 n => ".".intercalate ([n / 16777216, n / 65536 % 256, n / 256 % 256, n % 256].map toString)
  | .v6 n zone => v6Text n ++ (zone.map ("%" ++ ·)).getD ""

/-- The address spelled out with its version. -/
def spelled (a : Address) : String :=
  (match a with
   | .v4 _ => "IPv4Address("
   | .v6 .. => "IPv6Address(") ++ Text.quoted a.render ++ ")"

end Address

end WideColumn
