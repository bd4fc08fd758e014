import WideColumn.Failure
import WideColumn.Number.Scaled

/-!
# Templates

A template is a text with places, each opened by a percent sign and closed by a conversion. Places
are filled with values one after the other, or with the part of a map that a place names. A template
is first scanned into pieces, then its pieces are filled from a supply of values; a place without a
value and a value without a place both fail.
-/

namespace WideColumn.Template

/-- A number in a place: written out, or taken from the values. -/
inductive Amount where
  | fixed (n : Nat)
  | given
  deriving DecidableEq, Repr

/-- A place and how its value is shown. -/
structure Place where
  key : Option (List Char) := none
  leftAligned : Bool := false
  signed : Bool := false
  blankSigned : Bool := false
  marked : Bool := false
  zeroFilled : Bool := false
  width : Option Amount := none
  precision : Option Amount := none
  conversion : Char := '%'
  /-- Where the conversion stands in the template. -/
  position : Nat := 0

/-- A piece of a template. -/
inductive Piece where
  | literal (c : Char)
  | place (p : Place)
  /-- The template ends before the conversion. -/
  | unfinished (p : Place)
  /-- The template ends inside a key. -/
  | unclosedKey

/-! ## Scanning -/

/-- The part of a place that is being read. -/
inductive Stage where
  | text
  | opening
  | key (depth : Nat)
  | flags
  | width
  | point
  /-- The precision; `begun` says that a digit of it has been read. -/
  | precision (begun : Bool)
  | size
  | conversion

namespace Place

/-- The flag that a character stands for. -/
def flagged? (p : Place) : Char → Option Place
  | '-' => some { p with leftAligned := true }
  | '+' => some { p with signed := true }
  | ' ' => some { p with blankSigned := true }
  | '#' => some { p with marked := true }
  | '0' => some { p with zeroFilled := true }
  | _ => none

/-- Add a character to the key. -/
def extendKey (p : Place) (c : Char) : Place := { p with key := some ((p.key.getD []) ++ [c]) }

end Place

/-- An amount after one more character; nothing when the character does not belong to it. -/
def Amount.extend? (a : Option Amount) (c : Char) : Option Amount :=
  match a, Text.asciiDigit? c with
  | some (.fixed n), some d => some (.fixed (n * 10 + d))
  | none, some d => some (.fixed d)
  | none, none => if c = '*' then some .given else none
  | some .given, _ | some _, none => none

/-- What a place becomes by one character: the place and the stage, or, with no stage, the whole
place. -/
def advance (p : Place) (c : Char) (position : Nat) : Stage → Place × Option Stage
  | .text | .conversion => ({ p with conversion := c, position }, none)
  | .key depth =>
    if c = '(' then (p.extendKey c, some (.key (depth + 1)))
    else if c = ')' then
      match depth with
      | 0 => (p, some .flags)
      | d + 1 => (p.extendKey c, some (.key d))
    else (p.extendKey c, some (.key depth))
  | .opening => if c = '(' then ({ p with key := some [] }, some (.key 0))
    else advanceFlags p
  | .flags => advanceFlags p
  | .width => advanceWidth p
  | .point => advancePoint p
  | .precision begun => advancePrecision p begun
  | .size => advanceSize p
where
  /-- The size of a number says nothing here. -/
  advanceSize (p : Place) : Place × Option Stage :=
    if c = 'h' ∨ c = 'l' ∨ c = 'L' then (p, some .conversion)
    else ({ p with conversion := c, position }, none)
  /-- The digits of the precision. -/
  advancePrecision (p : Place) (begun : Bool) : Place × Option Stage :=
    match Amount.extend? (if begun then p.precision else none) c with
    | some a =>
      ({ p with precision := some a }, some (if a = .given then .size else .precision true))
    | none => advanceSize p
  /-- The point before the precision. -/
  advancePoint (p : Place) : Place × Option Stage :=
    if c = '.' then ({ p with precision := some (.fixed 0) }, some (.precision false))
    else advanceSize p
  /-- The digits of the width. -/
  advanceWidth (p : Place) : Place × Option Stage :=
    match Amount.extend? p.width c with
    | some a => ({ p with width := some a }, some (if a = .given then .point else .width))
    | none => advancePoint p
  /-- The flags. -/
  advanceFlags (p : Place) : Place × Option Stage :=
    match p.flagged? c with
    | some p => (p, some .flags)
    | none => advanceWidth p

/-- The pieces of a template from a position on. -/
def scan (stage : Stage) (p : Place) (position : Nat) : List Char → List Piece
  | [] =>
    match stage with
    | .text => []
    | .key _ => [.unclosedKey]
    | _ => [.unfinished p]
  | c :: cs =>
    match stage with
    | .text =>
      if c = '%' then scan .opening {} (position + 1) cs
      else .literal c :: scan .text {} (position + 1) cs
    | stage =>
      if stage matches .opening && c == '%' then
        .literal '%' :: scan .text {} (position + 1) cs
      else match advance p c position stage with
        | (p, some stage) => scan stage p (position + 1) cs
        | (p, none) => .place p :: scan .text {} (position + 1) cs

/-- The pieces of a template. -/
def pieces (s : String) : List Piece := scan .text {} 0 s.toList

/-! ## Values as numbers -/

/-- The whole part of an exact number. -/
def wholePart (q : Rat) : Int := q.num.tdiv q.den

/-- The whole part of a number. -/
def toInt (v : Value) : Except Failure Int :=
  match v with
  | .int n => .ok n
  | .bool b => .ok (if b then 1 else 0)
  | .uuid u => .ok u.bits
  | .address (.v4 bits) | .address (.v6 bits _) => .ok bits
  | .float .nan => .error (.badValue "cannot convert float NaN to integer")
  | .decimal (.nan ..) => .error (.badValue "cannot convert NaN to integer")
  | .float x => match x.value? with
    | some q => .ok (wholePart q)
    | none => .error .outOfRange
  | .decimal d => match d.wholePart? with
    | some n => .ok n
    | none => .error .outOfRange
  | _ => .error .badType

/-- A number that is an integer by itself. -/
def toIndex (v : Value) : Except Failure Int :=
  match v with
  | .int n => .ok n
  | .bool b => .ok (if b then 1 else 0)
  | _ => .error .badType

/-- The double nearest to an integer, which must not be too great for one. -/
def finiteOfInt (n : Int) : Except Failure Binary64 :=
  match Binary64.ofInt n with
  | .infinite _ => .error .outOfRange
  | x => .ok x

/-- The double nearest to a number. -/
def toDouble (v : Value) : Except Failure Binary64 :=
  match v with
  | .float x => .ok x
  | .int n => finiteOfInt n
  | .bool b => finiteOfInt (if b then 1 else 0)
  | .decimal d =>
    if d.isSignaling then .error (.badValue "cannot convert signaling NaN to float")
    else .ok d.nearest
  | _ => .error .badType

/-! ## Doubles in decimal notation -/

/-- Digits with a point before the last `places` of them; a bare point only when `marked`. -/
def pointed (marked : Bool) (places n : Nat) : List Char :=
  let ds := Nat.toDigits 10 n
  let ds := List.replicate (places + 1 - ds.length) '0' ++ ds
  let whole := ds.take (ds.length - places)
  if places = 0 then (if marked then whole ++ ['.'] else whole)
  else whole ++ '.' :: ds.drop (ds.length - places)

/-- Positional notation with a number of decimals. -/
def positional (marked : Bool) (places num den : Nat) : List Char :=
  pointed marked places (Binary64.roundRatio (num * Nat.pow 10 places) den)

/-- The digits with a number of decimals after the first one, and the exponent of the first. -/
def leading (places num den : Nat) : Nat × Int :=
  if num = 0 then (0, 0)
  else
    let place := Binary64.firstPlace num den
    let (n, d) := Binary64.decimalScale num den (place - places)
    let c := Binary64.roundRatio n d
    if c = Nat.pow 10 (places + 1) then (Nat.pow 10 places, place + 1) else (c, place)

/-- Scientific notation with a number of decimals. -/
def scientific (marked : Bool) (places num den : Nat) : List Char :=
  let (c, place) := leading places num den
  pointed marked places c ++ 'e' :: Binary64.exponentText 2 place

/-- The text without zeros at the end of its decimals, nor a point with nothing behind it. -/
def withoutTrailingZeros (cs : List Char) : List Char :=
  if cs.contains '.' then
    let kept := cs.reverse.dropWhile (· == '0')
    (match kept with
    | '.' :: rest => rest
    | rest => rest).reverse
  else cs

/-- The notation that suits the size, with a number of significant digits. -/
def general (marked : Bool) (significant num den : Nat) : List Char :=
  let digits := max significant 1
  let (c, place) := leading (digits - 1) num den
  let trim (cs : List Char) : List Char := if marked then cs else withoutTrailingZeros cs
  if -4 ≤ place ∧ place < digits then
    trim (positional marked ((digits : Int) - 1 - place).toNat num den)
  else trim (pointed marked (digits - 1) c) ++ 'e' :: Binary64.exponentText 2 place

/-! ## Showing a value -/

/-- A value as shown: a sign, the mark of a number's base, and the rest. -/
structure Shown where
  sign : List Char := []
  mark : List Char := []
  body : List Char
  isNumber : Bool := false

/-- The capital letters of an ASCII text. -/
def capitals (cs : List Char) : List Char := cs.map Char.toUpper

/-- A spelled value in ASCII. -/
def asciiOnly (s : String) : List Char :=
  s.toList.flatMap fun c =>
    if c.toNat < 0x7F then [c]
    else if c.toNat < 0x100 then '\\' :: 'x' :: Text.hex 2 c.toNat
    else if c.toNat < 0x10000 then '\\' :: 'u' :: Text.hex 4 c.toNat
    else '\\' :: 'U' :: Text.hex 8 c.toNat

/-- The sign of a number in a place. -/
def signOf (p : Place) (negative : Bool) : List Char :=
  if negative then ['-'] else if p.signed then ['+'] else if p.blankSigned then [' '] else []

/-- An integer in a base. -/
def showInt (p : Place) (precision : Option Nat) (base : Nat) (mark : List Char) (n : Int) :
    Shown :=
  let ds := Nat.toDigits base n.natAbs
  let padded := List.replicate ((precision.getD 0) - ds.length) '0' ++ ds
  { sign := signOf p (n < 0), mark := if p.marked then mark else [], body := padded,
    isNumber := true }

/-- A double in a notation. -/
def showDouble (p : Place) (decimals : Nat → Nat → List Char) (x : Binary64) : Shown :=
  match x with
  | .nan => { sign := signOf p false, body := ['n', 'a', 'n'], isNumber := true }
  | .infinite negative => { sign := signOf p negative, body := ['i', 'n', 'f'], isNumber := true }
  | .finite negative m e =>
    let (num, den) := if 0 ≤ e then (m * Nat.pow 2 e.toNat, 1) else (m, Nat.pow 2 (-e).toNat)
    { sign := signOf p negative, body := decimals num den, isNumber := true }

/-- A text, cut to the precision. -/
def showText (precision : Option Nat) (cs : List Char) : Shown :=
  { body := match precision with
      | some n => cs.take n
      | none => cs }

/-- A single character. -/
def showChar (v : Value) : Except Failure Shown :=
  match v with
  | .text s => match s.toList with
    | [c] => .ok { body := [c] }
    | _ => .error .badType
  | v => do
    let n ← toIndex v
    if 0 ≤ n ∧ n < 0x110000 then .ok { body := [Char.ofNat n.toNat] } else .error .outOfRange

/-- The same in capitals. -/
def Shown.capitals (s : Shown) : Shown :=
  { s with mark := Template.capitals s.mark, body := Template.capitals s.body }

/-- The character of a conversion that does not exist, as the complaint shows it. -/
def conversionText (c : Char) : String :=
  String.ofList [if 31 ≤ c.toNat ∧ c.toNat < 127 then c else '?']

/-- A conversion that does not exist. -/
def unknownConversion (p : Place) : Failure :=
  .badValue ("unsupported format character '" ++ conversionText p.conversion ++ "' (0x" ++
    String.ofList (Nat.toDigits 16 p.conversion.toNat) ++ ") at index " ++ toString p.position)

/-- Show a value as its place asks. -/
def present (p : Place) (precision : Option Nat) (v : Value) : Except Failure Shown :=
  let places := precision.getD 6
  match p.conversion with
  | 's' => .ok (showText precision v.display.toList)
  | 'r' => .ok (showText precision v.spelled.toList)
  | 'a' => .ok (showText precision (asciiOnly v.spelled))
  | 'd' | 'i' | 'u' => do
    let n ← toInt v
    checkWritable n
    return showInt p precision 10 [] n
  | 'o' => showInt p precision 8 ['0', 'o'] <$> toIndex v
  | 'x' => showInt p precision 16 ['0', 'x'] <$> toIndex v
  | 'X' => (fun n => (showInt p precision 16 ['0', 'x'] n).capitals) <$> toIndex v
  | 'f' => showDouble p (positional p.marked places) <$> toDouble v
  | 'F' => (fun x => (showDouble p (positional p.marked places) x).capitals) <$> toDouble v
  | 'e' => showDouble p (scientific p.marked places) <$> toDouble v
  | 'E' => (fun x => (showDouble p (scientific p.marked places) x).capitals) <$> toDouble v
  | 'g' => showDouble p (general p.marked places) <$> toDouble v
  | 'G' => (fun x => (showDouble p (general p.marked places) x).capitals) <$> toDouble v
  | 'c' => showChar v
  | _ => .error (unknownConversion p)

/-- Lay what is shown out in a width. -/
def layOut (leftAligned zeroFilled : Bool) (width : Nat) (s : Shown) : List Char :=
  let whole := s.sign ++ s.mark ++ s.body
  let gap := width - whole.length
  if leftAligned then whole ++ List.replicate gap ' '
  else if zeroFilled && s.isNumber then s.sign ++ s.mark ++ List.replicate gap '0' ++ s.body
  else List.replicate gap ' ' ++ whole

/-! ## Filling -/

/-- What fills the places: the value in which names are looked up, and the values in order. -/
structure Supply where
  named : Option Value
  rest : List Value

namespace Supply

/-- A list of values; a single map that is not empty also gives its parts by name. -/
def ofList : List Value → Supply
  | [.map (e :: es)] => ⟨some (.map (e :: es)), [.map (e :: es)]⟩
  | values => ⟨none, values⟩

/-- One value: the elements of a tuple, or the value itself, which gives its parts when it has
any. -/
def ofValue : Value → Supply
  | .tuple xs => ⟨none, xs⟩
  | .map es => ⟨some (.map es), [.map es]⟩
  | .list xs => ⟨some (.list xs), [.list xs]⟩
  | .octets kind bs => ⟨some (.octets kind bs), [.octets kind bs]⟩
  | v => ⟨none, [v]⟩

/-- Take the next value. -/
def next (s : Supply) : Except Failure (Value × Supply) :=
  match s.rest with
  | v :: rest => .ok (v, { s with rest })
  | [] => .error .badType

/-- Turn to the part that a place names. -/
def turnTo (s : Supply) (key : Option (List Char)) : Except Failure Supply :=
  match key, s.named with
  | none, _ => .ok s
  | some key, some (.map es) =>
    match Value.get? es (String.ofList key) with
    | some v => .ok { s with rest := [v] }
    | none => .error (.absentKey (String.ofList key))
  | some _, _ => .error .badType

/-- The number that an amount stands for, which has a greatest value. -/
def amount (s : Supply) (a : Option Amount) (what : String) (most : Nat) :
    Except Failure (Option Int × Supply) := do
  match a with
  | none => return (none, s)
  | some (.fixed n) =>
    if most < n then throw (.badValue (what ++ " too big")) else return (some (n : Int), s)
  | some .given =>
    let (v, s) ← s.next
    let n ← toIndex v
    if (n < -(most + 1 : Nat)) ∨ (most : Int) < n then throw .outOfRange else return (some n, s)

end Supply

/-- The width and the precision of a place. -/
def measures (p : Place) (s : Supply) : Except Failure (Option Int × Option Int × Supply) := do
  let s ← s.turnTo p.key
  let (width, s) ← s.amount p.width "width" (Nat.pow 2 63 - 1)
  let (precision, s) ← s.amount p.precision "precision" (Nat.pow 2 31 - 1)
  return (width, precision, s)

/-- The greatest width for which there is room. -/
def longestField : Nat := Nat.pow 2 36

/-- Fill a place. -/
def fillPlace (p : Place) (s : Supply) : Except Failure (List Char × Supply) := do
  let (width, precision, s) ← measures p s
  let (v, s) ← s.next
  let shown ← present p (precision.map Int.toNat) v
  let width := width.getD 0
  if longestField < width.natAbs then throw (.thrown .memory "" .missing)
  return (layOut (p.leftAligned || width < 0) p.zeroFilled width.natAbs shown, s)

/-- Fill pieces; no value may be left over. -/
def fillPieces : List Piece → Supply → Except Failure (List Char)
  | [], s => if s.rest.isEmpty || s.named.isSome then .ok [] else .error .badType
  | .literal c :: ps, s => (c :: ·) <$> fillPieces ps s
  | .place p :: ps, s => do
    let (cs, s) ← fillPlace p s
    return cs ++ (← fillPieces ps s)
  | .unfinished p :: _, s => do
    let _ ← measures p s
    .error (.badValue "incomplete format")
  | .unclosedKey :: _, s =>
    if s.named.isNone then .error .badType
    else .error (.badValue "incomplete format key")

/-- Fill a template. -/
def fill (template : String) (s : Supply) : Except Failure String :=
  String.ofList <$> fillPieces (pieces template) s

end WideColumn.Template
