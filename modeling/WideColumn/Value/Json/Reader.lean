import WideColumn.Scalar.Address
import WideColumn.Value.Compare

/-!
# Reading structured text

`Value.ofJson?` reads one value of structured text: null, truth values, numbers (also those that are
not finite), texts with escapes, lists, and maps, in which the last entry of a name counts. Blanks
may stand between the parts, and nothing may follow the value. Every step of reading takes what it
reads from the front of the characters that are left.
-/

namespace WideColumn.Value

namespace Json

/-- A blank between parts. -/
def isBlank (c : Char) : Bool := c == ' ' || c == '\t' || c == '\n' || c == '\r'

/-- The characters without the blanks before them. -/
def skip (cs : List Char) : List Char := cs.dropWhile isBlank

/-! ## Texts -/

/-- The character that an escape by one letter stands for. -/
def escaped? (c : Char) : Option Char :=
  match c with
  | '"' | '\\' | '/' => some c
  | 'b' => some '\x08'
  | 'f' => some '\x0c'
  | 'n' => some '\n'
  | 'r' => some '\r'
  | 't' => some '\t'
  | _ => none

/-- The UTF-16 unit that four hexadecimal digits write. -/
def unit? (a b c d : Char) : Option Nat :=
  [a, b, c, d].foldlM (fun n c => (Address.hexDigit? c).map (n * 16 + ·)) 0

/-- The code points and units of a text up to its closing quote, and what follows that. -/
def codes? : List Char → Option (List Nat × List Char)
  | [] => none
  | '"' :: rest => some ([], rest)
  | '\\' :: 'u' :: a :: b :: c :: d :: rest => do
    let n ← unit? a b c d
    let (ns, rest) ← codes? rest
    return (n :: ns, rest)
  | '\\' :: c :: rest => do
    let e ← escaped? c
    let (ns, rest) ← codes? rest
    return (e.toNat :: ns, rest)
  | c :: rest => if c < ' ' ∨ c = '\\' then none else do
    let (ns, rest) ← codes? rest
    return (c.toNat :: ns, rest)

/-- The characters of code points, two surrogates being one; a lone surrogate is replaced. -/
def chars : List Nat → List Char
  | [] => []
  | high :: low :: ns =>
    if 0xD800 ≤ high ∧ high < 0xDC00 ∧ 0xDC00 ≤ low ∧ low < 0xE000 then
      Char.ofNat (0x10000 + (high - 0xD800) * 0x400 + (low - 0xDC00)) :: chars ns
    else single high :: chars (low :: ns)
  | [n] => [single n]
where
  /-- The character of a code point. -/
  single (n : Nat) : Char := if 0xD800 ≤ n ∧ n < 0xE000 then '\uFFFD' else Char.ofNat n

/-- A text after its opening quote. -/
def text? (cs : List Char) : Option (String × List Char) :=
  (codes? cs).map fun (ns, rest) => (String.ofList (chars ns), rest)

/-! ## Numbers -/

/-- A run of the digits `0` to `9`, and what follows it. -/
def digits (cs : List Char) : List Char × List Char := cs.span Char.isDigit

/-- The digits behind a point, and what follows them; a point without digits is left alone. -/
def fraction (cs : List Char) : List Char × List Char :=
  match cs with
  | '.' :: rest => if (digits rest).1.isEmpty then ([], cs) else digits rest
  | _ => ([], cs)

/-- The exponent, and what follows it; a letter without digits is left alone. -/
def exponent (cs : List Char) : Option Int × List Char :=
  match cs with
  | e :: rest =>
    let (negative, rest) := match rest with
      | '-' :: rest => (true, rest)
      | '+' :: rest => (false, rest)
      | rest => (false, rest)
    match Text.asciiNumber? (digits rest).1 with
    | some n =>
      if e = 'e' ∨ e = 'E' then (some (if negative then -n else n), (digits rest).2) else (none, cs)
    | none => (none, cs)
  | [] => (none, [])

/-- A number without its sign: an integer unless it has a fraction or an exponent. A whole part of
more than one digit does not begin with zero, and an integer has at most 4300 digits. -/
def unsigned? (negative : Bool) (cs : List Char) : Option (Value × List Char) :=
  let (whole, rest) := match cs with
    | '0' :: rest => (['0'], rest)
    | cs => digits cs
  let (places, rest) := fraction rest
  let (e, rest) := exponent rest
  (Text.asciiNumber? whole).bind fun n =>
    if places.isEmpty ∧ e.isNone then
      if 4300 < whole.length then none else some (.int (if negative then -n else n), rest)
    else (Text.asciiNumber? (whole ++ places)).map fun n =>
      (.float (.ofDecimal negative n (e.getD 0 - places.length)), rest)

/-- The values that are written as words. -/
def words : List (List Char × Value) := [
  ("null".toList, .null), ("true".toList, .bool true), ("false".toList, .bool false),
  ("NaN".toList, .float .nan), ("Infinity".toList, .float (.infinite false)),
  ("-Infinity".toList, .float (.infinite true))]

/-- A word or a number. -/
def plain? (cs : List Char) : Option (Value × List Char) :=
  match words.find? fun w => w.1.isPrefixOf cs with
  | some (w, v) => some (v, cs.drop w.length)
  | none => match cs with
    | '-' :: rest => unsigned? true rest
    | cs => unsigned? false cs

/-! ## Values -/

mutual

/-- The value at the front. -/
def value? : Nat → List Char → Option (Value × List Char)
  | 0, _ => none
  | fuel + 1, cs =>
    match cs with
    | '"' :: rest => (text? rest).map fun (s, rest) => (.text s, rest)
    | '[' :: rest =>
      match skip rest with
      | ']' :: rest => some (.list [], rest)
      | rest => (elements? fuel rest).map fun (xs, rest) => (.list xs, rest)
    | '\x7b' :: rest =>
      match skip rest with
      | '\x7d' :: rest => some (.map [], rest)
      | rest => (entries? fuel rest).map fun (es, rest) => (.mapOfList es, rest)
    | cs => plain? cs

/-- The elements of a list up to its closing bracket. -/
def elements? : Nat → List Char → Option (List Value × List Char)
  | 0, _ => none
  | fuel + 1, cs => do
    let (v, rest) ← value? fuel cs
    match skip rest with
    | ']' :: rest => return ([v], rest)
    | ',' :: rest =>
      let (vs, rest) ← elements? fuel (skip rest)
      return (v :: vs, rest)
    | _ => none

/-- The entries of a map up to its closing brace. -/
def entries? : Nat → List Char → Option (List (Value × Value) × List Char)
  | 0, _ => none
  | fuel + 1, cs =>
    match cs with
    | '"' :: rest => do
      let (key, rest) ← text? rest
      match skip rest with
      | ':' :: rest =>
        let (v, rest) ← value? fuel (skip rest)
        match skip rest with
        | '\x7d' :: rest => return ([(.text key, v)], rest)
        | ',' :: rest =>
          let (es, rest) ← entries? fuel (skip rest)
          return ((.text key, v) :: es, rest)
        | _ => none
      | _ => none
    | _ => none

end

end Json

/-- The value that structured text writes. A value has at most as many parts as the text has
characters, and each takes two steps. -/
def ofJson? (s : String) : Option Value :=
  (Json.value? (2 * s.length + 1) (Json.skip s.toList)).bind fun (v, rest) =>
    if (Json.skip rest).isEmpty then some v else none

end WideColumn.Value
