import WideColumn.Sorting
import WideColumn.Value.Display

/-!
# Canonical text of structured values

`toData?` reduces a value to what structured text can hold: null, truth values, numbers, texts,
lists and maps with text keys; anything else is put down as its own text. `Value.canonicalText`
writes such a value on one line in ASCII with the keys of every map in order, so that equal values
have equal texts.
-/

namespace WideColumn.Value

/-- A double in structured text. -/
def jsonFloat : Binary64 → String
  | .nan => "NaN"
  | .infinite negative => if negative then "-Infinity" else "Infinity"
  | x => x.render

/-- The text of a key: null, truth values and numbers may be keys besides texts. -/
def keyText? : Value → Option String
  | text s => some s
  | null => some "null"
  | bool b => some (if b then "true" else "false")
  | int n => some (toString n)
  | float x => some (jsonFloat x)
  | _ => none

mutual

/-- The value as structured data; nothing when a map has a key that cannot be one. -/
def toData? : Value → Option Value
  | null => some .null
  | bool b => some (.bool b)
  | int n => some (.int n)
  | float x => some (.float x)
  | text s => some (.text s)
  | list xs => (toDataAll? xs).map list
  | tuple xs => (toDataAll? xs).map list
  | map es => (toDataEntries? es).map map
  | v => some (.text v.display)

/-- Every element as structured data. -/
def toDataAll? : List Value → Option (List Value)
  | [] => some []
  | x :: xs => (toData? x).bind fun d => (toDataAll? xs).map (d :: ·)

/-- Every entry as structured data. -/
def toDataEntries? : List (Value × Value) → Option (List (Value × Value))
  | [] => some []
  | (k, v) :: es => (keyText? k).bind fun key => (toData? v).bind fun d =>
      (toDataEntries? es).map ((.text key, d) :: ·)

end

/-- One UTF-16 unit escaped. -/
def unitEscape (n : Nat) : List Char := '\\' :: 'u' :: Text.hex 4 n

/-- One character inside a text. -/
def jsonChar (c : Char) : List Char :=
  if c = '"' then ['\\', '"']
  else if c = '\\' then ['\\', '\\']
  else if c = '\n' then ['\\', 'n']
  else if c = '\r' then ['\\', 'r']
  else if c = '\t' then ['\\', 't']
  else if c.toNat = 8 then ['\\', 'b']
  else if c.toNat = 12 then ['\\', 'f']
  else if 0x20 ≤ c.toNat ∧ c.toNat < 0x7F then [c]
  else if c.toNat < 0x10000 then unitEscape c.toNat
  else
    let n := c.toNat - 0x10000
    unitEscape (0xD800 + n / 0x400) ++ unitEscape (0xDC00 + n % 0x400)

/-- A text between double quotes. -/
def jsonText (s : String) : String := String.ofList ('"' :: s.toList.flatMap jsonChar ++ ['"'])

/-- Why a value has no canonical text: a map in it has a key that cannot be one, or keys without an
order. -/
inductive Unwritable where
  | key (k : Value)
  | unordered (u : Unordered)

/-- Texts joined inside brackets. -/
def joined (opening closing : String) (parts : List String) : String :=
  opening ++ ", ".intercalate parts ++ closing

mutual

/-- The canonical text of a value. -/
def canonicalText : Value → Except Unwritable String
  | null => .ok "null"
  | bool b => .ok (if b then "true" else "false")
  | int n => .ok (toString n)
  | float x => .ok (jsonFloat x)
  | text s => .ok (jsonText s)
  | list xs => joined "[" "]" <$> canonicalAll xs
  | tuple xs => joined "[" "]" <$> canonicalAll xs
  | map es => do
    let sorted ← (Sorting.sort (fun e f => less e.1 f.1) (canonicalEntries es)).mapError .unordered
    joined "\x7b" "\x7d" <$> sorted.mapM (·.2)
  | v => .ok (jsonText v.display)

/-- The canonical texts of elements. -/
def canonicalAll : List Value → Except Unwritable (List String)
  | [] => .ok []
  | x :: xs => do return (← canonicalText x) :: (← canonicalAll xs)

/-- The canonical texts of entries, each under its own key for sorting. -/
def canonicalEntries : List (Value × Value) → List (Value × Except Unwritable String)
  | [] => []
  | (k, v) :: es =>
    (k, match keyText? k with
      | some key => (jsonText key ++ ": " ++ ·) <$> canonicalText v
      | none => .error (.key k)) :: canonicalEntries es

end

end WideColumn.Value
