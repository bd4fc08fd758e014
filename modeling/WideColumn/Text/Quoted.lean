import WideColumn.Text.Printable

/-!
# Quoted text

The way a text is shown inside a message when its extent matters: between quotes, with what is not
printable escaped. Single quotes are used unless the text holds a single quote and no double one.
Octets are shown by the same rule, all beyond the printable ASCII characters escaped.
-/

namespace WideColumn.Text

/-- `width` hexadecimal digits of `n` in lower case, the most significant first. -/
def hex (width n : Nat) : List Char :=
  match width with
  | 0 => []
  | w + 1 => hex w (n / 16) ++ [Nat.digitChar (n % 16)]

/-- The quote put around a text. -/
def quoteFor (cs : List Char) : Char :=
  if cs.contains '\'' && !cs.contains '"' then '"' else '\''

/-- The escapes shared by texts and octets: the quote, the backslash and three controls. -/
def shortEscape? (quote c : Char) : Option (List Char) :=
  if c = quote ∨ c = '\\' then some ['\\', c]
  else if c = '\n' then some ['\\', 'n']
  else if c = '\r' then some ['\\', 'r']
  else if c = '\t' then some ['\\', 't']
  else none

/-- One character of a quoted text. -/
def escapeChar (quote c : Char) : List Char :=
  match shortEscape? quote c with
  | some cs => cs
  | none =>
    if isPrintable c then [c]
    else if c.toNat < 0x100 then '\\' :: 'x' :: hex 2 c.toNat
    else if c.toNat < 0x10000 then '\\' :: 'u' :: hex 4 c.toNat
    else '\\' :: 'U' :: hex 8 c.toNat

/-- The text between quotes. -/
def quoted (s : String) : String :=
  let quote := quoteFor s.toList
  String.ofList (quote :: s.toList.flatMap (escapeChar quote) ++ [quote])

/-- One octet of a quoted sequence. -/
def escapeOctet (quote : Char) (b : UInt8) : List Char :=
  match shortEscape? quote (Char.ofNat b.toNat) with
  | some cs => cs
  | none =>
    if 0x20 ≤ b ∧ b < 0x7F then [Char.ofNat b.toNat] else '\\' :: 'x' :: hex 2 b.toNat

/-- The octets between quotes, marked as octets. -/
def quotedOctets (bs : List UInt8) : String :=
  let quote := quoteFor (bs.map fun b => Char.ofNat b.toNat)
  String.ofList ('b' :: quote :: bs.flatMap (escapeOctet quote) ++ [quote])

end WideColumn.Text
