import WideColumn.Text.Quoted

/-!
# Secure Hash Algorithm 1

The 160-bit digest of a sequence of octets: the message is padded to whole blocks of 64 octets with
its length at the end, and each block stirs a state of five words in eighty rounds.
-/

namespace WideColumn.Sha1

/-- The state of the digest: five words. -/
structure State where
  a : UInt32
  b : UInt32
  c : UInt32
  d : UInt32
  e : UInt32

/-- The state before the first block. -/
def initial : State := ⟨0x67452301, 0xEFCDAB89, 0x98BADCFE, 0x10325476, 0xC3D2E1F0⟩

/-- Turn a word to the left. -/
def rotate (w : UInt32) (n : UInt32) : UInt32 := (w <<< n) ||| (w >>> (32 - n))

/-- `count` octets of a number, the most significant first. -/
def octets (count n : Nat) : List UInt8 :=
  (List.range count).map fun i => UInt8.ofNat (n / Nat.pow 256 (count - 1 - i))

/-- The message with a set bit, zeros up to eight octets before the end of a block, and its length
in bits. -/
def padded (message : List UInt8) : List UInt8 :=
  message ++ [0x80] ++ List.replicate ((119 - message.length % 64) % 64) 0 ++
    octets 8 (message.length * 8)

/-- The words of a list of octets, four to a word. -/
def words : List UInt8 → List UInt32
  | a :: b :: c :: d :: rest =>
    ((a.toUInt32 <<< 24) ||| (b.toUInt32 <<< 16) ||| (c.toUInt32 <<< 8) ||| d.toUInt32) ::
      words rest
  | _ => []

/-- The schedule of a block: each word after the sixteenth is made from four earlier ones. The
list has the latest word first. -/
def schedule (block : List UInt32) : List UInt32 :=
  ((List.range 64).foldl (fun (ws : List UInt32) _ =>
    let word (i : Nat) : UInt32 := (ws[i]?).getD 0
    rotate (word 2 ^^^ word 7 ^^^ word 13 ^^^ word 15) 1 :: ws) block.reverse).reverse

/-- The mixing function and the constant of a round. -/
def mix (round : Nat) (s : State) : UInt32 × UInt32 :=
  if round < 20 then ((s.b &&& s.c) ||| ((~~~ s.b) &&& s.d), 0x5A827999)
  else if round < 40 then (s.b ^^^ s.c ^^^ s.d, 0x6ED9EBA1)
  else if round < 60 then ((s.b &&& s.c) ||| (s.b &&& s.d) ||| (s.c &&& s.d), 0x8F1BBCDC)
  else (s.b ^^^ s.c ^^^ s.d, 0xCA62C1D6)

/-- One round on a word of the schedule. -/
def step (s : State) (entry : UInt32 × Nat) : State :=
  let (f, k) := mix entry.2 s
  ⟨rotate s.a 5 + f + s.e + k + entry.1, s.a, rotate s.b 30, s.c, s.d⟩

/-- Stir a block into the state. -/
def absorb (s : State) (block : List UInt32) : State :=
  let t := (schedule block).zipIdx.foldl step s
  ⟨s.a + t.a, s.b + t.b, s.c + t.c, s.d + t.d, s.e + t.e⟩

/-- The first `count` groups of sixteen words. -/
def blocks (count : Nat) (ws : List UInt32) : List (List UInt32) :=
  (List.range count).map fun i => (ws.drop (16 * i)).take 16

/-- The state after the whole message. -/
def digest (message : List UInt8) : State :=
  let ws := words (padded message)
  (blocks (ws.length / 16) ws).foldl absorb initial

/-- The digest in forty hexadecimal digits. -/
def hexDigest (message : List UInt8) : String :=
  let s := digest message
  String.ofList ([s.a, s.b, s.c, s.d, s.e].flatMap fun w => Text.hex 8 w.toNat)

end WideColumn.Sha1
