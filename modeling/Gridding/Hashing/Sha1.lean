/-!
# SHA-1

The message is padded to blocks of 64 bytes and every block is mixed into five words of 32 bits.
-/

namespace Gridding.Sha1

structure State where
  a : UInt32
  b : UInt32
  c : UInt32
  d : UInt32
  e : UInt32

def initial : State := ⟨0x67452301, 0xEFCDAB89, 0x98BADCFE, 0x10325476, 0xC3D2E1F0⟩

private def rotate (w : UInt32) (n : UInt32) : UInt32 := (w <<< n) ||| (w >>> (32 - n))

private def bigEndian (count n : Nat) : List UInt8 :=
  (List.range count).map fun i => (n / Nat.pow 256 (count - 1 - i) % 256).toUInt8

/-- The message, the bit 1, zeros, and the length in bits. -/
def padded (message : List UInt8) : List UInt8 :=
  let used := (message.length + 9) % 64
  message ++ 0x80 :: List.replicate (if used = 0 then 0 else 64 - used) 0 ++
    bigEndian 8 (8 * message.length)

/-- Sixteen words of a block, extended to eighty. -/
private def schedule (block : Array UInt8) : Array UInt32 :=
  let byte (i : Nat) : UInt32 := (block.getD i 0).toUInt32
  let words := (Array.range 16).map fun i =>
    (byte (4 * i) <<< 24) ||| (byte (4 * i + 1) <<< 16) ||| (byte (4 * i + 2) <<< 8) |||
      byte (4 * i + 3)
  (List.range 64).foldl (fun ws i =>
    ws.push (rotate (ws.getD (i + 13) 0 ^^^ ws.getD (i + 8) 0 ^^^ ws.getD (i + 2) 0 ^^^
      ws.getD i 0) 1)) words

private def round (s : State) (i : Nat) (w : UInt32) : State :=
  let (f, k) : UInt32 × UInt32 :=
    if i < 20 then ((s.b &&& s.c) ||| (~~~s.b &&& s.d), 0x5A827999)
    else if i < 40 then (s.b ^^^ s.c ^^^ s.d, 0x6ED9EBA1)
    else if i < 60 then ((s.b &&& s.c) ||| (s.b &&& s.d) ||| (s.c &&& s.d), 0x8F1BBCDC)
    else (s.b ^^^ s.c ^^^ s.d, 0xCA62C1D6)
  ⟨rotate s.a 5 + f + s.e + k + w, s.a, rotate s.b 30, s.c, s.d⟩

private def mix (s : State) (block : Array UInt8) : State :=
  let ws := schedule block
  let t := (List.range 80).foldl (fun t i => round t i (ws.getD i 0)) s
  ⟨s.a + t.a, s.b + t.b, s.c + t.c, s.d + t.d, s.e + t.e⟩

def digest (message : List UInt8) : List UInt8 :=
  let bytes := (padded message).toArray
  let s := (List.range (bytes.size / 64)).foldl
    (fun s i => mix s (bytes.extract (64 * i) (64 * i + 64))) initial
  [s.a, s.b, s.c, s.d, s.e].flatMap fun w => bigEndian 4 w.toNat

/-- Two hexadecimal digits a byte. -/
def hex (bytes : List UInt8) : String :=
  let nibble (n : Nat) : Char := (Nat.toDigits 16 n).headD '0'
  String.ofList (bytes.flatMap fun b => [nibble (b.toNat / 16), nibble (b.toNat % 16)])

end Gridding.Sha1
