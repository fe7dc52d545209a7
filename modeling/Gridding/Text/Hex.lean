/-!
# Bytes in hexadecimal

Two digits a byte, the high one first.
-/

namespace Gridding.Text

def byteDigits (b : UInt8) : List Char :=
  [Nat.digitChar (b.toNat / 16), Nat.digitChar (b.toNat % 16)]

def hex (bytes : List UInt8) : String := String.ofList (bytes.flatMap byteDigits)

/-- The value of a digit, which may be a capital. -/
def hexValue (c : Char) : Nat :=
  if c.isDigit then c.toNat - 48 else if c.toNat ≥ 97 then c.toNat - 87 else c.toNat - 55

/-- The bytes of whole pairs of digits. -/
def bytesOfHexDigits : List Char → List UInt8
  | a :: b :: rest => (hexValue a * 16 + hexValue b).toUInt8 :: bytesOfHexDigits rest
  | _ => []

def bytesOfHex (s : String) : List UInt8 := bytesOfHexDigits s.toList

end Gridding.Text
