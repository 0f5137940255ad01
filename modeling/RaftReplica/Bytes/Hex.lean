/-
RaftReplica/Bytes/Hex.lean

Bytes as text, two hexadecimal digits for each, in lower case and with the higher half first.

`hex` writes what `ofHex` reads; a digit that stands alone at the end is dropped, since half a byte
means nothing.
-/
import RaftReplica.Bytes.Basic
import RaftReplica.Text.Numeral

namespace RaftReplica.Bytes

/-- The digits of one byte. -/
def hexOfByte (b : UInt8) : List Char :=
  [Numeral.digitChar (b.toNat / 16), Numeral.digitChar (b.toNat % 16)]

/-- Bytes in hexadecimal. -/
def hex (bs : Bytes) : String := String.ofList (bs.flatMap hexOfByte)

/-- The value of a hexadecimal digit, in lower case. -/
def hexValue (c : Char) : Nat := if c.toNat < 58 then c.toNat - 48 else c.toNat - 87

/-- The bytes that pairs of digits stand for, behind those in `acc`. -/
def ofHexChars (acc : Bytes) : List Char → Bytes
  | a :: b :: rest => ofHexChars (UInt8.ofNat (hexValue a * 16 + hexValue b) :: acc) rest
  | _ => acc.reverse

/-- The bytes of a text in hexadecimal. -/
def ofHex (s : String) : Bytes := ofHexChars [] s.toList

example : hex [0x00, 0xff, 0x1a] = "00ff1a" := by decide
example : ofHex "00ff1a" = [0x00, 0xff, 0x1a] := by decide

end RaftReplica.Bytes
