/-
RaftReplica/Bytes/Crc32.lean

The reflected cyclic redundancy check of 32 bits with the polynomial 0xEDB88320, starting from all
ones and inverted at the end.  It is a left fold over the bytes, so a file can be checked piece by
piece.

The bits are taken one at a time and no table is used: a table of 256 words would be a second
definition of the same function, and proofs are about this one.  `shiftBit` is linear over exclusive
or and loses nothing, and from that follows which changes of bytes the checksum finds
(`Proofs.Bytes.Flip`).

* `start`, `feed` and `finish` are the register before, during and after.
* `feedAll_append` is what lets a copy take its checksum while it reads in pieces.
-/
import RaftReplica.Bytes.Basic

namespace RaftReplica.Crc32

/-- One bit: shift right, and subtract the polynomial if a one fell out. -/
def shiftBit (r : UInt32) : UInt32 :=
  if r &&& 1 = 1 then (r >>> 1) ^^^ 0xEDB88320 else r >>> 1

/-- Takes a byte into the register. -/
def feed (r : UInt32) (b : UInt8) : UInt32 :=
  let r := r ^^^ b.toUInt32
  -- one for each bit of the byte, the lowest first
  shiftBit (shiftBit (shiftBit (shiftBit (shiftBit (shiftBit (shiftBit (shiftBit r)))))))

/-- The register before any byte. -/
def start : UInt32 := 0xFFFFFFFF

/-- Takes bytes into the register. -/
def feedAll (r : UInt32) (bs : Bytes) : UInt32 := bs.foldl feed r

/-- The checksum that a register stands for. -/
def finish (r : UInt32) : UInt32 := r ^^^ 0xFFFFFFFF

/-- The checksum of `bs`. -/
def checksum (bs : Bytes) : UInt32 := finish (feedAll start bs)

/-- Feeding in two pieces feeds the whole. -/
theorem feedAll_append (r : UInt32) (a b : Bytes) :
    feedAll r (a ++ b) = feedAll (feedAll r a) b := List.foldl_append

example : checksum (Bytes.ofText "123456789") = 0xCBF43926 := by decide +kernel

end RaftReplica.Crc32
