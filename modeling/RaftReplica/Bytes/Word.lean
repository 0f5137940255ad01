/-
RaftReplica/Bytes/Word.lean

Numbers as a fixed number of bytes, in both byte orders: entry headers and record lengths put the
most significant byte first, entry bodies the least significant one.

The definitions recurse over the width with the least significant byte in front, because division by
256 gives the bytes in that order; `bigEndian` is the reverse of it, and so are its lemmas.  A number
that does not fit loses its higher bytes silently, so what is written has to be checked before:
`ofLittleEndian_littleEndian` asks for it.
-/
import RaftReplica.Bytes.Basic

namespace RaftReplica.Bytes

/-- The `width` low bytes of `n`, least significant first. -/
def littleEndian : Nat → Nat → Bytes
  | 0, _ => []
  | width + 1, n => UInt8.ofNat (n % 256) :: littleEndian width (n / 256)

/-- The number whose bytes are given, least significant first. -/
def ofLittleEndian : Bytes → Nat
  | [] => 0
  | b :: bs => b.toNat + 256 * ofLittleEndian bs

/-- The `width` low bytes of `n`, most significant first. -/
def bigEndian (width n : Nat) : Bytes := (littleEndian width n).reverse

/-- The number whose bytes are given, most significant first. -/
def ofBigEndian (bs : Bytes) : Nat := ofLittleEndian bs.reverse

/-- The width is kept whatever the number is, so fields stay where they are. -/
@[simp] theorem length_littleEndian (width n : Nat) : (littleEndian width n).length = width := by
  induction width generalizing n with
  | zero => rfl
  | succ width ih => simp [littleEndian, ih]

/-- The same in the other order. -/
@[simp] theorem length_bigEndian (width n : Nat) : (bigEndian width n).length = width := by
  simp [bigEndian]

/-- A number that fits is read back. -/
theorem ofLittleEndian_littleEndian {width n : Nat} (h : n < Nat.pow 256 width) :
    ofLittleEndian (littleEndian width n) = n := by
  induction width generalizing n with
  | zero => simp at h; simp [h, littleEndian, ofLittleEndian]
  | succ width ih =>
    -- what is left of `n` fits into one byte less
    have hlt : n / 256 < Nat.pow 256 width := by
      have h : n < Nat.pow 256 width * 256 := h
      omega
    simp only [littleEndian, ofLittleEndian, ih hlt, UInt8.toNat_ofNat']
    omega

/-- A number that fits is read back. -/
theorem ofBigEndian_bigEndian {width n : Nat} (h : n < Nat.pow 256 width) :
    ofBigEndian (bigEndian width n) = n := by
  simp [ofBigEndian, bigEndian, ofLittleEndian_littleEndian h]

end RaftReplica.Bytes
