/-
RaftReplica/Disk/Content.lean

What a file holds.  Files mostly grow at their end, so a content is kept as the pieces that were
appended, the last one first, and its size is at hand.  An append is then one step, however long the
file is.

Seen from outside a content is its bytes: `bytes_write` and `bytes_resize` say that writing and
resizing do to them what they do to a row of bytes.  Proofs about files use these two and never look
at the pieces.

The size is a field with a proof that it is right, so `write` can compare a position with it in one
step and no lemma has to carry an invariant about it.
-/
import RaftReplica.Bytes.Basic

namespace RaftReplica

/-- The content of a file: its pieces, the last one first, and how many bytes they are. -/
structure Content where
  pieces : List Bytes := []
  size : Nat := 0
  size_eq : size = pieces.reverse.flatten.length := by simp
  deriving DecidableEq, Repr

namespace Content

instance : Inhabited Content := ⟨{}⟩

/-- All bytes of a content. -/
def bytes (c : Content) : Bytes :=
  match c.pieces with
  | [bs] => bs
  | pieces => pieces.reverse.flatten

/-- A single piece is what it is put together to. -/
theorem bytes_eq (c : Content) : c.bytes = c.pieces.reverse.flatten := by
  unfold bytes
  split
  · next h => simp [h]
  · rfl

/-- The size at hand is the number of bytes. -/
theorem size_eq_length (c : Content) : c.size = c.bytes.length := c.bytes_eq ▸ c.size_eq

/-- The content with given bytes. -/
def ofBytes (bs : Bytes) : Content where
  pieces := [bs]
  size := bs.length

@[simp] theorem bytes_ofBytes (bs : Bytes) : (ofBytes bs).bytes = bs := rfl

/-- Puts a piece at the end. -/
def append (c : Content) (new : Bytes) : Content where
  pieces := new :: c.pieces
  size := c.size + new.length
  size_eq := by simp [c.size_eq]

@[simp] theorem bytes_append (c : Content) (new : Bytes) :
    (c.append new).bytes = c.bytes ++ new := by simp [bytes_eq, append]

/-- Overwrites from position `pos` on; a gap is filled with zeros. -/
def write (c : Content) (pos : Nat) (new : Bytes) : Content :=
  -- where files are written most of the time
  if pos = c.size then c.append new else ofBytes (c.bytes.writeAt pos new)

/-- Seen from outside, the short way for appends is the general one. -/
@[simp] theorem bytes_write (c : Content) (pos : Nat) (new : Bytes) :
    (c.write pos new).bytes = c.bytes.writeAt pos new := by
  unfold write
  split
  · -- the short way: a write at the end is an append of bytes too
    next h => rw [h, c.size_eq_length, bytes_append, Bytes.writeAt_length]
  · rw [bytes_ofBytes]

/-- Cuts to `n` bytes, or fills up with zeros. -/
def resize (c : Content) (n : Nat) : Content :=
  if n = c.size then c else ofBytes (c.bytes.resize n)

@[simp] theorem bytes_resize (c : Content) (n : Nat) :
    (c.resize n).bytes = c.bytes.resize n := by
  unfold resize
  split
  · next h => simp [h, c.size_eq_length, Bytes.resize]
  · rw [bytes_ofBytes]

end Content
end RaftReplica
