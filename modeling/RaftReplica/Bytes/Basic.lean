/-
RaftReplica/Bytes/Basic.lean

Bytes as a list, and text as its bytes.  Whatever is stored is a list of bytes; text goes there by
its encoding in eight-bit units and comes back only from well-formed bytes, so reading what was
written gives the same text.

A list, and not an array: proofs cut contents with `take` and `drop` and put them together with
`++`, and the lemmas for these are at hand for lists.

* `Bytes.ofText` and `Bytes.text?` are inverse where the second one answers: `text?_ofText` and
  `eq_ofText_of_text?`.
* `Bytes.writeAt` and `Bytes.resize` are what a write and a change of length do to a file, past its
  end too.  Writing at the very end is appending (`writeAt_length`), which is how the log grows.
-/

namespace RaftReplica

/-- A row of bytes: the content of a file, a field of an entry. -/
abbrev Bytes := List UInt8

namespace Bytes

/-- The bytes that encode a text. -/
def ofText (s : String) : Bytes := s.toUTF8.data.toList

/-- The text that well-formed bytes encode. -/
def text? (bs : Bytes) : Option String := String.fromUTF8? ⟨bs.toArray⟩

/-- The bytes of a text read back as that text. -/
@[simp] theorem text?_ofText (s : String) : text? (ofText s) = some s := by
  -- the encoding is a byte array already: list and array are two views of it
  have h : (⟨(ofText s).toArray⟩ : ByteArray) = s.toByteArray := by
    simp [ofText, String.toUTF8]
  simp only [text?, String.fromUTF8?, h, String.isValidUTF8, dif_pos, String.fromUTF8]

/-- Only the bytes of a text read back as that text. -/
theorem eq_ofText_of_text? {bs : Bytes} {s : String} (h : text? bs = some s) : bs = ofText s := by
  simp only [text?, String.fromUTF8?] at h
  split at h
  · simp only [Option.some.injEq] at h
    subst h
    simp [ofText, String.fromUTF8, String.toUTF8]
  · simp at h

/-- Overwrites `bs` from position `pos` on; a gap is filled with zeros. -/
def writeAt (bs : Bytes) (pos : Nat) (new : Bytes) : Bytes :=
  let start := bs.take pos
  -- the gap is empty if `pos` is within `bs`, and the rest is empty if the write ends behind it
  start ++ (List.replicate (pos - start.length) 0 ++ (new ++ bs.drop (pos + new.length)))

/-- Cuts to `n` bytes, or fills up with zeros. -/
def resize (bs : Bytes) (n : Nat) : Bytes :=
  let start := bs.take n
  start ++ List.replicate (n - start.length) 0

/-- The length that was asked for is the length that results, shorter or longer than before. -/
@[simp] theorem length_resize (bs : Bytes) (n : Nat) : (resize bs n).length = n := by
  simp only [resize, List.length_append, List.length_take, List.length_replicate]
  omega

/-- Writing at the end appends. -/
theorem writeAt_length (bs new : Bytes) : writeAt bs bs.length new = bs ++ new := by
  simp [writeAt]

end Bytes
end RaftReplica
