/-
RaftReplica/Proofs/Log/Start.lean

The record of the index that a log starts at, read back from what is written.

The record is a frame around an object with one field, so what has to be shown of its own is small:
the object that is written is one that is read (`decode?_encode`), and it is not too long for a
frame (`length_encode_le`).  The bound on the index is that of the numbers that are read; a larger
one would be written and then refused.  `parse_frame` puts both together, and is what the log uses.
-/
import RaftReplica.Log.Segmented
import RaftReplica.Proofs.Disk.Record
import RaftReplica.Proofs.Json.RoundTrip

namespace RaftReplica.LogStart

open Json Numeral

/-- The name of the only field. -/
def key : String := "first_log_index"

theorem encode_eq (n : Nat) :
    encode (LogStart.mk n) = render (.object [(some key, .nat n)]) := rfl

/-- The record of the start is short enough for a frame, since its number has at most twenty digits. -/
theorem length_encode_le {n : Nat} (hn : n ≤ max64) :
    (encode (LogStart.mk n)).length ≤ max32 := by
  have hlen : (chars n).length ≤ 19 + 1 := length_chars_le (Nat.lt_of_le_of_lt hn (by decide))
  have hkey : (renderText key).length = 17 := by decide +kernel
  have hmax : 64 ≤ max32 := by decide
  rw [encode_eq, render, renderFields, Option.getD_some, render]
  simp only [List.length_cons, List.length_append, List.length_nil, asciis, List.length_map, hkey]
  omega

/-- **The record** is read back. -/
theorem decode?_encode {n : Nat} (hn : n ≤ max64) :
    decode? (encode (LogStart.mk n)) = some (LogStart.mk n) := by
  have hwritable : Writable (.object [(some key, .nat n)]) := by
    refine .object ?_ ?_ <;> intro f hf <;> rw [List.mem_singleton.1 hf]
    · rfl
    · exact .nat n
  have hform : JsonForm.ofJson? (.object [(some key, .nat n)]) = some (LogStart.mk n) := by
    have hfields : fields? [key] (.object [(some key, .nat n)]) = some [.nat n] := by
      simp [fields?, field?, valuesOf]
    simp only [JsonForm.ofJson?]
    rw [show fields? ["first_log_index"] _ = _ from hfields]
    simp [nat?, hn]
  rw [decode?, encode_eq, read?_render hwritable]
  exact hform

theorem parse_frame (text : String) {n : Nat} (hn : n ≤ max64) :
    Record.parse text (Record.frame (encode (LogStart.mk n))) = .ok (LogStart.mk n) :=
  Record.parse_frame text (length_encode_le hn) (decode?_encode hn)

end RaftReplica.LogStart
