/-
RaftReplica/Log/FileName.lean

How the files of a log are named.  The segment that is written to is named by its first index; a
sealed one by its first and its last.  Both numbers have twenty digits, so names sort as the segments
follow one another.

Reading is more generous than writing: the numbers may have any number of digits that a number of 64
bits allows.  A name that is not one of a segment is no error, since other files may lie in the
directory; the record of the first index is one of them, and its name has to be set apart because it
starts like that of a segment.

* `SegmentName.text` writes a name and `SegmentName.ofText?` reads one.
* A sealed range that ends before it starts is no name of a segment.
-/
import RaftReplica.Text.Fields
import RaftReplica.Text.Numeral

namespace RaftReplica

/-- What the name of a file tells about the segment in it. -/
inductive SegmentName
  | writable (first : Nat)
  | sealed (first last : Nat)
  deriving DecidableEq, Repr

namespace SegmentName

/-- What the name of every segment starts with. -/
def start : String := "log_"

/-- What the name of a segment that is written to starts with. -/
def writableStart : String := "log_inprogress_"

/-- The name of the record of the log's first index. -/
def recordName : String := "log_meta"

/-- The name of the file. -/
def text : SegmentName → String
  | writable first => writableStart ++ Numeral.padded first
  | sealed first last => start ++ Numeral.padded first ++ "_" ++ Numeral.padded last

/-- The index that a segment starts at. -/
def first : SegmentName → Nat
  | writable first => first
  | sealed first _ => first

/-- The numbers of a sealed segment; ranges that end before they start are none. -/
def range? (cs : List Char) : Option SegmentName := do
  let (a, b) ← Text.cut '_' cs
  let first ← Numeral.parse64? a
  let last ← Numeral.parse64? b
  if first ≤ last then some (sealed first last) else none

/-- Reads a name; files with other names do not belong to the log. -/
def ofChars? (cs : List Char) : Option SegmentName :=
  if (Text.dropStart? recordName.toList cs).isSome then none
  else
    match Text.dropStart? writableStart.toList cs with
    -- both kinds start alike, so the longer beginning is tried first
    | some digits => (Numeral.parse64? digits).map writable
    | none => (Text.dropStart? start.toList cs).bind range?

/-- Reads the name of a file. -/
def ofText? (name : String) : Option SegmentName := ofChars? name.toList

end SegmentName
end RaftReplica
