/-
RaftReplica/Log/Segment.lean

Segments.  The log is cut into files of bounded size, so that old entries are dropped by removing
files.  A segment is the file of some entries in a row, together with where each of them starts and
its term; while it is open, entries can be appended to it.

The marks are all that memory keeps of the entries: a term is answered from them, and an entry is
read from the file between its own mark and the next.  They are built when the file is read
(`filled`) and kept up by `append` and `truncate`.

Each operation gives the segment as it is afterwards.  If it fails the segment is as before, though
the file may not be: an append that broke off leaves bytes behind the last frame, and the next one
writes over them, since it starts where the last whole frame ends.

* `load` reads a file, cuts an incomplete write off its end, and tells the history of memberships
  what it found; for a sealed segment the range in its name decides whether anything is missing.
* `close` and `truncate` rename the file, as its name tells its range.
* `unlink` takes a file that is gone for removed.
-/
import RaftReplica.Disk.Volume
import RaftReplica.Log.FileName
import RaftReplica.Log.Frame
import RaftReplica.Membership.History

namespace RaftReplica

/-- Where an entry starts in its file, and its term. -/
structure Mark where
  offset : Nat
  term : Nat
  deriving DecidableEq, Repr, Inhabited

/-- The entries from `first` to `last` in one file; `handle` is the file, once it is open. -/
structure Segment where
  directory : Path
  first : Nat
  last : Nat
  isOpen : Bool
  bytes : Nat := 0
  marks : List Mark := []
  handle : Option Nat := none
  deriving DecidableEq, Repr

namespace Segment

/-- A segment to write to, without entries and without a file. -/
def fresh (directory : Path) (first : Nat) : Segment :=
  { directory, first, last := first - 1, isOpen := true }

/-- A sealed segment, before its file is read. -/
def closed (directory : Path) (first last : Nat) : Segment :=
  { directory, first, last, isOpen := false }

/-- The name of the file, by the state of the segment. -/
def name (s : Segment) : SegmentName :=
  if s.isOpen then .writable s.first else .sealed s.first s.last

/-- Where the file of a segment is. -/
def path (s : Segment) : Path := s.directory.entry s.name.text

/-- The index lies in the segment. -/
def covers (s : Segment) (index : Nat) : Bool := s.first ≤ index && index ≤ s.last

/-- The file of a segment, which has to be open. -/
def file (s : Segment) : Except Error Nat :=
  match s.handle with
  | some n => .ok n
  | none => .error (.io (.segmentNotOpen s.first))

/-- The segment without its file. -/
def released (s : Segment) : Segment := { s with handle := none }

/-! ### Opening -/

/-- Makes the file of a segment to write to. -/
def create (s : Segment) : Act Volume Segment := do
  Act.require s.isOpen .createClosed
  let number ← Volume.create s.path
  return { s with last := s.first - 1, bytes := 0, marks := [], handle := some number }

/-- A sealed segment holds exactly the entries that its name tells. -/
def checkRange (s : Segment) (last : Nat) : Except Error Unit :=
  if s.isOpen then .ok ()
  else if last < s.last then .error (.corrupted (.entriesLost s.path.text last))
  else if s.last < last then .error (.corrupted (.entriesAdded s.path.text last))
  else .ok ()

/-- The segment once its file was read. -/
def filled (s : Segment) (number : Nat) (c : Frame.Contents) : Segment :=
  { s with
    last := s.first + c.entries.length - 1
    bytes := c.size
    marks := c.entries.map fun p => ⟨p.1, p.2.term⟩
    handle := some number }

/-- The memberships that entries describe, in their order. -/
def memberships (es : List Entry) : List Membership :=
  (es.filter (·.isMembership)).map Membership.ofEntry

/-- Adds memberships to the history, up to the first that it refuses. -/
def tell : List Membership → Act (Mounted MembershipHistory) Unit
  | [] => pure ()
  | m :: rest => do
    let h ← Act.ofExcept ((← Mounted.stored).add m)
    Mounted.update fun _ => h
    tell rest

/-- Reads the file of a segment and tells the history what it holds.  An incomplete write at the
end is cut off; damaged entries, or a range that is not the one of the name, are an error. -/
def load (s : Segment) : Act (Mounted MembershipHistory) Segment := do
  let number ← Mounted.onVolume (Volume.openFile s.path)
  let content := (← get).volume.disk.content number
  let c := Frame.readAll s.path.text s.first content
  -- the history hears of the entries in front of a damage too
  tell (memberships (c.entries.map (·.2)))
  match c.damage with
  | some d => Act.fail (.corrupted d)
  | none =>
    let s' := s.filled number c
    Act.ofExcept (s.checkRange s'.last)
    -- stray bytes behind the last whole frame
    if c.size ≠ content.length then Mounted.onVolume (Volume.setLength number c.size)
    return s'

/-! ### Reading -/

/-- The mark of the entry at an index of the segment. -/
def mark (s : Segment) (index : Nat) : Except Violation Mark :=
  match s.marks[index - s.first]? with
  | some m => .ok m
  | none => .error .outOfBounds

/-- Where the entry after that at position `pos` starts, or the file ends. -/
def endOf (s : Segment) (pos : Nat) : Nat := (s.marks[pos + 1]?.map Mark.offset).getD s.bytes

/-- The bytes from `offset` to `stop` of a file. -/
def slice (content : Bytes) (offset stop : Nat) : Except Error Bytes :=
  let bs := (content.drop offset).take (stop - offset)
  if bs.length < stop - offset then .error (.io .endOfFile) else .ok bs

/-- The entry at an index, read from the file; none outside the segment. -/
def get (s : Segment) (index : Nat) (d : Disk) : Except Failure (Option Entry) := do
  if s.covers index then
    let m ← (s.mark index).mapError .violation
    let number ← s.file.mapError .error
    let bs ← (slice (d.content number) m.offset (s.endOf (index - s.first))).mapError .error
    let e ← (Frame.decode index bs).mapError fun d => .error (.corrupted d)
    return some e
  else return none

/-- The term of the entry at an index, without reading the file; zero outside the segment. -/
def term (s : Segment) (index : Nat) : Except Violation Nat :=
  if s.covers index then (s.mark index).map Mark.term else .ok 0

/-! ### Writing -/

/-- Appends the next entry. -/
def append (e : Entry) (s : Segment) : Act Volume Segment := do
  Act.require s.isOpen (.appendToClosed s.first)
  Act.require (e.index = s.last + 1) .appendOutOfOrder
  let bs ← Act.ofExcept (Frame.encode e)
  let number ← Act.ofExcept s.file
  Volume.write number s.bytes bs
  return { s with
    last := s.last + 1
    bytes := s.bytes + bs.length
    marks := s.marks ++ [⟨s.bytes, e.term⟩] }

/-- Makes what was appended durable, if asked to. -/
def flush (sync : Bool) (s : Segment) : Act Volume Unit :=
  match s.handle with
  | some number => Volume.flush sync number
  | none => pure ()

/-- Seals the segment: from now on its name tells its last index. -/
def close (sync : Bool) (s : Segment) : Act Volume Segment := do
  Act.require s.isOpen (.closeTwice s.first)
  s.flush sync
  let s' := { s with isOpen := false }
  Volume.rename s.path s'.path
  return s'

/-- Drops every entry after `kept`; the name of a sealed segment follows. -/
def truncate (kept : Nat) (s : Segment) : Act Volume Segment := do
  if s.last ≤ kept then return s
  Act.require (s.first ≤ kept + 1) (.truncateBelowStart kept s.first)
  -- `kept` may be the index before the first one: then nothing stays
  let count := kept + 1 - s.first
  let size := (s.marks[count]?.map Mark.offset).getD s.bytes
  Volume.setLength (← Act.ofExcept s.file) size
  let s' := { s with last := kept, bytes := size, marks := s.marks.take count }
  -- the file is shorter by now, whether or not it gets its new name
  if !s.isOpen then Volume.rename s.path s'.path
  return s'

/-- Removes the file, if it is there. -/
def unlink (s : Segment) : Act Volume Unit := Act.ofStep fun v =>
  match (Volume.removeFile s.path).runOn v with
  | (.error (.error (.io .missing)), v') => (.ok (), v')
  | r => r

/-- Removes the file of a segment that is kept.  The segment is without its file from then on, also
if the removal fails. -/
def letGo : Act (Mounted Segment) Unit := do
  let s ← Mounted.stored
  Mounted.update released
  Mounted.onVolume s.unlink

end Segment
end RaftReplica
