/-
RaftReplica/Log/Segmented.lean

The durable log: a directory of segments.  All segments but the last one are sealed; entries are
appended to the last one until it outgrows the largest size, and then to a new one.  A record tells
the first index of the log, so a removal of old segments that was cut short is finished the next
time the log is opened.

What the directory holds, read in the order of first indexes, is one unbroken range of entries, and
the log in memory is that range with the segments it is made of.  Each operation changes both, in an
order that is chosen for crashes:

* `append` writes the entry before the segment knows of it; a full segment is sealed before the next
  one is made.
* `truncateBefore` writes the record first, so that what was dropped is not taken for part of the
  log again even if its files are still there.
* `truncateAfter` removes whole segments from the end before it cuts the one that stays.
* `reset` writes the record and then removes every file.
* `init` reads the record, sorts the files by their names, loads what is not below the start, and
  removes the rest.

An operation that fails half way has changed the memory already where that comes before the disk;
the lemmas in `Proofs.Log` say for each of them what a caller and what a restart finds.
-/
import RaftReplica.Disk.Record
import RaftReplica.Log.Segment

namespace RaftReplica

/-- The record of the index that the log starts at. -/
structure LogStart where
  first : Nat
  deriving DecidableEq, Repr

instance : JsonForm LogStart :=
  ⟨fun s => Json.ofFields [("first_log_index", JsonForm.toJson s.first)], fun j => do
    let [first] ← Json.fields? ["first_log_index"] j | none
    return ⟨← JsonForm.ofJson? first⟩⟩

/-- A log in a directory: its range, the sealed segments in their order, and the one to write to. -/
structure SegmentedLog where
  directory : Path
  sync : Bool := true
  maxSegmentSize : Nat := 8 * 1024 * 1024
  first : Nat := 1
  last : Nat := 0
  closed : List Segment := []
  tail : Option Segment := none
  deriving DecidableEq, Repr

namespace SegmentedLog

/-- The record of the log's first index. -/
def startFile (l : SegmentedLog) : Path := l.directory.entry SegmentName.recordName

/-- The index lies in the log. -/
def covers (l : SegmentedLog) (index : Nat) : Bool := l.first ≤ index && index ≤ l.last

/-- The segment whose range may hold an index. -/
def locate? (l : SegmentedLog) (index : Nat) : Option Segment :=
  -- every index from its first one on is in the newest segment
  match l.tail.filter (·.first ≤ index) with
  | some s => some s
  | none => l.closed.reverse.find? (·.first ≤ index)

/-! ### Reading -/

/-- The entry at an index, or why it could not be read. -/
def read (l : SegmentedLog) (index : Nat) (d : Disk) : Except Failure (Option Entry) :=
  if l.covers index then
    match l.locate? index with
    | some s => s.get index d
    | none => .ok none
  else .ok none

/-- The entry at an index; one that cannot be read is none. -/
def get (l : SegmentedLog) (index : Nat) (d : Disk) : Except Violation (Option Entry) :=
  match l.read index d with
  | .ok e => .ok e
  | .error (.error _) => .ok none
  | .error (.violation v) => .error v

/-- The term of the entry at an index; zero outside the log. -/
def term (l : SegmentedLog) (index : Nat) : Except Violation Nat :=
  if l.covers index then
    match l.locate? index with
    | some s => s.term index
    | none => .ok 0
  else .ok 0

/-! ### Removing files -/

/-- Removes the files of segments; all are tried, and the first error counts. -/
def unlinkAll : List Segment → Act Volume Unit
  | [] => pure ()
  | s :: rest => do
    let first ← s.unlink.attempt
    -- also after an error, so as few files as possible are left for the next start
    let others ← (unlinkAll rest).attempt
    match first, others with
    | .error f, _ => throw f
    | .ok (), .error f => throw f
    | .ok (), .ok () => pure ()

/-! ### Opening -/

/-- The segments of a directory: the sealed ones in the order of their first indexes, and the one
to write to. -/
structure Found where
  closed : List Segment := []
  tail : Option Segment := none

/-- Takes the file of a given name into account. -/
def Found.add (directory : Path) (f : Found) (name : String) : Except Error Found :=
  match SegmentName.ofText? name with
  | none => .ok f
  | some n =>
    if n.first = 0 then .error (.corrupted (.segmentAtZero name))
    else
      match n, f.tail with
      | .writable first, some other => .error (.corrupted (.twoTails other.first first))
      | .writable first, none => .ok { f with tail := some (Segment.fresh directory first) }
      | .sealed first last, _ =>
        .ok { f with closed := f.closed ++ [Segment.closed directory first last] }

/-- The segments among files of the given names. -/
def Found.ofNames (directory : Path) (names : List String) : Except Error Found := do
  let f ← names.foldlM (Found.add directory) {}
  -- the directory lists its names in no order
  return { f with closed := f.closed.mergeSort fun a b => a.first ≤ b.first }

/-- A segment starts right after the one before it; the oldest one not after the log's start. -/
def checkContinuity (expected : Option Nat) (start : Nat) (s : Segment) : Except Error Unit :=
  match expected with
  | some next =>
    if s.first = next then .ok () else .error (.corrupted (.gap next s.first))
  | none =>
    if start < s.first then .error (.corrupted (.startsLate s.first start)) else .ok ()

/-- The segments that were loaded so far, those to be removed, and the index that comes next. -/
structure Loaded where
  closed : List Segment := []
  tail : Option Segment := none
  doomed : List Segment := []
  next : Option Nat := none

/-- Loads the sealed segments; those that end before the log's start are to be removed. -/
def loadClosed (start : Nat) (done : Loaded) :
    List Segment → Act (Mounted MembershipHistory) Loaded
  | [] => pure done
  | s :: rest =>
    if s.last < start then loadClosed start { done with doomed := done.doomed ++ [s] } rest
    else do
      Act.ofExcept (checkContinuity done.next start s)
      let s ← s.load
      loadClosed start { done with closed := done.closed ++ [s], next := some (s.last + 1) } rest

/-- Loads the segment to write to; it too may end before the log's start. -/
def loadTail (start : Nat) (done : Loaded) :
    Option Segment → Act (Mounted MembershipHistory) Loaded
  | none => pure done
  | some s => do
    Act.ofExcept (checkContinuity done.next start s)
    let s ← s.load
    -- its entries were dropped, but the process ended before its file was removed
    if s.last < start then return { done with doomed := done.doomed ++ [s] }
    else return { done with tail := some s, next := some (s.last + 1) }

/-- The index before that which comes next, but not before the log's start. -/
def lastOf (start : Nat) (next : Option Nat) : Nat :=
  match next with
  | some n => max (n - 1) (start - 1)
  | none => start - 1

/-- Opens the log in its directory and tells the history every membership found there. -/
def init (l : SegmentedLog) : Act (Mounted MembershipHistory) SegmentedLog := do
  Mounted.onVolume (Volume.makeDirectories l.directory)
  let record ← Mounted.onVolume (Record.load? l.startFile)
  let start := (record.map LogStart.first).getD 1
  let names ← Mounted.onVolume (Volume.look (·.list l.directory))
  let found ← Act.ofExcept (Found.ofNames l.directory names)
  -- in the order of their indexes, so the history hears of memberships in theirs
  let done ← loadClosed start {} found.closed
  let done ← loadTail start done found.tail
  Mounted.onVolume (unlinkAll done.doomed)
  return { l with
    first := start
    last := lastOf start done.next
    closed := done.closed
    tail := done.tail }

/-! ### Appending -/

/-- The segment to write to; a full one is sealed first, and a new one made when there is none. -/
def writable : Act (Mounted SegmentedLog) Segment := do
  let l ← Mounted.stored
  match l.tail with
  | some s =>
    if s.bytes ≤ l.maxSegmentSize then return s
    -- if this fails the full segment stays the last one, and appending fails with it
    let s ← Mounted.onVolume (s.close l.sync)
    Mounted.update fun l => { l with closed := l.closed ++ [s], tail := none }
  | none => pure ()
  -- a crash here leaves no segment to write to, and the next append makes one
  let s ← Mounted.onVolume (Segment.fresh l.directory (l.last + 1)).create
  Mounted.update fun l => { l with tail := some s }
  return s

/-- Appends one entry, which has to continue the log. -/
def push (e : Entry) : Act (Mounted SegmentedLog) Unit := do
  let l ← Mounted.stored
  Act.require (e.index = l.last + 1) (.appendGap l.last)
  let s ← writable
  let s ← Mounted.onVolume (s.append e)
  Mounted.update fun l => { l with tail := some s, last := e.index }

/-- Appends entries up to the first that fails; tells how many were appended, and the error. -/
def pushAll : List Entry → Act (Mounted SegmentedLog) (Nat × Option Error)
  | [] => pure (0, none)
  | e :: rest => do
    match ← (push e).attempt with
    | .ok () =>
      let (n, failure) ← pushAll rest
      return (n + 1, failure)
    | .error (.error failure) => return (0, some failure)
    | .error (.violation v) => Act.violate v

/-- Makes the entries in the last segment durable, if the log is to be. -/
def flush : Act (Mounted SegmentedLog) Unit := do
  let l ← Mounted.stored
  match l.tail with
  | some s => Mounted.onVolume (s.flush l.sync)
  | none => pure ()

/-- Appends entries and tells how many of them are in the log now.  It is an error only if none
is. -/
def append (es : List Entry) : Act (Mounted SegmentedLog) Nat := do
  let (n, failure) ← pushAll es
  -- what was appended before a failure is in the log, so it has to be durable too
  if 0 < n then flush
  match failure with
  | some e => if n = 0 then Act.fail e else return n
  | none => return n

/-! ### Dropping -/

/-- Writes the record of the log's first index. -/
def saveStart (first : Nat) : Act (Mounted SegmentedLog) Unit := do
  let l ← Mounted.stored
  Mounted.onVolume (Record.save l.startFile (LogStart.mk first) l.sync)

/-- Drops the entries below `kept`.  The record goes first, so a crash leaves only segments that
are removed later. -/
def truncateBefore (kept : Nat) : Act (Mounted SegmentedLog) Unit := do
  let l ← Mounted.stored
  if kept ≤ l.first then return
  saveStart kept
  let isDoomed (s : Segment) : Bool := s.last < kept
  Mounted.update fun l => { l with
    first := kept
    last := max l.last (kept - 1)
    closed := l.closed.dropWhile isDoomed
    tail := l.tail.filter (!isDoomed ·) }
  Mounted.onVolume
    (unlinkAll (l.closed.takeWhile isDoomed ++ (l.tail.filter isDoomed).toList))

/-- Cuts the segment that holds `kept` in its middle. -/
def truncateWithin (kept : Nat) : Act (Mounted SegmentedLog) Unit := do
  let l ← Mounted.stored
  match l.tail with
  | some s =>
    let s ← Mounted.onVolume (s.truncate kept)
    Mounted.update fun l => { l with tail := some s }
  -- the last sealed segment is shortened and stays sealed
  | none =>
    match l.closed.getLast? with
    | some s =>
      let s ← Mounted.onVolume (s.truncate kept)
      Mounted.update fun l => { l with closed := l.closed.dropLast ++ [s] }
    | none => pure ()

/-- Drops the entries above `kept`: first whole segments, then the rest of one. -/
def truncateAfter (kept : Nat) : Act (Mounted SegmentedLog) Unit := do
  let l ← Mounted.stored
  Act.require (l.first ≤ kept + 1) (.truncateBelowFirst kept l.first)
  if l.last ≤ kept then return
  match l.tail.filter (·.first ≤ kept) with
  | some _ => Mounted.update fun l => { l with last := kept }
  | none =>
    let isDoomed (s : Segment) : Bool := kept < s.first
    Mounted.update fun l => { l with
      last := kept
      closed := (l.closed.reverse.dropWhile isDoomed).reverse
      tail := none }
    -- from the last segment backwards, so a crash leaves no gap
    Mounted.onVolume (unlinkAll (l.tail.toList ++ l.closed.reverse.takeWhile isDoomed))
  truncateWithin kept

/-- Drops everything; the next entry will have index `next`. -/
def reset (next : Nat) : Act (Mounted SegmentedLog) Unit := do
  if next = 0 then Act.fail (.invalidArgument .resetToZero)
  saveStart next
  let l ← Mounted.stored
  Mounted.update fun l => { l with first := next, last := next - 1, closed := [], tail := none }
  Mounted.onVolume (unlinkAll (l.closed ++ l.tail.toList))

end SegmentedLog
end RaftReplica
