/-
RaftReplica/Snapshot/Store.lean

A store of snapshots.  Each published snapshot has a directory of its own, named by the index it
reaches to; what is in the making is in directories with other names, which the next start
removes.  The store counts who holds a snapshot: its readers, and the store itself the latest one.  A
snapshot that nobody holds any more is removed.

Publishing is a single rename.  Before it a crash leaves a directory that the next start removes,
after it the snapshot is there as a whole; the one before is let go only then, so there is always
one to start from.

* `hold` and `release` count, and `release` removes the directory after the last holder.
* `init` finds the snapshot of the greatest index and takes it for the latest one.
* `openAt` and `openLatest` read a table and hold the snapshot as long as the reader is open.
* `create`, `publish`, `commit` and `abandon` are the life of a snapshot in the making.
* `advanceTo` moves the store's own hold from one snapshot to the next.

The counts are of this process.  They start anew with `init`, which removes whatever nobody can be
holding at that time.
-/
import RaftReplica.Snapshot.Copy

namespace RaftReplica

/-- Snapshots in a directory.  `throttle` is the number of the throttle that copies into the store
ask, and `copies` are all that were begun. -/
structure SnapshotStore where
  directory : Path
  sync : Bool
  nextTemporary : Nat := 0
  last : Nat := 0
  holders : Table Nat Nat := .empty
  throttle : Option Nat := none
  copies : List Copy := []

namespace SnapshotStore

/-- Where the snapshot that reaches to an index is. -/
def place (s : SnapshotStore) (index : Nat) : Path :=
  s.directory.entry (SnapshotName.published index)

/-- How a store is shown in descriptions. -/
def describe (s : SnapshotStore) : String :=
  "LocalSnapshotStorage \x7b path: " ++ Text.quoted s.directory.text ++
    ", last_snapshot_index: " ++ Numeral.text s.last ++ " \x7d"

/-! ### Holding -/

/-- One more holds the snapshot; only one that somebody holds already can be held. -/
def hold (index : Nat) : Act (Mounted SnapshotStore) Unit := do
  match (← Mounted.stored).holders.get? index with
  | some n => Mounted.update fun s => { s with holders := s.holders.insert index (n + 1) }
  | none => Act.fail (.notFound (.snapshot index))

/-- One fewer holds the snapshot; after the last one it is removed. -/
def release (index : Nat) : Act (Mounted SnapshotStore) Unit := do
  let s ← Mounted.stored
  match s.holders.get? index with
  -- a snapshot that nobody is known to hold is left alone
  | none => pure ()
  | some n =>
    if 1 < n then Mounted.update fun s => { s with holders := s.holders.insert index (n - 1) }
    else
      Mounted.update fun s => { s with holders := s.holders.erase index }
      Mounted.onVolume (Volume.discard (s.place index))

/-! ### Opening -/

/-- Opens the store: the snapshot with the greatest index is kept, others and everything that was
in the making are removed. -/
def init : Act (Mounted SnapshotStore) Unit := do
  let s ← Mounted.stored
  Mounted.onVolume (Volume.makeDirectories s.directory)
  let names ← Mounted.onVolume (Volume.look (·.list s.directory))
  -- nobody else has the directory open, so what is in the making here never gets finished
  for name in names.filter SnapshotName.isTemporary do
    Mounted.onVolume (Volume.discard (s.directory.entry name))
  let found := names.filter (!SnapshotName.isTemporary ·)
  let indexes := (found.filterMap SnapshotName.index?).mergeSort fun a b => a ≤ b
  for index in indexes.dropLast do
    Mounted.onVolume (Volume.discard (s.place index))
  let last := indexes.getLast?.getD 0
  Mounted.update fun s => { s with
    last
    holders := if last = 0 then .empty else Table.empty.insert last 1 }

/-- Opens the snapshot with a given index. -/
def openAt (index : Nat) : Act (Mounted SnapshotStore) SnapshotReader := do
  hold index
  let directory := (← Mounted.stored).place index
  match ← (Mounted.onVolume (Record.load (SnapshotTable.file directory))).attempt with
  | .ok table => return ⟨index, directory, table⟩
  | .error e =>
    -- the reader that is not made does not hold it either
    release index
    throw e

/-- Opens the latest snapshot, if there is one and it can be read. -/
def openLatest : Act (Mounted SnapshotStore) (Option SnapshotReader) := do
  let s ← Mounted.stored
  if s.last = 0 then return none
  -- a snapshot that cannot be read counts as none
  return (← (openAt s.last).attempt).toOption

/-- A reader is no longer needed. -/
def closeReader (r : SnapshotReader) : Act (Mounted SnapshotStore) Unit := release r.index

/-! ### Making -/

/-- Begins a snapshot, in an empty directory. -/
def create : Act (Mounted SnapshotStore) SnapshotWriter := do
  let s ← Mounted.stored
  Mounted.update fun s => { s with nextTemporary := s.nextTemporary + 1 }
  let directory := s.directory.entry (SnapshotName.temporary s.nextTemporary)
  Mounted.onVolume (Volume.discard directory)
  Mounted.onVolume (Volume.makeDirectories directory)
  return { directory, sync := s.sync }

/-- Gives a snapshot up. -/
def abandon (w : SnapshotWriter) : Act (Mounted SnapshotStore) Unit :=
  Mounted.onVolume (Volume.discard w.directory)

/-- The store holds the snapshot at `index` as its latest one, in the place of the one before. -/
def advanceTo (index : Nat) : Act (Mounted SnapshotStore) Unit := do
  let old := (← Mounted.stored).last
  Mounted.update fun s => { s with
    last := index
    holders := s.holders.insert index ((s.holders.get? index).getD 0 + 1) }
  -- after the new one is held, so that one of them is at any time
  if 0 < old then release old

/-- Publishes what a writer made; a second snapshot with the latest index is given up instead. -/
def publish (w : SnapshotWriter) : Act (Mounted SnapshotStore) Nat := do
  if w.index = 0 then Act.fail (.invalidArgument .writerWithoutMeta)
  -- the last writes into the directory while it is still nobody's
  Mounted.onVolume w.flush
  let s ← Mounted.stored
  let place := s.place w.index
  if w.index = s.last then
    -- nothing new: the snapshot that is there has readers already
    abandon w
  else
    if (← get).volume.disk.isThere place then
      Act.fail (.invalidArgument (.stillReferenced w.index))
    Mounted.onVolume (Volume.rename w.directory place)
    Mounted.onVolume (Volume.flushParent s.sync place)
    advanceTo w.index
  return w.index

/-- Publishes what a writer made, or gives it up. -/
def commit (w : SnapshotWriter) : Act (Mounted SnapshotStore) Nat := do
  match ← (publish w).attempt with
  | .ok index => return index
  | .error e =>
    abandon w
    throw e

end SnapshotStore
end RaftReplica
