/-
RaftReplica/Snapshot/Writer.lean

Snapshots in the making, and published ones being read.  Both are a directory with some files and a
table of contents; the table of a writer is in memory until it is flushed, that of a reader was read
when the snapshot was opened.

Who makes a snapshot writes its files by himself and then enters them by name
(`SnapshotWriter.addFile`); the table says which files belong to the snapshot, and a file that was
never entered is there but not part of it.  Entering a name twice replaces what was said about it.

* `SnapshotWriter.flush` writes the table, as the last thing before publishing.
* `SnapshotWriter.index` is zero as long as nothing says what the snapshot covers, and such a one
  cannot be published.
* `SnapshotReader.info` refuses a table without meta, which only damage can bring about.
-/
import RaftReplica.Bytes.Crc32
import RaftReplica.Disk.Record
import RaftReplica.Snapshot.FileName

namespace RaftReplica

/-- The checksum of a file that is there. -/
def FileMeta.ofFile (file : Path) (d : Disk) : Except IoCause FileMeta := do
  return ⟨some (Crc32.checksum (← d.read file))⟩

namespace SnapshotTable

/-- Where the table of the snapshot in a directory is. -/
def file (directory : Path) : Path := directory.entry SnapshotName.table

/-- The names of the files of a snapshot, in their order. -/
def names (t : SnapshotTable) : List String := t.files.keys

end SnapshotTable

/-- A snapshot in the making. -/
structure SnapshotWriter where
  directory : Path
  sync : Bool
  table : SnapshotTable := .empty
  deriving DecidableEq

namespace SnapshotWriter

/-- The index that the snapshot will reach to; zero before that is known. -/
def index (w : SnapshotWriter) : Nat := (w.table.info.map (·.lastIncluded.index)).getD 0

/-- Tells what the snapshot covers. -/
def setInfo (info : SnapshotMeta) (w : SnapshotWriter) : SnapshotWriter :=
  { w with table := { w.table with info := some info } }

/-- Puts a file that is there already into the table. -/
def addFile (name : String) (file : FileMeta) (w : SnapshotWriter) :
    Except Error SnapshotWriter := do
  SnapshotName.check name
  return { w with table := { w.table with files := w.table.files.insert name file } }

/-- Takes a file out of the table, and removes it if it is there. -/
def removeFile (name : String) : Act (Mounted SnapshotWriter) Unit := do
  Act.ofExcept (SnapshotName.check name)
  Mounted.update fun w =>
    { w with table := { w.table with files := w.table.files.erase name } }
  Mounted.onVolume (Record.remove ((← Mounted.stored).directory.entry name))

/-- Writes the table. -/
def flush (w : SnapshotWriter) : Act Volume Unit :=
  Record.save (SnapshotTable.file w.directory) w.table w.sync

end SnapshotWriter

/-- A published snapshot that is being read; while it is, its directory stays. -/
structure SnapshotReader where
  index : Nat
  directory : Path
  table : SnapshotTable
  deriving DecidableEq

namespace SnapshotReader

/-- What the snapshot covers. -/
def info (r : SnapshotReader) : Except Error SnapshotMeta :=
  match r.table.info with
  | some info => .ok info
  | none => .error (.corrupted (.noSnapshotMeta r.directory.text))

/-- Where other stores can copy the snapshot from. -/
def uri (r : SnapshotReader) : String := "local://" ++ r.directory.text

end SnapshotReader
end RaftReplica
