/-
RaftReplica/Snapshot/FileName.lean

How the directories of snapshots, and the files in them, are named.

A published snapshot has the index it reaches to in its name, with twenty digits when it is written;
a name with fewer digits is read all the same.  What is being made has a name that starts otherwise,
so the next start can tell the two apart without looking inside.

A file of a snapshot may have any name that stays inside the directory and is not that of the
table.  Only that one name is set apart: the name under which the table is written first is allowed,
and a file of that name does not survive the writing of the table.

* `SnapshotName.published` and `SnapshotName.index?` write and read an index.
* `SnapshotName.isAllowed` is the check that `SnapshotName.check` turns into an error.
-/
import RaftReplica.Disk.Path
import RaftReplica.Error

namespace RaftReplica.SnapshotName

/-- What the name of a published snapshot's directory starts with; the index follows. -/
def start : String := "snapshot_"

/-- What the name of every directory starts with in which nothing is published yet. -/
def temporaryStart : String := "temp"

/-- The directory of the snapshot that reaches to an index. -/
def published (index : Nat) : String := start ++ Numeral.padded index

/-- The directory that a snapshot is made in. -/
def temporary (number : Nat) : String := temporaryStart ++ "_" ++ Numeral.text number

/-- The index of a snapshot, from the name of its directory. -/
def index? (name : String) : Option Nat :=
  (Text.dropStart? start.toList name.toList).bind Numeral.parse64?

/-- The name belongs to a directory in which nothing is published yet. -/
def isTemporary (name : String) : Bool :=
  (Text.dropStart? temporaryStart.toList name.toList).isSome

/-- The name of the table of contents in a snapshot's directory. -/
def table : String := "__raft_snapshot_meta"

/-- The name of a file stays inside the snapshot's directory and is not that of its table. -/
def isAllowed (name : String) : Bool :=
  let cs := name.toList
  -- two dots are refused wherever they stand, also inside a longer name
  !(cs.isEmpty || name == table || cs.contains '/' || (Text.cutAt ['.', '.'] cs).isSome)

/-- Refuses names that are not allowed. -/
def check (name : String) : Except Error Unit :=
  if isAllowed name then .ok () else .error (.invalidArgument (.badFileName name))

end RaftReplica.SnapshotName
