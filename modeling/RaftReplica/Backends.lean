/-
RaftReplica/Backends.lean

Which kind of store each uri scheme stands for.  Logs, ballots and snapshots have tables of their
own, and further schemes can be registered beside the usual ones.  A store that a uri names can be
made, and all it keeps can be destroyed.

There are three steps from a uri to a store, and each may refuse:

1. `find` cuts the uri and looks its scheme up in one of the tables,
2. `directoryOf` takes from it the directory and whether writes are made durable,
3. `makeLog`, `makeBallots` and `makeSnapshots` put the store together, not opened yet, with a
   default for each setting the uri leaves out.

Destroying goes through the same tables.  What a directory holds is collected as a whole; a book of
ballots is opened and loses only the group that is asked for, since the others live in the same
record.

* `Backends.usual` holds the schemes that are there from the start.
* `Backends.enter` refuses a scheme that is taken, whichever table it is for.
-/
import RaftReplica.Ballot.Store
import RaftReplica.Log.Store
import RaftReplica.Snapshot.Store
import RaftReplica.Uri

namespace RaftReplica

/-- A way to keep a log. -/
inductive LogBackend
  | memory
  | directory
  deriving DecidableEq, Repr

/-- A way to keep ballots. -/
inductive BallotBackend
  | memory
  | directory
  | book
  deriving DecidableEq, Repr

/-- A way to keep snapshots. -/
inductive SnapshotBackend
  | directory
  deriving DecidableEq, Repr

/-- The backend of each scheme. -/
structure Backends where
  logs : Table String LogBackend := .empty
  ballots : Table String BallotBackend := .empty
  snapshots : Table String SnapshotBackend := .empty
  deriving DecidableEq

namespace Backends

/-- The usual schemes. -/
def usual : Backends where
  logs := .ofList [("local", .directory), ("memory", .memory)]
  ballots := .ofList [("local", .directory), ("local-merged", .book), ("memory", .memory)]
  snapshots := .ofList [("local", .directory)]

/-- The schemes of a table, as descriptions show them. -/
def schemes {β : Type} (t : Table String β) : String :=
  "[" ++ Text.joined ", " (t.keys.map Text.quoted) ++ "]"

/-- How the backends are shown in descriptions. -/
def describe (b : Backends) : String :=
  "StorageRegistry \x7b log: " ++ schemes b.logs ++ ", meta: " ++ schemes b.ballots ++
    ", snapshot: " ++ schemes b.snapshots ++ " \x7d"

/-! ### Registering -/

/-- Adds a scheme to a table that does not have it yet. -/
def enter {β : Type} (kind scheme : String) (backend : β) (t : Table String β) :
    Except Error (Table String β) :=
  if t.contains scheme then .error (.invalidArgument (.schemeTaken kind scheme))
  else .ok (t.insert scheme backend)

/-- A further scheme for logs. -/
def registerLog (scheme : String) (backend : LogBackend) (b : Backends) :
    Except Error Backends := do
  return { b with logs := ← enter "log" scheme backend b.logs }

/-- A further scheme for ballots. -/
def registerBallots (scheme : String) (backend : BallotBackend) (b : Backends) :
    Except Error Backends := do
  return { b with ballots := ← enter "meta" scheme backend b.ballots }

/-- A further scheme for snapshots. -/
def registerSnapshots (scheme : String) (backend : SnapshotBackend) (b : Backends) :
    Except Error Backends := do
  return { b with snapshots := ← enter "snapshot" scheme backend b.snapshots }

/-- The backend that a uri names, and the uri. -/
def find {β : Type} (t : Table String β) (uri : String) : Except Error (β × StorageUri) := do
  let u ← StorageUri.parse uri
  match t.get? u.scheme with
  | some backend => return (backend, u)
  | none => throw (.unsupportedBackend u.scheme)

/-! ### Making stores -/

/-- The directory of a uri, and whether what is written there is made durable. -/
def directoryOf (u : StorageUri) : Except Error (Path × Bool) := do
  return (.ofText (← u.requirePath), ← u.boolParam "sync" true)

/-- The log that a uri names, not opened yet. -/
def makeLog (b : Backends) (uri : String) : Except Error LogStore := do
  match ← find b.logs uri with
  | (.memory, _) => return .memory {}
  | (.directory, u) =>
    let (directory, sync) ← directoryOf u
    -- eight megabytes, if the uri does not say
    let maxSegmentSize ← u.natParam "max_segment_size" (8 * 1024 * 1024)
    return .segmented { directory, sync, maxSegmentSize }

/-- The ballots that a uri names, not read yet. -/
def makeBallots (b : Backends) (uri : String) : Except Error BallotStore := do
  match ← find b.ballots uri with
  | (.memory, _) => return .memory {}
  | (.directory, u) =>
    let (directory, sync) ← directoryOf u
    return .single { directory, sync }
  | (.book, u) =>
    let (directory, sync) ← directoryOf u
    return .book { directory, sync }

/-- The snapshots that a uri names, not opened yet. -/
def makeSnapshots (b : Backends) (uri : String) : Except Error SnapshotStore := do
  let (.directory, u) ← find b.snapshots uri
  let (directory, sync) ← directoryOf u
  return { directory, sync }

/-! ### Destroying stores -/

/-- Destroys what the store at a uri keeps. -/
def collect (u : StorageUri) : Act Volume Unit := do
  Volume.collect (.ofText (← Act.ofExcept u.requirePath))

/-- Destroys the log at a uri; one in memory has nothing that could be left. -/
def destroyLog (b : Backends) (uri : String) : Act Volume Unit := do
  match ← Act.ofExcept (find b.logs uri) with
  | (.memory, _) => pure ()
  | (.directory, u) => collect u

/-- Destroys the ballot of a group; where ballots of many groups are kept, the others stay. -/
def destroyBallot (b : Backends) (uri group : String) : Act Volume Unit := do
  match ← Act.ofExcept (find b.ballots uri) with
  | (.memory, _) => pure ()
  | (.directory, u) => collect u
  | (.book, u) =>
    let (directory, sync) ← Act.ofExcept (directoryOf u)
    let book : BallotBook := { directory, sync }
    -- the record is read first: the other groups go into the new one
    (do BallotBook.init; BallotBook.delete group : Act (Mounted BallotBook) Unit).zoom
      (fun v => ⟨book, v⟩) fun _ m => m.volume

/-- Destroys all snapshots at a uri. -/
def destroySnapshots (b : Backends) (uri : String) : Act Volume Unit := do
  let (.directory, u) ← Act.ofExcept (find b.snapshots uri)
  collect u

end Backends
end RaftReplica
