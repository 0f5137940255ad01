/-
RaftReplica/Ballot/Single.lean

The ballot of one group, in a directory of its own.  The ballot in memory follows the one on disk: it
changes only after the record was written.

* `SingleBallot.get` refuses as long as nothing was read.
* `SingleBallot.init` reads the record; where there is none, the group never voted.
* `SingleBallot.set` writes the record and then remembers it.

A ballot can be cast only after the old one was read.  A node that skipped the reading would write
over a vote it does not know of.
-/
import RaftReplica.Disk.Record

namespace RaftReplica

/-- One ballot and the directory it is kept in; before the first reading there is none. -/
structure SingleBallot where
  directory : Path
  sync : Bool
  current : Option Ballot := none
  deriving DecidableEq

namespace SingleBallot

/-- The record of the ballot. -/
def file (s : SingleBallot) : Path := s.directory.entry "stable_meta"

/-- The ballot, once it was read. -/
def get (s : SingleBallot) : Except Error Ballot :=
  match s.current with
  | some b => .ok b
  | none => .error (.invalidArgument (.notInitialized "raft meta storage"))

/-- Reads the ballot; doing it again does nothing. -/
def init : Act (Mounted SingleBallot) Unit := do
  let s ← Mounted.stored
  if s.current.isNone then
    Mounted.onVolume (Volume.makeDirectories s.directory)
    let found ← Mounted.onVolume (Record.load? s.file)
    Mounted.update fun s => { s with current := some (found.getD .initial) }

/-- Casts another ballot. -/
def set (b : Ballot) : Act (Mounted SingleBallot) Unit := do
  let s ← Mounted.stored
  -- only to refuse: the old ballot itself is not looked at
  let _ ← Act.ofExcept s.get
  Mounted.onVolume (Record.save s.file b s.sync)
  Mounted.update fun s => { s with current := some b }

end SingleBallot
end RaftReplica
