/-
RaftReplica/Ballot/Book.lean

The ballots of many groups in one record.  The record is always written as a whole, and the ballots
in memory change only after that.

So the book in memory and the record on disk agree whenever no call is under way: a call that fails
leaves both as they were, and one that succeeds has changed both.  The price is that each vote writes
the ballots of all groups.

* `BallotBook.all` refuses as long as nothing was read; every answer goes through it.
* `BallotBook.init` reads the record, and takes a missing one for an empty book.
* `BallotBook.replace` is the one place that writes.
* `BallotBook.set` and `BallotBook.delete` say what the new ballots are.
-/
import RaftReplica.Disk.Record

namespace RaftReplica

/-- Ballots by the name of their group. -/
abbrev Ballots : Type := Table String Ballot

namespace Ballots

/-- The ballot of a group; one that never voted has the initial one. -/
def of (ballots : Ballots) (group : String) : Ballot := (ballots.get? group).getD .initial

end Ballots

/-- The ballots of many groups and the directory they are kept in. -/
structure BallotBook where
  directory : Path
  sync : Bool
  current : Option Ballots := none
  deriving DecidableEq

namespace BallotBook

/-- The record of all ballots. -/
def file (b : BallotBook) : Path := b.directory.entry "merged_meta"

/-- The ballots, once they were read. -/
def all (b : BallotBook) : Except Error Ballots :=
  match b.current with
  | some ballots => .ok ballots
  | none => .error (.invalidArgument (.notInitialized "merged meta storage"))

/-- The ballot of a group, once the ballots were read. -/
def get (b : BallotBook) (group : String) : Except Error Ballot := do
  return (← b.all).of group

/-- Reads the ballots; doing it again does nothing. -/
def init : Act (Mounted BallotBook) Unit := do
  let b ← Mounted.stored
  -- a second call does not read the record again
  if b.current.isNone then
    Mounted.onVolume (Volume.makeDirectories b.directory)
    let found ← Mounted.onVolume (Record.load? b.file)
    Mounted.update fun b => { b with current := some (found.getD Table.empty) }

/-- Puts other ballots in the place of all. -/
def replace (ballots : Ballots) : Act (Mounted BallotBook) Unit := do
  let b ← Mounted.stored
  -- a failure ends the action here, before the memory follows
  Mounted.onVolume (Record.save b.file ballots b.sync)
  Mounted.update fun b => { b with current := some ballots }

/-- Casts another ballot for a group. -/
def set (group : String) (ballot : Ballot) : Act (Mounted BallotBook) Unit := do
  let ballots ← Act.ofExcept (← Mounted.stored).all
  replace (ballots.insert group ballot)

/-- Forgets a group; nothing is written for one that never voted. -/
def delete (group : String) : Act (Mounted BallotBook) Unit := do
  let ballots ← Act.ofExcept (← Mounted.stored).all
  if ballots.contains group then replace (ballots.erase group)

end BallotBook
end RaftReplica
