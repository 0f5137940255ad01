/-
RaftReplica/Ballot/Store.lean

Where ballots are kept: in memory, where nothing outlives the process, in a directory for one group,
or in one for many groups.  All three answer alike; one that was not initialised answers nothing.

`BallotStore` is the sum of the three, and its operations only pass a call on: `within` runs an
action of the store behind a constructor and puts the constructor back around what it left.  A single
store ignores the name of the group, since it has only one.

* `BallotStore.init` makes a store ready and may be called again.
* `BallotStore.set` casts a ballot, `BallotStore.get` tells the last one.

That the three behave as one table of ballots, over any calls and restarts, is shown in
`Proofs.Ballot.Store`.
-/
import RaftReplica.Ballot.Single
import RaftReplica.Ballot.Book

namespace RaftReplica

/-- The ballots of many groups, in memory only. -/
structure BallotMemory where
  current : Option Ballots := none
  deriving DecidableEq

namespace BallotMemory

/-- The ballots, once the memory was initialised. -/
def all (m : BallotMemory) : Except Error Ballots :=
  match m.current with
  | some ballots => .ok ballots
  | none => .error (.invalidArgument (.notInitialized "memory meta storage"))

/-- The ballot of a group, once the memory was initialised. -/
def get (m : BallotMemory) (group : String) : Except Error Ballot := do
  return (← m.all).of group

/-- Starts without ballots; doing it again does nothing. -/
def init (m : BallotMemory) : BallotMemory := ⟨some (m.current.getD Table.empty)⟩

/-- Casts another ballot for a group. -/
def set (m : BallotMemory) (group : String) (ballot : Ballot) : Except Error BallotMemory := do
  return ⟨some ((← m.all).insert group ballot)⟩

/-- Forgets a group. -/
def delete (m : BallotMemory) (group : String) : Except Error BallotMemory := do
  return ⟨some ((← m.all).erase group)⟩

end BallotMemory

/-- A store of ballots. -/
inductive BallotStore
  | memory (m : BallotMemory)
  | single (s : SingleBallot)
  | book (b : BallotBook)
  deriving DecidableEq

namespace BallotStore

variable {α σ : Type}

/-- An action on the store behind a constructor. -/
def within (wrap : σ → BallotStore) (s : σ) (x : Act (Mounted σ) α) : Act (Mounted BallotStore) α :=
  x.zoom (fun m => ⟨s, m.volume⟩) fun _ m => ⟨wrap m.store, m.volume⟩

/-- Makes the store ready; doing it again does nothing. -/
def init : Act (Mounted BallotStore) Unit := do
  match ← Mounted.stored with
  | .memory m => Mounted.update fun _ => .memory m.init
  | .single s => within .single s SingleBallot.init
  | .book b => within .book b BallotBook.init

/-- Casts another ballot for a group. -/
def set (group : String) (ballot : Ballot) : Act (Mounted BallotStore) Unit := do
  match ← Mounted.stored with
  | .memory m =>
    let m ← Act.ofExcept (m.set group ballot)
    Mounted.update fun _ => .memory m
  | .single s => within .single s (SingleBallot.set ballot)
  | .book b => within .book b (BallotBook.set group ballot)

/-- The ballot that a group cast last. -/
def get (store : BallotStore) (group : String) : Except Error Ballot :=
  match store with
  | .memory m => m.get group
  | .single s => s.get
  | .book b => b.get group

end BallotStore
end RaftReplica
