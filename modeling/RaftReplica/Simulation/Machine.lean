/-
RaftReplica/Simulation/Machine.lean

A state machine to try nodes with.  Its state is a row of bytes, which it saves in a single file.  It
can be told to fail, to break an assertion, or to hold in the middle of a save or a load until it is
released.

A save writes its file and enters it into the table before it fails, if it was told to fail: what a
failed save leaves behind is then there to be looked at.  A load fails before it reads anything.

`BlobMachine.machine` is what nodes are given.  That it saves and loads as a machine should is shown
in `Proofs.Simulation.Machine`, so results about machines with that property are about something.
-/
import RaftReplica.Replica.Machine

namespace RaftReplica.Simulation

/-- The machine's state, and what it was told to do. -/
structure BlobMachine where
  applied : LogId := .zero
  state : Bytes := []
  saveError : Option String := none
  loadError : Option String := none
  saveId : Option LogId := none
  savePanics : Bool := false
  loadPanics : Bool := false
  holdsSave : Bool := false
  holdsLoad : Bool := false
  deriving Inhabited

namespace BlobMachine

/-- The file of the state in a snapshot. -/
def fileName : String := "blob"

/-- Writes the state. -/
def save : Act (Mounted (BlobMachine × SnapshotWriter)) LogId := do
  let (b, w) ← Mounted.stored
  Act.require (!b.savePanics) (.machine "save panics")
  let file := w.directory.entry fileName
  Mounted.onVolume (Volume.fill file b.state)
  let sum ← Mounted.onVolume (Volume.look (FileMeta.ofFile file))
  let w ← Act.ofExcept (w.addFile fileName sum)
  Mounted.update fun s => (s.1, w)
  match b.saveError with
  -- the file is written and entered by now
  | some text => Act.fail (.busy (.other text))
  | none => return b.saveId.getD b.applied

/-- Takes the state of a snapshot. -/
def load (r : SnapshotReader) : Act (Mounted BlobMachine) Unit := do
  let b ← Mounted.stored
  Act.require (!b.loadPanics) (.machine "load panics")
  match b.loadError with
  | some text => Act.fail (.notFound (.other text))
  | none => pure ()
  let state ← Mounted.onVolume (Volume.look (·.read (r.directory.entry fileName)))
  let info ← Act.ofExcept r.info
  Mounted.update fun b => { b with state, applied := info.lastIncluded }

/-- Publishes a snapshot of a state, as if a machine had written it. -/
def publish (state : Bytes) (m : Membership) :
    Act (Mounted SnapshotStore) (Except Failure Nat) := do
  let w ← SnapshotStore.create
  let file := w.directory.entry fileName
  Mounted.onVolume (Volume.fill file state)
  let sum ← Mounted.onVolume (Volume.look (FileMeta.ofFile file))
  let w ← Act.ofExcept (w.addFile fileName sum)
  (SnapshotStore.commit (w.setInfo (.ofMembership m.id m))).attempt

/-- The machine as nodes use it. -/
def machine : StateMachine BlobMachine := ⟨applied, save, load⟩

/-- A save or a load goes on. -/
def released (b : BlobMachine) : BlobMachine := { b with holdsSave := false, holdsLoad := false }

end BlobMachine
end RaftReplica.Simulation
