/-
RaftReplica/Replica/Basic.lean

One node with all that its snapshots touch: the volume, the machine, the store of snapshots, the log
and the history of the membership.

The parts live on one volume but know nothing of each other; the node is where they meet.  An action
on a part is taken to the node by `onSnapshots`, `onLog`, `onMachine` or `setHistory`, which leave
every other part as it is, apart from the volume.  Such a frame is what the proofs about interleaved
jobs rest on.

`compact` is the step that touches two parts at once: the log is cut up to a snapshot and the floor
of the history moves there.  It looks at the term that the log has at that position.  If the log has
no entry there, or the one that the snapshot covers, only what is covered is dropped; if it has
another leader's, what follows it cannot be trusted either.
-/
import RaftReplica.Log.Store
import RaftReplica.Replica.Machine
import RaftReplica.Replica.Snapshotter
import RaftReplica.Snapshot.Copying

namespace RaftReplica

/-- A node whose machine has states in `σ`. -/
structure Replica (σ : Type) where
  volume : Volume
  machine : σ
  snapshots : SnapshotStore
  log : LogStore
  history : MembershipHistory
  snapshotter : Snapshotter := {}

namespace Replica

variable {σ α : Type}

/-- An action on the store of snapshots. -/
def onSnapshots (x : Act (Mounted SnapshotStore) α) : Act (Replica σ) α :=
  x.zoom (fun r => ⟨r.snapshots, r.volume⟩) fun r m =>
    { r with snapshots := m.store, volume := m.volume }

/-- An action on the log. -/
def onLog (x : Act (Mounted LogStore) α) : Act (Replica σ) α :=
  x.zoom (fun r => ⟨r.log, r.volume⟩) fun r m => { r with log := m.store, volume := m.volume }

/-- An action on the machine. -/
def onMachine (x : Act (Mounted σ) α) : Act (Replica σ) α :=
  x.zoom (fun r => ⟨r.machine, r.volume⟩) fun r m =>
    { r with machine := m.store, volume := m.volume }

/-- Changes what the node knows about its snapshots. -/
def tell (f : Snapshotter → Snapshotter) : Act (Replica σ) Unit :=
  modify fun r => { r with snapshotter := f r.snapshotter }

/-- What the node knows about its snapshots. -/
def theSnapshotter : Act (Replica σ) Snapshotter := do return (← get).snapshotter

/-! ### Compaction -/

/-- Changes the history. -/
def setHistory (f : MembershipHistory → Except Violation MembershipHistory) :
    Act (Replica σ) Unit := do
  match f (← get).history with
  | .ok history => modify fun r => { r with history }
  | .error v => Act.violate v

/-- Drops the log up to a snapshot and moves the floor of the history there.  A log that has an
entry of another term at that position is not to be trusted at all: it is emptied, and so is the
history above. -/
def compact (info : SnapshotMeta) : Act (Replica σ) Unit := do
  let id := info.lastIncluded
  match (← get).log.term id.index with
  | .error v => Act.violate v
  -- zero means that the log has no entry there: nothing speaks against what it holds above
  | .ok term =>
    if term = 0 ∨ term = id.term then onLog (LogStore.truncateBefore (id.index + 1))
    else
      -- the entries come from another leader than the snapshot
      onLog (LogStore.reset (id.index + 1))
      setHistory fun h => .ok (h.truncateAfter id.index)
    setHistory (·.setFloor info.membership)

end Replica
end RaftReplica
