/-
RaftReplica/Replica/Machine.lean

State machines, as far as snapshots are concerned.  A machine writes its state into the directory of
a snapshot and tells up to which position that state reaches, and it takes the state of a snapshot
in the place of its own.

Nothing is assumed of a machine here.  Its actions get the volume, so it may write any files, fail
half way, or break an assertion; what is shown of a node for every machine holds of such ones
too.  Where a result needs a machine that behaves, say one that touches nothing but its own
directory, it says so as a hypothesis.

`Simulation.Machine` is a machine that can be told how to behave.
-/
import RaftReplica.Snapshot.Store

namespace RaftReplica

/-- What the replicated machine with states `σ` can do. -/
structure StateMachine (σ : Type) where
  /-- The position of the last entry that was applied. -/
  applied : σ → LogId
  /-- Writes the state into a snapshot in the making and tells the position it reaches to. -/
  save : Act (Mounted (σ × SnapshotWriter)) LogId
  /-- Takes the state of a snapshot. -/
  load : SnapshotReader → Act (Mounted σ) Unit

end RaftReplica
