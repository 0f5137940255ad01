/-
RaftReplica/Replica/Snapshotter.lean

The snapshots of one node: which one is the latest, and what is going on.  At any time a node either
takes a snapshot, or downloads or loads one that its leader sent, or none of these.  What takes long
is a job, which goes on whether or not anyone waits for it.

The state is what has to be looked at and changed in one step; what a job carries from step to step
is in its stage (`JobStage`).  Jobs are kept in the order in which they began, and one that is over
stays, with its outcome, for whoever asks.

That at most one kind of work is going on is not built into the type: three fields could say
otherwise.  It is an invariant of the requests and the steps, shown in `Proofs.Replica.Exclusive`.
-/
import RaftReplica.Snapshot.Store

namespace RaftReplica

/-- A download of the leader's snapshot: its own number, the position that the leader told, and the
number of the copy. -/
structure Download where
  id : Nat
  lastIncluded : LogId
  copy : Nat
  deriving DecidableEq, Repr

/-- What a job ends with. -/
inductive JobResult
  | saved (id : LogId)
  | installed (r : InstallResponse)
  deriving DecidableEq, Repr

/-- How far a job is.  A save makes a writer, lets the machine write into it, publishes what came
out and records it; then it is no longer saving.  An install waits for its copy, lets the machine
load it, drops the log below it and records it; then it is no longer loading. -/
inductive JobStage
  | making (last : LogId)
  | saving (last : LogId) (w : SnapshotWriter)
  | publishing (w : SnapshotWriter) (id : LogId)
  | recordingSave (id : LogId)
  | endingSave (r : Except Error JobResult)
  | copying (d : Download)
  | opened (r : SnapshotReader)
  | loading (r : SnapshotReader) (info : SnapshotMeta)
  | compacting (r : SnapshotReader) (info : SnapshotMeta)
  | recordingInstall (r : SnapshotReader) (info : SnapshotMeta)
  | endingLoad (r : SnapshotReader) (result : Except Error JobResult)
  | endingDownload (d : Download) (result : Except Error JobResult)
  | over (r : Except Error JobResult)

/-- What a node knows about its snapshots.  `installing` is the number of the download that is being
installed, also while it is loaded, and zero when there is none; `downloads` is how many there were
so far. -/
structure Snapshotter where
  term : Nat := 0
  last : LogId := .zero
  saving : Bool := false
  loading : Bool := false
  stopped : Bool := false
  downloading : Option Download := none
  installing : Nat := 0
  downloads : Nat := 0
  jobs : List JobStage := []

instance : Inhabited Snapshotter := ⟨{}⟩

namespace Snapshotter

/-- A download was registered, and its load has not ended. -/
def isInstalling (s : Snapshotter) : Bool := s.installing ≠ 0

/-- Nothing is going on. -/
def isIdle (s : Snapshotter) : Bool := !s.saving && !s.loading && s.downloading.isNone

/-- The stage of a job. -/
def job (s : Snapshotter) (number : Nat) : JobStage :=
  s.jobs[number]?.getD (.over (.error (.interrupted .unfinished)))

/-- Sets the stage of a job. -/
def setJob (number : Nat) (stage : JobStage) (s : Snapshotter) : Snapshotter :=
  { s with jobs := s.jobs.set number stage }

/-- The outcome of a job that is over. -/
def outcome? (s : Snapshotter) (number : Nat) : Option (Except Error JobResult) :=
  match s.job number with
  | .over r => some r
  | _ => none

end Snapshotter
end RaftReplica
