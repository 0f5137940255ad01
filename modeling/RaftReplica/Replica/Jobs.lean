/-
RaftReplica/Replica/Jobs.lean

How jobs go on.  Each step of a job happens as a whole; between two steps anything else may happen at
the node.  A job that fails, or that breaks an assertion, still goes through its last step, so it
never leaves the node saving or loading.

The stages are cut where another request could come in between: making a writer, letting the machine
write, publishing, recording the result, and ending are steps of their own.  So a stage has to carry
all that the later ones need, and must not trust what the node knew when the job began.

A download is registered by its own number, and whoever takes another one up replaces the
registration.  A job compares the number before it acts on what its copy brought (`afterCopy`) and
before it takes the registration back (`endDownload`): a job that was superseded ends without
touching what belongs to its successor.

* `advance` is one step, by the stage; `stepJob` does it and stores the new stage.
* `tried` and `orElse` turn failures and broken assertions into a stage to go on with.
-/
import RaftReplica.Replica.Requests

namespace RaftReplica.Replica

variable {σ α : Type}

/-- The outcome of a part of a job; a broken assertion ends the job with an error. -/
def tried (x : Act (Replica σ) α) : Act (Replica σ) (Except Error α) := do
  match ← x.attempt with
  | .ok a => return .ok a
  | .error (.error e) => return .error e
  | .error (.violation _) => return .error (.interrupted .unfinished)

/-! ### Taking a snapshot -/

/-- Lets the machine write its state. -/
def letSave (m : StateMachine σ) (w : SnapshotWriter) :
    Act (Replica σ) (Except Failure LogId × SnapshotWriter) := Act.ofStep fun r =>
  let (result, s) := m.save.runOn ⟨(r.machine, w), r.volume⟩
  (.ok (result, s.store.2), { r with machine := s.store.1, volume := s.volume })

/-- What follows when the machine has written its state, or failed to: a state that does not reach
beyond the latest snapshot is of no use. -/
def afterSave (last : LogId) (w : SnapshotWriter) :
    Except Failure LogId → Act (Replica σ) JobStage
  | .ok id => do
    -- the machine may have saved what was known before the job began
    if last.index < id.index then return .publishing w id
    onSnapshots (SnapshotStore.abandon w)
    return .endingSave (.ok (.saved last))
  | .error (.error e) => do
    onSnapshots (SnapshotStore.abandon w)
    return .endingSave (.error e)
  -- nobody gives the writer up here: its directory goes at the next start
  | .error (.violation _) => return .endingSave (.error (.interrupted .unfinished))

/-- Publishes the snapshot and drops the log up to it.  The members are those as of the position
that it reaches to. -/
def publish (w : SnapshotWriter) (id : LogId) : Act (Replica σ) Unit := do
  -- the history as it is now: it may have grown while the machine was writing
  let info := SnapshotMeta.ofMembership id ((← get).history.get id.index)
  let _ ← onSnapshots (SnapshotStore.commit (w.setInfo info))
  compact info

/-! ### Installing the leader's snapshot -/

/-- What follows when the copy of a download is over.  If the download is no longer the registered
one, another took its place or it was interrupted, and the copy is not even looked at. -/
def afterCopy (d : Download) (joined : Except Error SnapshotReader) :
    Act (Replica σ) JobStage := do
  let s ← theSnapshotter
  if (s.downloading.map Download.id) ≠ some d.id then
    -- the store may have published the copy, but this node does not load it
    match joined with
    | .ok r => onSnapshots (SnapshotStore.closeReader r)
    | .error _ => pure ()
    return .over (.error (.interrupted (.superseded d.lastIncluded)))
  match joined with
  | .ok r =>
    tell fun s => { s with downloading := none, loading := true }
    return .opened r
  | .error e => return .endingDownload d (.error e)

/-- Takes the registration of a download back, if it is still the registered one. -/
def endDownload (d : Download) : Act (Replica σ) Unit := do
  let s ← theSnapshotter
  if (s.downloading.map Download.id) = some d.id then
    modify fun r => { r with snapshots := r.snapshots.cancelCopy d.copy }
    tell fun s => { s with downloading := none, installing := 0 }

/-! ### Steps -/

/-- The next stage if `x` succeeds, or else the one that `failed` gives. -/
def orElse (x : Act (Replica σ) JobStage) (failed : Error → JobStage) :
    Act (Replica σ) JobStage := do
  match ← tried x with
  | .ok stage => return stage
  | .error e => return failed e

/-- One step of a job, from a stage to the next one. -/
def advance (m : StateMachine σ) : JobStage → Act (Replica σ) JobStage
  | .making last =>
    orElse (do return .saving last (← onSnapshots SnapshotStore.create)) fun e =>
      .endingSave (.error e)
  | .saving last w => do
    let (result, w) ← letSave m w
    afterSave last w result
  | .publishing w id =>
    orElse (do publish w id; return .recordingSave id) fun e => .endingSave (.error e)
  | .recordingSave id => do
    tell fun s => { s with last := id }
    return .endingSave (.ok (.saved id))
  -- reached from every stage of a save, whatever happened
  | .endingSave r => do
    tell fun s => { s with saving := false }
    return .over r
  | .copying d => do
    afterCopy d (← tried (onSnapshots (SnapshotStore.joinCopy d.copy)))
  | .opened r =>
    orElse (do return .loading r (← Act.ofExcept r.info)) fun e => .endingLoad r (.error e)
  | .loading r info =>
    orElse (do onMachine (m.load r); return .compacting r info) fun e => .endingLoad r (.error e)
  | .compacting r info =>
    orElse (do compact info; return .recordingInstall r info) fun e => .endingLoad r (.error e)
  | .recordingInstall r info => do
    tell fun s => { s with last := info.lastIncluded }
    return .endingLoad r (.ok (.installed ⟨(← theSnapshotter).term, true⟩))
  | .endingLoad r result => do
    onSnapshots (SnapshotStore.closeReader r)
    tell fun s => { s with loading := false, installing := 0 }
    return .over result
  | .endingDownload d result => do
    endDownload d
    return .over result
  | .over r => return .over r

/-- One step of the job with a given number. -/
def stepJob (m : StateMachine σ) (number : Nat) : Act (Replica σ) Unit := do
  let stage ← advance m ((← theSnapshotter).job number)
  tell (Snapshotter.setJob number stage)

end RaftReplica.Replica
