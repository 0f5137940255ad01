/-
RaftReplica/Replica/Requests.lean

What a node is asked to do about its snapshots.  A request is refused, or done at once because there
is nothing to do, or it starts a job (`Begun`).

A request is one step.  What it checks still holds when its job is registered, and the flags that it
sets keep others out until the job ends: while a snapshot is taken none is installed, while one is
downloaded or loaded none is taken.  A download may be replaced by a newer one, a load may not.

* `init` loads the latest snapshot when a node starts; here nothing else can be going on yet.
* `requestSnapshot` and `requestInstall` begin the two kinds of work.
* `interrupt` and `shutdown` give a download up, but let a load finish.
-/
import RaftReplica.Replica.Basic

namespace RaftReplica.Replica

variable {σ : Type}

/-- How a request begins: it is done already, or a job goes on with it. -/
inductive Begun (α : Type)
  | done (a : α)
  | job (number : Nat)
  deriving DecidableEq, Repr

/-- Starts a job. -/
def spawn (stage : JobStage) : Act (Replica σ) Nat := do
  let s ← theSnapshotter
  tell fun s => { s with jobs := s.jobs ++ [stage] }
  return s.jobs.length

/-! ### Starting -/

/-- What a node does with a snapshot that was opened: the machine loads it, the log is dropped up to
it, and it is the latest one. -/
def adopt (m : StateMachine σ) (r : SnapshotReader) : Act (Replica σ) Unit := do
  let info ← Act.ofExcept r.info
  onMachine (m.load r)
  compact info
  tell fun s => { s with last := info.lastIncluded }

/-- Loads the latest snapshot, if there is one.  The store has to be open. -/
def init (m : StateMachine σ) : Act (Replica σ) Unit := do
  match ← onSnapshots SnapshotStore.openLatest with
  | none => pure ()
  | some r =>
    let result ← (adopt m r).attempt
    -- closed on both ways, so a failed start holds nothing
    onSnapshots (SnapshotStore.closeReader r)
    match result with
    | .ok () => pure ()
    | .error e => throw e

/-! ### Taking a snapshot -/

/-- Starts to take a snapshot.  If nothing was applied since the latest one, that one will do. -/
def requestSnapshot (m : StateMachine σ) : Act (Replica σ) (Begun LogId) := do
  let s ← theSnapshotter
  if s.stopped then Act.fail .stopped
  if s.saving then Act.fail (.busy .saving)
  if s.downloading.isSome || s.loading then Act.fail (.busy .installing)
  if (m.applied (← get).machine).index ≤ s.last.index then return .done s.last
  tell fun s => { s with saving := true }
  return .job (← spawn (.making s.last))

/-! ### Installing the leader's snapshot -/

/-- Gives up the download in progress; a snapshot that is being loaded already is left alone. -/
def cancelDownload : Act (Replica σ) Unit := do
  let s ← theSnapshotter
  if s.loading then return
  match s.downloading with
  | none => pure ()
  | some d =>
    modify fun r => { r with snapshots := r.snapshots.cancelCopy d.copy }
    tell fun s => { s with downloading := none, installing := 0 }

/-- A request with a newer term makes the node follow that term. -/
def followTerm (term : Nat) : Act (Replica σ) Unit := do
  -- a download that was asked for under an older term is of no use any more
  if (← theSnapshotter).term < term then
    tell fun s => { s with term }
    cancelDownload

/-- Refuses to install while something else is going on; a download of an older snapshot does not
count. -/
def checkFree (asked : LogId) (s : Snapshotter) : Except Error Unit :=
  if s.saving then .error (.busy .saving)
  else if s.loading then .error (.busy .loading)
  else
    match s.downloading with
    | some d =>
      if asked.index < d.lastIncluded.index then .error (.busy (.olderThan d.lastIncluded asked))
      else .ok ()
    | none => .ok ()

/-- Registers a download. -/
def startDownload (request : InstallRequest) : Act (Replica σ) Download := do
  let copy ← onSnapshots (SnapshotStore.startCopy request.uri)
  -- numbers start at one, so zero can mean that there is none
  let id := (← theSnapshotter).downloads + 1
  let d : Download := { id, lastIncluded := request.info.lastIncluded, copy }
  tell fun s => { s with downloads := id, downloading := some d, installing := id }
  return d

/-- Starts to install the snapshot that a leader tells about.  If it is not newer than the latest
one there is nothing to do. -/
def requestInstall (request : InstallRequest) : Act (Replica σ) (Begun InstallResponse) := do
  let asked := request.info.lastIncluded
  let s ← theSnapshotter
  if s.stopped then Act.fail .stopped
  if request.term < s.term then Act.fail (.termMismatch request.term s.term)
  followTerm request.term
  -- looked at again, since following the term may have ended a download
  let s ← theSnapshotter
  if asked.index ≤ s.last.index then return .done ⟨s.term, true⟩
  Act.ofExcept (checkFree asked s)
  -- the leader tries again, or has a newer snapshot: the download so far is of no use
  cancelDownload
  let d ← startDownload request
  return .job (← spawn (.copying d))

/-! ### Interrupting -/

/-- The node sees a term, and a download in progress is given up. -/
def interrupt (term : Nat) : Act (Replica σ) Unit := do
  tell fun s => { s with term := max s.term term }
  cancelDownload

/-- Gives up a download in progress; later requests are refused. -/
def shutdown : Act (Replica σ) Unit := do
  tell fun s => { s with stopped := true }
  cancelDownload

end RaftReplica.Replica
