/-
RaftReplica/Storages.lean

All that one member of a group keeps: its log, its ballot, its snapshots and the history of the
membership, which is rebuilt from the log.  The settings name the stores by uris; what a uri does not
tell about its store the settings do.

The stores are opened one after the other, the log first, since it tells the history what
memberships it holds.  If one of them cannot be opened the whole opening fails, and what the earlier
ones did on the disk stays done: making a directory and removing leftovers can be repeated, so
nothing has to be undone.

* `Storages.logUri`, `Storages.ballotUri` and `Storages.snapshotUri` add the defaults to the uris.
* `Storages.openAll` opens all that the settings name; without a uri there are no snapshots.
* `Options.load` reads the settings from a file.
-/
import RaftReplica.Backends
import RaftReplica.Options
import RaftReplica.Snapshot.Throttle

namespace RaftReplica

/-- Settings in a file. -/
def Options.load (file : Path) : Act Volume Options := do
  let bs ← Volume.look (·.read file)
  match Bytes.text? bs with
  | some s => Act.ofExcept (Options.parse s)
  | none => Act.fail (.io .notText)

/-- The opened stores of one member of a group. -/
structure Storages where
  group : String
  log : LogStore
  ballots : BallotStore
  snapshots : Option SnapshotStore
  history : MembershipHistory

namespace Storages

/-- The uri of the log, with what the settings add to it. -/
def logUri (o : Options) : Except Error String := do
  let uri ← StorageUri.withDefault o.logUri "sync" (boolWord o.syncLog)
  StorageUri.withDefault uri "max_segment_size" (Numeral.text o.maxSegmentSize)

/-- The uri of the ballots, with what the settings add to it. -/
def ballotUri (o : Options) : Except Error String :=
  StorageUri.withDefault o.ballotUri "sync" (boolWord o.syncMeta)

/-- The uri of the snapshots; a blank one means that there are none. -/
def snapshotUri (o : Options) : Except Error (Option String) := do
  if (Text.trim o.snapshotUri.toList).isEmpty then return none
  return some (← StorageUri.withDefault o.snapshotUri "sync" (boolWord o.syncMeta))

/-- An action on a store of its own. -/
def opening {σ α : Type} (store : σ) (x : Act (Mounted σ) α) : Act Volume (α × σ) :=
  Act.ofStep fun v =>
    match x.runOn ⟨store, v⟩ with
    | (.ok a, m) => (.ok (a, m.store), m.volume)
    | (.error e, m) => (.error e, m.volume)

/-- Opens every store that the settings name; `throttle` is the number of the throttle that copies
of snapshots ask. -/
def openAll (o : Options) (b : Backends) (group : String) (throttle : Option Nat) :
    Act Volume Storages := do
  -- a store that was opened stays as it is if a later one cannot be
  let log ← Act.ofExcept (do b.makeLog (← logUri o))
  let (log, history) ← opening MembershipHistory.empty log.init
  let ballots ← Act.ofExcept (do b.makeBallots (← ballotUri o))
  let ((), ballots) ← opening ballots BallotStore.init
  match ← Act.ofExcept (snapshotUri o) with
  | none => return { group, log, ballots, snapshots := none, history }
  | some uri =>
    let store ← Act.ofExcept (b.makeSnapshots uri)
    -- the throttle is the process's own and no uri names it
    let ((), store) ← opening { store with throttle } SnapshotStore.init
    return { group, log, ballots, snapshots := some store, history }

/-- How the stores are shown in descriptions. -/
def describe (s : Storages) : String :=
  "RaftStorages \x7b group: " ++ Text.quoted s.group ++ ", first_log_index: " ++
    Numeral.text s.log.first ++ ", last_log_index: " ++ Numeral.text s.log.last ++
    ", snapshot: " ++ boolWord s.snapshots.isSome ++ " \x7d"

end Storages
end RaftReplica
