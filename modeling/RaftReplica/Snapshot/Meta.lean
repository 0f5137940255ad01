/-
RaftReplica/Snapshot/Meta.lean

What a snapshot tells about itself: the last position it covers, the membership as of that position,
and the files it consists of.  Also the messages by which a leader asks a follower to install one.

The meta is what makes the log below a snapshot dispensable: it says where the log may start again
and who the members are until the log says otherwise.  It is set when a snapshot is published and
none before, so the table of a writer has room for its absence.

* `SnapshotMeta.ofMembership` and `SnapshotMeta.membership` lead from the history to a snapshot and
  back to its floor.
* `FileMeta` may be without a checksum; such a file is copied as it is.
* `InstallRequest` names the snapshot by a uri and tells its meta beforehand, so a follower can
  refuse without looking.
-/
import RaftReplica.Membership.Basic
import RaftReplica.Table

namespace RaftReplica

/-- The position a snapshot reaches to, and the members as of there. -/
structure SnapshotMeta where
  lastIncluded : LogId
  peers : PeerSet
  former : PeerSet
  deriving DecidableEq

namespace SnapshotMeta

/-- The meta of a snapshot that reaches to `id`, where `m` tells the members. -/
def ofMembership (id : LogId) (m : Membership) : SnapshotMeta := ⟨id, m.peers, m.former⟩

/-- The membership that the snapshot sets as the floor of the history. -/
def membership (m : SnapshotMeta) : Membership := ⟨m.lastIncluded, m.peers, m.former⟩

instance : Inhabited SnapshotMeta := ⟨⟨.zero, .empty, .empty⟩⟩

end SnapshotMeta

/-- What a snapshot remembers about one of its files. -/
structure FileMeta where
  checksum : Option UInt32
  deriving DecidableEq, Repr, Inhabited

/-- The table of contents of a snapshot. -/
structure SnapshotTable where
  info : Option SnapshotMeta
  files : Table String FileMeta
  deriving DecidableEq, Inhabited

/-- Nothing is written yet. -/
def SnapshotTable.empty : SnapshotTable := ⟨none, .empty⟩

/-! ### Messages -/

/-- A leader asks a follower to install the snapshot found at `uri`. -/
structure InstallRequest where
  group : String
  leader : Peer
  term : Nat
  info : SnapshotMeta
  uri : String
  deriving DecidableEq

/-- The follower's answer. -/
structure InstallResponse where
  term : Nat
  success : Bool
  deriving DecidableEq, Repr, Inhabited

end RaftReplica
