/-
RaftReplica/Membership/Basic.lean

Who belongs to a group as of a position in the log.  While a change of membership is under way the
former members still count, and `former` names them; a membership without former members is stable.

A membership carries the position of the entry it comes from, so the history can order memberships
and drop those of entries that were dropped.  The lists of peers in an entry may be in any order and
name a peer twice; as sets they are in their order, with one role for each peer
(`Membership.PeerSet`).
-/
import RaftReplica.Membership.PeerSet
import RaftReplica.Entry

namespace RaftReplica

/-- The members of a group from position `id` on. -/
structure Membership where
  id : LogId
  peers : PeerSet
  former : PeerSet
  deriving DecidableEq

namespace Membership

/-- Nobody belongs to the group before its first entry. -/
def initial : Membership := ⟨.zero, .empty, .empty⟩

instance : Inhabited Membership := ⟨initial⟩

/-- The index of the entry that a membership comes from. -/
def index (m : Membership) : Nat := m.id.index

/-- The membership that an entry of the log describes. -/
def ofEntry (e : Entry) : Membership :=
  ⟨e.id, .ofList (e.peers.getD []), .ofList (e.former.getD [])⟩

/-- No change is under way. -/
def isStable (m : Membership) : Bool := m.former.isEmpty

/-- The membership names nobody. -/
def isEmpty (m : Membership) : Bool := m.peers.isEmpty

/-- New and former members together. -/
def all (m : Membership) : PeerSet := m.peers.union m.former

/-- A peer is a member, new or former. -/
def contains (m : Membership) (p : Peer) : Bool := m.peers.contains p || m.former.contains p

end Membership
end RaftReplica
