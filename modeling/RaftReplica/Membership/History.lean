/-
RaftReplica/Membership/History.lean

The history of a group's membership, as far as the log still reaches back.  It answers who the
members are as of any index: those of the last entry that is not after the index or, below every
entry, those of the snapshot that the log was compacted to.

The history follows the log.  It grows when an entry of membership is appended or found on disk, and
it is cut at either end when the log is cut there.  What is forgotten at the front must not change
the answer for any index that the log still has, so the last of the forgotten memberships may have
to stay; `truncateBefore` says when.

The floor is the membership of a snapshot and never an entry.  Once it is set, whatever is not above
it is forgotten, and it only ever moves up.

* `MembershipHistory.get` is the answer, `MembershipHistory.last` the newest one.
* `MembershipHistory.add` refuses a membership that is not above the last stored one; where nothing
  is stored it does not look at the floor.
* `MembershipHistory.setFloor` breaks an assertion if the floor would move back.
-/
import RaftReplica.Membership.Basic

namespace RaftReplica

/-- Memberships in the order of their positions, above the floor that a snapshot set. -/
structure MembershipHistory where
  entries : List Membership
  floor : Membership
  deriving DecidableEq, Inhabited

namespace MembershipHistory

/-- Nothing is known yet. -/
def empty : MembershipHistory := ⟨[], .initial⟩

/-- The newest membership. -/
def last (h : MembershipHistory) : Membership := h.entries.getLast?.getD h.floor

/-- The members as of `index`. -/
def get (h : MembershipHistory) (index : Nat) : Membership :=
  (h.entries.reverse.find? (·.index ≤ index)).getD h.floor

/-- How many memberships are stored above the floor. -/
def size (h : MembershipHistory) : Nat := h.entries.length

/-- Only the floor is known. -/
def isEmpty (h : MembershipHistory) : Bool := h.entries.isEmpty

/-- Adds a membership, which has to come after the last one that is stored. -/
def add (h : MembershipHistory) (m : Membership) : Except Error MembershipHistory :=
  match h.entries.getLast? with
  | some l =>
    -- the term takes no part: another entry at this index is stale too
    if m.index ≤ l.index then .error (.staleInsert m.id l.id)
    else .ok { h with entries := h.entries ++ [m] }
  | none => .ok { h with entries := h.entries ++ [m] }

/-- Forgets the memberships below `first`.  The last of them stays if nothing else tells who the
members are at `first`: nothing is stored exactly there, and the floor is below it. -/
def truncateBefore (h : MembershipHistory) (first : Nat) : MembershipHistory :=
  let dropped := h.entries.takeWhile (·.index < first)
  let kept := h.entries.dropWhile (·.index < first)
  match dropped.getLast? with
  | none => h
  | some governing =>
    -- an entry right at `first` tells the members there, and so does a floor that is not below
    let covered := kept.head?.any (·.index == first)
    if !covered && h.floor.index < governing.index then { h with entries := governing :: kept }
    else { h with entries := kept }

/-- Forgets the memberships above `last`. -/
def truncateAfter (h : MembershipHistory) (last : Nat) : MembershipHistory :=
  { h with entries := (h.entries.reverse.dropWhile (last < ·.index)).reverse }

/-- Moves the floor up to `m` and forgets what is not above it; the floor never moves back. -/
def setFloor (h : MembershipHistory) (m : Membership) : Except Violation MembershipHistory :=
  if m.id < h.floor.id then .error (.floorMovedBack m.id h.floor.id)
  else .ok ⟨h.entries.dropWhile (·.index ≤ m.index), m⟩

end MembershipHistory
end RaftReplica
