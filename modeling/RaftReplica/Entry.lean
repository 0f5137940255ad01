/-
RaftReplica/Entry.lean

Entries of the replicated log.  An entry has an id, which is its term and its index, a kind, and what
the kind needs: data for the state machine, or the peers of the group from this entry on.

While a change of membership is under way an entry names two sets of peers, the new ones and the
former ones; `former` is none otherwise.  Nothing in the type keeps an entry with data from naming
peers: stores keep and give back whatever they are given.

* `EntryKind.tag` and `EntryKind.ofTag` are how a kind is stored, and `ofTag_tag` says that each one
  is read back; any other tag is damage.
* `Entry.ofData`, `Entry.noOp` and `Entry.ofPeers` are the entries that are made.
-/
import RaftReplica.Peer
import RaftReplica.Bytes.Basic

namespace RaftReplica

/-- What an entry is for. -/
inductive EntryKind
  | noOp
  | data
  | membership
  deriving DecidableEq, Repr, Inhabited

namespace EntryKind

/-- The tag of a kind in stored entries. -/
def tag : EntryKind → Nat
  | noOp => 1
  | data => 2
  | membership => 3

/-- The kind with a given tag. -/
def ofTag (tag : Nat) : Except Error EntryKind :=
  match tag with
  | 1 => .ok noOp
  | 2 => .ok data
  | 3 => .ok membership
  | _ => .error (.corrupted (.entryType tag))

/-- Every kind is read back from its tag. -/
@[simp] theorem ofTag_tag (k : EntryKind) : ofTag k.tag = .ok k := by cases k <;> rfl

/-- The name of a kind. -/
def name : EntryKind → String
  | noOp => "NoOp"
  | data => "Data"
  | membership => "Configuration"

end EntryKind

/-- An entry of the log; `former` is given while a change of membership is under way. -/
structure Entry where
  id : LogId
  kind : EntryKind
  data : Bytes
  peers : Option (List Peer)
  former : Option (List Peer)
  deriving DecidableEq, Repr, Inhabited

namespace Entry

/-- An entry that carries data. -/
def ofData (term index : Nat) (data : Bytes) : Entry := ⟨⟨term, index⟩, .data, data, none, none⟩

/-- The entry a fresh leader writes first. -/
def noOp (term index : Nat) : Entry := ⟨⟨term, index⟩, .noOp, [], none, none⟩

/-- An entry that changes the membership. -/
def ofPeers (term index : Nat) (peers : List Peer) (former : Option (List Peer)) : Entry :=
  ⟨⟨term, index⟩, .membership, [], some peers, former⟩

/-- The place of an entry in the log. -/
def index (e : Entry) : Nat := e.id.index

/-- The term in which an entry was written. -/
def term (e : Entry) : Nat := e.id.term

/-- The entry says who the peers are. -/
def isMembership (e : Entry) : Bool := e.kind == .membership

end Entry
end RaftReplica
