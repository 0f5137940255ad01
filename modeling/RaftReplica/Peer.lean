/-
RaftReplica/Peer.lean

Participants of a group.  A peer is an address, a port and a number that tells apart the replicas
behind one address; the role is descriptive and takes no part in who the peer is.

Peers are ordered by one number, built so that the version of the address counts most, then the
address, the port, and the replica's number.  A number can be compared in one step and its order
needs no lemmas of its own; the digits of the key are the fields, each below the base it is
multiplied with.

The text of a peer is `address:port:index:role`, and index and role may be left out when it is
read.  It is cut at every colon, so the brackets around an address of the sixth version do not help:
such a peer has a text but is not read.

* `Peer.key` and `Peer.same` say who a peer is, without the role.
* `Peer.chars` writes all four fields, `Peer.ofFields?` says which of them may be missing.
* `NodeId` is a peer within a group, and groups are ordered by name.
-/
import RaftReplica.Address
import RaftReplica.Error
import RaftReplica.Text.Blank

namespace RaftReplica

/-- Whether a peer keeps a full copy of the log or only votes. -/
inductive Role
  | replica
  | witness
  deriving DecidableEq, Repr, Inhabited

namespace Role

/-- The digit that stands for a role in the text of a peer. -/
def digit : Role → Char
  | replica => '0'
  | witness => '1'

/-- The name of a role. -/
def name : Role → String
  | replica => "Replica"
  | witness => "Witness"

end Role

/-- A participant of a group. -/
structure Peer where
  ip : Ip
  port : UInt16
  idx : UInt32
  role : Role := .replica
  deriving DecidableEq, Repr, Inhabited

namespace Peer

/-- The peer that names no one. -/
def nobody : Peer := { ip := .unspecified, port := 0, idx := 0 }

/-- The place of a peer in the order of all peers; equal places mean the same peer. -/
def key (p : Peer) : Nat := (p.ip.number * UInt16.size + p.port.toNat) * UInt32.size + p.idx.toNat

/-- Two peers are the same participant. -/
def same (p q : Peer) : Bool := p.key == q.key

/-- No host, no port and no index are given. -/
def isNobody (p : Peer) : Bool := p.ip.isUnspecified && p.port == 0 && p.idx == 0

/-- The peer votes but keeps no log. -/
def isWitness (p : Peer) : Bool := p.role == .witness

/-! ### Text -/

/-- The text of a peer, with all four fields. -/
def chars (p : Peer) : List Char :=
  p.ip.withPort p.port ++ ':' :: Numeral.chars p.idx.toNat ++ [':', p.role.digit]

/-- A peer as a string. -/
def text (p : Peer) : String := String.ofList p.chars

/-- A port: a number of sixteen bits. -/
def port? (cs : List Char) : Option UInt16 := (Numeral.parse? (UInt16.size - 1) cs).map UInt16.ofNat

/-- An index: a number of thirty-two bits. -/
def idx? (cs : List Char) : Option UInt32 := (Numeral.parse? Numeral.max32 cs).map UInt32.ofNat

/-- A role: one of the two digits. -/
def role? : List Char → Option Role
  | ['0'] => some .replica
  | ['1'] => some .witness
  | _ => none

/-- Reads the fields of a peer; index and role may be left out. -/
def ofFields? : List (List Char) → Option Peer
  | [ip, port] => do return { ip := ← Ip.parse? ip, port := ← port? port, idx := 0 }
  | [ip, port, idx] => do
    return { ip := ← Ip.parse? ip, port := ← port? port, idx := ← idx? idx }
  | [ip, port, idx, role] => do
    return { ip := ← Ip.parse? ip, port := ← port? port, idx := ← idx? idx, role := ← role? role }
  | _ => none

/-- Reads a peer; blanks around it do not count. -/
def ofChars? (cs : List Char) : Option Peer := ofFields? (Text.split ':' (Text.trim cs))

/-- Reads a peer. -/
def parse (s : String) : Except Error Peer :=
  match ofChars? s.toList with
  | some p => .ok p
  | none => .error (.invalidArgument (.badPeer s))

/-- How a peer is shown in descriptions. -/
def describe (p : Peer) : String :=
  "PeerId \x7b addr: " ++ String.ofList (p.ip.withPort p.port) ++ ", idx: " ++
    Numeral.text p.idx.toNat ++ ", role: " ++ p.role.name ++ " \x7d"

end Peer

/-! ### Nodes -/

/-- A participant within a named group. -/
structure NodeId where
  group : String
  peer : Peer
  deriving DecidableEq, Repr, Inhabited

namespace NodeId

/-- Group names come first, then peers. -/
instance : LT NodeId :=
  ⟨fun a b => a.group < b.group ∨ a.group = b.group ∧ a.peer.key < b.peer.key⟩

instance (a b : NodeId) : Decidable (a < b) :=
  inferInstanceAs (Decidable (a.group < b.group ∨ a.group = b.group ∧ a.peer.key < b.peer.key))

/-- Two ids name the same node, whatever the roles. -/
def same (a b : NodeId) : Bool := a.group == b.group && a.peer.same b.peer

/-- The name of the group, then the peer. -/
def text (n : NodeId) : String := n.group ++ ":" ++ n.peer.text

/-- How a node's id is shown in descriptions. -/
def describe (n : NodeId) : String :=
  "NodeId \x7b group_id: " ++ Text.quoted n.group ++ ", peer_id: " ++ n.peer.describe ++ " \x7d"

end NodeId
end RaftReplica
