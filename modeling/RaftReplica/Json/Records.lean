/-
RaftReplica/Json/Records.lean

The JSON forms of what is stored and sent.  Peers go as their text; a set of peers that is read back
is built by inserting one peer after the other, so what is stored in another order, or twice, is
still a set in its order.

The names of the fields are those of the files and messages.  They are written out once for each
direction of an instance, in the same order, and the two are compared by the lemma for structures in
`Proofs.Json.Records`, which is used once for each type.

A text that is no peer spoils the value it stands in, as does a role or a kind of entry that is not
known; a peer with an address of the sixth version is written but cannot be read back.
-/
import RaftReplica.Json.Form
import RaftReplica.Ballot.Basic
import RaftReplica.Snapshot.Meta

namespace RaftReplica

open Json JsonForm

instance : JsonForm Role :=
  ⟨fun r => .text r.name, fun j => do
    match ← choice? j with
    | "Replica" => return .replica
    | "Witness" => return .witness
    | _ => none⟩

instance : JsonForm EntryKind :=
  ⟨fun k => .text k.name, fun j => do
    match ← choice? j with
    | "NoOp" => return .noOp
    | "Data" => return .data
    | "Configuration" => return .membership
    | _ => none⟩

instance : JsonForm Peer :=
  ⟨fun p => .text p.text, fun j => do (← Json.text? j).toList |> Peer.ofChars?⟩

instance : JsonForm NodeId :=
  ⟨fun n => ofFields [("group_id", toJson n.group), ("peer_id", toJson n.peer)], fun j => do
    let [group, peer] ← fields? ["group_id", "peer_id"] j | none
    return ⟨← ofJson? group, ← ofJson? peer⟩⟩

instance : JsonForm LogId :=
  ⟨fun id => ofFields [("index", toJson id.index), ("term", toJson id.term)], fun j => do
    let [index, term] ← fields? ["index", "term"] j | none
    return { index := ← ofJson? index, term := ← ofJson? term }⟩

instance : JsonForm PeerSet :=
  ⟨fun s => ofFields [("peers", toJson s.peers)], fun j => do
    let [peers] ← fields? ["peers"] j | none
    return .ofListOneByOne (← ofJson? peers)⟩

instance : JsonForm Membership :=
  ⟨fun m => ofFields
      [("id", toJson m.id), ("conf", toJson m.peers), ("old_conf", toJson m.former)], fun j => do
    let [id, peers, former] ← fields? ["id", "conf", "old_conf"] j | none
    return ⟨← ofJson? id, ← ofJson? peers, ← ofJson? former⟩⟩

instance : JsonForm Entry :=
  ⟨fun e => ofFields
      [("id", toJson e.id), ("entry_type", toJson e.kind), ("data", toJson e.data),
        ("peers", toJson e.peers), ("old_peers", toJson e.former)], fun j => do
    let [id, kind, data, peers, former] ←
      fields? ["id", "entry_type", "data", "peers", "old_peers"] j | none
    return ⟨← ofJson? id, ← ofJson? kind, ← ofJson? data, ← ofJson? peers, ← ofJson? former⟩⟩

instance : JsonForm SnapshotMeta :=
  ⟨fun m => ofFields
      [("last_included", toJson m.lastIncluded), ("configuration", toJson m.peers),
        ("old_configuration", toJson m.former)], fun j => do
    let [last, peers, former] ←
      fields? ["last_included", "configuration", "old_configuration"] j | none
    return ⟨← ofJson? last, ← ofJson? peers, ← ofJson? former⟩⟩

instance : JsonForm FileMeta :=
  ⟨fun m => ofFields [("checksum", toJson m.checksum)], fun j => do
    let [checksum] ← fields? ["checksum"] j | none
    return ⟨← ofJson? checksum⟩⟩

instance : JsonForm SnapshotTable :=
  ⟨fun t => ofFields [("meta", toJson t.info), ("files", toJson t.files)], fun j => do
    let [info, files] ← fields? ["meta", "files"] j | none
    return ⟨← ofJson? info, ← ofJson? files⟩⟩

instance : JsonForm InstallRequest :=
  ⟨fun r => ofFields
      [("group_id", toJson r.group), ("leader_id", toJson r.leader), ("term", toJson r.term),
        ("meta", toJson r.info), ("uri", toJson r.uri)], fun j => do
    let [group, leader, term, info, uri] ←
      fields? ["group_id", "leader_id", "term", "meta", "uri"] j | none
    return ⟨← ofJson? group, ← ofJson? leader, ← ofJson? term, ← ofJson? info, ← ofJson? uri⟩⟩

instance : JsonForm InstallResponse :=
  ⟨fun r => ofFields [("term", toJson r.term), ("success", toJson r.success)], fun j => do
    let [term, success] ← fields? ["term", "success"] j | none
    return ⟨← ofJson? term, ← ofJson? success⟩⟩

instance : JsonForm Ballot :=
  ⟨fun b => ofFields [("term", toJson b.term), ("voted_for", toJson b.votedFor)], fun j => do
    let [term, votedFor] ← fields? ["term", "voted_for"] j | none
    return ⟨← ofJson? term, ← ofJson? votedFor⟩⟩

end RaftReplica
