/-
RaftReplica/Proofs/Readable.lean

What holds peers and is read back.  Peers are stored and sent as their text, and only addresses of
the fourth version are read from a text, while those of the sixth are written as well.  So a value is
read back exactly if all peers in it have addresses of the fourth version; otherwise its bytes are
damaged from the moment they are written.

A value that carries peers (`Json.Carries`) is followed through its JSON form field by field, and an
entry of the log through its body.  Both give an equation for the result of reading,

    read (write a)  =  if all peers of a are read then a else an error

from which either direction of the equivalence is read off.  The kinds of values are all that hold
peers: a ballot, the ballots of many groups, the table of a snapshot, a request to install one, and
an entry of the log.

For values in files the save has to succeed first, which the theorem takes as it is: whoever saved
such a value and got no error finds it again, or finds a damaged file, depending on its peers alone
(`LoadedIfRead`).
-/
import RaftReplica.Proofs.Log.Encoding
import RaftReplica.Proofs.Records

namespace RaftReplica

open Numeral Peer

/-! ### Votes and requests -/

/-- The peers that were voted for. -/
def Ballots.votedFor (all : Ballots) : List Peer := all.rows.map (·.2.votedFor)

/-- The peers in a request to install a snapshot. -/
def InstallRequest.members (r : InstallRequest) : List Peer := r.leader :: r.info.members

namespace Json

open JsonForm

/-- The ballots of many groups carry the peers that were voted for. -/
theorem carries_ballots {all : Ballots} (h : ∀ r ∈ all.rows, r.2.term ≤ max64) :
    Carries all all.votedFor := by
  rw [Ballots.votedFor, List.map_eq_flatMap]
  exact carries_table (g := fun b => [b.votedFor]) fun r hr => carries_ballot (h r hr)

/-- A request carries its leader and the members that it tells. -/
theorem carries_installRequest {r : InstallRequest} (hterm : r.term ≤ max64)
    (hlast : r.info.lastIncluded.term ≤ max64) (hindex : r.info.lastIncluded.index ≤ max64) :
    Carries r r.members := by
  have hgroup : Told r.group := ⟨.text _, rfl⟩
  have huri : Told r.uri := ⟨.text _, rfl⟩
  have hterm := told_nat hterm
  have hleader := carries_peer r.leader
  have hinfo := carries_snapshotMeta hlast hindex
  refine ⟨writable_ofFields ?_, ?_⟩
  · simp only [List.forall_mem_cons, List.not_mem_nil, false_implies, implies_true, and_true]
    exact ⟨hgroup.writable, hleader.writable, hterm.writable, hinfo.writable, huri.writable⟩
  · rw [ofJson?_ofFields [("group_id", toJson r.group), ("leader_id", toJson r.leader),
      ("term", toJson r.term), ("meta", toJson r.info), ("uri", toJson r.uri)] (by simp) rfl]
    simp only [List.map_cons, List.map_nil, Option.bind_some, bind, hgroup.read, hleader.read,
      hterm.read, hinfo.read, huri.read, ite_allRead_bind, pure, ite_allRead_append,
      InstallRequest.members, List.singleton_append]
    rfl

end Json

/-! ### Entries of the log -/

namespace Frame

variable {e : Entry} {bs : Bytes}

/-- **What is decoded from the frame of an entry**: the entry, unless one of its peers has an
address of the sixth version. -/
theorem decode_encode_eq (hterm : e.term ≤ max64) (h : encode e = .ok bs) :
    decode e.index bs = if AllRead e.members then .ok e else .error (.undecodable e.index) := by
  rw [encode] at h
  split at h
  · cases h
  -- the body fits into a frame, so the header tells its length and its checksum
  · next hfits =>
    obtain rfl := Except.ok.inj h
    have hlen := length_bytes (headerOf e (body e))
    have hheader := header?_bytes (h := headerOf e (body e)) hterm (Nat.le_of_not_lt hfits)
      (Nat.le_sub_one_of_lt (UInt32.toNat_lt _))
    have hlong : ¬ ((headerOf e (body e)).bytes ++ body e).length < headerSize := by
      rw [List.length_append]
      omega
    have hdecode : decode e.index ((headerOf e (body e)).bytes ++ body e) =
        entry? (headerOf e (body e)) e.index (body e) := by
      rw [decode, if_neg hlong, List.take_left' hlen, List.drop_left' hlen, hheader]
      rfl
    -- the header and the checksum are those of the body, so the peers in it decide
    rw [hdecode, entry?, headerOf, if_neg (by simp), fields?_body_eq (Nat.le_of_not_lt hfits)]
    by_cases hread : AllRead e.members
    · rw [if_pos hread, if_pos hread]
      rfl
    · rw [if_neg hread, if_neg hread]

end Frame

/-! ### Whatever is written -/

namespace Record

open Disk

variable {α : Type} [JsonForm α] {a : α} {ps : List Peer}

/-- After a save the value is loaded if all these peers have addresses that are read; otherwise the
record is damaged. -/
def LoadedIfRead (a : α) (ps : List Peer) : Prop :=
  ∀ {file : Path} {sync : Bool} {v v' : Volume}, v.disk.WellFormed →
    (save file a sync).runOn v = (.ok (), v') → (load (α := α) file).runOn v' =
      (if AllRead ps then .ok a else .error (.error (.corrupted (.badRecord file.text))), v')

/-- What is carried through the JSON form is carried through a file. -/
theorem loadedIfRead_of_carries (h : Json.Carries a ps) : LoadedIfRead a ps := by
  intro file sync v v' hw hsave
  have hreplaced := replaced_of_save hw file a sync
  rw [hsave] at hreplaced
  have hfits := (hreplaced.ok_iff.1 rfl).fits
  have hframe : frame (Json.encode a) = frame (Json.encode a) ++ [] := (List.append_nil _).symm
  -- the file has the bytes that were saved, so the value's form decides
  rw [runOn_load (hreplaced.saved rfl).1, parse, hframe, unframe?_frame_append hfits]
  dsimp only
  rw [h.decode?_encode]
  by_cases hread : AllRead ps
  · rw [if_pos hread, if_pos hread]
    rfl
  · rw [if_neg hread, if_neg hread]
    rfl

end Record

open Record

/-- **Whatever is written is read back** exactly if all peers in it have addresses of the fourth
version: a peer from its text, an entry from its frame, a ballot, the ballots of many groups and
the table of a snapshot from their records, and a request to install a snapshot from its message.
Otherwise it is written all the same, and reading it fails. -/
theorem read_back_iff (p : Peer) (e : Entry) (b : Ballot) (all : Ballots) (t : SnapshotTable)
    (r : InstallRequest) :
    Peer.parse p.text =
      (if p.ip.IsV4 then .ok p else .error (.invalidArgument (.badPeer p.text))) ∧
    (∀ bs : Bytes, e.term ≤ max64 → Frame.encode e = .ok bs → Frame.decode e.index bs =
      if AllRead e.members then .ok e else .error (.undecodable e.index)) ∧
    (b.term ≤ max64 → LoadedIfRead b [b.votedFor]) ∧
    ((∀ row ∈ all.rows, row.2.term ≤ max64) → LoadedIfRead all all.votedFor) ∧
    ((∀ info ∈ t.info, info.lastIncluded.term ≤ max64 ∧ info.lastIncluded.index ≤ max64) →
      LoadedIfRead t t.members) ∧
    (r.term ≤ max64 → r.info.lastIncluded.term ≤ max64 → r.info.lastIncluded.index ≤ max64 →
      Json.decode? (Json.encode r) = if AllRead r.members then some r else none) := by
  refine ⟨?_, fun bs hterm h => Frame.decode_encode_eq hterm h,
    fun hterm => loadedIfRead_of_carries (Json.carries_ballot hterm),
    fun hterms => loadedIfRead_of_carries (Json.carries_ballots hterms),
    fun hinfo => loadedIfRead_of_carries (Json.carries_snapshotTable hinfo),
    fun hterm hlast hindex => (Json.carries_installRequest hterm hlast hindex).decode?_encode⟩
  rw [Peer.parse, Peer.toList_text, ofChars?_chars_eq]
  by_cases h : p.ip.IsV4
  · rw [if_pos h, if_pos h]
  · rw [if_neg h, if_neg h]

/-- A vote and an entry that changes the members are read back, and so are values of the other
kinds. -/
theorem read_back_iff_first_vote :
    (∃ v', (save (Path.ofText "ballot") (Ballot.mk 2 .nobody) true).runOn (.ofDisk .empty) =
        (.ok (), v') ∧
      (load (Path.ofText "ballot")).runOn v' = (.ok (Ballot.mk 2 .nobody), v')) ∧
    (∃ bs, Frame.encode (.ofPeers 2 7 [.nobody] none) = .ok bs ∧
      Frame.decode 7 bs = .ok (.ofPeers 2 7 [.nobody] none)) ∧
    LoadedIfRead (Table.empty.insert "group" (Ballot.mk 2 .nobody)) [.nobody] ∧
    LoadedIfRead (SnapshotTable.mk (some ⟨⟨4, 3⟩, .empty, .empty⟩) .empty) [] ∧
    Json.decode?
        (Json.encode (InstallRequest.mk "group" .nobody 2 ⟨⟨4, 2⟩, .empty, .empty⟩ "uri")) =
      some (InstallRequest.mk "group" .nobody 2 ⟨⟨4, 2⟩, .empty, .empty⟩ "uri") := by
  obtain ⟨-, hentry, hvote, hvotes, htable, hrequest⟩ := read_back_iff .nobody
    (.ofPeers 2 7 [.nobody] none) (.mk 2 .nobody) (Table.empty.insert "group" (.mk 2 .nobody))
    (.mk (some ⟨⟨4, 3⟩, .empty, .empty⟩) .empty)
    (.mk "group" .nobody 2 ⟨⟨4, 2⟩, .empty, .empty⟩ "uri")
  refine ⟨?_, ?_, ?_, ?_, ?_⟩
  · rcases hrun : (save (Path.ofText "ballot") (Ballot.mk 2 .nobody) true).runOn
      (.ofDisk .empty) with ⟨r, v'⟩
    have hreplaced := replaced_of_save (v := .ofDisk .empty) Disk.wellFormed_empty
      (Path.ofText "ballot") (Ballot.mk 2 .nobody) true
    rw [hrun] at hreplaced
    obtain rfl : r = .ok () := hreplaced.ok_iff.2
      ⟨Ballot.length_encode_le ⟨by decide, trivial⟩, rfl, ⟨["ballot.tmp"], by decide, by decide⟩,
        by decide⟩
    exact ⟨v', rfl, hvote (by decide) Disk.wellFormed_empty hrun⟩
  · obtain ⟨bs, hbs⟩ : ∃ bs, Frame.encode (.ofPeers 2 7 [.nobody] none) = .ok bs :=
      ⟨_, by rw [Frame.encode, if_neg (by decide +kernel)]⟩
    exact ⟨bs, hbs, hentry bs (by decide) hbs⟩
  · exact hvotes (by decide)
  · exact htable (by decide)
  · exact hrequest (by decide) (by decide) (by decide)

/-- **The loopback address of the sixth version** is written, but neither the peer nor a vote for it
can be read. -/
theorem loopback_not_read_back :
    (Peer.mk (.v6 0 0 0 0 0 0 0 1) 80 0 .replica).text = "[::1]:80:0:0" ∧
    Peer.parse "[::1]:80:0:0" = .error (.invalidArgument (.badPeer "[::1]:80:0:0")) ∧
    Json.decode? (Json.encode (Ballot.mk 2 ⟨.v6 0 0 0 0 0 0 0 1, 80, 0, .replica⟩)) =
      (none : Option Ballot) :=
  ⟨by decide, by decide, (Json.carries_ballot (by decide)).decode?_encode⟩

end RaftReplica
