/-
RaftReplica/Proofs/Json/Proper.lean

What is read from JSON can be written again.  A value that is to be stored must have numbers of 64
bits and peers with addresses of the fourth version (`SnapshotMeta.Proper`), since others are not
read back from what is stored.  Whatever is read from the disk or from a message is such a value
already, so storing it again never loses it.

* Numbers: a reader of numbers gives up above 64 bits (`le_of_ofJson?`).
* Peers: the text of a peer is cut at its colons.  An address of the sixth version has colons of its
  own, so what is in front of the first colon is never such an address (`Peer.isV4_of_ofChars?`).
* Sets: the members of a set are read one by one and put in, and nothing gets into the set but what
  was read (`mem_of_mem_ofListOneByOne`).
* The meta of a snapshot and its table put these together (`SnapshotTable.proper_of_ofJson?`).

No fact here is about how a value is written; that a written value is read as the same one is
`Carries` in the module of records.
-/
import RaftReplica.Proofs.Json.Records

namespace RaftReplica

open Json JsonForm

variable {j : Json}

/-- What the elements of a list were read from. -/
theorem exists_mem_of_mapM {α β : Type} {f : α → Option β} {as : List α} {bs : List β} {b : β}
    (h : as.mapM f = some bs) (hb : b ∈ bs) : ∃ a ∈ as, f a = some b := by
  -- by induction on what is read; a list is read if its first part is, and then the rest of it DOC
  -- le_of_ofJson? A number that is read has 64 bits.
  induction as generalizing bs with
  | nil =>
    obtain rfl := Option.some.inj h
    exact absurd hb List.not_mem_nil
  | cons a as ih =>
    rw [List.mapM_cons] at h
    obtain ⟨c, hc, h⟩ := Option.bind_eq_some_iff.1 h
    obtain ⟨cs, hcs, h⟩ := Option.bind_eq_some_iff.1 h
    obtain rfl := Option.some.inj h
    rcases List.mem_cons.1 hb with rfl | hb
    · exact ⟨a, List.mem_cons_self, hc⟩
    · obtain ⟨a', ha', hread⟩ := ih hcs hb
      exact ⟨a', List.mem_cons_of_mem a ha', hread⟩

theorem le_of_ofJson? {n : Nat} (h : ofJson? j = some n) : n ≤ Numeral.max64 := by
  cases j with
  | nat m =>
    replace h : (if m ≤ Numeral.max64 then some m else none) = some n := h
    split at h
    · next hle => exact Option.some.inj h ▸ hle
    · nomatch h
  | _ => nomatch h

/-- Only addresses of the fourth version are read. -/
theorem Ip.isV4_of_parse? {cs : List Char} {ip : Ip} (h : Ip.parse? cs = some ip) : ip.IsV4 := by
  rw [Ip.parse?] at h
  split at h
  · obtain ⟨a, -, h⟩ := Option.bind_eq_some_iff.1 h
    obtain ⟨b, -, h⟩ := Option.bind_eq_some_iff.1 h
    obtain ⟨c, -, h⟩ := Option.bind_eq_some_iff.1 h
    obtain ⟨d, -, h⟩ := Option.bind_eq_some_iff.1 h
    obtain rfl := Option.some.inj h
    trivial
  · cases h

/-- The address of a peer that is read is of the fourth version, with any number of fields behind
it. -/
theorem Peer.isV4_of_ofChars? {cs : List Char} {p : Peer} (h : Peer.ofChars? cs = some p) :
    p.ip.IsV4 := by
  -- whatever fields there are, the first one is the address
  have hfields {fields : List (List Char)} (h : Peer.ofFields? fields = some p) : p.ip.IsV4 := by
    unfold Peer.ofFields? at h
    split at h
    · obtain ⟨ip, hip, h⟩ := Option.bind_eq_some_iff.1 h
      obtain ⟨port, -, h⟩ := Option.bind_eq_some_iff.1 h
      exact Option.some.inj h ▸ Ip.isV4_of_parse? hip
    · obtain ⟨ip, hip, h⟩ := Option.bind_eq_some_iff.1 h
      obtain ⟨port, -, h⟩ := Option.bind_eq_some_iff.1 h
      obtain ⟨idx, -, h⟩ := Option.bind_eq_some_iff.1 h
      exact Option.some.inj h ▸ Ip.isV4_of_parse? hip
    · obtain ⟨ip, hip, h⟩ := Option.bind_eq_some_iff.1 h
      obtain ⟨port, -, h⟩ := Option.bind_eq_some_iff.1 h
      obtain ⟨idx, -, h⟩ := Option.bind_eq_some_iff.1 h
      obtain ⟨role, -, h⟩ := Option.bind_eq_some_iff.1 h
      exact Option.some.inj h ▸ Ip.isV4_of_parse? hip
    · nomatch h
  exact hfields h

theorem Peer.isV4_of_ofJson? {p : Peer} (h : ofJson? j = some p) : p.ip.IsV4 := by
  obtain ⟨s, -, h⟩ := Option.bind_eq_some_iff.1 h
  exact Peer.isV4_of_ofChars? h

namespace PeerSet

/-- A set has no other peers than those that were inserted. -/
theorem mem_of_mem_ofListOneByOne {ps : List Peer} {r : Peer}
    (h : r ∈ (ofListOneByOne ps).peers) : r ∈ ps := by
  -- for any set to start from, since the set grows along the list
  have hfold : ∀ (ps : List Peer) (s : PeerSet),
      r ∈ (ps.foldl insert s).peers → r ∈ s.peers ∨ r ∈ ps := by
    intro ps
    induction ps with
    | nil => exact fun s hr => .inl hr
    | cons p ps ih =>
      intro s hr
      rcases ih _ hr with hr | hr
      · rcases mem_place (fun _ => .inl rfl) hr with rfl | hr
        · exact .inr List.mem_cons_self
        · exact .inl hr
      · exact .inr (List.mem_cons_of_mem _ hr)
  exact (hfold ps empty h).resolve_left (by simp [empty])

/-- All members of a set that is read have addresses of the fourth version. -/
theorem isV4_of_ofJson? {s : PeerSet} (h : ofJson? j = some s) : ∀ p ∈ s.peers, p.ip.IsV4 := by
  obtain ⟨fields, -, h⟩ := Option.bind_eq_some_iff.1 h
  split at h
  · next told =>
    obtain ⟨ps, hps, h⟩ := Option.bind_eq_some_iff.1 h
    obtain rfl := Option.some.inj h
    intro p hp
    -- nothing but a list is read as members
    cases told with
    | list items =>
      obtain ⟨item, -, hitem⟩ := exists_mem_of_mapM hps (mem_of_mem_ofListOneByOne hp)
      exact Peer.isV4_of_ofJson? hitem
    | _ => nomatch hps
  · nomatch h

end PeerSet

/-- An id that is read has a term and an index of 64 bits. -/
theorem LogId.le_of_ofJson? {id : LogId} (h : ofJson? j = some id) :
    id.term ≤ Numeral.max64 ∧ id.index ≤ Numeral.max64 := by
  obtain ⟨fields, -, h⟩ := Option.bind_eq_some_iff.1 h
  split at h
  · obtain ⟨i, hi, h⟩ := Option.bind_eq_some_iff.1 h
    obtain ⟨t, ht, h⟩ := Option.bind_eq_some_iff.1 h
    obtain rfl := Option.some.inj h
    exact ⟨RaftReplica.le_of_ofJson? ht, RaftReplica.le_of_ofJson? hi⟩
  · nomatch h

/-- The meta that is read can be stored. -/
theorem SnapshotMeta.proper_of_ofJson? {info : SnapshotMeta} (h : ofJson? j = some info) :
    info.Proper := by
  obtain ⟨fields, -, h⟩ := Option.bind_eq_some_iff.1 h
  split at h
  · obtain ⟨id, hid, h⟩ := Option.bind_eq_some_iff.1 h
    obtain ⟨peers, hpeers, h⟩ := Option.bind_eq_some_iff.1 h
    obtain ⟨former, hformer, h⟩ := Option.bind_eq_some_iff.1 h
    obtain rfl := Option.some.inj h
    obtain ⟨hterm, hindex⟩ := LogId.le_of_ofJson? hid
    exact ⟨hterm, hindex, PeerSet.isV4_of_ofJson? hpeers, PeerSet.isV4_of_ofJson? hformer⟩
  · nomatch h

/-- **The table of a snapshot** that was read can be written again. -/
theorem SnapshotTable.proper_of_ofJson? {t : SnapshotTable} (h : ofJson? j = some t) :
    ∀ info ∈ t.info, info.Proper := by
  obtain ⟨fields, -, h⟩ := Option.bind_eq_some_iff.1 h
  split at h
  · next told files =>
    obtain ⟨i, hi, h⟩ := Option.bind_eq_some_iff.1 h
    obtain ⟨_, -, h⟩ := Option.bind_eq_some_iff.1 h
    obtain rfl := Option.some.inj h
    intro info hinfo
    obtain rfl : i = some info := hinfo
    -- a table may tell null in place of a meta; this one does not, as it has one
    obtain ⟨m, hm, he⟩ : ∃ m, ofJson? told = some m ∧ some m = some info := by
      cases told with
      | null => exact nomatch Option.some.inj hi
      | _ => exact Option.map_eq_some_iff.1 hi
    exact SnapshotMeta.proper_of_ofJson? (Option.some.inj he ▸ hm)
  · nomatch h

end RaftReplica
