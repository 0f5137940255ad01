/-
RaftReplica/Proofs/Json/Records.lean

Values that are told by their JSON form (`Json.Told`): what is written for them can be written, and
it is read as the same value.  The form of a value that carries peers (`Json.Carries`) is read
exactly if the addresses of all of them are.  The table of a snapshot carries the peers of its
membership, whatever its files are called.

The two structures are closed under everything a record is made of, and each record is put together
from its parts by these rules:

* lists and tables carry what their members carry, one after another (`carries_list`,
  `carries_table`);
* a value that may be absent carries what it carries if it is there (`carries_some`), unless it is
  written as null, which would be read as absent;
* an object is read field by field, and each field is found under its name, because no name stands
  twice (`ofJson?_ofFields`).

Reading stops at the first part that is not read, so the whole is read exactly if every part is;
`ite_allRead_bind` and `ite_allRead_append` are this step.

Sets and tables are read by adding one member after the other.  What is stored is in ascending order,
so each member comes behind those that are there already.
-/
import RaftReplica.Json.Records
import RaftReplica.Proofs.Disk.Record
import RaftReplica.Proofs.Json.RoundTrip
import RaftReplica.Proofs.Peer

namespace RaftReplica

open Json

/-! ### Sets and tables one by one -/

namespace PeerSet

variable {keep : Peer → Peer → Peer} {p r : Peer} {ps qs : List Peer}

/-- A peer with the greatest key so far is placed at the end. -/
theorem place_append (h : ∀ q ∈ qs, q.key < p.key) : place keep p qs = qs ++ [p] := by
  induction qs with
  | nil => rfl
  | cons q qs ih =>
    have hq := h q List.mem_cons_self
    rw [place, if_neg (by omega), if_pos hq, ih fun q hq => h q (List.mem_cons_of_mem _ hq)]
    rfl

/-- Peers that come in ascending order end up in this order. -/
theorem peers_foldl_insert {s : PeerSet} (h : (s.peers ++ ps).Pairwise fun p q => p.key < q.key) :
    (ps.foldl insert s).peers = s.peers ++ ps := by
  induction ps generalizing s with
  | nil => rw [List.foldl_nil, List.append_nil]
  | cons p ps ih =>
    have hp : (s.insert p).peers = s.peers ++ [p] :=
      place_append fun q hq => (List.pairwise_append.1 h).2.2 q hq p List.mem_cons_self
    rw [List.foldl_cons, ih, hp, List.append_assoc, List.singleton_append]
    rw [hp, List.append_assoc]
    exact h

theorem ofListOneByOne_peers (s : PeerSet) : ofListOneByOne s.peers = s :=
  ext (peers_foldl_insert s.ascending)

/-- Whoever is in the list after a peer is placed was there before, or is that peer. -/
theorem mem_place (hkeep : ∀ q, keep q p = q ∨ keep q p = p) (h : r ∈ place keep p qs) :
    r = p ∨ r ∈ qs := by
  -- by induction on the list, split as the place is looked for: in front, at an equal key, or
  -- behind
  induction qs with
  | nil => exact .inl (List.mem_singleton.1 h)
  | cons q qs ih =>
    rw [place] at h
    split at h
    · exact List.mem_cons.1 h
    split at h
    · rcases List.mem_cons.1 h with rfl | h
      · exact .inr List.mem_cons_self
      · exact (ih h).imp_right (List.mem_cons_of_mem _)
    · rcases List.mem_cons.1 h with rfl | h
      · rcases hkeep q with hq | hq <;> simp [hq]
      · exact .inr (List.mem_cons_of_mem _ h)

/-- A set has no other peers than those of the list it is made of. -/
theorem mem_of_mem_ofList (h : r ∈ (ofList ps).peers) : r ∈ ps := by
  -- for any set to start from, since the set grows along the list
  have hfold : ∀ (ps : List Peer) (s : PeerSet), r ∈ (ps.foldl put s).peers → r ∈ s.peers ∨ r ∈ ps := by
    intro ps
    induction ps with
    | nil => exact fun s hr => .inl hr
    | cons p ps ih =>
      intro s hr
      rcases ih _ hr with hr | hr
      · rcases mem_place (fun _ => .inr rfl) hr with rfl | hr
        · exact .inr List.mem_cons_self
        · exact .inl hr
      · exact .inr (List.mem_cons_of_mem _ hr)
  exact (hfold ps empty h).resolve_left (by simp [empty])

end PeerSet

namespace Table

variable {κ ν : Type} [LT κ] [DecidableLT κ] {k : κ} {v : ν} {rows more : List (κ × ν)}

/-- A row with the greatest key so far is placed at the end. -/
theorem place_append (h : ∀ r ∈ rows, r.1 < k) : place k v rows = rows ++ [(k, v)] := by
  induction rows with
  | nil => rfl
  | cons r rows ih =>
    rw [place, if_pos (h r List.mem_cons_self), ih fun r hr => h r (List.mem_cons_of_mem _ hr)]
    rfl

/-- A table is built again from its rows. -/
theorem ofList_rows [KeyOrder κ] (t : Table κ ν) : ofList t.rows = t := by
  have hfold : ∀ (rows : List (κ × ν)) (s : Table κ ν),
      (s.rows ++ rows).Pairwise (fun a b => a.1 < b.1) →
      (rows.foldl (fun t r => t.insert r.1 r.2) s).rows = s.rows ++ rows := by
    -- by induction on the rows to come, each greater than all that are there
    intro rows
    induction rows with
    | nil => exact fun s _ => (List.append_nil _).symm
    | cons r rows ih =>
      intro s h
      have hr : (s.insert r.1 r.2).rows = s.rows ++ [r] :=
        place_append fun q hq => (List.pairwise_append.1 h).2.2 q hq r List.mem_cons_self
      rw [List.foldl_cons, ih, hr, List.append_assoc, List.singleton_append]
      rw [hr, List.append_assoc]
      exact h
  exact ext (hfold t.rows empty t.ascending)

end Table

/-! ### Told values -/

/-- The position is told by 64-bit numbers, and the peers have addresses that are read. -/
structure SnapshotMeta.Proper (m : SnapshotMeta) : Prop where
  term : m.lastIncluded.term ≤ Numeral.max64
  index : m.lastIncluded.index ≤ Numeral.max64
  peers : ∀ p ∈ m.peers.peers, p.ip.IsV4
  former : ∀ p ∈ m.former.peers, p.ip.IsV4

/-- The peers that a snapshot tells of, those of a change under way behind the others. -/
def SnapshotMeta.members (info : SnapshotMeta) : List Peer := info.peers.peers ++ info.former.peers

/-- The peers in the table of a snapshot. -/
def SnapshotTable.members (t : SnapshotTable) : List Peer := t.info.elim [] SnapshotMeta.members

namespace Json

open JsonForm Peer

/-- The JSON form of the value can be written, and it is read as the value. -/
structure Told {α : Type} [JsonForm α] (a : α) : Prop where
  writable : Writable (toJson a)
  read : ofJson? (toJson a) = some a

/-- The JSON form of the value can be written, and it is read as the value if all these peers have
addresses that are read, and as nothing otherwise. -/
structure Carries {α : Type} [JsonForm α] (a : α) (ps : List Peer) : Prop where
  writable : Writable (toJson a)
  read : ofJson? (toJson a) = if AllRead ps then some a else none

variable {α : Type} [JsonForm α] {a : α} {as : List α} {ps : List Peer}
  {g : α → List Peer} {fs : List (String × Json)}

theorem Told.carries (h : Told a) : Carries a [] := ⟨h.writable, by rw [if_pos allRead_nil, h.read]⟩

theorem Carries.told (h : Carries a ps) (hread : AllRead ps) : Told a :=
  ⟨h.writable, by rw [h.read, if_pos hread]⟩

/-- The bytes of a value that carries peers are read exactly if all of the peers are. -/
theorem Carries.decode?_encode (h : Carries a ps) :
    decode? (encode a) = if AllRead ps then some a else none := by
  rw [decode?, encode, read?_render h.writable]
  exact h.read

theorem Told.decode?_encode (h : Told a) : decode? (encode a) = some a := by
  rw [h.carries.decode?_encode, if_pos allRead_nil]

theorem told_nat {n : Nat} (h : n ≤ Numeral.max64) : Told n := ⟨.nat n, if_pos h⟩

/-- A word is told. -/
theorem told_uint32 (w : UInt32) : Told w := by
  refine ⟨.nat w.toNat, ?_⟩
  show (nat? Numeral.max32 (.nat w.toNat)).map UInt32.ofNat = some w
  have hmax : w.toNat ≤ Numeral.max32 := Nat.le_sub_one_of_lt w.toNat_lt
  rw [nat?, if_pos hmax, Option.map_some, UInt32.ofNat_toNat]

/-- A peer carries itself. -/
theorem carries_peer (p : Peer) : Carries p [p] := by
  refine ⟨.text p.text, ?_⟩
  simp only [ofJson?, toJson, text?, bind, Option.bind_some, Peer.toList_text, ofChars?_chars_eq,
    allRead_singleton]

/-- A list carries what is carried in it. -/
theorem carries_list (h : ∀ a ∈ as, Carries a (g a)) : Carries as (as.flatMap g) := by
  refine ⟨.list fun j hj => ?_, ?_⟩
  · obtain ⟨a, ha, rfl⟩ := List.mem_map.1 hj
    exact (h a ha).writable
  · show (as.map toJson).mapM ofJson? = _
    -- by induction: reading stops at the first peer that is not read
    induction as with
    | nil => rfl
    | cons a as ih =>
      rw [List.map_cons, List.mapM_cons, (h a List.mem_cons_self).read,
        ih fun a ha => h a (List.mem_cons_of_mem _ ha)]
      simp only [bind, ite_allRead_bind, pure, ite_allRead_append, List.flatMap_cons]

theorem carries_peers (ps : List Peer) : Carries ps ps := by
  have h := carries_list fun p (_ : p ∈ ps) => carries_peer p
  rwa [List.flatMap_singleton'] at h

theorem told_none : Told (none : Option α) := ⟨.null, rfl⟩

/-- What is not null is read as a value that is there. -/
theorem ofJson?_some {j : Json} (h : j ≠ .null) :
    (ofJson? j : Option (Option α)) = (ofJson? j).map some := by
  cases j with
  | null => exact absurd rfl h
  | _ => rfl

/-- A value that is there is told apart from none unless its form is null. -/
theorem carries_some (h : Carries a ps) (hnull : toJson a ≠ .null) : Carries (some a) ps := by
  refine ⟨h.writable, ?_⟩
  show ofJson? (toJson a) = _
  rw [ofJson?_some hnull, h.read]
  split <;> rfl

theorem told_some (h : Told a) (hnull : toJson a ≠ .null) : Told (some a) :=
  (carries_some h.carries hnull).told allRead_nil

/-! ### Structures -/

/-- An object can be written if its values can. -/
theorem writable_ofFields (h : ∀ f ∈ fs, Writable f.2) : Writable (ofFields fs) := by
  refine .object ?_ ?_ <;> intro f hf <;> obtain ⟨g, hg, rfl⟩ := List.mem_map.1 hf
  · rfl
  · exact h g hg

/-- No value is found under a name that no field has. -/
theorem valuesOf_of_notMem {k : String} (fs : List (String × Json)) (h : k ∉ fs.map Prod.fst) :
    valuesOf k (fs.map fun f => (some f.1, f.2)) = [] := by
  rw [valuesOf, List.filter_eq_nil_iff.2, List.map_nil]
  intro f hf hk
  obtain ⟨g, hg, rfl⟩ := List.mem_map.1 hf
  exact h (Option.some.inj (beq_iff_eq.1 hk) ▸ List.mem_map_of_mem hg)

/-- The value of a field is found under its name, since no other field has the name. -/
theorem field?_of_mem {f : String × Json} (h : (fs.map Prod.fst).Nodup) (hf : f ∈ fs) :
    field? f.1 (fs.map fun f => (some f.1, f.2)) = some f.2 := by
  obtain ⟨before, after, rfl⟩ := List.append_of_mem hf
  rw [List.map_append, List.map_cons, List.nodup_append, List.nodup_cons] at h
  obtain ⟨-, ⟨hafter, -⟩, hbefore⟩ := h
  -- nothing in front of the field has its name, and nothing behind it
  have hvalues : valuesOf f.1 ((before ++ f :: after).map fun f => (some f.1, f.2)) = [f.2] := by
    have hb := valuesOf_of_notMem (k := f.1) before
      fun hf => hbefore _ hf _ List.mem_cons_self rfl
    have ha := valuesOf_of_notMem _ hafter
    rw [valuesOf] at ha hb
    rw [valuesOf, List.map_append, List.map_cons, List.filter_append, List.map_append, hb,
      List.filter_cons_of_pos (by simp), List.map_cons, ha]
    rfl
  rw [field?, hvalues]

/-- The fields of a structure are found by their names. -/
theorem fields?_ofFields (fs : List (String × Json)) (h : (fs.map Prod.fst).Nodup) :
    fields? (fs.map Prod.fst) (ofFields fs) = some (fs.map Prod.snd) := by
  have hall : (fs.map fun f => (some f.1, f.2)).all (·.1.isSome) = true := by
    simp [List.all_eq_true]
  -- the names asked for grow along the induction, while the fields they are looked up in stay
  have hmap : ∀ gs : List (String × Json), (∀ g ∈ gs, g ∈ fs) →
      (gs.map Prod.fst).mapM (field? · (fs.map fun f => (some f.1, f.2))) =
        some (gs.map Prod.snd) := by
    intro gs hgs
    induction gs with
    | nil => rfl
    | cons g gs ih =>
      rw [List.map_cons, List.mapM_cons, field?_of_mem h (hgs g List.mem_cons_self),
        ih fun g hg => hgs g (List.mem_cons_of_mem _ hg)]
      rfl
  show (if (fs.map fun f => (some f.1, f.2)).all (·.1.isSome) then _ else none) = _
  rw [if_pos hall, hmap fs fun _ hf => hf]

/-- A structure is read from its fields. -/
theorem ofJson?_ofFields {k : List Json → Option α} (fs : List (String × Json))
    (hnodup : (fs.map Prod.fst).Nodup)
    (h : ofJson? (toJson a) = (fields? (fs.map Prod.fst) (ofFields fs)).bind k) :
    ofJson? (toJson a) = k (fs.map Prod.snd) := by
  rw [h, fields?_ofFields fs hnodup, Option.bind_some]

/-- An id of 64 bits is told. -/
theorem told_logId {id : LogId} (hterm : id.term ≤ Numeral.max64) (hindex : id.index ≤ Numeral.max64) :
    Told id := by
  have hindex := told_nat hindex
  have hterm := told_nat hterm
  refine ⟨writable_ofFields ?_, ?_⟩
  · simp only [List.forall_mem_cons, List.not_mem_nil, false_implies, implies_true, and_true]
    exact ⟨hindex.writable, hterm.writable⟩
  · rw [ofJson?_ofFields [("index", toJson id.index), ("term", toJson id.term)] (by simp) rfl]
    simp only [List.map_cons, List.map_nil, Option.bind, bind, hindex.read, hterm.read, pure]

/-- A set carries its members. -/
theorem carries_peerSet (s : PeerSet) : Carries s s.peers := by
  have hpeers := carries_peers s.peers
  refine ⟨writable_ofFields ?_, ?_⟩
  · simpa using hpeers.writable
  · rw [ofJson?_ofFields [("peers", toJson s.peers)] (by simp) rfl]
    simp only [List.map_cons, List.map_nil, bind, hpeers.read, ite_allRead_bind, pure,
      PeerSet.ofListOneByOne_peers]

/-! ### The table of a snapshot -/

/-- The meta of a snapshot carries the members of both configurations. -/
theorem carries_snapshotMeta {info : SnapshotMeta}
    (hterm : info.lastIncluded.term ≤ Numeral.max64)
    (hindex : info.lastIncluded.index ≤ Numeral.max64) : Carries info info.members := by
  have hid := told_logId hterm hindex
  have hpeers := carries_peerSet info.peers
  have hformer := carries_peerSet info.former
  refine ⟨writable_ofFields ?_, ?_⟩
  · simp only [List.forall_mem_cons, List.not_mem_nil, false_implies, implies_true, and_true]
    exact ⟨hid.writable, hpeers.writable, hformer.writable⟩
  -- three fields are read one after the other, and two of them carry peers
  · rw [ofJson?_ofFields [("last_included", toJson info.lastIncluded),
      ("configuration", toJson info.peers), ("old_configuration", toJson info.former)]
      (by simp) rfl]
    simp only [List.map_cons, List.map_nil, Option.bind_some, bind, hid.read, hpeers.read,
      hformer.read, ite_allRead_bind, pure, ite_allRead_append, SnapshotMeta.members]
    rfl

/-- The meta of a file is told. -/
theorem told_fileMeta (m : FileMeta) : Told m := by
  have hsum : Told m.checksum := by
    cases m.checksum with
    | none => exact told_none
    | some w => exact told_some (told_uint32 w) (by simp [toJson])
  refine ⟨writable_ofFields ?_, ?_⟩
  · simpa using hsum.writable
  · rw [ofJson?_ofFields [("checksum", toJson m.checksum)] (by simp) rfl]
    simp only [List.map_cons, List.map_nil, Option.bind, bind, hsum.read, pure]

/-- A table carries what is carried in its rows. -/
theorem carries_table {t : Table String α} (h : ∀ r ∈ t.rows, Carries r.2 (g r.2)) :
    Carries t (t.rows.flatMap fun r => g r.2) := by
  refine ⟨writable_ofFields fun f hf => ?_, ?_⟩
  · obtain ⟨r, hr, rfl⟩ := List.mem_map.1 hf
    exact (h r hr).writable
  -- by induction on the rows, as for lists; a row is read if its value is
  · have hmap : ∀ rows : List (String × α), (∀ r ∈ rows, r ∈ t.rows) →
        ((rows.map fun r => (r.1, toJson r.2)).map fun f => (some f.1, f.2)).mapM
          (fun (f : Option String × Json) => do return (← f.1, ← ofJson? f.2)) =
            if AllRead (rows.flatMap fun r => g r.2) then some rows else none := by
      intro rows hrows
      induction rows with
      | nil => rfl
      | cons r rows ih =>
        rw [List.map_cons, List.map_cons, List.mapM_cons,
          ih fun r hr => hrows r (List.mem_cons_of_mem _ hr)]
        simp only [bind, Option.bind_some, (h r (hrows r List.mem_cons_self)).read,
          ite_allRead_bind, pure, ite_allRead_append, List.flatMap_cons]
    show Option.map Table.ofList (List.mapM _ _) = _
    rw [hmap t.rows fun _ hr => hr]
    split
    · rw [Option.map_some, Table.ofList_rows]
    · rfl

theorem told_table {t : Table String α} (h : ∀ r ∈ t.rows, Told r.2) : Told t :=
  (carries_table (g := fun _ => []) fun r hr => (h r hr).carries).told
    fun _ hp => absurd hp (by simp)

/-- The table of a snapshot carries the members of its meta.  The meta may be absent, and then the
table is read in any case. -/
theorem carries_snapshotTable {t : SnapshotTable}
    (h : ∀ info ∈ t.info, info.lastIncluded.term ≤ Numeral.max64 ∧
      info.lastIncluded.index ≤ Numeral.max64) : Carries t t.members := by
  have hinfo : Carries t.info t.members := by
    rw [SnapshotTable.members]
    -- a meta is written as an object, never as null, so it is not mistaken for an absent one
    cases hm : t.info with
    | none => exact told_none.carries
    | some info =>
      exact carries_some (carries_snapshotMeta (h info hm).1 (h info hm).2)
        (by simp [toJson, ofFields])
  have hfiles : Told t.files := told_table fun r _ => told_fileMeta r.2
  refine ⟨writable_ofFields ?_, ?_⟩
  · simp only [List.forall_mem_cons, List.not_mem_nil, false_implies, implies_true, and_true]
    exact ⟨hinfo.writable, hfiles.writable⟩
  · rw [ofJson?_ofFields [("meta", toJson t.info), ("files", toJson t.files)] (by simp) rfl]
    simp only [List.map_cons, List.map_nil, Option.bind_some, bind, hinfo.read, hfiles.read,
      ite_allRead_bind, pure]

/-- **The table of a snapshot** is read back. -/
theorem told_snapshotTable {t : SnapshotTable} (h : ∀ m ∈ t.info, m.Proper) : Told t := by
  refine (carries_snapshotTable fun m hm => ⟨(h m hm).term, (h m hm).index⟩).told ?_
  rw [SnapshotTable.members]
  cases hm : t.info with
  | none => exact allRead_nil
  | some m => exact allRead_append.2 ⟨(h m hm).peers, (h m hm).former⟩

end Json
end RaftReplica
