/-
RaftReplica/Proofs/Log/Encoding.lean

What is written for an entry is a whole frame of that entry.  The reader undoes the writer field by
field: each `take` gives back what was put in front, and leaves what follows it.  Peers are given
back if all of them have addresses that are read, and otherwise the body is not read.

A lemma on a field has the form

    take (put x ++ rest) = some (x, rest)

with `rest` arbitrary, so the lemmas compose in the order of the fields and the end of the body is
the case of an empty rest.  The only conditions are on lengths: a number has to fit into its bytes,
and a block into the length that is written in front of it.  Both follow from one bound on the whole
body, which is what `Fits` asks for; that the length of every part is below the length of the body
is `length_le_flatMap_peerBlock` and its uses.

`whole_framed` is the result: the frame that is written for an entry that fits is one that is read
as this entry, whatever stands behind it.
-/
import RaftReplica.Proofs.Log.Frame

namespace RaftReplica

open Numeral Bytes Peer

/-- The peers in an entry, those of a change under way behind the others. -/
def Entry.members (e : Entry) : List Peer := e.peers.getD [] ++ e.former.getD []

/-- The entry can be told by a frame: its term and index are 64-bit numbers, its body's length is a
32-bit number, and its peers have addresses that are read. -/
structure Entry.Fits (e : Entry) : Prop where
  term : e.term ≤ max64
  index : e.index ≤ max64
  body : (Frame.body e).length ≤ max32
  peers : ∀ ps, e.peers = some ps → ∀ p ∈ ps, p.ip.IsV4
  former : ∀ ps, e.former = some ps → ∀ p ∈ ps, p.ip.IsV4

namespace Frame

variable {n : Nat} {bs : Bytes} {p : Peer} {ps : List Peer} {e : Entry}

/-! ### Bodies -/

/-- A number is given back with what follows it. -/
theorem takeWord_append (hn : n < UInt64.size) (rest : Bytes) :
    takeWord (littleEndian 8 n ++ rest) = some (n, rest) := by
  have hlen := length_littleEndian 8 n
  have hlong : ¬ (littleEndian 8 n ++ rest).length < 8 := by
    rw [List.length_append, hlen]
    omega
  rw [takeWord, if_neg hlong, List.take_left' hlen, List.drop_left' hlen,
    ofLittleEndian_littleEndian hn]

/-- A block of bytes is given back, with what follows it. -/
theorem takeBlock_append (hbs : bs.length < UInt64.size) (rest : Bytes) :
    takeBlock (block bs ++ rest) = some (bs, rest) := by
  have hlong : ¬ (bs ++ rest).length < bs.length := by
    rw [List.length_append]
    omega
  rw [takeBlock, block, List.append_assoc, takeWord_append hbs]
  simp only [bind, Option.bind]
  rw [if_neg hlong, List.take_left, List.drop_left]

/-- A peer is given back if its address is one that is read. -/
theorem takePeer_peerBlock (hlen : (ofText p.text).length < UInt64.size) (rest : Bytes) :
    takePeer (peerBlock p ++ rest) = if AllRead [p] then some (p, rest) else none := by
  rw [takePeer, peerBlock, takeBlock_append hlen]
  simp only [bind, Option.bind_some, text?_ofText, Peer.toList_text, ofChars?_chars_eq, pure,
    allRead_singleton]
  split <;> rfl

/-- A list of peers is given back if all of them are. -/
theorem takePeers_flatMap (hlen : (ps.flatMap peerBlock).length < UInt64.size) (rest : Bytes) :
    takePeers ps.length (ps.flatMap peerBlock ++ rest) =
      if AllRead ps then some (ps, rest) else none := by
  induction ps with
  | nil => rfl
  | cons p ps ih =>
    rw [List.flatMap_cons, List.length_append] at hlen
    have hp : (ofText p.text).length < UInt64.size := by
      rw [peerBlock, block, List.length_append] at hlen
      omega
    rw [List.length_cons, takePeers, List.flatMap_cons, List.append_assoc, takePeer_peerBlock hp]
    simp only [bind, ite_allRead_bind, ih (Nat.lt_of_add_left_lt hlen), pure, ite_allRead_append,
      List.singleton_append]

/-- Each peer takes at least one byte. -/
theorem length_le_flatMap_peerBlock : ps.length ≤ (ps.flatMap peerBlock).length := by
  induction ps with
  | nil => exact Nat.le_refl _
  | cons p ps ih =>
    rw [List.flatMap_cons, List.length_append, List.length_cons, peerBlock, block,
      List.length_append, length_littleEndian]
    omega

/-- A list of peers is read back, whether it is there or not. -/
theorem takePeersField_peersField {field : Option (List Peer)}
    (hlen : (peersField field).length < UInt64.size) (rest : Bytes) :
    takePeersField (peersField field ++ rest) =
      if AllRead (field.getD []) then some (field, rest) else none := by
  cases field with
  | none => rfl
  | some ps =>
    rw [peersField, List.length_cons, List.length_append] at hlen
    have hcount : ps.length ≤ (ps.flatMap peerBlock).length := length_le_flatMap_peerBlock
    have hpeers := takePeers_flatMap
      (show (ps.flatMap peerBlock).length < UInt64.size by omega) rest
    rw [peersField, List.cons_append, List.append_assoc, takePeersField,
      takeWord_append (by omega)]
    simp only [bind, Option.bind_some, hpeers, ite_allRead_bind, pure, Option.getD_some]

/-- A body that is not too long is given back unless one of its peers is not read. -/
theorem fields?_body_eq (h : (body e).length ≤ max32) :
    fields? (body e) = if AllRead e.members then some ⟨e.data, e.peers, e.former⟩ else none := by
  have hbody : (body e).length < UInt64.size := Nat.lt_of_le_of_lt h (by decide)
  rw [body, block, List.length_append, List.length_append, List.length_append] at hbody
  have hformer := takePeersField_peersField
    (show (peersField e.former).length < UInt64.size by omega) []
  rw [List.append_nil] at hformer
  rw [fields?, body, takeBlock_append (by omega)]
  simp only [bind, Option.bind_some]
  rw [takePeersField_peersField (by omega)]
  simp only [ite_allRead_bind, hformer, pure, ite_allRead_append]
  rfl

/-- The body of an entry that fits is given back. -/
theorem fields?_body (he : e.Fits) : fields? (body e) = some ⟨e.data, e.peers, e.former⟩ := by
  have hread {field : Option (List Peer)} (h : ∀ ps, field = some ps → ∀ p ∈ ps, p.ip.IsV4) :
      AllRead (field.getD []) := by
    cases field with
    | none => exact allRead_nil
    | some ps => exact h ps rfl
  have hmembers : AllRead e.members := allRead_append.2 ⟨hread he.peers, hread he.former⟩
  rw [fields?_body_eq he.body, if_pos hmembers]

/-! ### Headers -/

theorem length_covered (h : Header) : h.covered.length = 20 := by
  rw [Header.covered, List.length_append, length_bigEndian]
  simp

theorem length_bytes (h : Header) : h.bytes.length = headerSize := by
  rw [Header.bytes, List.length_append, length_covered, length_bigEndian, headerSize]

/-- A header whose numbers fit is read back. -/
theorem header?_bytes {h : Header} (hterm : h.term ≤ max64) (hlength : h.length ≤ max32)
    (hchecksum : h.checksum ≤ max32) : header? h.bytes = .ok h := by
  have hterm : h.term < UInt64.size := Nat.lt_of_le_of_lt hterm (by decide)
  have hlength : h.length < UInt32.size := Nat.lt_of_le_of_lt hlength (by decide)
  have hchecksum : h.checksum < UInt32.size := Nat.lt_of_le_of_lt hchecksum (by decide)
  have hsum : (Crc32.checksum h.covered).toNat < UInt32.size := UInt32.toNat_lt _
  have hlen := length_covered h
  have h8 := length_bigEndian 8 h.term
  -- each field is looked for where the reader looks: term, kind, length, and the two checksums
  have htag : ((h.bytes)[8]?.getD 0).toNat = h.kind.tag := by
    rw [Header.bytes, Header.covered, List.append_assoc, List.getElem?_append_right (by omega), h8]
    cases h.kind <;> rfl
  have htermBytes : h.bytes.take 8 = bigEndian 8 h.term := by
    rw [Header.bytes, Header.covered, List.append_assoc, List.take_left' h8]
  have hrest : h.bytes.drop 12 = bigEndian 4 h.length ++ (bigEndian 4 h.checksum ++
      bigEndian 4 (Crc32.checksum h.covered).toNat) := by
    rw [Header.bytes, Header.covered, List.append_assoc, List.drop_append, h8,
      List.drop_eq_nil_of_le (by omega)]
    simp
  have hlast : h.bytes.drop 16 = bigEndian 4 h.checksum ++
      bigEndian 4 (Crc32.checksum h.covered).toNat := by
    rw [show 16 = 12 + 4 from rfl, ← List.drop_drop, hrest, List.drop_left' (length_bigEndian _ _)]
  rw [header?]
  rw [show h.bytes.take 20 = h.covered by rw [Header.bytes, List.take_left' hlen],
    show h.bytes.drop 20 = bigEndian 4 (Crc32.checksum h.covered).toNat by
      rw [Header.bytes, List.drop_left' hlen], ofBigEndian_bigEndian hsum, if_neg (by simp)]
  simp only [htag, EntryKind.ofTag_tag]
  rw [htermBytes, hrest, hlast, List.take_left' (length_bigEndian _ _),
    List.take_left' (length_bigEndian _ _), ofBigEndian_bigEndian hterm,
    ofBigEndian_bigEndian hlength, ofBigEndian_bigEndian hchecksum]

/-! ### Frames -/

/-- The frame of an entry. -/
def framed (e : Entry) : Framed := ⟨(headerOf e (body e)).bytes ++ body e, e⟩

theorem encode_eq (he : e.Fits) : encode e = .ok (framed e).bytes := by
  rw [encode, if_neg (Nat.not_lt.2 he.body)]
  rfl

/-- **What is written** for an entry is a whole frame of it. -/
theorem whole_framed (he : e.Fits) : (framed e).Whole e.index := by
  refine ⟨(headerOf e (body e)).bytes, body e, headerOf e (body e), rfl, length_bytes _,
    header?_bytes he.term he.body ?_, rfl, ?_⟩
  · exact Nat.le_sub_one_of_lt (UInt32.toNat_lt _)
  · rw [ entry?, headerOf, if_neg (by simp), fields?_body he]
    rfl

end Frame
end RaftReplica
