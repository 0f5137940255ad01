/-
RaftReplica/Proofs/Membership/PeerSet.lean

Sets of peers that are read from a list.  Many texts name one set: blanks and empty items do not
count, fields may be left out or have zeros in front, and a peer that is named again is not added.
The text that is written for a set is the one that all of them lead to, as it is read as the very
set (`PeerSet.parse_text`): sets that were read are the same exactly if their texts are.

A set is a list of peers in the order of their keys.  A key is a number with the address in front,
then the port, then the index, so the order of keys is the one of the fields, one after the other
(`Peer.key_lt_iff`), and it does not look at the role.  Peers with one key are one member, and which
of them is kept shows in its role.

Peers are inserted one by one, and an insertion keeps the member that is there.  So the member for a
key is the first peer that was named with it:

    p is in the set  iff  ps = before ++ p :: after, and no peer in `before` is the same as p

(`mem_ofListOneByOne_iff`).  Sets that were read have peers with addresses of the fourth version
only, which is what reading their text back needs; there is no hypothesis about it in the main
result, `parse_canonical`.
-/
import RaftReplica.Proofs.Directory
import RaftReplica.Proofs.Json.Proper
import RaftReplica.Proofs.Text.Blank

namespace RaftReplica

open Text

namespace Peer

/-- One peer comes before the other: the address counts most, then the port, then the number of the
replica. -/
def Before (p q : Peer) : Prop :=
  p.ip.number < q.ip.number ∨
    p.ip = q.ip ∧ (p.port < q.port ∨ p.port = q.port ∧ p.idx < q.idx)

/-- The order of keys goes by address, port and index. -/
theorem key_lt_iff {p q : Peer} : p.key < q.key ↔ p.Before q := by
  have hport (r : Peer) : r.port.toNat < 65536 := r.port.toNat_lt
  have hidx (r : Peer) : r.idx.toNat < 4294967296 := r.idx.toNat_lt
  have hip : p.ip = q.ip ↔ p.ip.number = q.ip.number :=
    ⟨congrArg Ip.number, Ip.number_injective⟩
  have := hport p
  have := hport q
  have := hidx p
  have := hidx q
  rw [Before, hip, UInt16.lt_iff_toNat_lt, UInt32.lt_iff_toNat_lt, ← UInt16.toNat_inj]
  simp only [key, UInt16.size, UInt32.size]
  omega

theorem same_iff {p q : Peer} : p.same q ↔ p.key = q.key := by rw [same, beq_iff_eq]

/-- One participant: nothing but the role may differ. -/
theorem same_iff_fields {p q : Peer} : p.same q ↔ p.ip = q.ip ∧ p.port = q.port ∧ p.idx = q.idx := by
  obtain ⟨ip, port, idx, role⟩ := p
  obtain ⟨ip', port', idx', role'⟩ := q
  rw [same_iff, key_eq_iff, Peer.mk.injEq]
  simp

/-- The text of a peer that can be read has no comma. -/
theorem comma_notMem_chars {p : Peer} (h : p.ip.IsV4) : ',' ∉ p.chars := by
  obtain ⟨ip, port, idx, role⟩ := p
  have hnumber (n : Nat) : ',' ∉ Numeral.chars n :=
    Numeral.notMem_of_ofDigits? (Numeral.ofDigits?_chars n) rfl
  have hrole : ',' ≠ role.digit := by cases role <;> decide
  cases ip with
  | v4 a b c d => simp [chars, Ip.withPort, Ip.chars, Ip.dotted, hnumber, hrole]
  | v6 => exact absurd h (by simp [Ip.IsV4])

theorem chars_ne_nil (p : Peer) : p.chars ≠ [] := by simp [chars]

end Peer

namespace PeerSet

variable {s set : PeerSet} {text : String} {p q : Peer} {ps : List Peer}

/-! ### Which peer is kept -/

/-- Placing a peer adds it unless its key is there. -/
theorem mem_place_first (h : ps.Pairwise fun p q => p.key < q.key) :
    p ∈ place (fun q _ => q) q ps ↔ p ∈ ps ∨ (∀ r ∈ ps, r.key ≠ q.key) ∧ p = q := by
  -- along the list, to the first member that is not in front of the new one
  induction ps with
  | nil => simp [place]
  | cons r ps ih =>
    rw [List.pairwise_cons] at h
    rw [place]
    split
    · next hlt =>
      -- it comes in front of all that are there
      have hnew : ∀ r' ∈ r :: ps, r'.key ≠ q.key := by
        intro r' hr'
        rcases List.mem_cons.1 hr' with rfl | hr'
        · omega
        · have := h.1 r' hr'
          omega
      rw [List.mem_cons, or_comm, and_iff_right hnew]
    · next hle =>
      split
      · next hlt =>
        rw [List.mem_cons, ih h.2, List.mem_cons, List.forall_mem_cons,
          and_iff_right (show r.key ≠ q.key by omega), or_assoc]
      · next hge =>
        have hsame : r.key = q.key := by omega
        rw [List.forall_mem_cons]
        simp [hsame]

/-- Inserting adds a peer unless one with its key is there. -/
theorem mem_insert_iff : p ∈ (s.insert q).peers ↔ p ∈ s.peers ∨ ¬ s.contains q ∧ p = q := by
  have hnew : ¬ s.contains q ↔ ∀ r ∈ s.peers, r.key ≠ q.key := by
    simp [contains, Peer.same]
  rw [hnew]
  exact mem_place_first s.ascending

theorem contains_iff : s.contains p ↔ ∃ q ∈ s.peers, q.key = p.key := by
  simp [contains, Peer.same]

/-- An inserted peer is contained then, whichever was kept. -/
theorem contains_insert : (s.insert q).contains p ↔ s.contains p ∨ q.key = p.key := by
  rw [contains_iff]
  constructor
  · rintro ⟨r, hr, hkey⟩
    rcases mem_insert_iff.1 hr with hr | ⟨-, rfl⟩
    · exact .inl (contains_iff.2 ⟨r, hr, hkey⟩)
    · exact .inr hkey
  · intro h
    by_cases hq : s.contains q
    · -- the one that is there already stands for the new one
      obtain ⟨r, hr, hkey⟩ := contains_iff.1 hq
      rcases h with h | h
      · obtain ⟨r', hr', hkey'⟩ := contains_iff.1 h
        exact ⟨r', mem_insert_iff.2 (.inl hr'), hkey'⟩
      · exact ⟨r, mem_insert_iff.2 (.inl hr), hkey.trans h⟩
    · rcases h with h | h
      · obtain ⟨r', hr', hkey'⟩ := contains_iff.1 h
        exact ⟨r', mem_insert_iff.2 (.inl hr'), hkey'⟩
      · exact ⟨q, mem_insert_iff.2 (.inr ⟨hq, rfl⟩), h⟩

/-- Of several peers that are the same participant, the first is kept. -/
theorem mem_foldl_insert_iff : p ∈ (ps.foldl insert s).peers ↔
    p ∈ s.peers ∨ ¬ s.contains p ∧ ps.find? (·.same p) = some p := by
  -- on the peers that are still to come; `s` holds the first ones of those before
  induction ps generalizing s with
  | nil => simp
  | cons r ps ih =>
    rw [List.foldl_cons, ih, mem_insert_iff, or_assoc, contains_insert]
    refine or_congr_right ?_
    by_cases hsame : r.key = p.key
    · have hfind : (r :: ps).find? (·.same p) = some r :=
        List.find?_cons_of_pos (Peer.same_iff.2 hsame)
      rw [hfind, Option.some.injEq, or_iff_left fun h => h.1 (.inr hsame)]
      refine ⟨?_, ?_⟩ <;> rintro ⟨hnot, rfl⟩ <;> exact ⟨hnot, rfl⟩
    · have hfind : (r :: ps).find? (·.same p) = ps.find? (·.same p) :=
        List.find?_cons_of_neg (mt Peer.same_iff.1 hsame)
      have hne : p ≠ r := by
        rintro rfl
        exact hsame rfl
      rw [hfind, or_iff_right fun h => hne h.2, or_iff_left hsame]

/-- The member for a key is the first one named. -/
theorem mem_ofListOneByOne_iff : p ∈ (ofListOneByOne ps).peers ↔
    ∃ before after, ps = before ++ p :: after ∧ ∀ q ∈ before, ¬ q.same p := by
  have hself : p.same p := Peer.same_iff.2 rfl
  have hnone : p ∉ empty.peers ∧ ¬ empty.contains p := by simp [contains, empty]
  rw [ofListOneByOne, mem_foldl_insert_iff, or_iff_right hnone.1, and_iff_right hnone.2,
    List.find?_eq_some_iff_append, and_iff_right hself]
  simp

/-! ### Reading -/

/-- A list is read if each of its items is, and then the peers are inserted in order. -/
theorem foldlM_insert_eq_ok_iff {named : List (List Char)} :
    named.foldlM (fun (set : PeerSet) item => do
        return set.insert (← Peer.parse (String.ofList item))) s = .ok set ↔
      ∃ ps, named.mapM Peer.ofChars? = some ps ∧ set = ps.foldl insert s := by
  induction named generalizing s with
  | nil => simp [eq_comm, pure, Except.pure]
  | cons item named ih =>
    rw [List.foldlM_cons, List.mapM_cons, Peer.parse, String.toList_ofList]
    cases Peer.ofChars? item with
    | none => simp [bind, Except.bind]
    | some p =>
      refine Iff.trans ih ?_
      cases named.mapM Peer.ofChars? <;> simp

theorem parse_eq_ok_iff : parse text = .ok set ↔
    ∃ ps, (items text.toList).mapM Peer.ofChars? = some ps ∧ set = ofListOneByOne ps :=
  foldlM_insert_eq_ok_iff

/-- Peers that were read have addresses that are read. -/
theorem allRead_of_parse (h : parse text = .ok set) : Peer.AllRead set.peers := by
  obtain ⟨ps, hps, rfl⟩ := parse_eq_ok_iff.1 h
  intro p hp
  obtain ⟨item, -, hitem⟩ := exists_mem_of_mapM hps (mem_of_mem_ofListOneByOne hp)
  exact Peer.isV4_of_ofChars? hitem

/-! ### Reading what was written -/

/-- The items of the text of a set are the texts of its peers. -/
theorem items_chars (h : Peer.AllRead s.peers) : items s.chars = s.peers.map Peer.chars := by
  cases hpeers : s.peers with
  | nil =>
    rw [chars, hpeers]
    rfl
  | cons p ps =>
    have hcomma : ∀ field ∈ s.peers.map Peer.chars, ',' ∉ field :=
      List.forall_mem_map.2 fun q hq => Peer.comma_notMem_chars (h q hq)
    have hne : s.peers.map Peer.chars ≠ [] := by simp [hpeers]
    have htrim : (s.peers.map Peer.chars).map trim = s.peers.map Peer.chars := by
      simp [List.map_map, Function.comp_def, Peer.trim_chars]
    rw [items, chars, split_intercalate hne hcomma, htrim, ← hpeers, List.filter_eq_self]
    refine List.forall_mem_map.2 fun q _ => ?_
    simp [Peer.chars_ne_nil]

/-- Peers are read back from their texts. -/
theorem mapM_chars (h : Peer.AllRead ps) : (ps.map Peer.chars).mapM Peer.ofChars? = some ps := by
  induction ps with
  | nil => rfl
  | cons p ps ih =>
    rw [List.map_cons, List.mapM_cons, Peer.ofChars?_chars (h p List.mem_cons_self),
      ih fun q hq => h q (List.mem_cons_of_mem _ hq)]
    rfl

/-- **A set is read back from its text.** -/
theorem parse_text (h : Peer.AllRead s.peers) : parse s.text = .ok s := by
  refine parse_eq_ok_iff.2 ⟨s.peers, ?_, (ofListOneByOne_peers s).symm⟩
  rw [PeerSet.text, String.toList_ofList, items_chars h, mapM_chars h]

/-- **The text of a set is the one text for it.**  A set that was read has its peers in strictly
ascending order, each as the first item names it that names this participant.  Its text is read as
the same set, with the same roles, and so what was read from two texts is the same exactly if it is
written the same. -/
theorem parse_canonical {text : String} {set : PeerSet} (h : parse text = .ok set) :
    set.peers.Pairwise Peer.Before ∧
    (∃ ps, (items text.toList).mapM Peer.ofChars? = some ps ∧
      ∀ p, p ∈ set.peers ↔ ∃ before after, ps = before ++ p :: after ∧
        ∀ q ∈ before, ¬ (q.ip = p.ip ∧ q.port = p.port ∧ q.idx = p.idx)) ∧
    (∃ read, parse set.text = .ok read ∧ read.peers = set.peers ∧ read.text = set.text) ∧
    ∀ text' set', parse text' = .ok set' → (set.peers = set'.peers ↔ set.text = set'.text) := by
  obtain ⟨ps, hps, hset⟩ := parse_eq_ok_iff.1 h
  have hread := parse_text (allRead_of_parse h)
  refine ⟨?_, ⟨ps, hps, fun p => ?_⟩, ⟨set, hread, rfl, rfl⟩, fun text' set' h' => ⟨?_, ?_⟩⟩
  · exact set.ascending.imp Peer.key_lt_iff.1
  · rw [hset, mem_ofListOneByOne_iff]
    simp only [Peer.same_iff_fields]
  · intro hpeers
    rw [ext hpeers]
  · intro htext
    have hread' := parse_text (allRead_of_parse h')
    rw [← htext, hread] at hread'
    rw [Except.ok.inj hread']

/-- A peer that is named twice, once with its role left out. -/
theorem parse_canonical_twice :
    let set : PeerSet := ⟨[⟨.v4 10 0 0 1, 7, 0, .witness⟩, ⟨.v4 10 0 0 2, 80, 1, .replica⟩], by decide⟩
    parse " 10.0.0.2:080:+1 ,, 10.0.0.1:7:0:1, 10.0.0.1:7\t" = .ok set ∧
      parse "10.0.0.1:7:0:1,10.0.0.2:80:1:0" = .ok set ∧
      ∀ text' set', parse text' = .ok set' → (set.peers = set'.peers ↔ set.text = set'.text) := by
  intro set
  have hparse : parse " 10.0.0.2:080:+1 ,, 10.0.0.1:7:0:1, 10.0.0.1:7\t" = .ok set := by
    decide +kernel
  obtain ⟨-, -, ⟨read, hread, hpeers, -⟩, hiff⟩ := parse_canonical hparse
  have htext : set.text = "10.0.0.1:7:0:1,10.0.0.2:80:1:0" := by decide +kernel
  refine ⟨hparse, ?_, hiff⟩
  rw [← htext, hread, ext hpeers]

end PeerSet
end RaftReplica
