/-
RaftReplica/Membership/PeerSet.lean

Sets of peers.  A set is kept as a list in ascending order, and carries the proof of it.  Since the
role of a peer takes no part in who it is, a peer can come to a set that already has it under
another role.  `insert` then keeps the peer that is there; `put` replaces it.  Sets built all at once
(`ofList`) use `put`, so of several equal peers the last one stays.

Both are `place` with another choice, and that the order is kept is shown once, for every choice
that changes no key (`KeepsKey`).

The order decides how a set is written and how it is compared: two sets with the same participants
have the same list of keys, so `same` needs no search, and if the roles agree too they have the same
text.

* `PeerSet.union` prefers the peers of its second argument, as `put` does.
* `PeerSet.items` skips blank items, so a text may end in a comma or be blank altogether.
* `PeerSet.parse` inserts one peer after the other, so of equal ones the first counts.
-/
import RaftReplica.Peer

namespace RaftReplica

/-- A set of peers, in ascending order. -/
structure PeerSet where
  peers : List Peer
  ascending : peers.Pairwise (fun p q => p.key < q.key)
  deriving DecidableEq

namespace PeerSet

/-! ### Ascending lists -/

/-- Adds a peer at its place; `keep` says which of two equal peers stays. -/
def place (keep : Peer → Peer → Peer) (p : Peer) : List Peer → List Peer
  | [] => [p]
  | q :: rest =>
    if p.key < q.key then p :: q :: rest
    else if q.key < p.key then q :: place keep p rest
    else keep q p :: rest

/-- Which of two equal peers stays: a choice that changes no key. -/
def KeepsKey (keep : Peer → Peer → Peer) : Prop :=
  ∀ q p : Peer, q.key = p.key → (keep q p).key = p.key

/-- Placing a peer brings no key but its own. -/
theorem key_mem_place {keep : Peer → Peer → Peer} (hk : KeepsKey keep) {p r : Peer}
    {ps : List Peer} (h : r ∈ place keep p ps) : r.key = p.key ∨ ∃ q ∈ ps, r.key = q.key := by
  induction ps with
  | nil => simp [place] at h; simp [h]
  | cons q rest ih =>
    rw [place] at h
    split at h
    · -- the peer comes in front of `q`
      simp only [List.mem_cons] at h ⊢
      rcases h with rfl | rfl | h
      · simp
      · exact .inr ⟨r, .inl rfl, rfl⟩
      · exact .inr ⟨r, .inr h, rfl⟩
    · split at h
      · simp only [List.mem_cons] at h
        rcases h with rfl | h
        · exact .inr ⟨r, by simp, rfl⟩
        · rcases ih h with h | ⟨x, hx, h⟩
          · exact .inl h
          · exact .inr ⟨x, by simp [hx], h⟩
      · simp only [List.mem_cons] at h
        rcases h with rfl | h
        · exact .inl (hk q p (by omega))
        · exact .inr ⟨r, by simp [h], rfl⟩

/-- Placing a peer keeps the order. -/
theorem ascending_place {keep : Peer → Peer → Peer} (hk : KeepsKey keep) {p : Peer}
    {ps : List Peer} (h : ps.Pairwise (fun p q => p.key < q.key)) :
    (place keep p ps).Pairwise (fun p q => p.key < q.key) := by
  induction ps with
  | nil => simp [place]
  | cons q rest ih =>
    rw [List.pairwise_cons] at h
    rw [place]
    split
    · next hlt =>
      refine List.pairwise_cons.2 ⟨fun r hr => ?_, List.pairwise_cons.2 h⟩
      rcases List.mem_cons.1 hr with rfl | hr
      · exact hlt
      · exact Nat.lt_trans hlt (h.1 r hr)
    · split
      · next hlt =>
        refine List.pairwise_cons.2 ⟨fun r hr => ?_, ih h.2⟩
        rcases key_mem_place hk hr with he | ⟨x, hx, he⟩
        · omega
        · have := h.1 x hx
          omega
      · -- neither key is smaller: one of two equal peers stays, at the same key
        refine List.pairwise_cons.2 ⟨fun r hr => ?_, h.2⟩
        have h₁ := h.1 r hr
        have h₂ := hk q p (by omega)
        omega

/-! ### Sets -/

/-- No peers. -/
def empty : PeerSet := ⟨[], .nil⟩

instance : Inhabited PeerSet := ⟨empty⟩

/-- A peer of the set is the same participant as `p`. -/
def contains (s : PeerSet) (p : Peer) : Bool := s.peers.any (·.same p)

/-- Adds a peer; one that is there already stays as it is. -/
def insert (s : PeerSet) (p : Peer) : PeerSet :=
  ⟨place (fun q _ => q) p s.peers, ascending_place (fun _ _ h => h) s.ascending⟩

/-- Adds a peer, in the place of one that is there already. -/
def put (s : PeerSet) (p : Peer) : PeerSet :=
  ⟨place (fun _ p => p) p s.peers, ascending_place (fun _ _ _ => rfl) s.ascending⟩

/-- Takes a peer out. -/
def erase (s : PeerSet) (p : Peer) : PeerSet :=
  ⟨s.peers.filter (!·.same p), s.ascending.filter _⟩

/-- The set of all peers of a list; of equal ones the last stays. -/
def ofList (ps : List Peer) : PeerSet := ps.foldl put empty

/-- The set of all peers of a list, inserted one by one; of equal ones the first stays. -/
def ofListOneByOne (ps : List Peer) : PeerSet := ps.foldl insert empty

/-- How many participants there are. -/
def size (s : PeerSet) : Nat := s.peers.length

/-- Nobody is in the set. -/
def isEmpty (s : PeerSet) : Bool := s.peers.isEmpty

/-- Every peer of the list is in the set. -/
def containsAll (s : PeerSet) (ps : List Peer) : Bool := ps.all s.contains

/-- The list names exactly the peers of the set, repetitions aside. -/
def equalsList (s : PeerSet) (ps : List Peer) : Bool :=
  (ofList ps).size == s.size && s.containsAll ps

/-- The peers of `s` that are not in `t`. -/
def diff (s t : PeerSet) : PeerSet :=
  ⟨s.peers.filter (!t.contains ·), s.ascending.filter _⟩

/-- The peers of both sets; of equal ones that of `t` stays. -/
def union (s t : PeerSet) : PeerSet := t.peers.foldl put s

/-- Both sets hold the same participants. -/
def same (s t : PeerSet) : Bool := s.peers.map Peer.key == t.peers.map Peer.key

/-- A set is its list of peers. -/
theorem ext {s t : PeerSet} (h : s.peers = t.peers) : s = t := by
  cases s; cases t; simp_all

/-! ### Text -/

/-- The texts of the peers, with commas between them. -/
def chars (s : PeerSet) : List Char := List.intercalate [','] (s.peers.map Peer.chars)

/-- A set as a string. -/
def text (s : PeerSet) : String := String.ofList s.chars

/-- The items of a list of peers: what stands between commas, trimmed, blank ones left out. -/
def items (cs : List Char) : List (List Char) :=
  ((Text.split ',' cs).map Text.trim).filter (!·.isEmpty)

/-- Reads a comma separated list, adding one peer after the other. -/
def parse (s : String) : Except Error PeerSet :=
  (items s.toList).foldlM
    (fun set item => do return set.insert (← Peer.parse (String.ofList item))) empty

end PeerSet
end RaftReplica
