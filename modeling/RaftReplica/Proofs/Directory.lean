/-
RaftReplica/Proofs/Directory.lean

What a directory tells is what was registered.  A node is known by its mark and has one id for good
(`ids`).  Calls add a node behind those that are there, unless its id is taken, and take out a node
if it is the very one (`NodeCall.after`); this list of nodes is told by both tables of the directory
(`Directory.Describes`), so they agree with each other after any calls.

Callers that run at the same time take turns.  Each call copies the directory, works on its copy and
publishes it in the end, while readers see the published one (`Desk.Step`).  The published directory
is always the one that the calls so far, one after another, lead to (`Desk.Reachable.serial`).

Three layers, each proved from the one before:

* ids: two ids count as the same if they differ in the role of the peer alone
  (`NodeId.same_iff_role`).  That is not an assumption about numbers; a key is put together from
  address, port and index without loss, because each has its range (`Ip.number_injective`,
  `Peer.key_eq_iff`);
* tables: `Describes ids d ns` has one field for each of the two tables, and each call keeps it
  (`Describes.step`).  A group without nodes has no row, so removing the last one erases it;
* turns: a caller holds the desk from its copy to its publication, so nothing is published in
  between, and the copy is the published directory still (`Serial.turn`).

How often a node was added and removed is counted along the calls (`count_step`): the two numbers
differ by one while it is registered, and are equal otherwise.
-/
import Mathlib.Data.List.Nodup
import Mathlib.Data.List.Perm.Basic
import Mathlib.Tactic.Common
import RaftReplica.Directory
import RaftReplica.Proofs.Table

namespace RaftReplica

open Table (SameKey)

/-! ### Ids -/

namespace Ip

/-- Addresses are told apart by their numbers. -/
theorem number_injective {a b : Ip} (h : a.number = b.number) : a = b := by
  -- an octet is below 256, and a group below 65536
  have byte (x : UInt8) : x.toNat < 256 := x.toNat_lt
  have word (x : UInt16) : x.toNat < 65536 := x.toNat_lt
  cases a with
  | v4 a₁ a₂ a₃ a₄ =>
    have := byte a₁; have := byte a₂; have := byte a₃; have := byte a₄
    cases b with
    | v4 b₁ b₂ b₃ b₄ =>
      have := byte b₁; have := byte b₂; have := byte b₃; have := byte b₄
      simp only [number, Numeral.value, List.foldl_cons, List.foldl_nil] at h
      simp only [v4.injEq, ← UInt8.toNat_inj]
      omega
    | v6 =>
      simp only [number, Numeral.value, List.foldl_cons, List.foldl_nil, UInt32.size] at h
      omega
  | v6 a₁ a₂ a₃ a₄ a₅ a₆ a₇ a₈ =>
    have := word a₁; have := word a₂; have := word a₃; have := word a₄
    have := word a₅; have := word a₆; have := word a₇; have := word a₈
    cases b with
    | v4 b₁ b₂ b₃ b₄ =>
      have := byte b₁; have := byte b₂; have := byte b₃; have := byte b₄
      simp only [number, Numeral.value, List.foldl_cons, List.foldl_nil, UInt32.size] at h
      omega
    | v6 b₁ b₂ b₃ b₄ b₅ b₆ b₇ b₈ =>
      have := word b₁; have := word b₂; have := word b₃; have := word b₄
      have := word b₅; have := word b₆; have := word b₇; have := word b₈
      simp only [number, Numeral.value, List.foldl_cons, List.foldl_nil] at h
      simp only [v6.injEq, ← UInt16.toNat_inj]
      omega

end Ip

/-- Peers at one place differ in nothing but the role. -/
theorem Peer.key_eq_iff {p q : Peer} : p.key = q.key ↔ { p with role := q.role } = q := by
  obtain ⟨ip, port, idx, role⟩ := p
  obtain ⟨ip', port', idx', role'⟩ := q
  have hport : port.toNat < 65536 := port.toNat_lt
  have hport' : port'.toNat < 65536 := port'.toNat_lt
  have hidx : idx.toNat < 4294967296 := idx.toNat_lt
  have hidx' : idx'.toNat < 4294967296 := idx'.toNat_lt
  -- the key is a number with the address in front, then the port, then the index
  simp only [key, UInt16.size, UInt32.size, Peer.mk.injEq, and_true]
  constructor
  · intro h
    refine ⟨Ip.number_injective ?_, UInt16.toNat_inj.1 ?_, UInt32.toNat_inj.1 ?_⟩ <;> omega
  · rintro ⟨rfl, rfl, rfl⟩
    rfl

namespace NodeId

instance : RankedKeys NodeId where
  irrefl := by
    rintro a (h | ⟨-, h⟩)
    · exact String.lt_irrefl _ h
    · exact Nat.lt_irrefl _ h
  between := by
    rintro a c (h | ⟨hg, hk⟩) b
    · rcases RankedKeys.between h b.group with hab | hbc
      · exact .inl (.inl hab)
      · exact .inr (.inl hbc)
    · by_cases hb : b.group = a.group
      · rcases RankedKeys.between hk b.peer.key with hab | hbc
        · exact .inl (.inr ⟨hb.symm, hab⟩)
        · exact .inr (.inr ⟨hb.trans hg, hbc⟩)
      · by_cases hab : a.group < b.group
        · exact .inl (.inl hab)
        · refine .inr (.inl (hg ▸ ?_))
          by_contra hba
          exact hb (Table.sameKey_string_iff.1 ⟨hba, hab⟩)

theorem same_iff {a b : NodeId} : a.same b ↔ a.group = b.group ∧ a.peer.key = b.peer.key := by
  simp only [same, Peer.same, Bool.and_eq_true, beq_iff_eq]

/-- Ids of one node are at one place of their order. -/
theorem sameKey_iff {a b : NodeId} : SameKey a b ↔ a.same b := by
  rw [same_iff]
  constructor
  -- neither is in front of the other, so neither is by its group, nor within the group
  · rintro ⟨hab, hba⟩
    have hgroup : a.group = b.group :=
      Table.sameKey_string_iff.1 ⟨fun h => hab (.inl h), fun h => hba (.inl h)⟩
    have hkey : a.peer.key = b.peer.key :=
      Table.sameKey_nat_iff.1 ⟨fun h => hab (.inr ⟨hgroup, h⟩),
        fun h => hba (.inr ⟨hgroup.symm, h⟩)⟩
    exact ⟨hgroup, hkey⟩
  · rintro ⟨hgroup, hkey⟩
    constructor
    · rintro (h | ⟨-, h⟩)
      · exact (Table.sameKey_string_iff.2 hgroup).1 h
      · exact (Table.sameKey_nat_iff.2 hkey).1 h
    · rintro (h | ⟨-, h⟩)
      · exact (Table.sameKey_string_iff.2 hgroup).2 h
      · exact (Table.sameKey_nat_iff.2 hkey).2 h

theorem same_refl (a : NodeId) : a.same a := same_iff.2 ⟨rfl, rfl⟩

theorem same_symm {a b : NodeId} (h : a.same b) : b.same a := by
  rw [same_iff] at h ⊢
  exact ⟨h.1.symm, h.2.symm⟩

/-- Ids are the same up to the role of the peer. -/
theorem same_iff_role {a b : NodeId} :
    a.same b ↔ { a with peer := { a.peer with role := b.peer.role } } = b := by
  obtain ⟨group, peer⟩ := a
  obtain ⟨group', peer'⟩ := b
  rw [same_iff, Peer.key_eq_iff, NodeId.mk.injEq]

end NodeId

/-! ### Calls -/

/-- What is asked of a directory, about the node with a given mark. -/
inductive NodeCall
  | add (mark : Nat)
  | remove (mark : Nat)
  deriving DecidableEq, Repr

/-- The node with a mark; its id does not change. -/
def HostedNode.known (ids : Nat → NodeId) (mark : Nat) : HostedNode := { mark, id := ids mark }

/-- The members of a group. -/
def HostedNode.ofGroup (g : String) (ns : List HostedNode) : List HostedNode :=
  ns.filter (·.id.group = g)

namespace NodeCall

open HostedNode (known)

variable (ids : Nat → NodeId)

/-- Makes a call. -/
def run : NodeCall → Directory → Bool × Directory
  | add mark, d => d.add (known ids mark)
  | remove mark, d => d.remove (known ids mark)

/-- A call that is refused changes nothing. -/
theorem run_of_refused {c : NodeCall} {d : Directory} (h : (c.run ids d).1 = false) :
    (c.run ids d).2 = d := by
  cases c with
  | add mark =>
    rw [run, Directory.add] at h ⊢
    split at h
    · next htaken => rw [if_pos htaken]
    · exact absurd h (by simp)
  | remove mark =>
    rw [run, Directory.remove] at h ⊢
    split at h
    · rfl
    · split at h
      · next hne => exact congrArg Prod.snd (if_pos hne)
      · exact absurd h (by simp)

/-- Makes calls one after another; what they answer, and the directory in the end. -/
def runAll : List NodeCall → Directory → List Bool × Directory
  | [], d => ([], d)
  | c :: cs, d =>
    let (answer, d) := c.run ids d
    let (answers, d) := runAll cs d
    (answer :: answers, d)

/-- The registered nodes after a call, in the order in which they were registered. -/
def after (ns : List HostedNode) : NodeCall → List HostedNode
  | add mark => if ns.any (·.id.same (ids mark)) then ns else ns ++ [known ids mark]
  | remove mark => ns.filter (· ≠ known ids mark)

/-- The registered nodes after calls. -/
def registered (cs : List NodeCall) (ns : List HostedNode) : List HostedNode := cs.foldl (after ids) ns

/-- More calls are run on what the first ones left. -/
theorem runAll_append (cs cs' : List NodeCall) (d : Directory) :
    runAll ids (cs ++ cs') d =
      ((runAll ids cs d).1 ++ (runAll ids cs' (runAll ids cs d).2).1,
        (runAll ids cs' (runAll ids cs d).2).2) := by
  induction cs generalizing d with
  | nil => rfl
  | cons c cs ih => simp [runAll, ih]

end NodeCall

namespace Directory

open HostedNode (known ofGroup)
open NodeCall (after registered)

variable {ids : Nat → NodeId} {d : Directory} {ns : List HostedNode}

/-- Both tables tell of the same nodes. -/
structure Describes (ids : Nat → NodeId) (d : Directory) (ns : List HostedNode) : Prop where
  known : ∀ n ∈ ns, n = known ids n.mark
  nodup : ns.Nodup
  distinct : ∀ a ∈ ns, ∀ b ∈ ns, a.id.same b.id → a = b
  nodes : ∀ r, r ∈ d.nodes.rows ↔ ∃ n ∈ ns, r = (n.id, n)
  groups : ∀ g, d.groups.get? g = if ofGroup g ns = [] then none else some (ofGroup g ns)

namespace Describes

theorem empty : Describes ids {} [] where
  known := by simp
  nodup := .nil
  distinct := by simp
  nodes := by simp [Table.empty]
  groups := by simp [ofGroup]

section

variable (h : Describes ids d ns)
include h

/-! ### What is answered -/

/-- A node is found under every id that counts as its own. -/
theorem get?_eq_some_iff {id : NodeId} {n : HostedNode} :
    d.get? id = some n ↔ n ∈ ns ∧ n.id.same id := by
  rw [Directory.get?, Table.get?_eq_some_iff]
  constructor
  · rintro ⟨r, hr, hsame, rfl⟩
    obtain ⟨n, hn, rfl⟩ := (h.nodes r).1 hr
    exact ⟨hn, NodeId.sameKey_iff.1 hsame⟩
  · rintro ⟨hn, hsame⟩
    exact ⟨(n.id, n), (h.nodes _).2 ⟨n, hn, rfl⟩, NodeId.sameKey_iff.2 hsame, rfl⟩

theorem get?_eq_none_iff {id : NodeId} : d.get? id = none ↔ ∀ n ∈ ns, ¬ n.id.same id := by
  rw [Option.eq_none_iff_forall_ne_some]
  simp only [ne_eq, h.get?_eq_some_iff, not_and]

/-- A group is told in the order of registration. -/
theorem inGroup (g : String) : d.inGroup g = ofGroup g ns := by
  rw [Directory.inGroup, h.groups]
  split
  · next he => rw [he]; rfl
  · rfl

/-- A group that is kept has members. -/
theorem ne_nil_of_mem_rows {r : String × List HostedNode} (hr : r ∈ d.groups.rows) :
    r.2 = ofGroup r.1 ns ∧ r.2 ≠ [] := by
  have hget : d.groups.get? r.1 = some r.2 :=
    Table.get?_eq_some_iff.2 ⟨r, hr, SameKey.refl _, rfl⟩
  rw [h.groups] at hget
  split at hget
  · exact absurd hget (by simp)
  · next hne =>
    rw [← Option.some.inj hget]
    exact ⟨rfl, hne⟩

/-- All nodes are told in the order of their ids. -/
theorem pairwise_all : d.all.Pairwise fun a b => a.id < b.id := by
  rw [all, List.pairwise_map]
  refine d.nodes.ascending.imp_of_mem fun {r r'} hr hr' hlt => ?_
  obtain ⟨n, -, rfl⟩ := (h.nodes r).1 hr
  obtain ⟨n', -, rfl⟩ := (h.nodes r').1 hr'
  exact hlt

/-- All nodes that are told are those that are registered. -/
theorem perm_all : d.all.Perm ns := by
  have hall : d.all.Nodup := by
    refine h.pairwise_all.imp fun hlt he => ?_
    rw [he] at hlt
    exact RankedKeys.irrefl _ hlt
  refine (List.perm_ext_iff_of_nodup hall h.nodup).2 fun n => ?_
  rw [all, List.mem_map]
  constructor
  · rintro ⟨r, hr, rfl⟩
    obtain ⟨n, hn, rfl⟩ := (h.nodes r).1 hr
    exact hn
  · exact fun hn => ⟨(n.id, n), (h.nodes _).2 ⟨n, hn, rfl⟩, rfl⟩

omit h in
theorem length_all : d.all.length = d.size := by
  rw [all, List.length_map, size, Table.size]

/-! ### Calls -/

/-- A node is added if its id is free, and nothing is changed otherwise. -/
theorem add_eq (n : HostedNode) : d.add n =
    if ns.any (·.id.same n.id) then (false, d)
    else
      (true,
        { nodes := d.nodes.insert n.id n
          groups := d.groups.insert n.id.group (ofGroup n.id.group ns ++ [n]) }) := by
  have htaken : d.nodes.contains n.id = ns.any (·.id.same n.id) := by
    rw [Table.contains, Bool.eq_iff_iff, List.any_eq_true, Option.isSome_iff_exists]
    simp only [← Directory.get?.eq_1, h.get?_eq_some_iff]
  have hgroup : (d.groups.get? n.id.group).getD [] = ofGroup n.id.group ns := h.inGroup _
  rw [add, htaken, hgroup]

/-- A node is taken out if it is there with its own mark, and nothing is changed otherwise. -/
theorem remove_eq (mark : Nat) : d.remove (HostedNode.known ids mark) =
    if HostedNode.known ids mark ∈ ns then
      (true,
        { nodes := d.nodes.erase (ids mark)
          groups := withoutNode (HostedNode.known ids mark) d.groups })
    else (false, d) := by
  set n := HostedNode.known ids mark with hn
  rw [remove]
  -- nothing has the id, or a node that may be another one with the same id
  cases hget : d.nodes.get? n.id with
  | none =>
    have hnot : n ∉ ns := fun hmem => h.get?_eq_none_iff.1 hget n hmem (NodeId.same_refl _)
    rw [if_neg hnot]
  | some found =>
    obtain ⟨hmem, hsame⟩ := h.get?_eq_some_iff.1 hget
    by_cases hmark : found.mark = n.mark
    · have hfound : found = n := by
        rw [h.known found hmem, hmark]
        rfl
      rw [if_pos (hfound ▸ hmem)]
      exact if_neg (not_not_intro hmark)
    · have hnot : n ∉ ns :=
        fun hmem' => hmark (congrArg HostedNode.mark (h.distinct _ hmem _ hmem' hsame))
      rw [if_neg hnot]
      exact if_pos hmark

/-- The answer to adding tells whether the id was free. -/
theorem add_fst (n : HostedNode) : (d.add n).1 = !ns.any (·.id.same n.id) := by
  rw [h.add_eq]
  split
  · next htaken => rw [htaken]; rfl
  · next hfree => rw [Bool.not_eq_true] at hfree; rw [hfree]; rfl

/-- The answer to removing tells whether the node was there. -/
theorem remove_fst (mark : Nat) : (d.remove (HostedNode.known ids mark)).1 =
    decide (HostedNode.known ids mark ∈ ns) := by
  rw [h.remove_eq]
  split
  · next hmem => exact (decide_eq_true hmem).symm
  · next hnot => exact (decide_eq_false hnot).symm

/-- Marks tell the members of a group apart. -/
theorem filter_mark_ne (mark : Nat) (g : String) : (ofGroup g ns).filter (·.mark ≠ mark) =
    ofGroup g (ns.filter (· ≠ HostedNode.known ids mark)) := by
  rw [ofGroup, ofGroup, List.filter_filter, List.filter_filter]
  refine List.filter_congr fun m hm => ?_
  have hmark : m.mark = mark ↔ m = HostedNode.known ids mark := by
    refine ⟨fun he => ?_, fun he => congrArg HostedNode.mark he⟩
    rw [h.known m hm, he]
  simp only [ne_eq, hmark, Bool.and_comm]

omit h in
/-- A node is in no group but its own. -/
theorem ofGroup_filter_ne {n : HostedNode} {g : String} (hg : g ≠ n.id.group) :
    ofGroup g (ns.filter (· ≠ n)) = ofGroup g ns := by
  rw [ofGroup, ofGroup, List.filter_filter]
  refine List.filter_congr fun m _ => ?_
  by_cases hm : m.id.group = g
  · have hne : m ≠ n := fun he => hg (by rw [← hm, he])
    simp [hm, hne]
  · simp [hm]

/-- The group of a node without it. -/
theorem withoutNode_get? (mark : Nat) (g : String) :
    (withoutNode (HostedNode.known ids mark) d.groups).get? g =
      if ofGroup g (ns.filter (· ≠ HostedNode.known ids mark)) = [] then none
      else some (ofGroup g (ns.filter (· ≠ HostedNode.known ids mark))) := by
  set n := HostedNode.known ids mark with hn
  have hrest (g : String) : (ofGroup g ns).filter (·.mark ≠ n.mark) =
      ofGroup g (ns.filter (· ≠ n)) := h.filter_mark_ne mark g
  rw [withoutNode, h.groups]
  -- the group is not there, or loses its last node, or keeps some
  by_cases hempty : ofGroup n.id.group ns = []
  · rw [if_pos hempty]
    show d.groups.get? g = _
    by_cases hg : g = n.id.group
    · rw [h.groups, hg, ← hrest, hempty]
      rfl
    · rw [h.groups, ofGroup_filter_ne hg]
  · rw [if_neg hempty]
    simp only [hrest, List.isEmpty_iff]
    by_cases hnil : ofGroup n.id.group (ns.filter (· ≠ n)) = []
    · rw [if_pos hnil, Table.get?_erase]
      by_cases hg : g = n.id.group
      · rw [if_pos (Table.sameKey_string_iff.2 hg), hg, if_pos hnil]
      · rw [if_neg (mt Table.sameKey_string_iff.1 hg), h.groups, ofGroup_filter_ne hg]
    · rw [if_neg hnil, Table.get?_insert]
      by_cases hg : g = n.id.group
      · rw [if_pos (Table.sameKey_string_iff.2 hg), hg, if_neg hnil]
      · rw [if_neg (mt Table.sameKey_string_iff.1 hg), h.groups, ofGroup_filter_ne hg]

/-- A node whose id is free is put behind the others. -/
theorem added {n : HostedNode} (hn : n = HostedNode.known ids n.mark)
    (hfree : ∀ m ∈ ns, ¬ m.id.same n.id) :
    Describes ids
      { nodes := d.nodes.insert n.id n
        groups := d.groups.insert n.id.group (ofGroup n.id.group ns ++ [n]) } (ns ++ [n]) := by
  refine ⟨?_, ?_, ?_, ?_, ?_⟩
  · intro m hm
    rcases List.mem_append.1 hm with hm | hm
    · exact h.known m hm
    · rwa [List.mem_singleton.1 hm]
  · have hnot : n ∉ ns := fun hmem => hfree n hmem (NodeId.same_refl _)
    exact List.concat_eq_append ▸ h.nodup.concat hnot
  -- two old nodes, an old one and the new one, or the new one twice
  · intro a ha b hb hsame
    rcases List.mem_append.1 ha with ha | ha <;> rcases List.mem_append.1 hb with hb | hb
    · exact h.distinct a ha b hb hsame
    · exact absurd (List.mem_singleton.1 hb ▸ hsame) (hfree a ha)
    · exact absurd (List.mem_singleton.1 ha ▸ NodeId.same_symm hsame) (hfree b hb)
    · rw [List.mem_singleton.1 ha, List.mem_singleton.1 hb]
  · intro r
    rw [Table.mem_insert_of_get?_eq_none (h.get?_eq_none_iff.2 hfree), h.nodes]
    constructor
    · rintro (rfl | ⟨m, hm, rfl⟩)
      · exact ⟨n, List.mem_append_right _ (List.mem_singleton.2 rfl), rfl⟩
      · exact ⟨m, List.mem_append_left _ hm, rfl⟩
    · rintro ⟨m, hm, rfl⟩
      rcases List.mem_append.1 hm with hm | hm
      · exact .inr ⟨m, hm, rfl⟩
      · rw [List.mem_singleton.1 hm]
        exact .inl rfl
  · intro g
    have happend : ofGroup g (ns ++ [n]) = ofGroup g ns ++ ofGroup g [n] := List.filter_append ..
    rw [Table.get?_insert, happend]
    by_cases hg : g = n.id.group
    · have hone : ofGroup g [n] = [n] := List.filter_cons_of_pos (by simp [hg])
      rw [if_pos (Table.sameKey_string_iff.2 hg), hone, if_neg (by simp), hg]
    · have hnone : ofGroup g [n] = [] := List.filter_cons_of_neg (by simp [Ne.symm hg])
      rw [if_neg (mt Table.sameKey_string_iff.1 hg), hnone, List.append_nil, h.groups]

/-- A node that is registered is taken out. -/
theorem removed {mark : Nat} (hmem : HostedNode.known ids mark ∈ ns) :
    Describes ids
      { nodes := d.nodes.erase (ids mark)
        groups := withoutNode (HostedNode.known ids mark) d.groups }
      (ns.filter (· ≠ HostedNode.known ids mark)) := by
  set n := HostedNode.known ids mark with hn
  have hrest {m : HostedNode} : m ∈ ns.filter (· ≠ n) ↔ m ∈ ns ∧ m ≠ n := by
    rw [List.mem_filter, decide_eq_true_eq]
  refine ⟨?_, ?_, ?_, ?_, h.withoutNode_get? mark⟩
  · exact fun m hm => h.known m (hrest.1 hm).1
  · exact h.nodup.filter _
  · exact fun a ha b hb => h.distinct a (hrest.1 ha).1 b (hrest.1 hb).1
  · intro r
    rw [Table.mem_erase_iff, h.nodes, NodeId.sameKey_iff]
    constructor
    · rintro ⟨⟨m, hm, rfl⟩, hother⟩
      refine ⟨m, hrest.2 ⟨hm, ?_⟩, rfl⟩
      rintro rfl
      exact hother (NodeId.same_refl _)
    · rintro ⟨m, hm, rfl⟩
      obtain ⟨hm, hne⟩ := hrest.1 hm
      exact ⟨⟨m, hm, rfl⟩, fun hsame => hne (h.distinct _ hm _ hmem hsame)⟩

/-- A call leaves the directory with the nodes that are registered after it. -/
theorem step (c : NodeCall) : Describes ids (c.run ids d).2 (c.after ids ns) := by
  -- each call is taken or refused
  cases c with
  | add mark =>
    rw [NodeCall.run, h.add_eq, NodeCall.after]
    by_cases htaken : ns.any (·.id.same (ids mark))
    · rw [if_pos htaken]
      exact (if_pos htaken).symm ▸ h
    · rw [if_neg htaken]
      refine (if_neg htaken).symm ▸ h.added rfl fun m hm hsame => htaken ?_
      exact List.any_eq_true.2 ⟨m, hm, hsame⟩
  | remove mark =>
    rw [NodeCall.run, h.remove_eq, NodeCall.after]
    by_cases hmem : HostedNode.known ids mark ∈ ns
    · rw [if_pos hmem]
      exact h.removed hmem
    · have hall : ns.filter (· ≠ HostedNode.known ids mark) = ns := by
        refine List.filter_eq_self.2 fun m hm => decide_eq_true ?_
        rintro rfl
        exact hmem hm
      rw [if_neg hmem, hall]
      exact h

omit h in
/-- Any calls keep the description. -/
theorem run (h : Describes ids d ns) (cs : List NodeCall) :
    Describes ids (NodeCall.runAll ids cs d).2 (registered ids cs ns) := by
  induction cs generalizing d ns with
  | nil => exact h
  | cons c cs ih => exact ih (h.step c)

/-! ### Counting -/

/-- A call adds the node that it registers, and takes away the one that it removes. -/
theorem count_step (c : NodeCall) (mark : Nat) :
    (if (c, (c.run ids d).1) = (.add mark, true) then 1 else 0) +
        ns.count (HostedNode.known ids mark) =
      (if (c, (c.run ids d).1) = (.remove mark, true) then 1 else 0) +
        (c.after ids ns).count (HostedNode.known ids mark) := by
  -- only the node that the call is about can change its count
  cases c with
  | add mark' =>
    rw [NodeCall.run, h.add_fst, NodeCall.after]
    by_cases htaken : ns.any (·.id.same (ids mark'))
    · simp [HostedNode.known, htaken]
    · rw [if_neg htaken, List.count_append]
      by_cases hmark : mark = mark'
      · simp [HostedNode.known, htaken, hmark, Nat.add_comm]
      · simp [HostedNode.known, Ne.symm hmark]
  | remove mark' =>
    rw [NodeCall.run, h.remove_fst, NodeCall.after]
    by_cases hmark : mark = mark'
    · subst hmark
      have hnone : (ns.filter (· ≠ HostedNode.known ids mark)).count
          (HostedNode.known ids mark) = 0 := List.count_eq_zero.2 (by simp)
      rw [hnone]
      by_cases hmem : HostedNode.known ids mark ∈ ns
      · simp [hmem, List.count_eq_one_of_mem h.nodup hmem]
      · simp [hmem, List.count_eq_zero.2 hmem]
    · have hcount : (ns.filter (· ≠ HostedNode.known ids mark')).count
          (HostedNode.known ids mark) = ns.count (HostedNode.known ids mark) :=
        List.count_filter (by simp [HostedNode.known, hmark])
      rw [hcount]
      simp [Ne.symm hmark]

omit h in
/-- Nodes that were registered were added once more than they were removed. -/
theorem count_run (h : Describes ids d ns) (cs : List NodeCall) (mark : Nat) :
    (cs.zip (NodeCall.runAll ids cs d).1).count (.add mark, true) +
        ns.count (HostedNode.known ids mark) =
      (cs.zip (NodeCall.runAll ids cs d).1).count (.remove mark, true) +
        (registered ids cs ns).count (HostedNode.known ids mark) := by
  induction cs generalizing d ns with
  | nil => rfl
  | cons c cs ih =>
    have hc := h.count_step c mark
    have hcs := ih (h.step c)
    have hregistered : registered ids (c :: cs) ns = registered ids cs (c.after ids ns) := rfl
    simp only [NodeCall.runAll, List.zip_cons_cons, List.count_cons, hregistered, beq_iff_eq] at hcs ⊢
    omega

end

end Describes
end Directory

/-! ### Callers at the same time -/

/-- How far the call is that has its turn. -/
inductive Turn
  | free
  | entered (c : NodeCall)
  | copied (c : NodeCall) (copy : Directory)

/-- A directory that many callers share, and the calls that came to their end. -/
structure Desk where
  published : Directory := {}
  turn : Turn := .free
  history : List (NodeCall × Bool) := []

namespace Desk

open HostedNode (known ofGroup)
open NodeCall (registered)

variable {ids : Nat → NodeId} {s s' : Desk}

/-- Calls wait for their turn, and work on a copy; the others see what is published. -/
inductive Step (ids : Nat → NodeId) : Desk → Desk → Prop
  | enter {s : Desk} (c : NodeCall) (h : s.turn = .free) : Step ids s { s with turn := .entered c }
  | copy {s : Desk} {c : NodeCall} (h : s.turn = .entered c) :
    Step ids s { s with turn := .copied c s.published }
  | publish {s : Desk} {c : NodeCall} {copy : Directory} (h : s.turn = .copied c copy)
      (ha : (c.run ids copy).1 = true) :
    Step ids s
      { published := (c.run ids copy).2, turn := .free, history := s.history ++ [(c, true)] }
  | refuse {s : Desk} {c : NodeCall} {copy : Directory} (h : s.turn = .copied c copy)
      (ha : (c.run ids copy).1 = false) :
    Step ids s { s with turn := .free, history := s.history ++ [(c, false)] }

/-- What a desk may come to, from an empty directory on. -/
inductive Reachable (ids : Nat → NodeId) : Desk → Prop
  | start : Reachable ids {}
  | step {s s' : Desk} (h : Reachable ids s) (hs : Step ids s s') : Reachable ids s'

/-- The published directory is that of the calls one after another, and so is every copy. -/
structure Serial (ids : Nat → NodeId) (s : Desk) : Prop where
  history : NodeCall.runAll ids (s.history.map (·.1)) {} = (s.history.map (·.2), s.published)
  turn : ∀ c copy, s.turn = .copied c copy → copy = s.published

/-- A call that comes to its end is the last one. -/
theorem Serial.concat (h : Serial ids s) {c : NodeCall} {answer : Bool} {d : Directory}
    (hc : c.run ids s.published = (answer, d)) :
    Serial ids { published := d, turn := .free, history := s.history ++ [(c, answer)] } where
  history := by
    rw [List.map_append, List.map_append, NodeCall.runAll_append, h.history]
    simp [NodeCall.runAll, hc]
  turn := by simp

/-- Each step of a caller keeps the order that the history tells. -/
theorem Serial.step (h : Serial ids s) (hs : Step ids s s') : Serial ids s' := by
  cases hs with
  | enter c hturn => exact ⟨h.history, by simp⟩
  | copy hturn => exact ⟨h.history, by rintro _ _ ⟨⟩; rfl⟩
  | publish hturn ha =>
    obtain rfl := h.turn _ _ hturn
    exact h.concat (Prod.ext ha rfl)
  | refuse hturn ha =>
    obtain rfl := h.turn _ _ hturn
    exact h.concat (Prod.ext ha (NodeCall.run_of_refused ids ha))

/-- The published directory is always that of the calls in their order. -/
theorem Reachable.serial (h : Reachable ids s) : Serial ids s := by
  induction h with
  | start => exact ⟨rfl, by simp⟩
  | step _ hs ih => exact ih.step hs

/-- A call that has the desk for itself is made. -/
theorem Reachable.call (h : Reachable ids s) (hfree : s.turn = .free) (c : NodeCall) :
    Reachable ids
      { published := (c.run ids s.published).2
        turn := .free
        history := s.history ++ [(c, (c.run ids s.published).1)] } := by
  have hcopied : Reachable ids { s with turn := .copied c s.published } :=
    .step (.step h (.enter c hfree)) (.copy rfl)
  cases ha : (c.run ids s.published).1 with
  | true => exact .step hcopied (.publish rfl ha)
  | false =>
    rw [NodeCall.run_of_refused ids ha]
    exact .step hcopied (.refuse rfl ha)

end Desk

namespace Directory

open HostedNode (known ofGroup)
open NodeCall (registered)

/-- **A directory tells what was registered.**  After any calls on nodes whose ids do not change,
both tables tell of the registered nodes and no others: the members of a group in the order in
which they were registered, all nodes in the order of their ids.  A node is refused if its id is
taken, and taken out if it is the very one; calls that are refused change nothing.  Callers that
run at the same time are served one after another, and none of what they did is lost. -/
theorem tells_registered (ids : Nat → NodeId) :
    -- peers that differ in the role alone have the same id
    (∀ a b : NodeId, a.same b ↔ { a with peer := { a.peer with role := b.peer.role } } = b) ∧
    (∀ cs : List NodeCall,
      let d := (NodeCall.runAll ids cs {}).2
      let ns := registered ids cs []
      -- the table by id, and the one by group
      (∀ r, r ∈ d.nodes.rows ↔ ∃ n ∈ ns, r = (n.id, n)) ∧
      (∀ r, r ∈ d.groups.rows ↔ r.2 = ofGroup r.1 ns ∧ r.2 ≠ []) ∧
      -- what is answered
      (∀ g, d.inGroup g = ofGroup g ns ∧ (d.inGroup g).Nodup) ∧
      (∀ id n, d.get? id = some n ↔ n ∈ ns ∧ n.id.same id) ∧
      (d.all.Pairwise (·.id < ·.id) ∧ d.all.Perm ns ∧ d.all.length = d.size) ∧
      -- what the next call does
      (∀ mark, ((d.add (known ids mark)).1 = false ↔ ∃ n ∈ ns, n.id.same (ids mark)) ∧
        ((d.add (known ids mark)).1 = false → (d.add (known ids mark)).2 = d)) ∧
      (∀ mark, ((d.remove (known ids mark)).1 = true ↔ known ids mark ∈ ns) ∧
        ((d.remove (known ids mark)).1 = false → (d.remove (known ids mark)).2 = d))) ∧
    (∀ s, Desk.Reachable ids s →
      NodeCall.runAll ids (s.history.map (·.1)) {} = (s.history.map (·.2), s.published) ∧
      ∀ mark, s.history.count (.add mark, true) = s.history.count (.remove mark, true) +
        (registered ids (s.history.map (·.1)) []).count (known ids mark)) := by
  refine ⟨fun a b => NodeId.same_iff_role, ?_, ?_⟩
  · intro cs d ns
    have h : Describes ids d ns := Describes.empty.run cs
    refine ⟨h.nodes, ?_, ?_, fun id n => h.get?_eq_some_iff, ?_, ?_, ?_⟩
    · intro r
      refine ⟨h.ne_nil_of_mem_rows, ?_⟩
      rintro ⟨hr, hne⟩
      have hget : d.groups.get? r.1 = some r.2 := by
        rw [h.groups, ← hr, if_neg hne]
      obtain ⟨r', hr', hsame, hv⟩ := Table.get?_eq_some_iff.1 hget
      rwa [← Prod.ext (Table.sameKey_string_iff.1 hsame) hv]
    · intro g
      rw [h.inGroup]
      exact ⟨rfl, h.nodup.filter _⟩
    · exact ⟨h.pairwise_all, h.perm_all, Describes.length_all⟩
    · intro mark
      refine ⟨?_, NodeCall.run_of_refused ids (c := .add mark)⟩
      rw [h.add_fst, Bool.not_eq_false', List.any_eq_true]
      rfl
    · intro mark
      refine ⟨?_, NodeCall.run_of_refused ids (c := .remove mark)⟩
      rw [h.remove_fst, decide_eq_true_eq]
  · intro s hs
    have hserial := hs.serial.history
    refine ⟨hserial, fun mark => ?_⟩
    have hcount := (Describes.empty : Describes ids {} []).count_run (s.history.map (·.1)) mark
    rw [hserial, ← List.unzip_fst, ← List.unzip_snd, List.zip_unzip] at hcount
    simpa using hcount

/-- Two nodes of one group, and one that has the id of the first up to the role. -/
def someIds (mark : Nat) : NodeId :=
  { group := "g", peer := { ip := .v4 1 2 3 4, port := 80, idx := if mark = 2 then 1 else 0,
                            role := if mark = 1 then .witness else .replica } }

/-- The second node stands where the first was, which came back behind it. -/
theorem tells_registered_again :
    let calls : List NodeCall := [.add 0, .add 1, .add 2, .remove 1, .remove 0, .add 0]
    ∃ s, Desk.Reachable someIds s ∧ s.history.map (·.1) = calls ∧
      s.history.map (·.2) = [true, false, true, false, true, true] ∧
      s.published.inGroup "g" = [known someIds 2, known someIds 0] ∧
      s.history.count (.add 0, true) = 2 := by
  intro calls
  have h := ((((((Desk.Reachable.start : Desk.Reachable someIds {}).call rfl (.add 0)).call rfl
    (.add 1)).call rfl (.add 2)).call rfl (.remove 1)).call rfl (.remove 0)).call rfl (.add 0)
  obtain ⟨-, hcalls, hdesk⟩ := tells_registered someIds
  have hregistered : registered someIds calls [] = [known someIds 2, known someIds 0] := by decide
  obtain ⟨hserial, hcount⟩ := hdesk _ h
  refine ⟨_, h, rfl, by decide +kernel, ?_, ?_⟩
  · rw [← congrArg Prod.snd hserial]
    exact ((hcalls calls).2.2.1 "g").1.trans (by rw [hregistered]; decide)
  · rw [hcount 0]
    decide +kernel

end Directory
end RaftReplica
