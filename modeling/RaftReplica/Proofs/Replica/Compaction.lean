/-
RaftReplica/Proofs/Replica/Compaction.lean

What a node does with its log and its history once it has a snapshot.  The log starts behind the
snapshot, and the history keeps what the rest of the log tells, above the members that the snapshot
names (`Replica.runOn_compact`).

This is for a log on disk whose term at the snapshot's end is the snapshot's own, or which has no
entry there; a save always finds it so, because the log is the node's own.  The result keeps track of
the disk: only the directory of the log changes (`Outside`).  What compaction does to a log that came
from another leader is in the module on agreement.

The memberships that a log tells are in order, so those from an index on are told by the entries
from there on (`SegmentedLog.Mirrors.filter_memberships`).  With this the history of a node that was
restarted is compared with that of one that went on.

Members are read back from a snapshot only if their addresses are of the fourth version
(`Membership.IsV4`).  The members that a log tells are, if its entries can be stored, and so are
those that a snapshot can be saved with.
-/
import RaftReplica.Proofs.Json.Records
import RaftReplica.Proofs.Log.Outside
import RaftReplica.Replica.Basic

namespace RaftReplica

open Disk RaftReplica.Frame

/-! ### Members -/

/-- All members have addresses that are read. -/
def Membership.IsV4 (m : Membership) : Prop :=
  (∀ p ∈ m.peers.peers, p.ip.IsV4) ∧ ∀ p ∈ m.former.peers, p.ip.IsV4

namespace Membership

theorem isV4_initial : initial.IsV4 :=
  ⟨fun _ hp => absurd hp List.not_mem_nil, fun _ hp => absurd hp List.not_mem_nil⟩

/-- The members that a proper entry tells have such addresses. -/
theorem isV4_ofEntry {e : Entry} (h : e.Proper) : (ofEntry e).IsV4 := by
  have hread {ps : Option (List Peer)} (hps : ∀ xs, ps = some xs → ∀ p ∈ xs, p.ip.IsV4) :
      ∀ p ∈ (PeerSet.ofList (ps.getD [])).peers, p.ip.IsV4 := by
    intro p hp
    have hmem := PeerSet.mem_of_mem_ofList hp
    cases ps with
    | none => exact absurd hmem List.not_mem_nil
    | some xs => exact hps xs rfl p hmem
  exact ⟨hread h.peers, hread h.former⟩

end Membership

namespace SnapshotMeta

variable {info : SnapshotMeta} {m : Membership} {id : LogId}

theorem Proper.isV4 (h : info.Proper) : info.membership.IsV4 := ⟨h.peers, h.former⟩

theorem proper_ofMembership (hterm : id.term ≤ Numeral.max64) (hindex : id.index ≤ Numeral.max64)
    (hm : m.IsV4) : (ofMembership id m).Proper := ⟨hterm, hindex, hm.1, hm.2⟩

end SnapshotMeta

namespace MembershipHistory

variable {h : MembershipHistory}

/-- The members as of an index are those of some entry, or of the floor. -/
theorem get_cases (h : MembershipHistory) (i : Nat) : h.get i ∈ h.entries ∨ h.get i = h.floor := by
  rw [get]
  cases hfind : h.entries.reverse.find? (·.index ≤ i) with
  | none => exact .inr rfl
  | some m => exact .inl (List.mem_reverse.1 (List.mem_of_find?_eq_some hfind))

end MembershipHistory

/-! ### What a log tells -/

namespace SegmentedLog.Mirrors

variable {d : Disk} {home : Location} {l : SegmentedLog} {m : MemoryLog}

/-- The entries of a log are those of a row of frames. -/
theorem exists_row (h : Mirrors d home l m) :
    ∃ fs, Row m.first fs ∧ m.entries = fs.map Framed.entry := by
  obtain ⟨start, rows, h, -, rfl⟩ := h
  obtain ⟨hrow, hlen⟩ := h.holds.row h.chained
  have hstart := h.start_le
  have hfirst := h.first_le
  refine ⟨rows.flatten.drop (l.first - start), ?_, by rw [entriesFrom, List.map_drop]⟩
  rw [← List.take_append_drop (l.first - start) rows.flatten, row_append_iff, List.length_take,
    show start + min (l.first - start) rows.flatten.length = l.first by omega] at hrow
  exact hrow.2

/-- The memberships of a log are in the order of their indices. -/
theorem ascending (h : Mirrors d home l m) : Ascending (Segment.memberships m.entries) := by
  obtain ⟨fs, hrow, he⟩ := h.exists_row
  rw [he]
  exact (Segment.index_told hrow).2

/-- **The memberships above an index** are those that the entries above it tell. -/
theorem filter_memberships (h : Mirrors d home l m) (n : Nat) :
    (Segment.memberships m.entries).filter (n ≤ ·.index) =
      Segment.memberships (m.entries.drop (n - m.first)) := by
  obtain ⟨fs, hrow, he⟩ := h.exists_row
  rw [he]
  exact Segment.filter_told hrow n

end SegmentedLog.Mirrors

/-! ### Compaction -/

namespace Replica

variable {σ α : Type} {r : Replica σ} {info : SnapshotMeta} {t : Nat}

/-- What is done to the log leaves the other parts of a node as they are. -/
theorem runOn_onLog {x : Act (Mounted LogStore) α} {a : α} {l' : LogStore} {v' : Volume}
    (h : x.runOn ⟨r.log, r.volume⟩ = (.ok a, ⟨l', v'⟩)) :
    (onLog x).runOn r = (.ok a, { r with log := l', volume := v' }) := by
  rw [onLog, Act.runOn_zoom, h]

/-- The history starts at a snapshot that is not below its floor. -/
theorem runOn_setFloor (h : ¬ info.lastIncluded < r.history.floor.id) :
    (setHistory (·.setFloor info.membership)).runOn r = (.ok (), { r with
      history := ⟨r.history.entries.dropWhile (·.index ≤ info.lastIncluded.index),
        info.membership⟩ }) := by
  have hset : r.history.setFloor info.membership = .ok _ :=
    MembershipHistory.setFloor_eq_ok_iff.2 ⟨h, rfl⟩
  rw [setHistory, Act.runOn_bind_ok (Act.runOn_get r), hset]
  rfl

/-- **A log that fits a snapshot**, or tells no term where it reaches, is dropped up to it, and the
history starts there. -/
theorem runOn_compact_of_truncateBefore {l' : LogStore} {v' : Volume}
    (hterm : r.log.term info.lastIncluded.index = .ok t) (ht : t = 0 ∨ t = info.lastIncluded.term)
    (hrun : (LogStore.truncateBefore (info.lastIncluded.index + 1)).runOn ⟨r.log, r.volume⟩ =
      (.ok (), ⟨l', v'⟩))
    (hfloor : ¬ info.lastIncluded < r.history.floor.id) :
    (compact info).runOn r = (.ok (), { r with
      log := l'
      volume := v'
      history := ⟨r.history.entries.dropWhile (·.index ≤ info.lastIncluded.index),
        info.membership⟩ }) := by
  rw [compact, Act.runOn_bind_ok (Act.runOn_get r)]
  dsimp only
  rw [hterm]
  dsimp only
  rw [if_pos ht, Act.runOn_bind_ok (runOn_onLog hrun)]
  exact runOn_setFloor hfloor

/-- The same for a log on disk, of which nothing else on the disk changes. -/
theorem runOn_compact {home : Location} {l : SegmentedLog} {m : MemoryLog}
    (hlog : r.log = .segmented l) (hmirrors : SegmentedLog.Mirrors r.volume.disk home l m)
    (hrooted : Rooted r.volume.disk.item? home l.directory)
    (hterm : l.term info.lastIncluded.index = .ok t) (ht : t = 0 ∨ t = info.lastIncluded.term)
    (hmax : info.lastIncluded.index < Numeral.max64)
    (hfloor : ¬ info.lastIncluded < r.history.floor.id) : ∃ l' v',
    (compact info).runOn r = (.ok (), { r with
      log := .segmented l'
      volume := v'
      history := ⟨r.history.entries.dropWhile (·.index ≤ info.lastIncluded.index),
        info.membership⟩ }) ∧
    l'.directory = l.directory ∧
    SegmentedLog.Mirrors v'.disk home l' (m.truncateBefore (info.lastIncluded.index + 1)) ∧
    Outside r.volume.disk.item? home v'.disk := by
  obtain ⟨l', v', htruncate, hdir, hmirrors', -⟩ :=
    hmirrors.runOn_truncateBefore (show info.lastIncluded.index + 1 ≤ _ from hmax)
  have houtside := hmirrors.outside_truncateBefore hrooted (info.lastIncluded.index + 1)
  rw [htruncate] at houtside
  -- the log on disk is followed here, and the rest holds for any log
  refine ⟨l', v', ?_, hdir, hmirrors', houtside⟩
  refine runOn_compact_of_truncateBefore (by rw [hlog]; exact hterm) ht ?_ hfloor
  rw [LogStore.truncateBefore, LogStore.within, Act.runOn_ofStep, hlog]
  dsimp only
  rw [htruncate]

end Replica
end RaftReplica
