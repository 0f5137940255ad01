/-
RaftReplica/Proofs/Replica/Agreement.lean

A log and a history that agree: above the floor, from where the log starts, the history stores what
the memberships in the log tell, and nothing else (`Replica.Agrees`).  Dropping the log up to a
snapshot keeps them in agreement, whether the log fits the snapshot, or is behind it, or comes from
another leader and is emptied (`Replica.compact_agrees`).

All that counts of a log is which entries it holds, in memory or on disk; that is `LogStore.Holds`.
The calls that compaction makes are stated for a log that holds something, once for both kinds of
logs (`Holds.runOn_truncateBefore`, `Holds.runOn_reset`), and nothing below asks which kind it is.

Compaction has two ways, by the term that the log tells where the snapshot ends:

* no term or the snapshot's: the log drops its front (`runOn_compact_fitting`).  No term means that
  the log has no such entry, as one that is behind the snapshot or starts above it;
* another term: the log is emptied and the history cut back (`runOn_compact_diverging`).

In both ways the floor is moved up to the snapshot at the end, which drops what the history has up
to there.  So what is left of the history is what it stored above the floor (`Agrees.above`), or
nothing (`dropWhile_truncateAfter`, `agrees_of_nil`).

That a log which was opened agrees with its history is `agrees_of_memberships`, and the result for
all logs that calls lead to is `exists_compacted_of_reachable`.
-/
import RaftReplica.Proofs.Log.Reachable
import RaftReplica.Proofs.Log.Refinement
import RaftReplica.Proofs.Replica.Compaction

namespace RaftReplica

open Disk

/-! ### Dropping the front of a log -/

namespace MemoryLog

variable (m : MemoryLog) (kept i : Nat)

/-- A log that drops its front has the entries from there on. -/
theorem get_truncateBefore :
    (m.truncateBefore kept).get i = if i < kept then none else m.get i := by
  unfold truncateBefore
  -- split as the log does: nothing to drop, or something
  split
  · next hle =>
    by_cases hi : i < kept
    · rw [if_pos hi, MemoryLog.get, if_neg (by omega)]
    · rw [if_neg hi]
  · next hlt =>
    by_cases hi : i < kept
    · rw [if_pos hi, MemoryLog.get, if_neg (show ¬ kept ≤ i by omega)]
    · rw [if_neg hi, MemoryLog.get, MemoryLog.get, if_pos (show kept ≤ i by omega),
        if_pos (by omega), List.getElem?_drop, show kept - m.first + (i - kept) = i - m.first by omega]

/-- It starts there, unless it starts later anyway. -/
theorem first_truncateBefore : (m.truncateBefore kept).first = max m.first kept := by
  unfold truncateBefore
  split
  · next hle => exact (Nat.max_eq_left hle).symm
  · next hlt => exact (Nat.max_eq_right (Nat.le_of_lt (Nat.not_le.1 hlt))).symm

/-- Where the log ended before what is kept, nothing is left. -/
theorem truncateBefore_behind (h : m.last < kept) : m.truncateBefore kept = ⟨kept, []⟩ := by
  unfold MemoryLog.last at h
  unfold truncateBefore
  split
  · next hle =>
    obtain ⟨first, entries⟩ := m
    dsimp only at h hle
    obtain rfl : entries = [] := List.length_eq_zero_iff.1 (by omega)
    obtain rfl : kept = first := by simp only [List.length_nil] at h; omega
    rfl
  · rw [List.drop_eq_nil_of_le (by omega)]

end MemoryLog

/-! ### What a log holds -/

namespace LogStore

variable {l : LogStore} {d : Disk} {v : Volume} {m : MemoryLog}

/-- The log holds the entries of `m`, and it is `m` or it mirrors it on disk. -/
def Holds (l : LogStore) (d : Disk) (m : MemoryLog) : Prop :=
  match l with
  | memory l => l = m
  | segmented l => ∃ home, SegmentedLog.Mirrors d home l m

/-- Any log in memory, or a log on disk that calls lead to, however the process stopped before. -/
def Reachable (l : LogStore) (d : Disk) : Prop :=
  match l with
  | memory _ => True
  | segmented l => SegmentedLog.Reachable l.directory (some l) d

/-- A log that calls lead to holds some entries. -/
theorem Reachable.holds (h : l.Reachable d) : ∃ m, l.Holds d m := by
  cases l with
  | memory l => exact ⟨l, rfl⟩
  | segmented l =>
    obtain ⟨-, home, m, hmirrors⟩ := h.sound
    exact ⟨m, home, hmirrors⟩

namespace Holds

/-- It shows what a memory with these entries shows. -/
theorem view_eq (h : l.Holds d m) (d' : Disk) : l.view d = (memory m).view d' := by
  cases l with
  | memory l =>
    obtain rfl : l = m := h
    rfl
  | segmented l =>
    obtain ⟨home, hmirrors⟩ := h
    exact hmirrors.view_eq

theorem get (h : l.Holds d m) (i : Nat) : l.get i d = .ok (m.get i) :=
  congrArg (fun view => view.entry i) (h.view_eq d)

theorem term (h : l.Holds d m) (i : Nat) : l.term i = .ok (((m.get i).map Entry.term).getD 0) :=
  congrArg (fun view => view.term i) (h.view_eq d)

theorem first (h : l.Holds d m) : l.first = m.first := congrArg View.first (h.view_eq d)

theorem last (h : l.Holds d m) : l.last = m.last := congrArg View.last (h.view_eq d)

theorem isEmpty_of_nil {n : Nat} (h : l.Holds d ⟨n + 1, []⟩) : l.isEmpty = true := by
  rw [LogStore.isEmpty, h.first, h.last]
  exact decide_eq_true (Nat.lt_succ_self n)

/-- Dropping the front of a log succeeds, and it holds the rest. -/
theorem runOn_truncateBefore (h : l.Holds v.disk m) {kept : Nat} (hkept : kept ≤ Numeral.max64) :
    ∃ l' v', (LogStore.truncateBefore kept).runOn ⟨l, v⟩ = (.ok (), ⟨l', v'⟩) ∧
      l'.Holds v'.disk (m.truncateBefore kept) := by
  -- in memory nothing can fail, and on disk the log mirrors what it holds
  cases l with
  | memory l =>
    obtain rfl : l = m := h
    exact ⟨_, v, rfl, rfl⟩
  | segmented l =>
    obtain ⟨home, hmirrors⟩ := h
    obtain ⟨l', v', hrun, -, hmirrors', -⟩ := hmirrors.runOn_truncateBefore hkept
    refine ⟨.segmented l', v', ?_, home, hmirrors'⟩
    rw [LogStore.truncateBefore, within, Act.runOn_ofStep]
    dsimp only
    rw [hrun]

/-- Emptying a log succeeds, and it starts at the index that was asked for. -/
theorem runOn_reset (h : l.Holds v.disk m) {next : Nat} (hpos : next ≠ 0)
    (hnext : next ≤ Numeral.max64) :
    ∃ l' v', (LogStore.reset next).runOn ⟨l, v⟩ = (.ok (), ⟨l', v'⟩) ∧
      l'.Holds v'.disk ⟨next, []⟩ := by
  cases l with
  | memory l =>
    refine ⟨.memory ⟨next, []⟩, v, ?_, rfl⟩
    rw [LogStore.reset, within, Act.runOn_ofStep]
    dsimp only
    rw [MemoryLog.reset, if_neg hpos]
    rfl
  | segmented l =>
    obtain ⟨home, hmirrors⟩ := h
    obtain ⟨l', v', hrun, -, hmirrors', -⟩ := hmirrors.runOn_reset hpos hnext
    refine ⟨.segmented l', v', ?_, home, hmirrors'⟩
    rw [LogStore.reset, within, Act.runOn_ofStep]
    dsimp only
    rw [hrun]

end Holds
end LogStore

namespace Replica

variable {σ : Type} {r r' : Replica σ} {info : SnapshotMeta} {m : MemoryLog}

/-! ### Compaction -/

section

variable (hlog : r.log.Holds r.volume.disk m)
  (hmax : info.lastIncluded.index < Numeral.max64)
  (hfloor : ¬ info.lastIncluded < r.history.floor.id)

include hlog hmax hfloor

/-- A log that fits the snapshot, or is not there where it ends, is dropped up to it. -/
theorem runOn_compact_fitting {t : Nat} (hterm : r.log.term info.lastIncluded.index = .ok t)
    (ht : t = 0 ∨ t = info.lastIncluded.term) :
    ∃ l' v', (compact info).runOn r = (.ok (), { r with
        log := l', volume := v'
        history := ⟨r.history.entries.dropWhile (·.index ≤ info.lastIncluded.index),
          info.membership⟩ }) ∧
      l'.Holds v'.disk (m.truncateBefore (info.lastIncluded.index + 1)) := by
  obtain ⟨l', v', hrun, hholds⟩ :=
    hlog.runOn_truncateBefore (show info.lastIncluded.index + 1 ≤ _ from hmax)
  exact ⟨l', v', runOn_compact_of_truncateBefore hterm ht hrun hfloor, hholds⟩

/-- A log that has another term where the snapshot ends is emptied, and of the history what is not
above the snapshot is left, without what is below. -/
theorem runOn_compact_diverging {t : Nat} (hterm : r.log.term info.lastIncluded.index = .ok t)
    (hzero : t ≠ 0) (ht : t ≠ info.lastIncluded.term) :
    ∃ l' v', (compact info).runOn r = (.ok (), { r with
        log := l', volume := v'
        history := ⟨(r.history.truncateAfter info.lastIncluded.index).entries.dropWhile
          (·.index ≤ info.lastIncluded.index), info.membership⟩ }) ∧
      l'.Holds v'.disk ⟨info.lastIncluded.index + 1, []⟩ := by
  obtain ⟨l', v', hrun, hholds⟩ :=
    hlog.runOn_reset (Nat.succ_ne_zero _) (show info.lastIncluded.index + 1 ≤ _ from hmax)
  refine ⟨l', v', ?_, hholds⟩
  -- the history is cut back first, and then the floor is moved
  let cut : Replica σ := { r with
    log := l', volume := v'
    history := r.history.truncateAfter info.lastIncluded.index }
  have hcut : (setHistory fun h => .ok (h.truncateAfter info.lastIncluded.index)).runOn
      { r with log := l', volume := v' } = (.ok (), cut) := rfl
  rw [compact, Act.runOn_bind_ok (Act.runOn_get r)]
  dsimp only
  rw [hterm]
  dsimp only
  rw [if_neg (by simp [hzero, ht]), Act.runOn_bind_ok (runOn_onLog hrun),
    Act.runOn_bind_ok hcut]
  exact runOn_setFloor (r := cut) hfloor

/-- **Compaction has a result** where the snapshot is not below the floor. -/
theorem exists_runOn_compact : ∃ r', (compact info).runOn r = (.ok (), r') := by
  obtain ⟨t, hterm⟩ : ∃ t, r.log.term info.lastIncluded.index = .ok t := ⟨_, hlog.term _⟩
  by_cases ht : t = 0 ∨ t = info.lastIncluded.term
  · obtain ⟨l', v', hrun, -⟩ := runOn_compact_fitting hlog hmax hfloor hterm ht
    exact ⟨_, hrun⟩
  · obtain ⟨hzero, hne⟩ := not_or.1 ht
    obtain ⟨l', v', hrun, -⟩ := runOn_compact_diverging hlog hmax hfloor hterm hzero hne
    exact ⟨_, hrun⟩

end

/-! ### Agreement -/

/-- From the log's start on, above the floor, the history stores exactly the memberships that the
entries of the log describe. -/
def Agrees (r : Replica σ) : Prop :=
  ∀ i, r.log.first ≤ i → r.history.floor.index < i → ∀ x : Membership,
    x ∈ r.history.entries ∧ x.index = i ↔
      ∃ e, r.log.get i r.volume.disk = .ok (some e) ∧ e.isMembership = true ∧ x = .ofEntry e

/-- Nothing agrees with an empty log but a history that stores nothing. -/
theorem agrees_of_nil (hnone : ∀ i, r.log.get i r.volume.disk = .ok none)
    (hhistory : r.history.entries = []) : r.Agrees := by
  intro i _ _ x
  rw [hhistory, hnone]
  simp

/-- A history that was told the memberships of a log agrees with it, as after the log was opened. -/
theorem agrees_of_memberships (hlog : r.log.Holds r.volume.disk m)
    (hindex : ∀ k e, m.entries[k]? = some e → e.index = m.first + k)
    (htold : r.history.entries.filter (m.first ≤ ·.index) = Segment.memberships m.entries) :
    r.Agrees := by
  intro i hi _ x
  rw [hlog.first] at hi
  -- the entries are in a row, so the one at an index is the one with that index
  have hget (e : Entry) : r.log.get i r.volume.disk = .ok (some e) ↔ e ∈ m.entries ∧ e.index = i := by
    rw [hlog.get, Except.ok.injEq, MemoryLog.get, if_pos hi, List.mem_iff_getElem?]
    constructor
    · intro he
      exact ⟨⟨_, he⟩, by rw [hindex _ e he]; omega⟩
    · rintro ⟨⟨k, he⟩, rfl⟩
      rwa [hindex k e he, Nat.add_sub_cancel_left]
  -- below the log's start the history may store more, which is of no concern here
  have hmem : x ∈ r.history.entries ∧ x.index = i ↔
      x ∈ Segment.memberships m.entries ∧ x.index = i := by
    rw [← htold, List.mem_filter, decide_eq_true_eq]
    constructor
    · rintro ⟨hx, rfl⟩
      exact ⟨⟨hx, hi⟩, rfl⟩
    · rintro ⟨⟨hx, -⟩, rfl⟩
      exact ⟨hx, rfl⟩
  rw [hmem, Segment.memberships, List.mem_map]
  constructor
  · rintro ⟨⟨e, he, rfl⟩, hx⟩
    obtain ⟨he, hkind⟩ := List.mem_filter.1 he
    exact ⟨e, (hget e).2 ⟨he, hx⟩, hkind, rfl⟩
  · rintro ⟨e, he, hkind, rfl⟩
    obtain ⟨he, hx⟩ := (hget e).1 he
    exact ⟨⟨e, List.mem_filter.2 ⟨he, hkind⟩, rfl⟩, hx⟩

/-- Of a history that was cut at a position nothing is above it. -/
theorem dropWhile_truncateAfter {h : MembershipHistory} (hasc : Ascending h.entries) (n : Nat) :
    (h.truncateAfter n).entries.dropWhile (·.index ≤ n) = [] := by
  rw [MembershipHistory.truncateAfter, hasc.reverse_dropWhile_reverse]
  exact List.dropWhile_eq_nil_iff.2 fun x hx => (List.mem_filter.1 hx).2

/-- What is above a snapshot agrees if all did. -/
theorem Agrees.above (h : r.Agrees) {n : Nat} (hasc : Ascending r.history.entries)
    (hfloor : r.history.floor.index ≤ n) (hfirst : r'.log.first = max r.log.first (n + 1))
    (hget : ∀ i, r'.log.get i r'.volume.disk = if i ≤ n then .ok none else
      r.log.get i r.volume.disk)
    (hhistory : r'.history.entries = r.history.entries.dropWhile (·.index ≤ n)) : r'.Agrees := by
  intro i hi _ x
  rw [hfirst] at hi
  rw [hget, if_neg (by omega), ← h i (by omega) (by omega) x, hhistory, hasc.dropWhile_eq,
    List.mem_filter, decide_eq_true_eq]
  constructor
  · rintro ⟨⟨hx, -⟩, rfl⟩
    exact ⟨hx, rfl⟩
  · rintro ⟨hx, rfl⟩
    exact ⟨⟨hx, by omega⟩, rfl⟩

/-- What a compaction up to the snapshot leaves of the node `r`, whose log told the term `t` for the
snapshot's end: the log and the history agree, and start there. -/
structure Compacted (info : SnapshotMeta) (t : Nat) (r r' : Replica σ) : Prop where
  agrees : r'.Agrees
  floor : r'.history.floor = info.membership
  above : ∀ x ∈ r'.history.entries, info.lastIncluded.index < x.index
  fitting : t = 0 ∨ t = info.lastIncluded.term →
    (∀ i, r'.log.get i r'.volume.disk =
      if i ≤ info.lastIncluded.index then .ok none else r.log.get i r.volume.disk) ∧
    r'.log.first = max r.log.first (info.lastIncluded.index + 1) ∧
    (r.log.last ≤ info.lastIncluded.index →
      r'.log.first = info.lastIncluded.index + 1 ∧ r'.log.isEmpty = true)
  diverging : t ≠ 0 → t ≠ info.lastIncluded.term →
    r'.log.first = info.lastIncluded.index + 1 ∧ r'.log.isEmpty = true ∧ r'.history.entries = []

/-- A compaction has a result, and leaves that. -/
theorem exists_compacted (hlog : r.log.Holds r.volume.disk m) (hhistory : r.history.Reachable)
    (hagrees : r.Agrees) (hfloor : ¬ info.lastIncluded < r.history.floor.id)
    (hmax : info.lastIncluded.index < Numeral.max64) :
    ∃ t r', r.log.term info.lastIncluded.index = .ok t ∧ (compact info).runOn r = (.ok (), r') ∧
      Compacted info t r r' := by
  have hasc := hhistory.ascending
  have hfloorIndex : r.history.floor.index ≤ info.lastIncluded.index := by
    simp only [LogId.lt_iff] at hfloor
    show r.history.floor.id.index ≤ info.lastIncluded.index
    omega
  obtain ⟨t, hterm⟩ : ∃ t, r.log.term info.lastIncluded.index = .ok t := ⟨_, hlog.term _⟩
  -- by the term at the end of the snapshot
  by_cases ht : t = 0 ∨ t = info.lastIncluded.term
  · obtain ⟨l', v', hrun, hholds'⟩ := runOn_compact_fitting hlog hmax hfloor hterm ht
    have hget (i : Nat) : l'.get i v'.disk =
        if i ≤ info.lastIncluded.index then .ok none else r.log.get i r.volume.disk := by
      rw [hholds'.get, hlog.get, MemoryLog.get_truncateBefore]
      simp only [Nat.lt_succ_iff]
      split <;> rfl
    have hfirst : l'.first = max r.log.first (info.lastIncluded.index + 1) := by
      rw [hholds'.first, hlog.first, MemoryLog.first_truncateBefore]
    refine ⟨t, _, hterm, hrun, hagrees.above hasc hfloorIndex hfirst hget rfl, rfl, ?_,
      fun _ => ⟨hget, hfirst, fun hle => ?_⟩, ?_⟩
    · intro x hx
      rw [hasc.dropWhile_eq] at hx
      exact of_decide_eq_true (List.mem_filter.1 hx).2
    · rw [hlog.last] at hle
      -- a log that ends at the snapshot or before loses all of its entries
      have hempty : m.truncateBefore (info.lastIncluded.index + 1) = ⟨_, []⟩ :=
        m.truncateBefore_behind _ (Nat.lt_succ_of_le hle)
      rw [hempty] at hholds'
      exact ⟨hholds'.first, hholds'.isEmpty_of_nil⟩
    · intro hzero hne
      exact absurd ht (by simp [hzero, hne])
  · obtain ⟨hzero, hne⟩ := not_or.1 ht
    obtain ⟨l', v', hrun, hholds'⟩ := runOn_compact_diverging hlog hmax hfloor hterm hzero hne
    rw [dropWhile_truncateAfter hasc] at hrun
    have hnone (i : Nat) : l'.get i v'.disk = .ok none := by
      rw [hholds'.get]
      simp [MemoryLog.get]
    exact ⟨t, _, hterm, hrun, agrees_of_nil hnone rfl, rfl, by simp, fun h => absurd h ht,
      fun _ _ => ⟨hholds'.first, hholds'.isEmpty_of_nil, rfl⟩⟩

/-- **Whatever calls led to the log**, and however the process stopped before, a compaction leaves
the log and the history in agreement. -/
theorem exists_compacted_of_reachable (hlog : r.log.Reachable r.volume.disk)
    (hhistory : r.history.Reachable) (hagrees : r.Agrees)
    (hfloor : ¬ info.lastIncluded < r.history.floor.id)
    (hmax : info.lastIncluded.index < Numeral.max64) :
    ∃ t r', r.log.term info.lastIncluded.index = .ok t ∧ (compact info).runOn r = (.ok (), r') ∧
      Compacted info t r r' := by
  obtain ⟨m, hholds⟩ := hlog.holds
  exact exists_compacted hholds hhistory hagrees hfloor hmax

/-- **Compaction keeps the log and the history in agreement.**  A node drops the log up to a snapshot
that is not below the floor.  The log is any one in memory, or one on disk that mirrors some, as all
do that calls lead to (`exists_compacted_of_reachable`); it agrees with the history.  That has a result,
they agree again, and the floor is what the snapshot tells, with everything in the history above it.

If the log told the snapshot's term where it ends, or none at all, its entries above the snapshot
are left, as they were; otherwise the log is empty and begins behind the snapshot, and the history
stores nothing. -/
theorem compact_agrees (hlog : r.log.Holds r.volume.disk m) (hhistory : r.history.Reachable)
    (hagrees : r.Agrees) (hfloor : ¬ info.lastIncluded < r.history.floor.id)
    (hmax : info.lastIncluded.index < Numeral.max64) :
    let id := info.lastIncluded
    ∃ t r', r.log.term id.index = .ok t ∧ (compact info).runOn r = (.ok (), r') ∧ r'.Agrees ∧
      r'.history.floor = info.membership ∧ (∀ x ∈ r'.history.entries, id.index < x.index) ∧
      (t = 0 ∨ t = id.term →
        (∀ i, r'.log.get i r'.volume.disk =
          if i ≤ id.index then .ok none else r.log.get i r.volume.disk) ∧
        r'.log.first = max r.log.first (id.index + 1) ∧
        (r.log.last ≤ id.index → r'.log.first = id.index + 1 ∧ r'.log.isEmpty = true)) ∧
      (t ≠ 0 → t ≠ id.term →
        r'.log.first = id.index + 1 ∧ r'.log.isEmpty = true ∧ r'.history.entries = []) := by
  intro id
  obtain ⟨t, r', hterm, hrun, hcompacted⟩ := exists_compacted hlog hhistory hagrees hfloor hmax
  exact ⟨t, r', hterm, hrun, hcompacted.agrees, hcompacted.floor, hcompacted.above,
    hcompacted.fitting, hcompacted.diverging⟩

/-- Two memberships with an entry between them. -/
def grouped : Replica Unit where
  volume := .ofDisk .empty
  machine := ()
  snapshots := { directory := .ofText "snapshot", sync := true }
  log := .memory { first := 1, entries := [.ofPeers 1 1 [] none, .noOp 1 2, .ofPeers 2 3 [] none] }
  history := (MembershipHistory.empty.after (.add (.ofEntry (.ofPeers 1 1 [] none)))).after
    (.add (.ofEntry (.ofPeers 2 3 [] none)))

/-- The history was told of both memberships that are in the log. -/
theorem agrees_grouped : grouped.Agrees := by
  refine agrees_of_memberships (m := ⟨1, _⟩) rfl (fun k e he => ?_) (by decide)
  match k, he with
  | 0, rfl => rfl
  | 1, rfl => rfl
  | 2, rfl => rfl

/-- Both ways of compaction, in a log of three entries.  A snapshot of the same term leaves the third
entry, and one of another term nothing. -/
theorem compact_agrees_grouped :
    let upTo (term : Nat) := (compact ⟨⟨term, 2⟩, .empty, .empty⟩).runOn grouped
    (∃ r', upTo 1 = (.ok (), r') ∧ r'.Agrees ∧ r'.log.first = 3 ∧
      r'.log.get 3 r'.volume.disk = .ok (some (.ofPeers 2 3 [] none))) ∧
    ∃ r', upTo 2 = (.ok (), r') ∧ r'.Agrees ∧ r'.log.first = 3 ∧ r'.log.isEmpty = true ∧
      r'.history.entries = [] := by
  intro upTo
  have hlog : grouped.log.Holds grouped.volume.disk ⟨1, _⟩ := rfl
  have hhistory : grouped.history.Reachable :=
    .change (.add (.ofEntry (.ofPeers 2 3 [] none)))
      (.change (.add (.ofEntry (.ofPeers 1 1 [] none))) .new)
  constructor
  · obtain ⟨t, r', hterm, hrun, hagrees, -, -, hfits, -⟩ :=
      compact_agrees hlog hhistory agrees_grouped
        (show ¬ (⟨⟨1, 2⟩, .empty, .empty⟩ : SnapshotMeta).lastIncluded < _ by decide) (by decide)
    obtain rfl : 1 = t := Except.ok.inj hterm
    obtain ⟨hget, hfirst, -⟩ := hfits (.inr rfl)
    exact ⟨r', hrun, hagrees, hfirst, hget 3⟩
  · obtain ⟨t, r', hterm, hrun, hagrees, -, -, -, hdiverges⟩ :=
      compact_agrees hlog hhistory agrees_grouped
        (show ¬ (⟨⟨2, 2⟩, .empty, .empty⟩ : SnapshotMeta).lastIncluded < _ by decide) (by decide)
    obtain rfl : 1 = t := Except.ok.inj hterm
    obtain ⟨hfirst, hempty, hnone⟩ := hdiverges (by decide) (by decide)
    exact ⟨r', hrun, hagrees, hfirst, hempty, hnone⟩

end Replica
end RaftReplica
