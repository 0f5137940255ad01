/-
RaftReplica/Proofs/Replica/Settled.lean

A node between two calls.  Its log starts behind its latest snapshot, and its history is what the two
tell: above the snapshot the memberships that the log tells, and at the floor the members that the
snapshot names (`Settled`).

Entries that are appended are told to the history, those that the log took (`Replica.enter`).  The
log may take fewer than were given, and how many is read off its range before and after; the history
hears of exactly these.

A settled node stays settled

* when the machine works, and does not write into the two directories (`Settled.work`);
* when something happens to the disk elsewhere (`Settled.elsewhere`);
* when entries come in (`Settled.enter`);
* when a new snapshot is there and the log is dropped up to it (`Settled.compact`), for a position
  that is in the log.

`base` is the disk as it was when the stores were opened, and `home` and `den` are the directories
of the log and of the snapshots on it; `mem` is what the log holds and `latest` the latest snapshot.
-/
import RaftReplica.Proofs.Replica.Compaction
import RaftReplica.Proofs.Storages

namespace RaftReplica

open Disk

/-- An entry that is found is in the log, not below its start. -/
theorem MemoryLog.mem_of_get {m : MemoryLog} {i : Nat} {e : Entry} (h : m.get i = some e) :
    m.first ≤ i ∧ e ∈ m.entries := by
  rw [get] at h
  split at h
  · next hle => exact ⟨hle, List.mem_of_getElem? h⟩
  · exact absurd h (by simp)

namespace Replica

open SnapshotStore (reach)

variable {σ α : Type}

/-! ### Entries and the history -/

/-- An action on the history. -/
def onHistory (x : Act (Mounted MembershipHistory) α) : Act (Replica σ) α :=
  x.zoom (fun r => ⟨r.history, r.volume⟩) fun r m => { r with history := m.store, volume := m.volume }

/-- Appends entries, and tells the history the memberships among those that were appended. -/
def enter (es : List Entry) : Act (Replica σ) Unit := do
  let before := (← get).log.last
  (onLog (LogStore.append es)).ignore
  let after := (← get).log.last
  onHistory (Segment.tell (Segment.memberships (es.take (after - before))))

/-! ### The state between two calls -/

variable {base : Disk} {v : Volume} {home den : Location} {pl : Storages.Places} {r r' : Replica σ}
  {s : SnapshotStore} {mem : MemoryLog} {latest : Option SnapshotMeta} {info : SnapshotMeta}
  {es : List Entry} {e : Entry}

/-- The membership that the floor of the history is, once the log is compacted to the snapshot. -/
def floorOf (latest : Option SnapshotMeta) : Membership :=
  (latest.map SnapshotMeta.membership).getD .initial

theorem id_floorOf (latest : Option SnapshotMeta) : (floorOf latest).id = reach latest := by
  cases latest <;> rfl

/-- The node has the log `mem`, which starts behind its latest snapshot, and its history is what the
snapshot and the log tell. -/
structure Settled (base : Disk) (home den : Location) (pl : Storages.Places) (r : Replica σ)
    (mem : MemoryLog) (latest : Option SnapshotMeta) : Prop where
  kept : pl.Kept base home den r.volume.disk
  hold : Storages.Hold pl r.volume.disk home den r.log r.snapshots mem latest
  first : mem.first = (reach latest).index + 1
  bounded : (reach latest).index < Numeral.max64
  proper : ∀ e ∈ mem.entries, e.Proper
  history : r.history = ⟨Segment.memberships mem.entries, floorOf latest⟩
  last : r.snapshotter.last = reach latest

namespace Settled

/-- What is seen of a node is what it has settled to. -/
theorem same (h : Settled base home den pl r mem latest)
    (h' : Settled base home den pl r' mem latest) :
    r'.snapshotter.last = r.snapshotter.last ∧
      r'.log.view r'.volume.disk = r.log.view r.volume.disk ∧ r'.history = r.history :=
  ⟨h'.last.trans h.last.symm, h'.hold.view_eq.trans h.hold.view_eq.symm, h'.history.trans h.history.symm⟩

/-- Only the latest snapshot counts of what the node knows about its snapshots. -/
theorem aside (h : Settled base home den pl r mem latest) {s : Snapshotter}
    (hs : s.last = r.snapshotter.last) :
    Settled base home den pl { r with snapshotter := s } mem latest :=
  ⟨h.kept, h.hold, h.first, h.bounded, h.proper, h.history, hs.trans h.last⟩

/-- The state of the machine does not count, nor what happens elsewhere on the disk. -/
theorem elsewhere (h : Settled base home den pl r mem latest)
    (hapart : Apart base home den pl.log pl.snapshots) (x : σ)
    (hk : pl.Kept base home den v.disk)
    (hlog : ∀ m, Below home m → v.disk.item? m = r.volume.disk.item? m)
    (hsnapshots : ∀ m, Below den m → v.disk.item? m = r.volume.disk.item? m) :
    Settled base home den pl { r with machine := x, volume := v } mem latest :=
  ⟨hk, h.hold.elsewhere hapart hk hlog hsnapshots, h.first, h.bounded, h.proper, h.history, h.last⟩

/-- The machine may work, as long as it leaves the stores alone. -/
theorem work (h : Settled base home den pl r mem latest)
    (hapart : Apart base home den pl.log pl.snapshots) (x : σ)
    (hs : pl.Spared (fun _ => False) r.volume.disk v.disk) :
    Settled base home den pl { r with machine := x, volume := v } mem latest :=
  h.elsewhere hapart x (h.kept.spared hs) (fun m hm => (hs.log _ h.kept.log).2 m hm id)
    fun m hm => (hs.snapshots _ h.kept.snapshots).2 m hm id

/-- The members that the history tells at any index have addresses that are read back. -/
theorem isV4_get (h : Settled base home den pl r mem latest) (i : Nat) :
    (r.history.get i).IsV4 := by
  rcases r.history.get_cases i with hi | hi
  · rw [h.history] at hi
    obtain ⟨e, he, heq⟩ := List.mem_map.1 hi
    rw [h.history, ← heq]
    exact Membership.isV4_ofEntry (h.proper e (List.mem_of_mem_filter he))
  · rw [hi, h.history]
    cases latest with
    | none => exact Membership.isV4_initial
    | some info => exact (h.hold.stands.kept info rfl).proper.isV4

/-- Other snapshots in their directory leave the rest as it is. -/
theorem withSnapshots (h : Settled base home den pl r mem latest)
    (hapart : Apart base home den pl.log pl.snapshots) (ho : Outside r.volume.disk.item? den v.disk)
    (hdir : s.directory = r.snapshots.directory) (hs : s.Stands v.disk den latest) :
    Settled base home den pl { r with snapshots := s, volume := v } mem latest :=
  ⟨h.kept.inSnapshots hapart ho, h.hold.withSnapshots hapart h.kept ho
    (hdir.trans h.hold.directory) hs, h.first, h.bounded, h.proper, h.history, h.last⟩

/-! ### Entries -/

/-- **Entries that are appended** are in the log, as far as it took them, and the history tells the
memberships among them. -/
theorem enter (h : Settled base home den pl r mem latest)
    (hapart : Apart base home den pl.log pl.snapshots) (hes : ∀ e ∈ es, e.Proper) :
    ∃ mem', Settled base home den pl ((Replica.enter es).runOn r).2 mem' latest := by
  obtain ⟨l, hlog, hdir, hmirrors⟩ := h.hold.log
  obtain ⟨hdir', ⟨batch, hbatch, hmirrors'⟩, -⟩ := hmirrors.takes_append hes
  have houtside := hmirrors.outside_append (hdir ▸ h.kept.rooted_log hapart) es
  rcases hrun : (SegmentedLog.append es).runOn ⟨l, r.volume⟩ with ⟨result, ⟨l', v'⟩⟩
  rw [hrun] at hdir' hmirrors' houtside
  have happend : (onLog (LogStore.append es)).ignore.runOn r =
      (.ok (), { r with log := .segmented l', volume := v' }) := by
    rw [Act.runOn_ignore, onLog, Act.runOn_zoom, LogStore.append, LogStore.within,
      Act.runOn_ofStep, hlog]
    dsimp only
    rw [hrun]
  -- the range of the log tells how many entries it took
  have htaken : es.take ((LogStore.segmented l').last - r.log.last) = batch := by
    have hlast : l'.last - l.last = batch.length := by
      have hfirst := h.first
      rw [← hmirrors.last_eq, ← hmirrors'.last_eq, MemoryLog.last, MemoryLog.last,
        List.length_append]
      dsimp only
      omega
    rw [hlog]
    show es.take (l'.last - l.last) = batch
    rw [hlast]
    exact (List.prefix_iff_eq_take.1 hbatch).symm
  have hmemberships : Segment.memberships (mem.entries ++ batch) =
      Segment.memberships mem.entries ++ Segment.memberships batch := by
    rw [Segment.memberships, List.filter_append, List.map_append]
    rfl
  -- what the batch tells comes behind what the log told before, so the history takes it
  have htell : (Segment.tell (Segment.memberships batch)).runOn ⟨r.history, v'⟩ =
      (.ok (), ⟨r.history.heard (Segment.memberships batch), v'⟩) := by
    refine Segment.runOn_tell (m := ⟨r.history, v'⟩) ?_
    rw [h.history]
    show Ascending (Segment.memberships mem.entries ++ Segment.memberships batch)
    rw [← hmemberships]
    exact hmirrors'.ascending
  have henter : (Replica.enter es).runOn r = (.ok (), { r with
      log := .segmented l'
      volume := v'
      history := r.history.heard (Segment.memberships batch) }) := by
    rw [Replica.enter, Act.runOn_bind_ok (Act.runOn_get r), Act.runOn_bind_ok happend,
      Act.runOn_bind_ok (Act.runOn_get _)]
    dsimp only
    rw [htaken, onHistory, Act.runOn_zoom, htell]
  rw [henter]
  refine ⟨{ mem with entries := mem.entries ++ batch }, h.kept.inLog hapart houtside,
    h.hold.withLog hapart h.kept houtside (hdir'.trans hdir) hmirrors', h.first, h.bounded, ?_, ?_,
    h.last⟩
  · intro e he
    rcases List.mem_append.1 he with he | he
    · exact h.proper e he
    · exact hes e (hbatch.subset he)
  · rw [h.history, MembershipHistory.heard, hmemberships]

/-! ### A new snapshot -/

/-- **A node that has published a snapshot** up to an entry of its log has settled once it drops
the log up to there. -/
theorem compact (h : Settled base home den pl r mem latest)
    (hapart : Apart base home den pl.log pl.snapshots)
    (hget : mem.get info.lastIncluded.index = some e) (he : e.id = info.lastIncluded)
    (hmax : info.lastIncluded.index < Numeral.max64) (ho : Outside r.volume.disk.item? den v.disk)
    (hdir : s.directory = r.snapshots.directory) (hs : s.Stands v.disk den (some info)) : ∃ mem' r',
    (Replica.compact info).runOn { r with snapshots := s, volume := v } = (.ok (), r') ∧
      Settled base home den pl
        { r' with snapshotter := { r'.snapshotter with last := info.lastIncluded } } mem'
        (some info) := by
  have hk := h.kept.inSnapshots hapart ho
  have hhold := h.hold.withSnapshots hapart h.kept ho (hdir.trans h.hold.directory) hs
  obtain ⟨l, hlog, hdir', hmirrors⟩ := hhold.log
  obtain ⟨hfirst, -⟩ := MemoryLog.mem_of_get hget
  have hindex := h.first
  -- the position is in the log with the snapshot's own term, so the front is dropped
  have hterm : l.term info.lastIncluded.index = .ok info.lastIncluded.term := by
    have hterm := h.hold.term_eq info.lastIncluded.index
    rw [hget, hlog] at hterm
    exact hterm.trans (congrArg Except.ok (congrArg LogId.term he))
  have hfloor : ¬ info.lastIncluded < r.history.floor.id := by
    rw [h.history, LogId.lt_iff]
    dsimp only
    rw [id_floorOf]
    omega
  obtain ⟨l', v', hcompact, hdir'', hmirrors', houtside⟩ := runOn_compact
    (r := { r with snapshots := s, volume := v }) hlog hmirrors (hdir' ▸ hk.rooted_log hapart) hterm
    (.inr rfl) hmax hfloor
  have hcut : mem.truncateBefore (info.lastIncluded.index + 1) =
      ⟨info.lastIncluded.index + 1, mem.entries.drop (info.lastIncluded.index + 1 - mem.first)⟩ := by
    rw [MemoryLog.truncateBefore, if_neg (by omega)]
  rw [hcut] at hmirrors'
  refine ⟨_, _, hcompact, hk.inLog hapart houtside,
    hhold.withLog hapart hk houtside (hdir''.trans hdir') hmirrors', rfl, hmax, ?_, ?_, rfl⟩
  · intro e' he'
    exact h.proper e' (List.mem_of_mem_drop he')
  · -- both the history and the log drop what is not above the snapshot
    show MembershipHistory.mk _ _ = _
    rw [h.history]
    dsimp only
    rw [hmirrors.ascending.dropWhile_eq, hmirrors.filter_memberships]
    rfl

end Settled

end Replica
end RaftReplica
