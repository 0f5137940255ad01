/-
RaftReplica/Proofs/Replica/Taken.lean

A snapshot that was taken, by whatever machine, and what it leaves behind.

The proof goes backwards first.  The job ended with the newer position, and there is one way
to that end: a writer was made, the machine saved its state there and told the position, and what
came out was published with the members as of it (`Replica.saved_of_outcome`).  From then on it goes
forwards, with what holds of the stores before each of the three steps (`Replica.Orderly`, with
`create`, `write` and `publish`).

* The store of the snapshots may be in use by others at the same time, so what is said of it is the
  invariant of all its users (`InUse.Sound`).
* The log is in memory, or it is on disk, and then its directory and that of the snapshots are two
  (`LogStore.HeldApart`).  This is what keeps the commit away from the log, and the compaction away
  from the snapshot.
* Of the machine it is asked that it keeps to the directory it is given (`Replica.SavesOnly`).

A machine chooses the names of its files, and one name that it may choose does not work: the commit
writes its table under that name first.  `Replica.OpensAs` says of every other name that what was
written is there, and of this one that nothing is (`Replica.snapshot_loses_draft`).

Main results: `Replica.Orderly.taken`, `Replica.snapshot_keeps_members`.
-/
import RaftReplica.Proofs.Replica.Agreement
import RaftReplica.Proofs.Simulation.Machine
import RaftReplica.Proofs.Snapshot.Lifetime
import RaftReplica.Proofs.Snapshot.Published

namespace RaftReplica

open Disk SnapshotName SnapshotStore

/-! ### Logs apart from the snapshots -/

namespace LogStore

variable {l : LogStore} {d d' : Disk} {v : Volume} {den : Location} {p : Path} {m : MemoryLog}
  {own : Location → Prop} {kept : Nat}

/-- The log holds the entries of `m`.  If it is on disk, its directory and that of the snapshots, at
`p`, were empty once, and neither is in the other. -/
def HeldApart (l : LogStore) (d : Disk) (den : Location) (p : Path) (m : MemoryLog) : Prop :=
  match l with
  | memory l => l = m
  | segmented l => ∃ base home, Apart base home den l.directory p ∧ SegmentedLog.Mirrors d home l m

namespace HeldApart

variable (h : l.HeldApart d den p m)

include h

/-- A log that is held apart holds its entries. -/
theorem holds : l.Holds d m := by
  cases l with
  | memory l => exact h
  | segmented l =>
    obtain ⟨-, home, -, hmirrors⟩ := h
    exact ⟨home, hmirrors⟩

/-- What happens in the directory of the snapshots leaves the log as it is. -/
theorem inSnapshots (ho : Outside d.item? den d') : l.HeldApart d' den p m := by
  cases l with
  | memory l => exact h
  | segmented l =>
    obtain ⟨base, home, hapart, hmirrors⟩ := h
    refine ⟨base, home, hapart, hmirrors.elsewhere ho.wellFormed ?_ fun name => ?_⟩
    · exact hapart.directoryAt_eq hapart.leads hmirrors.leads fun m _ hm => ho.item? m hm
    · exact hapart.symm.item?_eq ho (below_entry name)

/-- So does what spares its directory, but for some of what is in that of the snapshots. -/
theorem spared (hw : d'.WellFormed)
    (hs : ∀ l', l = .segmented l' → Storages.Spares own l'.directory d d')
    (hown : ∀ m, own m → Below den m) : l.HeldApart d' den p m := by
  cases l with
  | memory l => exact h
  | segmented l =>
    obtain ⟨base, home, hapart, hmirrors⟩ := h
    obtain ⟨leads, hsame⟩ := hs l rfl home hmirrors.leads
    refine ⟨base, home, hapart, hmirrors.elsewhere hw leads fun name => ?_⟩
    have hbelow := below_entry (l := home) name
    exact hsame _ hbelow fun hm => hapart.not_below hbelow (hown _ hm)

end HeldApart

/-- **The front of the log is dropped**, and the directory of the snapshots is left alone. -/
theorem HeldApart.runOn_truncateBefore (h : l.HeldApart v.disk den p m) (hw : v.disk.WellFormed)
    (leads : v.disk.directoryAt p = .ok den) (hkept : kept ≤ Numeral.max64) : ∃ l' v',
    (LogStore.truncateBefore kept).runOn ⟨l, v⟩ = (.ok (), ⟨l', v'⟩) ∧
      l'.HeldApart v'.disk den p (m.truncateBefore kept) ∧ v'.disk.WellFormed ∧
      v'.disk.directoryAt p = .ok den ∧ ∀ x, Below den x → v'.disk.item? x = v.disk.item? x := by
  -- in memory the disk is not touched; on disk only the directory of the log is
  cases l with
  | memory l =>
    obtain rfl : l = m := h
    exact ⟨_, v, rfl, rfl, hw, leads, fun _ _ => rfl⟩
  | segmented l =>
    obtain ⟨base, home, hapart, hmirrors⟩ := h
    have hrooted : Rooted v.disk.item? home l.directory := fun d ho =>
      hapart.directoryAt_eq hapart.leads hmirrors.leads fun x hx _ => ho.item? x hx
    obtain ⟨l', v', hrun, hdir, hmirrors', -⟩ := hmirrors.runOn_truncateBefore hkept
    have ho := hmirrors.outside_truncateBefore hrooted kept
    rw [hrun] at ho
    refine ⟨.segmented l', v', ?_, ⟨base, home, hdir.symm ▸ hapart, hmirrors'⟩, ho.wellFormed,
      hapart.directoryAt_eq hapart.leads' leads fun x hx _ => ho.item? x hx,
      fun x hx => hapart.item?_eq ho hx⟩
    rw [LogStore.truncateBefore, within, Act.runOn_ofStep]
    dsimp only
    rw [hrun]

end LogStore

namespace Replica

variable {σ : Type} {m : StateMachine σ} {d : Disk} {v : Volume} {den : Location} {p : Path}
  {r r' : Replica σ} {s : SnapshotStore} {mem : MemoryLog} {info : SnapshotMeta} {id : LogId}
  {w w' : SnapshotWriter} {writers : List SnapshotWriter} {readers : List SnapshotReader}
  {a b : JobStage} {x : Except Error JobResult} {n k : Nat}

/-! ### The stores while a snapshot is taken -/

/-- What the machine wrote on `d` is in the directory of the writer `w`, or it is nothing to the log
and to the snapshots, at `p`. -/
structure WroteOnly (p : Path) (log : LogStore) (d : Disk) (w w' : SnapshotWriter) (d' : Disk) :
    Prop where
  directory : w'.directory = w.directory
  wellFormed : d'.WellFormed
  snapshots : Storages.Spares (w.Owns d) p d d'
  log : ∀ l, log = .segmented l → Storages.Spares (w.Owns d) l.directory d d'

/-- The snapshots of the node are in use, with these writers and readers, and its log is apart. -/
structure Orderly (p : Path) (den : Location) (writers : List SnapshotWriter)
    (readers : List SnapshotReader) (r : Replica σ) (mem : MemoryLog) : Prop where
  inUse : InUse.Sound p den ⟨r.snapshots, r.volume.disk, writers, readers⟩
  log : r.log.HeldApart r.volume.disk den p mem

namespace Orderly

theorem rooted (h : Orderly p den writers readers r mem) : Rooted r.volume.disk.item? den p :=
  h.inUse.directory ▸ h.inUse.shelved.rooted

/-- A writer is made. -/
theorem create (h : Orderly p den writers readers r mem) {made : Mounted SnapshotStore}
    (hrun : SnapshotStore.create.runOn ⟨r.snapshots, r.volume⟩ = (.ok w, made)) :
    Orderly p den (w :: writers) readers
        { r with snapshots := made.store, volume := made.volume } mem ∧
      made.store.last = r.snapshots.last := by
  have hmoves := h.inUse.moves_create (v := r.volume) rfl hrun
  have ho := (confined_create h.rooted ⟨r.snapshots, r.volume⟩
    ⟨h.inUse.inside, .refl h.inUse.shelved.wellFormed⟩).1.2
  rw [hrun] at ho
  refine ⟨⟨hmoves.sound, h.log.inSnapshots ho⟩, ?_⟩
  obtain ⟨w', v', hcreate, -⟩ := h.inUse.shelved.runOn_create (v := r.volume)
  rw [hcreate] at hrun
  obtain ⟨-, rfl⟩ := Prod.mk.inj hrun
  rfl

/-- The machine works, and it is told what the snapshot covers. -/
theorem write (h : Orderly p den (w :: writers) readers r mem)
    (hwrote : WroteOnly p r.log r.volume.disk w w' v.disk) (info : SnapshotMeta)
    (hmax : info.lastIncluded.index ≤ Numeral.max64) (y : σ) :
    Orderly p den (w'.setInfo info :: writers) readers
      { r with machine := y, volume := v } mem := by
  obtain ⟨leads, hsame⟩ := hwrote.snapshots den (h.inUse.directory ▸ h.inUse.shelved.leads)
  have hmoves := h.inUse.moves_elsewhere hwrote.wellFormed leads fun x hx hnot =>
    hsame x hx fun ⟨l, hl, hb⟩ => hnot w List.mem_cons_self l hl hb
  have htold := hmoves.sound.moves_tell List.mem_cons_self
    (show (w'.setInfo info).directory = w.directory from hwrote.directory) hmax
  rw [List.erase_cons_head] at htold
  refine ⟨htold.sound, h.log.spared hwrote.wellFormed hwrote.log ?_⟩
  -- the writer's directory is one of those of the store
  rintro x ⟨l, hl, hb⟩
  obtain ⟨n, -, hdir, hat⟩ := h.inUse.shelved.made w.directory List.mem_cons_self
  rw [hdir, directoryAt_entry h.inUse.shelved.leads (plain_temporary n) hat] at hl
  obtain rfl := Except.ok.inj hl
  exact (below_entry _).trans_isPrefix hb.1

/-- **A snapshot that is committed** is the latest one, with the table of its writer and what was in
its directory, and the log is as it was. -/
theorem commit (h : Orderly p den (w :: writers) readers r mem) (hlast : w.index ≠ r.snapshots.last)
    {i : Nat} {made : Mounted SnapshotStore}
    (hrun : (SnapshotStore.commit w).runOn ⟨r.snapshots, r.volume⟩ = (.ok i, made)) :
    ∃ n claims works, w.directory = p.entry (temporary n) ∧
      r.volume.disk.directoryAt w.directory = .ok (den ++ [temporary n]) ∧
      made.store.directory = p ∧ made.store.last = w.index ∧
      Shelved made.volume.disk den made.store (w.index :: claims) works ∧
      Carries r.volume.disk den n w.table w.index made.volume.disk ∧
      r.log.HeldApart made.volume.disk den p mem := by
  have hshelved := h.inUse.shelved
  obtain ⟨n, holders, v', hdir, rfl, -, hshelved', hcarries⟩ :=
    hshelved.eq_of_commit (h.inUse.bounds w List.mem_cons_self) hlast hrun
  obtain ⟨n', -, hdir', hat⟩ := hshelved.made w.directory List.mem_cons_self
  obtain rfl := temporary_injective (Path.entry_injective (hdir.symm.trans hdir'))
  have leads := directoryAt_entry hshelved.leads (plain_temporary n) hat
  have hstore : r.snapshots.directory = p := h.inUse.directory
  -- a commit stays in the directory of the snapshots, so the log is not touched
  have ho := (confined_commit h.rooted ⟨n, hstore ▸ hdir⟩ ⟨r.snapshots, r.volume⟩
    ⟨h.inUse.inside, .refl hshelved.wellFormed⟩).1.2
  rw [hrun] at ho
  exact ⟨n, _, _, hstore ▸ hdir, hdir ▸ leads, hstore, rfl, hshelved', hcarries,
    h.log.inSnapshots ho⟩

end Orderly

/-! ### What was published -/

/-- Who opens the latest snapshot gets one that tells `info`, with the files of the writer `w`: they
are in its table, and under each name there is what there was in the directory of `w` on `d`.  Two
names are the store's own.  One is that of the table.  The other is that of its draft, which a
machine may use as well: whatever it wrote there is gone, and its table may name it nevertheless. -/
def OpensAs (d : Disk) (info : SnapshotMeta) (w : SnapshotWriter) (r : Replica σ) : Prop :=
  ∃ reader s, openLatest.runOn ⟨r.snapshots, r.volume⟩ = (.ok (some reader), ⟨s, r.volume⟩) ∧
    reader.info = .ok info ∧ reader.table.files = w.table.files ∧
    (∀ name, name ≠ SnapshotName.table → name ≠ SnapshotName.table ++ ".tmp" →
      r.volume.disk.read (reader.directory.entry name) = d.read (w.directory.entry name)) ∧
    r.volume.disk.read (reader.directory.entry (SnapshotName.table ++ ".tmp")) = .error .missing

/-- A log that fits is only compacted to a position that is not below the floor of the history. -/
theorem not_lt_of_compact {t : Nat} (hterm : r.log.term info.lastIncluded.index = .ok t)
    (ht : t = 0 ∨ t = info.lastIncluded.term) (hrun : (compact info).runOn r = (.ok (), r')) :
    ¬ info.lastIncluded < r.history.floor.id := by
  rw [compact, Act.runOn_bind_ok (Act.runOn_get r)] at hrun
  dsimp only at hrun
  rw [hterm] at hrun
  dsimp only at hrun
  rw [if_pos ht] at hrun
  obtain ⟨_, r₁, hlog, hrun⟩ := Act.eq_ok_of_bind hrun
  rw [onLog, Act.runOn_zoom] at hlog
  obtain ⟨-, rfl⟩ := Prod.mk.inj hlog
  intro hlt
  rw [setHistory, Act.runOn_bind_ok (Act.runOn_get _)] at hrun
  dsimp only at hrun
  rw [MembershipHistory.setFloor, if_pos (show info.membership.id < _ from hlt)] at hrun
  cases (Prod.mk.inj hrun).1

/-- A call on the snapshots that succeeds leaves all but the store and the disk. -/
theorem eq_ok_of_onSnapshots {α : Type} {y : Act (Mounted SnapshotStore) α} {c : α}
    (h : (onSnapshots y).runOn r = (.ok c, r')) : ∃ made,
    y.runOn ⟨r.snapshots, r.volume⟩ = (.ok c, made) ∧
      r' = { r with snapshots := made.store, volume := made.volume } := by
  rw [onSnapshots, Act.runOn_zoom] at h
  obtain ⟨hresult, rfl⟩ := Prod.mk.inj h
  exact ⟨_, Prod.ext hresult rfl, rfl⟩

/-- What was published was committed, and then the log was compacted. -/
theorem eq_ok_of_publish {u : Unit} (hinfo : info = .ofMembership id (r.history.get id.index))
    (hrun : (Replica.publish w id).runOn r = (.ok u, r')) : ∃ i made,
    (SnapshotStore.commit (w.setInfo info)).runOn ⟨r.snapshots, r.volume⟩ = (.ok i, made) ∧
      (compact info).runOn { r with snapshots := made.store, volume := made.volume } =
        (.ok u, r') := by
  rw [Replica.publish, Act.runOn_bind_ok (Act.runOn_get r)] at hrun
  dsimp only at hrun
  rw [← hinfo] at hrun
  obtain ⟨i, r₁, hcommit, hcompact⟩ := Act.eq_ok_of_bind hrun
  obtain ⟨made, hmade, rfl⟩ := eq_ok_of_onSnapshots hcommit
  exact ⟨i, made, hmade, hcompact⟩

/-- What the latest snapshot carries is what is opened. -/
theorem opensAs_of_carries {claims : List Nat} {works : List Path} {i : Nat}
    (hshelved : Shelved r.volume.disk den r.snapshots (i :: claims) works)
    (hdir : r.snapshots.directory = p) (hlast : r.snapshots.last = i)
    (hcarries : Carries d den n (w.setInfo info).table i r.volume.disk)
    (hn : w.directory = p.entry (temporary n))
    (leads : d.directoryAt w.directory = .ok (den ++ [temporary n])) (hw : d.WellFormed)
    (hproper : info.Proper) : OpensAs d info w r := by
  subst hlast hdir
  have leads' := directoryAt_entry hshelved.leads (plain_published r.snapshots.last)
    (hshelved.item?_published List.mem_cons_self)
  have hinfo : ∀ x ∈ (w.setInfo info).table.info, x.Proper := by
    rintro x ⟨⟩
    exact hproper
  obtain ⟨holders, hopen⟩ := hshelved.runOn_openLatest_read List.mem_cons_self
    (hcarries.read_table leads' hinfo)
  rw [hn] at leads
  refine ⟨_, _, hopen, rfl, rfl, fun name hname hdraft => ?_, hcarries.read_draft leads'⟩
  rw [hn]
  exact hcarries.read_file leads' leads hw hshelved.wellFormed hname hdraft

/-- **Once a snapshot is published** it is what is opened, and the log and the history start at its
position. -/
theorem Orderly.publish (h : Orderly p den (w.setInfo info :: writers) readers r mem)
    (hinfo : info = .ofMembership id (r.history.get id.index)) (hproper : info.Proper)
    (hlast : id.index ≠ r.snapshots.last) (hmax : id.index < Numeral.max64) {t : Nat}
    (hterm : r.log.term id.index = .ok t) (ht : t = 0 ∨ t = id.term)
    (hrun : (Replica.publish w id).runOn r = (.ok (), r')) :
    OpensAs r.volume.disk info w r' ∧
      r'.log.Holds r'.volume.disk (mem.truncateBefore (id.index + 1)) ∧
      r'.history = ⟨r.history.entries.dropWhile (·.index ≤ id.index), info.membership⟩ := by
  obtain ⟨i, made, hcommit, hcompact⟩ := eq_ok_of_publish hinfo hrun
  obtain rfl : info.lastIncluded = id := by rw [hinfo, SnapshotMeta.ofMembership]
  obtain ⟨n, claims, works, hdir, leads, hstore, hlast', hshelved, hcarries, hlog⟩ :=
    h.commit hlast hcommit
  have hden := hshelved.leads
  rw [hstore] at hden
  obtain ⟨l', v', htruncate, hlog', hw', hden', hsame⟩ :=
    hlog.runOn_truncateBefore hshelved.wellFormed hden (Nat.succ_le_of_lt hmax)
  rw [runOn_compact_of_truncateBefore
    (r := { r with snapshots := made.store, volume := made.volume }) hterm ht htruncate
    (not_lt_of_compact hterm ht hcompact)] at hcompact
  obtain ⟨-, rfl⟩ := Prod.mk.inj hcompact
  refine ⟨?_, hlog'.holds, rfl⟩
  have hrooted : Rooted v'.disk.item? den made.store.directory :=
    hstore ▸ h.inUse.grounded v'.disk hden'
  exact opensAs_of_carries (hshelved.withEntries hw' hrooted fun name => hsame _ (below_entry name))
    hstore hlast' (hcarries.congr hsame) hdir leads h.inUse.shelved.wellFormed hproper

/-! ### The job -/

/-- A part of a job succeeds, or its failure tells the next stage. -/
theorem runOn_orElse_cases (y : Act (Replica σ) JobStage) (failed : Error → JobStage)
    (r : Replica σ) :
    (∃ c r', y.runOn r = (.ok c, r') ∧ (orElse y failed).runOn r = (.ok c, r')) ∨
      ∃ e r', (orElse y failed).runOn r = (.ok (failed e), r') := by
  obtain ⟨result, hrun, hresult⟩ := runOn_tried y r
  cases result with
  | ok c => exact .inl ⟨c, _, Prod.ext (hresult c rfl) rfl, Act.runOn_bind_ok hrun⟩
  | error e => exact .inr ⟨e, _, Act.runOn_bind_ok hrun⟩

/-- How a job with the number `n` has ended: with the result `x`, and since `r` nothing was changed
but what the node knows about its snapshots. -/
def Ended (n : Nat) (x : Except Error JobResult) (last : LogId) (r r' : Replica σ) : Prop :=
  ∃ s, r' = { r with snapshotter := s } ∧ s.last = last ∧ s.outcome? n = some x

/-- A job that is over stays so. -/
theorem ended_of_over (hjob : r.snapshotter.jobs[n]? = some (.over x)) (k : Nat) :
    Ended n x r.snapshotter.last r ((goOn m n k).runOn r).2 := by
  induction k generalizing r with
  | zero => exact ⟨r.snapshotter, rfl, rfl, by rw [Snapshotter.outcome?, Snapshotter.job_eq hjob]⟩
  | succ k ih =>
    obtain ⟨hgo, hjob'⟩ := runOn_goOn (m := m) hjob rfl k
    rw [hgo]
    exact ih hjob'

/-- A job that takes a snapshot and has a result ends with that. -/
theorem ended_of_endingSave (hjob : r.snapshotter.jobs[n]? = some (.endingSave x)) (k : Nat) :
    Ended n x r.snapshotter.last r ((goOn m n (k + 1)).runOn r).2 := by
  obtain ⟨hgo, hjob'⟩ := runOn_goOn (m := m) hjob rfl k
  rw [hgo]
  exact ended_of_over hjob' k

/-- A snapshot that is published is recorded as the latest one, and then the job ends. -/
theorem ended_of_recordingSave (hjob : r.snapshotter.jobs[n]? = some (.recordingSave id))
    (k : Nat) : Ended n (.ok (.saved id)) id r ((goOn m n (k + 2)).runOn r).2 := by
  obtain ⟨hgo, hjob'⟩ := runOn_goOn (m := m) hjob rfl (k + 1)
  rw [hgo]
  exact ended_of_endingSave hjob' k

/-- The outcome of a job that has ended is its result. -/
theorem Ended.eq_of_outcome {last : LogId} {y : Except Error JobResult} (h : Ended n x last r r')
    (hy : r'.snapshotter.outcome? n = some y) : x = y := by
  obtain ⟨s, rfl, -, hx⟩ := h
  exact Option.some.inj (hx.symm.trans hy)

/-- A job whose result is there has that for its outcome. -/
theorem eq_of_endingSave {y : Except Error JobResult} (hjob : r.snapshotter.jobs[n]? = some a)
    (hrun : (advance m a).runOn r = (.ok (.endingSave x), r'))
    (h : ((goOn m n (k + 2)).runOn r).2.snapshotter.outcome? n = some y) : x = y := by
  obtain ⟨hgo, hjob'⟩ := runOn_goOn hjob hrun (k + 1)
  rw [hgo] at h
  exact (ended_of_endingSave (r := { r' with
    snapshotter := r'.snapshotter.setJob n (.endingSave x) }) hjob' k).eq_of_outcome h

/-- A job that ended with the position of a snapshot has published it. -/
theorem published_of_outcome {i : LogId} (hjob : r.snapshotter.jobs[n]? = some (.publishing w i))
    (h : ((goOn m n (k + 3)).runOn r).2.snapshotter.outcome? n = some (.ok (.saved id))) :
    i = id ∧ ∃ r₁ s, (Replica.publish w id).runOn r = (.ok (), r₁) ∧
      ((goOn m n (k + 3)).runOn r).2 = { r₁ with snapshotter := s } ∧ s.last = id := by
  rcases runOn_orElse_cases (do Replica.publish w i; return .recordingSave i)
    (fun e => .endingSave (.error e)) r with ⟨c, r₁, hpublish, hrun⟩ | ⟨e, r₁, hrun⟩
  · obtain ⟨⟨⟩, r₂, hdone, hreturn⟩ := Act.eq_ok_of_bind hpublish
    obtain ⟨hc, rfl⟩ := Prod.mk.inj hreturn
    obtain rfl := Except.ok.inj hc
    obtain ⟨hgo, hjob'⟩ := runOn_goOn (m := m) hjob hrun (k + 2)
    rw [hgo] at h ⊢
    have hended := ended_of_recordingSave (m := m)
      (r := { r₂ with snapshotter := r₂.snapshotter.setJob n (.recordingSave i) }) hjob' k
    obtain rfl := JobResult.saved.inj (Except.ok.inj (hended.eq_of_outcome h))
    obtain ⟨s, hs, hlast, -⟩ := hended
    exact ⟨rfl, r₂, s, hdone, hs, hlast⟩
  · -- the job would have ended with an error
    cases eq_of_endingSave hjob hrun h

/-- What the machine saved is published, or the job has a result, which is no other position than
that of the latest snapshot. -/
theorem afterSave_cases (last : LogId) (w : SnapshotWriter) (result : Except Failure LogId)
    (r : Replica σ) :
    (∃ i, result = .ok i ∧ (afterSave last w result).runOn r = (.ok (.publishing w i), r)) ∨
      ∃ x r', (afterSave last w result).runOn r = (.ok (.endingSave x), r') ∧
        ∀ i, x = .ok (.saved i) → i = last := by
  have habandon (x : Except Error JobResult) : ∃ r',
      (do onSnapshots (abandon w); return JobStage.endingSave x).runOn r =
        (.ok (.endingSave x), r') := by
    obtain ⟨_, r', hrun⟩ := succeeds_abandon (σ := σ) w r
    exact ⟨r', Act.runOn_bind_ok hrun⟩
  cases result with
  | ok i =>
    by_cases hlt : last.index < i.index
    · exact .inl ⟨i, rfl, by rw [afterSave, if_pos hlt]; rfl⟩
    · obtain ⟨r', hrun⟩ := habandon (.ok (.saved last))
      refine .inr ⟨_, r', by rw [afterSave, if_neg hlt]; exact hrun, ?_⟩
      rintro i ⟨⟩
      rfl
  | error f =>
    cases f with
    | error e =>
      obtain ⟨r', hrun⟩ := habandon (.error e)
      exact .inr ⟨_, r', hrun, fun _ h => by cases h⟩
    | violation v => exact .inr ⟨_, r, rfl, fun _ h => by cases h⟩

/-- If that is another position than that of the latest snapshot, the machine told it, and what the
machine saved was published. -/
theorem written_of_outcome {last : LogId} (hjob : r.snapshotter.jobs[n]? = some (.saving last w))
    (h : ((goOn m n (k + 4)).runOn r).2.snapshotter.outcome? n = some (.ok (.saved id)))
    (hne : id ≠ last) : ∃ y w' v' t r₁ s,
    m.save.runOn ⟨(r.machine, w), r.volume⟩ = (.ok id, ⟨(y, w'), v'⟩) ∧
      (Replica.publish w' id).runOn { r with machine := y, volume := v', snapshotter := t } =
        (.ok (), r₁) ∧
      ((goOn m n (k + 4)).runOn r).2 = { r₁ with snapshotter := s } ∧ s.last = id := by
  rcases hsave : m.save.runOn ⟨(r.machine, w), r.volume⟩ with ⟨result, ⟨⟨y, w'⟩, v'⟩⟩
  have hlet : (letSave m w).runOn r =
      (.ok (result, w'), { r with machine := y, volume := v' }) := by
    rw [letSave, Act.runOn_ofStep, hsave]
  have hadvance : (advance m (.saving last w)).runOn r =
      (afterSave last w' result).runOn { r with machine := y, volume := v' } := by
    rw [advance, Act.runOn_bind_ok hlet]
  -- either the newer position goes on to be published, or the job ends with another result
  rcases afterSave_cases last w' result { r with machine := y, volume := v' } with
    ⟨i, rfl, hafter⟩ | ⟨x, r', hafter, hx⟩
  · obtain ⟨hgo, hjob'⟩ := runOn_goOn hjob (hadvance.trans hafter) (k + 3)
    rw [hgo] at h ⊢
    obtain ⟨rfl, r₁, s, hpublish, hrest⟩ := published_of_outcome hjob' h
    exact ⟨y, w', v', _, r₁, s, rfl, hpublish, hrest⟩
  · exact absurd (hx id (eq_of_endingSave hjob (hadvance.trans hafter) h)) hne

/-- **A snapshot that was taken**, up to another position than that of the latest one: a writer was
made, the machine saved its state and told the position, and what it saved was published. -/
theorem saved_of_outcome
    (h : ((takeSnapshot m).runOn r).2.snapshotter.outcome? r.snapshotter.jobs.length =
      some (.ok (.saved id))) (hne : id ≠ r.snapshotter.last) : ∃ w made y w' v' t r₁ s,
    SnapshotStore.create.runOn ⟨r.snapshots, r.volume⟩ = (.ok w, made) ∧
      m.save.runOn ⟨(r.machine, w), made.volume⟩ = (.ok id, ⟨(y, w'), v'⟩) ∧
      (Replica.publish w' id).runOn { r with
        snapshots := made.store, machine := y, volume := v', snapshotter := t } = (.ok (), r₁) ∧
      ((takeSnapshot m).runOn r).2 = { r₁ with snapshotter := s } ∧ s.last = id := by
  have hnone : r.snapshotter.outcome? r.snapshotter.jobs.length ≠ some (.ok (.saved id)) := by
    rw [Snapshotter.outcome?, Snapshotter.job, List.getElem?_eq_none (Nat.le_refl _)]
    simp
  rcases requestSnapshot_cases m r with ⟨e, hrequest⟩ | ⟨last, hrequest⟩ | ⟨-, hrequest⟩
  · rw [takeSnapshot, Act.runOn_bind_error hrequest] at h
    exact absurd h hnone
  · rw [takeSnapshot, Act.runOn_bind_ok hrequest] at h
    exact absurd h hnone
  rw [takeSnapshot, Act.runOn_bind_ok hrequest] at h ⊢
  dsimp only at h ⊢
  let begun : Replica σ := { r with snapshotter := { r.snapshotter with
    saving := true, jobs := r.snapshotter.jobs ++ [.making r.snapshotter.last] } }
  have hjob : begun.snapshotter.jobs[r.snapshotter.jobs.length]? =
      some (.making r.snapshotter.last) := List.getElem?_concat_length
  rcases runOn_orElse_cases (do return .saving r.snapshotter.last (← onSnapshots create))
    (fun e => .endingSave (.error e)) begun with ⟨c, r₁, hmake, hrun⟩ | ⟨e, r₁, hrun⟩
  · obtain ⟨w, r₂, hcreate, hreturn⟩ := Act.eq_ok_of_bind hmake
    obtain ⟨hc, rfl⟩ := Prod.mk.inj hreturn
    obtain rfl := Except.ok.inj hc
    obtain ⟨made, hmade, rfl⟩ := eq_ok_of_onSnapshots hcreate
    obtain ⟨hgo, hjob'⟩ := runOn_goOn (m := m) hjob hrun 4
    rw [hgo] at h ⊢
    obtain ⟨y, w', v', t, r₁, s, hsave, hpublish, hrest⟩ := written_of_outcome hjob' h hne
    exact ⟨w, made, y, w', v', t, r₁, s, hmade, hsave, hpublish, hrest⟩
  · cases eq_of_endingSave hjob hrun h

/-! ### Members -/

/-- **The members from a position on** are the same once the floor is moved there with the members
as of it. -/
theorem members_of_floor {h h' : MembershipHistory} (hhistory : h.Reachable)
    (hfloor : h' = ⟨h.entries.dropWhile (·.index ≤ id.index),
      (SnapshotMeta.ofMembership id (h.get id.index)).membership⟩) {i : Nat} (hi : id.index ≤ i) :
    (h'.get i).peers = (h.get i).peers ∧ (h'.get i).former = (h.get i).former := by
  rw [hfloor, MembershipHistory.get_above hhistory.ascending hi, MembershipHistory.get]
  dsimp only
  cases (h.entries.dropWhile (·.index ≤ id.index)).reverse.find? (·.index ≤ i) <;> exact ⟨rfl, rfl⟩

/-- If the machine saves its state into the next snapshot, it writes nowhere else, and the position
that it tells is that of an entry of the log, or the log has none there.  There is room for another
one behind it. -/
def SavesOnly (m : StateMachine σ) (p : Path) (r : Replica σ) : Prop :=
  ∀ w made id y w' v', SnapshotStore.create.runOn ⟨r.snapshots, r.volume⟩ = (.ok w, made) →
    m.save.runOn ⟨(r.machine, w), made.volume⟩ = (.ok id, ⟨(y, w'), v'⟩) →
    WroteOnly p r.log made.volume.disk w w' v'.disk ∧ id.index < Numeral.max64 ∧
      id.term ≤ Numeral.max64 ∧ ∃ t, r.log.term id.index = .ok t ∧ (t = 0 ∨ t = id.term)

/-- **A machine that writes only in the directory that it is given** is one of these. -/
theorem Orderly.savesOnly (h : Orderly p den writers readers r mem)
    (hsave : ∀ w v l, v.disk.WellFormed → v.disk.directoryAt w.directory = .ok l →
      (∀ x, Below l x → v.disk.item? x = none) → ∀ id y w' v',
        m.save.runOn ⟨(r.machine, w), v⟩ = (.ok id, ⟨(y, w'), v'⟩) →
          w'.directory = w.directory ∧ Outside v.disk.item? l v'.disk ∧ id.index < Numeral.max64 ∧
            id.term ≤ Numeral.max64 ∧ ∃ t, r.log.term id.index = .ok t ∧ (t = 0 ∨ t = id.term)) :
    SavesOnly m p r := by
  intro w made id y w' v' hcreate hmachine
  have hshelved := h.inUse.shelved
  obtain ⟨v₁, hcreate', hput⟩ := SnapshotStore.runOn_create_puts (v := r.volume)
    hshelved.wellFormed hshelved.rooted hshelved.item?_next
  obtain ⟨hw, rfl⟩ := Prod.mk.inj (hcreate.symm.trans hcreate')
  have hdir : w.directory = r.snapshots.directory.entry (temporary r.snapshots.nextTemporary) := by
    rw [Except.ok.inj hw]
  have ho := (Outside.refl hshelved.wellFormed).put (below_entry _) hput
  have leads := directoryAt_entry (hshelved.rooted _ ho) (plain_temporary _) hput.item?_self
  rw [← hdir] at leads
  have hempty (x : Location) (hx : Below (den ++ [temporary r.snapshots.nextTemporary]) x) :
      v₁.disk.item? x = none := by
    rw [hput.item?_ne hx.2]
    exact item?_of_below hshelved.wellFormed (by rw [hshelved.item?_next]; simp) hx
  obtain ⟨hdir', ho', hrest⟩ := hsave w v₁ _ hput.wellFormed leads hempty id y w' v' hmachine
  have hspares (q : Path) : Storages.Spares (w.Owns v₁.disk) q v₁.disk v'.disk :=
    .of_outside hempty ho' (fun x hx => ⟨_, leads, hx⟩) q
  exact ⟨⟨hdir', ho'.wellFormed, hspares p, fun l _ => hspares l.directory⟩, hrest⟩

/-- **What a job that took a newer snapshot leaves behind**: the machine saved its state into a new
writer, that is what is opened, and the log and the history start at the position. -/
theorem Orderly.taken {result : Except Failure Unit} (h : Orderly p den writers readers r mem)
    (hmembers : ∀ x ∈ r.history.floor :: r.history.entries, x.IsV4)
    (hlast : r.snapshots.last = r.snapshotter.last.index) (hsave : SavesOnly m p r)
    (hrun : (takeSnapshot m).runOn r = (result, r'))
    (hended : r'.snapshotter.outcome? r.snapshotter.jobs.length = some (.ok (.saved id)))
    (hnew : r.snapshotter.last.index < id.index) :
    (∃ w made y w' v', SnapshotStore.create.runOn ⟨r.snapshots, r.volume⟩ = (.ok w, made) ∧
      m.save.runOn ⟨(r.machine, w), made.volume⟩ = (.ok id, ⟨(y, w'), v'⟩) ∧
      OpensAs v'.disk (.ofMembership id (r.history.get id.index)) w' r') ∧
    r'.log.Holds r'.volume.disk (mem.truncateBefore (id.index + 1)) ∧
    r'.history = ⟨r.history.entries.dropWhile (·.index ≤ id.index),
      (SnapshotMeta.ofMembership id (r.history.get id.index)).membership⟩ ∧
    r'.snapshotter.last = id := by
  have hne : id ≠ r.snapshotter.last := by
    rintro rfl
    exact Nat.lt_irrefl _ hnew
  have htaken : ((takeSnapshot m).runOn r).2 = r' := by rw [hrun]
  rw [← htaken] at hended
  obtain ⟨w, made, y, w', v', known, r₁, s, hcreate, hmachine, hpublish, hr', hs⟩ :=
    saved_of_outcome hended hne
  rw [htaken] at hr'
  subst hr'
  obtain ⟨hwrote, hmax, hmax', t, hterm, ht⟩ := hsave _ _ _ _ _ _ hcreate hmachine
  -- the writer is made, the machine works, and what it wrote is published
  obtain ⟨h₁, hlast₁⟩ := h.create hcreate
  have h₂ := h₁.write hwrote (.ofMembership id (r.history.get id.index)) (Nat.le_of_lt hmax) y
  have hisV4 : (r.history.get id.index).IsV4 := hmembers _ <|
    (r.history.get_cases id.index).elim (List.mem_cons_of_mem _) fun he => he ▸ List.mem_cons_self
  have hproper := SnapshotMeta.proper_ofMembership hmax' (Nat.le_of_lt hmax) hisV4
  have hnewer : id.index ≠ made.store.last := by omega
  obtain ⟨hopens, hholds, hfloor⟩ := Orderly.publish
    (r := { r with snapshots := made.store, machine := y, volume := v', snapshotter := known })
    ⟨h₂.inUse, h₂.log⟩ rfl hproper hnewer hmax hterm ht hpublish
  exact ⟨⟨w, made, y, w', v', hcreate, hmachine, hopens⟩, hholds, hfloor, hs⟩

/-- **Taking a snapshot never changes who is in the group.**  A node takes a snapshot.  Its store of
snapshots, whose latest one is the node's, may be in use by any writers, readers and copies; its log
is any one apart from that; its history is any one that calls lead to, with members that can be
read.  The job ends with a newer position than that of the latest snapshot.

* The machine told that position when it saved its state into a new writer.  Who opens the latest
  snapshot now reads the members as of there from its table, as the history told them before, and
  finds the files that the machine had written.  One name is excepted: what the machine had written
  under the name of the table's draft is gone (`OpensAs`), and `snapshot_loses_draft` has a machine
  that loses its state by that.
* From the position on the history tells the same members as before.
* The entries above it are in the log as they were, and no others.
* It is that of the node's latest snapshot. -/
theorem snapshot_keeps_members {result : Except Failure Unit}
    (h : Orderly p den writers readers r mem) (hhistory : r.history.Reachable)
    (hmembers : ∀ x ∈ r.history.floor :: r.history.entries, x.IsV4)
    (hlast : r.snapshots.last = r.snapshotter.last.index) (hsave : SavesOnly m p r)
    (hrun : (takeSnapshot m).runOn r = (result, r'))
    (hended : r'.snapshotter.outcome? r.snapshotter.jobs.length = some (.ok (.saved id)))
    (hnew : r.snapshotter.last.index < id.index) :
    (∃ w made y w' v', SnapshotStore.create.runOn ⟨r.snapshots, r.volume⟩ = (.ok w, made) ∧
      m.save.runOn ⟨(r.machine, w), made.volume⟩ = (.ok id, ⟨(y, w'), v'⟩) ∧
      OpensAs v'.disk (.ofMembership id (r.history.get id.index)) w' r') ∧
    (∀ i, id.index ≤ i → (r'.history.get i).peers = (r.history.get i).peers ∧
      (r'.history.get i).former = (r.history.get i).former) ∧
    (∀ i, r'.log.get i r'.volume.disk =
      if i ≤ id.index then .ok none else r.log.get i r.volume.disk) ∧
    r'.snapshotter.last = id := by
  obtain ⟨hopens, hholds, hfloor, hlast'⟩ := h.taken hmembers hlast hsave hrun hended hnew
  refine ⟨hopens, fun i hi => members_of_floor hhistory hfloor hi, fun i => ?_, hlast'⟩
  rw [hholds.get, h.log.holds.get, MemoryLog.get_truncateBefore]
  simp only [Nat.lt_succ_iff]
  split <;> rfl

/-! A node has three entries in its log, two of which name members, and the machine has applied two
of them.  Somebody reads the snapshot that reaches to the first one. -/

open Simulation (BlobMachine)

/-- A group with that many members. -/
def group (n : Nat) : List Peer :=
  (List.range n).map fun i => { ip := .v4 127 0 0 1, port := 1, idx := i.toUInt32 }

/-- The snapshot that reaches to the first entry is read. -/
def firstRead : InUse := ((InUse.fresh.making 1).committing).opening

/-- The history of such a group. -/
def groupHistory : MembershipHistory :=
  (MembershipHistory.empty.after (.add (.ofEntry (.ofPeers 1 1 (group 1) none)))).after
    (.add (.ofEntry (.ofPeers 1 3 (group 3) (some (group 1)))))

/-- The log that such a group has. -/
def groupLog : MemoryLog where
  first := 1
  entries := [.ofPeers 1 1 (group 1) none, .noOp 1 2, .ofPeers 1 3 (group 3) (some (group 1))]

/-- The node, with a machine in some state. -/
def saverOf (x : σ) : Replica σ where
  volume := .ofDisk firstRead.disk
  machine := x
  snapshots := firstRead.store
  log := .memory groupLog
  history := groupHistory
  snapshotter := { last := ⟨1, 1⟩ }

theorem orderly_saverOf (x : σ) :
    Orderly (.ofText "s") ["s"] firstRead.writers firstRead.readers (saverOf x) groupLog :=
  ⟨(((InUse.reachable_fresh.making (by decide)).committing).opening).sound, rfl⟩

theorem isV4_saverOf (x : σ) :
    ∀ y ∈ (saverOf x).history.floor :: (saverOf x).history.entries, y.IsV4 := by
  show ∀ y ∈ groupHistory.floor :: groupHistory.entries, y.IsV4
  unfold Membership.IsV4
  decide +kernel

/-- Its machine saves a byte. -/
def saver : Replica BlobMachine := saverOf { applied := ⟨1, 2⟩, state := [7] }

theorem savesOnly_saver : SavesOnly BlobMachine.machine (.ofText "s") saver := by
  refine (orderly_saverOf _).savesOnly fun w v l hw leads hempty id y w' v' hrun => ?_
  obtain ⟨w'', v'', k, hsaved, hdir, hput⟩ := BlobMachine.runOn_save (b := saver.machine) hw leads
    (hempty _ (below_entry _)) rfl rfl
  obtain ⟨hid, hafter⟩ := Prod.mk.inj (hrun.symm.trans hsaved)
  obtain rfl := Except.ok.inj hid
  obtain ⟨⟨⟩, rfl⟩ := Mounted.mk.inj hafter
  exact ⟨hdir, (Outside.refl hw).put (below_entry _) hput, by decide, by decide, 1, rfl, .inr rfl⟩

/-- The snapshot names the one member of before, the third entry is left and names three. -/
theorem snapshot_keeps_members_saver :
    let r' := ((takeSnapshot BlobMachine.machine).runOn saver).2
    r'.snapshotter.last = ⟨1, 2⟩ ∧
      (∃ reader s, openLatest.runOn ⟨r'.snapshots, r'.volume⟩ = (.ok (some reader), s) ∧
        reader.info = .ok ⟨⟨1, 2⟩, .ofList (group 1), .empty⟩) ∧
      [2, 3].map (fun i => (r'.history.get i).peers) = [.ofList (group 1), .ofList (group 3)] ∧
      [2, 3].map (fun i => (r'.log.get i r'.volume.disk).toOption.join.isSome) = [false, true] := by
  intro r'
  have hhistory : saver.history.Reachable :=
    .change (.add (.ofEntry (.ofPeers 1 3 (group 3) (some (group 1)))))
      (.change (.add (.ofEntry (.ofPeers 1 1 (group 1) none))) .new)
  have hrun : (takeSnapshot BlobMachine.machine).runOn saver =
      (((takeSnapshot BlobMachine.machine).runOn saver).1, r') := rfl
  have hended : r'.snapshotter.outcome? 0 = some (.ok (.saved ⟨1, 2⟩)) := by decide +kernel
  obtain ⟨⟨w, made, y, w', v', -, -, reader, s, hopen, hinfo, -⟩, hsame, hlog, hlast⟩ :=
    snapshot_keeps_members (orderly_saverOf _) hhistory (isV4_saverOf _) (by decide +kernel)
      savesOnly_saver hrun hended (by decide)
  refine ⟨hlast, ⟨reader, _, hopen, hinfo.trans (by decide +kernel)⟩, ?_, ?_⟩
  · rw [List.map_cons, List.map_cons, List.map_nil, (hsame 2 (by decide)).1,
      (hsame 3 (by decide)).1]
    decide +kernel
  · rw [List.map_cons, List.map_cons, List.map_nil, hlog, hlog]
    decide +kernel

/-! A machine names its files as it likes.  If it takes the name that the store has for the draft of
the table, it is not refused, and the file is lost. -/

/-- The name of the draft. -/
def draftName : String := SnapshotName.table ++ ".tmp"

/-- A machine that has some bytes for its state and saves them under that name. -/
def draftMachine : StateMachine Bytes where
  applied _ := ⟨1, 2⟩
  save := do
    let (state, w) ← Mounted.stored
    Mounted.onVolume (Volume.fill (w.directory.entry draftName) state)
    let w ← Act.ofExcept (w.addFile draftName ⟨none⟩)
    Mounted.update fun s => (s.1, w)
    return ⟨1, 2⟩
  load _ := pure ()

/-- What a save of that machine does. -/
theorem runOn_save_draftMachine (state : Bytes) {l : Location} (hw : v.disk.WellFormed)
    (leads : v.disk.directoryAt w.directory = .ok l)
    (hnone : v.disk.item? (l ++ [draftName]) = none) : ∃ w' v' k,
    draftMachine.save.runOn ⟨(state, w), v⟩ = (.ok ⟨1, 2⟩, ⟨(state, w'), v'⟩) ∧
      w'.directory = w.directory ∧
      Puts v.disk v'.disk (l ++ [draftName]) (some (.file k state)) := by
  obtain ⟨k, v', hfill, hput⟩ := Volume.runOn_fill leads (Path.plain_draft SnapshotName.table) hw
    (by rw [show SnapshotName.table ++ ".tmp" = draftName from rfl, hnone]; simp) state
  let w' : SnapshotWriter := { w with table := { w.table with
    files := w.table.files.insert draftName ⟨none⟩ } }
  have hadd : w.addFile draftName ⟨none⟩ = .ok w' := by
    have hname : SnapshotName.check draftName = .ok () := by decide
    rw [SnapshotWriter.addFile, hname]
    rfl
  refine ⟨w', v', k, ?_, rfl, hput⟩
  show (Mounted.stored >>= _).runOn _ = _
  rw [Act.runOn_bind_ok (Mounted.runOn_stored _)]
  dsimp only
  rw [Act.runOn_bind_ok (Mounted.runOn_onVolume_ok hfill),
    Act.runOn_bind_ok (Act.runOn_ofExcept_ok hadd _), Act.runOn_bind_ok (Mounted.runOn_update _ _)]
  rfl

/-- It keeps to the directory that it is given. -/
theorem savesOnly_draftMachine (state : Bytes) :
    SavesOnly draftMachine (.ofText "s") (saverOf state) := by
  refine (orderly_saverOf state).savesOnly fun w v l hw leads hempty id y w' v' hrun => ?_
  obtain ⟨w'', v'', k, hsaved, hdir, hput⟩ := runOn_save_draftMachine state hw leads
    (hempty _ (below_entry _))
  obtain ⟨hid, hafter⟩ := Prod.mk.inj (hrun.symm.trans hsaved)
  obtain rfl := Except.ok.inj hid
  obtain ⟨⟨⟩, rfl⟩ := Mounted.mk.inj hafter
  exact ⟨hdir, (Outside.refl hw).put (below_entry _) hput, by decide, by decide, 1, rfl, .inr rfl⟩

/-- The machine does what is asked of it, and wrote its state.  The job ends well, with the newer
position, and who opens the snapshot is told of a file that is not there. -/
theorem snapshot_loses_draft :
    SavesOnly draftMachine (.ofText "s") (saverOf [7]) ∧
    let r := saverOf ([7] : Bytes)
    let r' := ((takeSnapshot draftMachine).runOn r).2
    r'.snapshotter.outcome? 0 = some (.ok (.saved ⟨1, 2⟩)) ∧ r.snapshotter.last.index < 2 ∧
      (∃ w made w' v', SnapshotStore.create.runOn ⟨r.snapshots, r.volume⟩ = (.ok w, made) ∧
        draftMachine.save.runOn ⟨(r.machine, w), made.volume⟩ = (.ok ⟨1, 2⟩, ⟨([7], w'), v'⟩) ∧
        draftName ∈ w'.table.names ∧ v'.disk.read (w'.directory.entry draftName) = .ok [7]) ∧
      ∃ reader s, openLatest.runOn ⟨r'.snapshots, r'.volume⟩ = (.ok (some reader), s) ∧
        draftName ∈ reader.table.names ∧
        s.volume.disk.read (reader.directory.entry draftName) = .error .missing := by
  refine ⟨savesOnly_draftMachine [7], ?_⟩
  intro r r'
  have hended : r'.snapshotter.outcome? 0 = some (.ok (.saved ⟨1, 2⟩)) := by decide +kernel
  -- what the machine does can be seen by running it
  let created := SnapshotStore.create.runOn ⟨r.snapshots, r.volume⟩
  let w : SnapshotWriter := ⟨(Path.ofText "s").entry (temporary 1), false, .empty⟩
  let w' : SnapshotWriter := { w with table := ⟨none, Table.empty.insert draftName ⟨none⟩⟩ }
  let saved := draftMachine.save.runOn ⟨(r.machine, w), created.2.volume⟩
  have hcreated : created = (.ok w, created.2) := Prod.ext (by decide +kernel) rfl
  have hstore : saved.2.store = ([7], w') := by decide +kernel
  have hsaved : saved = (.ok ⟨1, 2⟩, ⟨([7], w'), saved.2.volume⟩) :=
    Prod.ext (by decide +kernel) (by rw [← hstore])
  -- and then it is as after any save
  obtain ⟨⟨w₁, made, y, w₁', v', hcreate, hsave, reader, s, hopen, -, hfiles, -, hdraft⟩, -⟩ :=
    (orderly_saverOf [7]).taken (isV4_saverOf [7]) (by decide +kernel) (savesOnly_draftMachine [7]) rfl
      hended (by decide)
  obtain ⟨hw, rfl⟩ := Prod.mk.inj (hcreate.symm.trans hcreated)
  obtain rfl := Except.ok.inj hw
  obtain ⟨-, hmade⟩ := Prod.mk.inj (hsave.symm.trans hsaved)
  obtain ⟨hpair, rfl⟩ := Mounted.mk.inj hmade
  obtain ⟨-, rfl⟩ := Prod.mk.inj hpair
  refine ⟨hended, by decide, ⟨w, created.2, w', saved.2.volume, hcreated, hsaved,
    by decide +kernel, by decide +kernel⟩, reader, _, hopen, ?_, hdraft⟩
  rw [SnapshotTable.names, hfiles]
  decide +kernel

end Replica
end RaftReplica
