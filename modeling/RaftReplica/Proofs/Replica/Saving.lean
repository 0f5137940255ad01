/-
RaftReplica/Proofs/Replica/Saving.lean

A node that takes a snapshot.  The job makes a directory for it, the machine saves its state there,
and the snapshot is published with the members as of the position that the machine told; then the
log is dropped up to there (`Settled.takeSnapshot`).

What holds of the node at each stage of the job is said by `Taking`, and every step leads to a stage
with fewer of them to go (`Advances`).  Nothing else happens between the steps here.

While the snapshot is in the making, its directory is the only thing that is new.  So the node would
be settled if that directory were not there, and this is how it is said: `Replica.without` takes the
directory off the disk, and a `Drafting` node is settled without it.  Each step then has one thing to
show.

* Making puts a directory where there was none (`Settled.advances_making`).
* Saving writes below that directory (`Drafting.withWritten`), as is asked of the machine (`Saves`);
  what the writer owns is not in the directory of the log, nor elsewhere in that of the snapshots.
* Publishing renames the directory, and then the log and the history are compacted
  (`Settled.compact`).  A table that is too long for a record is refused, the directory is removed,
  and the node is as it was.
-/
import RaftReplica.Proofs.Replica.Sections
import RaftReplica.Proofs.Replica.Settled

namespace RaftReplica

open Disk SnapshotStore

namespace JobStage

/-- How many steps a job that takes a snapshot has to go, at most. -/
def savingSteps : JobStage → Nat
  | making _ => 5
  | saving .. => 4
  | publishing .. => 3
  | recordingSave _ => 2
  | endingSave _ => 1
  | _ => 0

end JobStage

/-- What is below the directory of the snapshot in the making. -/
def SnapshotWriter.Owns (w : SnapshotWriter) (d : Disk) (m : Location) : Prop :=
  ∃ l, d.directoryAt w.directory = .ok l ∧ Below l m

namespace Replica

variable {σ : Type} {m : StateMachine σ} {d base : Disk} {v : Volume} {home den l : Location}
  {pl : Storages.Places} {r r' : Replica σ} {mem : MemoryLog} {latest : Option SnapshotMeta}
  {name : String} {w w' : SnapshotWriter} {id : LogId} {a c : JobStage} {x : σ} {n k : Nat}

/-! ### The run of a job -/

/-- A job goes on for so many steps. -/
def goOn (m : StateMachine σ) (number : Nat) : Nat → Act (Replica σ) Unit
  | 0 => pure ()
  | steps + 1 => do
    stepJob m number
    goOn m number steps

/-- A job that goes on is at the next stage after its step. -/
theorem runOn_goOn (hjob : r.snapshotter.jobs[n]? = some a)
    (hrun : (advance m a).runOn r = (.ok c, r')) (k : Nat) :
    (goOn m n (k + 1)).runOn r =
        (goOn m n k).runOn { r' with snapshotter := r'.snapshotter.setJob n c } ∧
      (r'.snapshotter.setJob n c).jobs[n]? = some c := by
  obtain ⟨c', r'', hadvance, hleads, hstep⟩ := runOn_stepJob m n r
  rw [Snapshotter.job_eq hjob, hrun] at hadvance
  obtain ⟨hc, rfl⟩ := Prod.mk.inj hadvance
  obtain rfl := Except.ok.inj hc
  refine ⟨by rw [goOn, Act.runOn_bind_ok hstep], List.getElem?_set_self ?_⟩
  rw [hleads.jobs_eq]
  exact (List.getElem?_eq_some_iff.1 hjob).1

/-- Takes a snapshot: the job that does so is over after five steps. -/
def takeSnapshot (m : StateMachine σ) : Act (Replica σ) Unit := do
  match ← requestSnapshot m with
  | .done _ => pure ()
  | .job number => goOn m number 5

/-- A request for a snapshot starts a job if the machine is ahead of the latest one, or else it
changes nothing. -/
theorem requestSnapshot_cases (m : StateMachine σ) (r : Replica σ) :
    (∃ e, (requestSnapshot m).runOn r = (.error e, r)) ∨
    (∃ id, (requestSnapshot m).runOn r = (.ok (.done id), r)) ∨
    r.snapshotter.last.index < (m.applied r.machine).index ∧
      (requestSnapshot m).runOn r = (.ok (.job r.snapshotter.jobs.length), { r with
        snapshotter := { r.snapshotter with
          saving := true, jobs := r.snapshotter.jobs ++ [.making r.snapshotter.last] } }) := by
  unfold requestSnapshot
  rw [Act.runOn_bind_ok (runOn_theSnapshotter r)]
  dsimp only
  -- the ladder of the request: stopped, saving, installing, nothing new, or a job
  split
  · exact .inl ⟨_, rfl⟩
  split
  · exact .inl ⟨_, rfl⟩
  split
  · exact .inl ⟨_, rfl⟩
  rw [Act.runOn_bind_ok (Act.runOn_get r)]
  split
  · exact .inr (.inl ⟨_, rfl⟩)
  next hlt => exact .inr (.inr ⟨by omega, rfl⟩)

/-! ### A snapshot in the making -/

/-- What the machine wrote on `d` is in the directory of the snapshot in the making, or it is nothing
to the stores, and no directory is where the table of the snapshot belongs. -/
structure Wrote (pl : Storages.Places) (d : Disk) (w w' : SnapshotWriter) (d' : Disk) : Prop where
  directory : w'.directory = w.directory
  spared : pl.Spared (w.Owns d) d d'
  table : d'.isDirectory (SnapshotTable.file w.directory) = false
  draft : d'.isDirectory (Record.draft (SnapshotTable.file w.directory)) = false

/-- The machine saves its state into the next snapshot, and tells the position of an entry that is
in the log. -/
def Saves (m : StateMachine σ) (pl : Storages.Places) (r : Replica σ) : Prop :=
  ∀ w s, create.runOn ⟨r.snapshots, r.volume⟩ = (.ok w, s) → ∃ id x w' v',
    m.save.runOn ⟨(r.machine, w), s.volume⟩ = (.ok id, ⟨(x, w'), v'⟩) ∧
      Wrote pl s.volume.disk w w' v'.disk ∧ id.index < Numeral.max64 ∧
      ∃ e, r.log.get id.index r.volume.disk = .ok (some e) ∧ e.id = id

/-- **A machine that writes only in the directory that it is given**, and no table of its own, does
save. -/
theorem Settled.saves (h : Settled base home den pl r mem latest)
    (hapart : Apart base home den pl.log pl.snapshots)
    (hballots : ∀ x ∈ pl.ballots, ∃ l, base.directoryAt x.1 = .ok l)
    (hid : id.index < Numeral.max64)
    (hentry : ∃ e, r.log.get id.index r.volume.disk = .ok (some e) ∧ e.id = id)
    (hsave : ∀ w v l, v.disk.WellFormed → v.disk.directoryAt w.directory = .ok l →
      (∀ m, Below l m → v.disk.item? m = none) → ∃ x w' v',
        m.save.runOn ⟨(r.machine, w), v⟩ = (.ok id, ⟨(x, w'), v'⟩) ∧ w'.directory = w.directory ∧
        Outside v.disk.item? l v'.disk ∧ v'.disk.item? (l ++ [SnapshotName.table]) = none ∧
        v'.disk.item? (l ++ [SnapshotName.table ++ ".tmp"]) = none) : Saves m pl r := by
  intro w s hcreate
  obtain ⟨w₁, v', hcreate', hdir, hput⟩ := h.hold.stands.runOn_create
  rw [hcreate'] at hcreate
  obtain ⟨hw, rfl⟩ := Prod.mk.inj hcreate
  obtain rfl := Except.ok.inj hw
  let name := SnapshotName.temporary r.snapshots.nextTemporary
  have hname : SnapshotName.isTemporary name = true := SnapshotName.isTemporary_temporary _
  have hbeside := Beside.of_puts hput
  have leads {d : Disk} (hd : Beside r.volume.disk (den ++ [name]) d) :
      d.directoryAt w₁.directory = .ok (den ++ [name]) := by
    rw [hdir]
    exact directoryAt_entry (h.hold.stands.rooted _ hd.outside)
      (SnapshotName.plain_of_isTemporary hname) hd.directory
  -- the directory was made just now, so there is nothing in it
  have hempty (m : Location) (hm : Below (den ++ [name]) m) : v'.disk.item? m = none := by
    rw [hput.item?_ne hm.2, h.hold.stands.item?_of_prefix hname hm.1]
  obtain ⟨x, w', v'', hrun, hdir', ho, htable, hdraft⟩ :=
    hsave w₁ v' _ hbeside.wellFormed (leads hbeside) hempty
  have leads' := leads (hbeside.trans ho)
  refine ⟨id, x, w', v'', hrun, ⟨hdir', ?_, ?_, ?_⟩, hid, hentry⟩
  · refine .of_outside hempty ho (fun m hm => ⟨_, leads hbeside, hm⟩) fun x hx hx' => ?_
    -- the ballots were there before
    obtain ⟨l, hl⟩ := hballots x hx
    have hk := h.kept.inSnapshots hapart hbeside.outside
    obtain rfl := Except.ok.inj ((hk.ballots x hx l hl).1.symm.trans hx')
    exact hapart.symm.not_below_of_directory (item?_eq_directory_iff.2 (node?_home hl))
      (below_entry name)
  · rw [← Bool.not_eq_true, SnapshotTable.file, isDirectory_entry leads' SnapshotName.plain_table, htable]
    simp
  · rw [← Bool.not_eq_true, SnapshotTable.file, Record.draft_entry,
      isDirectory_entry leads' (Path.plain_draft _), hdraft]
    simp

/-- The node as if there were nothing at a place on its disk. -/
def without (r : Replica σ) (l : Location) : Replica σ :=
  { r with volume := { r.volume with disk := r.volume.disk.drop l } }

/-- A snapshot is in the making, and the node has settled but for that. -/
structure Drafting (base : Disk) (home den : Location) (pl : Storages.Places) (r : Replica σ)
    (mem : MemoryLog) (latest : Option SnapshotMeta) (name : String) (w : SnapshotWriter) :
    Prop where
  settled : Settled base home den pl (r.without (den ++ [name])) mem latest
  wellFormed : r.volume.disk.WellFormed
  temporary : SnapshotName.isTemporary name = true
  item?_eq : r.volume.disk.item? (den ++ [name]) = some .directory
  directory : w.directory = r.snapshots.directory.entry name

/-- What holds of a node at a stage of the job that takes a snapshot. -/
inductive Taking (m : StateMachine σ) (base : Disk) (home den : Location) (pl : Storages.Places)
    (r : Replica σ) : JobStage → Prop
  | making {mem : MemoryLog} {latest : Option SnapshotMeta}
      (h : Settled base home den pl r mem latest) (hsave : Saves m pl r) :
      Taking m base home den pl r (.making (reach latest))
  | saving {mem : MemoryLog} {latest : Option SnapshotMeta} {v' : Volume} {name : String}
      {w w' : SnapshotWriter} {id : LogId} {x : σ}
      (h : Drafting base home den pl r mem latest name w)
      (hsave : m.save.runOn ⟨(r.machine, w), r.volume⟩ = (.ok id, ⟨(x, w'), v'⟩))
      (hwrote : Wrote pl r.volume.disk w w' v'.disk) (hid : id.index < Numeral.max64)
      (hentry : ∃ e, mem.get id.index = some e ∧ e.id = id) :
      Taking m base home den pl r (.saving (reach latest) w)
  | publishing {mem : MemoryLog} {latest : Option SnapshotMeta} {name : String}
      {w : SnapshotWriter} {id : LogId} (h : Drafting base home den pl r mem latest name w)
      (htable : r.volume.disk.isDirectory (SnapshotTable.file w.directory) = false)
      (hdraft : r.volume.disk.isDirectory (Record.draft (SnapshotTable.file w.directory)) = false)
      (hid : id.index < Numeral.max64) (hentry : ∃ e, mem.get id.index = some e ∧ e.id = id) :
      Taking m base home den pl r (.publishing w id)
  | recordingSave {mem : MemoryLog} {latest : Option SnapshotMeta} {id : LogId}
      (h : Settled base home den pl
        { r with snapshotter := { r.snapshotter with last := id } } mem latest) :
      Taking m base home den pl r (.recordingSave id)
  | endingSave {mem : MemoryLog} {latest : Option SnapshotMeta} {result : Except Error JobResult}
      (h : Settled base home den pl r mem latest) :
      Taking m base home den pl r (.endingSave result)
  | over {mem : MemoryLog} {latest : Option SnapshotMeta} {result : Except Error JobResult}
      (h : Settled base home den pl r mem latest) : Taking m base home den pl r (.over result)

/-- Without a directory the disk has nothing there, and otherwise what it had. -/
theorem item?_without (hw : r.volume.disk.WellFormed) (name : String) (m : Location) :
    (r.without (den ++ [name])).volume.disk.item? m =
      if den ++ [name] <+: m then none else r.volume.disk.item? m :=
  item?_drop hw (by simp) m

namespace Drafting

variable (h : Drafting base home den pl r mem latest name w)

include h

/-- What is made is beside all the rest. -/
theorem beside :
    Beside (r.without (den ++ [name])).volume.disk (den ++ [name]) r.volume.disk := by
  refine ⟨h.wellFormed, fun m hm => ?_⟩
  by_cases he : m = den ++ [name]
  · rw [he, Function.update_self, h.item?_eq]
  · have hp : ¬ den ++ [name] <+: m := fun hp => hm ⟨hp, he⟩
    rw [Function.update_of_ne he, item?_without h.wellFormed, if_neg hp]

/-- The writer has a directory. -/
theorem leads : r.volume.disk.directoryAt w.directory = .ok (den ++ [name]) := by
  rw [h.directory]
  exact directoryAt_entry (h.settled.hold.stands.rooted _ h.beside.outside)
    (SnapshotName.plain_of_isTemporary h.temporary) h.item?_eq

/-- What the machine writes leaves all the rest as it was. -/
theorem withWritten (hapart : Apart base home den pl.log pl.snapshots)
    (hwrote : Wrote pl r.volume.disk w w' v.disk) (x : σ) :
    Drafting base home den pl { r with machine := x, volume := v } mem latest name w' := by
  have hk := h.settled.kept.inSnapshots hapart h.beside.outside
  have hk' := hk.spared hwrote.spared
  have hw' := hk'.wellFormed
  -- nothing else in the directories of the log and of the snapshots was written
  have hown {m : Location} (hm : ¬ Below (den ++ [name]) m) : ¬ w.Owns r.volume.disk m := by
    rintro ⟨l, hl, hb⟩
    obtain rfl := Except.ok.inj (hl.symm.trans h.leads)
    exact hm hb
  have hsame {p : Path} {l : Location} (hp : r.volume.disk.directoryAt p = .ok l)
      (hs : Storages.Spares (w.Owns r.volume.disk) p r.volume.disk v.disk) (m : Location)
      (hm : Below l m) : (v.disk.drop (den ++ [name])).item? m = (r.without (den ++ [name])).volume.disk.item? m := by
    rw [item?_drop hw' (by simp), item?_without h.wellFormed]
    split
    · rfl
    · next hnot => exact (hs l hp).2 m hm (hown fun hb => hnot hb.1)
  have hdrop : Outside v.disk.item? den (v.disk.drop (den ++ [name])) :=
    (Outside.refl hw').drop (below_entry name)
  refine ⟨?_, hw', h.temporary, ?_, hwrote.directory.trans h.directory⟩
  · exact h.settled.elsewhere hapart x (hk'.inSnapshots hapart hdrop)
      (hsame hk.log hwrote.spared.log) (hsame hk.snapshots hwrote.spared.snapshots)
  · rw [(hwrote.spared.snapshots den hk.snapshots).2 _ (below_entry name) (hown fun hb => hb.2 rfl),
      h.item?_eq]

/-- A name that is no directory for the writer is none at its place. -/
theorem item?_ne_directory {x : String} (hn : Path.Plain x)
    (hd : r.volume.disk.isDirectory (w.directory.entry x) = false) :
    r.volume.disk.item? (den ++ [name] ++ [x]) ≠ some .directory := by
  rw [Ne, ← isDirectory_entry h.leads hn, hd]
  exact Bool.false_ne_true

end Drafting

/-! ### Its steps -/

/-- A step of the job leads to a stage with fewer steps to go. -/
def Advances (m : StateMachine σ) (base : Disk) (home den : Location) (pl : Storages.Places) (r : Replica σ)
    (a : JobStage) : Prop :=
  ∃ c r', (advance m a).runOn r = (.ok c, r') ∧ Taking m base home den pl r' c ∧
    c.savingSteps ≤ a.savingSteps - 1

/-- The writer is made. -/
theorem Settled.advances_making (h : Settled base home den pl r mem latest)
    (hapart : Apart base home den pl.log pl.snapshots) (hsave : Saves m pl r) :
    Advances m base home den pl r (.making (reach latest)) := by
  obtain ⟨w, v', hcreate, hdir, hput⟩ := h.hold.stands.runOn_create
  have hbeside := Beside.of_puts hput
  obtain ⟨id, x, w', v'', hrun, hwrote, hid, e, hentry, rfl⟩ := hsave _ _ hcreate
  have hget : mem.get e.id.index = some e := Except.ok.inj ((h.hold.get_eq _).symm.trans hentry)
  have hmake : (do return JobStage.saving (reach latest) (← onSnapshots create)).runOn r =
      (.ok (.saving (reach latest) w), { r with
        snapshots := { r.snapshots with nextTemporary := r.snapshots.nextTemporary + 1 }
        volume := v' }) := by
    rw [onSnapshots, Act.runOn_bind, Act.runOn_zoom, hcreate]
    rfl
  let name := SnapshotName.temporary r.snapshots.nextTemporary
  have hname : SnapshotName.isTemporary name = true := SnapshotName.isTemporary_temporary _
  refine ⟨_, _, runOn_orElse_ok hmake, .saving ⟨?_, hbeside.wellFormed, hname, hbeside.directory, hdir⟩
    hrun hwrote hid ⟨e, hget, rfl⟩, Nat.le_refl 4⟩
  -- without what was made the disk is as it was
  have hsame (m : Location) : (v'.disk.drop (den ++ [name])).item? m = r.volume.disk.item? m := by
    rw [item?_drop hbeside.wellFormed (by simp)]
    split
    · next hp => rw [h.hold.stands.item?_of_prefix hname hp]
    · next hp => exact hbeside.item?_ne hp
  have hk : pl.Kept base home den (v'.disk.drop (den ++ [name])) :=
    h.kept.change hapart (hbeside.wellFormed.drop _) fun m _ _ => hsame m
  have hsettled := h.elsewhere hapart r.machine (v := { v' with disk := v'.disk.drop (den ++ [name]) }) hk
    (fun m _ => hsame m) fun m _ => hsame m
  exact ⟨hsettled.kept, ⟨hsettled.hold.log, hsettled.hold.directory, hsettled.hold.stands.withNext _⟩,
    h.first, h.bounded, h.proper, h.history, h.last⟩

namespace Drafting

variable (h : Drafting base home den pl r mem latest name w)

include h

/-- The machine saves its state. -/
theorem advances_saving (hapart : Apart base home den pl.log pl.snapshots)
    (hsave : m.save.runOn ⟨(r.machine, w), r.volume⟩ = (.ok id, ⟨(x, w'), v⟩))
    (hwrote : Wrote pl r.volume.disk w w' v.disk) (hid : id.index < Numeral.max64)
    (hentry : ∃ e, mem.get id.index = some e ∧ e.id = id) :
    Advances m base home den pl r (.saving (reach latest) w) := by
  -- the position is in the log, which starts behind the latest snapshot
  have hlt : (reach latest).index < id.index := by
    obtain ⟨e, he, -⟩ := hentry
    have hle := (MemoryLog.mem_of_get he).1
    have hfirst := h.settled.first
    omega
  have hrun : (letSave m w).runOn r = (.ok (.ok id, w'), { r with machine := x, volume := v }) := by
    rw [letSave, Act.runOn_ofStep, hsave]
  refine ⟨.publishing w' id, _, ?_, .publishing (h.withWritten hapart hwrote x) ?_ ?_ hid hentry,
    Nat.le_refl 3⟩
  · rw [advance, Act.runOn_bind_ok hrun]
    dsimp only
    rw [afterSave, if_pos hlt]
    rfl
  · rw [hwrote.directory]
    exact hwrote.table
  · rw [hwrote.directory]
    exact hwrote.draft

/-- The snapshot is published, and the log dropped up to it; if it has too large a table it is given
up. -/
theorem advances_publishing (hapart : Apart base home den pl.log pl.snapshots)
    (htable : r.volume.disk.isDirectory (SnapshotTable.file w.directory) = false)
    (hdraft : r.volume.disk.isDirectory (Record.draft (SnapshotTable.file w.directory)) = false)
    (hid : id.index < Numeral.max64) (hentry : ∃ e, mem.get id.index = some e ∧ e.id = id) :
    Advances m base home den pl r (.publishing w id) := by
  obtain ⟨e, hget, rfl⟩ := hentry
  obtain ⟨hfirst, hmem⟩ := MemoryLog.mem_of_get hget
  have hproper := h.settled.proper e hmem
  have hstands : r.snapshots.Stands (r.without (den ++ [name])).volume.disk den latest :=
    h.settled.hold.stands
  let info := SnapshotMeta.ofMembership e.id (r.history.get e.id.index)
  have hinfo : info.Proper :=
    SnapshotMeta.proper_ofMembership hproper.term hproper.index (h.settled.isV4_get _)
  have hlt : r.snapshots.last < info.lastIncluded.index := by
    have hlast : r.snapshots.last = (reach latest).index := hstands.last
    have hstart := h.settled.first
    show r.snapshots.last < e.id.index
    omega
  rw [SnapshotTable.file, Record.draft_entry] at hdraft
  -- two ends: the table is stored, or it is too long for a record
  rcases hstands.runOn_commit (w := w.setInfo info) h.temporary h.beside h.directory
    (h.item?_ne_directory SnapshotName.plain_table htable)
    (h.item?_ne_directory (Path.plain_draft _) hdraft) rfl hinfo hlt with
    ⟨s', v', hcommit, hdir, hstands', ho⟩ | ⟨v', hcommit, hstands', hsame⟩
  · have hposition : e.id = info.lastIncluded := rfl
    obtain ⟨mem', r', hcompact, hsettled⟩ :=
      h.settled.compact hapart hget hposition hid ho hdir hstands'
    refine ⟨.recordingSave e.id, r', runOn_orElse_ok ?_, .recordingSave hsettled, Nat.le_refl 2⟩
    have hcommit' : (onSnapshots (commit (w.setInfo info))).runOn r =
        (.ok info.lastIncluded.index, { r with snapshots := s', volume := v' }) := by
      rw [onSnapshots, Act.runOn_zoom, hcommit]
    have hpublish : (publish w e.id).runOn r = (.ok (), r') := by
      rw [publish, Act.runOn_bind_ok (Act.runOn_get r), Act.runOn_bind_ok hcommit']
      exact hcompact
    rw [Act.runOn_bind_ok hpublish]
    rfl
  · let tooLarge : Error :=
      .invalidArgument (.recordTooLarge (Json.encode (w.setInfo info).table).length)
    have ho : Outside (r.without (den ++ [name])).volume.disk.item? den v'.disk := ⟨hstands'.wellFormed, fun m _ => by rw [hsame]⟩
    refine ⟨.endingSave (.error tooLarge), { r with volume := v' }, runOn_orElse_error ?_,
      .endingSave (h.settled.withSnapshots hapart ho rfl hstands'), Nat.le_succ 1⟩
    have hcommit' : (onSnapshots (commit (w.setInfo info))).runOn r =
        (.error (.error tooLarge), { r with volume := v' }) := by
      rw [onSnapshots, Act.runOn_zoom, hcommit]
    have hpublish : (publish w e.id).runOn r =
        (.error (.error tooLarge), { r with volume := v' }) := by
      rw [publish, Act.runOn_bind_ok (Act.runOn_get r), Act.runOn_bind_error hcommit']
    rw [Act.runOn_bind_error hpublish]

end Drafting

namespace Taking

variable (h : Taking m base home den pl r a)

include h

/-- The other jobs do not count. -/
theorem aside {s : Snapshotter} (hs : s.last = r.snapshotter.last) :
    Taking m base home den pl { r with snapshotter := s } a := by
  have hdraft {mem : MemoryLog} {latest : Option SnapshotMeta} {name : String} {w : SnapshotWriter}
      (h : Drafting base home den pl r mem latest name w) :
      Drafting base home den pl { r with snapshotter := s } mem latest name w :=
    ⟨h.settled.aside hs, h.wellFormed, h.temporary, h.item?_eq, h.directory⟩
  cases h with
  | making h hsave => exact .making (h.aside hs) hsave
  | saving h hsave hwrote hid hentry => exact .saving (hdraft h) hsave hwrote hid hentry
  | publishing h htable hdraft' hid hentry => exact .publishing (hdraft h) htable hdraft' hid hentry
  | recordingSave h => exact .recordingSave (h.aside rfl)
  | endingSave h => exact .endingSave (h.aside hs)
  | «over» h => exact .over (h.aside hs)

variable (hapart : Apart base home den pl.log pl.snapshots)

include hapart

/-- **Every step of the job** leads to a stage with fewer of them to go. -/
theorem advances : Advances m base home den pl r a := by
  cases h with
  | making h hsave => exact h.advances_making hapart hsave
  | saving h hsave hwrote hid hentry => exact h.advances_saving hapart hsave hwrote hid hentry
  | publishing h htable hdraft hid hentry =>
    exact h.advances_publishing hapart htable hdraft hid hentry
  | recordingSave h => exact ⟨_, _, rfl, .endingSave h, Nat.le_refl 1⟩
  | endingSave h => exact ⟨_, _, rfl, .over (h.aside rfl), Nat.le_refl 0⟩
  | «over» h => exact ⟨_, _, rfl, .over h, Nat.le_refl 0⟩

/-- **The job that takes a snapshot** is over in the end, and the node has settled. -/
theorem settles (hjob : r.snapshotter.jobs[n]? = some a) (hk : a.savingSteps ≤ k) :
    ∃ mem latest, Settled base home den pl ((goOn m n k).runOn r).2 mem latest := by
  induction k generalizing r a with
  | zero =>
    cases h with
    | «over» h => exact ⟨_, _, h⟩
    | _ => exact absurd hk (by simp [JobStage.savingSteps])
  | succ k ih =>
    obtain ⟨c, r', hadvance, htaking, hle⟩ := h.advances hapart
    obtain ⟨hgo, hjob'⟩ := runOn_goOn hjob hadvance k
    rw [hgo]
    exact ih (htaking.aside rfl) hjob' (by omega)

end Taking

/-- **A snapshot that is taken**, or is not, leaves the node settled. -/
theorem Settled.takeSnapshot (h : Settled base home den pl r mem latest)
    (hapart : Apart base home den pl.log pl.snapshots)
    (hsave : r.snapshotter.last.index < (m.applied r.machine).index → Saves m pl r) :
    ∃ mem' latest', Settled base home den pl ((takeSnapshot m).runOn r).2 mem' latest' := by
  rw [Replica.takeSnapshot]
  rcases requestSnapshot_cases m r with ⟨e, hrequest⟩ | ⟨id, hrequest⟩ | ⟨hlt, hrequest⟩
  · rw [Act.runOn_bind_error hrequest]
    exact ⟨mem, latest, h⟩
  · rw [Act.runOn_bind_ok hrequest]
    exact ⟨mem, latest, h⟩
  · rw [Act.runOn_bind_ok hrequest]
    let begun : Snapshotter := { r.snapshotter with
      saving := true, jobs := r.snapshotter.jobs ++ [.making r.snapshotter.last] }
    have htaking : Taking m base home den pl { r with snapshotter := begun }
        (.making (reach latest)) := Taking.aside (.making h (hsave hlt)) rfl
    refine htaking.settles hapart ?_ (Nat.le_refl 5)
    rw [← h.last]
    exact List.getElem?_concat_length

end Replica
end RaftReplica
