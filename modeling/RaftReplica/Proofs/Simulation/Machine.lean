/-
RaftReplica/Proofs/Simulation/Machine.lean

The machine that nodes are tried with, as one that they can rely on.  It saves its state in one file
of the directory that it is given, so what it does is nothing to the stores (`BlobMachine.saves`),
and it only reads when it takes the state of a snapshot (`BlobMachine.runOn_load`).

These are the two things that a node asks of any machine, and the results about restarts and about
snapshots are stated for all machines that do them.  Here it is seen that there is such a machine,
and the examples are run with it.

Whether it fails or breaks an assertion while it saves is a setting of the machine; both are
switched off in what is proved here.
-/
import RaftReplica.Proofs.Replica.Saving
import RaftReplica.Simulation.Machine

namespace RaftReplica.Simulation.BlobMachine

open Disk

variable {b : BlobMachine} {w : SnapshotWriter} {v : Volume} {l : Location}

theorem plain_fileName : Path.Plain fileName := by
  refine ⟨?_, ?_, ?_⟩ <;> decide

/-- **The state is saved** in one file. -/
theorem runOn_save (hw : v.disk.WellFormed) (leads : v.disk.directoryAt w.directory = .ok l)
    (hnone : v.disk.item? (l ++ [fileName]) = none) (hpanics : b.savePanics = false)
    (herror : b.saveError = none) : ∃ w' v' k,
    save.runOn ⟨(b, w), v⟩ = (.ok (b.saveId.getD b.applied), ⟨(b, w'), v'⟩) ∧
      w'.directory = w.directory ∧
      Puts v.disk v'.disk (l ++ [fileName]) (some (.file k b.state)) := by
  obtain ⟨k, v', hfill, hput⟩ :=
    Volume.runOn_fill leads plain_fileName hw (by rw [hnone]; simp) b.state
  -- the file is filled first, and its sum is taken from what is read back
  have hread : v'.disk.read (w.directory.entry fileName) = .ok b.state := by
    rw [read_entry (hput.directoryAt (by rw [hnone]; simp) leads) plain_fileName, hput.item?_self]
  have hsum : (Volume.look (FileMeta.ofFile (w.directory.entry fileName))).runOn v' =
      (.ok ⟨some (Crc32.checksum b.state)⟩, v') := by
    refine Volume.runOn_look_ok ?_
    rw [FileMeta.ofFile, hread]
    rfl
  let w' : SnapshotWriter := { w with table := { w.table with
    files := w.table.files.insert fileName ⟨some (Crc32.checksum b.state)⟩ } }
  have hadd : w.addFile fileName ⟨some (Crc32.checksum b.state)⟩ = .ok w' := by
    have hname : SnapshotName.check fileName = .ok () := by decide
    rw [SnapshotWriter.addFile, hname]
    rfl
  refine ⟨w', v', k, ?_, rfl, hput⟩
  rw [save, Act.runOn_bind_ok (Mounted.runOn_stored _)]
  dsimp only
  rw [Act.runOn_bind_ok (Act.runOn_require_of (by rw [hpanics]; rfl) _ _),
    Act.runOn_bind_ok (Mounted.runOn_onVolume_ok hfill),
    Act.runOn_bind_ok (Mounted.runOn_onVolume_ok hsum),
    Act.runOn_bind_ok (Act.runOn_ofExcept_ok hadd _), Act.runOn_bind_ok (Mounted.runOn_update _ _),
    herror]
  rfl

open Replica in
/-- **A node with this machine saves**, unless the machine was told to fail, if it is told the
position of an entry in the log. -/
theorem saves {base : Disk} {home den : Location} {pl : Storages.Places} {r : Replica BlobMachine}
    {mem : MemoryLog} {latest : Option SnapshotMeta}
    (h : Settled base home den pl r mem latest) (hapart : Apart base home den pl.log pl.snapshots)
    (hballots : ∀ x ∈ pl.ballots, ∃ l, base.directoryAt x.1 = .ok l)
    (hpanics : r.machine.savePanics = false) (herror : r.machine.saveError = none)
    (hid : (r.machine.saveId.getD r.machine.applied).index < Numeral.max64)
    (hentry : ∃ e, r.log.get (r.machine.saveId.getD r.machine.applied).index r.volume.disk =
      .ok (some e) ∧ e.id = r.machine.saveId.getD r.machine.applied) : Saves machine pl r := by
  refine h.saves hapart hballots hid hentry fun w v l hw leads hempty => ?_
  obtain ⟨w', v', k, hrun, hdir, hput⟩ :=
    runOn_save hw leads (hempty _ (below_entry fileName)) hpanics herror
  have hother {name : String} (hne : name ≠ fileName) : v'.disk.item? (l ++ [name]) = none := by
    rw [hput.item?_ne fun he => hne (append_name_inj.1 he), hempty _ (below_entry name)]
  exact ⟨r.machine, w', v', hrun, hdir, (Outside.refl hw).put (below_entry fileName) hput,
    hother (by decide), hother (by decide)⟩

/-- **The state of a snapshot is taken** from its file, and a load only reads. -/
theorem runOn_load {s : SnapshotReader} {bs : Bytes} {info : SnapshotMeta}
    (hpanics : b.loadPanics = false) (herror : b.loadError = none)
    (hread : v.disk.read (s.directory.entry fileName) = .ok bs) (hinfo : s.info = .ok info) :
    (load s).runOn ⟨b, v⟩ =
      (.ok (), ⟨{ b with state := bs, applied := info.lastIncluded }, v⟩) := by
  rw [load, Act.runOn_bind_ok (Mounted.runOn_stored _)]
  dsimp only
  rw [Act.runOn_bind_ok (Act.runOn_require_of (by rw [hpanics]; rfl) _ _)]
  split
  · next text he => exact absurd (herror.symm.trans he) (by simp)
  · rw [Act.runOn_bind_ok (Mounted.runOn_onVolume_ok (Volume.runOn_look_ok hread)),
      Act.runOn_bind_ok (Act.runOn_ofExcept_ok hinfo _), Mounted.runOn_update]

end RaftReplica.Simulation.BlobMachine
