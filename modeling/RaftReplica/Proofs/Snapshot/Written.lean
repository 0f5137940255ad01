/-
RaftReplica/Proofs/Snapshot/Written.lean

What is written into a snapshot, and what a reader of it finds.  Nothing is asked here of the store
or of its directory but that the path leads there whatever is in it: who holds which snapshot, and
what else stands in the directory, does not matter (`runOn_publish_any`).

A commit that works gives its readers the table and the files that were written
(`openLatest_of_commit`).  One file it takes away: the table is written under the name of its draft
first, and nobody forbids to write a file of that name into a snapshot (`commit_loses_draft`).

A commit is followed from its result.  That it succeeded tells that the table was saved and that the
name of the snapshot was free (`item?_of_publish_ok`), so the work could be renamed.  Letting go of
the snapshot before may remove that one's directory, but no other (`runOn_advanceTo_any`).  The new
snapshot is held by the store, so it can be opened (`runOn_openAt_held`), and what is read in it is
what was in the work (`Rereads`).

The examples write one file each, of a name that works and of the one that does not.
-/
import Mathlib.Data.Prod.Basic
import RaftReplica.Proofs.Snapshot.Found
import RaftReplica.Proofs.Snapshot.Outside
import RaftReplica.Proofs.Snapshot.Published

namespace RaftReplica.SnapshotStore

open Disk SnapshotName

variable {den : Location} {s : SnapshotStore} {v v₁ : Volume} {w : SnapshotWriter}
  {table : SnapshotTable} {info : SnapshotMeta} {m : Mounted SnapshotStore} {name : String}
  {i k n : Nat}

/-! ### Any store -/

/-- Whatever stands at the place of another snapshot is not touched, nor is who holds that one. -/
theorem runOn_release_any (hw : v.disk.WellFormed)
    (leads : v.disk.directoryAt s.directory = .ok den) (i : Nat) : ∃ holders v',
    (release i).runOn ⟨s, v⟩ = (.ok (), ⟨{ s with holders }, v'⟩) ∧ v'.disk.WellFormed ∧
      (∀ j ≠ i, holders.get? j = s.holders.get? j) ∧
      ∀ m, ¬ den ++ [published i] <+: m → v'.disk.item? m = v.disk.item? m := by
  have hrelease : (release i).runOn ⟨s, v⟩ = _ := Act.runOn_bind_ok (Mounted.runOn_stored _)
  dsimp only at hrelease
  rw [hrelease]
  -- nobody holds it, or somebody else holds it too, or this was the last hold
  cases hget : s.holders.get? i with
  | none => exact ⟨s.holders, v, rfl, hw, fun _ _ => rfl, fun _ _ => rfl⟩
  | some k =>
    dsimp only
    by_cases hk : 1 < k
    · refine ⟨s.holders.insert i (k - 1), v, by rw [if_pos hk]; rfl, hw, fun j hj => ?_,
        fun _ _ => rfl⟩
      rw [Table.get?_insert, if_neg (mt Table.sameKey_nat_iff.1 hj)]
    · obtain ⟨v', hdiscard, hw', hitems⟩ := Volume.runOn_discard leads (plain_published i) hw
      refine ⟨s.holders.erase i, v', ?_, hw', fun j hj => ?_, fun m hm => by rw [hitems, if_neg hm]⟩
      · rw [if_neg hk, Act.runOn_bind_ok (Mounted.runOn_update _ _)]
        exact Mounted.runOn_onVolume_ok hdiscard
      · rw [Table.get?_erase, if_neg (mt Table.sameKey_nat_iff.1 hj)]

/-- The snapshot at `i` becomes the latest one, and the store holds it. -/
theorem runOn_advanceTo_any (hw : v.disk.WellFormed)
    (leads : v.disk.directoryAt s.directory = .ok den) (hi : i ≠ s.last) : ∃ holders v',
    (advanceTo i).runOn ⟨s, v⟩ = (.ok (), ⟨{ s with last := i, holders }, v'⟩) ∧
      v'.disk.WellFormed ∧ holders.get? i = some ((s.holders.get? i).getD 0 + 1) ∧
      ∀ m, ¬ den ++ [published s.last] <+: m → v'.disk.item? m = v.disk.item? m := by
  have hself (k : Nat) : (s.holders.insert i k).get? i = some k := by
    rw [Table.get?_insert, if_pos (Table.sameKey_nat_iff.2 rfl)]
  rw [runOn_advanceTo_held]
  by_cases hpos : 0 < s.last
  · obtain ⟨holders, v', hrun, hw', hkept, hitems⟩ := runOn_release_any
      (s := { s with last := i, holders := s.holders.insert i ((s.holders.get? i).getD 0 + 1) })
      hw leads s.last
    refine ⟨holders, v', by rw [if_pos hpos, hrun], hw', ?_, hitems⟩
    rw [hkept i hi, hself]
  · exact ⟨_, v, by rw [if_neg hpos]; rfl, hw, hself _, fun _ _ => rfl⟩

section

variable {u : Unit} (hw : v.disk.WellFormed) (hroot : Rooted v.disk.item? den s.directory)
  (hdir : w.directory = s.directory.entry (temporary n)) (hflush : w.flush.runOn v = (.ok u, v₁))

include hw hroot hdir hflush

/-- What stands beside a work is not touched when its table is written. -/
theorem isThere_place_of_flush (i : Nat) :
    v₁.disk.isThere (s.place i) = (v.disk.item? (den ++ [published i])).isSome := by
  obtain ⟨hat, -⟩ := item?_of_flush hw (hroot _ (.refl hw)) hdir hflush
  have ho := outside_flush hw hroot hdir hat
  rw [hflush] at ho
  rw [isThere, place, lookup_entry (hroot _ ho.of_entry) (plain_published i),
    ← ho.item? _ (not_below_entry _ _), item?]
  cases v₁.disk.node? (den ++ [published i]) with
  | none => rfl
  | some node => cases node <;> rfl

variable (hzero : w.index ≠ 0) (hlast : w.index ≠ s.last)

include hzero hlast

/-- What was published was put where nothing was. -/
theorem item?_of_publish_ok (h : (publish w).runOn ⟨s, v⟩ = (.ok i, m)) :
    v.disk.item? (den ++ [published w.index]) = none := by
  by_contra hsome
  have hthere := isThere_place_of_flush hw hroot hdir hflush w.index
  rw [Option.isSome_iff_ne_none.2 hsome] at hthere
  rw [runOn_publish_there hzero hflush hlast hthere] at h
  cases (Prod.mk.inj h).1

/-- **A work whose table was written** is moved to the place of its snapshot, if nothing is there, and
becomes the latest one. -/
theorem runOn_publish_any (hnone : v.disk.item? (den ++ [published w.index]) = none) :
    ∃ holders v',
    (publish w).runOn ⟨s, v⟩ = (.ok w.index, ⟨{ s with last := w.index, holders }, v'⟩) ∧
      holders.get? w.index = some ((s.holders.get? w.index).getD 0 + 1) ∧
      Outside v.disk.item? den v'.disk ∧
      v'.disk.item? (den ++ [published w.index]) = some .directory ∧
      (∀ rest, v'.disk.item? (den ++ temporary n :: rest) = none) ∧
      Carries v.disk den n w.table w.index v'.disk := by
  have hthere := isThere_place_of_flush hw hroot hdir hflush w.index
  rw [hnone] at hthere
  obtain ⟨hat, hsize, hw₁, k, hitems₁⟩ := item?_of_flush hw (hroot _ (.refl hw)) hdir hflush
  have ho₁ := outside_flush hw hroot hdir hat
  rw [hflush] at ho₁
  have hat₁ := (ho₁.item? _ fun hb => hb.2 rfl).trans hat
  have hnone₁ := (ho₁.item? _ (not_below_entry _ _)).trans hnone
  have hout₁ := ho₁.of_entry
  -- the work gets the name of its snapshot, with all that is in it
  obtain ⟨v₂, hrename, hw₂, hitems₂⟩ := Volume.runOn_rename_directory (hroot _ hout₁)
    (plain_temporary n) (plain_published w.index) hw₁ hat₁ hnone₁
  have hout₂ : Outside v.disk.item? den v₂.disk := hout₁.congr hw₂ fun m hm => by
    rw [hitems₂, if_neg ((below_entry _).not_isPrefix hm), if_neg ((below_entry _).not_isPrefix hm)]
  obtain ⟨v₃, hparent, hdisk₃⟩ :=
    Volume.runOn_flushParent (hroot _ hout₂) (plain_published w.index) s.sync
  obtain ⟨holders, v', hadvance, hw', hheld, hitems⟩ :=
    runOn_advanceTo_any (s := s) (hdisk₃ ▸ hw₂) (hdisk₃ ▸ hroot _ hout₂) hlast
  have hmoved (rest : Location) : v'.disk.item? (den ++ published w.index :: rest) =
      v₁.disk.item? (den ++ temporary n :: rest) := by
    rw [hitems _ fun hp => hlast (published_injective (entry_prefix_iff.1 hp)).symm, hdisk₃, hitems₂,
      if_pos (entry_prefix_iff.2 rfl), List.append_cons den (published _) rest, List.drop_left,
      List.append_assoc, List.singleton_append]
  have hgone (rest : Location) : v'.disk.item? (den ++ temporary n :: rest) = none := by
    rw [hitems _ fun hp => temporary_ne_published n _ (entry_prefix_iff.1 hp).symm, hdisk₃, hitems₂,
      if_neg (mt entry_prefix_iff.1 (temporary_ne_published n _).symm),
      if_pos (entry_prefix_iff.2 rfl)]
  have hout : Outside v.disk.item? den v'.disk := hout₂.congr hw' fun m hm => by
    rw [hitems _ ((below_entry _).not_isPrefix hm), hdisk₃]
  exact ⟨holders, v', runOn_publish_place hzero hflush hlast hthere (hdir ▸ hrename) hparent hadvance,
    hheld, hout, (hmoved []).trans hat₁, hgone, .of_moved hsize hitems₁ hmoved⟩

end

/-- A snapshot that somebody holds is opened if its table can be read. -/
theorem runOn_openAt_held (hget : s.holders.get? i = some k)
    (hread : Record.read (SnapshotTable.file (s.place i)) v.disk = .ok table) :
    (openAt i).runOn ⟨s, v⟩ = (.ok ⟨i, s.place i, table⟩,
      ⟨{ s with holders := s.holders.insert i (k + 1) }, v⟩) := by
  have hhold : (hold i).runOn ⟨s, v⟩ =
      (.ok (), ⟨{ s with holders := s.holders.insert i (k + 1) }, v⟩) := by
    rw [hold, Act.runOn_bind_ok (Mounted.runOn_stored _)]
    dsimp only
    rw [hget]
    rfl
  exact Shelved.runOn_openAt_read hhold hread

/-- The latest snapshot is opened like any other. -/
theorem runOn_openLatest_of_openAt {r : SnapshotReader} (hlast : s.last ≠ 0)
    (hopen : (openAt s.last).runOn ⟨s, v⟩ = (.ok r, m)) :
    openLatest.runOn ⟨s, v⟩ = (.ok (some r), m) := by
  rw [openLatest, Act.runOn_bind_ok (Mounted.runOn_stored _)]
  dsimp only
  rw [if_neg hlast, Act.runOn_bind_ok (Act.runOn_attempt _ _), hopen]
  rfl

/-! ### Readers -/

/-- What is there once a snapshot was published and opened: the reader has the table of the writer, and
reads in each file what was written there, if the name is allowed and not that of the table's draft.
Nothing has that name any more, and the work is gone. -/
structure Rereads (s : SnapshotStore) (v : Volume) (den : Location) (n : Nat) (w : SnapshotWriter)
    (r : SnapshotReader) (m : Mounted SnapshotStore) : Prop where
  last : m.store.last = w.index
  copies : m.store.copies = s.copies
  index : r.index = w.index
  directory : r.directory = s.place w.index
  table : r.table = w.table
  files : ∀ name, isAllowed name = true → name ≠ SnapshotName.table ++ ".tmp" →
    m.volume.disk.read (r.directory.entry name) = v.disk.read (w.directory.entry name)
  draft : m.volume.disk.read (r.directory.entry (SnapshotName.table ++ ".tmp")) = .error .missing
  outside : Outside v.disk.item? den m.volume.disk
  gone : ∀ rest, m.volume.disk.item? (den ++ temporary n :: rest) = none

/-- **A snapshot that is published** can be opened, and is as it was written. -/
theorem runOn_openAt_published {u : Unit} (hw : v.disk.WellFormed)
    (hroot : Rooted v.disk.item? den s.directory)
    (hdir : w.directory = s.directory.entry (temporary n)) (hflush : w.flush.runOn v = (.ok u, v₁))
    (hzero : w.index ≠ 0) (hlast : w.index ≠ s.last)
    (hnone : v.disk.item? (den ++ [published w.index]) = none)
    (hproper : ∀ info, w.table.info = some info → info.Proper) : ∃ m r m',
    (publish w).runOn ⟨s, v⟩ = (.ok w.index, m) ∧ m.store.last = w.index ∧
      (openAt w.index).runOn m = (.ok r, m') ∧ Rereads s v den n w r m' := by
  obtain ⟨holders, v', hpublish, hheld, hout, hplace, hgone, hcarries⟩ :=
    runOn_publish_any hw hroot hdir hflush hzero hlast hnone
  -- the paths lead to the work as it was, and to the snapshot that it has become
  obtain ⟨hat, -⟩ := item?_of_flush hw (hroot _ (.refl hw)) hdir hflush
  have leadsWork := directoryAt_entry (hroot _ (.refl hw)) (plain_temporary n) hat
  have leads := directoryAt_entry (hroot _ hout) (plain_published w.index) hplace
  have hopen := runOn_openAt_held (s := { s with last := w.index, holders }) hheld
    (hcarries.read_table leads hproper)
  refine ⟨_, _, _, hpublish, rfl, hopen, rfl, rfl, rfl, rfl, rfl, fun name hname hne => ?_,
    hcarries.read_draft leads, hout, hgone⟩
  rw [hdir]
  exact hcarries.read_file leads leadsWork hw hout.wellFormed (ne_table_of_isAllowed hname) hne

/-- **What is opened after a commit that worked**, of a snapshot above the latest one: the reader has
the table of the writer, and reads in each file what was written there, if the name is allowed and
not that of the table's draft.  Nothing has that name any more. -/
theorem openLatest_of_commit (hw : v.disk.WellFormed) (hroot : Rooted v.disk.item? den s.directory)
    (hdir : w.directory = s.directory.entry (temporary n)) (hinfo : w.table.info = some info)
    (hproper : info.Proper) (hnew : s.last < info.lastIncluded.index)
    (hrun : (commit w).runOn ⟨s, v⟩ = (.ok i, m)) :
    i = info.lastIncluded.index ∧ ∃ r m', openLatest.runOn m = (.ok (some r), m') ∧
      r.index = i ∧ r.directory = s.place i ∧ r.table = w.table ∧
      (∀ name, isAllowed name = true → name ≠ SnapshotName.table ++ ".tmp" →
        m'.volume.disk.read (r.directory.entry name) = v.disk.read (w.directory.entry name)) ∧
      m'.volume.disk.read (r.directory.entry (SnapshotName.table ++ ".tmp")) = .error .missing := by
  have hindex := index_eq hinfo
  have hpublish := eq_ok_of_commit hrun
  obtain ⟨hzero, u, v₁, hflush⟩ := eq_ok_of_publish hpublish
  have hlast : w.index ≠ s.last := by omega
  have hnone := item?_of_publish_ok hw hroot hdir hflush hzero hlast hpublish
  have hproper' (x : SnapshotMeta) (hx : w.table.info = some x) : x.Proper :=
    Option.some.inj (hinfo.symm.trans hx) ▸ hproper
  obtain ⟨m₁, r, m', hrun', hlast', hopen, hrereads⟩ :=
    runOn_openAt_published hw hroot hdir hflush hzero hlast hnone hproper'
  rw [hpublish] at hrun'
  obtain ⟨hi, rfl⟩ := Prod.mk.inj hrun'
  obtain rfl := Except.ok.inj hi
  rw [← hlast'] at hopen
  exact ⟨hindex, r, m', runOn_openLatest_of_openAt (hlast' ▸ hzero) hopen, hrereads.index,
    hrereads.directory, hrereads.table, hrereads.files, hrereads.draft⟩

/-- A store with a snapshot in the making, into which a file with the name was written. -/
def written (name : String) : Mounted SnapshotStore :=
  ⟨{ directory := .ofText "s", sync := false, nextTemporary := 1 },
    .ofDisk (Disk.empty.replay [.makeDirectory ["s"], .makeDirectory ["s", temporary 0],
      .create ["s", temporary 0, name], .write 0 0 [1, 2, 3]])⟩

/-- The writer of that snapshot. -/
def writerOf (name : String) : SnapshotWriter where
  directory := (Path.ofText "s").entry (temporary 0)
  sync := false
  table := ⟨some ⟨⟨1, 5⟩, .empty, .empty⟩, Table.empty.insert name ⟨none⟩⟩

/-- The file is read in the snapshot. -/
theorem openLatest_of_commit_blob : ∃ m r m',
    (commit (writerOf "blob")).runOn (written "blob") = (.ok 5, m) ∧
      openLatest.runOn m = (.ok (some r), m') ∧ r.table = (writerOf "blob").table ∧
      m'.volume.disk.read (r.directory.entry "blob") = .ok [1, 2, 3] := by
  have hw : (written "blob").volume.disk.WellFormed := wellFormed_replay _
  have hroot : Rooted (written "blob").volume.disk.item? ["s"] (.ofText "s") :=
    rooted_at_top ⟨by decide, by decide, by decide⟩ rfl (by decide) (by decide +kernel)
  have hrun : (commit (writerOf "blob")).runOn (written "blob") =
      (.ok 5, ((commit (writerOf "blob")).runOn (written "blob")).2) :=
    Prod.fst_eq_iff.1 (by decide +kernel)
  have hproper : SnapshotMeta.Proper ⟨⟨1, 5⟩, .empty, .empty⟩ :=
    ⟨by decide, by decide, by simp [PeerSet.empty], by simp [PeerSet.empty]⟩
  have hnew : (written "blob").store.last < 5 := by decide
  obtain ⟨-, r, m', hopen, -, -, htable, hfiles, -⟩ :=
    openLatest_of_commit hw hroot rfl rfl hproper hnew hrun
  have hread : (written "blob").volume.disk.read ((writerOf "blob").directory.entry "blob") =
      .ok [1, 2, 3] := by decide +kernel
  exact ⟨_, r, m', hrun, hopen, htable, (hfiles "blob" (by decide) (by decide)).trans hread⟩

/-- A file that has the name of the table's draft may be written, is told by the table, and is not
there. -/
theorem commit_loses_draft :
    let name := SnapshotName.table ++ ".tmp"
    isAllowed name = true ∧
      (written name).volume.disk.read ((writerOf name).directory.entry name) = .ok [1, 2, 3] ∧
      ∃ m r m', (commit (writerOf name)).runOn (written name) = (.ok 5, m) ∧
        openLatest.runOn m = (.ok (some r), m') ∧ name ∈ r.table.names ∧
        m'.volume.disk.read (r.directory.entry name) = .error .missing := by
  intro name
  let ran := (commit (writerOf name)).runOn (written name)
  let opened := openLatest.runOn ran.2
  let r : SnapshotReader := ⟨5, (Path.ofText "s").entry (published 5), (writerOf name).table⟩
  have hran : ran = (.ok 5, ran.2) := Prod.fst_eq_iff.1 (by decide +kernel)
  have hopened : opened = (.ok (some r), opened.2) := Prod.fst_eq_iff.1 (by decide +kernel)
  exact ⟨by decide, by decide +kernel, ran.2, r, opened.2, hran, hopened, by decide +kernel,
    by decide +kernel⟩

end RaftReplica.SnapshotStore
