/-
RaftReplica/Proofs/Snapshot/Published.lean

What a snapshot has in it once it is published.  Its table is the one that the writer had, and all
else is as it was in the work (`Carries`).  A commit that works gives it that, unless there was a
snapshot with the same index (`Shelved.eq_of_commit`); a reader finds the table and the files
(`Carries.read_table`, `Carries.read_file`).

The table is saved in the work before it is published, as any record is: it is written to a draft
first, under its own name with `.tmp` behind, and the draft is renamed.  So two names in the work are
not what they were.  One is that of the table, which no file may have; the other is that of the
draft, and a file of that name is gone (`Carries.read_draft`).

A commit that works is known to have gone through all its stages, and what each of them leaves is
read off backwards: the table was saved (`item?_of_flush`), the name was free, and everything below
the work is now below the snapshot (`of_moved`).
-/
import RaftReplica.Proofs.Disk.Saving
import RaftReplica.Proofs.Snapshot.Commit

namespace RaftReplica.SnapshotStore

open Disk SnapshotName

variable {d d' d'' : Disk} {den : Location} {p : Path} {s : SnapshotStore} {v : Volume}
  {w : SnapshotWriter} {table : SnapshotTable} {m m' : Mounted SnapshotStore}
  {claims lives : List Nat} {works : List Path} {a i k n : Nat}

/-- Where a name leads to where one stands or up, nothing is read. -/
theorem read_unnamed {l : Location} {name : String} (hw : d.WellFormed)
    (home : d.directoryAt p = .ok l) (hn : ¬ Path.Plain name) :
    d.read (p.entry name) = .error .isDirectory := by
  have hdir := isDirectory_unnamed hw home hn
  unfold isDirectory at hdir
  split at hdir
  · next h =>
    rw [Disk.read, fileAt, h]
    rfl
  · cases hdir

/-- The snapshot at `i` has the table, and otherwise it has what was in the work with the number `n`
on the disk `d`.  Nothing has the name of the table's draft. -/
structure Carries (d : Disk) (den : Location) (n : Nat) (table : SnapshotTable) (i : Nat)
    (d' : Disk) : Prop where
  size : (Json.encode table).length ≤ Numeral.max32
  table : ∃ k, d'.item? (den ++ [published i, SnapshotName.table]) =
    some (.file k (Record.frame (Json.encode table)))
  files : ∀ name rest, name ≠ SnapshotName.table → name ≠ SnapshotName.table ++ ".tmp" →
    d'.item? (den ++ published i :: name :: rest) = d.item? (den ++ temporary n :: name :: rest)
  -- the table was written there first, over whatever the work had under that name
  draft : d'.item? (den ++ [published i, SnapshotName.table ++ ".tmp"]) = none

namespace Carries

/-- What was in the work is there, but for the table, which was put in the place of its draft. -/
theorem of_moved (hsize : (Json.encode table).length ≤ Numeral.max32)
    (hitems : d'.item? = Function.update (Function.update d.item?
      (den ++ [temporary n] ++ [SnapshotName.table ++ ".tmp"]) none)
      (den ++ [temporary n] ++ [SnapshotName.table])
      (some (.file k (Record.frame (Json.encode table)))))
    (hmoved : ∀ rest, d''.item? (den ++ published i :: rest) = d'.item? (den ++ temporary n :: rest)) :
    Carries d den n table i d'' := by
  refine ⟨hsize, ⟨k, ?_⟩, fun name rest hname hdraft => ?_, ?_⟩
  · rw [hmoved, hitems, List.append_assoc, List.append_assoc, List.singleton_append,
      List.singleton_append, Function.update_self]
  -- the two names that are touched are right in the work, so what is deeper has another one
  · have hne {x : String} (hx : name ≠ x) :
        den ++ temporary n :: name :: rest ≠ den ++ [temporary n] ++ [x] := by
      intro he
      rw [List.append_assoc] at he
      exact hx (List.cons.inj (List.cons.inj (List.append_cancel_left he)).2).1
    rw [hmoved, hitems, Function.update_of_ne (hne hname), Function.update_of_ne (hne hdraft)]
  · rw [hmoved, hitems, List.append_cons den (temporary n) [_],
      Function.update_of_ne Record.append_draft_ne, Function.update_self]

variable (h : Carries d den n table i d')

include h

/-- Nothing matters to a snapshot but what is in the directory of the store. -/
theorem congr (hi : ∀ l, Below den l → d''.item? l = d'.item? l) : Carries d den n table i d'' := by
  obtain ⟨k, hk⟩ := h.table
  refine ⟨h.size, ⟨k, ?_⟩, fun name rest hname hdraft => ?_, ?_⟩
  · rw [hi _ (below_append (List.cons_ne_nil _ _)), hk]
  · rw [hi _ (below_append (List.cons_ne_nil _ _)), h.files name rest hname hdraft]
  · rw [hi _ (below_append (List.cons_ne_nil _ _)), h.draft]

variable (leads : d'.directoryAt (p.entry (published i)) = .ok (den ++ [published i]))

include leads

/-- **The table of a snapshot is read**, if it tells members that can be read. -/
theorem read_table (hinfo : ∀ info ∈ table.info, info.Proper) :
    Record.read (SnapshotTable.file (p.entry (published i))) d' = .ok table := by
  obtain ⟨k, hk⟩ := h.table
  rw [SnapshotTable.file, Record.read_entry leads plain_table, List.append_assoc,
    List.singleton_append, hk]
  exact Record.parse_frame _ h.size (Json.told_snapshotTable hinfo).decode?_encode

/-- **The files of a snapshot** are those of the work.  A name that leads to where one stands, or up,
is no file in either. -/
theorem read_file (leads' : d.directoryAt (p.entry (temporary n)) = .ok (den ++ [temporary n]))
    (hw : d.WellFormed) (hw' : d'.WellFormed) {name : String} (hname : name ≠ SnapshotName.table)
    (hdraft : name ≠ SnapshotName.table ++ ".tmp") :
    d'.read ((p.entry (published i)).entry name) = d.read ((p.entry (temporary n)).entry name) := by
  by_cases hn : Path.Plain name
  · have hsame := h.files name [] hname hdraft
    rw [Disk.read_entry leads hn, Disk.read_entry leads' hn, List.append_assoc, List.append_assoc,
      List.singleton_append, List.singleton_append, hsame]
  · rw [read_unnamed hw' leads hn, read_unnamed hw leads' hn]

/-- **Under the name of the draft** of its table a snapshot has nothing. -/
theorem read_draft : d'.read ((p.entry (published i)).entry (SnapshotName.table ++ ".tmp")) =
    .error .missing := by
  rw [Disk.read_entry leads (Path.plain_draft _), List.append_assoc, List.singleton_append, h.draft]

end Carries

/-! ### Commits that work -/

/-- What was committed was published. -/
theorem eq_ok_of_commit (h : (commit w).runOn m = (.ok a, m')) :
    (publish w).runOn m = (.ok a, m') := by
  obtain ⟨result, m₁, hattempt, h⟩ := Act.eq_ok_of_bind h
  rw [Act.runOn_attempt] at hattempt
  obtain ⟨hresult, rfl⟩ := Prod.mk.inj hattempt
  obtain rfl := Except.ok.inj hresult
  rcases hpublish : (publish w).runOn m with ⟨e | index, m₂⟩
  · rw [hpublish] at h
    obtain ⟨_, m₃, -, hthrow⟩ := Act.eq_ok_of_bind h
    cases (Prod.mk.inj hthrow).1
  · rw [hpublish] at h
    exact h

/-- A table that was written belongs to a snapshot with an index. -/
theorem eq_ok_of_publish (h : (publish w).runOn ⟨s, v⟩ = (.ok a, m)) :
    w.index ≠ 0 ∧ ∃ u v', w.flush.runOn v = (.ok u, v') := by
  by_cases hzero : w.index = 0
  · rw [publish, if_pos hzero] at h
    cases (Prod.mk.inj h).1
  rw [publish, if_neg hzero] at h
  obtain ⟨u, m₁, hflush, -⟩ := Act.eq_ok_of_bind h
  obtain ⟨v', hflush, -⟩ := Mounted.eq_ok_of_onVolume hflush
  exact ⟨hzero, u, v', hflush⟩

/-- **A table is written** only into a directory that is there, and in the place of its draft. -/
theorem item?_of_flush {u : Unit} {v' : Volume} (hw : v.disk.WellFormed)
    (leads : v.disk.directoryAt s.directory = .ok den)
    (hdir : w.directory = s.directory.entry (temporary n))
    (hflush : w.flush.runOn v = (.ok u, v')) :
    v.disk.item? (den ++ [temporary n]) = some .directory ∧
      (Json.encode w.table).length ≤ Numeral.max32 ∧ v'.disk.WellFormed ∧ ∃ k, v'.disk.item? =
        Function.update (Function.update v.disk.item?
          (den ++ [temporary n] ++ [SnapshotName.table ++ ".tmp"]) none)
          (den ++ [temporary n] ++ [SnapshotName.table])
          (some (.file k (Record.frame (Json.encode w.table)))) := by
  have hsaved := Record.replaced_of_save hw (SnapshotTable.file w.directory) w.table w.sync
  rw [SnapshotWriter.flush] at hflush
  rw [hflush, hdir] at hsaved
  -- the draft was made, so its directory is there
  obtain ⟨m, hm, -⟩ := (hsaved.ok_iff.1 rfl).drafted
  rw [SnapshotTable.file, Record.draft_entry] at hm
  obtain ⟨l, home, -⟩ :=
    exists_directoryAt_of_locateEntry (Path.isEmpty_entry _ _) (Path.plain_draft _) hm
  obtain ⟨hl, hd⟩ := directoryAt_eq_ok_iff.1 home
  have hat : v.disk.item? (den ++ [temporary n]) = some .directory := by
    rw [locate_entry leads (plain_temporary n)] at hl
    rw [item?_eq_directory_iff, Except.ok.inj hl, hd]
  have leadsWork := directoryAt_entry leads (plain_temporary n) hat
  rw [← hdir] at leadsWork
  obtain ⟨hsize, hitems⟩ := Record.item?_of_save_ok hw leadsWork plain_table hflush
  exact ⟨hat, hsize, hsaved.wellFormed, hitems⟩

namespace Shelved

/-- **A commit that works**, of a snapshot with another index than that of the latest one, makes it
the latest one, with what was in the work and the table of its writer. -/
theorem eq_of_commit (h : Shelved v.disk den s (s.own ++ lives) (w.directory :: works))
    (hmax : w.index ≤ Numeral.max64) (hlast : w.index ≠ s.last)
    (hrun : (commit w).runOn ⟨s, v⟩ = (.ok a, m)) : ∃ n holders v',
    w.directory = s.directory.entry (temporary n) ∧
      m = ⟨{ s with last := w.index, holders }, v'⟩ ∧ w.index ≠ 0 ∧
      Shelved v'.disk den { s with last := w.index, holders } (w.index :: lives) works ∧
      Carries v.disk den n w.table w.index v'.disk := by
  have hpublish := eq_ok_of_commit hrun
  obtain ⟨hzero, u, v₁, hflush⟩ := eq_ok_of_publish hpublish
  obtain ⟨n, -, hdir, hat⟩ := h.made _ List.mem_cons_self
  have ho := outside_flush h.wellFormed h.rooted hdir hat
  rw [hflush] at ho
  have h₁ := h.inside ho
  have hat₁ : v₁.disk.item? (den ++ [temporary n]) = some .directory := by
    rw [ho.item? _ fun hb => hb.2 rfl, hat]
  -- an index with a claim on it would have been refused
  have hi : w.index ∉ s.own ++ lives := by
    intro hi
    have hthere := h₁.isThere_place w.index
    rw [decide_eq_true hi] at hthere
    rw [runOn_publish_there hzero hflush hlast hthere] at hpublish
    cases (Prod.mk.inj hpublish).1
  obtain ⟨holders, v', hrun', h', -, hmoved⟩ :=
    runOn_publish_unclaimed hflush h₁ hzero hmax hi hdir hat₁
  rw [hrun'] at hpublish
  obtain ⟨-, rfl⟩ := Prod.mk.inj hpublish
  obtain ⟨-, hsize, -, k, hitems⟩ := item?_of_flush h.wellFormed h.leads hdir hflush
  exact ⟨n, holders, v', hdir, rfl, hzero, h', .of_moved hsize hitems hmoved⟩

/-! ### Opening -/

/-- The latest snapshot is opened if it has a table that can be read. -/
theorem runOn_openLatest_read (h : Shelved v.disk den s claims works) (hi : s.last ∈ claims)
    (hread : Record.read (SnapshotTable.file (s.place s.last)) v.disk = .ok table) : ∃ holders,
    openLatest.runOn ⟨s, v⟩ =
      (.ok (some ⟨s.last, s.place s.last, table⟩), ⟨{ s with holders }, v⟩) := by
  obtain ⟨holders, hhold, -⟩ := h.runOn_hold hi
  have hpos := (h.bounds _ hi).1
  refine ⟨holders, ?_⟩
  rw [openLatest, Act.runOn_bind_ok (Mounted.runOn_stored _)]
  dsimp only
  rw [if_neg (by omega), Act.runOn_bind_ok (Act.runOn_attempt _ _),
    runOn_openAt_read hhold hread]
  rfl

end Shelved
end RaftReplica.SnapshotStore
