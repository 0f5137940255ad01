/-
RaftReplica/Proofs/Snapshot/Store.lean

The store of snapshots between its calls.  Its directory holds the latest snapshot and nothing else,
and nobody reads it (`Stands`).  A snapshot in the making has a directory of its own beside it; when
it is published it takes the place of the one before, or it is given up and the disk is as it was
(`Stands.runOn_commit`).

Whoever opens the store again finds the latest snapshot (`Stands.runOn_init`,
`Stands.runOn_openLatest`).

This is the store as a node has it that does one thing at a time.  With readers and copies that run
beside each other more can be there, and that is the shelf of another module.  What is known of a
call on any store is stated here for both, with the assumptions that the call itself needs:
`runOn_create_any`, `runOn_advanceTo_held`, and the ways that publishing can go
(`runOn_publish_again`, `runOn_publish_there`, `runOn_publish_place`).

* Names.  A snapshot's name is read back as its index, and no work has such a name.
* Holding.  The store's own hold is counted as one (`held`); with a reader it is two, and when the
  reader is gone one again (`insert_insert_held`).
* Making.  A disk is `Beside` another one if all that is new is below one place, which is a
  directory.
* Publishing.  The work is renamed, and then the snapshot before is let go of, which removes it.
-/
import RaftReplica.Proofs.Disk.Outside
import RaftReplica.Proofs.Json.Records
import RaftReplica.Snapshot.Store

namespace RaftReplica

open Disk

/-! ### Names -/

namespace SnapshotName

open Numeral Text

theorem toList_published (index : Nat) :
    (published index).toList = start.toList ++ (padded index).toList := String.toList_append

/-- Snapshots are told apart by their names. -/
theorem published_injective {i j : Nat} (h : published i = published j) : i = j := by
  have hlist := congrArg String.toList h
  rw [toList_published, toList_published, List.append_cancel_left_eq] at hlist
  exact padded_injective (String.toList_injective hlist)

theorem index?_published {i : Nat} (h : i ≤ max64) : index? (published i) = some i := by
  rw [index?, toList_published, dropStart?_append, Option.bind_some]
  exact parse?_of_ofDigits? (ofDigits?_padded i) h

/-- The name of a snapshot is not that of a work. -/
theorem isTemporary_published (i : Nat) : isTemporary (published i) = false := by
  rw [isTemporary, toList_published]
  show (dropStart? ('t' :: _) ('s' :: _)).isSome = false
  rw [dropStart?_cons_of_ne (by decide)]
  rfl

theorem isTemporary_temporary (n : Nat) : isTemporary (temporary n) = true := by
  rw [isTemporary, temporary, String.append_assoc, String.toList_append, dropStart?_append]
  rfl

/-- Other names start in another way. -/
theorem published_ne {name : String} (h : (dropStart? start.toList name.toList).isSome = false)
    (i : Nat) : published i ≠ name := by
  rintro rfl
  rw [toList_published, dropStart?_append] at h
  exact absurd h (by simp)

theorem plain_published (i : Nat) : Path.Plain (published i) :=
  ⟨published_ne (by decide) i, published_ne (by decide) i, published_ne (by decide) i⟩

theorem plain_of_isTemporary {name : String} (h : isTemporary name = true) : Path.Plain name := by
  refine ⟨?_, ?_, ?_⟩ <;> rintro rfl <;> exact absurd h (by decide)

theorem plain_table : Path.Plain table := by
  refine ⟨?_, ?_, ?_⟩ <;> decide

end SnapshotName

namespace SnapshotStore

open SnapshotName

variable {d d' d₀ : Disk} {den : Location} {s s₀ : SnapshotStore} {latest : Option SnapshotMeta}
  {info : SnapshotMeta} {v : Volume} {name : String} {w : SnapshotWriter} {i j n : Nat}

/-! ### Holding -/

/-- Only the store itself holds its latest snapshot, if there is one. -/
def held (last : Nat) : Table Nat Nat := if last = 0 then .empty else Table.empty.insert last 1

theorem get?_insert_empty (i n : Nat) : (Table.empty.insert i n).get? i = some n := by
  show Table.lookup i [(i, n)] = some n
  simp [Table.lookup]

theorem get?_held (h : 0 < i) : (held i).get? i = some 1 := by
  rw [held, if_neg (by omega), get?_insert_empty]

/-- The store holds no snapshot beyond its latest. -/
theorem get?_held_of_lt (h : j < i) : (held j).get? i = none := by
  unfold held
  split
  · rfl
  · show Table.lookup i [(j, 1)] = none
    simp [Table.lookup, h]

/-- The count of the latest snapshot is the one that was put last. -/
theorem get?_insert_held_self (h : 0 < i) (n : Nat) : ((held i).insert i n).get? i = some n := by
  rw [held, if_neg (by omega)]
  show Table.lookup i (Table.place i n [(i, 1)]) = some n
  simp [Table.lookup, Table.place]

/-- Who holds a snapshot and lets it go again changes nothing. -/
theorem insert_insert_held (h : 0 < i) (n : Nat) : ((held i).insert i n).insert i 1 = held i := by
  rw [held, if_neg (by omega)]
  refine Table.ext ?_
  show Table.place i 1 (Table.place i n [(i, 1)]) = [(i, 1)]
  simp [Table.place]

/-- The store holds the snapshot before still when it holds a new one. -/
theorem get?_insert_held (hj : 0 < j) (h : j < i) : ((held j).insert i 1).get? j = some 1 := by
  rw [held, if_neg (by omega)]
  show Table.lookup j (Table.place i 1 [(j, 1)]) = some 1
  simp [Table.lookup, Table.place, h]

theorem insert_held_zero (h : 0 < i) : (held 0).insert i 1 = held i := by
  rw [held, if_pos rfl, held, if_neg (by omega)]

/-- The latest snapshot is held, and after it the one before no more. -/
theorem erase_insert_held (h : j < i) : ((held j).insert i 1).erase j = held i := by
  have hi : i ≠ 0 := by omega
  by_cases hj : j = 0
  · subst hj
    refine Table.ext ?_
    simp [held, hi, Table.erase, Table.insert, Table.place, Table.empty, h]
  · refine Table.ext ?_
    simp [held, hi, hj, Table.erase, Table.insert, Table.place, Table.empty, h]

/-! ### What the directory holds -/

/-- A snapshot is published at a place: its table is there and tells what it covers. -/
structure Published (d : Disk) (place : Location) (info : SnapshotMeta) : Prop where
  directory : d.item? place = some .directory
  table : ∃ (k : Nat) (t : SnapshotTable), t.info = some info ∧
    (Json.encode t).length ≤ Numeral.max32 ∧
    d.item? (place ++ [SnapshotName.table]) = some (.file k (Record.frame (Json.encode t)))
  positive : 1 ≤ info.lastIncluded.index
  proper : info.Proper

/-- The position that the latest snapshot reaches to. -/
def reach (latest : Option SnapshotMeta) : LogId :=
  (latest.map SnapshotMeta.lastIncluded).getD .zero

/-- The directory of the store holds the latest snapshot, if there is one, and nothing else, and
nobody but the store holds it. -/
structure Stands (d : Disk) (den : Location) (s : SnapshotStore) (latest : Option SnapshotMeta) :
    Prop where
  wellFormed : d.WellFormed
  rooted : Rooted d.item? den s.directory
  only : ∀ name, (d.item? (den ++ [name])).isSome →
    ∃ info ∈ latest, name = published info.lastIncluded.index
  kept : ∀ info ∈ latest, Published d (den ++ [published info.lastIncluded.index]) info
  last : s.last = (reach latest).index
  holders : s.holders = held s.last

namespace Stands

variable (h : Stands d den s latest)

include h

theorem leads : d.directoryAt s.directory = .ok den := h.rooted d (.refl h.wellFormed)

theorem last_eq (hinfo : info ∈ latest) : s.last = info.lastIncluded.index := by
  obtain rfl : latest = some info := hinfo
  exact h.last

/-- There is no other name than that of the latest snapshot. -/
theorem item?_eq_none (hname : ∀ info ∈ latest, name ≠ published info.lastIncluded.index) :
    d.item? (den ++ [name]) = none := by
  rw [← Option.not_isSome_iff_eq_none]
  intro hsome
  obtain ⟨info, hinfo, he⟩ := h.only name hsome
  exact hname info hinfo he

/-- Nothing is in the making. -/
theorem item?_temporary (hname : isTemporary name = true) : d.item? (den ++ [name]) = none := by
  refine h.item?_eq_none fun info _ he => ?_
  rw [he, isTemporary_published] at hname
  exact absurd hname (by simp)

/-- Nothing is where snapshots are made, nor below. -/
theorem item?_of_prefix {m : Location} (hname : isTemporary name = true)
    (hp : den ++ [name] <+: m) : d.item? m = none := by
  have hnone := h.item?_temporary hname
  by_cases hm : m = den ++ [name]
  · rw [hm, hnone]
  · exact item?_of_below h.wellFormed (by rw [hnone]; simp) ⟨hp, hm⟩

/-- There is no snapshot beyond the latest. -/
theorem item?_published_of_lt (hlt : s.last < i) :
    d.item? (den ++ [published i]) = none := by
  refine h.item?_eq_none fun info hinfo he => ?_
  have hlast := h.last_eq hinfo
  rw [← published_injective he] at hlast
  omega

/-- What happens elsewhere does not matter to the store. -/
theorem elsewhere (hw : d'.WellFormed) (rooted : Rooted d'.item? den s.directory)
    (hi : ∀ m, Below den m → d'.item? m = d.item? m) : Stands d' den s latest := by
  refine ⟨hw, rooted, fun name hname => h.only name ?_, fun info hinfo => ?_, h.last, h.holders⟩
  · rwa [hi _ (below_entry name)] at hname
  · obtain ⟨hdir, htable, hpositive, hproper⟩ := h.kept info hinfo
    refine ⟨?_, ?_, hpositive, hproper⟩
    · rwa [hi _ (below_entry _)]
    · rwa [hi _ ((below_entry _).trans_isPrefix (List.prefix_append _ _))]

theorem congr (hw : d'.WellFormed) (hi : d'.item? = d.item?) : Stands d' den s latest :=
  h.elsewhere hw (hi ▸ h.rooted) fun _ _ => by rw [hi]

theorem withNext (n : Nat) : Stands d den { s with nextTemporary := n } latest :=
  ⟨h.wellFormed, h.rooted, h.only, h.kept, h.last, h.holders⟩

end Stands

/-! ### Snapshots in the making -/

/-- The disk `d` is `d₀` but for a directory at `place` and what is below it. -/
abbrev Beside (d₀ : Disk) (place : Location) (d : Disk) : Prop :=
  Outside (Function.update d₀.item? place (some .directory)) place d

namespace Beside

variable {place m : Location}

theorem of_puts (h : Puts d₀ d place (some .directory)) : Beside d₀ place d :=
  ⟨h.wellFormed, fun m _ => by rw [h.item?]⟩

theorem directory (h : Beside d₀ place d) : d.item? place = some .directory := by
  rw [h.item? place fun hb => hb.2 rfl, Function.update_self]

/-- All else is as it was. -/
theorem item?_ne (h : Beside d₀ place d) (hm : ¬ place <+: m) : d.item? m = d₀.item? m := by
  rw [h.item? m fun hb => hm hb.1, Function.update_of_ne]
  rintro rfl
  exact hm (List.prefix_refl m)

theorem outside (h : Beside d₀ (den ++ [name]) d) : Outside d₀.item? den d :=
  ⟨h.wellFormed, fun _ hm => h.item?_ne ((below_entry name).not_isPrefix hm)⟩

end Beside

/-- A snapshot is begun in an empty directory of its own, whatever was in its place. -/
theorem runOn_create_any (hw : v.disk.WellFormed) (hroot : Rooted v.disk.item? den s.directory) :
    ∃ v', create.runOn ⟨s, v⟩ =
      (.ok { directory := s.directory.entry (temporary s.nextTemporary), sync := s.sync },
        ⟨{ s with nextTemporary := s.nextTemporary + 1 }, v'⟩) ∧
    v'.disk.WellFormed ∧ ∀ m, v'.disk.item? m =
      if m = den ++ [temporary s.nextTemporary] then some .directory
      else if den ++ [temporary s.nextTemporary] <+: m then none else v.disk.item? m := by
  have hn := plain_of_isTemporary (isTemporary_temporary s.nextTemporary)
  obtain ⟨v₁, hdiscard, hw₁, hitems₁⟩ := Volume.runOn_discard (hroot _ (.refl hw)) hn hw
  have ho : Outside v.disk.item? den v₁.disk :=
    ⟨hw₁, fun m hm => by rw [hitems₁, if_neg ((below_entry _).not_isPrefix hm)]⟩
  obtain ⟨v', hmake, hput⟩ := Volume.runOn_makeDirectories_entry (hroot _ ho) hn hw₁
    (by rw [hitems₁, if_pos (List.prefix_refl _)])
  refine ⟨v', ?_, hput.wellFormed, fun m => ?_⟩
  · rw [create, Act.runOn_bind_ok (Mounted.runOn_stored _),
      Act.runOn_bind_ok (Mounted.runOn_update _ _)]
    dsimp only
    rw [Act.runOn_bind_ok (Mounted.runOn_onVolume_ok hdiscard),
      Act.runOn_bind_ok (Mounted.runOn_onVolume_ok hmake)]
    rfl
  -- the new directory is empty, whatever was there before under its name
  · split
    · next hm => rw [hm, hput.item?_self]
    · next hm => rw [hput.item?_ne hm, hitems₁]

/-- Where nothing was, a directory is put. -/
theorem runOn_create_puts (hw : v.disk.WellFormed) (hroot : Rooted v.disk.item? den s.directory)
    (hnone : v.disk.item? (den ++ [temporary s.nextTemporary]) = none) : ∃ v', create.runOn ⟨s, v⟩ =
      (.ok { directory := s.directory.entry (temporary s.nextTemporary), sync := s.sync },
        ⟨{ s with nextTemporary := s.nextTemporary + 1 }, v'⟩) ∧
    Puts v.disk v'.disk (den ++ [temporary s.nextTemporary]) (some .directory) := by
  obtain ⟨v', hcreate, hw', hitems⟩ := runOn_create_any hw hroot
  refine ⟨v', hcreate, hw', funext fun m => ?_⟩
  rw [hitems, Function.update_apply]
  refine if_congr Iff.rfl rfl (ite_eq_right_iff.2 fun hp => ?_)
  obtain ⟨rest, rfl⟩ := hp
  cases rest with
  | nil => rw [List.append_nil, hnone]
  | cons x rest =>
    exact (item?_of_below hw (by rw [hnone]; simp) (below_append (List.cons_ne_nil x rest))).symm

/-- A writer is made with a directory of its own. -/
theorem Stands.runOn_create (h : Stands v.disk den s latest) : ∃ w v',
    create.runOn ⟨s, v⟩ = (.ok w, ⟨{ s with nextTemporary := s.nextTemporary + 1 }, v'⟩) ∧
    w.directory = s.directory.entry (temporary s.nextTemporary) ∧
    Puts v.disk v'.disk (den ++ [temporary s.nextTemporary]) (some .directory) := by
  obtain ⟨v', hcreate, hput⟩ := runOn_create_puts h.wellFormed h.rooted
    (h.item?_temporary (isTemporary_temporary s.nextTemporary))
  exact ⟨_, v', hcreate, rfl, hput⟩

namespace Stands

variable (h : Stands d₀ den s latest) (hname : isTemporary name = true)
  (hb : Beside d₀ (den ++ [name]) v.disk) (hdir : w.directory = s.directory.entry name)

include h hname hb hdir

/-- A snapshot that is given up leaves the disk as it was. -/
theorem runOn_abandon (s' : SnapshotStore) : ∃ v',
    (abandon w).runOn ⟨s', v⟩ = (.ok (), ⟨s', v'⟩) ∧ Stands v'.disk den s latest ∧
      v'.disk.item? = d₀.item? := by
  have leads := h.rooted v.disk hb.outside
  obtain ⟨v', hdiscard, hw', hi⟩ := Volume.runOn_discard leads (plain_of_isTemporary hname) hb.wellFormed
  have hsame : v'.disk.item? = d₀.item? := by
    funext m
    rw [hi]
    split
    · next hp => rw [h.item?_of_prefix hname hp]
    · next hp => exact hb.item?_ne hp
  refine ⟨v', ?_, h.congr hw' hsame, hsame⟩
  rw [abandon, hdir]
  exact Mounted.runOn_onVolume_ok hdiscard

end Stands

/-! ### Publishing -/

/-- The snapshot at `i` is held and the latest one, and that before it is let go. -/
theorem runOn_advanceTo_held (i : Nat) : (advanceTo i).runOn ⟨s, v⟩ =
    (if 0 < s.last then release s.last else pure ()).runOn ⟨{ s with
      last := i
      holders := s.holders.insert i ((s.holders.get? i).getD 0 + 1) }, v⟩ := by
  rw [advanceTo, Act.runOn_bind_ok (Mounted.runOn_stored _),
    Act.runOn_bind_ok (Mounted.runOn_update _ _)]

/-- The snapshot at `i` becomes the latest one, and that before it is removed. -/
theorem runOn_advanceTo (hw : v.disk.WellFormed) (leads : v.disk.directoryAt s.directory = .ok den)
    (hheld : s.holders = held s.last) (hlt : s.last < i) : ∃ v',
    (advanceTo i).runOn ⟨s, v⟩ = (.ok (), ⟨{ s with last := i, holders := held i }, v'⟩) ∧
      v'.disk.WellFormed ∧ ∀ m, v'.disk.item? m =
        if 0 < s.last ∧ den ++ [published s.last] <+: m then none else v.disk.item? m := by
  have hcount : (s.holders.get? i).getD 0 + 1 = 1 := by rw [hheld, get?_held_of_lt hlt]; rfl
  have hadvance : (advanceTo i).runOn ⟨s, v⟩ = (if 0 < s.last then release s.last else pure ()).runOn
      ⟨{ s with last := i, holders := (held s.last).insert i 1 }, v⟩ := by
    rw [runOn_advanceTo_held, hcount, hheld]
  -- with a snapshot before the store lets go of it, and nobody else holds it
  by_cases hpos : 0 < s.last
  · obtain ⟨v', hdiscard, hw', hi⟩ := Volume.runOn_discard leads (plain_published s.last) hw
    refine ⟨v', ?_, hw', fun m => by simp only [hi, hpos, true_and]⟩
    rw [hadvance, if_pos hpos, release, Act.runOn_bind_ok (Mounted.runOn_stored _)]
    dsimp only
    rw [get?_insert_held hpos hlt]
    dsimp only
    rw [if_neg (by decide), Act.runOn_bind_ok (Mounted.runOn_update _ _)]
    dsimp only
    rw [erase_insert_held hlt]
    exact Mounted.runOn_onVolume_ok hdiscard
  · have hzero : s.last = 0 := by omega
    refine ⟨v, ?_, hw, fun m => by simp [hpos]⟩
    rw [hadvance, if_neg hpos, hzero, insert_held_zero (by omega)]
    rfl

theorem index_eq (hinfo : w.table.info = some info) : w.index = info.lastIncluded.index := by
  rw [SnapshotWriter.index, hinfo]
  rfl

/-- What is published needs nothing more. -/
theorem runOn_commit_published {m m' : Mounted SnapshotStore}
    (h : (publish w).runOn m = (.ok i, m')) : (commit w).runOn m = (.ok i, m') := by
  rw [commit, Act.runOn_bind_ok (Act.runOn_attempt _ _), h]
  rfl

/-- What is not published is given up. -/
theorem runOn_commit_refused {m m₁ m' : Mounted SnapshotStore} {e : Failure}
    (h : (publish w).runOn m = (.error e, m₁)) (habandon : (abandon w).runOn m₁ = (.ok (), m')) :
    (commit w).runOn m = (.error e, m') := by
  rw [commit, Act.runOn_bind_ok (Act.runOn_attempt _ _), h]
  exact Act.runOn_bind_ok habandon

section

variable {u : Unit} {v₁ : Volume} {m : Mounted SnapshotStore} (hzero : w.index ≠ 0)
  (hflush : w.flush.runOn v = (.ok u, v₁))

include hzero hflush

/-- A second snapshot with the latest index is given up. -/
theorem runOn_publish_again (hlast : w.index = s.last)
    (habandon : (abandon w).runOn ⟨s, v₁⟩ = (.ok (), m)) :
    (publish w).runOn ⟨s, v⟩ = (.ok w.index, m) := by
  rw [publish, if_neg hzero, Act.runOn_bind_ok (Mounted.runOn_onVolume_ok hflush),
    Act.runOn_bind_ok (Mounted.runOn_stored _)]
  dsimp only
  rw [if_pos hlast, Act.runOn_bind_ok habandon]
  rfl

variable (hlast : w.index ≠ s.last)

include hlast

/-- Where there is a snapshot, another one is not put. -/
theorem runOn_publish_there (hthere : v₁.disk.isThere (s.place w.index) = true) :
    (publish w).runOn ⟨s, v⟩ =
      (.error (.error (.invalidArgument (.stillReferenced w.index))), ⟨s, v₁⟩) := by
  rw [publish, if_neg hzero, Act.runOn_bind_ok (Mounted.runOn_onVolume_ok hflush),
    Act.runOn_bind_ok (Mounted.runOn_stored _)]
  dsimp only
  rw [if_neg hlast, Act.runOn_bind_ok (Act.runOn_get _)]
  dsimp only
  rw [hthere]
  rfl

/-- A work is moved to the place of its snapshot, which becomes the latest one. -/
theorem runOn_publish_place {v₂ v₃ : Volume}
    (hthere : v₁.disk.isThere (s.place w.index) = false)
    (hrename : (Volume.rename w.directory (s.place w.index)).runOn v₁ = (.ok (), v₂))
    (hparent : (Volume.flushParent s.sync (s.place w.index)).runOn v₂ = (.ok (), v₃))
    (hadvance : (advanceTo w.index).runOn ⟨s, v₃⟩ = (.ok (), m)) :
    (publish w).runOn ⟨s, v⟩ = (.ok w.index, m) := by
  rw [publish, if_neg hzero, Act.runOn_bind_ok (Mounted.runOn_onVolume_ok hflush),
    Act.runOn_bind_ok (Mounted.runOn_stored _)]
  dsimp only
  rw [if_neg hlast, Act.runOn_bind_ok (Act.runOn_get _)]
  dsimp only
  rw [hthere, if_neg (by simp), Act.runOn_bind_ok (Mounted.runOn_onVolume_ok hrename),
    Act.runOn_bind_ok (Mounted.runOn_onVolume_ok hparent), Act.runOn_bind_ok hadvance]
  rfl

end

/-- A table that is too large is not written at all. -/
theorem runOn_publish_tooLarge (hinfo : w.table.info = some info)
    (hpos : 0 < info.lastIncluded.index)
    (hsize : Numeral.max32 < (Json.encode w.table).length) : (publish w).runOn ⟨s, v⟩ =
      (.error (.error (.invalidArgument (.recordTooLarge (Json.encode w.table).length))), ⟨s, v⟩) := by
  have hflush : w.flush.runOn v =
      (.error (.error (.invalidArgument (.recordTooLarge (Json.encode w.table).length))), v) := by
    rw [SnapshotWriter.flush, Record.save, if_pos hsize]
    rfl
  rw [publish, index_eq hinfo, if_neg (by omega)]
  exact Act.runOn_bind_error (by rw [Mounted.runOn_onVolume, hflush])

namespace Stands

variable (h : Stands d₀ den s latest) (hname : isTemporary name = true)
  (hb : Beside d₀ (den ++ [name]) v.disk) (hdir : w.directory = s.directory.entry name)
  (htable : v.disk.item? (den ++ [name] ++ [SnapshotName.table]) ≠ some .directory)
  (hdraft : v.disk.item? (den ++ [name] ++ [SnapshotName.table ++ ".tmp"]) ≠ some .directory)

include h hname hb hdir htable hdraft

/-- The table of a snapshot in the making is written. -/
theorem runOn_flush (hsize : (Json.encode w.table).length ≤ Numeral.max32) : ∃ k v',
    w.flush.runOn v = (.ok (), v') ∧ Beside d₀ (den ++ [name]) v'.disk ∧
      v'.disk.item? (den ++ [name] ++ [SnapshotName.table]) =
        some (.file k (Record.frame (Json.encode w.table))) := by
  have leads := directoryAt_entry (h.rooted v.disk hb.outside) (plain_of_isTemporary hname)
    hb.directory
  rw [← hdir] at leads
  obtain ⟨k, v', hsave, hw', hi, -⟩ := Record.runOn_save hb.wellFormed leads plain_table
    hsize w.sync hdraft htable
  refine ⟨k, v', hsave, hb.congr hw' fun m hm => ?_, by rw [hi, Function.update_self]⟩
  rw [hi, Function.update_of_ne, Function.update_of_ne]
  · rintro rfl
    exact hm (below_entry _)
  · rintro rfl
    exact hm (below_entry _)

/-- What was made, with its table, goes to the name of its index, and the snapshot before is
removed. -/
theorem runOn_publish_moved (hsize : (Json.encode w.table).length ≤ Numeral.max32)
    (hinfo : w.table.info = some info) (hlt : s.last < info.lastIncluded.index) :
    ∃ (k : Nat) (v₁ v' : Volume),
    v₁.disk.item? (den ++ [name]) = some .directory ∧
    v₁.disk.item? (den ++ [name] ++ [SnapshotName.table]) =
      some (.file k (Record.frame (Json.encode w.table))) ∧
    (publish w).runOn ⟨s, v⟩ = (.ok info.lastIncluded.index,
      ⟨{ s with last := info.lastIncluded.index, holders := held info.lastIncluded.index }, v'⟩) ∧
    v'.disk.WellFormed ∧ ∀ m, v'.disk.item? m =
      if 0 < s.last ∧ den ++ [published s.last] <+: m then none
      else if den ++ [published info.lastIncluded.index] <+: m then
        v₁.disk.item? (den ++ [name] ++ m.drop (den ++ [published info.lastIncluded.index]).length)
      else if den ++ [name] <+: m then none else d₀.item? m := by
  obtain ⟨k, v₁, hflush, hb₁, hat⟩ := h.runOn_flush hname hb hdir htable hdraft hsize
  have leads₁ := h.rooted v₁.disk hb₁.outside
  have hp := plain_published info.lastIncluded.index
  have hapart (i : Nat) : ¬ name = published i := by
    rintro rfl
    rw [isTemporary_published] at hname
    exact absurd hname (by simp)
  have hnone : v₁.disk.item? (den ++ [published info.lastIncluded.index]) = none := by
    rw [hb₁.item?_ne (mt entry_prefix_iff.1 (hapart _))]
    exact h.item?_published_of_lt hlt
  obtain ⟨v₂, hrename, hw₂, hi₂⟩ := Volume.runOn_rename_directory leads₁
    (plain_of_isTemporary hname) hp hb₁.wellFormed hb₁.directory hnone
  have houtside₂ : Outside d₀.item? den v₂.disk := by
    refine ⟨hw₂, fun m hm => ?_⟩
    rw [hi₂, if_neg ((below_entry _).not_isPrefix hm), if_neg ((below_entry _).not_isPrefix hm),
      hb₁.outside.item? m hm]
  have leads₂ := h.rooted v₂.disk houtside₂
  obtain ⟨v₃, hparent, hdisk₃⟩ := Volume.runOn_flushParent leads₂ hp s.sync
  obtain ⟨v₄, hadvance, hw₄, hi₄⟩ := runOn_advanceTo (s := s) (hdisk₃ ▸ hw₂) (hdisk₃ ▸ leads₂)
    h.holders hlt
  refine ⟨k, v₁, v₄, hb₁.directory, hat, ?_, hw₄, fun m => ?_⟩
  · have hthere : v₁.disk.isThere (s.place info.lastIncluded.index) = false := by
      rw [isThere, place, lookup_entry leads₁ hp, item?_eq_none_iff.1 hnone]
      rfl
    rw [← index_eq hinfo] at hthere hrename hparent hadvance hlt ⊢
    exact runOn_publish_place (by omega) hflush (by omega) hthere (hdir ▸ hrename) hparent hadvance
  · rw [hi₄, hdisk₃, hi₂]
    by_cases hm : den ++ [name] <+: m
    · rw [if_pos hm, if_pos hm]
    · rw [if_neg hm, if_neg hm, hb₁.item?_ne hm]

/-- **A snapshot that is published** takes the place of the one before. -/
theorem runOn_publish (hsize : (Json.encode w.table).length ≤ Numeral.max32)
    (hinfo : w.table.info = some info) (hproper : info.Proper)
    (hlt : s.last < info.lastIncluded.index) : ∃ s' v',
    (publish w).runOn ⟨s, v⟩ = (.ok info.lastIncluded.index, ⟨s', v'⟩) ∧
      s'.directory = s.directory ∧ Stands v'.disk den s' (some info) ∧
      Outside d₀.item? den v'.disk := by
  obtain ⟨k, v₁, v', hmade, hat, hrun, hw', hi⟩ :=
    h.runOn_publish_moved hname hb hdir htable hdraft hsize hinfo hlt
  have houtside : Outside d₀.item? den v'.disk := by
    refine ⟨hw', fun m hm => ?_⟩
    rw [hi, if_neg fun hp => (below_entry _).not_isPrefix hm hp.2,
      if_neg ((below_entry _).not_isPrefix hm), if_neg ((below_entry _).not_isPrefix hm)]
  -- what was made is under the new name, with all that is below it
  have hnew (rest : Location) : v'.disk.item? (den ++ published info.lastIncluded.index :: rest) =
      v₁.disk.item? (den ++ [name] ++ rest) := by
    have hne : published s.last ≠ published info.lastIncluded.index := fun he => by
      have := published_injective he
      omega
    rw [hi, if_neg fun hp => hne (entry_prefix_iff.1 hp.2), if_pos (entry_prefix_iff.2 rfl),
      List.append_cons den (published _) rest, List.drop_left]
  refine ⟨_, v', hrun, rfl,
    ⟨hw', h.rooted.outside houtside, fun x hx => ⟨info, rfl, ?_⟩, ?_, rfl, rfl⟩, houtside⟩
  · -- a name that is left was there before, so it is that of the snapshot that was removed
    by_contra hne
    rw [hi, if_neg (mt entry_prefix_iff.1 (Ne.symm hne))] at hx
    split at hx
    · exact absurd hx (by simp)
    next hnot =>
    split at hx
    · exact absurd hx (by simp)
    next hname' =>
    obtain ⟨info', hinfo', rfl⟩ := h.only x hx
    refine hnot ⟨?_, ?_⟩
    · rw [h.last_eq hinfo']
      exact (h.kept info' hinfo').positive
    · simp [h.last_eq hinfo']
  · intro info' hinfo'
    obtain rfl : info = info' := Option.some.inj hinfo'
    refine ⟨?_, ⟨k, w.table, hinfo, hsize, ?_⟩, by omega, hproper⟩
    · rw [hnew [], List.append_nil, hmade]
    · rw [List.append_assoc, List.singleton_append, hnew, hat]

/-- **A commit** publishes the snapshot or, if its table is too large, gives it up and leaves the
disk as it was. -/
theorem runOn_commit (hinfo : w.table.info = some info) (hproper : info.Proper)
    (hlt : s.last < info.lastIncluded.index) :
    (∃ s' v', (commit w).runOn ⟨s, v⟩ = (.ok info.lastIncluded.index, ⟨s', v'⟩) ∧
      s'.directory = s.directory ∧ Stands v'.disk den s' (some info) ∧
      Outside d₀.item? den v'.disk) ∨
    ∃ v', (commit w).runOn ⟨s, v⟩ =
        (.error (.error (.invalidArgument (.recordTooLarge (Json.encode w.table).length))), ⟨s, v'⟩) ∧
      Stands v'.disk den s latest ∧ v'.disk.item? = d₀.item? := by
  by_cases hsize : (Json.encode w.table).length ≤ Numeral.max32
  · obtain ⟨s', v', hpublish, hdir', hstands, houtside⟩ :=
      h.runOn_publish hname hb hdir htable hdraft hsize hinfo hproper hlt
    exact .inl ⟨s', v', runOn_commit_published hpublish, hdir', hstands, houtside⟩
  · obtain ⟨v', habandon, hstands, hsame⟩ := h.runOn_abandon hname hb hdir s
    have hrefused := runOn_publish_tooLarge (s := s) (v := v) hinfo (by omega) (by omega)
    exact .inr ⟨v', runOn_commit_refused hrefused habandon, hstands, hsame⟩

end Stands

/-! ### Opening again -/

/-- A store is opened as if its directory had been there before. -/
theorem runOn_init_made {v₁ : Volume}
    (hmake : (Volume.makeDirectories s.directory).runOn v = (.ok (), v₁))
    (leads : v₁.disk.directoryAt s.directory = .ok den) :
    init.runOn ⟨s, v⟩ = init.runOn ⟨s, v₁⟩ := by
  have hmake' : (Mounted.onVolume (Volume.makeDirectories s.directory)).runOn ⟨s, v⟩ =
      (.ok (), ⟨s, v₁⟩) := Mounted.runOn_onVolume_ok hmake
  have hagain : (Mounted.onVolume (Volume.makeDirectories s.directory)).runOn ⟨s, v₁⟩ =
      (.ok (), ⟨s, v₁⟩) := Mounted.runOn_onVolume_ok (Volume.runOn_makeDirectories leads)
  rw [init, Act.runOn_bind_ok (Mounted.runOn_stored _), Act.runOn_bind_ok hmake',
    Act.runOn_bind_ok (Mounted.runOn_stored _), Act.runOn_bind_ok hagain]

namespace Stands

/-- An empty directory holds no snapshot. -/
theorem of_empty (hw : d.WellFormed) (rooted : Rooted d.item? den s.directory)
    (hempty : ∀ m, Below den m → d.item? m = none) :
    Stands d den { s with last := 0, holders := .empty } none := by
  refine ⟨hw, rooted, fun name hname => ?_, fun _ hinfo => absurd hinfo (by simp), rfl, rfl⟩
  rw [hempty _ (below_entry name)] at hname
  exact absurd hname (by simp)

/-- The directory lists the latest snapshot. -/
theorem list (h : Stands d den s latest) : d.list s.directory =
    .ok (latest.toList.map fun info => published info.lastIncluded.index) := by
  obtain ⟨names, hlist, hnodup, hmem⟩ := exists_list h.wellFormed h.leads
  rw [hlist]
  have hthere (x : String) : x ∈ names ↔ ∃ info ∈ latest, x = published info.lastIncluded.index := by
    rw [hmem]
    refine ⟨h.only x, ?_⟩
    rintro ⟨info, hinfo, rfl⟩
    rw [(h.kept info hinfo).directory]
    rfl
  cases latest with
  | none =>
    have hnil : names = [] := List.eq_nil_iff_forall_not_mem.2 fun x hx => by
      obtain ⟨info, hinfo, -⟩ := (hthere x).1 hx
      exact absurd hinfo (by simp)
    rw [hnil]
    rfl
  | some info =>
    have hperm : names.Perm [published info.lastIncluded.index] := by
      refine (List.perm_ext_iff_of_nodup hnodup (List.nodup_singleton _)).2 fun x => ?_
      rw [hthere, List.mem_singleton]
      simp
    rw [List.perm_singleton.1 hperm]
    rfl

/-- **A store that is opened again** keeps the latest snapshot, and removes nothing. -/
theorem runOn_init (h : Stands v.disk den s latest) (hdir : s₀.directory = s.directory) : ∃ s',
    init.runOn ⟨s₀, v⟩ = (.ok (), ⟨s', v⟩) ∧ s'.directory = s.directory ∧
      Stands v.disk den s' latest := by
  refine ⟨{ s₀ with last := s.last, holders := held s.last }, ?_, hdir,
    ⟨h.wellFormed, hdir ▸ h.rooted, h.only, h.kept, h.last, rfl⟩⟩
  have hmake : (Volume.makeDirectories s₀.directory).runOn v = (.ok (), v) :=
    Volume.runOn_makeDirectories (hdir ▸ h.leads)
  have hlook : (Volume.look (·.list s₀.directory)).runOn v =
      (.ok (latest.toList.map fun info => published info.lastIncluded.index), v) :=
    Volume.runOn_look_ok (hdir ▸ h.list)
  -- nothing is in the making, and there is no second snapshot
  have hnone : (latest.toList.map fun info => published info.lastIncluded.index).filter isTemporary =
      [] := by
    cases latest <;> simp [isTemporary_published]
  have hindexes : (((latest.toList.map fun info => published info.lastIncluded.index).filter
      (!isTemporary ·)).filterMap index?).mergeSort (fun a b => a ≤ b) =
        latest.toList.map (·.lastIncluded.index) := by
    cases latest with
    | none => simp
    | some info => simp [isTemporary_published, index?_published (h.kept info rfl).proper.index]
  have hdrop : (latest.toList.map (·.lastIncluded.index)).dropLast = [] := by cases latest <;> rfl
  have hlast : (latest.toList.map (·.lastIncluded.index)).getLast?.getD 0 = s.last := by
    rw [h.last]
    cases latest <;> rfl
  rw [init, Act.runOn_bind_ok (Mounted.runOn_stored _),
    Act.runOn_bind_ok (Mounted.runOn_onVolume_ok hmake),
    Act.runOn_bind_ok (Mounted.runOn_onVolume_ok hlook), hnone]
  dsimp only
  rw [hindexes, hdrop, hlast]
  rfl

/-- Without a snapshot there is nothing to open. -/
theorem runOn_openLatest_none (h : Stands d den s none) :
    openLatest.runOn ⟨s, v⟩ = (.ok none, ⟨s, v⟩) := by
  have hlast : s.last = 0 := h.last
  rw [openLatest, Act.runOn_bind_ok (Mounted.runOn_stored _)]
  dsimp only
  rw [hlast]
  rfl

/-- **The latest snapshot is opened**, and once its reader is closed the store is as it was. -/
theorem runOn_openLatest (h : Stands v.disk den s (some info)) : ∃ (r : SnapshotReader) (s' : SnapshotStore),
    openLatest.runOn ⟨s, v⟩ = (.ok (some r), ⟨s', v⟩) ∧ r.info = .ok info ∧ r.index = s.last ∧
      r.directory = s.place s.last ∧
      Record.read (SnapshotTable.file r.directory) v.disk = .ok r.table ∧
      ∀ v', (closeReader r).runOn ⟨s', v'⟩ = (.ok (), ⟨s, v'⟩) := by
  obtain ⟨hat, ⟨k, t, hinfo, hsize, htable⟩, hpos, hproper⟩ := h.kept info rfl
  have hlast := h.last_eq rfl
  rw [← hlast] at hat htable hpos
  have leads := directoryAt_entry h.leads (plain_published s.last) hat
  have htold : Json.Told t := Json.told_snapshotTable fun m hm => by
    obtain rfl : info = m := Option.some.inj (hinfo.symm.trans hm)
    exact hproper
  have hread : Record.read (SnapshotTable.file (s.place s.last)) v.disk = .ok t := by
    rw [SnapshotTable.file, place, Record.read_entry leads plain_table, htable]
    exact Record.parse_frame _ hsize htold.decode?_encode
  have hload : (Record.load (SnapshotTable.file (s.place s.last))).runOn v = (.ok t, v) := by
    rw [Record.load, Act.runOn_reading, hread]
    rfl
  -- the reader and the store hold the snapshot, and then the store alone
  let s' : SnapshotStore := { s with holders := s.holders.insert s.last 2 }
  have hhold : (hold s.last).runOn ⟨s, v⟩ = (.ok (), ⟨s', v⟩) := by
    rw [hold, Act.runOn_bind_ok (Mounted.runOn_stored _)]
    dsimp only
    rw [h.holders, get?_held hpos]
    rfl
  have hopen : (openAt s.last).runOn ⟨s, v⟩ = (.ok ⟨s.last, s.place s.last, t⟩, ⟨s', v⟩) := by
    rw [openAt, Act.runOn_bind_ok hhold, Act.runOn_bind_ok (Mounted.runOn_stored _)]
    dsimp only
    rw [Act.runOn_bind_ok (Act.runOn_attempt _ _), Mounted.runOn_onVolume]
    dsimp only
    rw [show s'.place s.last = s.place s.last from rfl, hload]
    rfl
  refine ⟨⟨s.last, s.place s.last, t⟩, s', ?_, ?_, rfl, rfl, hread, fun v' => ?_⟩
  · rw [openLatest, Act.runOn_bind_ok (Mounted.runOn_stored _)]
    dsimp only
    rw [if_neg (by omega), Act.runOn_bind_ok (Act.runOn_attempt _ _), hopen]
    rfl
  · rw [SnapshotReader.info, hinfo]
  · rw [closeReader, release, Act.runOn_bind_ok (Mounted.runOn_stored _)]
    have hheld : s.holders.insert s.last 2 = (held s.last).insert s.last 2 := by rw [h.holders]
    dsimp only [s']
    rw [hheld, get?_insert_held_self hpos]
    dsimp only
    rw [if_pos (by decide), Mounted.runOn_update, insert_insert_held hpos, ← h.holders]

end Stands
end SnapshotStore
end RaftReplica
