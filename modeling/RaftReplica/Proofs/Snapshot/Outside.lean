/-
RaftReplica/Proofs/Snapshot/Outside.lean

A store of snapshots and the rest of the disk.  What the store does, and what the copies that run in
it do, touches nothing but what is below the directory of the store, whatever way it ends.

A copy writes to a file that it has open, in a directory of its own, so it is said of these that
they are the store's (`CopyStage.Inside`).  That is the invariant: every writer has its directory
inside of the store's, and every copy under way its writer and its open file
(`SnapshotStore.Inside`).

Each action is shown to be confined (`Confined`), which means that from such a store it comes to
such a store, with nothing changed outside.  The proofs follow the actions: parts that write on the
disk are confined because their paths are under the directory of the store (`Inside.under_entry`,
`under_place`), and a part that only looks, or that fails, is confined anyway.  The name of a file is
checked before it is used, so it cannot lead out (`ne_of_isAllowed`).

The result that others use is about a step of a copy (`confined_stepCopy`), since everything that a
store can do on the disk comes up in it.
-/
import RaftReplica.Proofs.Snapshot.Store
import RaftReplica.Snapshot.Copying

namespace RaftReplica

open Disk Mounted

variable {base : Location → Option Item} {den : Location} {p : Path} {α : Type}

/-! ### Snapshots in the making -/

namespace SnapshotName

theorem ne_of_isAllowed {name : String} (h : isAllowed name = true) : name ≠ "" ∧ name ≠ ".." := by
  constructor <;> rintro rfl <;> exact absurd h (by decide)

theorem ne_table_of_isAllowed {name : String} (h : isAllowed name = true) : name ≠ table := by
  rintro rfl
  exact absurd h (by decide)

/-- A name that passes the check is allowed. -/
theorem isAllowed_of_check {name : String} {u : Unit} (h : check name = .ok u) :
    isAllowed name = true := by
  unfold check at h
  split at h
  · assumption
  · nomatch h

end SnapshotName

namespace SnapshotWriter

variable {w w' : SnapshotWriter}

/-- The snapshot is made in a directory of the store at `p`. -/
def Inside (p : Path) (w : SnapshotWriter) : Prop :=
  ∃ n, w.directory = p.entry (SnapshotName.temporary n)

/-- A writer stays where it is when it is told of a file. -/
theorem directory_of_addFile {name : String} {file : FileMeta}
    (hadd : w.addFile name file = .ok w') : w'.directory = w.directory := by
  unfold SnapshotWriter.addFile at hadd
  cases hcheck : SnapshotName.check name with
  | error e => rw [hcheck] at hadd; nomatch hadd
  | ok u =>
    rw [hcheck] at hadd
    obtain rfl := Except.ok.inj hadd
    rfl

/-- So it stays inside of the store. -/
theorem Inside.addFile {name : String} {file : FileMeta} (h : w.Inside p)
    (hadd : w.addFile name file = .ok w') : w'.Inside p := by
  obtain ⟨n, hdir⟩ := h
  exact ⟨n, (directory_of_addFile hadd).trans hdir⟩

variable (hp : Rooted base den p) (h : w.Inside p)

include hp h

/-- The directory of a writer is under that of the store. -/
theorem Inside.under : Under base den w.directory := by
  obtain ⟨n, hdir⟩ := h
  rw [hdir]
  exact hp.under (SnapshotName.plain_of_isTemporary (SnapshotName.isTemporary_temporary n))

/-- So are the files in it. -/
theorem Inside.under_entry {name : String} (hn : name ≠ "") (hup : name ≠ "..") :
    Under base den (w.directory.entry name) := by
  have hunder := h.under hp
  obtain ⟨n, hdir⟩ := h
  rw [hdir] at hunder ⊢
  exact hunder.entry hn hup

theorem Inside.confined_flush : Volume.Confined base den w.flush fun _ => True :=
  Volume.confined_save (h.under_entry hp (by decide) (by decide))
    (h.under_entry hp (by decide) (by decide)) _ _

end SnapshotWriter

/-! ### Copies -/

/-- A copy that is under way fills a directory of the store at `p`, and the file that it has open is
none outside. -/
def CopyStage.Inside (base : Location → Option Item) (den : Location) (p : Path) : CopyStage → Prop
  | .copying w _ t _ => w.Inside p ∧ Free base den t.output
  | _ => True

namespace SnapshotStore

variable {s : SnapshotStore} {w : SnapshotWriter} {info : SnapshotMeta} {source : Path}
  {t : Transfer}

section Files

variable (hp : Rooted base den p) (hw : w.Inside p)

include hp hw

/-- Opening the next file makes a file in the writer's directory. -/
theorem confined_openNext (files : List (String × FileMeta)) :
    Volume.Confined base den (openNext source w info files)
      fun next => ∀ stage ∈ next, stage.Inside base den p := by
  cases files with
  | nil => exact .pure fun _ h => absurd h (Option.not_mem_none _)
  | cons file rest =>
    obtain ⟨name, expected⟩ := file
    refine .bind (Q := fun _ => SnapshotName.isAllowed name = true)
      (.ofExcept fun _ => SnapshotName.isAllowed_of_check) fun _ hname => ?_
    obtain ⟨hn, hup⟩ := SnapshotName.ne_of_isAllowed hname
    refine .bind (Q := fun _ => True) (Volume.confined_look fun _ _ _ _ => trivial) fun input _ => ?_
    refine .bind (Volume.confined_create (hw.under_entry hp hn hup)) fun output houtput => .pure ?_
    rintro stage ⟨⟩
    exact ⟨hw, houtput⟩

/-- Going on to the next file is confined. -/
theorem confined_nextFile (c : Copy) (rest : List (String × FileMeta)) :
    Volume.Confined base den (nextFile c w info rest)
      fun next => ∀ stage ∈ next, stage.Inside base den p := by
  refine .bind (confined_openNext hp hw rest) fun next hnext => ?_
  cases next with
  | some stage => exact .pure hnext
  | none =>
    dsimp only
    split
    · exact .fail_bind _ _
    · exact .pure fun _ h => absurd h (Option.not_mem_none _)

omit hp hw in
/-- A piece is written to the file that is open. -/
theorem confined_nextPiece (ht : Free base den t.output) (granted : Nat) :
    Volume.Confined base den (nextPiece granted t)
      fun next => ∀ t' ∈ next, Free base den t'.output := by
  refine .bind (.require _ _) fun _ _ => ?_
  dsimp only
  split
  · exact .fail _
  · refine .bind .get fun v _ => ?_
    split
    · exact .pure fun _ h => absurd h (Option.not_mem_none _)
    · refine .bind (Volume.confined_write ht _ _) fun _ _ => .pure ?_
      rintro t' ⟨⟩
      exact ht

/-- **A piece that is copied** is written inside, and so is the file that comes next. -/
theorem confined_fill (ht : Free base den t.output) (c : Copy) (granted : Nat)
    (rest : List (String × FileMeta)) :
    Volume.Confined base den (fill c granted w info t rest)
      fun next => (∀ stage ∈ next.1, stage.Inside base den p) ∧ next.2.Inside p := by
  unfold fill
  dsimp only
  split
  · exact .fail_bind _ _
  refine .bind (confined_nextPiece ht granted) fun piece hpiece => ?_
  -- a piece was copied, or the file has come to its end
  cases piece with
  | some t' =>
    refine .pure ⟨?_, hw⟩
    rintro stage ⟨⟩
    exact ⟨hw, hpiece t' rfl⟩
  | none =>
    refine .bind (Q := fun _ => True) (.ofExcept fun _ _ => trivial) fun _ _ => ?_
    refine .bind (Volume.confined_flush _ _) fun _ _ => ?_
    refine .bind (.ofExcept fun _ => hw.addFile) fun w' hw' => ?_
    exact .bind (confined_nextFile hp hw' c rest) fun next hnext => .pure ⟨hnext, hw'⟩

end Files

/-! ### The store -/

/-- The store is in the directory at `p`, and its copies fill directories of its own. -/
structure Inside (base : Location → Option Item) (den : Location) (p : Path) (s : SnapshotStore) :
    Prop where
  directory : s.directory = p
  copies : ∀ c ∈ s.copies, c.stage.Inside base den p

namespace Inside

variable (h : s.Inside base den p)

include h

/-- A copy of the store is inside of it. -/
theorem copy (number : Nat) : (s.copy number).stage.Inside base den p := by
  unfold SnapshotStore.copy
  cases hc : s.copies[number]? with
  | none => trivial
  | some c => exact h.copies c (List.mem_of_getElem? hc)

/-- A copy that is changed stays inside if the change keeps it there. -/
theorem modifyCopy {f : Copy → Copy} (number : Nat)
    (hf : ∀ c, c.stage.Inside base den p → (f c).stage.Inside base den p) :
    (s.modifyCopy number f).Inside base den p := by
  refine ⟨h.directory, fun c hc => ?_⟩
  obtain ⟨i, hi⟩ := List.mem_iff_getElem?.1 hc
  rw [SnapshotStore.modifyCopy, List.getElem?_modify] at hi
  obtain ⟨c', hc', rfl⟩ := Option.map_eq_some_iff.1 hi
  have hstage := h.copies c' (List.mem_of_getElem? hc')
  split
  · exact hf c' hstage
  · exact hstage

theorem refuseCopy (number : Nat) : (s.refuseCopy number).Inside base den p :=
  h.modifyCopy number fun _ _ => trivial

theorem under_place (hp : Rooted base den p) (index : Nat) : Under base den (s.place index) := by
  rw [place, h.directory]
  exact hp.under (SnapshotName.plain_published index)

end Inside

/-- The action on a store changes nothing outside of `den`, and `Q` holds of its result. -/
abbrev Confined (base : Location → Option Item) (den : Location) (p : Path)
    (x : Act (Mounted SnapshotStore) α) (Q : α → Prop) : Prop :=
  Mounted.Confined base den (Inside base den p) x Q

/-- Starting a copy writes nothing. -/
theorem confined_startCopy (uri : String) : Confined base den p (startCopy uri) fun _ => True := by
  refine .bind (Q := fun _ => True) (.ofExcept fun _ _ => trivial) fun source _ => ?_
  refine .bind confined_stored fun s _ => ?_
  refine .bind (confined_update fun s hs => ⟨hs.directory, fun c hc => ?_⟩) fun _ _ => .pure trivial
  rcases List.mem_append.1 hc with hc | hc
  · exact hs.copies c hc
  · obtain rfl := List.mem_singleton.1 hc
    trivial

/-- Joining one writes nothing. -/
theorem confined_joinCopy (number : Nat) :
    Confined base den p (joinCopy number) fun _ => True := by
  refine .bind confined_stored fun s _ => ?_
  dsimp only
  split
  · exact .fail_bind _ _
  refine .bind (confined_update fun s hs => hs.modifyCopy number fun _ => id) fun _ _ => ?_
  split
  · exact .ofExcept fun _ _ => trivial
  · exact .fail _

section Calls

variable (hp : Rooted base den p)

include hp

/-- Letting go of a snapshot removes its directory at most. -/
theorem confined_release (index : Nat) : Confined base den p (release index) fun _ => True := by
  refine .bind confined_stored fun s hs => ?_
  split
  · exact .pure trivial
  · split
    · exact confined_update fun s hs => ⟨hs.directory, hs.copies⟩
    · refine .bind (confined_update fun s hs => ⟨hs.directory, hs.copies⟩) fun _ _ => ?_
      exact confined_onVolume (Volume.confined_discard (hs.under_place hp index))

theorem confined_closeReader (r : SnapshotReader) :
    Confined base den p (closeReader r) fun _ => True := confined_release hp r.index

/-- Opening a snapshot only reads. -/
theorem confined_openAt (index : Nat) : Confined base den p (openAt index) fun _ => True := by
  have hhold : Confined base den p (hold index) fun _ => True := by
    refine .bind confined_stored fun s _ => ?_
    split
    · exact confined_update fun s hs => ⟨hs.directory, hs.copies⟩
    · exact .fail _
  refine .bind hhold fun _ _ => .bind confined_stored fun s hs => ?_
  refine .bind (confined_onVolume (Volume.confined_reading _)).attempt fun table _ => ?_
  cases table with
  | ok table => exact .pure trivial
  | error e => exact .bind (confined_release hp index) fun _ _ => .throw e

/-- Creating makes a directory inside of the store. -/
theorem confined_create :
    Confined base den p create fun w => w.Inside p := by
  refine .bind confined_stored fun s hs => ?_
  have hn := SnapshotName.plain_of_isTemporary (SnapshotName.isTemporary_temporary s.nextTemporary)
  refine .bind (confined_update fun s hs => ⟨hs.directory, hs.copies⟩) fun _ _ => ?_
  dsimp only
  rw [hs.directory]
  refine .bind (confined_onVolume (Volume.confined_discard (hp.under hn))) fun _ _ => ?_
  refine .bind (confined_onVolume (Volume.confined_makeDirectories hp hn)) fun _ _ => ?_
  exact .pure ⟨_, rfl⟩

/-- Going over to a new snapshot lets go of the one before. -/
theorem confined_advanceTo (index : Nat) : Confined base den p (advanceTo index) fun _ => True := by
  refine .bind confined_stored fun s _ => ?_
  refine .bind (confined_update fun s hs => ⟨hs.directory, hs.copies⟩) fun _ _ => ?_
  split
  · exact confined_release hp _
  · exact .pure trivial

section

variable (hw : w.Inside p)

include hw

theorem confined_abandon : Confined base den p (abandon w) fun _ => True :=
  confined_onVolume (Volume.confined_discard (hw.under hp))

/-- Publishing writes the table, renames the writer's directory and goes over to the new
snapshot. -/
theorem confined_publish : Confined base den p (publish w) fun _ => True := by
  unfold publish
  dsimp only
  split
  · exact .fail_bind _ _
  refine .bind (confined_onVolume (hw.confined_flush hp)) fun _ _ => ?_
  refine .bind confined_stored fun s hs => ?_
  split
  · exact .bind (confined_abandon hp hw) fun _ _ => .pure trivial
  · refine .bind .get fun m _ => ?_
    split
    · exact .fail_bind _ _
    have hplace := hs.under_place hp w.index
    refine .bind (confined_onVolume (Volume.confined_rename (hw.under hp) hplace)) fun _ _ => ?_
    refine .bind (confined_onVolume (Volume.confined_flushParent _ _)) fun _ _ => ?_
    exact .bind (confined_advanceTo hp _) fun _ _ => .pure trivial

/-- A commit publishes, and gives the writer up if that fails. -/
theorem confined_commit : Confined base den p (commit w) fun _ => True := by
  refine .bind (confined_publish hp hw).attempt fun index _ => ?_
  cases index with
  | ok index => exact .pure trivial
  | error e => exact .bind (confined_abandon hp hw) fun _ _ => .throw e

/-- The end of a copy is a commit. -/
theorem confined_finishCopy (info : SnapshotMeta) :
    Confined base den p (finishCopy w info) (CopyStage.Inside base den p) :=
  .bind (confined_commit hp (w := w.setInfo info) hw) fun index _ =>
    .bind (confined_openAt hp index) fun _ _ => .pure trivial

/-- What follows on a filled piece is confined if filling is. -/
theorem confined_afterFilling {x : Act Volume (Option CopyStage × SnapshotWriter)}
    (hx : Volume.Confined base den x
      fun next => (∀ stage ∈ next.1, stage.Inside base den p) ∧ next.2.Inside p) :
    Confined base den p (afterFilling w info x) (CopyStage.Inside base den p) := by
  refine .bind (confined_onVolume hx).attempt fun next hnext => ?_
  split
  · exact .pure ((hnext _ rfl).1 _ rfl)
  · exact confined_finishCopy hp (hnext _ rfl).2 info
  · exact .bind (confined_abandon hp hw) fun _ _ => .fail _
  · exact .violate _

end

/-! ### Steps of copies -/

/-- A copy begins in a directory of its own. -/
theorem confined_beginCopy (c : Copy) :
    Confined base den p (beginCopy c) (CopyStage.Inside base den p) := by
  refine .bind (confined_onVolume (Volume.confined_reading _)) fun table _ => ?_
  cases table.info with
  | none => exact .fail _
  | some info =>
    refine .bind (confined_create hp) fun w hw => confined_afterFilling hp hw ?_
    exact .bind (confined_nextFile hp hw c _) fun next hnext => .pure ⟨hnext, hw⟩

omit hp in
/-- Looking at what comes of a step changes nothing. -/
theorem confined_stageOf {x : Act (Mounted SnapshotStore) CopyStage}
    (hx : Confined base den p x (CopyStage.Inside base den p)) :
    Confined base den p (stageOf x) (CopyStage.Inside base den p) := by
  refine .bind hx.attempt fun stage hstage => ?_
  split
  · exact .pure (hstage _ rfl)
  · exact .pure trivial
  · exact .pure trivial

/-- **A step of a copy** changes nothing outside of the store's directory. -/
theorem confined_stepCopy (number granted : Nat) :
    Confined base den p (stepCopy number granted) fun _ => True := by
  refine .bind confined_stored fun s hs => ?_
  have hcopy := hs.copy number
  refine .bind (confined_stageOf ?_) fun stage hstage => ?_
  -- the three stages of a copy: waiting, under way, and over
  · split
    · exact confined_beginCopy hp _
    · next w info t rest heq =>
      rw [heq] at hcopy
      exact confined_afterFilling hp hcopy.1 (confined_fill hp hcopy.1 hcopy.2 _ _ _)
    · exact .pure trivial
  refine .bind (confined_update fun s hs => hs.modifyCopy number fun _ _ => hstage) fun _ _ => ?_
  split
  · unfold closeOutcome
    split
    · exact confined_closeReader hp _
    · exact .pure trivial
  · exact .pure trivial

end Calls
end SnapshotStore
end RaftReplica
