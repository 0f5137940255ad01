/-
RaftReplica/Proofs/Log/Outside.lean

A log and the rest of the disk.  Opening a log, appending to it and dropping its front touch nothing
but what is below its directory, whatever way they end; and what happens elsewhere does not change
what the log holds.

A log writes to files that it has open, so it is said of these that none of them is a file outside
(`Inside`).  That is the invariant of every step:

* paths that the log builds are entries of its directory (`Rooted.under`);
* a file that it opens or makes by such a path is below the directory;
* its segments keep the files that they have.

Nothing is asked of the disk: the directory may be missing, hold files of others, or have something
in the way of the log.  `Mounted.Confined` therefore speaks of all runs, also of those that end with
an error, and the lemmas follow the definitions bind by bind.  For a log that stands its files are
its own (`Stands.inside`), which gives the two results `outside_append` and
`outside_truncateBefore`.
-/
import RaftReplica.Proofs.Disk.Outside
import RaftReplica.Proofs.Log.Reachable

namespace RaftReplica

open Disk RaftReplica.Frame

variable {base : Location → Option Item} {home : Location} {p : Path} {sync : Bool} {e : Entry}

namespace Segment

variable {s : Segment}

/-- The segment is one of the directory at `p`, and the file that it has open is none outside. -/
structure Inside (base : Location → Option Item) (home : Location) (p : Path) (s : Segment) :
    Prop where
  directory : s.directory = p
  file : ∀ k ∈ s.handle, Free base home k

/-- The path of a segment is below the directory. -/
theorem under_path (hp : Rooted base home p) (hdir : s.directory = p) :
    Under base home s.path := by
  rw [path_eq hdir]
  exact hp.under (SegmentName.plain_text _)

/-- A new segment's file is inside. -/
theorem confined_create (hp : Rooted base home p) (hdir : s.directory = p) :
    Volume.Confined base home s.create (Inside base home p) := by
  refine .bind (.require _ _) fun _ _ => ?_
  refine .bind (Volume.confined_create (under_path hp hdir)) fun k hk => .pure ⟨hdir, ?_⟩
  rintro j hj
  exact Option.some.inj hj ▸ hk

/-- Only a file inside is removed. -/
theorem confined_unlink (hp : Rooted base home p) (hdir : s.directory = p) :
    Volume.Confined base home s.unlink fun _ => True := by
  intro v hv
  refine ⟨?_, fun _ _ => trivial⟩
  have hremove := (Volume.confined_removeFile (under_path hp hdir) v hv).1
  rw [unlink, Act.runOn_ofStep]
  split
  · next heq => rwa [heq] at hremove
  · exact hremove

/-- The history is not on the disk. -/
theorem confined_tell (ms : List Membership) :
    Mounted.Confined base home Mounted.Unknown (tell ms) fun _ => True := by
  induction ms with
  | nil => exact .pure trivial
  | cons m ms ih =>
    refine .bind Mounted.confined_stored fun h _ => ?_
    refine .bind (.ofExcept (Q := fun _ => True) fun _ _ => trivial) fun _ _ => ?_
    exact .bind (Mounted.confined_update fun _ _ => trivial) fun _ _ => ih

/-- Of what is loaded, only the end of the file may be cut off. -/
theorem confined_load (hp : Rooted base home p) (hdir : s.directory = p) :
    Mounted.Confined base home Mounted.Unknown s.load fun t => t.directory = p := by
  refine .bind (Mounted.confined_onVolume (Q := Free base home)
    (Volume.confined_look fun _ _ hd hk => (under_path hp hdir).free hd hk)) fun k hk => ?_
  refine .bind .get fun m _ => .bind (confined_tell _) fun _ _ => ?_
  split
  · exact .fail _
  · refine .bind (.ofExcept (Q := fun _ => True) fun _ _ => trivial) fun _ _ => ?_
    split
    · exact .bind (Mounted.confined_onVolume (Volume.confined_perform hk)) fun _ _ => .pure hdir
    · exact .pure hdir

theorem confined_flush (sync : Bool) (s : Segment) :
    Volume.Confined base home (s.flush sync) fun _ => True := by
  unfold Segment.flush
  cases s.handle with
  | none => exact .pure trivial
  | some k => exact Volume.confined_flush sync k

namespace Inside

variable (h : s.Inside base home p)

include h

/-- A frame is written to the segment's own file. -/
theorem confined_append (e : Entry) :
    Volume.Confined base home (s.append e) (Inside base home p) := by
  refine .bind (.require _ _) fun _ _ => .bind (.require _ _) fun _ _ => ?_
  refine .bind (Q := fun _ => True) (.ofExcept fun _ _ => trivial) fun bs _ => ?_
  have hfile : ∀ k, s.file = .ok k → Free base home k := by
    intro k hk
    rw [Segment.file] at hk
    cases hs : s.handle with
    | none => rw [hs] at hk; exact absurd hk (by simp)
    | some j => rw [hs] at hk; exact Except.ok.inj hk ▸ h.file j hs
  exact .bind (.ofExcept hfile) fun k hk => .bind (Volume.confined_write hk _ _) fun _ _ =>
    .pure ⟨h.directory, h.file⟩

/-- Sealing renames within the directory. -/
theorem confined_close (hp : Rooted base home p) (sync : Bool) :
    Volume.Confined base home (s.close sync) (Inside base home p) := by
  refine .bind (.require _ _) fun _ _ => .bind (confined_flush sync s) fun _ _ => ?_
  exact .bind (Volume.confined_rename (under_path hp h.directory)
    (under_path (s := { s with isOpen := false }) hp h.directory)) fun _ _ =>
      .pure ⟨h.directory, h.file⟩

end Inside
end Segment

namespace SegmentedLog

variable {α : Type} {l : SegmentedLog} {s : Segment} {ss : List Segment} {d d' : Disk} {v : Volume}
  {start : Nat} {rows : List (List Framed)} {m : MemoryLog}

/-- The log is the one in the directory at `p`, and its files are none outside. -/
structure Inside (base : Location → Option Item) (home : Location) (p : Path) (l : SegmentedLog) :
    Prop where
  directory : l.directory = p
  segments : ∀ s ∈ l.segments, s.Inside base home p

/-- The action on a log changes nothing outside of `home`, and `Q` holds of its result. -/
abbrev Confined (base : Location → Option Item) (home : Location) (p : Path)
    (x : Act (Mounted SegmentedLog) α) (Q : α → Prop) : Prop :=
  Mounted.Confined base home (Inside base home p) x Q

open Mounted (confined_stored confined_update confined_onVolume)

/-- A log whose segments are inside stays so if it gets no others. -/
theorem Inside.of_mem {l' : SegmentedLog} (h : l.Inside base home p)
    (hdir : l'.directory = l.directory)
    (hs : ∀ s ∈ l'.segments, s ∈ l.segments ∨ s.Inside base home p) : l'.Inside base home p :=
  ⟨hdir.trans h.directory, fun s hmem => (hs s hmem).elim (h.segments s) id⟩

/-- A segment to write to comes behind the sealed ones. -/
theorem Inside.withTail (h : l.Inside base home p) (hs : s.Inside base home p) (last : Nat) :
    Inside base home p { l with tail := some s, last } := by
  refine h.of_mem rfl fun t ht => ?_
  rcases mem_segments.1 ht with ht | ht
  · exact .inl (mem_segments.2 (.inl ht))
  · exact .inr (Option.some.inj ht ▸ hs)

/-! ### Opening -/

section

variable (hp : Rooted base home p)

include hp

/-- Segments of the directory are removed in it. -/
theorem confined_unlinkAll (h : ∀ s ∈ ss, s.directory = p) :
    Volume.Confined base home (unlinkAll ss) fun _ => True := by
  induction ss with
  | nil => exact .pure trivial
  | cons s ss ih =>
    refine .bind (Segment.confined_unlink hp (h s List.mem_cons_self)).attempt fun r _ => ?_
    refine .bind (ih fun s hs => h s (List.mem_cons_of_mem _ hs)).attempt fun r' _ => ?_
    split
    · exact .throw _
    · exact .throw _
    · exact .pure trivial

/-- Sealed segments are read, and perhaps cut, in the directory. -/
theorem confined_loadClosed {done : Loaded} (hdone : ∀ s ∈ done.doomed, s.directory = p)
    (h : ∀ s ∈ ss, s.directory = p) (start : Nat) :
    Mounted.Confined base home Mounted.Unknown (loadClosed start done ss)
      fun done => ∀ s ∈ done.doomed, s.directory = p := by
  induction ss generalizing done with
  | nil => exact .pure hdone
  | cons s ss ih =>
    have hrest : ∀ t ∈ ss, t.directory = p := fun t ht => h t (.tail _ ht)
    unfold loadClosed
    split
    · refine ih (fun t ht => ?_) hrest
      rcases List.mem_append.1 ht with ht | ht
      · exact hdone t ht
      · exact h t (List.mem_singleton.1 ht ▸ List.mem_cons_self)
    · refine .bind (.ofExcept (Q := fun _ => True) fun _ _ => trivial) fun _ _ => ?_
      exact .bind (Segment.confined_load hp (h s List.mem_cons_self)) fun _ _ => ih hdone hrest

/-- The segment to write to is read in the directory. -/
theorem confined_loadTail {done : Loaded} (hdone : ∀ s ∈ done.doomed, s.directory = p)
    {t : Option Segment} (h : ∀ s ∈ t, s.directory = p) (start : Nat) :
    Mounted.Confined base home Mounted.Unknown (loadTail start done t)
      fun done => ∀ s ∈ done.doomed, s.directory = p := by
  cases t with
  | none => exact .pure hdone
  | some s =>
    refine .bind (.ofExcept (Q := fun _ => True) fun _ _ => trivial) fun _ _ => ?_
    refine .bind (Segment.confined_load hp (h s rfl)) fun t ht => ?_
    split
    · refine .pure fun u hu => ?_
      rcases List.mem_append.1 hu with hu | hu
      · exact hdone u hu
      · exact List.mem_singleton.1 hu ▸ ht
    · exact .pure hdone

/-- **Opening a log** changes nothing outside, whatever is in its directory. -/
theorem confined_init (hdir : l.directory = p) :
    Mounted.Confined base home Mounted.Unknown l.init fun _ => True := by
  subst hdir
  have hmake : Volume.Confined base home (Volume.makeDirectories l.directory) fun _ => True := by
    intro v hv
    rw [Volume.runOn_makeDirectories (hp v.disk hv)]
    exact ⟨hv, fun _ _ => trivial⟩
  -- directory, record, listing, sealed segments, the open one, and what is stale
  refine .bind (confined_onVolume hmake) fun _ _ => ?_
  refine .bind (confined_onVolume (Volume.confined_reading _)) fun r _ => ?_
  refine .bind (confined_onVolume (Q := fun _ => True)
    (Volume.confined_look fun _ _ _ _ => trivial)) fun names _ => ?_
  refine .bind (.ofExcept (Q := fun f => (∀ s ∈ f.closed, s.directory = l.directory) ∧
    ∀ s ∈ f.tail, s.directory = l.directory) fun f hf => ?_) fun f hf => ?_
  · obtain ⟨hclosed, htail⟩ := told_of_ofNames hf
    exact ⟨fun s hs => (hclosed s hs).directory, fun s hs => (htail s hs).directory⟩
  refine .bind (confined_loadClosed hp (by simp) hf.1 _) fun done hdone => ?_
  refine .bind (confined_loadTail hp hdone hf.2 _) fun done hdone => ?_
  exact .bind (confined_onVolume (confined_unlinkAll hp hdone)) fun _ _ => .pure trivial

end

/-! ### Appending -/

theorem confined_flush : Confined base home p flush fun _ => True := by
  refine .bind confined_stored fun l _ => ?_
  split
  · exact confined_onVolume (Segment.confined_flush l.sync _)
  · exact .pure trivial

section

variable (hp : Rooted base home p)

include hp

/-- The segment to write to is inside, whether it was there or is made. -/
theorem confined_writable : Confined base home p writable (Segment.Inside base home p) := by
  -- the second half of it, after a full segment was sealed or if there was none
  have hmake (l : SegmentedLog) (hl : l.Inside base home p) : Confined base home p (do
      let s ← Mounted.onVolume (Segment.fresh l.directory (l.last + 1)).create
      Mounted.update fun l => { l with tail := some s }
      return s) (Segment.Inside base home p) := by
    refine .bind (confined_onVolume (Segment.confined_create hp hl.directory)) fun s hs => ?_
    exact .bind (confined_update fun l hl => hl.withTail hs l.last) fun _ _ => .pure hs
  unfold writable
  refine .bind confined_stored fun l hl => ?_
  cases ht : l.tail with
  | none => exact hmake l hl
  | some s =>
    have hs : s.Inside base home p := hl.segments s (mem_segments.2 (.inr ht))
    dsimp only
    split
    · exact .pure hs
    · refine .bind (confined_onVolume (hs.confined_close hp l.sync)) fun s hs => ?_
      refine .bind (confined_update fun l hl => hl.of_mem rfl fun t ht => ?_) fun _ _ => hmake l hl
      -- the segment that was sealed is the last of the sealed ones
      rcases mem_segments.1 ht with ht | ht
      · rcases List.mem_append.1 ht with ht | ht
        · exact .inl (mem_segments.2 (.inl ht))
        · exact .inr (List.mem_singleton.1 ht ▸ hs)
      · exact absurd ht (by simp)

/-- One entry is written inside. -/
theorem confined_push (e : Entry) : Confined base home p (push e) fun _ => True := by
  refine .bind confined_stored fun l _ => .bind (.require _ _) fun _ _ => ?_
  refine .bind (confined_writable hp) fun s hs => ?_
  refine .bind (confined_onVolume (hs.confined_append e)) fun s hs => ?_
  exact confined_update fun l hl => hl.withTail hs e.index

/-- A batch is written inside. -/
theorem confined_pushAll (es : List Entry) : Confined base home p (pushAll es) fun _ => True := by
  induction es with
  | nil => exact .pure trivial
  | cons e es ih =>
    refine .bind (confined_push hp e).attempt fun r _ => ?_
    split
    · exact .bind ih fun _ _ => .pure trivial
    · exact .pure trivial
    · exact .violate _

/-- **Appending** changes nothing outside. -/
theorem confined_append (es : List Entry) : Confined base home p (append es) fun _ => True := by
  refine .bind (confined_pushAll hp es) fun r _ => ?_
  -- nothing is written once the entries are there
  have hnone (e : Error) :
      Confined base home p (if r.1 = 0 then Act.fail e else pure r.1) fun _ => True := by
    split
    · exact .fail _
    · exact .pure trivial
  dsimp only
  split
  · refine .bind confined_flush fun _ _ => ?_
    split
    · exact hnone _
    · exact .pure trivial
  · split
    · exact hnone _
    · exact .pure trivial

/-! ### Dropping the front -/

/-- The record is an entry of the directory. -/
theorem confined_saveStart (n : Nat) : Confined base home p (saveStart n) fun _ => True := by
  refine .bind confined_stored fun l hl => confined_onVolume ?_
  have hfile : l.startFile = p.entry SegmentName.recordName := by rw [startFile, hl.directory]
  rw [hfile]
  exact Volume.confined_save (hp.under plain_recordName) (hp.under (Path.plain_draft _)) _ _

/-- **Dropping the front** changes nothing outside. -/
theorem confined_truncateBefore (kept : Nat) :
    Confined base home p (truncateBefore kept) fun _ => True := by
  refine .bind confined_stored fun l hl => ?_
  split
  · exact .pure trivial
  refine .bind (confined_saveStart hp kept) fun _ _ => .bind (confined_update ?_) fun _ _ => ?_
  · intro l hl
    refine hl.of_mem rfl fun s hs => .inl (mem_segments.2 ?_)
    rcases mem_segments.1 hs with hs | hs
    · exact .inl ((List.dropWhile_sublist _).subset hs)
    · exact .inr (Option.mem_filter_iff.1 hs).1
  · refine confined_onVolume (confined_unlinkAll hp fun s hs => ?_)
    refine (hl.segments s (mem_segments.2 ?_)).directory
    rcases List.mem_append.1 hs with hs | hs
    · exact .inl ((List.takeWhile_sublist _).subset hs)
    · exact .inr (Option.mem_filter_iff.1 (Option.mem_toList.1 hs)).1

end

/-! ### Logs that stand -/

/-- The files of a log that stands are its own. -/
theorem Stands.inside (h : Stands d home l start rows) : l.Inside d.item? home l.directory := by
  refine ⟨rfl, fun s hs => ?_⟩
  obtain ⟨fs, -, hold⟩ := h.holds.exists_row hs
  obtain ⟨k, hk, hfile⟩ := hold.file
  refine ⟨hold.directory, fun j hj => ?_⟩
  obtain rfl : k = j := Option.some.inj (hk.symm.trans hj)
  exact (Outside.refl h.wellFormed).free (below_entry _) (item?_eq_file_iff.1 hfile).1

namespace Mirrors

variable (h : Mirrors v.disk home l m)

include h

/-- Appending changes nothing outside the directory. -/
theorem outside_append (hp : Rooted v.disk.item? home l.directory) (es : List Entry) :
    Outside v.disk.item? home ((append es).runOn ⟨l, v⟩).2.volume.disk := by
  obtain ⟨start, rows, h, -, -⟩ := h
  exact (confined_append hp es ⟨l, v⟩ ⟨h.inside, .refl h.wellFormed⟩).1.2

/-- Dropping the front changes nothing outside the directory. -/
theorem outside_truncateBefore (hp : Rooted v.disk.item? home l.directory) (kept : Nat) :
    Outside v.disk.item? home ((truncateBefore kept).runOn ⟨l, v⟩).2.volume.disk := by
  obtain ⟨start, rows, h, -, -⟩ := h
  exact (confined_truncateBefore hp kept ⟨l, v⟩ ⟨h.inside, .refl h.wellFormed⟩).1.2

end Mirrors

theorem Mirrors.leads (h : Mirrors d home l m) : d.directoryAt l.directory = .ok home := by
  obtain ⟨start, rows, h, -, -⟩ := h
  exact h.leads

/-- **What happens elsewhere** does not change what a log holds. -/
theorem Mirrors.elsewhere (h : Mirrors d home l m) (hw : d'.WellFormed)
    (leads : d'.directoryAt l.directory = .ok home)
    (hi : ∀ name, d'.item? (home ++ [name]) = d.item? (home ++ [name])) : Mirrors d' home l m := by
  obtain ⟨start, rows, h, hs, rfl⟩ := h
  exact ⟨start, rows, h.elsewhere hw leads hi, hs.congr h.leads leads (hi _), rfl⟩

/-- In the directory of a log all names start as those of segments do. -/
theorem Mirrors.item?_eq_none (h : Mirrors d home l m) {name : String}
    (hname : (Text.dropStart? SegmentName.start.toList name.toList).isSome = false) :
    d.item? (home ++ [name]) = none := by
  obtain ⟨start, rows, h, -, -⟩ := h
  rw [← Option.not_isSome_iff_eq_none]
  intro hsome
  rcases h.only name hsome with rfl | rfl | ⟨s, -, rfl⟩
  · exact absurd hname (by decide)
  · exact absurd hname (by decide)
  · rw [SegmentName.toList_text, Text.dropStart?_append] at hname
    exact absurd hname (by simp)

/-- **A log that is opened in an empty directory** is empty, and nothing is written. -/
theorem runOn_init_vacant {l₁ : SegmentedLog} (hw : v.disk.WellFormed)
    (leads : v.disk.directoryAt p = .ok home) (hempty : v.disk.list p = .ok [])
    (hdir : l₁.directory = p) : ∃ l, l₁.init.runOn ⟨.empty, v⟩ = (.ok l, ⟨.empty, v⟩) ∧
      l.directory = p ∧ Mirrors v.disk home l {} := by
  subst hdir
  obtain ⟨hstands, hstarts⟩ := stands_of_empty
    (l := { l₁ with first := 1, last := 0, closed := [], tail := none }) hw leads hempty
    ⟨rfl, rfl⟩ ⟨rfl, rfl⟩
  refine ⟨{ l₁ with first := 1, last := 0, closed := [], tail := none }, ?_, rfl, 1, [], hstands,
    hstarts, by rw [entriesFrom_nil]⟩
  have hfound : Found.ofNames l₁.directory [] = .ok {} := by
    simp [Found.ofNames, bind, Except.bind, pure, Except.pure]
  rw [init_eq leads hstarts hempty hfound]
  rfl

end SegmentedLog
end RaftReplica
