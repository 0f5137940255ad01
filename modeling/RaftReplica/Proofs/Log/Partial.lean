/-
RaftReplica/Proofs/Log/Partial.lean

Batches of which only some entries are appended.  Others may use the directory of a log: they make
and remove files and directories there, and only leave the log's segments and its record alone
(`Disturbed`).  A directory can then be in the way when a full segment gets its new name, or when the
next segment is made, and an entry may be too large.

Whichever entry it is that is not taken, those in front of it are in the log and none behind it is
(`Keeps.runOn_pushAll`).  A segment may have been sealed for it by then, so that the log has no
segment to write to, or an empty one; either way the log keeps what it holds, in memory and in its
files.  So it is opened as the same log once nothing else has the name of a segment, and takes any
batch once no directory is in the way (`append_partial`).

The lemmas follow an append from the inside out, each with the same two results: it did its part, or
it failed with an error, has taken no entry, and the reason is still there.

* `Keeps.runOn_beginNext`, `Keeps.runOn_close`: making a segment and sealing one;
* `Keeps.runOn_writable`: both, one after the other;
* `Keeps.runOn_push`: one entry, `Keeps.runOn_pushAll`: all of them.

`Grows` says what a part of the call has done to the log, and is composed along the call
(`Grows.then`, `Grows.trans`).  It speaks of `Keeps`, not of a log that stands alone, because nothing
is known of what else is in the directory.
-/
import RaftReplica.Proofs.Disk.Saving
import RaftReplica.Proofs.Log.Interrupted

namespace RaftReplica

open RaftReplica.Frame Disk

theorem Entry.Fits.proper {e : Entry} (h : e.Fits) : e.Proper :=
  ⟨h.term, h.index, h.peers, h.former⟩

namespace SegmentedLog

variable {d d' : Disk} {home : Location} {p : Path} {start : Nat} {v : Volume}
  {rows : List (List Framed)} {s s' : Segment} {e : Entry} {es batch : List Entry} {l : SegmentedLog}
  {m : MemoryLog} {w w' w'' : Mounted SegmentedLog}

/-! ### A log with other things beside it -/

/-- The log holds what the one in memory does; there may be anything beside its files. -/
def Keeps (d : Disk) (home : Location) (l : SegmentedLog) (m : MemoryLog) : Prop :=
  ∃ start rows, Kept d home l start rows ∧ Starts d l.directory l.first ∧
    m = ⟨l.first, entriesFrom l.first start rows⟩

/-- No directory has the name of a segment. -/
def Free (d : Disk) (home : Location) : Prop :=
  ∀ n : SegmentName, n.Fits → d.item? (home ++ [n.text]) ≠ some .directory

/-- From `d` to `d'` the segments of the log and its record stay as they are, and nothing in front of
its directory goes away. -/
structure Intact (d d' : Disk) (home : Location) (l : SegmentedLog) : Prop where
  before : d.directoryAt l.directory = .ok home
  leads : d'.directoryAt l.directory = .ok home
  wellFormed : d'.WellFormed
  record : d'.item? (home ++ [SegmentName.recordName]) = d.item? (home ++ [SegmentName.recordName])
  segments : ∀ s ∈ l.segments, d'.item? (s.place home) = d.item? (s.place home)

/-- No directory appears where a segment's file is put. -/
theorem Free.replaced (h : Free d home) (hr : Segment.Replaces d d' home s s') : Free d' home := by
  intro n hn hd
  obtain ⟨item, hitem, hi⟩ := hr.item?
  rw [hi] at hd
  -- at the new place is a file, at the old one nothing, and elsewhere what was there
  by_cases hnew : home ++ [n.text] = s'.place home
  · rw [hnew, Function.update_self] at hd
    exact hitem (Option.some.inj hd)
  · rw [Function.update_of_ne hnew] at hd
    by_cases hold : home ++ [n.text] = s.place home
    · rw [hold, Function.update_self] at hd
      exact absurd hd (by simp)
    · rw [Function.update_of_ne hold] at hd
      exact h n hn hd

/-- If only segments have names of segments, no directory has one. -/
theorem Kept.free (h : Kept d home l start rows) (hu : Unmixed d home l) : Free d home := by
  intro n hn hd
  obtain ⟨s, hs, hname⟩ := hu n.text n (SegmentName.ofText?_text hn) (by rw [hd]; rfl)
  obtain ⟨fs, -, hold⟩ := h.holds.exists_row hs
  rw [hname] at hd
  exact hold.item?_ne_directory hd

theorem Mirrors.keeps (h : Mirrors d home l m) : Keeps d home l m := by
  obtain ⟨start, rows, h, hs, rfl⟩ := h
  exact ⟨start, rows, h.kept, hs, rfl⟩

namespace Keeps

theorem mirrors (h : Keeps d home l m) (ht : Tidy d home l) : Mirrors d home l m := by
  obtain ⟨start, rows, h, hs, rfl⟩ := h
  exact ⟨start, rows, h.stands ht, hs, rfl⟩

theorem leads (h : Keeps d home l m) : d.directoryAt l.directory = .ok home := by
  obtain ⟨_, _, h, -, -⟩ := h
  exact h.leads

theorem reads (h : Keeps d home l m) : l.first = m.first ∧ l.Reads d m.entries := by
  obtain ⟨start, rows, h, -, rfl⟩ := h
  exact ⟨rfl, h.toLies.reads⟩

/-- The last index is counted from the first. -/
theorem first_add_length (h : Keeps d home l m) : m.first + m.entries.length = l.last + 1 := by
  obtain ⟨hfirst, hreads⟩ := h.reads
  rw [← hfirst]
  exact hreads.length

/-- What others do beside the log's files does not matter. -/
theorem intact (h : Keeps d home l m) (hi : Intact d d' home l) : Keeps d' home l m := by
  obtain ⟨start, rows, h, hs, rfl⟩ := h
  refine ⟨start, rows, ⟨⟨hi.wellFormed, hi.leads, h.holds.congr hi.segments, h.chained, h.closed,
    h.toLies.tail, h.start_le, h.first_le, h.first_pos⟩, h.fits, h.bound⟩,
    hs.congr h.leads hi.leads hi.record, rfl⟩

/-- **The log is opened again** as what it holds, from a directory where nothing else has the name of
a segment. -/
theorem recovers (h : Keeps d home l m) (hu : Unmixed d home l) :
    Recovers d l.directory m.first m.entries := by
  obtain ⟨start, rows, h, hs, rfl⟩ := h
  intro l₁ hdir
  obtain ⟨f, hopens, -, -, -, -, -, hentries⟩ :=
    h.exists_opens hu h.wellFormed (.refl h.wellFormed _) hs h.start_le
  rw [← hdir] at hopens
  obtain ⟨m', hrun, -, hclears⟩ := runOn_init (v := .ofDisk d) hopens
  obtain ⟨a, rows', hlies, -, -, hentries'⟩ := hopens.lies hclears
  refine ⟨_, m', hrun, rfl, ?_⟩
  rw [← hentries, ← hentries']
  exact hlies.reads

end Keeps

/-! ### Taking one entry -/

/-- From `w` to `w'` the log took the entries of `batch`, and nothing got in its way meanwhile. -/
structure Grows (home : Location) (m : MemoryLog) (batch : List Entry)
    (w w' : Mounted SegmentedLog) : Prop where
  directory : w'.store.directory = w.store.directory
  keeps : Keeps w'.volume.disk home w'.store { m with entries := m.entries ++ batch }
  free : Free w.volume.disk home → Free w'.volume.disk home

/-- A step that takes no entry. -/
theorem grows_nil (hdir : w'.store.directory = w.store.directory)
    (h : Keeps w'.volume.disk home w'.store m)
    (hfree : Free w.volume.disk home → Free w'.volume.disk home) : Grows home m [] w w' :=
  ⟨hdir, by rwa [List.append_nil], hfree⟩

/-- What is taken by one step after another is taken one after the other. -/
theorem Grows.trans {more : List Entry} (h : Grows home m batch w w')
    (h' : Grows home { m with entries := m.entries ++ batch } more w' w'') :
    Grows home m (batch ++ more) w w'' :=
  ⟨h'.directory.trans h.directory, by rw [← List.append_assoc]; exact h'.keeps,
    fun hfree => h'.free (h.free hfree)⟩

theorem Grows.of_nil (h : Grows home m [] w w') : Keeps w'.volume.disk home w'.store m := by
  have hkeeps := h.keeps
  rwa [List.append_nil] at hkeeps

theorem Grows.then (h : Grows home m [] w w') (h' : Grows home m batch w' w'') :
    Grows home m batch w w'' :=
  ⟨h'.directory.trans h.directory, h'.keeps, fun hfree => h'.free (h.free hfree)⟩

/-- A directory has the name that the full last segment is to get, or that of the next segment. -/
def Blocked (d : Disk) (home : Location) (l : SegmentedLog) : Prop :=
  (∃ s ∈ l.tail, l.maxSegmentSize < s.bytes ∧
    d.item? (Segment.place home { s with isOpen := false }) = some .directory) ∨
  l.tail = none ∧ d.item? ((Segment.fresh l.directory (l.last + 1)).place home) = some .directory

/-- What keeps the log from taking an entry. -/
def Hindered (d : Disk) (home : Location) (l : SegmentedLog) (e : Entry) : Prop :=
  Numeral.max32 < (Frame.body e).length ∨ Blocked d home l

/-- Without a directory in the way nothing is blocked. -/
theorem Kept.not_blocked (h : Kept d home l start rows) (hfree : Free d home)
    (hroom : l.last + 1 ≤ Numeral.max64) : ¬ Blocked d home l := by
  rintro (⟨s, ht, hfull, hd⟩ | ⟨-, hd⟩)
  · exact hfree _ (h.fits_sealed ht (by omega) rfl) hd
  · exact hfree (.writable (l.last + 1)) hroom hd

/-- A directory in the way of a segment's new name leaves the segment as it is. -/
theorem runOn_close_blocked {fs : List Framed} (h : s.Holds v.disk home p fs)
    (leads : v.disk.directoryAt p = .ok home) (hopen : s.isOpen = true) (sync : Bool)
    (hplace : v.disk.item? (Segment.place home { s with isOpen := false }) = some .directory) :
    ∃ v', (s.close sync).runOn v = (.error (.error (.io .isDirectory)), v') ∧ v'.disk = v.disk := by
  obtain ⟨v', hflush, hdisk⟩ := Segment.runOn_flush (v := v) sync s
  obtain ⟨k, -, hfile⟩ := h.file
  have hne : s.name.text ≠ ({ s with isOpen := false } : Segment).name.text := by
    intro he
    have hname := SegmentName.text_injective he
    simp [Segment.name, hopen] at hname
  -- the disk is still the same when the file is to be renamed
  rw [← hdisk] at leads hfile hplace
  have hrename := Volume.runOn_rename_onto_directory leads (SegmentName.plain_text _)
    (SegmentName.plain_text _) hne hfile hplace
  refine ⟨v', ?_, hdisk⟩
  rw [Segment.close, Act.runOn_bind_ok (Act.runOn_require_of hopen _ _), Act.runOn_bind_ok hflush,
    Segment.path_eq h.directory]
  dsimp only
  rw [Segment.path_eq (s := { s with isOpen := false }) h.directory]
  exact Act.runOn_bind_error hrename

/-- A directory in the way of a new segment leaves everything as it is. -/
theorem runOn_create_blocked {first : Nat} (leads : v.disk.directoryAt p = .ok home)
    (hplace : v.disk.item? ((Segment.fresh p first).place home) = some .directory) :
    ∃ cause, ((Segment.fresh p first).create).runOn v = (.error (.error (.io cause)), v) := by
  obtain ⟨cause, hcreate⟩ :=
    Volume.runOn_create_directory leads (SegmentName.plain_text _) hplace
  refine ⟨cause, ?_⟩
  show Act.runOn (Volume.create (p.entry (Segment.fresh p first).name.text) >>= _) v = _
  exact Act.runOn_bind_error hcreate

/-- Makes the segment behind the last one. -/
def beginNext (l : SegmentedLog) : Act (Mounted SegmentedLog) Segment := do
  let s ← Mounted.onVolume (Segment.fresh l.directory (l.last + 1)).create
  Mounted.update fun l => { l with tail := some s }
  return s

/-- The next segment is made, or a directory is in its place. -/
theorem Keeps.runOn_beginNext (h : Keeps v.disk home l m) (ht : l.tail = none)
    (hroom : l.last + 1 ≤ Numeral.max64) :
    (∃ s w', (beginNext l).runOn ⟨l, v⟩ = (.ok s, w') ∧ w'.store.tail = some s ∧
      Grows home m [] ⟨l, v⟩ w') ∨
    ∃ f w', (beginNext l).runOn ⟨l, v⟩ = (.error (.error f), w') ∧ Grows home m [] ⟨l, v⟩ w' ∧
      Blocked w'.volume.disk home w'.store := by
  -- a directory at the place of the new file, or not
  by_cases hplace :
      v.disk.item? ((Segment.fresh l.directory (l.last + 1)).place home) = some .directory
  · obtain ⟨cause, hcreate⟩ := runOn_create_blocked h.leads hplace
    refine .inr ⟨.io cause, ⟨l, v⟩, Act.runOn_bind_error ?_, grows_nil rfl h id, .inr ⟨ht, hplace⟩⟩
    rw [Mounted.runOn_onVolume, hcreate]
  · obtain ⟨start, rows, h, hs, rfl⟩ := h
    obtain ⟨s, v', hcreate, hr, h'⟩ := h.runOn_create ht hroom hplace
    have hflat : (rows ++ [[]]).flatten = rows.flatten := by
      rw [List.flatten_append]
      exact List.append_nil _
    refine .inl ⟨s, ⟨{ l with tail := some s }, v'⟩, ?_, rfl, grows_nil rfl ?_ (·.replaced hr)⟩
    · rw [beginNext, Act.runOn_bind_ok (Mounted.runOn_onVolume_ok hcreate),
        Act.runOn_bind_ok (Mounted.runOn_update _ _)]
      rfl
    · exact ⟨start, _, h', hs.replaced hr h.leads h'.leads, by rw [entriesFrom_congr hflat]⟩

/-- A full segment is sealed, or a directory has its new name. -/
theorem Keeps.runOn_close (h : Keeps v.disk home l m) (ht : l.tail = some s)
    (hfull : l.maxSegmentSize < s.bytes) :
    (∃ s' v', (s.close l.sync).runOn v = (.ok s', v') ∧
      Grows home m [] ⟨l, v⟩ ⟨{ l with closed := l.closed ++ [s'], tail := none }, v'⟩) ∨
    ∃ f v', (s.close l.sync).runOn v = (.error (.error f), v') ∧ Grows home m [] ⟨l, v⟩ ⟨l, v'⟩ ∧
      Blocked v'.disk home l := by
  -- a directory at the place of the sealed name, or not
  by_cases hplace : v.disk.item? (Segment.place home { s with isOpen := false }) = some .directory
  · obtain ⟨start, rows, hkept, -, -⟩ := id h
    obtain ⟨fs, -, hold⟩ := hkept.holds.exists_row (mem_segments.2 (.inr ht))
    obtain ⟨v', hclose, hdisk⟩ :=
      runOn_close_blocked hold hkept.leads (hkept.toLies.tail s ht) l.sync hplace
    refine .inr ⟨_, v', hclose, grows_nil rfl ?_ ?_, ?_⟩
    · show Keeps v'.disk home l m
      rwa [hdisk]
    · show Free v.disk home → Free v'.disk home
      rw [hdisk]
      exact id
    · rw [hdisk]
      exact .inl ⟨s, ht, hfull, hplace⟩
  · obtain ⟨start, rows, h, hs, rfl⟩ := h
    obtain ⟨v', hclose, hr, h'⟩ := h.runOn_close ht (by omega) l.sync rfl hplace
    exact .inl ⟨_, v', hclose, grows_nil rfl
      ⟨start, rows, h', hs.replaced hr h.leads h'.leads, rfl⟩ (·.replaced hr)⟩

/-- **There is a segment to write to,** or a directory is in the way of one.  A full one may have been
sealed by then. -/
theorem Keeps.runOn_writable (h : Keeps v.disk home l m) (hroom : l.last + 1 ≤ Numeral.max64) :
    (∃ s w', writable.runOn ⟨l, v⟩ = (.ok s, w') ∧ w'.store.tail = some s ∧
      Grows home m [] ⟨l, v⟩ w') ∨
    ∃ f w', writable.runOn ⟨l, v⟩ = (.error (.error f), w') ∧ Grows home m [] ⟨l, v⟩ w' ∧
      Blocked w'.volume.disk home w'.store := by
  unfold writable
  rw [Act.runOn_bind_ok (Mounted.runOn_stored _)]
  -- no segment to write to, one with room, or a full one
  cases ht : l.tail with
  | none => exact h.runOn_beginNext ht hroom
  | some s =>
    dsimp only
    by_cases hfull : s.bytes ≤ l.maxSegmentSize
    · rw [if_pos hfull]
      exact .inl ⟨s, ⟨l, v⟩, rfl, ht, grows_nil rfl h id⟩
    · rw [if_neg hfull]
      rcases h.runOn_close ht (by omega) with ⟨s', v₁, hclose, hgrows⟩ | ⟨f, v₁, hclose, hgrows, hd⟩
      · rw [Act.runOn_bind_ok (Mounted.runOn_onVolume_ok hclose),
          Act.runOn_bind_ok (Mounted.runOn_update _ _)]
        -- the log has no segment to write to now, and goes on as one that never had
        rcases hgrows.of_nil.runOn_beginNext rfl hroom with
          ⟨t, w', hbegin, htail, hgrows'⟩ | ⟨f, w', hbegin, hgrows', hd⟩
        · exact .inl ⟨t, w', hbegin, htail, hgrows.then hgrows'⟩
        · exact .inr ⟨f, w', hbegin, hgrows.then hgrows', hd⟩
      · refine .inr ⟨f, ⟨l, v₁⟩, Act.runOn_bind_error ?_, hgrows, hd⟩
        rw [Mounted.runOn_onVolume, hclose]

/-- The segment to write to takes an entry that can be written. -/
theorem Keeps.runOn_append (h : Keeps v.disk home l m) (ht : l.tail = some s) (he : e.Fits)
    (hindex : e.index = l.last + 1) : ∃ s' v', (s.append e).runOn v = (.ok s', v') ∧
      Grows home m [e] ⟨l, v⟩ ⟨{ l with tail := some s', last := e.index }, v'⟩ := by
  obtain ⟨start, rows, h, hs, rfl⟩ := h
  obtain ⟨s', v', rows', happend, hflat, hr, h', -⟩ := h.runOn_append ht he hindex
  refine ⟨s', v', happend, rfl, ⟨start, rows', h', hs.replaced hr h.leads h'.leads, ?_⟩,
    (·.replaced hr)⟩
  rw [h.toLies.entriesFrom_concat hflat]

/-- **An entry that continues the log** is taken, or something keeps the log from taking it and it
holds what it held. -/
theorem Keeps.runOn_push (h : Keeps v.disk home l m) (he : e.Proper)
    (hindex : e.index = l.last + 1) :
    (∃ w', (push e).runOn ⟨l, v⟩ = (.ok (), w') ∧ Grows home m [e] ⟨l, v⟩ w') ∨
    ∃ f w', (push e).runOn ⟨l, v⟩ = (.error (.error f), w') ∧ Grows home m [] ⟨l, v⟩ w' ∧
      Hindered w'.volume.disk home w'.store e := by
  rw [push, Act.runOn_bind_ok (Mounted.runOn_stored _),
    Act.runOn_bind_ok (Act.runOn_require_of (decide_eq_true hindex) _ _)]
  rcases h.runOn_writable (hindex ▸ he.index) with
    ⟨s, ⟨l₁, v₁⟩, hwritable, ht, hgrows⟩ | ⟨f, w', hwritable, hgrows, hd⟩
  · rw [Act.runOn_bind_ok hwritable]
    have h₁ : Keeps v₁.disk home l₁ m := hgrows.of_nil
    have hlast : e.index = l₁.last + 1 := by
      rw [← h₁.first_add_length, h.first_add_length, hindex]
    by_cases hbody : (Frame.body e).length ≤ Numeral.max32
    · obtain ⟨s', v', happend, hgrows'⟩ := h₁.runOn_append ht (he.fits hbody) hlast
      refine .inl ⟨_, ?_, hgrows.then hgrows'⟩
      rw [Act.runOn_bind_ok (Mounted.runOn_onVolume_ok happend)]
      rfl
    · -- the segment may have been made for this entry only, and stays although it refuses it
      obtain ⟨start, rows, hkept, -, -⟩ := id h₁
      obtain ⟨_, _, -, -, -, hend, -⟩ := hkept.toLies.exists_last (segments_of_tail ht)
      have happend := runOn_append_tooLarge (v := v₁) (hkept.toLies.tail s ht) (by omega) hbody
      refine .inr ⟨.invalidArgument (.entryTooLarge e.index), ⟨l₁, v₁⟩, Act.runOn_bind_error ?_,
        hgrows, .inl (by omega)⟩
      rw [Mounted.runOn_onVolume, happend]
  · exact .inr ⟨f, w', Act.runOn_bind_error hwritable, hgrows, .inr hd⟩

/-! ### Taking a batch -/

/-- How a batch ends of which the first `n` entries were taken: there are no more, or something keeps
the log from taking the next one, or that one does not continue the log. -/
inductive Ends (d : Disk) (home : Location) (l : SegmentedLog) (es : List Entry) (n : Nat) :
    Except Failure (Nat × Option Error) → Prop
  | whole (hn : n = es.length) : Ends d home l es n (.ok (n, none))
  | short {e : Entry} {f : Error} (he : es[n]? = some e) (h : Hindered d home l e) :
    Ends d home l es n (.ok (n, some f))
  | gap {e : Entry} {x : Violation} (he : es[n]? = some e) (h : e.index ≠ l.last + 1) :
    Ends d home l es n (.error (.violation x))

/-- One more entry that is taken moves the end by one. -/
theorem Ends.cons {n : Nat} {r : Except Failure (Nat × Option Error)} (h : Ends d home l es n r)
    (e : Entry) : Ends d home l (e :: es) (n + 1) (r.map fun x => (x.1 + 1, x.2)) := by
  cases h with
  | whole hn => exact .whole (by rw [hn, List.length_cons])
  | short he h => exact .short he h
  | gap he h => exact .gap he h

/-- **Entries are taken from the front**, and what ends the batch is told by the log that is left. -/
theorem Keeps.runOn_pushAll (h : Keeps w.volume.disk home w.store m) (hes : ∀ e ∈ es, e.Proper) :
    ∃ n r w', (pushAll es).runOn w = (r, w') ∧ n ≤ es.length ∧ Grows home m (es.take n) w w' ∧
      Ends w'.volume.disk home w'.store es n r := by
  -- on the batch; `n` counts the entries that were taken, whatever ends the call
  induction es generalizing w m with
  | nil => exact ⟨0, _, w, rfl, Nat.le_refl 0, grows_nil rfl h id, .whole rfl⟩
  | cons e es ih =>
    rw [pushAll, Act.runOn_bind_ok (Act.runOn_attempt _ _)]
    by_cases hindex : e.index = w.store.last + 1
    · rcases h.runOn_push (hes e List.mem_cons_self) hindex with
        ⟨w₁, hpush, hgrows⟩ | ⟨f, w₁, hpush, hgrows, hd⟩
      · -- the log that took the first entry goes on with the others
        obtain ⟨n, r, w', hrest, hn, hgrows', hends⟩ :=
          ih hgrows.keeps fun e he => hes e (List.mem_cons_of_mem _ he)
        refine ⟨n + 1, _, w', ?_, Nat.succ_le_succ hn, hgrows.trans hgrows', hends.cons e⟩
        rw [hpush]
        dsimp only
        rw [Act.runOn_bind, hrest]
        cases r <;> rfl
      · rw [hpush]
        exact ⟨0, _, w₁, rfl, Nat.zero_le _, hgrows, .short rfl hd⟩
    · have hpush : (push e).runOn w = (.error (.violation (.appendGap w.store.last)), w) := by
        rw [push, Act.runOn_bind_ok (Mounted.runOn_stored _), Act.runOn_bind, Act.runOn_require,
          decide_eq_false hindex]
        rfl
      rw [hpush]
      exact ⟨0, _, w, rfl, Nat.zero_le _, grows_nil rfl h id, .gap rfl hindex⟩

/-- What appending answers once the entries are taken. -/
def answer : Except Failure (Nat × Option Error) → Except Failure Nat
  | .ok (n, none) => .ok n
  | .ok (n, some e) => if n = 0 then .error (.error e) else .ok n
  | .error f => .error f

/-- Making the entries durable changes neither the log nor the disk. -/
theorem runOn_append_of_pushAll {r : Except Failure (Nat × Option Error)}
    (h : (pushAll es).runOn w = (r, w')) :
    ∃ v, (append es).runOn w = (answer r, ⟨w'.store, v⟩) ∧ v.disk = w'.volume.disk := by
  obtain ⟨l, v⟩ := w'
  obtain ⟨v', hflush, hdisk, -⟩ := runOn_flush l v
  rw [append]
  cases r with
  | error f => exact ⟨v, Act.runOn_bind_error h, rfl⟩
  | ok x =>
    obtain ⟨n, failure⟩ := x
    rw [Act.runOn_bind_ok h]
    dsimp only
    by_cases hn : 0 < n
    · refine ⟨v', ?_, hdisk⟩
      rw [if_pos hn, Act.runOn_bind_ok hflush]
      cases failure with
      | none => rfl
      | some e => simp [answer, Nat.pos_iff_ne_zero.1 hn]
    · refine ⟨v, ?_, rfl⟩
      rw [if_neg hn]
      cases failure with
      | none => rfl
      | some e => simp [answer, Nat.eq_zero_of_not_pos hn]

/-- Appending takes entries from the front as well. -/
theorem Keeps.append_ends (h : Keeps w.volume.disk home w.store m) (hes : ∀ e ∈ es, e.Proper) :
    ∃ n r w', (append es).runOn w = (answer r, w') ∧ n ≤ es.length ∧
      Grows home m (es.take n) w w' ∧ Ends w'.volume.disk home w'.store es n r := by
  obtain ⟨n, r, ⟨l', v'⟩, hpush, hn, hgrows, hends⟩ := h.runOn_pushAll hes
  obtain ⟨v, happend, hdisk⟩ := runOn_append_of_pushAll hpush
  refine ⟨n, r, ⟨l', v⟩, happend, hn, ⟨hgrows.directory, ?_, ?_⟩, ?_⟩
  · show Keeps v.disk home l' _
    rw [hdisk]
    exact hgrows.keeps
  · show _ → Free v.disk home
    rw [hdisk]
    exact hgrows.free
  · show Ends v.disk home l' es n r
    rw [hdisk]
    exact hends

/-- In a batch that continues the log, so does the first entry that is not taken. -/
theorem Grows.index_eq {n : Nat} (hgrows : Grows home m (es.take n) w w')
    (h : Keeps w.volume.disk home w.store m)
    (hindex : es.map Entry.index = List.range' (w.store.last + 1) es.length)
    (he : es[n]? = some e) : e.index = w'.store.last + 1 := by
  have hlen := h.first_add_length
  have hlen' : m.first + (m.entries ++ es.take n).length = w'.store.last + 1 :=
    hgrows.keeps.first_add_length
  obtain ⟨hlt, -⟩ := List.getElem?_eq_some_iff.1 he
  rw [List.length_append, List.length_take] at hlen'
  have hnth : (es.map Entry.index)[n]? = some e.index := by rw [List.getElem?_map, he]; rfl
  rw [hindex, List.getElem?_range' hlt] at hnth
  have := Option.some.inj hnth
  omega

/-- **If no directory is in the way**, a batch that continues the log and can be written is taken as
a whole. -/
theorem Keeps.append_whole (h : Keeps w.volume.disk home w.store m) (hfree : Free w.volume.disk home)
    (hes : ∀ e ∈ es, e.Fits)
    (hindex : es.map Entry.index = List.range' (w.store.last + 1) es.length) :
    ∃ w', (append es).runOn w = (.ok es.length, w') ∧ Grows home m es w w' := by
  obtain ⟨n, r, w', happend, -, hgrows, hends⟩ := h.append_ends fun e he => (hes e he).proper
  -- with all entries fitting and nothing in the way only the whole batch is left
  cases hends with
  | whole hn =>
    subst hn
    rw [List.take_length] at hgrows
    exact ⟨w', happend, hgrows⟩
  | @short e f he hhindered =>
    -- the entry fits, so that only a directory could be in its way
    have hfits := hes e (List.mem_of_getElem? he)
    have hnext := hgrows.index_eq h hindex he
    obtain ⟨start, rows, hkept, -, -⟩ := hgrows.keeps
    rcases hhindered with hbody | hblocked
    · exact absurd hfits.body (by omega)
    · exact absurd hblocked (hkept.not_blocked (hgrows.free hfree) (hnext ▸ hfits.index))
  | gap he hgap => exact absurd (hgrows.index_eq h hindex he) hgap

/-! ### A directory that others use -/

/-- The states of a log in the directory `p` that others use as well.  They do what they like beside
the log's segments and its record, and entries are appended whatever is there.  The log is called
otherwise, or left to be opened again, only once nothing else is in the directory. -/
inductive Disturbed (p : Path) : Option SegmentedLog → Disk → Prop
  | reached {o : Option SegmentedLog} {d : Disk} (h : Reachable p o d) : Disturbed p o d
  | meddled {l : SegmentedLog} {d d' : Disk} {home : Location} (h : Disturbed p (some l) d)
      (hi : Intact d d' home l) : Disturbed p (some l) d'
  | appended {l : SegmentedLog} {d : Disk} {es : List Entry} {r : Except Failure Nat}
      {w : Mounted SegmentedLog} (h : Disturbed p (some l) d) (hes : ∀ e ∈ es, e.Proper)
      (hrun : (append es).runOn ⟨l, .ofDisk d⟩ = (r, w)) : Disturbed p (some w.store) w.volume.disk
  | called {l : SegmentedLog} {d : Disk} {home : Location} {c : Change} {r : Except Failure Unit}
      {w : Mounted SegmentedLog} (h : Disturbed p (some l) d) (ht : Tidy d home l) (hc : c.Proper)
      (hrun : c.run.runOn ⟨l, .ofDisk d⟩ = (r, w)) : Disturbed p (some w.store) w.volume.disk
  | left {l : SegmentedLog} {d d' : Disk} {home : Location} (h : Disturbed p (some l) d)
      (ht : Tidy d home l) (hd : d' = d ∨ ∃ c : Change, c.Proper ∧ StopsIn c.run l d d') :
      Disturbed p none d'
  | opened {d : Disk} {l₁ l : SegmentedLog} {m : Mounted MembershipHistory}
      (h : Disturbed p none d) (hdir : l₁.directory = p)
      (hrun : l₁.init.runOn ⟨.empty, .ofDisk d⟩ = (.ok l, m)) : Disturbed p (some l) m.volume.disk
  | stoppedOpening {d d' : Disk} {l₁ : SegmentedLog} (h : Disturbed p none d)
      (hdir : l₁.directory = p) (hstop : StopsIn l₁.init .empty d d') : Disturbed p none d'

/-- An open log keeps what it holds; a directory that nobody has open is one that can be opened or is
refused. -/
def Held (p : Path) : Option SegmentedLog → Disk → Prop
  | some l, d => l.directory = p ∧ ∃ home m, Keeps d home l m
  | none, d => Leftover d p

/-- A log that was never disturbed is held. -/
theorem Sound.held {o : Option SegmentedLog} (h : Sound p o d) : Held p o d := by
  cases o with
  | none => exact h
  | some l =>
    obtain ⟨hdir, home, m, hmirrors⟩ := h
    exact ⟨hdir, home, m, hmirrors.keeps⟩

/-- Nothing that others do makes a log lose what it holds. -/
theorem Disturbed.held {o : Option SegmentedLog} (h : Disturbed p o d) : Held p o d := by
  -- reached, meddled with, appended to, called, left by a stop, opened, or stopped while opening
  induction h with
  | reached h => exact h.sound.held
  | meddled _ hi ih =>
    obtain ⟨hdir, home, m, hkeeps⟩ := ih
    obtain rfl := Except.ok.inj (hi.before.symm.trans hkeeps.leads)
    exact ⟨hdir, _, m, hkeeps.intact hi⟩
  | @appended l d es r w _ hes hrun ih =>
    obtain ⟨hdir, home, m, hkeeps⟩ := ih
    obtain ⟨n, _, w', happend, -, hgrows, -⟩ := hkeeps.append_ends (w := ⟨l, .ofDisk d⟩) hes
    obtain ⟨-, rfl⟩ := Prod.mk.inj (happend.symm.trans hrun)
    exact ⟨hgrows.directory.trans hdir, home, _, hgrows.keeps⟩
  | @called l d home c r w _ ht hc hrun ih =>
    obtain ⟨rfl, home, m, hkeeps⟩ := ih
    obtain rfl := Except.ok.inj (ht.leads.symm.trans hkeeps.leads)
    obtain ⟨hdir, ⟨m', hmirrors⟩, -⟩ := (hkeeps.mirrors ht).change (v := .ofDisk d) hc hrun
    exact ⟨hdir, _, m', hmirrors.keeps⟩
  | @left l d d' home _ ht hd ih =>
    obtain ⟨rfl, home, m, hkeeps⟩ := ih
    obtain rfl := Except.ok.inj (ht.leads.symm.trans hkeeps.leads)
    rcases hd with rfl | ⟨c, hc, hstop⟩
    · exact (hkeeps.mirrors ht).leftover
    · obtain ⟨-, -, hpass⟩ := (hkeeps.mirrors ht).change (v := .ofDisk d) hc rfl
      exact hpass.left hstop
  | opened _ hdir hrun ih =>
    obtain ⟨hdir', home, m, hmirrors⟩ := (Leftover.opened ih hdir hrun).1 _ rfl
    exact ⟨hdir', home, m, hmirrors.keeps⟩
  | stoppedOpening _ hdir hstop ih =>
    obtain ⟨-, hpass⟩ := Leftover.opened ih hdir rfl
    exact hpass.left hstop

theorem Disturbed.wellFormed (h : Disturbed p (some l) d) : d.WellFormed := by
  obtain ⟨-, _, _, _, _, hkept, -, -⟩ := h.held
  exact hkept.wellFormed

/-- **A batch is appended from the front.**  Whatever others put into the directory and however large
the entries are, the answer tells how many of them are in the log now, or is an error and none is.
What was in the log stays, and there is a reason if an entry was not taken.  Once nothing else has
the name of a segment the directory is opened as the log that was left, and once no directory has
one the log takes whatever continues it. -/
theorem append_partial (h : Disturbed p (some l) d) (hes : ∀ e ∈ es, e.Proper)
    (hindex : es.map Entry.index = List.range' (l.last + 1) es.length) :
    ∃ home old n r l' v, d.directoryAt p = .ok home ∧ l.Reads d old ∧
      (append es).runOn ⟨l, .ofDisk d⟩ = (r, ⟨l', v⟩) ∧ n ≤ es.length ∧
      (r = .ok n ∧ (0 < n ∨ es = []) ∨ n = 0 ∧ ∃ e, r = .error (.error e)) ∧
      (∀ e, es[n]? = some e → Hindered v.disk home l' e) ∧
      l'.first = l.first ∧ l'.Reads v.disk (old ++ es.take n) ∧
      ∀ d', Intact v.disk d' home l' →
        (Unmixed d' home l' → Recovers d' p l.first (old ++ es.take n)) ∧
        (Free d' home → ∀ more : List Entry, (∀ e ∈ more, e.Fits) →
          more.map Entry.index = List.range' (l'.last + 1) more.length →
          ∃ l'' v', (append more).runOn ⟨l', .ofDisk d'⟩ = (.ok more.length, ⟨l'', v'⟩) ∧
            l''.first = l.first ∧ l''.Reads v'.disk (old ++ es.take n ++ more)) := by
  obtain ⟨rfl, home, m, hkeeps⟩ := h.held
  obtain ⟨hfirst, hreads⟩ := hkeeps.reads
  obtain ⟨n, x, ⟨l', v⟩, happend, hn, hgrows, hends⟩ :=
    hkeeps.append_ends (w := ⟨l, .ofDisk d⟩) hes
  obtain ⟨hfirst', hreads'⟩ := hgrows.keeps.reads
  have hsame : l'.first = l.first := hfirst'.trans hfirst.symm
  refine ⟨home, m.entries, n, answer x, l', v, hkeeps.leads, hreads, happend, hn, ?_, ?_, hsame,
    hreads', fun d' hi => ⟨fun hu => ?_, fun hfree more hmore hnext => ?_⟩⟩
  -- the answer: a number of entries, or an error if there is none
  · cases hends with
    | whole hn =>
      refine .inl ⟨rfl, ?_⟩
      rw [hn, ← List.length_eq_zero_iff]
      omega
    | short he hhindered =>
      by_cases hzero : n = 0
      · exact .inr ⟨hzero, _, if_pos hzero⟩
      · exact .inl ⟨if_neg hzero, .inl (Nat.pos_of_ne_zero hzero)⟩
    | gap he hgap => exact absurd (hgrows.index_eq hkeeps hindex he) hgap
  -- the cause lies in the first entry that was not taken
  · intro e he
    cases hends with
    | whole hn => exact absurd he (by rw [hn, List.getElem?_length]; simp)
    | short he' hhindered =>
      obtain rfl := Option.some.inj (he.symm.trans he')
      exact hhindered
    | gap he' hgap => exact absurd (hgrows.index_eq hkeeps hindex he') hgap
  · rw [hfirst, ← hgrows.directory]
    exact (hgrows.keeps.intact hi).recovers hu
  · obtain ⟨⟨l'', v'⟩, hmore', hgrows'⟩ :=
      (hgrows.keeps.intact hi).append_whole (w := ⟨l', .ofDisk d'⟩) hfree hmore hnext
    obtain ⟨hfirst'', hreads''⟩ := hgrows'.keeps.reads
    exact ⟨l'', v', hmore', hfirst''.trans hfirst.symm, hreads''⟩

/-- The log with three entries, and a directory with the name of the segment that the fifth entry is
to start. -/
def obstructed : Disk :=
  filled.volume.disk.replay [.makeDirectory ["logs", (SegmentName.writable 5).text]]

/-- The next entries. -/
def nextThree : List Entry := [.noOp 2 4, .noOp 2 5, .noOp 2 6]

/-- What is left once they were to be appended. -/
def hampered : Mounted SegmentedLog :=
  ((append nextThree).runOn ⟨filled.store, .ofDisk obstructed⟩).2

/-- The same without the directory. -/
def tidied : Disk :=
  hampered.volume.disk.replay [.removeTree ["logs", (SegmentName.writable 5).text]]

/-- Somebody has made a directory where the segment that starts at five would be. -/
theorem disturbed_obstructed : Disturbed paired.directory (some filled.store) obstructed := by
  have hreached : Disturbed paired.directory (some filled.store) filled.volume.disk :=
    .reached reachable_filled
  have hi : Intact filled.volume.disk obstructed ["logs"] filled.store :=
    ⟨by decide +kernel, by decide +kernel, hreached.wellFormed.replay _, by decide +kernel,
      by decide +kernel⟩
  exact hreached.meddled hi

/-- The batch of the example fits. -/
theorem proper_nextThree : ∀ e ∈ nextThree, e.Proper := by
  intro e he
  simp only [nextThree, List.mem_cons, List.not_mem_nil, or_false] at he
  rcases he with rfl | rfl | rfl <;> exact proper_noOp (by decide) (by decide)

theorem runOn_append_nextThree :
    (append nextThree).runOn ⟨filled.store, .ofDisk obstructed⟩ = (.ok 1, hampered) :=
  Prod.ext (by decide +kernel) rfl

theorem intact_tidied : Intact hampered.volume.disk tidied ["logs"] hampered.store :=
  have h := disturbed_obstructed.appended proper_nextThree runOn_append_nextThree
  ⟨by decide +kernel, by decide +kernel, h.wellFormed.replay _, by decide +kernel, by decide +kernel⟩

/-- Without the directory there are the two sealed segments and nothing else. -/
theorem unmixed_tidied : Unmixed tidied ["logs"] hampered.store := by
  intro name n _ hname
  obtain ⟨names, hlist, -, hmem⟩ := exists_list intact_tidied.wellFormed intact_tidied.leads
  have hnames : tidied.list hampered.store.directory =
      .ok [(SegmentName.sealed 1 2).text, (SegmentName.sealed 3 4).text] := by decide +kernel
  have hsegments : ∀ x ∈ [(SegmentName.sealed 1 2).text, (SegmentName.sealed 3 4).text],
      ∃ s ∈ hampered.store.segments, x = s.name.text := by decide +kernel
  obtain rfl := Except.ok.inj (hlist.symm.trans hnames)
  exact hsegments name ((hmem name).2 hname)

/-- The fourth entry is taken and its segment is sealed, but the fifth one finds no place; without the
directory the log of four entries is opened again. -/
theorem append_partial_obstructed :
    (∀ e ∈ nextThree, e.Proper) ∧
      nextThree.map Entry.index = List.range' (filled.store.last + 1) nextThree.length ∧
      ∃ old, filled.store.Reads obstructed old ∧
        (append nextThree).runOn ⟨filled.store, .ofDisk obstructed⟩ = (.ok 1, hampered) ∧
        hampered.store.Reads hampered.volume.disk (old ++ [.noOp 2 4]) ∧
        Recovers tidied paired.directory 1 (old ++ [.noOp 2 4]) := by
  have hindex : nextThree.map Entry.index =
      List.range' (filled.store.last + 1) nextThree.length := by decide +kernel
  have hhome : obstructed.directoryAt paired.directory = .ok ["logs"] := by decide +kernel
  have hfirst : filled.store.first = 1 := by decide +kernel
  have hrun := runOn_append_nextThree
  obtain ⟨home, old, n, r, l', v, leads, hreads, happend, -, hanswer, -, -, hreads', hlater⟩ :=
    append_partial disturbed_obstructed proper_nextThree hindex
  obtain rfl := Except.ok.inj (leads.symm.trans hhome)
  obtain ⟨rfl, hw⟩ := Prod.mk.inj (happend.symm.trans hrun)
  obtain rfl : n = 1 := by
    rcases hanswer with ⟨h, -⟩ | ⟨-, e, h⟩
    · exact (Except.ok.inj h).symm
    · exact absurd h (by simp)
  obtain rfl : hampered.store = l' := by rw [← hw]
  obtain rfl : hampered.volume = v := by rw [← hw]
  rw [hfirst] at hlater
  exact ⟨proper_nextThree, hindex, old, hreads, hrun, hreads',
    (hlater tidied intact_tidied).1 unmixed_tidied⟩

end SegmentedLog
end RaftReplica
