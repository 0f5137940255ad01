/-
RaftReplica/Proofs/Log/Shape.lean

The layout of a log's directory.  A log is opened in an empty directory, called in any way and opened
again at any time, with one largest size for its segments (`Unbroken`).  Then the directory holds the
record and one file for each segment, and nothing else; the segments follow one another up to the
last index; and what a segment remembers of its file is what stands there: the encodings of its
entries, one after the other (`LaidOut`).

The rows of frames that the log stands on are what carries this.  Each call keeps them neat
(`Orderly.called`), and so does opening the log again (`Orderly.reopened`).  The proof goes the usual
way:

* an invariant, `Orderly`: the log stands in its directory, the record tells its first index, and
  the rows are neat;
* a step lemma for each call (`keepsOrderly_change`), refused calls included;
* a lemma for opening again, which either succeeds and is orderly or changes nothing;
* the run lemma `Unbroken.orderly`, by induction on how the log came to be.

`laid_out` then reads the layout off the rows (`Stands.laidOut`).  The size bound is about all
entries of a segment but the last: a segment is sealed once it has outgrown the bound, so the entry
that takes it over is still in it.
-/
import RaftReplica.Proofs.Log.Interrupted
import RaftReplica.Proofs.Log.Steady

namespace RaftReplica

open RaftReplica.Frame Disk

variable {size : Nat} {d : Disk} {home : Location} {p : Path}

/-! ### What is laid out -/

/-- The file of the segment holds the encodings `bss` of the entries `es` and nothing else.  The
segment knows where each of them starts, and it was not full before the last one. -/
structure Segment.Written (size : Nat) (d : Disk) (home : Location) (s : Segment) (es : List Entry)
    (bss : List Bytes) : Prop where
  encoded : List.Forall₂ (fun e bs => Frame.encode e = .ok bs) es bss
  indexes : es.map Entry.index = List.range' s.first es.length
  last : s.last + 1 = s.first + es.length
  file : ∃ k, s.handle = some k ∧ d.item? (home ++ [s.name.text]) = some (.file k bss.flatten)
  bytes : s.bytes = bss.flatten.length
  count : s.marks.length = es.length
  marks : ∀ i e, es[i]? = some e → s.marks[i]? = some (Mark.mk (bss.take i).flatten.length e.term)
  sized : bss.dropLast.flatten.length ≤ size

/-- How a log lies in its directory, which is at `home`. -/
structure SegmentedLog.LaidOut (size : Nat) (d : Disk) (home : Location) (l : SegmentedLog) :
    Prop where
  leads : d.directoryAt l.directory = .ok home
  files : ∀ name, (d.item? (home ++ [name])).isSome →
    name = SegmentName.recordName ∨ ∃ s ∈ l.segments, name = s.name.text
  distinct : (l.segments.map fun s => s.name.text).Nodup
  sealed : ∀ s ∈ l.closed, s.name = .sealed s.first s.last ∧ s.first ≤ s.last
  writable : ∀ s ∈ l.tail, s.name = .writable s.first ∧ s.last = l.last
  single : ∀ first, (d.item? (home ++ [(SegmentName.writable first).text])).isSome →
    ∃ s ∈ l.tail, s.first = first
  chained : ∃ start, start ≤ l.first ∧ Chained start l.segments (l.last + 1)
  range : 1 ≤ l.first ∧ l.first ≤ l.last + 1
  written : ∀ s ∈ l.segments, ∃ es bss, s.Written size d home es bss
  read : ∀ index, l.first ≤ index → index ≤ l.last → ∃ s e, l.locate? index = some s ∧
    s ∈ l.segments ∧ s.covers index = true ∧ s.get index d = .ok (some e) ∧
    s.term index = .ok e.term ∧ e.index = index

/-- A row of written frames is a file of encodings. -/
theorem Segment.Holds.written {s : Segment} {fs : List Framed} (h : s.Holds d home p fs)
    (hfs : ∀ f ∈ fs, ∃ e : Entry, e.Fits ∧ f = framed e)
    (hsize : (bytesOf fs.dropLast).length ≤ size) :
    s.Written size d home (fs.map Framed.entry) (fs.map Framed.bytes) := by
  have hbytes (gs : List Framed) : (gs.map Framed.bytes).flatten = bytesOf gs :=
    (List.flatMap_def ..).symm
  obtain ⟨k, hk, hfile⟩ := h.file
  refine ⟨?_, ?_, ?_, ⟨k, hk, ?_⟩, ?_, ?_, ?_, ?_⟩
  · rw [List.forall₂_map_left_iff, List.forall₂_map_right_iff, List.forall₂_same]
    intro f hf
    obtain ⟨e, he, rfl⟩ := hfs f hf
    exact encode_eq he
  -- index by index: the frame at place `i` is a whole one of index `first + i`
  · refine List.ext_getElem? fun i => ?_
    rw [List.map_map, List.getElem?_map, List.length_map]
    by_cases hi : i < fs.length
    · have hf := List.getElem?_eq_getElem hi
      rw [hf, List.getElem?_range' hi]
      show some (fs[i].entry.index) = _
      rw [(h.row.getElem? hf).index_eq, Nat.one_mul]
    · rw [List.getElem?_eq_none (Nat.le_of_not_lt hi), List.getElem?_eq_none (by simpa using hi)]
      rfl
  · rw [List.length_map, h.last]
  · rw [hbytes]
    exact hfile
  · rw [hbytes, h.bytes]
  · rw [h.marks, marksOf, List.length_map, length_placed, List.length_map]
  · intro i e he
    rw [List.getElem?_map, Option.map_eq_some_iff] at he
    obtain ⟨f, hf, rfl⟩ := he
    rw [h.marks, getElem?_marksOf, hf, ← List.map_take, hbytes]
    rfl
  · rw [← List.map_dropLast, hbytes]
    exact hsize

namespace SegmentedLog

variable {start n : Nat} {v : Volume} {rows : List (List Framed)} {l l₁ : SegmentedLog} {e : Entry}
  {es : List Entry} {hist : MembershipHistory}

/-- **A log that stands on neat rows** is laid out. -/
theorem Stands.laidOut (h : Stands d home l start rows) (hneat : Neat size d home rows) :
    LaidOut size d home l := by
  have hwritten : ∀ s ∈ l.segments, ∃ es bss, s.Written size d home es bss := by
    intro s hs
    obtain ⟨fs, hfs, hold⟩ := h.holds.exists_row hs
    exact ⟨_, _, hold.written (hneat.written fs hfs) (hneat.sized fs hfs)⟩
  -- of what a log may own a draft is missing, since the directory is neat
  have hfiles : ∀ name, (d.item? (home ++ [name])).isSome →
      name = SegmentName.recordName ∨ ∃ s ∈ l.segments, name = s.name.text := by
    intro name hname
    rcases h.only name hname with hrec | rfl | hs
    · exact .inl hrec
    · rw [hneat.draft] at hname
      exact absurd hname (by simp)
    · exact .inr hs
  refine ⟨h.leads, hfiles, ?_, fun s hs => ⟨?_, h.kept.first_le_last hs⟩,
    fun s hs => ⟨?_, ?_⟩, fun first hname => ?_, ⟨start, h.start_le, h.chained⟩,
    ⟨h.first_pos, h.first_le⟩, hwritten, fun index hfirst hlast => ?_⟩
  · rw [show (fun s : Segment => s.name.text) = SegmentName.text ∘ Segment.name from rfl,
      ← List.map_map]
    exact h.kept.nodup_names.map SegmentName.text_injective
  · rw [Segment.name, h.closed s hs]
    rfl
  · rw [Segment.name, h.toLies.tail s hs]
    rfl
  · obtain ⟨-, -, -, -, -, hend, -⟩ := h.toLies.exists_last (segments_of_tail hs)
    exact hend
  -- a file with the name of an open segment is that of the segment written to
  · rcases hfiles _ hname with hrec | ⟨s, hs, htext⟩
    · exact absurd hrec (SegmentName.text_ne_recordName _)
    · have hwritable : SegmentName.writable first = s.name := SegmentName.text_injective htext
      have hopen := SegmentName.isSealed_name s
      rw [← hwritable] at hopen
      rcases mem_segments.1 hs with hs | hs
      · rw [h.closed s hs] at hopen
        exact absurd hopen (by simp [SegmentName.isSealed])
      · rw [Segment.name, h.toLies.tail s hs] at hwritable
        exact ⟨s, hs, (SegmentName.writable.inj hwritable).symm⟩
  · have hstart := h.start_le
    obtain ⟨s, fs, hlocate, hmem, hold, hle, hget⟩ := h.toLies.exists_located hfirst hlast
    have hlen := (h.holds.row h.chained).2
    obtain ⟨f, hf⟩ : ∃ f, fs[index - s.first]? = some f :=
      ⟨_, hget.trans (List.getElem?_eq_getElem (by omega))⟩
    obtain ⟨hin, -⟩ := List.getElem?_eq_some_iff.1 hf
    refine ⟨s, f.entry, hlocate, hmem, hold.covers_iff.2 ⟨hle, hin⟩, ?_, ?_, ?_⟩
    · rw [hold.get, if_pos hle, hf]
      rfl
    · rw [hold.term, if_pos hle, hf]
      rfl
    · rw [(hold.row.getElem? hf).index_eq, Nat.add_sub_cancel' hle]

/-! ### One call -/

/-- The log stands in the directory at `p`, on neat rows. -/
def Orderly (size : Nat) (p : Path) (l : SegmentedLog) (d : Disk) : Prop :=
  l.directory = p ∧ l.maxSegmentSize = size ∧ ∃ home start rows,
    Stands d home l start rows ∧ Starts d p l.first ∧ Neat size d home rows

/-- Whatever way the action ends, the log is orderly if it was before. -/
abbrev KeepsOrderly {α : Type} (size : Nat) (p : Path) (x : Act (Mounted SegmentedLog) α) : Prop :=
  Act.Preserves (fun w => Orderly size p w.store w.volume.disk) x

/-- An entry is taken, or it is refused and a full segment was sealed for it. -/
theorem keepsOrderly_push (he : e.Proper) : KeepsOrderly size p (push e) := by
  rintro ⟨l, v⟩ ⟨rfl, rfl, home, start, rows, h, hs, hneat⟩
  rw [push, Act.runOn_bind_ok (Mounted.runOn_stored _)]
  by_cases hindex : e.index = l.last + 1
  · obtain ⟨s, l₁, v₁, rows₁, hwritable, ht, hdir, hfirst, hlast, -, h₁, hs₁, -, hsize, hbytes,
      hneat₁⟩ := h.runOn_writable hs (hindex ▸ he.index)
    rw [Act.runOn_bind_ok (Act.runOn_require_of (decide_eq_true hindex) _ _),
      Act.runOn_bind_ok hwritable]
    -- an entry whose body does not fit into a frame is refused before anything is written
    by_cases hbody : (Frame.body e).length ≤ Numeral.max32
    · obtain ⟨s', v', rows', happend, -, h', hs', -, hneat'⟩ :=
        h₁.runOn_append hs₁ ht (he.fits hbody) (by rw [hindex, hlast])
      rw [Act.runOn_bind_ok (Mounted.runOn_onVolume_ok happend)]
      exact ⟨hdir, hsize, home, start, rows', h', hdir ▸ hs',
        hneat' _ hbytes (hneat₁ _ hneat)⟩
    · obtain ⟨-, -, -, -, -, hend, -⟩ := h₁.toLies.exists_last (segments_of_tail ht)
      have happend := runOn_append_tooLarge (v := v₁) (h₁.toLies.tail s ht)
        (by rw [hindex, hend, hlast]) hbody
      have hfails : (Mounted.onVolume (s.append e)).runOn ⟨l₁, v₁⟩ =
          (.error (.error (.invalidArgument (.entryTooLarge e.index))), ⟨l₁, v₁⟩) := by
        rw [Mounted.runOn_onVolume, happend]
      rw [Act.runOn_bind_error hfails]
      exact ⟨hdir, hsize, home, start, rows₁, h₁, hdir ▸ hs₁, hneat₁ _ hneat⟩
  -- an index that does not continue the log ends the call with nothing changed
  · rw [Act.runOn_bind, Act.runOn_require, decide_eq_false hindex]
    exact ⟨rfl, rfl, home, start, rows, h, hs, hneat⟩

/-- A batch is pushed entry by entry, and each of them keeps the order. -/
theorem keepsOrderly_pushAll (hes : ∀ e ∈ es, e.Proper) : KeepsOrderly size p (pushAll es) := by
  induction es with
  | nil => exact .pure _
  | cons e es ih =>
    have hpush : KeepsOrderly size p (push e).attempt := keepsOrderly_push (hes e List.mem_cons_self)
    refine .bind hpush fun r => ?_
    split
    · exact .bind (ih fun e he => hes e (List.mem_cons_of_mem _ he)) fun _ => .pure _
    · exact .pure _
    · exact fun _ h => h

/-- A flush touches no file of the log. -/
theorem keepsOrderly_flush : KeepsOrderly size p flush := by
  rintro ⟨l, v⟩ ⟨hdir, hsize, home, start, rows, h, hs, hneat⟩
  obtain ⟨v', hflush, hdisk, -⟩ := runOn_flush l v
  rw [hflush]
  exact ⟨hdir, hsize, home, start, rows, hdisk ▸ h, hdisk ▸ hs, hdisk ▸ hneat⟩

/-- So appending keeps it, whether all of the batch is taken or some of it. -/
theorem keepsOrderly_append (hes : ∀ e ∈ es, e.Proper) : KeepsOrderly size p (append es) := by
  refine .bind (keepsOrderly_pushAll hes) fun r => ?_
  obtain ⟨n, failure⟩ := r
  cases failure with
  | none => exact .ite (.bind keepsOrderly_flush fun _ => .pure n) (.pure n)
  | some e =>
    have hanswer : KeepsOrderly size p (if n = 0 then Act.fail e else pure n) :=
      .ite (.fail e) (.pure n)
    exact .ite (.bind keepsOrderly_flush fun _ => hanswer) hanswer

/-- **Each call** keeps a log orderly, whatever way it ends. -/
theorem keepsOrderly_change {c : Change} (hc : c.Proper) : KeepsOrderly size p c.run := by
  -- one case for each call; each of them has a branch that does nothing or is refused
  cases c with
  | append es => exact .bind (keepsOrderly_append hc) fun _ => .pure _
  | truncateBefore kept =>
    rintro ⟨l, v⟩ ⟨rfl, rfl, home, start, rows, h, hs, hneat⟩
    show Orderly _ _ ((truncateBefore kept).runOn ⟨l, v⟩).2.store _
    by_cases hle : kept ≤ l.first
    · rw [Change.run, runOn_truncateBefore_of_le hle]
      exact ⟨rfl, rfl, home, start, rows, h, hs, hneat⟩
    · obtain ⟨a, v', rows', hrun, h', hs', -, hneat', -⟩ :=
        h.runOn_truncateBefore hs (Nat.lt_of_not_le hle) hc
      rw [Change.run, hrun]
      exact ⟨rfl, rfl, home, a, rows', h', hs', hneat' _ hneat⟩
  | truncateAfter kept =>
    rintro ⟨l, v⟩ ⟨rfl, rfl, home, start, rows, h, hs, hneat⟩
    show Orderly _ _ ((truncateAfter kept).runOn ⟨l, v⟩).2.store _
    by_cases hle : l.first ≤ kept + 1
    · obtain ⟨l', v', rows', hrun, h', hs', hdir, -, -, hsize, hneat', -⟩ :=
        h.runOn_truncateAfter hs hle
      rw [Change.run, hrun]
      exact ⟨hdir, hsize, home, start, rows', h', hdir ▸ hs', hneat' _ hneat⟩
    · rw [Change.run, runOn_truncateAfter_below hle]
      exact ⟨rfl, rfl, home, start, rows, h, hs, hneat⟩
  | reset next =>
    rintro ⟨l, v⟩ ⟨rfl, rfl, home, start, rows, h, hs, hneat⟩
    show Orderly _ _ ((reset next).runOn ⟨l, v⟩).2.store _
    by_cases hzero : next = 0
    · rw [Change.run, hzero, runOn_reset_zero]
      exact ⟨rfl, rfl, home, start, rows, h, hs, hneat⟩
    · obtain ⟨_, v', hrun, rfl, h', hs', hneat', -⟩ := h.runOn_reset hs hzero hc
      rw [Change.run, hrun]
      exact ⟨rfl, rfl, home, next, [], h', hs', hneat' _ hneat⟩

/-- **Opening the log again** gives an orderly one, or the history refuses it and nothing happened. -/
theorem Orderly.reopened (h : Orderly size p l v.disk) (hdir : l₁.directory = p)
    (hsize : l₁.maxSegmentSize = size) (hist : MembershipHistory) :
    (∃ l' m, l₁.init.runOn ⟨hist, v⟩ = (.ok l', m) ∧ Orderly size p l' m.volume.disk) ∨
    ∃ e m, l₁.init.runOn ⟨hist, v⟩ = (.error e, m) ∧ m.volume = v := by
  obtain ⟨rfl, rfl, home, start, rows, h, hs, hneat⟩ := h
  have hle := h.first_le
  have hbound := h.bound
  obtain ⟨l', m₀, a, rows', hempty, hdir', hsize', hfirst, h', hs', -, hneat', -⟩ :=
    h.runOn_init_of_loadTail h.wellFormed (.refl h.wellFormed _) hs h.start_le (by omega) hdir
      fun done hist a b more hold hc ha hnone hasc => runOn_loadTail h.leads hold hc ha hnone hasc
  -- whether it opens depends on what the history holds before
  rcases h.runOn_init_any hs hdir hempty hist with ⟨m, hrun, hvolume⟩ | hfails
  · refine .inl ⟨l', m, hrun, hdir', hsize'.trans hsize, home, a, rows', ?_⟩
    rw [hvolume, hfirst, ← hdir']
    exact ⟨h', hs', hneat' _ hneat⟩
  · exact .inr hfails

/-- **A log that is opened for the first time** is orderly. -/
theorem Vacant.orderly (h : Vacant d p) (hdir : l₁.directory = p) (hsize : l₁.maxSegmentSize = size)
    {m : Mounted MembershipHistory} (hrun : l₁.init.runOn ⟨hist, .ofDisk d⟩ = (.ok l, m)) :
    Orderly size p l m.volume.disk := by
  obtain ⟨hw, v₁, hmake, hempty⟩ := h
  subst hdir
  have hw₁ : v₁.disk.WellFormed := by
    have hkept := Volume.preserves_makeDirectories l₁.directory (.ofDisk d) hw
    rwa [hmake] at hkept
  obtain ⟨home, leads⟩ := directoryAt_of_list hempty
  -- the directory is one of a log without segments
  obtain ⟨hstands, hstarts⟩ := stands_of_empty
    (l := { l₁ with first := 1, last := 0, closed := [], tail := none }) hw₁ leads hempty
    ⟨rfl, rfl⟩ ⟨rfl, rfl⟩
  have hdraft := (list_eq_nil_iff hw₁ leads).1 hempty _ (below_entry (SegmentName.recordName ++ ".tmp"))
  have horderly : Orderly size l₁.directory
      { l₁ with first := 1, last := 0, closed := [], tail := none } v₁.disk :=
    ⟨rfl, hsize, home, 1, [], hstands, hstarts, ⟨hdraft, nofun, nofun⟩⟩
  rw [runOn_init_made hmake leads hist] at hrun
  rcases horderly.reopened rfl hsize hist with ⟨l', m', hrun', h'⟩ | ⟨e, m', hrun', -⟩
  · obtain ⟨hl, rfl⟩ := Prod.mk.inj (hrun'.symm.trans hrun)
    exact Except.ok.inj hl ▸ h'
  · exact absurd (hrun'.symm.trans hrun) (by simp)

/-! ### Any number of calls -/

/-- What becomes of a log in the directory `p` whose segments have the largest size `size`.  It is
opened where nothing was, called in any way, and opened again with any history; if the history
refuses what it hears, the log stays as it is. -/
inductive Unbroken (size : Nat) (p : Path) : SegmentedLog → Disk → Prop
  | opened {d : Disk} {l₁ l : SegmentedLog} {hist : MembershipHistory}
      {m : Mounted MembershipHistory} (h : Vacant d p) (hdir : l₁.directory = p)
      (hsize : l₁.maxSegmentSize = size) (hrun : l₁.init.runOn ⟨hist, .ofDisk d⟩ = (.ok l, m)) :
      Unbroken size p l m.volume.disk
  | called {l : SegmentedLog} {d : Disk} {c : Change} {r : Except Failure Unit}
      {w : Mounted SegmentedLog} (h : Unbroken size p l d) (hc : c.Proper)
      (hrun : c.run.runOn ⟨l, .ofDisk d⟩ = (r, w)) : Unbroken size p w.store w.volume.disk
  | reopened {l l₁ l' : SegmentedLog} {d : Disk} {hist : MembershipHistory}
      {m : Mounted MembershipHistory} (h : Unbroken size p l d) (hdir : l₁.directory = p)
      (hsize : l₁.maxSegmentSize = size) (hrun : l₁.init.runOn ⟨hist, .ofDisk d⟩ = (.ok l', m)) :
      Unbroken size p l' m.volume.disk
  | refused {l l₁ : SegmentedLog} {d : Disk} {hist : MembershipHistory} {e : Failure}
      {m : Mounted MembershipHistory} (h : Unbroken size p l d) (hdir : l₁.directory = p)
      (hsize : l₁.maxSegmentSize = size) (hrun : l₁.init.runOn ⟨hist, .ofDisk d⟩ = (.error e, m)) :
      Unbroken size p l m.volume.disk

/-- Whatever was done, the log is in order: by induction on how it came to be. -/
theorem Unbroken.orderly (h : Unbroken size p l d) : Orderly size p l d := by
  -- opened for the first time, called, opened again, or refused when opened again
  induction h with
  | opened h hdir hsize hrun => exact h.orderly hdir hsize hrun
  | @called l d c r w _ hc hrun ih =>
    have hkeeps : KeepsOrderly size p c.run := keepsOrderly_change hc
    have horderly := hkeeps ⟨l, .ofDisk d⟩ ih
    rwa [hrun] at horderly
  | @reopened l l₁ l' d hist m _ hdir hsize hrun ih =>
    rcases ih.reopened (v := .ofDisk d) hdir hsize hist with ⟨l'', m', hrun', h'⟩ | ⟨e, m', hrun', -⟩
    · obtain ⟨hl, rfl⟩ := Prod.mk.inj (hrun'.symm.trans hrun)
      exact Except.ok.inj hl ▸ h'
    · exact absurd (hrun'.symm.trans hrun) (by simp)
  | @refused l l₁ d hist e m _ hdir hsize hrun ih =>
    rcases ih.reopened (v := .ofDisk d) hdir hsize hist with ⟨l', m', hrun', -⟩ | ⟨e, m', hrun', hv⟩
    · exact absurd (hrun'.symm.trans hrun) (by simp)
    · obtain ⟨-, rfl⟩ := Prod.mk.inj (hrun'.symm.trans hrun)
      rw [hv]
      exact ih

/-- **The directory of a log is laid out**, whatever calls were made. -/
theorem laid_out (h : Unbroken size p l d) : ∃ home, LaidOut size d home l := by
  obtain ⟨-, -, home, start, rows, hstands, -, hneat⟩ := h.orderly
  exact ⟨home, hstands.laidOut hneat⟩

/-- The log with three entries, once the first one was dropped; it shares a file with the second. -/
def beheaded : Mounted SegmentedLog :=
  ((Change.truncateBefore 2).run.runOn ⟨filled.store, .ofDisk filled.volume.disk⟩).2

/-- The log of the example came to be by calls alone. -/
theorem unbroken_beheaded :
    Unbroken 34 paired.directory beheaded.store beheaded.volume.disk := by
  have hopened : Unbroken 34 paired.directory paired madeDisk :=
    .opened vacant_paired rfl rfl runOn_init_paired
  have hfilled : Unbroken 34 paired.directory filled.store filled.volume.disk :=
    hopened.called proper_filled rfl
  exact hfilled.called (c := .truncateBefore 2) (show 2 ≤ Numeral.max64 by decide) rfl

/-- Both its segments are laid out, the sealed one with the entry that was dropped. -/
theorem laid_out_beheaded :
    Unbroken 34 paired.directory beheaded.store beheaded.volume.disk ∧
      (beheaded.store.first, beheaded.store.last) = (2, 3) ∧
      beheaded.store.segments.map Segment.name = [.sealed 1 2, .writable 3] ∧
      ∃ home, LaidOut 34 beheaded.volume.disk home beheaded.store :=
  ⟨unbroken_beheaded, by decide +kernel, by decide +kernel, laid_out unbroken_beheaded⟩

end SegmentedLog
end RaftReplica
