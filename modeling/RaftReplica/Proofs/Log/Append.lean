/-
RaftReplica/Proofs/Log/Append.lean

Appending to a log on disk, one entry after the other.

An entry goes into the segment to write to.  If that is full it is sealed first, and a new
one is begun (`writable`); sealing and beginning move entries nowhere, so in between the
directory stores the same log.  Only the write of the frame makes it another one, and only
once the last byte of it has arrived.

Each of the three actions on a segment has two lemmas:

* one for a log that is only kept (`Kept`): there may be other files in its directory, so it has
  to be known that no directory is in the way of the new name;
* one for a log that stands there (`Stands`), where nothing else is.  It says besides that the
  record of the start is left alone (`Starts`) and that the segments are as neat as before (`Neat`).

What is stored while the process may stop is told by `Volume.Passes`.  For an append these are
two logs, the one before and the one after (`Mirrors.runOn_push`): a frame that was cut short is
behind the last entry, where no reader takes it for one (`Stands.stores_of_write`).

Main results: `Mirrors.runOn_push`, `simulates_append`.
-/
import RaftReplica.Proofs.Log.Stored

namespace RaftReplica

open RaftReplica.Frame Disk

namespace SegmentedLog

variable {d d' : Disk} {home : Location} {start : Nat} {v : Volume} {rows : List (List Framed)}
  {s : Segment} {e : Entry} {l : SegmentedLog} {m : MemoryLog}

/-! ### Sealing and beginning segments -/

/-- A segment that is full has an entry, so its name as a sealed one tells a range. -/
theorem Kept.fits_sealed (h : Kept d home l start rows) (ht : l.tail = some s) (hbytes : s.bytes ≠ 0)
    {s' : Segment} (hs' : s' = { s with isOpen := false }) : s'.name.Fits := by
  obtain ⟨more, fs, rfl, -, -, hlast, hold⟩ := h.toLies.exists_last (segments_of_tail ht)
  have hlen := hold.last
  have hbound := h.bound
  -- a name of a sealed segment tells a range, so an empty one could not be sealed
  have hpos : fs ≠ [] := by
    rintro rfl
    exact hbytes hold.bytes
  have := List.length_pos_iff.2 hpos
  rw [Segment.fits_name_of_closed (by rw [hs']), hs']
  exact ⟨by show s.first ≤ s.last; omega, by show s.last ≤ _; omega⟩

/-- Sealing the segment to write to leaves the log as it is, unless a directory is in the way. -/
theorem Kept.runOn_close (h : Kept v.disk home l start rows) (ht : l.tail = some s)
    (hbytes : s.bytes ≠ 0) (sync : Bool) {s' : Segment} (hs' : s' = { s with isOpen := false })
    (hplace : v.disk.item? (s'.place home) ≠ some .directory) :
    ∃ v', (s.close sync).runOn v = (.ok s', v') ∧ Segment.Replaces v.disk v'.disk home s s' ∧
      Kept v'.disk home { l with closed := l.closed ++ [s'], tail := none } start rows := by
  have hsegments := segments_of_tail ht
  obtain ⟨more, fs, rfl, hmore, hc, hlast, hold⟩ := h.toLies.exists_last hsegments
  have hopen := h.toLies.tail s ht
  obtain ⟨v', hclose, hr, hold'⟩ := hold.runOn_close h.wellFormed h.leads hopen sync hs' hplace
  -- one file gets another name; the other segments and their rows are those of before
  refine ⟨v', hclose, hr, h.changeLast hr hold.item?_ne_directory hplace (fun x hx => hx) hmore hc
    hold' (by rw [hs']) rfl rfl (List.append_nil _) (by rw [hs']; exact hlast.symm) ?_ (by simp)
    h.first_le (h.fits_sealed ht hbytes hs') h.bound⟩
  intro x hx
  rcases List.mem_append.1 hx with hx | hx
  · exact h.closed x hx
  · rw [List.mem_singleton.1 hx, hs']

/-- Sealing the segment to write to leaves the log as it is. -/
theorem Stands.runOn_close (h : Stands v.disk home l start rows)
    (hs : Starts v.disk l.directory l.first) (ht : l.tail = some s) (hbytes : s.bytes ≠ 0)
    (sync : Bool) : ∃ s' v', (s.close sync).runOn v = (.ok s', v') ∧
      Stands v'.disk home { l with closed := l.closed ++ [s'], tail := none } start rows ∧
      Starts v'.disk l.directory l.first ∧
      ∀ size, Neat size v.disk home rows → Neat size v'.disk home rows := by
  have hl : ∀ x ∈ l.segments, x ∈ l.closed ∨ x = s := by
    intro x hx
    rw [segments_of_tail ht] at hx
    simpa using hx
  -- no directory is in the way, because only files of the log are there
  obtain ⟨v', hclose, hr, hkept⟩ := h.kept.runOn_close ht hbytes sync rfl (h.item?_ne_directory _)
  have htidy := h.tidy.changeLast hr hl hkept.leads (List.append_nil _)
  exact ⟨_, v', hclose, hkept.stands htidy, hs.replaced hr h.leads hkept.leads,
    fun _ hneat => hneat.replaced hr⟩

/-- A new segment to write to leaves the log as it is, unless a directory is in the way. -/
theorem Kept.runOn_create (h : Kept v.disk home l start rows) (ht : l.tail = none)
    (hroom : l.last + 1 ≤ Numeral.max64)
    (hplace : v.disk.item? ((Segment.fresh l.directory (l.last + 1)).place home) ≠
      some .directory) :
    ∃ s v', ((Segment.fresh l.directory (l.last + 1)).create).runOn v = (.ok s, v') ∧
      Segment.Replaces v.disk v'.disk home s s ∧
      Kept v'.disk home { l with tail := some s } start (rows ++ [[]]) := by
  obtain ⟨s, v', hcreate, hr, hold, hfirst, hname⟩ :=
    Segment.runOn_create h.wellFormed h.leads (Nat.succ_pos l.last) hplace
  have hopen : s.isOpen = true := by
    have hsealed := SegmentName.isSealed_name s
    rw [hname] at hsealed
    simpa [SegmentName.isSealed] using hsealed
  have hplace : v.disk.item? (s.place home) ≠ some .directory := by
    rw [Segment.place, hname]
    exact hplace
  -- without a segment to write to all segments are sealed, and the new one follows the last
  have hmore := h.holds
  have hc := h.chained
  rw [segments_of_none ht] at hmore hc
  have hlast := hold.last
  have hlast : l.last = s.last := by
    rw [List.length_nil] at hlast
    omega
  refine ⟨s, v', hcreate, hr, h.changeLast hr hplace hplace (fun x hx => hx) hmore (hfirst ▸ hc) hold
    rfl rfl rfl rfl hlast h.closed ?_ h.first_le ?_ h.bound⟩
  · intro x hx
    rw [← Option.some.inj hx, hopen]
  · rw [hname]
    exact hroom

/-- A new segment to write to is empty and leaves the log as it is. -/
theorem Stands.runOn_create (h : Stands v.disk home l start rows)
    (hs : Starts v.disk l.directory l.first) (ht : l.tail = none)
    (hroom : l.last + 1 ≤ Numeral.max64) :
    ∃ s v', ((Segment.fresh l.directory (l.last + 1)).create).runOn v = (.ok s, v') ∧
      s.bytes = 0 ∧ Stands v'.disk home { l with tail := some s } start (rows ++ [[]]) ∧
      Starts v'.disk l.directory l.first ∧
      ∀ size, Neat size v.disk home rows → Neat size v'.disk home (rows ++ [[]]) := by
  obtain ⟨s, v', hcreate, hr, hkept⟩ := h.kept.runOn_create ht hroom (h.item?_ne_directory _)
  have hl : ∀ x ∈ l.segments, x ∈ l.closed ∨ x = s := by
    intro x hx
    rw [segments_of_none ht] at hx
    exact .inl hx
  have htidy := h.tidy.changeLast hr hl hkept.leads rfl
  obtain ⟨more, fs, hrows, -, -, -, hold⟩ := hkept.toLies.exists_last rfl
  obtain ⟨-, hnil⟩ := List.append_inj' hrows rfl
  refine ⟨s, v', hcreate, ?_, hkept.stands htidy, hs.replaced hr h.leads hkept.leads,
    fun _ hneat => hneat.begun.replaced hr⟩
  -- the new segment holds the row that was added, which is empty
  rw [hold.bytes, ← (List.cons.inj hnil).1]
  rfl

/-- There is a segment to write to that is not full, once a full one was sealed; the log is stored all
the while. -/
theorem Stands.runOn_writable (h : Stands v.disk home l start rows)
    (hs : Starts v.disk l.directory l.first) (hroom : l.last + 1 ≤ Numeral.max64) :
    ∃ s l' v' rows', writable.runOn ⟨l, v⟩ = (.ok s, ⟨l', v'⟩) ∧ l'.tail = some s ∧
      l'.directory = l.directory ∧ l'.first = l.first ∧ l'.last = l.last ∧
      rows'.flatten = rows.flatten ∧ Stands v'.disk home l' start rows' ∧
      Starts v'.disk l'.directory l'.first ∧
      Volume.Passes (Stores · home l.directory ⟨l.first, entriesFrom l.first start rows⟩) v v' ∧
      l'.maxSegmentSize = l.maxSegmentSize ∧ s.bytes ≤ l.maxSegmentSize ∧
      ∀ size, Neat size v.disk home rows → Neat size v'.disk home rows' := by
  have hflat : (rows ++ [[]]).flatten = rows.flatten := by
    rw [List.flatten_append]
    exact List.append_nil _
  have hstored := h.stored hs
  unfold writable
  rw [Act.runOn_bind_ok (Mounted.runOn_stored _)]
  -- three cases: nothing to write to, a segment with room, and a full one that is sealed first
  cases ht : l.tail with
  | none =>
    obtain ⟨s, v', hcreate, hzero, h', hs', hneat⟩ := h.runOn_create hs ht hroom
    have hstored' := h'.stored hs'
    rw [entriesFrom_congr hflat] at hstored'
    refine ⟨s, { l with tail := some s }, v', _, ?_, rfl, rfl, rfl, rfl, hflat, h', hs',
      (Segment.atomic_create _).passes hcreate hstored hstored', rfl, by rw [hzero]; exact Nat.zero_le _,
      hneat⟩
    show Act.runOn (Mounted.onVolume _ >>= _) _ = _
    rw [Act.runOn_bind_ok (Mounted.runOn_onVolume_ok hcreate),
      Act.runOn_bind_ok (Mounted.runOn_update _ _)]
    rfl
  | some t =>
    by_cases hfull : t.bytes ≤ l.maxSegmentSize
    · refine ⟨t, l, v, rows, ?_, ht, rfl, rfl, rfl, rfl, h, hs, .refl hstored, rfl, hfull,
        fun _ => id⟩
      dsimp only
      rw [if_pos hfull]
      rfl
    · -- in between the log has no segment to write to, and still is the same log
      obtain ⟨t', v₁, hclose, h₁, hs₁, hneat₁⟩ := h.runOn_close hs ht (by omega) l.sync
      obtain ⟨s, v', hcreate, hzero, h', hs', hneat'⟩ := h₁.runOn_create hs₁ rfl hroom
      have hstored₁ := h₁.stored hs₁
      have hstored' := h'.stored hs'
      rw [entriesFrom_congr hflat] at hstored'
      refine ⟨s, { l with closed := l.closed ++ [t'], tail := some s }, v', _, ?_, rfl, rfl, rfl, rfl,
        hflat, h', hs', ((Segment.atomic_close _ _).passes hclose hstored hstored₁).trans
          ((Segment.atomic_create _).passes hcreate hstored₁ hstored'), rfl,
        by rw [hzero]; exact Nat.zero_le _, fun size hneat => hneat' size (hneat₁ size hneat)⟩
      dsimp only
      rw [if_neg hfull, Act.runOn_bind_ok (Mounted.runOn_onVolume_ok hclose),
        Act.runOn_bind_ok (Mounted.runOn_update _ _)]
      show Act.runOn (Mounted.onVolume _ >>= _) _ = _
      rw [Act.runOn_bind_ok (Mounted.runOn_onVolume_ok hcreate),
        Act.runOn_bind_ok (Mounted.runOn_update _ _)]
      rfl

/-- **A write behind the last entry** that was cut short leaves the log as it was, and the whole
write is all that makes it another one. -/
theorem Stands.stores_of_write {k n : Nat} {fs : List Framed} {index : Nat} {f : Framed}
    (h : Stands d home l start rows) (hs : Starts d l.directory l.first) (ht : l.tail = some s)
    (hfile : d.item? (s.place home) = some (.file k (bytesOf fs))) (hf : f.Whole index)
    (hput : Puts d d' (s.place home) (some (.file k (bytesOf fs ++ f.bytes.take n))))
    (hn : n < f.bytes.length) :
    Stores d' home l.directory ⟨l.first, entriesFrom l.first start rows⟩ := by
  have hle := h.first_le
  have hbound := h.bound
  have leads := hput.directoryAt (h.item?_ne_directory s) h.leads
  have hstarts : Starts d' l.directory l.first := hs.congr h.leads leads
    (hput.item?_ne fun he => SegmentName.text_ne_recordName s.name (append_name_inj.1 he).symm)
  -- if no byte arrived the disk shows what it showed; otherwise there is a write cut short
  by_cases hnil : f.bytes.take n = []
  · have hsame : d'.item? = d.item? := by
      rw [hput.item?, hnil, List.append_nil, ← hfile, Function.update_eq_self]
    exact (h.congr hput.wellFormed hsame).stores hstarts h.start_le (by omega)
  · exact ⟨d, l, start, rows, rfl, h, .inr ⟨s, ht, k, _, _, hf.unfinished hn, hnil, hfile, hput⟩,
      hstarts, h.start_le, (by show l.first ≤ _; omega), rfl⟩

/-- The segment to write to takes the next entry, which may arrive byte for byte. -/
theorem Kept.runOn_append (h : Kept v.disk home l start rows) (ht : l.tail = some s) (he : e.Fits)
    (hindex : e.index = l.last + 1) :
    ∃ s' v' rows', (s.append e).runOn v = (.ok s', v') ∧
      rows'.flatten = rows.flatten ++ [framed e] ∧ Segment.Replaces v.disk v'.disk home s s' ∧
      Kept v'.disk home { l with tail := some s', last := e.index } start rows' ∧
      (∀ size, s.bytes ≤ size → Neat size v.disk home rows → Neat size v'.disk home rows') ∧
      ∃ k fs, v.disk.item? (s.place home) = some (.file k (bytesOf fs)) ∧
        Puts v.disk v'.disk (s.place home) (some (.file k (bytesOf fs ++ (framed e).bytes))) ∧
        Volume.Passes (fun d => ∃ n, Puts v.disk d (s.place home)
          (some (.file k (bytesOf fs ++ (framed e).bytes.take n)))) v v' := by
  obtain ⟨more, fs, rfl, hmore, hc, hlast, hold⟩ := h.toLies.exists_last (segments_of_tail ht)
  have hopen := h.toLies.tail s ht
  obtain ⟨s', v', happend, hr, hold', hfirst, hname, k, hfile, hput, hpass⟩ :=
    hold.runOn_append h.wellFormed hopen he (by rw [hindex, hlast])
  -- the segment is longer by one entry, and its first index is the same
  have hlast' : e.index = s'.last := by
    have hend := hold.last
    have hend' := hold'.last
    rw [List.length_append, List.length_singleton, hfirst] at hend'
    omega
  have hplace' : v.disk.item? (s'.place home) ≠ some .directory := by
    rw [Segment.place_eq_of_name hname]
    exact hold.item?_ne_directory
  have hle := h.first_le
  refine ⟨s', v', more ++ [fs ++ [framed e]], happend, ?_, hr,
    h.changeLast hr hold.item?_ne_directory hplace' (fun x hx => hx) hmore hc hold' hfirst rfl rfl rfl
      hlast' h.closed ?_ ?_ ?_ he.index,
    fun size hsize hneat => (hneat.grown he (hold.bytes ▸ hsize)).replaced hr, k, fs, hfile, hput, hpass⟩
  · rw [List.flatten_append, List.flatten_append, List.append_assoc]
    show _ = more.flatten ++ ((fs ++ []) ++ [framed e])
    rw [List.append_nil]
    exact congrArg _ (List.append_nil _)
  · intro x hx
    have hsealed := congrArg SegmentName.isSealed hname
    rw [SegmentName.isSealed_name, SegmentName.isSealed_name, hopen] at hsealed
    rw [← Option.some.inj hx]
    simpa using hsealed
  · show l.first ≤ e.index + 1
    omega
  · rw [hname]
    exact h.fits s (mem_segments.2 (.inr ht))

/-- The segment to write to takes the next entry; until it has it the log is as before. -/
theorem Stands.runOn_append (h : Stands v.disk home l start rows)
    (hs : Starts v.disk l.directory l.first) (ht : l.tail = some s) (he : e.Fits)
    (hindex : e.index = l.last + 1) :
    ∃ s' v' rows', (s.append e).runOn v = (.ok s', v') ∧
      rows'.flatten = rows.flatten ++ [framed e] ∧
      Stands v'.disk home { l with tail := some s', last := e.index } start rows' ∧
      Starts v'.disk l.directory l.first ∧
      Volume.Passes (fun d =>
        Stores d home l.directory ⟨l.first, entriesFrom l.first start rows⟩ ∨
        Stores d home l.directory ⟨l.first, entriesFrom l.first start rows'⟩) v v' ∧
      ∀ size, s.bytes ≤ size → Neat size v.disk home rows → Neat size v'.disk home rows' := by
  have hl : ∀ x ∈ l.segments, x ∈ l.closed ∨ x = s := by
    intro x hx
    rw [segments_of_tail ht] at hx
    simpa using hx
  obtain ⟨s', v', rows', happend, hflat, hr, hkept, hneat, k, fs, hfile, hput, hpass⟩ :=
    h.kept.runOn_append ht he hindex
  have hstands := hkept.stands (h.tidy.changeLast hr hl hkept.leads rfl)
  have hstarts := hs.replaced hr h.leads hkept.leads
  have hle := h.first_le
  refine ⟨s', v', rows', happend, hflat, hstands, hstarts, hpass.mono ?_, hneat⟩
  rintro d ⟨n, hd⟩
  -- how many bytes of the frame have arrived decides which of the two logs is stored
  rcases Nat.lt_or_ge n (framed e).bytes.length with hn | hn
  · exact .inl (h.stores_of_write hs ht hfile (whole_framed he) hd hn)
  · rw [List.take_of_length_le hn] at hd
    have hsame : d.item? = v'.disk.item? := by rw [hd.item?, hput.item?]
    have hstands' := hstands.congr hd.wellFormed hsame
    exact .inr (hstands'.stores (hstarts.congr hstands.leads hstands'.leads (by rw [hsame]))
      h.start_le (by show l.first ≤ _; have := he.index; omega))

/-- One more frame is one more entry. -/
theorem Lies.entriesFrom_concat (h : Lies d home l start rows) {rows' : List (List Framed)}
    (hflat : rows'.flatten = rows.flatten ++ [framed e]) :
    entriesFrom l.first start rows' = entriesFrom l.first start rows ++ [e] := by
  have hlen := (h.holds.row h.chained).2
  have hle := h.first_le
  have hstart := h.start_le
  rw [entriesFrom, entriesFrom, hflat, List.map_append,
    List.drop_append_of_le_length (by rw [List.length_map]; omega)]
  rfl

/-- **An entry that continues the log** is in it afterwards, and at no time is anything else
stored. -/
theorem Mirrors.runOn_push (h : Mirrors v.disk home l m) (he : e.Fits)
    (hindex : e.index = l.last + 1) :
    ∃ l' v', (push e).runOn ⟨l, v⟩ = (.ok (), ⟨l', v'⟩) ∧ l'.directory = l.directory ∧
      Mirrors v'.disk home l' { m with entries := m.entries ++ [e] } ∧
      Volume.Passes (fun d => Stores d home l.directory m ∨
        Stores d home l.directory { m with entries := m.entries ++ [e] }) v v' := by
  obtain ⟨start, rows, h, hs, rfl⟩ := h
  have hroom : l.last + 1 ≤ Numeral.max64 := hindex ▸ he.index
  obtain ⟨s, l₁, v₁, rows₁, hwritable, ht, hdir, hfirst, hlast, hflat, h₁, hs₁, hpass₁, -⟩ :=
    h.runOn_writable hs hroom
  obtain ⟨s', v', rows', happend, hflat', h', hs', hpass', -⟩ :=
    h₁.runOn_append hs₁ ht he (by rw [hindex, hlast])
  -- finding a segment to write to has moved no entry, so the frame is the only difference
  have hentries : entriesFrom l₁.first start rows' = entriesFrom l.first start rows ++ [e] := by
    rw [hfirst, h.toLies.entriesFrom_concat (by rw [hflat', hflat])]
  rw [hentries, entriesFrom_congr hflat, hfirst, hdir] at hpass'
  refine ⟨{ l₁ with tail := some s', last := e.index }, v', ?_, hdir, ⟨start, rows', h', hs', ?_⟩,
    (hpass₁.mono fun _ => .inl).trans hpass'⟩
  · rw [push, Act.runOn_bind_ok (Mounted.runOn_stored _),
      Act.runOn_bind_ok (Act.runOn_require_of (decide_eq_true hindex) _ _),
      Act.runOn_bind_ok hwritable, Act.runOn_bind_ok (Mounted.runOn_onVolume_ok happend)]
    rfl
  · show MemoryLog.mk l.first _ = MemoryLog.mk l₁.first (entriesFrom l₁.first start rows')
    rw [hentries, hfirst]

/-- One entry after the other goes to both logs, until one does not continue them. -/
theorem Mirrors.runOn_pushAll {es : List Entry} (h : Mirrors v.disk home l m)
    (hes : ∀ e ∈ es, e.Fits) :
    ∃ r l' v' m', (MemoryLog.append es).runOn m = (r, m') ∧
      (pushAll es).runOn ⟨l, v⟩ = (r.map fun n => (n, none), ⟨l', v'⟩) ∧
      Mirrors v'.disk home l' m' := by
  -- the induction is on the batch, with the logs as the entries before have left them
  induction es generalizing l v m with
  | nil => exact ⟨.ok 0, l, v, m, rfl, rfl, h⟩
  | cons e es ih =>
    have hlast := h.last_eq
    by_cases hindex : e.index = l.last + 1
    · obtain ⟨l₁, v₁, hpush, -, h₁, -⟩ := h.runOn_push (hes e List.mem_cons_self) hindex
      obtain ⟨r, l', v', m', hmemory, hdisk, h'⟩ :=
        ih h₁ fun e he => hes e (List.mem_cons_of_mem _ he)
      refine ⟨r.map (· + 1), l', v', m', ?_, ?_, h'⟩
      -- in memory the entry is checked against the last index, which is the same on disk
      · rw [MemoryLog.append, Act.runOn_bind_ok (Act.runOn_get m), hlast,
          Act.runOn_bind_ok (Act.runOn_require_of (decide_eq_true hindex) _ _),
          Act.runOn_bind_ok (Act.runOn_modify _ m), Act.runOn_bind, hmemory]
        cases r <;> rfl
      · rw [pushAll, Act.runOn_bind_ok (Act.runOn_attempt _ _), hpush]
        dsimp only
        rw [Act.runOn_bind, hdisk]
        cases r <;> rfl
    · -- what was appended before the gap stays, in both logs
      refine ⟨.error (.violation (.appendGap l.last)), l, v, m, ?_, ?_, h⟩
      · rw [MemoryLog.append, Act.runOn_bind_ok (Act.runOn_get m), hlast, Act.runOn_bind,
          Act.runOn_require, decide_eq_false hindex]
        rfl
      · have hpush : (push e).runOn ⟨l, v⟩ = (.error (.violation (.appendGap l.last)), ⟨l, v⟩) := by
          rw [push, Act.runOn_bind_ok (Mounted.runOn_stored _), Act.runOn_bind, Act.runOn_require,
            decide_eq_false hindex]
          rfl
        rw [pushAll, Act.runOn_bind_ok (Act.runOn_attempt _ _), hpush]
        rfl

/-- A flush does nothing to the log or to the disk; only what survives a stop is settled by it. -/
theorem runOn_flush (l : SegmentedLog) (v : Volume) :
    ∃ v', flush.runOn ⟨l, v⟩ = (.ok (), ⟨l, v'⟩) ∧ v'.disk = v.disk ∧
      ∀ P : Disk → Prop, P v.disk → Volume.Passes P v v' := by
  unfold flush
  rw [Act.runOn_bind_ok (Mounted.runOn_stored _)]
  cases l.tail with
  | none => exact ⟨v, rfl, rfl, fun P hP => .refl hP⟩
  | some s =>
    obtain ⟨v', hflush, hdisk⟩ := Segment.runOn_flush (v := v) l.sync s
    exact ⟨v', Mounted.runOn_onVolume_ok hflush, hdisk, fun P hP =>
      (Segment.quiet_flush l.sync s).passes hflush hP⟩

/-- **Appending** takes the same entries on disk as in memory. -/
theorem simulates_append {es : List Entry} (hes : ∀ e ∈ es, e.Fits) :
    Simulates (MemoryLog.append es) (append es) := by
  intro v home l m h
  obtain ⟨r, l', v', m', hmemory, hdisk, h'⟩ := h.runOn_pushAll hes
  obtain ⟨v₂, hflush, hsame, -⟩ := runOn_flush l' v'
  -- nothing is flushed if nothing was appended or the batch was refused
  cases r with
  | error f =>
    refine ⟨.error f, l', v', m', hmemory, ?_, h'⟩
    rw [append, Act.runOn_bind_error hdisk]
  | ok n =>
    by_cases hn : 0 < n
    · refine ⟨.ok n, l', v₂, m', hmemory, ?_, hsame ▸ h'⟩
      rw [append, Act.runOn_bind_ok hdisk]
      dsimp only
      rw [if_pos hn, Act.runOn_bind_ok hflush]
      rfl
    · refine ⟨.ok n, l', v', m', hmemory, ?_, h'⟩
      rw [append, Act.runOn_bind_ok hdisk]
      dsimp only
      rw [if_neg hn]
      rfl

end SegmentedLog
end RaftReplica
