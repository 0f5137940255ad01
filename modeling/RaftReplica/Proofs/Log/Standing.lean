/-
RaftReplica/Proofs/Log/Standing.lean

A log that is alone in its directory.  Besides the files of its segments there is at most the record
of its start, and perhaps a draft of one (`Stands`), so every file that the log makes or renames
finds its place free.  A change of the disk is one of three: the record is replaced
(`runOn_saveStart`), the last segment becomes another (`changeLast`), or some segments are removed
(`cleared`); each leaves a log that stands again.

What does not depend on the log being alone is said of one that may have anything beside it
(`Kept`); it is found again by whoever opens the directory as long as nothing else has the name of a
segment (`Unmixed`).  The two halves of standing are therefore

    Stands d home l start rows  =  Kept d home l start rows  and  Tidy d home l,

and a lemma is stated for the half it needs: `exists_opens` for `Kept` and `Unmixed`, so that it
also serves a directory into which something was put by hand.

Names carry the separation.  Two sealed segments differ in the first index they tell, a sealed one
differs from the one written to in its kind, and neither is ever the name of the record or of its
draft; `nodup_names` and `item?_ne_directory` are what the changes of the disk are checked against.
-/
import RaftReplica.Proofs.Log.Recovery
import RaftReplica.Proofs.Log.Start

namespace RaftReplica

open RaftReplica.Frame Disk

namespace SegmentedLog

/-- The name is that of the log's record, of a draft of it, or of one of its segments. -/
def Owns (l : SegmentedLog) (name : String) : Prop :=
  name = SegmentName.recordName ∨ name = SegmentName.recordName ++ ".tmp" ∨
    ∃ s ∈ l.segments, name = s.name.text

/-- The log lies in its directory, with nothing but its record and a draft of it beside it. -/
structure Stands (d : Disk) (home : Location) (l : SegmentedLog) (start : Nat)
    (rows : List (List Framed)) : Prop extends Lies d home l start rows where
  only : ∀ name, (d.item? (home ++ [name])).isSome → l.Owns name
  draft : d.item? (home ++ [SegmentName.recordName ++ ".tmp"]) ≠ some .directory
  fits : ∀ s ∈ l.segments, s.name.Fits
  bound : l.last ≤ Numeral.max64

/-- The log lies in its directory, and the names of its files are read.  There may be anything beside
them. -/
structure Kept (d : Disk) (home : Location) (l : SegmentedLog) (start : Nat)
    (rows : List (List Framed)) : Prop extends Lies d home l start rows where
  fits : ∀ s ∈ l.segments, s.name.Fits
  bound : l.last ≤ Numeral.max64

/-- Nothing is in the log's directory but what is its own. -/
structure Tidy (d : Disk) (home : Location) (l : SegmentedLog) : Prop where
  leads : d.directoryAt l.directory = .ok home
  only : ∀ name, (d.item? (home ++ [name])).isSome → l.Owns name
  draft : d.item? (home ++ [SegmentName.recordName ++ ".tmp"]) ≠ some .directory

/-- Nothing has the name of a segment but the segments of the log. -/
def Unmixed (d : Disk) (home : Location) (l : SegmentedLog) : Prop :=
  ∀ name n, SegmentName.ofText? name = some n → (d.item? (home ++ [name])).isSome →
    ∃ s ∈ l.segments, name = s.name.text

variable {d d' : Disk} {home : Location} {p : Path} {start n : Nat} {v : Volume}
  {xs gone : List Segment} {rows more : List (List Framed)} {s s' t : Segment}
  {gs : List Framed} {l l' : SegmentedLog}

theorem mem_segments : s ∈ l.segments ↔ s ∈ l.closed ∨ s ∈ l.tail := by
  rw [segments, List.mem_append, Option.mem_toList]
  rfl

/-- The names of segments that are no longer there need not be owned. -/
theorem Owns.of_segments {name : String} (h : l.Owns name)
    (hs : ∀ s ∈ l.segments, name = s.name.text → ∃ t ∈ l'.segments, name = t.name.text) :
    l'.Owns name := by
  refine h.imp_right (Or.imp_right ?_)
  rintro ⟨s, hmem, he⟩
  exact hs s hmem he

theorem Stands.kept (h : Stands d home l start rows) : Kept d home l start rows :=
  ⟨h.toLies, h.fits, h.bound⟩

theorem Stands.tidy (h : Stands d home l start rows) : Tidy d home l := ⟨h.leads, h.only, h.draft⟩

theorem Kept.stands (h : Kept d home l start rows) (ht : Tidy d home l) :
    Stands d home l start rows :=
  ⟨h.toLies, ht.only, ht.draft, h.fits, h.bound⟩

/-- Alone in a directory no other file has the name of a segment. -/
theorem Tidy.unmixed (h : Tidy d home l) : Unmixed d home l := by
  intro name n hn hname
  rcases h.only name hname with rfl | rfl | hs
  · rw [SegmentName.ofText?_recordName] at hn
    exact absurd hn (by simp)
  · rw [SegmentName.ofText?_draft] at hn
    exact absurd hn (by simp)
  · exact hs

/-- All segments are in the directory of the log. -/
theorem Lies.directory_eq (h : Lies d home l start rows) (hs : s ∈ l.segments) :
    s.directory = l.directory := by
  obtain ⟨fs, -, hold⟩ := h.holds.exists_row hs
  exact hold.directory

/-- Sealed segments do not overlap. -/
theorem Lies.pairwise (h : Lies d home l start rows) :
    l.closed.Pairwise (fun s t => s.last < t.first) := by
  obtain ⟨_, _, -, hold, -⟩ := h.holds.split
  obtain ⟨_, hc, -⟩ := chained_append_iff.1 h.chained
  exact hold.pairwise hc

namespace Kept

variable (h : Kept d home l start rows)

include h

theorem first_le_last (hs : s ∈ l.closed) : s.first ≤ s.last :=
  ((Segment.fits_name_of_closed (h.closed s hs)).1 (h.fits s (mem_segments.2 (.inl hs)))).1

theorem pairwise_first : l.closed.Pairwise (fun s t => s.first < t.first) :=
  h.pairwise.imp_of_mem fun hs _ hlt => Nat.lt_of_le_of_lt (h.first_le_last hs) hlt

theorem pairwise_last : l.closed.Pairwise (fun s t => s.last < t.last) :=
  h.pairwise.imp_of_mem fun _ ht hlt => Nat.lt_of_lt_of_le hlt (h.first_le_last ht)

/-- No two segments have one name. -/
theorem nodup_names : (l.segments.map Segment.name).Nodup := by
  rw [segments, List.map_append]
  refine List.pairwise_append.2 ⟨List.pairwise_map.2 ?_, ?_, ?_⟩
  -- two sealed ones tell different ranges
  · apply h.pairwise_first.imp_of_mem
    intro s t hs ht hlt hname
    rw [Segment.name, Segment.name, h.closed _ hs, h.closed _ ht] at hname
    have hsame := (SegmentName.sealed.inj hname).1
    omega
  · cases l.tail with
    | none => exact List.Pairwise.nil
    | some t => exact List.pairwise_singleton _ _
  -- a sealed one and the one written to have names of two kinds
  · intro m hm n hn hsame
    obtain ⟨s, hs, rfl⟩ := List.mem_map.1 hm
    obtain ⟨t, ht, rfl⟩ := List.mem_map.1 hn
    have hsealed := congrArg SegmentName.isSealed hsame
    rw [SegmentName.isSealed_name, SegmentName.isSealed_name, h.closed s hs,
      h.toLies.tail t (Option.mem_toList.1 ht)] at hsealed
    exact absurd hsealed (by simp)

/-- **The last segment becomes another one**, or a first one comes; no directory is in the way. -/
theorem changeLast (hr : Segment.Replaces d d' home s s')
    (hplace : d.item? (s.place home) ≠ some .directory)
    (hplace' : d.item? (s'.place home) ≠ some .directory) (hxs : ∀ x ∈ xs, x ∈ l.closed)
    (hold : AllHold d home l.directory xs more) (hc : Chained start xs s.first)
    (hs' : s'.Holds d' home l.directory gs) (hfirst : s'.first = s.first)
    (hdir : l'.directory = l.directory) (hstart : l'.first = l.first)
    (hsegments : l'.segments = xs ++ [s']) (hlast : l'.last = s'.last)
    (hclosed : ∀ x ∈ l'.closed, x.isOpen = false) (htail : ∀ x ∈ l'.tail, x.isOpen = true)
    (hle : l'.first ≤ l'.last + 1) (hfits : s'.name.Fits) (hbound : l'.last ≤ Numeral.max64) :
    Kept d' home l' start (more ++ [gs]) := by
  have leads : d'.directoryAt l'.directory = .ok home := by
    rw [hdir]
    exact hr.directoryAt hplace hplace' h.leads
  -- the other segments are sealed and start earlier, so their files are other files
  have hother : ∀ x ∈ xs, x.name ≠ s.name ∧ x.name ≠ s'.name := by
    intro x hx
    have hopen := h.closed x (hxs x hx)
    have hxle := h.first_le_last (hxs x hx)
    have hlt := hold.last_lt hc x hx
    have hne : ∀ y : Segment, y.first = s.first → x.name ≠ y.name := by
      intro y hy hname
      cases hyopen : y.isOpen with
      | true => simp [Segment.name, hopen, hyopen] at hname
      | false =>
        simp only [Segment.name, hopen, hyopen] at hname
        have hsame := (SegmentName.sealed.inj hname).1
        omega
    exact ⟨hne s rfl, hne s' hfirst⟩
  have hsame (x : Segment) (hx : x.name ≠ s.name ∧ x.name ≠ s'.name) :
      d'.item? (x.place home) = d.item? (x.place home) :=
    hr.item?_ne (mt Segment.place_inj.1 hx.1) (mt Segment.place_inj.1 hx.2)
  -- the files of the other segments are untouched, and the last one holds its new row
  refine ⟨⟨hr.wellFormed, leads, ?_, ?_, hclosed, htail, ?_, hle, ?_⟩, ?_, hbound⟩
  · rw [hsegments, hdir]
    exact (hold.congr fun x hx => hsame x (hother x hx)).append (.cons hs' .nil)
  · rw [hsegments, hlast]
    exact chained_concat_iff.2 ⟨hfirst ▸ hc, rfl⟩
  · rw [hstart]
    exact h.start_le
  · rw [hstart]
    exact h.first_pos
  · intro x hx
    rw [hsegments] at hx
    rcases List.mem_append.1 hx with hx | hx
    · exact h.fits x (mem_segments.2 (.inl (hxs x hx)))
    · rwa [List.mem_singleton.1 hx]

end Kept

/-- The directory stays tidy when the last segment becomes another one. -/
theorem Tidy.changeLast (h : Tidy d home l) (hr : Segment.Replaces d d' home s s')
    (hl : ∀ x ∈ l.segments, x ∈ xs ∨ x = s) (leads : d'.directoryAt l'.directory = .ok home)
    (hsegments : l'.segments = xs ++ [s']) : Tidy d' home l' := by
  have hdraft (x : Segment) : home ++ [SegmentName.recordName ++ ".tmp"] ≠ x.place home :=
    fun he => SegmentName.text_ne_draft x.name (append_name_inj.1 he).symm
  refine ⟨leads, fun name hname => ?_, ?_⟩
  · -- a name that is there is that of the new segment, or was there before
    by_cases hnew : name = s'.name.text
    · refine .inr (.inr ⟨s', ?_, hnew⟩)
      rw [hsegments]
      exact List.mem_append_right _ List.mem_cons_self
    · have hne' : home ++ [name] ≠ s'.place home := fun he => hnew (append_name_inj.1 he)
      have hgone : home ++ [name] ≠ s.place home := by
        intro he
        obtain ⟨item, -, hi⟩ := hr.item?
        rw [hi, Function.update_of_ne hne', he, Function.update_self] at hname
        exact absurd hname (by simp)
      rw [hr.item?_ne hgone hne'] at hname
      apply (h.only name hname).of_segments
      rintro x hx rfl
      rw [hsegments]
      rcases hl x hx with hx | rfl
      · exact ⟨x, List.mem_append_left _ hx, rfl⟩
      · exact absurd rfl hgone
  · rw [hr.item?_ne (hdraft s) (hdraft s')]
    exact h.draft

/-- A record that can be read, or is missing, is no directory. -/
theorem Starts.item?_ne_directory (h : Starts d p n) (leads : d.directoryAt p = .ok home) :
    d.item? (home ++ [SegmentName.recordName]) ≠ some .directory := by
  intro hd
  unfold Starts at h
  rw [Record.read_entry leads plain_recordName, hd] at h
  exact absurd h.1 (by simp)

/-- Other files do not change what the record tells. -/
theorem Starts.replaced (h : Starts d p n) (hr : Segment.Replaces d d' home s s')
    (leads : d.directoryAt p = .ok home) (leads' : d'.directoryAt p = .ok home) :
    Starts d' p n := by
  have hne (x : Segment) : home ++ [SegmentName.recordName] ≠ x.place home := fun he =>
    SegmentName.text_ne_recordName x.name (append_name_inj.1 he).symm
  exact h.congr leads leads' (hr.item?_ne (hne s) (hne s'))

/-- Removing segments leaves the record of the start. -/
theorem Starts.cleared (h : Starts d p n)
    (hclears : Clears d d' (gone.map (Segment.place home)))
    (leads : d.directoryAt p = .ok home) (leads' : d'.directoryAt p = .ok home) :
    Starts d' p n := by
  refine h.congr leads leads' (hclears.item?_ne fun hmem => ?_)
  obtain ⟨x, -, hx⟩ := List.mem_map.1 hmem
  exact SegmentName.text_ne_recordName x.name (append_name_inj.1 hx)

namespace Stands

variable (h : Stands d home l start rows)

include h

/-- No directory is in the way of a segment's file. -/
theorem item?_ne_directory (x : Segment) : d.item? (x.place home) ≠ some .directory := by
  intro hd
  have hsome : (d.item? (home ++ [x.name.text])).isSome := by
    show (d.item? (x.place home)).isSome
    rw [hd]
    rfl
  -- a directory of that name could only be a file that the log owns
  rcases h.only _ hsome with he | he | ⟨s, hs, he⟩
  · exact SegmentName.text_ne_recordName _ he
  · exact SegmentName.text_ne_draft _ he
  · obtain ⟨fs, -, hold⟩ := h.holds.exists_row hs
    have hplace : x.place home = s.place home := append_name_inj.2 he
    exact hold.item?_ne_directory (hplace ▸ hd)

/-- The place of a segment that is kept is none of those that are removed. -/
theorem place_notMem (hs : s ∈ l.segments) (hgone : ∀ t ∈ gone, t ∈ l.segments)
    (hnot : s ∉ gone) : s.place home ∉ gone.map (Segment.place home) := by
  intro hmem
  obtain ⟨t, ht, hplace⟩ := List.mem_map.1 hmem
  obtain rfl := List.inj_on_of_nodup_map h.kept.nodup_names (hgone t ht) hs (Segment.place_inj.1 hplace)
  exact hnot ht

/-! ### Other disks -/

/-- Only what is in which place of the directory matters. -/
theorem elsewhere (hw : d'.WellFormed) (leads : d'.directoryAt l.directory = .ok home)
    (hi : ∀ name, d'.item? (home ++ [name]) = d.item? (home ++ [name])) :
    Stands d' home l start rows := by
  refine ⟨⟨hw, leads, h.holds.congr fun s _ => hi _, h.chained, h.closed, h.toLies.tail, h.start_le,
    h.first_le, h.first_pos⟩, fun name hname => h.only name (hi name ▸ hname), ?_, h.fits, h.bound⟩
  rw [hi]
  exact h.draft

theorem congr (hw : d'.WellFormed) (hi : d'.item? = d.item?) : Stands d' home l start rows :=
  h.elsewhere hw (directoryAt_mono (fun m hm => hi ▸ hm) h.leads) fun _ => by rw [hi]

/-- **The last segment becomes another one**, or a first one comes. -/
theorem changeLast (hr : Segment.Replaces d d' home s s')
    (hl : ∀ x ∈ l.segments, x ∈ xs ∨ x = s) (hxs : ∀ x ∈ xs, x ∈ l.closed)
    (hold : AllHold d home l.directory xs more) (hc : Chained start xs s.first)
    (hs' : s'.Holds d' home l.directory gs) (hfirst : s'.first = s.first)
    (hdir : l'.directory = l.directory) (hstart : l'.first = l.first)
    (hsegments : l'.segments = xs ++ [s']) (hlast : l'.last = s'.last)
    (hclosed : ∀ x ∈ l'.closed, x.isOpen = false) (htail : ∀ x ∈ l'.tail, x.isOpen = true)
    (hle : l'.first ≤ l'.last + 1) (hfits : s'.name.Fits) (hbound : l'.last ≤ Numeral.max64) :
    Stands d' home l' start (more ++ [gs]) := by
  have hkept := h.kept.changeLast hr (h.item?_ne_directory s) (h.item?_ne_directory s') hxs hold hc
    hs' hfirst hdir hstart hsegments hlast hclosed htail hle hfits hbound
  exact hkept.stands (h.tidy.changeLast hr hl hkept.leads hsegments)

/-- Once segments are removed, a log of the others is alone in the directory. -/
theorem alone {start' : Nat} {rows' : List (List Framed)} (h' : Lies d' home l' start' rows')
    (hclears : Clears d d' (gone.map (Segment.place home)))
    (hsegments : ∀ x ∈ l.segments, x ∈ l'.segments ∨ x ∈ gone)
    (hkept : ∀ x ∈ l'.segments, x ∈ l.segments) (hbound : l'.last ≤ Numeral.max64) :
    Stands d' home l' start' rows' := by
  refine ⟨h', ?_, ?_, fun x hx => h.fits x (hkept x hx), hbound⟩
  · intro name hname
    rw [hclears.item?] at hname
    split at hname
    · exact absurd hname (by simp)
    -- what is still there was there before, and is no file of a removed segment
    · next hnot =>
      apply (h.only name hname).of_segments
      rintro x hx rfl
      rcases hsegments x hx with hx | hx
      · exact ⟨x, hx, rfl⟩
      · exact absurd (List.mem_map_of_mem hx) hnot
  · rw [hclears.item?]
    split
    · simp
    · exact h.draft

/-- **Segments are removed**, and the others stay as they are. -/
theorem cleared {start' : Nat} {rows' : List (List Framed)} (h' : Lies d home l' start' rows')
    (hclears : Clears d d' (gone.map (Segment.place home)))
    (hgone : ∀ x ∈ gone, x ∈ l.segments)
    (hsegments : ∀ x ∈ l.segments, x ∈ l'.segments ∨ x ∈ gone)
    (hkept : ∀ x ∈ l'.segments, x ∈ l.segments ∧ x ∉ gone)
    (hbound : l'.last ≤ Numeral.max64) : Stands d' home l' start' rows' := by
  have leads : d'.directoryAt l'.directory = .ok home := by
    refine hclears.directoryAt ?_ h'.leads
    intro m hm
    obtain ⟨x, -, rfl⟩ := List.mem_map.1 hm
    exact h.item?_ne_directory x
  have hholds : AllHold d' home l'.directory l'.segments rows' := by
    refine h'.holds.congr fun x hx => hclears.item?_ne ?_
    exact h.place_notMem (hkept x hx).1 hgone (hkept x hx).2
  exact h.alone ⟨hclears.wellFormed, leads, hholds, h'.chained, h'.closed, h'.tail, h'.start_le,
    h'.first_le, h'.first_pos⟩ hclears hsegments (fun x hx => (hkept x hx).1) hbound

end Stands

/-- **A draft of the record** changes nothing. -/
theorem Stands.drafted (h : Stands d home l start rows) (hs : Starts d l.directory n)
    (hd : Record.Drafted d d' home SegmentName.recordName) :
    Stands d' home l start rows ∧ Starts d' l.directory n := by
  obtain ⟨item, hitem, hput⟩ := hd
  have leads := hput.directoryAt h.draft h.leads
  -- a draft is not a segment and not the record, so everything else is as it was
  have hother (name : String) (hname : name ≠ SegmentName.recordName ++ ".tmp") :
      d'.item? (home ++ [name]) = d.item? (home ++ [name]) :=
    hput.item?_ne (mt append_name_inj.1 hname)
  refine ⟨⟨⟨hput.wellFormed, leads, h.holds.congr fun s _ => hother _ (SegmentName.text_ne_draft _),
    h.chained, h.closed, h.toLies.tail, h.start_le, h.first_le, h.first_pos⟩, ?_, ?_, h.fits,
    h.bound⟩, hs.congr h.leads leads (hother _ (by decide))⟩
  · intro name hname
    by_cases hne : name = SegmentName.recordName ++ ".tmp"
    · exact .inr (.inl hne)
    · rw [hother name hne] at hname
      exact h.only name hname
  · rw [hput.item?_self]
    exact hitem

/-- **The record is replaced**, and everything else stays as it is; no draft is left.  Up to then the
log starts where it did. -/
theorem Stands.runOn_saveStart (h : Stands v.disk home l start rows)
    (hs : Starts v.disk l.directory n) {k : Nat} (hk : k ≤ Numeral.max64) :
    ∃ v', (saveStart k).runOn ⟨l, v⟩ = (.ok (), ⟨l, v'⟩) ∧ Stands v'.disk home l start rows ∧
      Starts v'.disk l.directory k ∧
      v'.disk.item? (home ++ [SegmentName.recordName ++ ".tmp"]) = none ∧
      Volume.Passes (fun d => (Stands d home l start rows ∧ Starts d l.directory n) ∨ d = v'.disk)
        v v' := by
  have hdraft := h.draft
  have hrecord := hs.item?_ne_directory h.leads
  obtain ⟨j, v', hsave, hw, hi, hpass⟩ := Record.runOn_save h.wellFormed h.leads plain_recordName
    (LogStart.length_encode_le hk) l.sync hdraft hrecord
  have leads := directoryAt_of_renamed hi hdraft hrecord h.leads
  have hother (name : String) (hname : name ≠ SegmentName.recordName)
      (hname' : name ≠ SegmentName.recordName ++ ".tmp") :
      v'.disk.item? (home ++ [name]) = v.disk.item? (home ++ [name]) := by
    rw [hi, Function.update_of_ne (mt append_name_inj.1 hname),
      Function.update_of_ne (mt append_name_inj.1 hname')]
  -- the draft has become the record
  have hnone : v'.disk.item? (home ++ [SegmentName.recordName ++ ".tmp"]) = none := by
    rw [hi, Function.update_of_ne (mt append_name_inj.1 (by decide)), Function.update_self]
  refine ⟨v', ?_, ⟨⟨hw, leads, h.holds.congr ?_, h.chained, h.closed, h.toLies.tail,
    h.start_le, h.first_le, h.first_pos⟩, ?_, by rw [hnone]; simp, h.fits, h.bound⟩, ?_, hnone,
    hpass.mono fun d => .imp_left (h.drafted hs)⟩
  · rw [saveStart, Act.runOn_bind_ok (Mounted.runOn_stored _)]
    exact Mounted.runOn_onVolume_ok hsave
  · intro s _
    exact hother _ (SegmentName.text_ne_recordName _) (SegmentName.text_ne_draft _)
  · intro name hname
    by_cases hrec : name = SegmentName.recordName
    · exact .inl hrec
    · have hne : name ≠ SegmentName.recordName ++ ".tmp" := by
        rintro rfl
        rw [hi, Function.update_of_ne (mt append_name_inj.1 hrec), Function.update_self] at hname
        exact absurd hname (by simp)
      rw [hother name hrec hne] at hname
      exact h.only name hname
  -- reading the record back gives what was written
  · unfold Starts
    rw [Record.read_entry leads plain_recordName, hi, Function.update_self]
    dsimp only
    rw [LogStart.parse_frame _ hk]

/-! ### Opening again -/

namespace Kept

variable (h : Kept d home l start rows)

include h

/-- The names in the directory tell of the segments of the log, and of no others. -/
theorem perm_named (ht : Unmixed d home l) {names : List String} (hnodup : names.Nodup)
    (hmem : ∀ name, name ∈ names ↔ (d.item? (home ++ [name])).isSome) :
    (Found.named names).Perm (l.segments.map Segment.name) := by
  -- only names of segments count, and these are exactly the ones the log has
  let q (name : String) : Bool := (SegmentName.ofText? name).isSome
  have hsame : Found.named (names.filter q) = Found.named names := by
    rw [Found.named, Found.named, List.filterMap_filter]
    congr 1
    funext name
    cases hn : SegmentName.ofText? name <;> simp [q, hn]
  have hperm : (names.filter q).Perm ((l.segments.map Segment.name).map SegmentName.text) := by
    refine (List.perm_ext_iff_of_nodup (hnodup.filter _)
      (h.nodup_names.map SegmentName.text_injective)).2 ?_
    intro x
    rw [List.mem_filter, hmem, Option.isSome_iff_exists (x := SegmentName.ofText? x), List.map_map,
      List.mem_map]
    constructor
    · rintro ⟨hx, n, hn⟩
      obtain ⟨s, hs, he⟩ := ht x n hn hx
      exact ⟨s, hs, he.symm⟩
    · rintro ⟨s, hs, rfl⟩
      obtain ⟨fs, -, hold⟩ := h.holds.exists_row hs
      obtain ⟨k, -, hfile⟩ := hold.file
      refine ⟨?_, _, SegmentName.ofText?_text (h.fits s hs)⟩
      show (d.item? (s.place home)).isSome
      rw [hfile]
      rfl
  rw [← hsame]
  refine (hperm.filterMap _).trans (List.Perm.of_eq ?_)
  rw [List.filterMap_map]
  refine (List.filterMap_congr ?_).trans List.filterMap_some
  intro n hn
  obtain ⟨s, hs, rfl⟩ := List.mem_map.1 hn
  exact SegmentName.ofText?_text (h.fits s hs)

/-- The names that tell a range are those of the sealed segments. -/
theorem sealedOf_names : Found.sealedOf l.directory (l.segments.map Segment.name) =
    l.closed.map Segment.unread := by
  have hclosed : (l.closed.map Segment.name).filter SegmentName.isSealed =
      l.closed.map Segment.name := by
    apply List.filter_eq_self.2
    intro n hn
    obtain ⟨s, hs, rfl⟩ := List.mem_map.1 hn
    rw [SegmentName.isSealed_name, h.closed s hs]
    rfl
  have htail : (l.tail.toList.map Segment.name).filter SegmentName.isSealed = [] := by
    apply List.filter_eq_nil_iff.2
    intro n hn
    obtain ⟨s, hs, rfl⟩ := List.mem_map.1 hn
    rw [SegmentName.isSealed_name, h.toLies.tail s (Option.mem_toList.1 hs)]
    simp
  rw [Found.sealedOf, segments, List.map_append, List.filter_append, hclosed, htail,
    List.append_nil, List.map_map]
  apply List.map_congr_left
  intro s hs
  show s.name.segment l.directory = s.name.segment s.directory
  rw [h.directory_eq (mem_segments.2 (.inl hs))]

/-- The other name, if there is one, is that of the segment written to. -/
theorem writableOf_names : Found.writableOf l.directory (l.segments.map Segment.name) =
    (l.tail.map Segment.unread).toList := by
  have hclosed : (l.closed.map Segment.name).filter (!·.isSealed) = [] := by
    apply List.filter_eq_nil_iff.2
    intro n hn
    obtain ⟨s, hs, rfl⟩ := List.mem_map.1 hn
    rw [SegmentName.isSealed_name, h.closed s hs]
    simp
  rw [Found.writableOf, segments, List.map_append, List.filter_append, hclosed, List.nil_append]
  cases htail : l.tail with
  | none => rfl
  | some t =>
    have ht : t ∈ l.tail := htail
    have hopen : (!t.name.isSealed) = true := by
      rw [SegmentName.isSealed_name, h.toLies.tail t ht]
      rfl
    show (([t.name].filter _).map _) = [t.name.segment t.directory]
    rw [List.filter_cons, if_pos hopen, h.directory_eq (mem_segments.2 (.inr ht))]
    rfl

/-- **Whoever lists the directory finds the segments of the log**; what is in their files does not
count. -/
theorem found (ht : Unmixed d home l) {d₀ : Disk} (hw : d₀.WellFormed)
    (leads : d₀.directoryAt l.directory = .ok home)
    (hsome : ∀ x, (d.item? x).isSome ↔ (d₀.item? x).isSome) : ∃ names,
    d₀.list l.directory = .ok names ∧ Found.ofNames l.directory names =
      .ok ⟨l.closed.map Segment.unread, l.tail.map Segment.unread⟩ := by
  -- a listing has some order; sorting by the first index restores that of the log
  obtain ⟨names, hlist, hnodup, hmem⟩ := exists_list hw leads
  have hperm := h.perm_named ht hnodup fun name => (hmem name).trans (hsome _).symm
  refine ⟨names, hlist, Found.ofNames_eq_ok_iff.2 ⟨?_, ?_, ?_⟩⟩
  · intro n hn
    obtain ⟨s, hs, rfl⟩ := List.mem_map.1 (hperm.subset hn)
    obtain ⟨fs, -, hold⟩ := h.holds.exists_row hs
    have hpos := hold.first_pos
    rw [SegmentName.first_name]
    omega
  · refine (Found.eq_of_perm ?_ (Found.pairwise_sorted _) (List.pairwise_map.2 ?_)).symm
    · rw [← h.sealedOf_names]
      exact (List.mergeSort_perm _ _).trans ((hperm.filter _).map _)
    · apply h.pairwise_first.imp
      intro s t hlt
      rwa [Segment.first_unread, Segment.first_unread]
  · have hwritable : (Found.writableOf l.directory (Found.named names)).Perm
        (l.tail.map Segment.unread).toList := by
      rw [← h.writableOf_names]
      exact (hperm.filter _).map _
    cases htail : l.tail.map Segment.unread with
    | none =>
      rw [htail] at hwritable
      exact (List.perm_nil.1 hwritable).symm
    | some t =>
      rw [htail] at hwritable
      exact (List.perm_singleton.1 hwritable).symm

/-- **The log is found** by whoever opens its directory, from whatever start the record tells on.  The
file of its last segment may have been longer before. -/
theorem exists_opens (ht : Unmixed d home l) {d₀ : Disk} (hw : d₀.WellFormed)
    (hd : Rewrites d₀ d (l.tail.toList.map (Segment.place home)))
    (hs : Starts d₀ l.directory n) (hn : start ≤ n) : ∃ f : Finding,
    f.Opens d₀ d l.directory home n ∧ f.listed = l.closed.map Segment.unread ∧
      f.closed = l.closed.filter (n ≤ ·.last) ∧ f.tail = l.tail ∧ f.high = l.last + 1 ∧
      f.rows <:+ rows ∧ entriesFrom n f.low f.rows = entriesFrom n start rows := by
  have leads := hd.directoryAt_before h.leads
  obtain ⟨names, hlist, hfound⟩ := h.found ht hw leads hd.isSome_iff
  -- sealed segments before the log's start are listed, but not loaded
  obtain ⟨low, rows', hold, hc, -, hlow, hsuffix, hentries⟩ := h.holds.keepFront h.chained hn
  let f : Finding := ⟨names, l.closed.map Segment.unread, l.closed.filter (n ≤ ·.last), l.tail, rows',
    low, l.last + 1⟩
  -- loading may cut the file of the segment written to, and touches no other
  have hrewrites : Rewrites d₀ d (f.segments.map (Segment.place home)) := by
    apply hd.mono
    intro x hx
    rw [Finding.segments, List.map_append]
    exact List.mem_append_right _ hx
  -- what is stale is a file of the log, under the name it was listed with
  have hremovable : ∀ c ∈ f.stale n, d.item? (c.place home) ≠ some .directory := by
    intro c hc
    obtain ⟨s, hs, hname⟩ : ∃ s ∈ l.segments, s.name = c.name := by
      rcases List.mem_append.1 hc with hc | hc
      · obtain ⟨s, hs, rfl⟩ := List.mem_map.1 (List.mem_of_mem_filter hc)
        exact ⟨s, mem_segments.2 (.inl hs), s.name_unread.symm⟩
      · have hc := (Option.mem_filter_iff.1 (Option.mem_toList.1 hc)).1
        exact ⟨c, mem_segments.2 (.inr hc), rfl⟩
    obtain ⟨fs, -, hold⟩ := h.holds.exists_row hs
    rw [← Segment.place_eq_of_name hname]
    exact hold.item?_ne_directory
  exact ⟨f, ⟨leads, hs, Nat.le_trans h.start_pos hn, hw, hlist, hfound,
    Segment.filter_unread h.closed n, hrewrites, hold, fun s hs => h.closed s (List.mem_of_mem_filter hs), h.toLies.tail, hc, hlow,
    hremovable⟩, rfl, rfl, rfl, rfl, hsuffix, hentries⟩

end Kept

end SegmentedLog
end RaftReplica
