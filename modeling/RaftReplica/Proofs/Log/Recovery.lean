/-
RaftReplica/Proofs/Log/Recovery.lean

What a directory is opened as.  Whatever files are found there, a log that was opened without an
error has no hole, the history holds the memberships of its entries, and the files that are left
behind are opened as the same log again (`recovered`).

A log is opened in two halves.  The first reads files and may cut them, the second removes those that
end before the log's start.  `Finding.Opens.lies` says what log this leaves, `runOn_init` that files
which hold a log are opened as it, and `init_ok` that nothing else is opened at all.

A `Finding` is what the first half has found: the names, the segments that were listed, those of
them that are kept, the one to write to, and the rows of frames in their files. `f.Opens d₀ d p home
start` says of which disk this is found (`d₀`), and which disk is left when the files were cut
(`d`).  With it the theorem is put together in three steps:

* `init_ok` gets a finding from any run without an error, by following the run;
* `lies` reads the log off the finding: its rows are the frames of the segments that reach the
  start;
* `again` is a finding of the disk that is left, for the same rows, so the run can be done once more
  (`runOn_init`).

The last step is where names matter.  The files that were removed are gone from the listing, and
everything else is listed as before, perhaps in another order (`perm_named`); sorting makes up for
the order (`sealed_again`), and of a segment to write to there is at most one (`writable_again`).

The record of the start is only assumed not to tell zero, which no log writes.
-/
import RaftReplica.Proofs.Disk.Record
import RaftReplica.Proofs.Log.Opening

namespace RaftReplica

open RaftReplica.Frame Disk

namespace SegmentedLog

variable {d d' : Disk} {home : Location} {p : Path} {a b start : Nat} {v v' : Volume}
  {ss cs : List Segment} {t : Option Segment} {rows : List (List Framed)} {s : Segment}
  {l : SegmentedLog}

/-! ### The log's start -/

/-- The record in the directory tells the log's start; without one the log starts at one. -/
def Starts (d : Disk) (p : Path) (start : Nat) : Prop :=
  match (Record.read (p.entry SegmentName.recordName) d : Except Error LogStart) with
  | .ok s => s.first = start
  | .error e => e = .io .missing ∧ start = 1

theorem plain_recordName : Path.Plain SegmentName.recordName := by
  refine ⟨?_, ?_, ?_⟩ <;> decide

/-- Only the item in the place of the record counts. -/
theorem Starts.congr (h : Starts d p start) (leads : d.directoryAt p = .ok home)
    (leads' : d'.directoryAt p = .ok home)
    (hi : d'.item? (home ++ [SegmentName.recordName]) =
      d.item? (home ++ [SegmentName.recordName])) : Starts d' p start := by
  unfold Starts at h ⊢
  rwa [Record.read_congr leads plain_recordName leads' hi]

/-- The start is the one that the record tells. -/
theorem Starts.runOn_load? (h : Starts v.disk p start) : ∃ r : Option LogStart,
    (Record.load? (p.entry SegmentName.recordName)).runOn v = (.ok r, v) ∧
      (r.map LogStart.first).getD 1 = start := by
  unfold Starts at h
  rw [Record.runOn_load?]
  cases hread : (Record.read (p.entry SegmentName.recordName) v.disk : Except Error LogStart) with
  | ok s =>
    rw [hread] at h
    exact ⟨some s, rfl, h⟩
  | error e =>
    rw [hread] at h
    obtain ⟨rfl, rfl⟩ := h
    exact ⟨none, rfl, rfl⟩

/-- Reading the record changes nothing and tells the start. -/
theorem starts_of_load? {r : Option LogStart}
    (h : (Record.load? (p.entry SegmentName.recordName)).runOn v = (.ok r, v')) :
    v' = v ∧ Starts v.disk p ((r.map LogStart.first).getD 1) := by
  unfold Starts
  rw [Record.runOn_load?] at h
  cases hread : (Record.read (p.entry SegmentName.recordName) v.disk : Except Error LogStart) with
  | ok s =>
    rw [hread] at h
    obtain ⟨hr, hv⟩ := Prod.mk.inj h
    rw [← Except.ok.inj hr]
    exact ⟨hv.symm, rfl⟩
  | error e =>
    rw [hread] at h
    obtain ⟨hr, hv⟩ := Prod.mk.inj h
    refine ⟨hv.symm, ?_⟩
    -- a record that is missing counts as one that tells the first index
    split at hr
    · next he => exact absurd he (by simp)
    · next he =>
      obtain rfl := Except.ok.inj hr
      exact ⟨Except.error.inj he, rfl⟩
    · exact absurd hr (by simp)

/-! ### The segments that are found -/

/-- Every segment that is found is what a name tells. -/
theorem told_of_ofNames {names : List String} {f : Found} (h : Found.ofNames p names = .ok f) :
    (∀ s ∈ f.closed, Told p true s) ∧ ∀ s ∈ f.tail, Told p false s := by
  obtain ⟨hpos, hclosed, htail⟩ := Found.ofNames_eq_ok_iff.1 h
  -- what holds of every name that could be read holds of the segments made from them
  have htold : ∀ n ∈ Found.named names, Told p n.isSealed (n.segment p) := by
    intro n hn
    have hfirst := hpos n hn
    obtain ⟨name, -, hname⟩ := List.mem_filterMap.1 hn
    have hfits := SegmentName.fits_of_ofText? hname
    refine ⟨Segment.unread_segment p n, ?_, ?_, ?_, ?_⟩
    · cases n <;> rfl
    · cases n <;> rfl
    · have hfirst' : (n.segment p).first = n.first := by cases n <;> rfl
      omega
    · rwa [SegmentName.name_segment]
  constructor
  · intro s hs
    rw [hclosed, List.mem_mergeSort] at hs
    obtain ⟨n, hn, rfl⟩ := List.mem_map.1 hs
    obtain ⟨hn, hsealed⟩ := List.mem_filter.1 hn
    rw [← hsealed]
    exact htold n hn
  · intro s hs
    have hs : s ∈ Found.writableOf p (Found.named names) := htail ▸ Option.mem_toList.2 hs
    obtain ⟨n, hn, rfl⟩ := List.mem_map.1 hs
    obtain ⟨hn, hsealed⟩ := List.mem_filter.1 hn
    rw [Bool.not_eq_true'] at hsealed
    rw [← hsealed]
    exact htold n hn

/-! ### Findings -/

/-- What is found in a directory when a log is opened there: the names, the sealed segments that
they tell of, and of all the segments those that are loaded, with their rows, which reach from
`low` up to `high`. -/
structure Finding where
  names : List String
  listed : List Segment
  closed : List Segment
  tail : Option Segment
  rows : List (List Framed)
  low : Nat
  high : Nat

namespace Finding

variable {f : Finding} {c : Segment}

/-- The segments that are loaded, in their order. -/
def segments (f : Finding) : List Segment := f.closed ++ f.tail.toList

/-- The segments that end before the log's start; their files are removed. -/
def stale (f : Finding) (start : Nat) : List Segment :=
  f.listed.filter (·.last < start) ++ (f.tail.filter (·.last < start)).toList

/-- The findings are those of the disk `d₀`, and once the segments are loaded the disk is `d`. -/
structure Opens (f : Finding) (d₀ d : Disk) (p : Path) (home : Location) (start : Nat) : Prop where
  leads : d₀.directoryAt p = .ok home
  record : Starts d₀ p start
  start_pos : 1 ≤ start
  wellFormed : d₀.WellFormed
  list : d₀.list p = .ok f.names
  found : Found.ofNames p f.names = .ok ⟨f.listed, f.tail.map Segment.unread⟩
  kept : f.listed.filter (start ≤ ·.last) = f.closed.map Segment.unread
  rewrites : Rewrites d₀ d (f.segments.map (Segment.place home))
  holds : AllHold d home p f.segments f.rows
  closed : ∀ s ∈ f.closed, s.isOpen = false
  tail : ∀ s ∈ f.tail, s.isOpen = true
  chained : Chained f.low f.segments f.high
  low_le : f.low ≤ start
  removable : ∀ c ∈ f.stale start, d.item? (c.place home) ≠ some .directory

namespace Opens

variable (h : f.Opens d d' p home start)

include h

theorem told_listed : ∀ c ∈ f.listed, Told p true c := (told_of_ofNames h.found).1

/-- No segment that is kept ends before the start. -/
theorem start_le_last : ∀ s ∈ f.closed, start ≤ s.last := by
  intro s hs
  have hmem := List.mem_map_of_mem hs (f := Segment.unread)
  rw [← h.kept, List.mem_filter, Segment.last_unread (h.closed s hs)] at hmem
  simpa using hmem.2

/-- The name of the segment to write to is in bounds. -/
theorem fits_tail : ∀ c ∈ f.tail, c.name.Fits := by
  intro c hc
  rw [← Segment.name_unread]
  exact ((told_of_ofNames h.found).2 c.unread (Option.mem_map_of_mem _ hc)).fits

/-- The first indices of the segments kept ascend. -/
theorem pairwise_first : f.closed.Pairwise (fun s t => s.first < t.first) := by
  obtain ⟨rows, _, -, hold, -⟩ := h.holds.split
  obtain ⟨_, hc, -⟩ := chained_append_iff.1 h.chained
  apply (hold.pairwise hc).imp_of_mem
  intro s t hs _ hlt
  have hmem := List.mem_map_of_mem hs (f := Segment.unread)
  rw [← h.kept] at hmem
  have hle := (h.told_listed _ (List.mem_of_mem_filter hmem)).first_le
  rw [Segment.first_unread, Segment.last_unread (h.closed _ hs)] at hle
  exact Nat.lt_of_le_of_lt hle hlt

/-- The file of the segment to write to is one of those that were found. -/
theorem name_mem (hs : s ∈ f.tail) : s.name.text ∈ f.names := by
  obtain ⟨names, hlist, -, hmem⟩ := exists_list h.wellFormed h.leads
  obtain rfl : f.names = names := Except.ok.inj (h.list.symm.trans hlist)
  obtain ⟨fs, -, hold⟩ :=
    h.holds.exists_row (List.mem_append_right f.closed (Option.mem_toList.2 hs))
  obtain ⟨k, -, hfile⟩ := hold.file
  refine (hmem _).2 ((h.rewrites.isSome_iff _).1 ?_)
  show (d'.item? (s.place home)).isSome
  rw [hfile]
  rfl

/-- A stale segment is a sealed one that is listed, or the one to write to. -/
theorem of_mem_stale (hc : c ∈ f.stale start) : c.last < start ∧
    (c ∈ f.listed ∧ c.isOpen = false ∨ c ∈ f.tail ∧ c.isOpen = true) := by
  rcases List.mem_append.1 hc with hc | hc
  · obtain ⟨hc, hlt⟩ := List.mem_filter.1 hc
    exact ⟨by simpa using hlt, .inl ⟨hc, (h.told_listed c hc).isOpen⟩⟩
  · obtain ⟨hc, hlt⟩ := Option.mem_filter_iff.1 (Option.mem_toList.1 hc)
    exact ⟨by simpa using hlt, .inr ⟨hc, h.tail c hc⟩⟩

/-- What is removed has a name in bounds. -/
theorem fits_of_mem_stale (hc : c ∈ f.stale start) : c.name.Fits := by
  rcases (h.of_mem_stale hc).2 with ⟨hc, -⟩ | ⟨hc, -⟩
  · exact (h.told_listed c hc).fits
  · exact h.fits_tail c hc

/-- What is removed is in the directory. -/
theorem directory_of_mem_stale (hc : c ∈ f.stale start) : c.directory = p := by
  rcases (h.of_mem_stale hc).2 with ⟨hc, -⟩ | ⟨hc, -⟩
  · exact (h.told_listed c hc).directory
  · obtain ⟨fs, -, hold⟩ :=
      h.holds.exists_row (List.mem_append_right f.closed (Option.mem_toList.2 hc))
    exact hold.directory

end Opens
end Finding

/-! ### The log that is opened -/

/-- The log of the segments that were found. -/
def opened (l : SegmentedLog) (start : Nat) (f : Finding) : SegmentedLog :=
  { l with
    first := start
    last := lastOf start (after none (f.closed ++ (f.tail.filter (start ≤ ·.last)).toList))
    closed := f.closed
    tail := f.tail.filter (start ≤ ·.last) }

namespace Finding.Opens

variable {f : Finding} (h : f.Opens d d' l.directory home start)

include h

/-- The log's segments are those found that reach the start. -/
theorem segments_opened : (l.opened start f).segments = f.segments.filter (start ≤ ·.last) := by
  rw [Finding.segments, List.filter_append,
    List.filter_eq_self.2 fun s hs => by simpa using h.start_le_last s hs, ← Option.toList_filter]
  rfl

/-- No segment of the log has the name of a stale one. -/
theorem place_notMem (hs : s ∈ (l.opened start f).segments) :
    s.place home ∉ (f.stale start).map (Segment.place home) := by
  intro hmem
  obtain ⟨c, hc, hplace⟩ := List.mem_map.1 hmem
  have hname : c.name = s.name := Segment.place_inj.1 hplace
  obtain ⟨hlt, hc⟩ := h.of_mem_stale hc
  rw [h.segments_opened, List.mem_filter, decide_eq_true_eq] at hs
  obtain ⟨hs, hle⟩ := hs
  -- stale and sealed or stale and open, against kept and sealed or kept and open
  rcases hc with ⟨-, hopen⟩ | ⟨hc, hopen⟩ <;>
    rcases List.mem_append.1 hs with hs | hs
  · simp only [Segment.name, hopen, h.closed s hs] at hname
    have hlast := (SegmentName.sealed.inj hname).2
    omega
  · simp [Segment.name, hopen, h.tail s (Option.mem_toList.1 hs)] at hname
  · simp [Segment.name, hopen, h.closed s hs] at hname
  · obtain rfl : c = s := Option.mem_unique hc (Option.mem_toList.1 hs)
    omega

/-- **The log that is opened** lies in what is left once the stale files are removed, and has the
entries that were there from its start on. -/
theorem lies {d'' : Disk}
    (hclears : Clears d' d'' ((f.stale start).map (Segment.place home))) :
    ∃ a rows, (l.opened start f).Lies d'' home a rows ∧
      (l.opened start f).last + 1 = max f.high start ∧ rows <:+ f.rows ∧
      entriesFrom start a rows = entriesFrom start f.low f.rows := by
  obtain ⟨a, rows, hold, hc, -, ha, hsuffix, hentries⟩ := h.holds.keep h.chained h.low_le
  rw [← h.segments_opened] at hold hc
  have hlast : (l.opened start f).last + 1 = max f.high start :=
    lastOf_after hc ha (Nat.le_max_right _ _) h.start_pos
  have leads : d''.directoryAt l.directory = .ok home := by
    refine hclears.directoryAt ?_ (h.rewrites.directoryAt h.leads)
    intro x hx
    obtain ⟨c, hmem, rfl⟩ := List.mem_map.1 hx
    exact h.removable c hmem
  have hopen : ∀ s ∈ (l.opened start f).tail, s.isOpen = true := fun s hs =>
    h.tail s (Option.mem_filter_iff.1 hs).1
  -- the files of segments that are kept are not among those removed
  refine ⟨a, rows, ⟨hclears.wellFormed, leads, hold.congr ?_, ?_, h.closed, hopen, ha,
    ?_, h.start_pos⟩, hlast, hsuffix, hentries⟩
  · intro s hs
    exact hclears.item?_ne (h.place_notMem hs)
  · rw [hlast]
    exact hc
  · rw [hlast]
    exact Nat.le_max_right _ _

end Finding.Opens

/-- What is loaded once the sealed segments were read. -/
def Finding.sealedLoaded (f : Finding) (start : Nat) : Loaded :=
  ⟨f.closed, none, f.listed.filter (·.last < start), after none f.closed⟩

/-- What is loaded once all segments were read. -/
def Finding.loaded (f : Finding) (start : Nat) : Loaded :=
  ⟨f.closed, f.tail.filter (start ≤ ·.last), f.stale start,
    after (after none f.closed) (f.tail.filter (start ≤ ·.last)).toList⟩

/-- Up to the loading of segments nothing happens to a directory that is there. -/
theorem init_eq (leads : v.disk.directoryAt l.directory = .ok home)
    (hrecord : Starts v.disk l.directory start) {names : List String}
    (hlist : v.disk.list l.directory = .ok names) {found : Found}
    (hfound : Found.ofNames l.directory names = .ok found) (hist : MembershipHistory) :
    l.init.runOn ⟨hist, v⟩ = (do
      let done ← loadClosed start {} found.closed
      let done ← loadTail start done found.tail
      Mounted.onVolume (unlinkAll done.doomed)
      return { l with
        first := start
        last := lastOf start done.next
        closed := done.closed
        tail := done.tail }).runOn ⟨hist, v⟩ := by
  obtain ⟨r, hload, hr⟩ := hrecord.runOn_load?
  have hlook : (Volume.look (·.list l.directory)).runOn v = (.ok names, v) :=
    Volume.runOn_look_ok hlist
  rw [init, Act.runOn_bind_ok
    (Mounted.runOn_onVolume_ok (m := ⟨hist, v⟩) (Volume.runOn_makeDirectories leads))]
  show Act.runOn (Mounted.onVolume (Record.load? _) >>= _) _ = _
  rw [Act.runOn_bind_ok (Mounted.runOn_onVolume_ok hload), hr,
    Act.runOn_bind_ok (Mounted.runOn_onVolume_ok hlook),
    Act.runOn_bind_ok (Act.runOn_ofExcept_ok hfound _)]

/-- If the segment to write to is loaded, perhaps without the end of its file, the log is opened and
its stale files are removed one after the other. -/
theorem runOn_init_of_loadTail {f : Finding} {v₁ : Volume}
    (h : f.Opens v.disk v₁.disk l.directory home start) {more : List (List Framed)}
    (hrows : f.rows = rows ++ more) (hold : AllHold v.disk home l.directory f.closed rows)
    (htail : ∀ hist : MembershipHistory, Ascending (hist.entries ++ Segment.told more.flatten) →
      (loadTail start (f.sealedLoaded start) (f.tail.map Segment.unread)).runOn ⟨hist, v⟩ =
        (.ok (f.loaded start), ⟨hist.heard (Segment.told more.flatten), v₁⟩)) :
    ∃ m', l.init.runOn ⟨.empty, v⟩ = (.ok (l.opened start f), m') ∧
      m'.store = .heard .empty (Segment.told f.rows.flatten) ∧
      Clears v₁.disk m'.volume.disk ((f.stale start).map (Segment.place home)) ∧
      Volume.Passes (fun d => ∃ gone, gone <+: f.stale start ∧
        Clears v₁.disk d (gone.map (Segment.place home))) v₁ m'.volume := by
  obtain ⟨hrow, -⟩ := h.holds.row h.chained
  obtain ⟨c, hc, -⟩ := chained_append_iff.1 h.chained
  rw [hrows] at hrow ⊢
  -- the history hears of both rows in their order, and so it takes them
  have hasc : Ascending (Segment.told rows.flatten ++ Segment.told more.flatten) := by
    rw [← Segment.told_append, ← List.flatten_append]
    exact (Segment.index_told hrow).2
  obtain ⟨v', hunlink, hclears, hpass⟩ := runOn_unlinkAll h.rewrites.wellFormed
    (h.rewrites.directoryAt h.leads) (fun c => h.directory_of_mem_stale) h.removable
  have hlow : Continues none start f.low := h.low_le
  let h₁ : MembershipHistory := .heard .empty (Segment.told rows.flatten)
  let h₂ : MembershipHistory := h₁.heard (Segment.told more.flatten)
  have hclosed : (loadClosed start {} f.listed).runOn ⟨.empty, v⟩ =
      (.ok (f.sealedLoaded start), ⟨h₁, v⟩) :=
    runOn_loadClosed h.leads h.kept hold h.closed hc hlow (List.pairwise_append.1 hasc).1
  have htail : (loadTail start (f.sealedLoaded start) (f.tail.map Segment.unread)).runOn ⟨h₁, v⟩ =
      (.ok (f.loaded start), ⟨h₂, v₁⟩) := htail h₁ hasc
  refine ⟨⟨h₂, v'⟩, ?_, ?_, hclears, hpass⟩
  · rw [init_eq h.leads h.record h.list h.found, Act.runOn_bind_ok hclosed, Act.runOn_bind_ok htail]
    show Act.runOn (Mounted.onVolume (unlinkAll (f.stale start)) >>= _) _ = _
    rw [Act.runOn_bind_ok (Mounted.runOn_onVolume_ok (m := ⟨h₂, v₁⟩) hunlink)]
    show (Except.ok _, _) = _
    rw [opened, after_append]
    rfl
  · rw [List.flatten_append, Segment.told_append]
    exact MembershipHistory.heard_heard _ _ _

/-- **Files that hold a log are opened** as that log, and only stale files are removed. -/
theorem runOn_init {f : Finding} (h : f.Opens v.disk v.disk l.directory home start) :
    ∃ m', l.init.runOn ⟨.empty, v⟩ = (.ok (l.opened start f), m') ∧
      m'.store.entries = Segment.told f.rows.flatten ∧
      Clears v.disk m'.volume.disk ((f.stale start).map (Segment.place home)) := by
  obtain ⟨c, hc, hc'⟩ := chained_append_iff.1 h.chained
  obtain ⟨rows, more, hrows, hold, hold'⟩ := h.holds.split
  have hlow : Continues none start f.low := h.low_le
  obtain ⟨m', hrun, hstore, hclears, -⟩ := runOn_init_of_loadTail h hrows hold
    fun hist hasc => runOn_loadTail h.leads hold' hc' (hlow.after hc) rfl hasc
  exact ⟨m', hrun, congrArg MembershipHistory.entries hstore, hclears⟩

/-! ### Opening again -/

namespace Finding.Opens

variable {f : Finding} {d'' : Disk} {x : String} (h : f.Opens d d' l.directory home start)

include h

/-- Nothing but the name of a stale segment leads to the place of one. -/
theorem name_of_place_mem (hx : home ++ [x] ∈ (f.stale start).map (Segment.place home)) :
    ∃ c ∈ f.stale start, SegmentName.ofText? x = some c.name := by
  obtain ⟨c, hc, hplace⟩ := List.mem_map.1 hx
  obtain rfl : c.name.text = x := append_name_inj.1 hplace
  exact ⟨c, hc, SegmentName.ofText?_text (h.fits_of_mem_stale hc)⟩

variable (hclears : Clears d' d'' ((f.stale start).map (Segment.place home)))

include hclears

theorem leads_clears : d''.directoryAt l.directory = .ok home := by
  obtain ⟨_, _, hlies, -⟩ := h.lies hclears
  exact hlies.leads

/-- The record is still there. -/
theorem record_clears : Starts d'' l.directory start := by
  apply h.record.congr h.leads (h.leads_clears hclears)
  have hne (s : Segment) : s.place home ≠ home ++ [SegmentName.recordName] := fun he =>
    SegmentName.text_ne_recordName s.name (append_name_inj.1 he)
  rw [hclears.item?_ne, h.rewrites.elsewhere]
  · intro hmem
    obtain ⟨s, -, hs⟩ := List.mem_map.1 hmem
    exact hne s hs
  · intro hmem
    obtain ⟨s, -, hs⟩ := List.mem_map.1 hmem
    exact hne s hs

/-- The names that are left are those that were found, without those of the stale segments. -/
theorem exists_names : ∃ names, d''.list l.directory = .ok names ∧ names.Perm
    (f.names.filter fun x => home ++ [x] ∉ (f.stale start).map (Segment.place home)) := by
  obtain ⟨names, hlist, hnodup, hmem⟩ := exists_list hclears.wellFormed (h.leads_clears hclears)
  obtain ⟨names₀, hlist₀, hnodup₀, hmem₀⟩ := exists_list h.wellFormed h.leads
  obtain rfl : f.names = names₀ := Except.ok.inj (h.list.symm.trans hlist₀)
  refine ⟨names, hlist, (List.perm_ext_iff_of_nodup hnodup (hnodup₀.filter _)).2 ?_⟩
  intro x
  rw [hmem, List.mem_filter, hmem₀, ← h.rewrites.isSome_iff, decide_eq_true_eq, hclears.item?]
  split
  · next hx => simp [hx]
  · next hx => simp [hx]

section

variable {names : List String} (hperm : names.Perm
  (f.names.filter fun x => home ++ [x] ∉ (f.stale start).map (Segment.place home)))

include hperm

omit h hclears in
/-- No name is new. -/
theorem named_subset : ∀ n ∈ Found.named names, n ∈ Found.named f.names := by
  intro n hn
  obtain ⟨x, hx, hxn⟩ := Found.mem_named.1 hn
  exact Found.mem_named.2 ⟨x, List.mem_of_mem_filter (hperm.subset hx), hxn⟩

omit hclears in
/-- The names that are left tell of the same segments, but for the stale ones. -/
theorem perm_named {r : SegmentName → Bool}
    (hr : ∀ c ∈ f.stale start, r c.name = false) :
    ((Found.named names).filter r).Perm ((Found.named f.names).filter r) := by
  have hsame : (Found.named (f.names.filter fun x =>
      home ++ [x] ∉ (f.stale start).map (Segment.place home))).filter r =
      (Found.named f.names).filter r := by
    apply Found.filter_named
    intro x _ n hxn hrn
    rw [decide_eq_true_eq]
    intro hplace
    obtain ⟨c, hc, hxc⟩ := h.name_of_place_mem hplace
    obtain rfl : n = c.name := Option.some.inj (hxn.symm.trans hxc)
    exact absurd hrn (by simp [hr c hc])
  rw [← hsame]
  exact (hperm.filterMap SegmentName.ofText?).filter r

omit hclears in
/-- The sealed segments that the names tell of are the same from the log's start on. -/
theorem sealed_again :
    ((Found.sealedOf l.directory (Found.named names)).mergeSort fun a b => a.first ≤ b.first).filter
      (start ≤ ·.last) = f.closed.map Segment.unread := by
  obtain ⟨-, hlisted, -⟩ := Found.ofNames_eq_ok_iff.1 h.found
  have hlisted : f.listed = _ := hlisted
  let r (n : SegmentName) : Bool :=
    n.isSealed && decide (start ≤ (n.segment l.directory).last)
  have hr : ∀ c ∈ f.stale start, r c.name = false := by
    intro c hc
    show (c.name.isSealed && decide (start ≤ (c.name.segment l.directory).last)) = false
    obtain ⟨hlt, ⟨hc, hopen⟩ | ⟨-, hopen⟩⟩ := h.of_mem_stale hc
    · have hsegment : c.name.segment l.directory = c := by
        rw [← (h.told_listed c hc).directory]
        exact (h.told_listed c hc).unread
      rw [hsegment, decide_eq_false (by omega), Bool.and_false]
    · rw [SegmentName.isSealed_name, hopen]
      rfl
  have hsegments := (h.perm_named hperm hr).map (SegmentName.segment l.directory)
  rw [← Found.filter_sealedOf (start ≤ ·.last), ← Found.filter_sealedOf (start ≤ ·.last)]
    at hsegments
  refine Found.eq_of_perm ?_ ((Found.pairwise_sorted _).filter _) ?_
  · rw [← h.kept, hlisted]
    exact ((List.mergeSort_perm _ _).filter _).trans
      (hsegments.trans ((List.mergeSort_perm _ _).filter _).symm)
  · refine List.pairwise_map.2 (h.pairwise_first.imp ?_)
    intro s t hlt
    rwa [Segment.first_unread, Segment.first_unread]

omit hclears in
/-- So is the segment to write to, if it reaches the log's start. -/
theorem writable_again : ((f.tail.filter (start ≤ ·.last)).map Segment.unread).toList =
    Found.writableOf l.directory (Found.named names) := by
  obtain ⟨-, -, hwritable⟩ := Found.ofNames_eq_ok_iff.1 h.found
  have hwritable : (f.tail.map Segment.unread).toList = _ := hwritable
  -- without the name of a segment to write to there is none
  have hnone (hall : ∀ n ∈ Found.named names, n.isSealed = true) :
      [] = Found.writableOf l.directory (Found.named names) := by
    rw [Found.writableOf, List.filter_eq_nil_iff.2 fun n hn => by simp [hall n hn], List.map_nil]
  cases htail : f.tail with
  | none =>
    rw [htail] at hwritable
    apply hnone
    intro n hn
    by_contra hn'
    have hmem : n.segment l.directory ∈ Found.writableOf l.directory (Found.named f.names) :=
      List.mem_map_of_mem (List.mem_filter.2 ⟨named_subset hperm n hn, by simpa using hn'⟩)
    rw [← hwritable] at hmem
    exact absurd hmem List.not_mem_nil
  | some s =>
    have hs : s ∈ f.tail := htail
    rw [htail] at hwritable
    by_cases hkeep : start ≤ s.last
    · have hr : ∀ c ∈ f.stale start, (!c.name.isSealed) = false := by
        intro c hc
        obtain ⟨hlt, ⟨-, hopen⟩ | ⟨hc, -⟩⟩ := h.of_mem_stale hc
        · rw [SegmentName.isSealed_name, hopen]
          rfl
        · obtain rfl : c = s := Option.mem_unique hc hs
          omega
      have hsegments :=
        (h.perm_named (r := (!·.isSealed)) hperm hr).map (SegmentName.segment l.directory)
      rw [Option.filter_some, if_pos (by simpa using hkeep)]
      have hone : Found.writableOf l.directory (Found.named f.names) = [s.unread] := hwritable.symm
      refine (List.perm_singleton.1 ?_).symm
      rw [← hone]
      exact hsegments
    · rw [Option.filter_some, if_neg (by simpa using hkeep)]
      apply hnone
      intro n hn
      -- the file that was loaded has the one name of a segment to write to, and is removed
      by_contra hn'
      obtain ⟨x, hx, hxn⟩ := Found.mem_named.1 hn
      obtain ⟨hx, hplace⟩ := List.mem_filter.1 (hperm.subset hx)
      have hname : SegmentName.ofText? s.name.text = some s.name :=
        SegmentName.ofText?_text (h.fits_tail s hs)
      have hlen : (Found.writableOf l.directory (Found.named f.names)).length ≤ 1 := by
        rw [← hwritable]
        exact Nat.le_refl 1
      have hsame : x = s.name.text :=
        Found.eq_of_writable hlen hx (h.name_mem hs) hxn hname (by simpa using hn')
          (by rw [SegmentName.isSealed_name, h.tail s hs]; rfl)
      rw [decide_eq_true_eq, hsame] at hplace
      refine hplace (List.mem_map.2 ⟨s, List.mem_append_right _ ?_, rfl⟩)
      rw [Option.mem_toList]
      exact Option.mem_filter_iff.2 ⟨hs, by simpa using hkeep⟩

end

/-- **What a log was opened from is opened again** as the same log. -/
theorem again : ∃ f' : Finding, f'.Opens d'' d'' l.directory home start ∧ f'.closed = f.closed ∧
    f'.tail = f.tail.filter (start ≤ ·.last) ∧
    entriesFrom start f'.low f'.rows = entriesFrom start f.low f.rows := by
  obtain ⟨a, rows, hlies, -, -, hentries⟩ := h.lies hclears
  obtain ⟨names, hlist, hperm⟩ := h.exists_names hclears
  let listed := (Found.sealedOf l.directory (Found.named names)).mergeSort
    fun s t => s.first ≤ t.first
  let f' : Finding := ⟨names, listed, f.closed, f.tail.filter (start ≤ ·.last), rows, a,
    (l.opened start f).last + 1⟩
  have hfound : Found.ofNames l.directory names = .ok ⟨listed, f'.tail.map Segment.unread⟩ := by
    obtain ⟨hpos, -⟩ := Found.ofNames_eq_ok_iff.1 h.found
    exact Found.ofNames_eq_ok_iff.2
      ⟨fun n hn => hpos n (named_subset hperm n hn), rfl, h.writable_again hperm⟩
  refine ⟨f', ⟨hlies.leads, h.record_clears hclears, h.start_pos, hlies.wellFormed, hlist, hfound,
    h.sealed_again hperm, .refl hlies.wellFormed _, hlies.holds, h.closed, hlies.tail,
    hlies.chained, hlies.start_le, ?_⟩, rfl, rfl, hentries⟩
  intro c hc
  -- what is stale now was stale before, and so was removed
  have hstale : c ∈ f.stale start := by
    rcases List.mem_append.1 hc with hc | hc
    · obtain ⟨hc, hlt⟩ := List.mem_filter.1 hc
      obtain ⟨n, hn, rfl⟩ := List.mem_map.1 ((List.mergeSort_perm _ _).subset hc)
      obtain ⟨hn, hsealed⟩ := List.mem_filter.1 hn
      obtain ⟨-, hlisted, -⟩ := Found.ofNames_eq_ok_iff.1 h.found
      refine List.mem_append_left _ (List.mem_filter.2 ⟨?_, hlt⟩)
      rw [show f.listed = _ from hlisted, List.mem_mergeSort]
      exact List.mem_map_of_mem (List.mem_filter.2 ⟨named_subset hperm n hn, hsealed⟩)
    · obtain ⟨hc, hlt⟩ := Option.mem_filter_iff.1 (Option.mem_toList.1 hc)
      obtain ⟨-, hle⟩ := Option.mem_filter_iff.1 hc
      simp only [decide_eq_true_eq] at hlt hle
      omega
  rw [hclears.item?, if_pos (List.mem_map_of_mem hstale)]
  simp

end Finding.Opens

/-! ### What opening without an error means -/

/-- A log does not start at zero unless the record says so. -/
theorem Starts.pos (h : Starts d p start)
    (hrecord : ∀ s : LogStart,
      Record.read (p.entry SegmentName.recordName) d = .ok s → 1 ≤ s.first) : 1 ≤ start := by
  unfold Starts at h
  cases hread : (Record.read (p.entry SegmentName.recordName) d : Except Error LogStart) with
  | ok s =>
    rw [hread] at h
    exact h ▸ hrecord s hread
  | error e =>
    rw [hread] at h
    omega

/-- **A log that was opened without an error** is that of findings that are as they should be. -/
theorem init_ok {l₀ : SegmentedLog} {m' : Mounted MembershipHistory} (hw : v.disk.WellFormed)
    (hrecord : ∀ s : LogStart, Record.read l₀.startFile
      ((Volume.makeDirectories l₀.directory).runOn v).2.disk = .ok s → 1 ≤ s.first)
    (h : l₀.init.runOn ⟨.empty, v⟩ = (.ok l, m')) :
    ∃ (f : Finding) (d d' : Disk) (home : Location) (start : Nat),
      f.Opens d d' l₀.directory home start ∧ l = l₀.opened start f ∧
      m'.store.entries = Segment.told f.rows.flatten ∧
      Clears d' m'.volume.disk ((f.stale start).map (Segment.place home)) := by
  -- the run is taken apart bind by bind, from the directory to the files removed
  obtain ⟨_, m₁, hrun₁, hload⟩ := Act.eq_ok_of_bind h
  obtain ⟨v₁, hmake, rfl⟩ := Mounted.eq_ok_of_onVolume hrun₁
  have hw₁ : ((Volume.makeDirectories l₀.directory).runOn v).2.disk.WellFormed :=
    Volume.preserves_makeDirectories l₀.directory v hw
  rw [show (Volume.makeDirectories l₀.directory).runOn v = _ from hmake] at hrecord hw₁
  obtain ⟨r, m₂, hrun₂, hlook⟩ := Act.eq_ok_of_bind hload
  obtain ⟨v₂, hread, rfl⟩ := Mounted.eq_ok_of_onVolume hrun₂
  obtain ⟨rfl, hstart⟩ := starts_of_load? hread
  have hpos := hstart.pos hrecord
  dsimp only at hlook hstart hpos hw₁
  generalize (r.map LogStart.first).getD 1 = start at hstart hpos hlook
  -- nothing was changed yet but for the directories, and what is found comes from this disk
  obtain ⟨names, m₃, hrun₃, hnames⟩ := Act.eq_ok_of_bind hlook
  obtain ⟨v₃, hlook₃, rfl⟩ := Mounted.eq_ok_of_onVolume hrun₃
  obtain ⟨hlist, rfl⟩ := Volume.eq_ok_of_look hlook₃
  obtain ⟨home, leads⟩ := directoryAt_of_list hlist
  obtain ⟨g, m₄, hrun₄, hloads⟩ := Act.eq_ok_of_bind hnames
  obtain ⟨hfound, rfl⟩ := Act.eq_ok_of_ofExcept hrun₄
  obtain ⟨htold, htold'⟩ := told_of_ofNames hfound
  obtain ⟨done, m₅, hrun₅, htail⟩ := Act.eq_ok_of_bind hloads
  obtain ⟨a, b, ss, rows, hkept, hold, hss, -, hc, ha, rfl, hstore, -, hrewrites⟩ :=
    loadClosed_ok hw₁ leads htold hrun₅
  obtain ⟨done', m₆, hrun₆, hunlink⟩ := Act.eq_ok_of_bind htail
  obtain ⟨a', b', u, more, hu, hold', hopen, hc', ha', rfl, hstore', -, hrewrites'⟩ :=
    loadTail_ok hrewrites.wellFormed (hrewrites.directoryAt leads) htold' rfl hrun₆
  obtain ⟨_, m₇, hrun₇, hend⟩ := Act.eq_ok_of_bind hunlink
  obtain ⟨v₇, hremove, rfl⟩ := Mounted.eq_ok_of_onVolume hrun₇
  obtain ⟨hl, rfl⟩ := Prod.mk.inj hend
  obtain ⟨low, hlow, hchain⟩ := ha.join hc ha' hc'
  let f : Finding := ⟨names, g.closed, ss, u, rows ++ more, low, b'⟩
  have hboth : Rewrites v₃.disk m₆.volume.disk (f.segments.map (Segment.place home)) := by
    rw [Finding.segments, List.map_append]
    exact hrewrites.trans hrewrites'
  -- the file of the segment to write to is none of the sealed ones
  have hall : AllHold m₆.volume.disk home l₀.directory f.segments f.rows := by
    refine (hold.congr fun s hs => hrewrites'.elsewhere _ ?_).append hold'
    intro hmem
    obtain ⟨c, hmem, hplace⟩ := List.mem_map.1 hmem
    have hname := Segment.place_inj.1 hplace
    simp [Segment.name, hss s hs, hopen c (Option.mem_toList.1 hmem)] at hname
  have hdir : ∀ c ∈ f.stale start, c.directory = l₀.directory := by
    intro c hmem
    rcases List.mem_append.1 hmem with hmem | hmem
    · exact (htold c (List.mem_of_mem_filter hmem)).directory
    · have hmem := (Option.mem_filter_iff.1 (Option.mem_toList.1 hmem)).1
      obtain ⟨fs, -, hold⟩ := hold'.exists_row (Option.mem_toList.2 hmem)
      exact hold.directory
  obtain ⟨hremovable, hclears⟩ :=
    unlinkAll_ok hboth.wellFormed (hboth.directoryAt leads) hdir hremove
  refine ⟨f, v₃.disk, m₆.volume.disk, home, start, ⟨leads, hstart, hpos, hw₁, hlist, ?_, hkept,
    hboth, hall, hss, hopen, hchain, hlow, hremovable⟩, ?_, ?_, hclears⟩
  · show _ = Except.ok (Found.mk g.closed (Option.map Segment.unread u))
    rw [← hu]
    exact hfound
  · rw [opened, after_append]
    exact (Except.ok.inj hl).symm
  · rw [hstore', hstore, MembershipHistory.heard_heard, ← Segment.told_append,
      ← List.flatten_append]
    rfl

/-- The log is the row `es`: every index of its range has its entry, and no other index has one. -/
structure Reads (l : SegmentedLog) (d : Disk) (es : List Entry) : Prop where
  length : l.first + es.length = l.last + 1
  inside : ∀ i, l.first ≤ i → i ≤ l.last → ∃ e, es[i - l.first]? = some e ∧
    l.get i d = .ok (some e) ∧ e.index = i ∧ l.term i = .ok e.term
  outside : ∀ i, ¬ (l.first ≤ i ∧ i ≤ l.last) → l.get i d = .ok none ∧ l.term i = .ok 0

/-- What lies in a directory is read without a hole. -/
theorem Lies.reads (h : l.Lies d home start rows) :
    l.Reads d (entriesFrom l.first start rows) := by
  have hlen := h.length_entries
  have hle := h.first_le
  refine ⟨by omega, ?_, ?_⟩
  · intro i hfirst hlast
    obtain ⟨e, he⟩ : ∃ e, (entriesFrom l.first start rows)[i - l.first]? = some e := by
      rw [List.getElem?_eq_getElem (by omega)]
      exact ⟨_, rfl⟩
    have hindex := h.index_eq he
    refine ⟨e, he, ?_, by omega, ?_⟩
    · rw [h.get, if_pos hfirst, he]
    · rw [h.term, if_pos hfirst, he]
      rfl
  · intro i hout
    have hnone : (if l.first ≤ i then (entriesFrom l.first start rows)[i - l.first]? else none) =
        none := by
      split
      · rw [List.getElem?_eq_none_iff]
        omega
      · rfl
    rw [h.get, h.term, hnone]
    exact ⟨rfl, rfl⟩

/-- **A log that was opened without an error has no hole**, whatever its directory held: each index
of its range has its entry.  The history ascends and has, from the log's start on, just the
memberships of those entries.  Opening what was left behind gives the same entries again.

Every disk that was made by calls is well-formed, by `wellFormed_replay`. -/
theorem recovered {l₀ : SegmentedLog} {m : Mounted MembershipHistory} (hw : v.disk.WellFormed)
    (hrecord : ∀ s : LogStart, Record.read l₀.startFile
      ((Volume.makeDirectories l₀.directory).runOn v).2.disk = .ok s → 1 ≤ s.first)
    (h : l₀.init.runOn ⟨.empty, v⟩ = (.ok l, m)) :
    ∃ es, l.Reads m.volume.disk es ∧ Ascending m.store.entries ∧
      m.store.entries.filter (l.first ≤ ·.index) = Segment.memberships es ∧
      ∀ l₁ : SegmentedLog, l₁.directory = l₀.directory →
        ∃ l' m', l₁.init.runOn ⟨.empty, m.volume.restarted⟩ = (.ok l', m') ∧
          l'.first = l.first ∧ l'.last = l.last ∧ l'.Reads m'.volume.disk es := by
  obtain ⟨f, d, d', home, start, hopens, rfl, hstore, hclears⟩ := init_ok hw hrecord h
  obtain ⟨a, rows, hlies, hlast, -, hentries⟩ := hopens.lies hclears
  obtain ⟨hrow, -⟩ := hopens.holds.row hopens.chained
  refine ⟨_, hlies.reads, ?_, ?_, ?_⟩
  · rw [hstore]
    exact (Segment.index_told hrow).2
  · rw [hstore, show (l₀.opened start f).first = start from rfl, hentries]
    exact Segment.filter_told hrow start
  · intro l₁ hl₁
    obtain ⟨f', hagain, hclosed, htail, hsame⟩ := hopens.again hclears
    rw [← hl₁] at hagain
    obtain ⟨m', hrun, -, hclears'⟩ := runOn_init (v := m.volume.restarted) hagain
    obtain ⟨a', rows', hlies', -, -, hentries'⟩ := hagain.lies hclears'
    refine ⟨_, m', hrun, rfl, ?_, ?_⟩
    · show lastOf start (after none (f'.closed ++ (f'.tail.filter (start ≤ ·.last)).toList)) = _
      rw [hclosed, htail, Option.filter_filter]
      simp only [Bool.and_self]
      rfl
    · have hreads := hlies'.reads
      rw [show (l₁.opened start f').first = start from rfl, hentries', hsame, ← hentries] at hreads
      exact hreads

/-- A log that starts at three; its first two entries were dropped, but not their file, and the
write of the fourth was cut short. -/
def leftovers : Disk := Disk.empty.replay [
  .makeDirectory ["logs"],
  .create ["logs", "log_meta"],
  .write 0 0 (Record.frame (Json.encode (LogStart.mk 3))),
  .create ["logs", (SegmentName.sealed 1 2).text],
  .create ["logs", (SegmentName.writable 3).text],
  .write 2 0 (framed (.noOp 2 3)).bytes,
  .write 2 34 ((framed (.noOp 2 4)).bytes.take 20)]

/-- A directory with a record, files of older segments and a torn end. -/
theorem recovered_leftovers :
    let l₀ : SegmentedLog := { directory := .ofText "logs" }
    ∃ l m, l₀.init.runOn ⟨.empty, .ofDisk leftovers⟩ = (.ok l, m) ∧ l.first = 3 ∧ l.last = 3 ∧
      ∃ es, l.Reads m.volume.disk es ∧ Ascending m.store.entries ∧
      m.store.entries.filter (l.first ≤ ·.index) = Segment.memberships es ∧
      ∀ l₁ : SegmentedLog, l₁.directory = l₀.directory →
        ∃ l' m', l₁.init.runOn ⟨.empty, m.volume.restarted⟩ = (.ok l', m') ∧
          l'.first = l.first ∧ l'.last = l.last ∧ l'.Reads m'.volume.disk es := by
  intro l₀
  have hrange : (l₀.init.runOn ⟨.empty, .ofDisk leftovers⟩).1.toOption.map
      (fun l => (l.first, l.last)) = some (3, 3) := by decide +kernel
  have hread : Record.read l₀.startFile
      ((Volume.makeDirectories l₀.directory).runOn (.ofDisk leftovers)).2.disk =
        .ok (LogStart.mk 3) := by decide +kernel
  rcases hrun : l₀.init.runOn ⟨.empty, .ofDisk leftovers⟩ with ⟨r, m⟩
  rw [hrun] at hrange
  cases r with
  | error e => exact absurd hrange (by simp [Except.toOption])
  | ok l =>
    obtain ⟨hfirst, hlast⟩ := Prod.mk.inj (Option.some.inj hrange)
    refine ⟨l, m, rfl, hfirst, hlast, recovered (wellFormed_replay _) ?_ hrun⟩
    intro s hs
    rw [← Except.ok.inj (hread.symm.trans hs)]
    decide

end SegmentedLog
end RaftReplica
