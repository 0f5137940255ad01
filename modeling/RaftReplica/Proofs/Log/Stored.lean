/-
RaftReplica/Proofs/Log/Stored.lean

What a directory stores of a log that nobody has open.  `Stores d home p m` says that the files are
those of a log with the entries of `m`, from the start that the record tells on; there may be older
segments, whose files were not removed yet, and a write behind the last entry that was cut short.

Whoever opens such a directory has a log that mirrors `m`, and wherever the process stops meanwhile
the directory still stores `m` (`Stores.runOn_init`): opening again finds the same.

Three relations are used side by side, from the strictest to the loosest:

* `Stands d home l start rows` ties the fields of an open log to the rows on disk, which may begin
  before the log does (`start ≤ l.first`);
* `Mirrors d home l m` forgets the rows and keeps the entries, those of `m`;
* `Stores d home p m` forgets the log as well.  What is left of it is what an opening needs: the
  rows, the record, and the word that nothing else is in the directory.

Removing segments is the one change that is proved here, since it is also what an opening does: some
of the first segments (`clearedFront`) or some of the last (`clearedBack`) are gone, and what is
left is a log again.  `Simulates` is the statement that each call is proved to satisfy in the modules
that follow.
-/
import RaftReplica.Log.Store
import RaftReplica.Proofs.Disk.Outside
import RaftReplica.Proofs.Log.Neat
import RaftReplica.Proofs.Ordered

namespace RaftReplica

open RaftReplica.Frame Disk

namespace SegmentedLog

variable {d d' d₀ : Disk} {home : Location} {p : Path} {start n : Nat} {v v₁ : Volume}
  {ss gone kept : List Segment} {rows : List (List Framed)} {s : Segment} {l l₁ : SegmentedLog}
  {m : MemoryLog}

/-! ### Some of the segments -/

/-- Segments that are left of those of a log, as the sealed ones and the one to write to. -/
theorem exists_parts (h : ss.Sublist l.segments) : ∃ (closed : List Segment) (tail : Option Segment),
    ss = closed ++ tail.toList ∧ (∀ x ∈ closed, x ∈ l.closed) ∧ ∀ x ∈ tail, x ∈ l.tail := by
  obtain ⟨closed, rest, rfl, hclosed, hrest⟩ := List.sublist_append_iff.1 h
  have hone : l.tail.toList.length ≤ 1 := by cases l.tail <;> simp
  obtain ⟨tail, rfl⟩ := Found.exists_toList (Nat.le_trans hrest.length_le hone)
  refine ⟨closed, tail, rfl, fun x hx => hclosed.subset hx, fun x hx => ?_⟩
  exact Option.mem_toList.1 (hrest.subset (Option.mem_toList.2 hx))

/-- A chain of segments that start at an index or behind it, and that ends there, starts there. -/
theorem Chained.ge {a b : Nat} (hc : Chained a ss b) (hss : ∀ s ∈ ss, n ≤ s.first) (hb : n ≤ b) :
    n ≤ a := by
  cases ss with
  | nil => exact Nat.le_trans hb (Nat.le_of_eq hc.symm)
  | cons s ss => exact hc.1 ▸ hss s List.mem_cons_self

/-- A chain of segments that end before an index does not get past it. -/
theorem Chained.le {a b : Nat} (hc : Chained a ss b) (hss : ∀ s ∈ ss, s.last < n) (ha : a ≤ n) :
    b ≤ n := by
  induction ss generalizing a with
  | nil => exact hc ▸ ha
  | cons s ss ih =>
    exact ih hc.2 (fun t ht => hss t (List.mem_cons_of_mem _ ht)) (hss s List.mem_cons_self)

namespace Stands

variable (h : Stands d home l start rows)

include h

theorem nodup_segments : l.segments.Nodup := List.Nodup.of_map _ h.kept.nodup_names

/-- Each segment ends behind those before it, or where they do. -/
theorem pairwise_ends : l.segments.Pairwise (fun s t => s.last ≤ t.last) := by
  apply (h.holds.pairwise h.chained).imp_of_mem
  intro s t _ ht hlt
  obtain ⟨fs, -, hold⟩ := h.holds.exists_row ht
  have hend := hold.last
  omega

/-- The segments that end before an index are the first ones. -/
theorem ended_prefix (n : Nat) : l.segments.filter (·.last < n) <+: l.segments := by
  rw [← takeWhile_eq_filter]
  · exact List.takeWhile_prefix _
  · apply h.pairwise_ends.imp
    intro s t hle
    simp only [decide_eq_true_eq]
    omega

/-- **Segments are removed at the front**, and the log still holds what is in the others. -/
theorem clearedFront (hsplit : l.segments = gone ++ kept)
    (hclears : Clears d d' (gone.map (Segment.place home))) :
    ∃ l' a rows', Stands d' home l' a rows' ∧ l'.directory = l.directory ∧ l'.segments = kept ∧
      l'.last = l.last ∧ Chained start gone a ∧
      ∀ n, a ≤ n → entriesFrom n a rows' = entriesFrom n start rows := by
  have hold := h.holds
  have hc := h.chained
  have hnodup := h.nodup_segments
  rw [hsplit] at hold hc hnodup
  -- rows and ranges split where the segments do; `a` is where the kept ones begin
  obtain ⟨more, rows', rfl, hmore, hkept⟩ := hold.split
  obtain ⟨a, hgone, hc⟩ := chained_append_iff.1 hc
  have hpart : kept.Sublist l.segments := hsplit ▸ List.sublist_append_right gone kept
  obtain ⟨closed, tail, hparts, hclosed, htail⟩ := exists_parts hpart
  obtain ⟨-, hlen⟩ := hmore.row hgone
  obtain ⟨-, hlen'⟩ := hkept.row hc
  have hle := h.first_le
  have hpos := h.first_pos
  -- if nothing of what the log shows was removed, its first index stays
  let l' : SegmentedLog := { l with first := max a l.first, closed, tail }
  have hsegments : l'.segments = kept := hparts.symm
  have hlies : Lies d home l' a rows' := by
    refine ⟨h.wellFormed, h.leads, hsegments ▸ hkept, hsegments ▸ hc,
      fun x hx => h.closed x (hclosed x hx), fun x hx => h.toLies.tail x (htail x hx),
      Nat.le_max_left _ _, ?_, ?_⟩
    · show max a l.first ≤ l.last + 1
      omega
    · show 1 ≤ max a l.first
      omega
  refine ⟨l', a, rows', ?_, rfl, hsegments, rfl, hgone, ?_⟩
  · refine h.cleared hlies hclears ?_ ?_ ?_ h.bound
    · intro x hx
      rw [hsplit]
      exact List.mem_append_left _ hx
    · intro x hx
      rw [hsplit] at hx
      rw [hsegments]
      exact (List.mem_append.1 hx).symm
    · intro x hx
      rw [hsegments] at hx
      rw [hsplit]
      exact ⟨List.mem_append_right _ hx, fun hx' => List.disjoint_of_nodup_append hnodup hx' hx⟩
  · intro n hn
    -- every entry that was removed is before `a`, so none of them is dropped from the rest
    have hdrop : (more.flatten.map Framed.entry).drop (n - start) = [] := by
      apply List.drop_of_length_le
      rw [List.length_map]
      omega
    rw [entriesFrom, entriesFrom, List.flatten_append, List.map_append, List.drop_append, hdrop,
      List.nil_append, List.length_map]
    congr 1
    omega

/-- **Segments are removed at the end**, and the log reaches as far as the others do. -/
theorem clearedBack (hsplit : l.segments = kept ++ gone)
    (hclears : Clears d d' (gone.map (Segment.place home)))
    (hgone : ∀ s ∈ gone, l.first ≤ s.first) :
    ∃ l' b rows', Stands d' home l' start rows' ∧ l'.directory = l.directory ∧
      l'.first = l.first ∧ l'.last + 1 = b ∧ Chained b gone (l.last + 1) ∧ rows' <+: rows := by
  have hold := h.holds
  have hc := h.chained
  have hnodup := h.nodup_segments
  rw [hsplit] at hold hc hnodup
  -- rows and ranges split where the segments do; `b` is where the removed ones begin
  obtain ⟨rows', more, rfl, hkept, hmore⟩ := hold.split
  obtain ⟨b, hc, hrest⟩ := chained_append_iff.1 hc
  have hpart : kept.Sublist l.segments := hsplit ▸ List.sublist_append_left kept gone
  obtain ⟨closed, tail, hparts, hclosed, htail⟩ := exists_parts hpart
  obtain ⟨-, hlen⟩ := hmore.row hrest
  have hpos := h.first_pos
  have hfirst : l.first ≤ b := Chained.ge hrest hgone h.first_le
  -- here the last index moves and the first one stays, as `hgone` says
  let l' : SegmentedLog := { l with last := b - 1, closed, tail }
  have hsegments : l'.segments = kept := hparts.symm
  have hlast : l'.last + 1 = b := Nat.sub_add_cancel (by omega)
  have hlies : Lies d home l' start rows' := by
    refine ⟨h.wellFormed, h.leads, hsegments ▸ hkept, ?_,
      fun x hx => h.closed x (hclosed x hx), fun x hx => h.toLies.tail x (htail x hx),
      h.start_le, hlast ▸ hfirst, hpos⟩
    rw [hsegments, hlast]
    exact hc
  have hbound := h.bound
  refine ⟨l', b, rows', ?_, rfl, rfl, hlast, hrest, more, rfl⟩
  refine h.cleared hlies hclears ?_ ?_ ?_ ?_
  · intro x hx
    rw [hsplit]
    exact List.mem_append_right _ hx
  · intro x hx
    rw [hsplit] at hx
    rw [hsegments]
    exact List.mem_append.1 hx
  · intro x hx
    rw [hsegments] at hx
    rw [hsplit]
    exact ⟨List.mem_append_left _ hx, fun hx' => List.disjoint_of_nodup_append hnodup hx hx'⟩
  · omega

end Stands

/-! ### What a directory stores -/

/-- The log on disk holds what the one in memory does. -/
def Mirrors (d : Disk) (home : Location) (l : SegmentedLog) (m : MemoryLog) : Prop :=
  ∃ start rows, Stands d home l start rows ∧ Starts d l.directory l.first ∧
    m = ⟨l.first, entriesFrom l.first start rows⟩

/-- The disk `d₀` is `d` but for a write behind the last entry that was cut short. -/
def Frayed (d₀ d : Disk) (home : Location) (l : SegmentedLog) : Prop :=
  d₀ = d ∨ ∃ s ∈ l.tail, ∃ k bs rest, Unfinished rest ∧ rest ≠ [] ∧
    d.item? (s.place home) = some (.file k bs) ∧
    Puts d d₀ (s.place home) (some (.file k (bs ++ rest)))

/-- The files in the directory are those of a log that holds what the one in memory does. -/
def Stores (d₀ : Disk) (home : Location) (p : Path) (m : MemoryLog) : Prop :=
  ∃ d l start rows, l.directory = p ∧ Stands d home l start rows ∧ Frayed d₀ d home l ∧
    Starts d₀ p m.first ∧ start ≤ m.first ∧ m.first ≤ Numeral.max64 + 1 ∧
    m.entries = entriesFrom m.first start rows

theorem entriesFrom_congr {rows' : List (List Framed)} (h : rows'.flatten = rows.flatten) (n : Nat) :
    entriesFrom n start rows' = entriesFrom n start rows := by rw [entriesFrom, entriesFrom, h]

theorem entriesFrom_nil : entriesFrom n start [] = [] := List.drop_nil

/-- A log that stands is stored with the entries from the start that the record tells. -/
theorem Stands.stores (h : Stands d home l start rows) (hs : Starts d l.directory n)
    (hn : start ≤ n) (hmax : n ≤ Numeral.max64 + 1) :
    Stores d home l.directory ⟨n, entriesFrom n start rows⟩ :=
  ⟨d, l, start, rows, rfl, h, .inl rfl, hs, hn, hmax, rfl⟩

/-- If the record tells the first index of the log, all of the log is stored. -/
theorem Stands.stored (h : Stands d home l start rows) (hs : Starts d l.directory l.first) :
    Stores d home l.directory ⟨l.first, entriesFrom l.first start rows⟩ := by
  have hle := h.first_le
  have hbound := h.bound
  exact h.stores hs h.start_le (by omega)

theorem Mirrors.stores (h : Mirrors d home l m) : Stores d home l.directory m := by
  obtain ⟨start, rows, h, hs, rfl⟩ := h
  exact h.stored hs

/-! ### Opening it -/

/-- Stale segments are those that end before the log's start. -/
theorem Stands.places_stale {f : Finding} (h : Stands d home l start rows)
    (hlisted : f.listed = l.closed.map Segment.unread) (htail : f.tail = l.tail) :
    (f.stale n).map (Segment.place home) =
      (l.segments.filter (·.last < n)).map (Segment.place home) := by
  -- a segment that was listed and not read tells the same range by its name
  have hclosed : (l.closed.map Segment.unread).filter (·.last < n) =
      (l.closed.filter (·.last < n)).map Segment.unread := by
    rw [List.filter_map]
    refine congrArg _ (List.filter_congr fun s hs => ?_)
    show decide (s.unread.last < n) = _
    rw [Segment.last_unread (h.closed s hs)]
  have hplace : Segment.place home ∘ Segment.unread = Segment.place home := by
    funext s
    exact Segment.place_eq_of_name s.name_unread
  rw [Finding.stale, hlisted, htail, hclosed, segments, List.filter_append, List.map_append,
    List.map_append, List.map_map, hplace, Option.toList_filter]

/-- What the history hears of the files that were found. -/
theorem Finding.Opens.tells {f : Finding} (h : f.Opens d₀ d p home n) (hhigh : 1 ≤ f.high) :
    (MembershipHistory.heard .empty (Segment.told f.rows.flatten)).Tells n
      (entriesFrom n f.low f.rows) := by
  obtain ⟨hrow, -⟩ := h.holds.row h.chained
  obtain ⟨hindex, hasc⟩ := Segment.index_told hrow
  have hlow := h.holds.start_pos h.chained hhigh
  exact ⟨rfl, hasc, fun m hm => Nat.le_trans hlow (hindex m hm).1, Segment.filter_told hrow n⟩

/-- Loading segments and removing others changes nothing outside. -/
theorem outside_of_clears (hd : Rewrites d d₀ (ss.map (Segment.place home)))
    (hclears : Clears d₀ d' (gone.map (Segment.place home))) : Outside d.item? home d' := by
  refine ⟨hclears.wellFormed, fun m hm => ?_⟩
  have hnot (ts : List Segment) : m ∉ ts.map (Segment.place home) := by
    intro hmem
    obtain ⟨t, -, rfl⟩ := List.mem_map.1 hmem
    exact hm (below_entry _)
  rw [hclears.item?_ne (hnot gone), hd.elsewhere m (hnot ss)]

/-- A log is opened from its files, if the one it writes to is loaded; its stale segments are
removed, and whatever is left meanwhile stores the same. -/
theorem Stands.runOn_init_of_loadTail (h : Stands v₁.disk home l start rows)
    (hw : v.disk.WellFormed)
    (hd : Rewrites v.disk v₁.disk (l.tail.toList.map (Segment.place home)))
    (hs : Starts v.disk l.directory n) (hn : start ≤ n) (hmax : n ≤ Numeral.max64 + 1)
    (hdir : l₁.directory = l.directory)
    (htail : ∀ (done : Loaded) (hist : MembershipHistory) (a b : Nat) (more : List (List Framed)),
      AllHold v₁.disk home l.directory l.tail.toList more → Chained a l.tail.toList b →
      Continues done.next n a → done.tail = none →
      Ascending (hist.entries ++ Segment.told more.flatten) →
      (loadTail n done (l.tail.map Segment.unread)).runOn ⟨hist, v⟩ =
        (.ok ⟨done.closed, l.tail.filter (n ≤ ·.last),
          done.doomed ++ (l.tail.filter (·.last < n)).toList,
          after done.next (l.tail.filter (n ≤ ·.last)).toList⟩,
          ⟨hist.heard (Segment.told more.flatten), v₁⟩)) :
    ∃ l' m' a rows', l₁.init.runOn ⟨.empty, v⟩ = (.ok l', m') ∧ l'.directory = l.directory ∧
      l'.maxSegmentSize = l₁.maxSegmentSize ∧ l'.first = n ∧ Stands m'.volume.disk home l' a rows' ∧
      Starts m'.volume.disk l'.directory n ∧ entriesFrom n a rows' = entriesFrom n start rows ∧
      (∀ size, Neat size v₁.disk home rows → Neat size m'.volume.disk home rows') ∧
      m'.store.Tells n (entriesFrom n start rows) ∧ Outside v.disk.item? home m'.volume.disk ∧
      Volume.Passes (Stores · home l.directory ⟨n, entriesFrom n start rows⟩) v₁ m'.volume := by
  obtain ⟨f, hopens, hlisted, hclosed, hftail, hhigh, hsuffix, hentries⟩ :=
    h.kept.exists_opens h.tidy.unmixed hw hd hs hn
  rw [← hdir] at hopens
  obtain ⟨rows₁, more, hrows, hold, hold'⟩ := hopens.holds.split
  obtain ⟨c, hc, hc'⟩ := chained_append_iff.1 hopens.chained
  -- what is listed is sealed or the one to write to; only the latter depends on `htail`
  have hlow : Continues none n f.low := hopens.low_le
  -- the sealed segments are the same before the cut
  have hold : AllHold v.disk home l₁.directory f.closed rows₁ := by
    refine hold.congr fun s hs => ?_
    have hsame : v₁.disk.item? (s.place home) = v.disk.item? (s.place home) := by
      apply hd.elsewhere
      intro hmem
      obtain ⟨t, ht, hplace⟩ := List.mem_map.1 hmem
      have hsealed := congrArg SegmentName.isSealed (Segment.place_inj.1 hplace)
      rw [SegmentName.isSealed_name, SegmentName.isSealed_name, hopens.closed s hs,
        h.toLies.tail t (Option.mem_toList.1 ht)] at hsealed
      exact absurd hsealed (by simp)
    exact hsame.symm
  have hload : ∀ hist : MembershipHistory,
      Ascending (hist.entries ++ Segment.told more.flatten) →
      (loadTail n (f.sealedLoaded n) (f.tail.map Segment.unread)).runOn ⟨hist, v⟩ =
        (.ok (f.loaded n), ⟨hist.heard (Segment.told more.flatten), v₁⟩) := by
    intro hist hasc
    rw [hftail, Finding.loaded, Finding.stale, hftail]
    exact htail _ hist c f.high more (hdir ▸ hftail ▸ hold') (hftail ▸ hc') (hlow.after hc) rfl hasc
  obtain ⟨m', hrun, hstore, hclears, hpass⟩ :=
    SegmentedLog.runOn_init_of_loadTail hopens hrows hold hload
  obtain ⟨a, rows', hlies, hlast, hsuffix', hentries'⟩ := hopens.lies hclears
  -- the files that are removed are those of the segments that end before `n`
  have hplaces : (f.stale n).map (Segment.place home) =
      (l.segments.filter (·.last < n)).map (Segment.place home) := h.places_stale hlisted hftail
  have hmem (s : Segment) : s ∈ (l₁.opened n f).segments ↔ s ∈ l.segments ∧ n ≤ s.last := by
    rw [hopens.segments_opened, Finding.segments, hclosed, hftail, segments, List.filter_append,
      List.filter_filter, List.mem_append, List.mem_append, List.mem_filter, List.mem_filter]
    simp only [Bool.and_self, decide_eq_true_eq, ← or_and_right]
  have hbound := h.bound
  refine ⟨_, m', a, rows', hrun, hdir, rfl, rfl,
    h.alone hlies (hplaces ▸ hclears) ?_ (fun x hx => ((hmem x).1 hx).1) ?_,
    hopens.record_clears hclears, hentries'.trans hentries, fun size hneat => ?_,
    hstore ▸ hentries ▸ hopens.tells (by omega), outside_of_clears hd hclears, hpass.mono ?_⟩
  · intro x hx
    rw [hmem, List.mem_filter, decide_eq_true_eq]
    rcases Nat.lt_or_ge x.last n with hlt | hge
    · exact .inr ⟨hx, hlt⟩
    · exact .inl ⟨hx, hge⟩
  · omega
  · exact (hneat.cleared hclears).of_subset (hsuffix'.trans hsuffix).subset
  · rintro d ⟨gone, hgone, hclears⟩
    -- some of the stale segments are gone, the oldest ones first
    rw [List.prefix_iff_eq_take.1 hgone, List.map_take, hplaces, ← List.map_take] at hclears
    obtain ⟨kept, hsplit⟩ := (List.take_prefix gone.length _).trans (h.ended_prefix n)
    obtain ⟨l', a, rows', h', hdir', -, -, hc, hsame⟩ := h.clearedFront hsplit.symm hclears
    have ha : a ≤ n := Chained.le hc (fun s hs => by
      simpa using (List.mem_filter.1 (List.mem_of_mem_take hs)).2) hn
    have hs₁ : Starts v₁.disk l.directory n := by
      refine hs.congr (hd.directoryAt_before h.leads) h.leads (hd.elsewhere _ fun hmem => ?_)
      obtain ⟨t, -, hplace⟩ := List.mem_map.1 hmem
      exact SegmentName.text_ne_recordName t.name (append_name_inj.1 hplace)
    exact ⟨d, l', a, rows', hdir', h', .inl rfl,
      hs₁.cleared hclears h.leads (hdir' ▸ h'.leads), ha, hmax, (hsame n ha).symm⟩

/-- A log that holds the same entries mirrors the same log in memory. -/
theorem Stands.mirrors {a : Nat} {rows' : List (List Framed)} (h : Stands d home l a rows')
    (hfirst : l.first = n) (hs : Starts d l.directory n)
    (hentries : entriesFrom n a rows' = entriesFrom n start rows) :
    Mirrors d home l ⟨n, entriesFrom n start rows⟩ := by
  subst hfirst
  exact ⟨a, rows', h, hs, by rw [hentries]⟩

/-- Whoever opens a directory has the log that it stores, its history hears of the memberships, and
nothing else on the disk changes. -/
theorem Stores.runOn_init_telling (h : Stores v.disk home p m) (hdir : l₁.directory = p) :
    ∃ l' m', l₁.init.runOn ⟨.empty, v⟩ = (.ok l', m') ∧ l'.directory = p ∧
      Mirrors m'.volume.disk home l' m ∧ m'.store.Tells m.first m.entries ∧
      Outside v.disk.item? home m'.volume.disk ∧
      Volume.Passes (Stores · home p m) v m'.volume := by
  obtain ⟨n, es⟩ := m
  obtain ⟨d, l, start, rows, rfl, hstands, hfrayed, hs, hn, hmax, hes⟩ := h
  obtain rfl : es = entriesFrom n start rows := hes
  -- the directory is in order, or the last write was cut short
  rcases hfrayed with rfl | ⟨s, ht, k, bs, rest, hrest, hne, hfile, hput⟩
  · obtain ⟨l', m', a, rows', hrun, hdir', -, hfirst, hstands', hs', hentries, -, htells, houtside,
      hpass⟩ := hstands.runOn_init_of_loadTail hstands.wellFormed (.refl hstands.wellFormed _) hs hn
        hmax hdir fun done hist a b more hold hc ha hnone hasc =>
          runOn_loadTail hstands.leads hold hc ha hnone hasc
    exact ⟨l', m', hrun, hdir', hstands'.mirrors hfirst hs' hentries, htells, houtside, hpass⟩
  · -- the file is longer than its row, and is cut when it is loaded
    have hstored : Stores v.disk home l.directory ⟨n, entriesFrom n start rows⟩ :=
      ⟨d, l, start, rows, rfl, hstands, .inr ⟨s, ht, k, bs, rest, hrest, hne, hfile, hput⟩, hs, hn,
        hmax, rfl⟩
    have htail : l.tail = some s := ht
    have hmem : s ∈ l.segments := mem_segments.2 (.inr ht)
    obtain ⟨fs, -, hold⟩ := hstands.holds.exists_row hmem
    obtain ⟨j, -, hfile'⟩ := hold.file
    obtain ⟨rfl, rfl⟩ := Item.file.inj (Option.some.inj (hfile'.symm.trans hfile))
    have leads := hput.directoryAt hold.item?_ne_directory hstands.leads
    obtain ⟨v₁, hset, hcut⟩ := Volume.runOn_setLength hput.wellFormed hput.item?_self
      (n := (bytesOf fs).length) (by rw [List.length_append]; omega)
    rw [List.take_left] at hcut
    have hitems : v₁.disk.item? = d.item? := by
      rw [hcut.item?, hput.item?, Function.update_idem, ← hfile, Function.update_eq_self]
    have hstands₁ := hstands.congr hcut.wellFormed hitems
    have hrewrites : Rewrites v.disk v₁.disk (l.tail.toList.map (Segment.place home)) := by
      rw [htail]
      exact .of_puts hcut hput.item?_self
    obtain ⟨l', m', a, rows', hrun, hdir', -, hfirst, hstands', hs', hentries, -, htells, houtside,
      hpass⟩ := hstands₁.runOn_init_of_loadTail
      hput.wellFormed hrewrites hs hn hmax hdir fun done hist a b more hmore hc ha hnone hasc => by
        rw [htail] at hmore hc ⊢
        obtain ⟨gs, _, hs', hnil, rfl⟩ := List.forall₂_cons_left_iff.1 hmore
        obtain rfl := List.forall₂_nil_left_iff.1 hnil
        obtain ⟨rfl, -⟩ := hc
        rw [show [gs].flatten = gs from List.append_nil gs] at hasc ⊢
        -- whatever row it is that the segment holds, it is the one before the cut
        obtain ⟨i, hat, hopened, hrange⟩ := hs'.eq_opened
        obtain ⟨rfl, hbytes⟩ := Item.file.inj (Option.some.inj (hat.symm.trans hcut.item?_self))
        have hlonger : v.disk.item? (s.unread.place home) = some (.file i (bytesOf gs ++ rest)) := by
          rw [Segment.place_eq_of_name s.name_unread, hbytes]
          exact hput.item?_self
        have hload := Segment.runOn_load_unfinished (m := ⟨hist, v⟩) leads
          (by rw [Segment.directory_unread, hs'.directory]) hlonger hrest
          (by rw [Segment.first_unread]; exact hs'.row) hasc
          (by rw [Segment.first_unread]; exact hs'.first_pos) hrange hne (hbytes ▸ hset)
        rw [← hopened] at hload
        exact runOn_loadTail_of_load hload ha hnone
    refine ⟨l', m', hrun, hdir', hstands'.mirrors hfirst hs' hentries, htells, houtside,
      Volume.Passes.trans ?_ hpass⟩
    exact (Volume.atomic_setLength _ _).passes hset hstored hpass.start

/-- **Whoever opens a directory has the log that it stores**, and whatever is left if the process
stops meanwhile stores the same. -/
theorem Stores.runOn_init (h : Stores v.disk home p m) (hdir : l₁.directory = p) :
    ∃ l' m', l₁.init.runOn ⟨.empty, v⟩ = (.ok l', m') ∧ l'.directory = p ∧
      Mirrors m'.volume.disk home l' m ∧ Volume.Passes (Stores · home p m) v m'.volume := by
  obtain ⟨l', m', hrun, hdir', hmirrors, -, -, hpass⟩ := h.runOn_init_telling hdir
  exact ⟨l', m', hrun, hdir', hmirrors, hpass⟩

/-! ### Opening for the first time -/

/-- There is nothing in the directory, once it is made. -/
def Vacant (d : Disk) (p : Path) : Prop :=
  d.WellFormed ∧ ∃ v, (Volume.makeDirectories p).runOn (.ofDisk d) = (.ok (), v) ∧
    v.disk.list p = .ok []

/-- A log without segments stands in an empty directory. -/
theorem stands_of_empty (hw : d.WellFormed) (leads : d.directoryAt l.directory = .ok home)
    (hempty : d.list l.directory = .ok []) (hsegments : l.closed = [] ∧ l.tail = none)
    (hrange : l.first = 1 ∧ l.last = 0) :
    Stands d home l 1 [] ∧ Starts d l.directory 1 := by
  have hnone (name : String) : d.item? (home ++ [name]) = none :=
    (list_eq_nil_iff hw leads).1 hempty _ (below_entry name)
  -- no segment and no file: each condition is about nothing
  have hnil : l.segments = [] := by rw [segments, hsegments.1, hsegments.2]; rfl
  refine ⟨⟨⟨hw, leads, hnil ▸ .nil, ?_, ?_, ?_, ?_, ?_, ?_⟩, ?_, by rw [hnone]; simp, ?_, ?_⟩, ?_⟩
  · rw [hnil, hrange.2]
    rfl
  · simp [hsegments.1]
  · simp [hsegments.2]
  · exact Nat.le_of_eq hrange.1.symm
  · omega
  · exact Nat.le_of_eq hrange.1.symm
  · intro name hname
    rw [hnone] at hname
    exact absurd hname (by simp)
  · intro s hs
    rw [hnil] at hs
    exact absurd hs List.not_mem_nil
  · rw [hrange.2]
    exact Nat.zero_le _
  · rw [Starts, Record.read_entry leads plain_recordName, hnone]
    exact ⟨rfl, rfl⟩

/-- A log is opened as if its directory had been there before. -/
theorem runOn_init_made (hmake : (Volume.makeDirectories l₁.directory).runOn v = (.ok (), v₁))
    (leads : v₁.disk.directoryAt l₁.directory = .ok home) (hist : MembershipHistory) :
    l₁.init.runOn ⟨hist, v⟩ = l₁.init.runOn ⟨hist, v₁⟩ := by
  have hmake' : (Mounted.onVolume (Volume.makeDirectories l₁.directory)).runOn ⟨hist, v⟩ =
      (.ok (), ⟨hist, v₁⟩) := Mounted.runOn_onVolume_ok hmake
  have hagain : (Mounted.onVolume (Volume.makeDirectories l₁.directory)).runOn ⟨hist, v₁⟩ =
      (.ok (), ⟨hist, v₁⟩) := Mounted.runOn_onVolume_ok (Volume.runOn_makeDirectories leads)
  rw [init, Act.runOn_bind_ok hmake', Act.runOn_bind_ok hagain]

/-- An empty directory stores an empty log. -/
theorem exists_stores_of_empty (hw : d.WellFormed) (hempty : d.list p = .ok []) :
    ∃ home, d.directoryAt p = .ok home ∧ Stores d home p {} := by
  obtain ⟨home, leads⟩ := directoryAt_of_list hempty
  obtain ⟨hstands, hstarts⟩ := stands_of_empty (l := { directory := p }) hw leads hempty
    ⟨rfl, rfl⟩ ⟨rfl, rfl⟩
  exact ⟨home, leads, hstands.stored hstarts⟩

/-- **An empty directory is opened as an empty log.**  If the process stops before all directories
on the way to it are made, it is vacant still. -/
theorem runOn_init_empty (hw : v.disk.WellFormed)
    (hmake : (Volume.makeDirectories p).runOn v = (.ok (), v₁)) (hempty : v₁.disk.list p = .ok [])
    (hdir : l₁.directory = p) :
    ∃ home l' m', l₁.init.runOn ⟨.empty, v⟩ = (.ok l', m') ∧ l'.directory = p ∧
      Mirrors m'.volume.disk home l' {} ∧
      Volume.Passes (fun d => Vacant d p ∨ Stores d home p {}) v m'.volume := by
  have hw₁ : v₁.disk.WellFormed := by
    have hkept := Volume.preserves_makeDirectories p v hw
    rwa [hmake] at hkept
  obtain ⟨home, leads, hstores⟩ := exists_stores_of_empty hw₁ hempty
  obtain ⟨l', m', hrun, hdir', hmirrors, hpass⟩ := hstores.runOn_init hdir
  refine ⟨home, l', m', ?_, hdir', hmirrors, Volume.Passes.trans ?_ (hpass.mono fun _ => .inr)⟩
  · rw [← hrun, runOn_init_made (hdir.symm ▸ hmake) (hdir.symm ▸ leads)]
  · refine ((Volume.passes_makeDirectories hw hmake).wellFormed hw).mono ?_
    rintro d ⟨hwd, u, hagain, hsame⟩
    exact .inl ⟨hwd, u, hagain, by rw [hsame, hempty]⟩

/-! ### The last segment -/

/-- The last segment of a log, and the row that it holds. -/
theorem Lies.exists_last (h : Lies d home l start rows) (hsegments : l.segments = ss ++ [s]) :
    ∃ more fs, rows = more ++ [fs] ∧ AllHold d home l.directory ss more ∧
      Chained start ss s.first ∧ s.last = l.last ∧ s.Holds d home l.directory fs := by
  have hold := h.holds
  have hc := h.chained
  rw [hsegments] at hold hc
  obtain ⟨more, last, rfl, hmore, hlast⟩ := hold.split
  obtain ⟨fs, rest, hs, hrest, rfl⟩ := List.forall₂_cons_left_iff.1 hlast
  obtain rfl : rest = [] := List.forall₂_nil_left_iff.1 hrest
  obtain ⟨hc, hend⟩ := chained_concat_iff.1 hc
  exact ⟨more, fs, rfl, hmore, hc, by omega, hs⟩

theorem segments_of_tail (ht : l.tail = some s) : l.segments = l.closed ++ [s] := by
  rw [segments, ht]
  rfl

theorem segments_of_none (ht : l.tail = none) : l.segments = l.closed := by
  rw [segments, ht]
  exact List.append_nil _

/-! ### Calls on disk and in memory -/

/-- Logs that mirror each other end at the same index. -/
theorem Mirrors.last_eq (h : Mirrors d home l m) : m.last = l.last := by
  obtain ⟨start, rows, h, -, rfl⟩ := h
  have hlen := h.toLies.length_entries
  have hle := h.first_le
  have hpos := h.first_pos
  show l.first + (entriesFrom l.first start rows).length - 1 = l.last
  omega

/-- Whatever two logs mirror each other, the call on disk ends like the one in memory, and the logs
mirror each other afterwards. -/
def Simulates {α : Type} (onMemory : Act MemoryLog α) (onDisk : Act (Mounted SegmentedLog) α) :
    Prop :=
  ∀ (v : Volume) (home : Location) (l : SegmentedLog) (m : MemoryLog), Mirrors v.disk home l m →
    ∃ r l' v' m', onMemory.runOn m = (r, m') ∧ onDisk.runOn ⟨l, v⟩ = (r, ⟨l', v'⟩) ∧
      Mirrors v'.disk home l' m'

end SegmentedLog
end RaftReplica
