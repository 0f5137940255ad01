/-
RaftReplica/Proofs/Log/TruncateAfter.lean

Dropping entries at the end of a log on disk.

The segments that start behind the cut are removed, the last one first, and then the segment in
which the cut lies is shortened.  The record of the start is not touched.  After each removal the
directory stores a log that ends where the next segment would have started, that is behind the
cut still (`Stands.runOn_unlinkBehind`); the shortening makes it end at the cut.

* If the cut lies in the segment to write to, its file is shortened, and that is all.
* If it lies in a sealed one, the file is shortened and then renamed, because its name tells the
  range.  Between the two a stop leaves a file that holds less than its name tells
  (`CutShort`).  Such a directory stores no log, and this is the one way in which it comes about.

So what `Volume.Passes` says here has two cases, and whoever opens the directory afterwards has to
treat both.

Main results: `Mirrors.runOn_truncateAfter`, `simulates_truncateAfter`.
-/
import Mathlib.Data.List.TakeWhile
import RaftReplica.Proofs.Log.Stored

namespace RaftReplica

open RaftReplica.Frame Disk

namespace SegmentedLog

variable {d : Disk} {home : Location} {start n : Nat} {v : Volume} {xs : List Segment}
  {rows : List (List Framed)} {s : Segment} {l : SegmentedLog} {m : MemoryLog}

/-- Only the segments and the range of a log matter. -/
theorem Stands.of_segments {l' : SegmentedLog} (h : Stands d home l start rows)
    (hdir : l'.directory = l.directory) (hfirst : l'.first = l.first)
    (hsegments : l'.segments = l.segments) (hlast : l'.last = l.last)
    (hclosed : ∀ x ∈ l'.closed, x.isOpen = false) (htail : ∀ x ∈ l'.tail, x.isOpen = true) :
    Stands d home l' start rows := by
  -- the fields speak of the segments and of the range, and these are equal
  refine ⟨⟨h.wellFormed, hdir ▸ h.leads, ?_, ?_, hclosed, htail, hfirst ▸ h.start_le, ?_,
    hfirst ▸ h.first_pos⟩, ?_, h.draft, ?_, hlast ▸ h.bound⟩
  · rw [hdir, hsegments]
    exact h.holds
  · rw [hsegments, hlast]
    exact h.chained
  · rw [hfirst, hlast]
    exact h.first_le
  · intro name hname
    apply (h.only name hname).of_segments
    intro s hs he
    rw [hsegments]
    exact ⟨s, hs, he⟩
  · rw [hsegments]
    exact h.fits

/-- The segment is a sealed one, the last of a log, and its file is cut behind `kept` already, but
its name still tells where it ended before. -/
def CutShort (d : Disk) (home : Location) (p : Path) (kept : Nat) (s : Segment) : Prop :=
  ∃ d₀ l start rows xs fs k, l.directory = p ∧ Stands d₀ home l start rows ∧
    Starts d₀ p l.first ∧ l.first ≤ kept + 1 ∧ l.closed = xs ++ [s] ∧ l.tail = none ∧
    s.Holds d₀ home p fs ∧ s.first ≤ kept ∧ kept < s.last ∧
    Puts d₀ d (s.place home) (some (.file k (bytesOf (fs.take (kept + 1 - s.first)))))

/-- If the last segment is sealed, all are. -/
theorem Stands.closed_eq (h : Stands d home l start rows) (hsegments : l.segments = xs ++ [s])
    (hsealed : s.isOpen = false) : l.closed = xs ++ [s] ∧ l.tail = none := by
  cases ht : l.tail with
  | none => exact ⟨(segments_of_none ht).symm.trans hsegments, rfl⟩
  | some t =>
    rw [segments_of_tail ht] at hsegments
    obtain ⟨-, hlast⟩ := List.append_inj' hsegments rfl
    rw [← (List.cons.inj hlast).1, h.toLies.tail t ht] at hsealed
    exact absurd hsealed (by simp)

/-- **The last segment is cut**; the log that has it in its place ends where it does.  A sealed one
is cut before its name tells so. -/
theorem Stands.runOn_truncate {kept : Nat} (h : Stands v.disk home l start rows)
    (hs : Starts v.disk l.directory l.first) (hsegments : l.segments = xs ++ [s])
    (hxs : ∀ x ∈ xs, x ∈ l.closed) (hfirst : s.first ≤ kept) (hlast : kept ≤ l.last)
    (hle : l.first ≤ kept + 1) :
    ∃ s' v' rows', (s.truncate kept).runOn v = (.ok s', v') ∧ s'.isOpen = s.isOpen ∧
      rows'.flatten = rows.flatten.take (kept + 1 - start) ∧
      Starts v'.disk l.directory l.first ∧
      (∀ size, Neat size v.disk home rows → Neat size v'.disk home rows') ∧
      (∀ l' : SegmentedLog, l'.directory = l.directory → l'.first = l.first → l'.last = kept →
        l'.segments = xs ++ [s'] → (∀ x ∈ l'.closed, x.isOpen = false) →
        (∀ x ∈ l'.tail, x.isOpen = true) → Stands v'.disk home l' start rows') ∧
      Volume.Passes (fun d => d = v.disk ∨ d = v'.disk ∨
        ∃ s ∈ l.closed, CutShort d home l.directory kept s) v v' := by
  obtain ⟨more, fs, rfl, hmore, hc, hend, hold⟩ := h.toLies.exists_last hsegments
  obtain ⟨-, hlen⟩ := hmore.row hc
  -- the cut is in the row of the last segment; all rows before it are shorter than the cut
  have hfs := hold.last
  have hflat : (more ++ [fs]).flatten = more.flatten ++ fs := by
    rw [List.flatten_append]
    exact congrArg _ (List.append_nil fs)
  -- the cut may be right at the end of the segment, once those behind it are gone
  by_cases hsame : s.last ≤ kept
  · refine ⟨s, v, more ++ [fs], Segment.runOn_truncate_of_le hsame, rfl, ?_, hs, fun _ => id, ?_,
      .refl (.inl rfl)⟩
    · refine (List.take_of_length_le ?_).symm
      rw [hflat, List.length_append]
      omega
    · intro l' hdir hfirst' hlast' hsegments' hclosed htail
      exact h.of_segments hdir hfirst' (hsegments'.trans hsegments.symm) (by omega) hclosed htail
  · obtain ⟨v', htruncate, hr, hold', hpass⟩ := hold.runOn_truncate h.wellFormed h.leads
      (by omega : s.first ≤ kept + 1) (by omega) rfl (h.item?_ne_directory _)
    refine ⟨_, v', more ++ [fs.take (kept + 1 - s.first)], htruncate, rfl, ?_, ?_,
      fun size hneat => (hneat.replaced hr).of_prefixes ?_, ?_,
      hpass.mono fun d => .imp_right (.imp_right ?_)⟩
    -- the rows before the last one are left whole by the cut
    · have htake : more.flatten.take (kept + 1 - start) = more.flatten :=
        List.take_of_length_le (by omega)
      rw [hflat, List.flatten_append, List.take_append, htake,
        show kept + 1 - start - more.flatten.length = kept + 1 - s.first by omega]
      exact congrArg _ (List.append_nil _)
    · exact hs.replaced hr h.leads
        (hr.directoryAt (h.item?_ne_directory s) (h.item?_ne_directory _) h.leads)
    · intro gs hgs
      rcases List.mem_append.1 hgs with hgs | hgs
      · exact ⟨gs, List.mem_append_left _ hgs, List.prefix_refl gs⟩
      · rw [List.mem_singleton.1 hgs]
        exact ⟨fs, List.mem_append_right _ List.mem_cons_self, List.take_prefix _ _⟩
    · intro l' hdir hfirst' hlast' hsegments' hclosed htail
      have hbound := h.bound
      refine h.changeLast hr ?_ hxs hmore hc hold' rfl hdir hfirst' hsegments'
        hlast' hclosed htail (by omega) ?_ (by omega)
      · intro x hx
        rw [hsegments] at hx
        simpa using hx
      · cases hopen : (s.cut kept (kept + 1 - s.first) fs).isOpen with
        | true =>
          apply (Segment.fits_name_of_open hopen).2
          show s.first ≤ _
          omega
        | false =>
          refine (Segment.fits_name_of_closed hopen).2 ⟨hfirst, ?_⟩
          show kept ≤ _
          omega
    -- between shortening and renaming a sealed segment tells more than it holds
    · rintro ⟨hsealed, k, hput⟩
      obtain ⟨hclosed, hnone⟩ := h.closed_eq hsegments hsealed
      exact ⟨s, hclosed ▸ List.mem_append_right xs List.mem_cons_self, v.disk, l, start, _, xs, fs, k,
        rfl, h, hs, hle, hclosed, hnone, hold, hfirst, by omega, hput⟩

/-- A log without segments is empty, and a cut inside of it is at its end. -/
theorem Stands.of_segments_nil {kept : Nat} (h : Stands d home l start rows)
    (hsegments : l.segments = []) (hlast : kept ≤ l.last) (hle : l.first ≤ kept + 1) :
    rows = [] ∧ l.last = kept := by
  have hold := h.holds
  have hc := h.chained
  rw [hsegments] at hold hc
  refine ⟨List.forall₂_nil_left_iff.1 hold, ?_⟩
  have hend : start = l.last + 1 := hc
  have hstart := h.start_le
  omega

/-- Cutting the last segment cuts the log, where no segment starts behind the cut. -/
theorem Stands.runOn_truncateWithin {kept : Nat} (h : Stands v.disk home l start rows)
    (hs : Starts v.disk l.directory l.first) (hall : ∀ s ∈ l.segments, s.first ≤ kept)
    (hlast : kept ≤ l.last) (hle : l.first ≤ kept + 1) :
    ∃ l' v' rows', (truncateWithin kept).runOn ⟨{ l with last := kept }, v⟩ =
        (.ok (), ⟨l', v'⟩) ∧ Stands v'.disk home l' start rows' ∧
      Starts v'.disk l'.directory l'.first ∧ l'.directory = l.directory ∧ l'.first = l.first ∧
      rows'.flatten = rows.flatten.take (kept + 1 - start) ∧
      l'.maxSegmentSize = l.maxSegmentSize ∧
      (∀ size, Neat size v.disk home rows → Neat size v'.disk home rows') ∧
      Volume.Passes (fun d => d = v.disk ∨ d = v'.disk ∨
        ∃ s ∈ l.closed, CutShort d home l.directory kept s) v v' := by
  unfold truncateWithin
  rw [Act.runOn_bind_ok (Mounted.runOn_stored _)]
  dsimp only
  -- the segment to shorten is the one to write to, or the last sealed one, or there is none
  cases ht : l.tail with
  | some s =>
    have hsegments := segments_of_tail ht
    obtain ⟨s', v', rows', htruncate, hopen, hflat, hs', hneat, hstands, hpass⟩ :=
      h.runOn_truncate hs hsegments (fun x hx => hx) (hall s (mem_segments.2 (.inr ht))) hlast hle
    refine ⟨{ l with last := kept, tail := some s' }, v', rows', ?_,
      hstands _ rfl rfl rfl rfl h.closed ?_, hs', rfl, rfl, hflat, rfl, hneat, hpass⟩
    · rw [Act.runOn_bind_ok (Mounted.runOn_onVolume_ok htruncate)]
      rfl
    · intro x hx
      rw [← Option.some.inj hx, hopen]
      exact h.toLies.tail s ht
  | none =>
    have hsegments := segments_of_none ht
    rcases List.eq_nil_or_concat l.closed with hnil | ⟨xs, s, hconcat⟩
    · obtain ⟨rfl, hsame⟩ := h.of_segments_nil (hsegments.trans hnil) hlast hle
      refine ⟨{ l with last := kept, tail := none }, v, [], ?_, h.of_segments rfl rfl ?_ hsame.symm
        h.closed (by simp), hs, rfl, rfl, List.take_nil.symm, rfl, fun _ => id, .refl (.inl rfl)⟩
      · rw [hnil]
        rfl
      · rw [hsegments]
        exact List.append_nil _
    · -- the last sealed segment is cut, and stays sealed
      rw [List.concat_eq_append] at hconcat
      have hmem : s ∈ l.closed := hconcat ▸ List.mem_append_right _ List.mem_cons_self
      have hxs : ∀ x ∈ xs, x ∈ l.closed := fun x hx => hconcat ▸ List.mem_append_left [s] hx
      obtain ⟨s', v', rows', htruncate, hopen, hflat, hs', hneat, hstands, hpass⟩ :=
        h.runOn_truncate hs (hsegments.trans hconcat) hxs (hall s (mem_segments.2 (.inl hmem)))
          hlast hle
      refine ⟨{ l with last := kept, closed := l.closed.dropLast ++ [s'], tail := none }, v', rows',
        ?_, hstands _ rfl rfl rfl ?_ ?_ (by simp), hs', rfl, rfl, hflat, rfl, hneat, hpass⟩
      · rw [hconcat, List.getLast?_concat, Act.runOn_bind_ok (Mounted.runOn_onVolume_ok htruncate)]
        rfl
      · rw [hconcat, List.dropLast_concat]
        exact List.append_nil _
      · intro x hx
        rcases List.mem_append.1 hx with hx | hx
        · exact h.closed x ((List.dropLast_subset _) hx)
        · rw [List.mem_singleton.1 hx, hopen, h.closed s hmem]

/-- The log once the segments that start behind `kept` are dropped, and what is dropped then. -/
def keptUpTo (l : SegmentedLog) (kept last : Nat) : SegmentedLog :=
  { l with
    last
    closed := (l.closed.reverse.dropWhile (kept < ·.first)).reverse
    tail := none }

def startedBehind (l : SegmentedLog) (kept : Nat) : List Segment :=
  l.tail.toList ++ l.closed.reverse.takeWhile (kept < ·.first)

section

variable {kept : Nat} (h : Stands d home l start rows)
  (hnone : l.tail.filter (·.first ≤ kept) = none)

include h

/-- The walk from the end stops at the first segment that starts early enough, and all before it
do. -/
theorem Stands.dropWhile_reverse : (l.closed.reverse.dropWhile (kept < ·.first)).reverse =
    l.closed.filter (·.first ≤ kept) := by
  rw [dropWhile_eq_filter, List.filter_reverse, List.reverse_reverse]
  · exact List.filter_congr fun x _ => by rw [← decide_not, decide_eq_decide, Nat.not_lt]
  -- the first indices ascend, so along the reversed list they descend
  · refine List.pairwise_reverse.2 (h.kept.pairwise_first.imp ?_)
    intro s t hlt
    simp only [decide_eq_true_eq]
    omega

include hnone

/-- The segments that are kept are those that do not start behind the cut. -/
theorem Stands.segments_keptUpTo (last : Nat) :
    (l.keptUpTo kept last).segments = l.segments.filter (·.first ≤ kept) := by
  show (l.closed.reverse.dropWhile _).reverse ++ [] = _
  rw [h.dropWhile_reverse, segments, List.filter_append, ← Option.toList_filter, hnone]
  rfl

omit h in
/-- What is removed starts behind the cut. -/
theorem mem_startedBehind (hs : s ∈ l.startedBehind kept) : s ∈ l.segments ∧ kept < s.first := by
  rcases List.mem_append.1 hs with hs | hs
  · have hs := Option.mem_toList.1 hs
    refine ⟨mem_segments.2 (.inr hs), ?_⟩
    have hnot := Option.filter_eq_none_iff.1 hnone s hs
    simpa using hnot
  · refine ⟨mem_segments.2 (.inl ?_), by simpa using List.mem_takeWhile_imp hs⟩
    exact List.mem_reverse.1 (List.takeWhile_subset _ hs)

omit hnone in
/-- No segment that starts behind the cut is left out. -/
theorem Stands.mem_startedBehind_of_lt (hs : s ∈ l.segments) (hlt : kept < s.first) :
    s ∈ l.startedBehind kept := by
  rcases mem_segments.1 hs with hs | hs
  · have hs := List.mem_reverse.2 hs
    rw [← List.takeWhile_append_dropWhile (p := fun x => decide (kept < x.first))
      (l := l.closed.reverse)] at hs
    rcases List.mem_append.1 hs with hs | hs
    · exact List.mem_append_right _ hs
    · have hs := List.mem_reverse.2 hs
      rw [h.dropWhile_reverse] at hs
      obtain ⟨-, hle⟩ := List.mem_filter.1 hs
      rw [decide_eq_true_eq] at hle
      omega
  · exact List.mem_append_left _ (Option.mem_toList.2 hs)

end

/-- The segments that start behind an index are the last ones, and the last of them comes first. -/
theorem exists_startedBehind (l : SegmentedLog) (kept : Nat) :
    ∃ front, l.segments = front ++ (l.startedBehind kept).reverse := by
  refine ⟨(l.closed.reverse.dropWhile (kept < ·.first)).reverse, ?_⟩
  have hone : l.tail.toList.reverse = l.tail.toList := by cases l.tail <;> rfl
  rw [startedBehind, List.reverse_append, hone, ← List.append_assoc, ← List.reverse_append,
    List.takeWhile_append_dropWhile, List.reverse_reverse]
  rfl

/-- Some of the frames are some of the entries. -/
theorem entriesFrom_take {b : Nat} {rows' : List (List Framed)} (hstart : start ≤ n)
    (hflat : rows'.flatten = rows.flatten.take (b - start)) :
    entriesFrom n start rows' = (entriesFrom n start rows).take (b - n) := by
  rw [entriesFrom, entriesFrom, hflat, List.map_take, List.drop_take,
    show b - start - (n - start) = b - n by omega]

/-- The first rows of a log are its frames up to where they end. -/
theorem Stands.take_rows {b : Nat} {rows' : List (List Framed)} {l' : SegmentedLog}
    (h : Stands d home l' start rows') (hb : l'.last + 1 = b) (hrows : rows' <+: rows) :
    rows'.flatten = rows.flatten.take (b - start) := by
  have hlen := (h.holds.row h.chained).2
  obtain ⟨more, rfl⟩ := hrows
  rw [List.flatten_append, List.take_append_of_le_length (by omega),
    List.take_of_length_le (by omega)]

/-- A log that was cut before an index is stored as what was before it. -/
theorem Stands.stored_take {b : Nat} {rows' : List (List Framed)} {l' : SegmentedLog}
    (h : Stands d home l' start rows') (hs : Starts d l'.directory l'.first)
    (hflat : rows'.flatten = rows.flatten.take (b - start)) :
    Stores d home l'.directory
      ⟨l'.first, (entriesFrom l'.first start rows).take (b - l'.first)⟩ := by
  rw [← entriesFrom_take h.start_le hflat]
  exact h.stored hs

/-- The segment to write to starts last, so if it does not start behind an index none does. -/
theorem Stands.first_le_of_tail {kept : Nat} (h : Stands d home l start rows) (ht : l.tail = some s)
    (hfirst : s.first ≤ kept) (x : Segment) (hx : x ∈ l.segments) : x.first ≤ kept := by
  obtain ⟨more, fs, -, hmore, hc, -, -⟩ := h.toLies.exists_last (segments_of_tail ht)
  rcases mem_segments.1 hx with hx | hx
  · have hlt := hmore.last_lt hc x hx
    have hxle := h.kept.first_le_last hx
    omega
  · obtain rfl := Option.some.inj (ht.symm.trans hx)
    exact hfirst

/-- Removing the segments behind an index leaves a log that reaches up to it, and so does removing
some of them. -/
theorem Stands.runOn_unlinkBehind {kept : Nat} (h : Stands v.disk home l start rows)
    (hs : Starts v.disk l.directory l.first) (hnone : l.tail.filter (·.first ≤ kept) = none)
    (hlast : kept < l.last) (hle : l.first ≤ kept + 1) :
    ∃ last v' rows', (unlinkAll (l.startedBehind kept)).runOn v = (.ok (), v') ∧
      Stands v'.disk home (l.keptUpTo kept last) start rows' ∧
      Starts v'.disk l.directory l.first ∧ kept ≤ last ∧ rows' <+: rows ∧
      (∀ size, Neat size v.disk home rows → Neat size v'.disk home rows') ∧
      Volume.Passes (fun d => ∃ b, kept < b ∧ Stores d home l.directory
        ⟨l.first, (entriesFrom l.first start rows).take (b - l.first)⟩) v v' := by
  -- the rows of the segments that are kept, the last of which ends before `b`
  obtain ⟨b, rows', hold, hc, hb, hbound, hrows⟩ :=
    h.holds.below h.chained (by omega : kept < l.last + 1)
  have hsegments := h.segments_keptUpTo hnone (b - 1)
  rw [← hsegments] at hold hc
  have hstart := h.start_le
  have hpos := h.first_pos
  have hmax := h.bound
  -- the segments that are kept reach at least as far as the cut, and are not cut yet
  have hlies : Lies v.disk home (l.keptUpTo kept (b - 1)) start rows' := by
    refine ⟨h.wellFormed, h.leads, hold, ?_, ?_, by simp [keptUpTo], hstart, ?_, hpos⟩
    · show Chained start _ (b - 1 + 1)
      rwa [Nat.sub_add_cancel (by omega)]
    · intro x hx
      have hx : x ∈ (l.closed.reverse.dropWhile (kept < ·.first)).reverse := hx
      rw [h.dropWhile_reverse] at hx
      exact h.closed x (List.mem_of_mem_filter hx)
    · show l.first ≤ b - 1 + 1
      omega
  have hgone : ∀ x ∈ l.startedBehind kept, x ∈ l.segments := fun x hx =>
    (mem_startedBehind hnone hx).1
  obtain ⟨v', hunlink, hclears, hpass⟩ := runOn_unlinkAll h.wellFormed h.leads
    (fun x hx => h.directory_eq (hgone x hx)) fun x _ => h.item?_ne_directory x
  have hstands : Stands v'.disk home (l.keptUpTo kept (b - 1)) start rows' := by
    refine h.cleared hlies hclears hgone ?_ ?_ ?_
    · intro x hx
      rw [hsegments, List.mem_filter, decide_eq_true_eq]
      by_cases hlt : kept < x.first
      · exact .inr (h.mem_startedBehind_of_lt hx hlt)
      · exact .inl ⟨hx, by omega⟩
    · intro x hx
      rw [hsegments, List.mem_filter, decide_eq_true_eq] at hx
      refine ⟨hx.1, ?_⟩
      intro hmem
      have hlt := (mem_startedBehind hnone hmem).2
      omega
    · show b - 1 ≤ Numeral.max64
      omega
  refine ⟨b - 1, v', rows', hunlink, hstands, hs.cleared hclears h.leads hstands.leads, by omega,
    hrows, fun size hneat => (hneat.cleared hclears).of_subset hrows.subset, hpass.mono ?_⟩
  -- a stop in between: the last segments are gone, and what is left is a log that ends behind the
  -- cut
  rintro d ⟨gone, ⟨rest, hgone⟩, hclears⟩
  obtain ⟨front, hsplit⟩ := l.exists_startedBehind kept
  rw [← hgone, List.reverse_append, ← List.append_assoc] at hsplit
  have hbehind : ∀ s ∈ gone.reverse, kept < s.first := fun s hs =>
    (mem_startedBehind hnone (hgone ▸ List.mem_append_left rest (List.mem_reverse.1 hs))).2
  have hclears : Clears v.disk d (gone.reverse.map (Segment.place home)) := by
    refine ⟨hclears.wellFormed, fun x => ?_⟩
    rw [hclears.item?, List.map_reverse]
    simp only [List.mem_reverse]
  obtain ⟨l', c, more, h', hdir, hfirst, hc, hrest, hmore⟩ :=
    h.clearedBack hsplit hclears fun s hs => Nat.le_trans hle (hbehind s hs)
  -- the first of the removed segments starts behind the cut, and there the rest ends
  refine ⟨c, Chained.ge hrest hbehind (by omega), ?_⟩
  have hs' : Starts d l'.directory l'.first := by
    rw [hdir, hfirst]
    exact hs.cleared hclears h.leads (hdir ▸ h'.leads)
  rw [← hdir, ← hfirst]
  exact h'.stored_take hs' (h'.take_rows hc hmore)

/-- **The end is dropped**, and wherever the process stops on the way the log is stored up to the cut
at least, unless a sealed segment is cut short. -/
theorem Stands.runOn_truncateAfter {kept : Nat} (h : Stands v.disk home l start rows)
    (hs : Starts v.disk l.directory l.first) (hle : l.first ≤ kept + 1) :
    ∃ l' v' rows', (truncateAfter kept).runOn ⟨l, v⟩ = (.ok (), ⟨l', v'⟩) ∧
      Stands v'.disk home l' start rows' ∧ Starts v'.disk l'.directory l'.first ∧
      l'.directory = l.directory ∧ l'.first = l.first ∧
      rows'.flatten = rows.flatten.take (kept + 1 - start) ∧
      l'.maxSegmentSize = l.maxSegmentSize ∧
      (∀ size, Neat size v.disk home rows → Neat size v'.disk home rows') ∧
      Volume.Passes (fun d => (∃ b, kept < b ∧ Stores d home l.directory
        ⟨l.first, (entriesFrom l.first start rows).take (b - l.first)⟩) ∨
        ∃ s ∈ l.closed, CutShort d home l.directory kept s) v v' := by
  have hlen := h.toLies.length_entries
  have hrow := (h.holds.row h.chained).2
  have hstart := h.start_le
  -- once the cut is made, and as long as nothing happens
  have hcut : ∀ (v' : Volume) (l' : SegmentedLog) (rows' : List (List Framed)),
      Stands v'.disk home l' start rows' → Starts v'.disk l'.directory l'.first →
      l'.directory = l.directory → l'.first = l.first →
      rows'.flatten = rows.flatten.take (kept + 1 - start) →
      ∃ b, kept < b ∧ Stores v'.disk home l.directory
        ⟨l.first, (entriesFrom l.first start rows).take (b - l.first)⟩ := by
    intro v' l' rows' h' hs' hdir hfirst hflat
    refine ⟨kept + 1, Nat.lt_succ_self kept, ?_⟩
    rw [← hdir, ← hfirst]
    exact h'.stored_take hs' hflat
  have hwhole : ∃ b, kept < b ∧ Stores v.disk home l.directory
      ⟨l.first, (entriesFrom l.first start rows).take (b - l.first)⟩ := by
    refine ⟨max (kept + 1) (l.last + 1), by omega, ?_⟩
    rw [List.take_of_length_le (by omega)]
    exact h.stored hs
  rw [truncateAfter, Act.runOn_bind_ok (Mounted.runOn_stored _),
    Act.runOn_bind_ok (Act.runOn_require_of (decide_eq_true hle) _ _)]
  dsimp only
  -- a cut behind the last entry cuts nothing
  by_cases hlast : l.last ≤ kept
  · refine ⟨l, v, rows, ?_, h, hs, rfl, rfl, (List.take_of_length_le (by omega)).symm, rfl,
      fun _ => id, .refl (.inl hwhole)⟩
    rw [if_pos hlast]
    rfl
  rw [if_neg hlast]
  -- a segment to write to that starts before the cut is the only one to be touched
  cases hfound : l.tail.filter (·.first ≤ kept) with
  | some s =>
    obtain ⟨ht, hfirst⟩ := Option.filter_eq_some_iff.1 hfound
    rw [decide_eq_true_eq] at hfirst
    obtain ⟨l', v', rows', hwithin, h', hs', hdir', hfirst', hflat, hsize, hneat, hpass⟩ :=
      h.runOn_truncateWithin hs (h.first_le_of_tail ht hfirst) (by omega) hle
    refine ⟨l', v', rows', ?_, h', hs', hdir', hfirst', hflat, hsize, hneat, hpass.mono ?_⟩
    · dsimp only
      rw [Act.runOn_bind_ok (Mounted.runOn_update _ _)]
      exact hwithin
    · rintro d (rfl | rfl | hd)
      · exact .inl hwhole
      · exact .inl (hcut v' l' rows' h' hs' hdir' hfirst' hflat)
      · exact .inr hd
  | none =>
    obtain ⟨last, v₁, rows₁, hunlink, h₁, hs₁, hreach, hrows, hneat₁, hpass₁⟩ :=
      h.runOn_unlinkBehind hs hfound (by omega) hle
    have hall : ∀ x ∈ (l.keptUpTo kept last).segments, x.first ≤ kept := by
      rw [h.segments_keptUpTo hfound]
      intro x hx
      exact of_decide_eq_true (List.mem_filter.1 hx).2
    obtain ⟨l', v', rows', hwithin, h', hs', hdir', hfirst', hflat, hsize, hneat', hpass'⟩ :=
      h₁.runOn_truncateWithin hs₁ hall hreach hle
    -- two cuts, the first of which is behind the second
    have hflat' : rows'.flatten = rows.flatten.take (kept + 1 - start) := by
      have hrow₁ : start + rows₁.flatten.length = last + 1 := (h₁.holds.row h₁.chained).2
      obtain ⟨more, rfl⟩ := hrows
      rw [hflat, List.flatten_append, List.take_append_of_le_length (by omega)]
    refine ⟨l', v', rows', ?_, h', hs', hdir', hfirst', hflat', hsize,
      fun size hneat => hneat' size (hneat₁ size hneat), (hpass₁.mono fun _ => .inl).trans (hpass'.mono ?_)⟩
    · dsimp only
      rw [Act.runOn_bind_ok (Mounted.runOn_update _ _)]
      show Act.runOn (Mounted.onVolume (unlinkAll (l.startedBehind kept)) >>= _) _ = _
      rw [Act.runOn_bind_ok (Mounted.runOn_onVolume_ok hunlink)]
      exact hwithin
    · rintro d (rfl | rfl | ⟨s, hmem, hd⟩)
      · exact .inl hpass₁.stop
      · exact .inl (hcut v' l' rows' h' hs' hdir' hfirst' hflat')
      · have hmem : s ∈ (l.closed.reverse.dropWhile (kept < ·.first)).reverse := hmem
        exact .inr ⟨s, List.mem_reverse.1 (List.dropWhile_subset _ (List.mem_reverse.1 hmem)), hd⟩

/-- The same, for what the log holds. -/
theorem Mirrors.runOn_truncateAfter {kept : Nat} (h : Mirrors v.disk home l m)
    (hle : l.first ≤ kept + 1) :
    ∃ l' v', (truncateAfter kept).runOn ⟨l, v⟩ = (.ok (), ⟨l', v'⟩) ∧
      l'.directory = l.directory ∧
      Mirrors v'.disk home l' { m with entries := m.entries.take (kept + 1 - m.first) } ∧
      Volume.Passes (fun d => (∃ b, kept < b ∧ Stores d home l.directory
        { m with entries := m.entries.take (b - m.first) }) ∨
        ∃ s ∈ l.closed, CutShort d home l.directory kept s) v v' := by
  obtain ⟨start, rows, h, hs, rfl⟩ := h
  obtain ⟨l', v', rows', hdisk, h', hs', hdir, hfirst, hflat, -, -, hpass⟩ :=
    h.runOn_truncateAfter hs hle
  refine ⟨l', v', hdisk, hdir, ⟨start, rows', h', hs', ?_⟩, hpass⟩
  rw [hfirst, entriesFrom_take h.start_le hflat]

/-- A cut below the first index is refused, and nothing happens. -/
theorem runOn_truncateAfter_below {kept : Nat} (hle : ¬ l.first ≤ kept + 1) :
    (truncateAfter kept).runOn ⟨l, v⟩ =
      (.error (.violation (.truncateBelowFirst kept l.first)), ⟨l, v⟩) := by
  rw [truncateAfter, Act.runOn_bind_ok (Mounted.runOn_stored _), Act.runOn_bind,
    Act.runOn_require, decide_eq_false hle]
  rfl

/-- **Dropping the end** leaves the same entries on disk as in memory, and is refused below the
first index there as here. -/
theorem simulates_truncateAfter (kept : Nat) :
    Simulates (do
      match (← MonadState.get).truncateAfter kept with
      | .ok l => set l
      | .error v => Act.violate v) (truncateAfter kept) := by
  intro v home l m h
  have hfirst : m.first = l.first := by
    obtain ⟨start, rows, -, -, rfl⟩ := h
    rfl
  -- both logs refuse a cut below their first index, and that is the same for both
  by_cases hle : l.first ≤ kept + 1
  · obtain ⟨l', v', hdisk, -, h', -⟩ := h.runOn_truncateAfter hle
    refine ⟨.ok (), l', v', _, ?_, hdisk, h'⟩
    rw [Act.runOn_bind_ok (Act.runOn_get _), MemoryLog.truncateAfter, if_neg (by omega)]
    rfl
  · refine ⟨.error (.violation (.truncateBelowFirst kept l.first)), l, v, m, ?_,
      runOn_truncateAfter_below hle, h⟩
    rw [Act.runOn_bind_ok (Act.runOn_get _), MemoryLog.truncateAfter, if_pos (by omega), hfirst]
    rfl

end SegmentedLog
end RaftReplica
