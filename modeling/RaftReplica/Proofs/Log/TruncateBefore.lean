/-
RaftReplica/Proofs/Log/TruncateBefore.lean

Dropping entries at the front of a log on disk.

The record of the start goes first, and then the segments that end before it are removed, from
the front on.  So there is one moment at which the log changes: until the record is replaced
the directory stores the log as it was, and from then on what is left of it, however many of the
segments are still there (`Stands.runOn_unlinkEnded`).

The segments of a log follow each other without a gap, so those that end before an index are
the first ones.  The program finds them by walking along the list until one ends later, and this is
where order is needed to say that it finds them all: `takeWhile` and `filter` give the same
(`Stands.endedBefore_eq`, `Stands.segments_keptFrom`).

What is kept may be in a segment that starts before the new start.  Nothing is cut off there, so the
rows of the log after the call may begin earlier than its entries; `entriesFrom` drops the rest.

Main results: `Mirrors.runOn_truncateBefore`, `simulates_truncateBefore`.
-/
import RaftReplica.Proofs.Log.Stored

namespace RaftReplica

open RaftReplica.Frame Disk

namespace SegmentedLog

variable {d : Disk} {home : Location} {start : Nat} {v : Volume} {rows : List (List Framed)}
  {s : Segment} {l : SegmentedLog} {m : MemoryLog}

/-- The log once the segments that end before `kept` are dropped. -/
def keptFrom (l : SegmentedLog) (kept : Nat) : SegmentedLog :=
  { l with
    first := kept
    last := max l.last (kept - 1)
    closed := l.closed.dropWhile (·.last < kept)
    tail := l.tail.filter fun s => !decide (s.last < kept) }

/-- The segments that end before `kept`. -/
def endedBefore (l : SegmentedLog) (kept : Nat) : List Segment :=
  l.closed.takeWhile (·.last < kept) ++ (l.tail.filter (·.last < kept)).toList

/-- What is removed ends before the new start. -/
theorem mem_endedBefore {kept : Nat} (hs : s ∈ l.endedBefore kept) :
    s ∈ l.segments ∧ s.last < kept := by
  rcases List.mem_append.1 hs with hs | hs
  · exact ⟨mem_segments.2 (.inl (List.takeWhile_subset _ hs)),
      by simpa using List.mem_takeWhile_imp hs⟩
  · obtain ⟨hs, hlt⟩ := Option.mem_filter_iff.1 (Option.mem_toList.1 hs)
    exact ⟨mem_segments.2 (.inr hs), by simpa using hlt⟩

section

variable (h : Stands d home l start rows) (kept : Nat)

include h

/-- Of the sealed segments those are kept that end at the new start or behind it. -/
theorem Stands.dropWhile_closed :
    l.closed.dropWhile (·.last < kept) = l.closed.filter (kept ≤ ·.last) := by
  rw [dropWhile_eq_filter]
  · exact List.filter_congr fun x _ => by rw [← decide_not, decide_eq_decide, Nat.not_lt]
  -- the last indices ascend along the list, so once one is not smaller none is
  · apply h.kept.pairwise_last.imp
    intro s t hlt
    simp only [decide_eq_true_eq]
    omega

/-- No segment that ends before the new start is left out. -/
theorem Stands.mem_endedBefore_of_lt (hs : s ∈ l.segments) (hlt : s.last < kept) :
    s ∈ l.endedBefore kept := by
  rcases mem_segments.1 hs with hs | hs
  · rw [← List.takeWhile_append_dropWhile (p := fun x => decide (x.last < kept)) (l := l.closed),
      h.dropWhile_closed] at hs
    rcases List.mem_append.1 hs with hs | hs
    · exact List.mem_append_left _ hs
    · obtain ⟨-, hle⟩ := List.mem_filter.1 hs
      rw [decide_eq_true_eq] at hle
      omega
  · refine List.mem_append_right _ (Option.mem_toList.2 ?_)
    exact Option.mem_filter_iff.2 ⟨hs, by simpa using hlt⟩

/-- So exactly the segments that end before the new start are removed, in their order. -/
theorem Stands.endedBefore_eq : l.endedBefore kept = l.segments.filter (·.last < kept) := by
  rw [endedBefore, takeWhile_eq_filter, segments, List.filter_append, ← Option.toList_filter]
  apply h.kept.pairwise_last.imp
  intro s t hlt
  simp only [decide_eq_true_eq]
  omega

/-- Exactly the other segments are kept. -/
theorem Stands.segments_keptFrom :
    (l.keptFrom kept).segments = l.segments.filter (kept ≤ ·.last) := by
  show l.closed.dropWhile _ ++ (l.tail.filter _).toList = _
  rw [h.dropWhile_closed, Option.toList_filter, segments, List.filter_append]
  congr 1
  exact List.filter_congr fun x _ => by rw [← decide_not, decide_eq_decide, Nat.not_lt]

end

/-- Removing the segments that end before the new start leaves the log from there on, which is stored
all the while. -/
theorem Stands.runOn_unlinkEnded {kept : Nat} (h : Stands v.disk home l start rows)
    (hs : Starts v.disk l.directory kept) (hlt : l.first < kept) (hkept : kept ≤ Numeral.max64) :
    ∃ a v' rows', (unlinkAll (l.endedBefore kept)).runOn v = (.ok (), v') ∧
      Stands v'.disk home (l.keptFrom kept) a rows' ∧ Starts v'.disk l.directory kept ∧
      entriesFrom kept a rows' = entriesFrom kept start rows ∧
      (∀ size, Neat size v.disk home rows → Neat size v'.disk home rows') ∧
      Volume.Passes (Stores · home l.directory ⟨kept, entriesFrom kept start rows⟩) v v' := by
  have hstart := h.start_le
  have hbound := h.bound
  -- the rows of the segments that are kept, the first of which begins at `a`
  obtain ⟨a, rows', hold, hc, -, ha, hsuffix, hentries⟩ :=
    h.holds.keep h.chained (by omega : start ≤ kept)
  have hsegments := h.segments_keptFrom kept
  -- a log whose entries are all dropped ends right before its new start
  have hlast : max (l.last + 1) kept = (l.keptFrom kept).last + 1 := by
    show _ = max l.last (kept - 1) + 1
    omega
  rw [← hsegments] at hold hc
  rw [hlast] at hc
  -- the smaller log lies there before anything is removed; the rest are older files
  have hlies : Lies v.disk home (l.keptFrom kept) a rows' := by
    refine ⟨h.wellFormed, h.leads, hold, hc, ?_, ?_, ha, ?_, ?_⟩
    · intro x hx
      exact h.closed x ((List.dropWhile_sublist _).subset hx)
    · intro x hx
      exact h.toLies.tail x (Option.mem_filter_iff.1 hx).1
    · show kept ≤ _
      omega
    · show 1 ≤ kept
      omega
  have hgone : ∀ x ∈ l.endedBefore kept, x ∈ l.segments := fun x hx => (mem_endedBefore hx).1
  obtain ⟨v', hunlink, hclears, hpass⟩ := runOn_unlinkAll h.wellFormed h.leads
    (fun x hx => h.directory_eq (hgone x hx)) fun x _ => h.item?_ne_directory x
  have hstands : Stands v'.disk home (l.keptFrom kept) a rows' := by
    -- a segment is kept or removed, and not both
    refine h.cleared hlies hclears hgone ?_ ?_ ?_
    · intro x hx
      rw [hsegments, List.mem_filter, decide_eq_true_eq]
      by_cases hlt : x.last < kept
      · exact .inr (h.mem_endedBefore_of_lt kept hx hlt)
      · exact .inl ⟨hx, by omega⟩
    · intro x hx
      rw [hsegments, List.mem_filter, decide_eq_true_eq] at hx
      refine ⟨hx.1, ?_⟩
      intro hmem
      have hlt := (mem_endedBefore hmem).2
      omega
    · show max l.last (kept - 1) ≤ Numeral.max64
      omega
  refine ⟨a, v', rows', hunlink, hstands, hs.cleared hclears h.leads hstands.leads, hentries,
    fun size hneat => (hneat.cleared hclears).of_subset hsuffix.subset, hpass.mono ?_⟩
  -- a stop in between: some of the first segments are gone, and the others follow on
  rintro d ⟨gone, hgone, hclears⟩
  rw [h.endedBefore_eq] at hgone
  obtain ⟨rest, hsplit⟩ := hgone.trans (h.ended_prefix kept)
  obtain ⟨l', b, more, h', hdir, -, -, hc, hsame⟩ := h.clearedFront hsplit.symm hclears
  -- what was removed ends before the new start, so what is left begins at it or before
  have hb : b ≤ kept := Chained.le hc (fun s hs => by
    simpa using (List.mem_filter.1 (hgone.subset hs)).2) (by omega)
  have hs' : Starts d l'.directory kept :=
    hdir ▸ hs.cleared hclears h.leads (hdir ▸ h'.leads)
  rw [← hsame kept hb, ← hdir]
  exact h'.stores hs' hb (by omega)

/-- Nothing is dropped in front of the first entry. -/
theorem runOn_truncateBefore_of_le {kept : Nat} (hle : kept ≤ l.first) :
    (truncateBefore kept).runOn ⟨l, v⟩ = (.ok (), ⟨l, v⟩) := by
  rw [truncateBefore, Act.runOn_bind_ok (Mounted.runOn_stored _)]
  dsimp only
  rw [if_pos hle]
  rfl

/-- **The front is dropped**, and until the record tells so the log is stored as it was. -/
theorem Stands.runOn_truncateBefore {kept : Nat} (h : Stands v.disk home l start rows)
    (hs : Starts v.disk l.directory l.first) (hlt : l.first < kept) (hkept : kept ≤ Numeral.max64) :
    ∃ a v' rows', (truncateBefore kept).runOn ⟨l, v⟩ = (.ok (), ⟨l.keptFrom kept, v'⟩) ∧
      Stands v'.disk home (l.keptFrom kept) a rows' ∧ Starts v'.disk l.directory kept ∧
      entriesFrom kept a rows' = entriesFrom kept start rows ∧
      (∀ size, Neat size v.disk home rows → Neat size v'.disk home rows') ∧
      Volume.Passes (fun d =>
        Stores d home l.directory ⟨l.first, entriesFrom l.first start rows⟩ ∨
        Stores d home l.directory ⟨kept, entriesFrom kept start rows⟩) v v' := by
  -- the record goes first, so the segments are removed from a log that starts at `kept`
  obtain ⟨v₁, hsave, h₁, hs₁, hdraft, hpass₁⟩ := h.runOn_saveStart hs hkept
  obtain ⟨a, v', rows', hunlink, h', hs', hentries, hneat, hpass'⟩ :=
    h₁.runOn_unlinkEnded hs₁ hlt hkept
  refine ⟨a, v', rows', ?_, h', hs', hentries,
    fun size hn => hneat size ⟨hdraft, hn.written, hn.sized⟩,
    Volume.Passes.trans ?_ (hpass'.mono fun _ => .inr)⟩
  · rw [truncateBefore, Act.runOn_bind_ok (Mounted.runOn_stored _)]
    dsimp only
    rw [if_neg (Nat.not_le.2 hlt), Act.runOn_bind_ok hsave,
      Act.runOn_bind_ok (Mounted.runOn_update _ _)]
    exact Mounted.runOn_onVolume_ok (m := ⟨l.keptFrom kept, v₁⟩) hunlink
  · refine hpass₁.mono ?_
    rintro d (⟨hd, hsd⟩ | rfl)
    · exact .inl (hd.stored hsd)
    · exact .inr hpass'.start

/-- The same entries are left on disk as in memory. -/
theorem Mirrors.runOn_truncateBefore {kept : Nat} (h : Mirrors v.disk home l m)
    (hkept : kept ≤ Numeral.max64) :
    ∃ l' v', (truncateBefore kept).runOn ⟨l, v⟩ = (.ok (), ⟨l', v'⟩) ∧
      l'.directory = l.directory ∧ Mirrors v'.disk home l' (m.truncateBefore kept) ∧
      Volume.Passes (fun d => Stores d home l.directory m ∨
        Stores d home l.directory (m.truncateBefore kept)) v v' := by
  have hstored := h.stores
  obtain ⟨start, rows, h, hs, rfl⟩ := h
  -- a start that is not behind the first entry drops nothing, on disk and in memory
  by_cases hle : kept ≤ l.first
  · have hsame : MemoryLog.truncateBefore ⟨l.first, entriesFrom l.first start rows⟩ kept =
        ⟨l.first, entriesFrom l.first start rows⟩ := if_pos hle
    rw [hsame]
    exact ⟨l, v, runOn_truncateBefore_of_le hle, rfl, ⟨start, rows, h, hs, rfl⟩,
      .refl (.inl hstored)⟩
  · obtain ⟨a, v', rows', hrun, h', hs', hentries, -, hpass⟩ :=
      h.runOn_truncateBefore hs (Nat.lt_of_not_le hle) hkept
    have hstart := h.start_le
    have hmemory : MemoryLog.truncateBefore ⟨l.first, entriesFrom l.first start rows⟩ kept =
        ⟨kept, entriesFrom kept start rows⟩ := by
      rw [MemoryLog.truncateBefore, if_neg hle, entriesFrom, entriesFrom, List.drop_drop,
        show l.first - start + (kept - l.first) = kept - start by omega]
    rw [hmemory]
    exact ⟨l.keptFrom kept, v', hrun, rfl, ⟨a, rows', h', hs', by rw [← hentries]; rfl⟩, hpass⟩

/-- The same, as a simulation. -/
theorem simulates_truncateBefore {kept : Nat} (hkept : kept ≤ Numeral.max64) :
    Simulates (modify fun l => l.truncateBefore kept) (truncateBefore kept) := by
  intro v home l m h
  obtain ⟨l', v', hrun, -, h', -⟩ := h.runOn_truncateBefore hkept
  exact ⟨.ok (), l', v', _, rfl, hrun, h'⟩

end SegmentedLog
end RaftReplica
