/-
RaftReplica/Proofs/Log/Layout.lean

How a log lies in its directory.  Its segments follow one another without a gap (`Chained`), each of
them holds a row of frames, and the log starts somewhere in the first segment, so that the rows, put
together and cut at the log's first index, are its entries.  `l.Lies d home start rows` says this,
and whatever is read from such a log is read from these entries:

    l.get i d   =  the entry at  i - l.first,  if  l.first ≤ i
    l.term i    =  its term, or zero

The two lists run in parallel.  `AllHold` pairs each segment with its row, and `Chained` says where
each begins; from both together the rows put behind one another are one row that begins where the
first segment does (`AllHold.row`).  The segment for an index is found from the end, as the last one
that does not start behind it (`exists_located`).

Reading needs no more of the disk than the files of the segments, so nothing is said here about what
else is in the directory, nor about the record of the start.
-/
import RaftReplica.Log.Segmented
import RaftReplica.Proofs.Log.Loading

namespace RaftReplica

open RaftReplica.Frame Disk

/-! ### Segments that follow one another -/

/-- The first segment starts at `a`, each next one after the one before it, and `b` comes after the
last one. -/
def Chained : Nat → List Segment → Nat → Prop
  | a, [], b => a = b
  | a, s :: rest, b => s.first = a ∧ Chained (s.last + 1) rest b

theorem chained_append_iff {a b : Nat} {ss ts : List Segment} :
    Chained a (ss ++ ts) b ↔ ∃ m, Chained a ss m ∧ Chained m ts b := by
  induction ss generalizing a with
  | nil => simp [Chained]
  | cons s ss ih =>
    rw [List.cons_append, Chained, ih]
    constructor
    · rintro ⟨hs, m, h₁, h₂⟩
      exact ⟨m, ⟨hs, h₁⟩, h₂⟩
    · rintro ⟨m, ⟨hs, h₁⟩, h₂⟩
      exact ⟨hs, m, h₁, h₂⟩

theorem chained_concat_iff {a b : Nat} {ss : List Segment} {s : Segment} :
    Chained a (ss ++ [s]) b ↔ Chained a ss s.first ∧ s.last + 1 = b := by
  rw [chained_append_iff]
  constructor
  · rintro ⟨m, h, rfl, hb⟩
    exact ⟨h, hb⟩
  · rintro ⟨h, hb⟩
    exact ⟨_, h, rfl, hb⟩

/-- Each segment holds its row. -/
def AllHold (d : Disk) (home : Location) (p : Path) : List Segment → List (List Framed) → Prop :=
  List.Forall₂ fun s fs => s.Holds d home p fs

variable {d d' : Disk} {home : Location} {p : Path} {a b index : Nat} {ss : List Segment}
  {rows : List (List Framed)}

theorem AllHold.congr (h : AllHold d home p ss rows)
    (hi : ∀ s ∈ ss, d'.item? (s.place home) = d.item? (s.place home)) :
    AllHold d' home p ss rows := by
  induction h with
  | nil => exact .nil
  | cons hs _ ih =>
    refine .cons (hs.congr (hi _ List.mem_cons_self)) (ih ?_)
    intro s hs
    exact hi s (List.mem_cons_of_mem _ hs)

theorem AllHold.append {ts : List Segment} {more : List (List Framed)}
    (h : AllHold d home p ss rows) (h' : AllHold d home p ts more) :
    AllHold d home p (ss ++ ts) (rows ++ more) := by
  induction h with
  | nil => exact h'
  | cons hs _ ih => exact .cons hs ih

theorem AllHold.split {ts : List Segment} (h : AllHold d home p (ss ++ ts) rows) :
    ∃ rows₁ rows₂, rows = rows₁ ++ rows₂ ∧ AllHold d home p ss rows₁ ∧
      AllHold d home p ts rows₂ := by
  induction ss generalizing rows with
  | nil => exact ⟨[], rows, rfl, .nil, h⟩
  | cons s ss ih =>
    obtain ⟨fs, more, hs, hmore, rfl⟩ := List.forall₂_cons_left_iff.1 h
    obtain ⟨rows₁, rows₂, rfl, h₁, h₂⟩ := ih hmore
    exact ⟨fs :: rows₁, rows₂, rfl, .cons hs h₁, h₂⟩

theorem AllHold.exists_row (h : AllHold d home p ss rows) {s : Segment} (hs : s ∈ ss) :
    ∃ fs ∈ rows, s.Holds d home p fs := by
  induction h with
  | nil => simp at hs
  | cons ht _ ih =>
    rcases List.mem_cons.1 hs with rfl | hs
    · exact ⟨_, List.mem_cons_self, ht⟩
    · obtain ⟨fs, hfs, hold⟩ := ih hs
      exact ⟨fs, List.mem_cons_of_mem _ hfs, hold⟩

/-- The rows of segments in a chain are one row. -/
theorem AllHold.row (h : AllHold d home p ss rows) (hc : Chained a ss b) :
    Row a rows.flatten ∧ a + rows.flatten.length = b := by
  induction h generalizing a with
  | nil => exact ⟨trivial, hc⟩
  | cons hs _ ih =>
    obtain ⟨rfl, hc⟩ := hc
    obtain ⟨hrow, hlen⟩ := ih hc
    have hlast := hs.last
    rw [hlast] at hrow hlen
    rw [List.flatten_cons, List.length_append]
    exact ⟨row_append_iff.2 ⟨hs.row, hrow⟩, by omega⟩

/-- Nothing in a chain starts before it does. -/
theorem AllHold.le_first (h : AllHold d home p ss rows) (hc : Chained a ss b) :
    ∀ s ∈ ss, a ≤ s.first := by
  induction h generalizing a with
  | nil => simp
  | cons hs _ ih =>
    obtain ⟨rfl, hc⟩ := hc
    have hlast := hs.last
    intro t ht
    rcases List.mem_cons.1 ht with rfl | ht
    · exact Nat.le_refl _
    · have := ih hc t ht
      omega

/-- No segment starts at zero, so a chain of them does not. -/
theorem AllHold.start_pos (h : AllHold d home p ss rows) (hc : Chained a ss b) (hb : 1 ≤ b) :
    1 ≤ a := by
  cases ss with
  | nil => exact hc ▸ hb
  | cons s ss =>
    obtain ⟨fs, _, hs, -, -⟩ := List.forall₂_cons_left_iff.1 h
    exact hc.1 ▸ hs.first_pos

/-- Nothing in a chain ends behind it. -/
theorem AllHold.last_lt (h : AllHold d home p ss rows) (hc : Chained a ss b) :
    ∀ s ∈ ss, s.last < b := by
  intro s hs
  obtain ⟨xs, ys, rfl⟩ := List.append_of_mem hs
  obtain ⟨_, rows, -, -, hold⟩ := h.split
  obtain ⟨_, -, -, hc⟩ := chained_append_iff.1 hc
  obtain ⟨_, _, -, hys, rfl⟩ := List.forall₂_cons_left_iff.1 hold
  obtain ⟨-, hlen⟩ := AllHold.row hys hc
  omega

/-- Each segment of a chain ends before the later ones start. -/
theorem AllHold.pairwise (h : AllHold d home p ss rows) (hc : Chained a ss b) :
    ss.Pairwise (fun s t => s.last < t.first) := by
  induction h generalizing a with
  | nil => exact .nil
  | cons _ hrest ih => exact .cons (AllHold.le_first hrest hc.2) (ih hc.2)

/-- Without the segments at its end that start behind an index a chain still is one, and it reaches
that index. -/
theorem AllHold.below (h : AllHold d home p ss rows) (hc : Chained a ss b) (hb : index < b) :
    ∃ m rows', AllHold d home p (ss.filter (·.first ≤ index)) rows' ∧
      Chained a (ss.filter (·.first ≤ index)) m ∧ index < m ∧ m ≤ b ∧ rows' <+: rows := by
  induction h generalizing a with
  | nil =>
    obtain rfl : a = b := hc
    exact ⟨a, [], .nil, rfl, hb, Nat.le_refl a, List.prefix_refl _⟩
  | @cons s fs ss rows hs hrest ih =>
    have hlen := (AllHold.row (.cons hs hrest) hc).2
    have hall := AllHold.le_first (.cons hs hrest) hc
    obtain ⟨rfl, hc⟩ := hc
    by_cases hkeep : s.first ≤ index
    · obtain ⟨m, rows', hold, hc', hm, hmb, more, hmore⟩ := ih hc
      rw [List.filter_cons_of_pos (by simpa using hkeep)]
      refine ⟨m, fs :: rows', .cons hs hold, ⟨rfl, hc'⟩, hm, hmb, more, ?_⟩
      rw [List.cons_append, hmore]
    · have hnil : (s :: ss).filter (·.first ≤ index) = [] := by
        apply List.filter_eq_nil_iff.2
        intro t ht
        have := hall t ht
        rw [decide_eq_true_eq]
        omega
      rw [hnil]
      exact ⟨s.first, [], .nil, rfl, by omega, by omega, List.nil_prefix⟩

/-- The last segment of a chain that does not start behind an index holds the entry there. -/
theorem AllHold.find?_reverse (h : AllHold d home p ss rows) (hc : Chained a ss b)
    (ha : a ≤ index) (hb : index < b) :
    ∃ s fs, ss.reverse.find? (·.first ≤ index) = some s ∧ s.Holds d home p fs ∧
      s.first ≤ index ∧ fs[index - s.first]? = rows.flatten[index - a]? := by
  induction h generalizing a with
  | nil => exact absurd hc (by simp only [Chained]; omega)
  | @cons s fs ss rows hs hrest ih =>
    obtain ⟨rfl, hc⟩ := hc
    have hlast := hs.last
    rw [List.reverse_cons, List.find?_append, List.flatten_cons]
    by_cases hin : s.last + 1 ≤ index
    · obtain ⟨t, gs, hfind, ht, hle, hget⟩ := ih hc hin
      refine ⟨t, gs, by rw [hfind]; rfl, ht, hle, ?_⟩
      rw [hget, List.getElem?_append_right (by omega)]
      congr 1
      omega
    · have hnone : ss.reverse.find? (·.first ≤ index) = none := by
        rw [List.find?_eq_none]
        intro t ht
        have := AllHold.le_first hrest hc t (List.mem_reverse.1 ht)
        simp only [decide_eq_true_eq]
        omega
      refine ⟨s, fs, ?_, hs, ha, ?_⟩
      · rw [hnone]
        simp [ha]
      · rw [List.getElem?_append_left (by omega)]

/-! ### Logs -/

namespace SegmentedLog

/-- All segments of a log, in their order. -/
def segments (l : SegmentedLog) : List Segment := l.closed ++ l.tail.toList

/-- The segments of the log hold the rows, which follow one another from `start` on; the log itself
starts at one of their indexes, or right behind them. -/
structure Lies (d : Disk) (home : Location) (l : SegmentedLog) (start : Nat)
    (rows : List (List Framed)) : Prop where
  wellFormed : d.WellFormed
  leads : d.directoryAt l.directory = .ok home
  holds : AllHold d home l.directory l.segments rows
  chained : Chained start l.segments (l.last + 1)
  closed : ∀ s ∈ l.closed, s.isOpen = false
  tail : ∀ s ∈ l.tail, s.isOpen = true
  start_le : start ≤ l.first
  first_le : l.first ≤ l.last + 1
  first_pos : 1 ≤ l.first

/-- The entries of rows from `start` on, without those before `first`. -/
def entriesFrom (first start : Nat) (rows : List (List Framed)) : List Entry :=
  (rows.flatten.map Framed.entry).drop (first - start)

variable {l : SegmentedLog} {start : Nat}

/-- The segment for an index is the last one that starts at it or before. -/
theorem locate?_eq (l : SegmentedLog) (index : Nat) :
    l.locate? index = l.segments.reverse.find? (·.first ≤ index) := by
  rw [locate?, segments, List.reverse_append, List.find?_append]
  cases ht : l.tail with
  | none => rfl
  | some s =>
    by_cases hs : s.first ≤ index
    · simp [Option.filter, hs]
    · simp [Option.filter, hs]

namespace Lies

theorem start_pos (h : l.Lies d home start rows) : 1 ≤ start :=
  h.holds.start_pos h.chained (Nat.succ_pos l.last)

/-- As many entries are seen as there are indices in the range. -/
theorem length_entries (h : l.Lies d home start rows) :
    (entriesFrom l.first start rows).length = l.last + 1 - l.first := by
  obtain ⟨-, hlen⟩ := h.holds.row h.chained
  have hstart := h.start_le
  rw [entriesFrom, List.length_drop, List.length_map]
  omega

/-- Each entry has the index of its place. -/
theorem index_eq (h : l.Lies d home start rows) {k : Nat} {e : Entry}
    (he : (entriesFrom l.first start rows)[k]? = some e) : e.index = l.first + k := by
  obtain ⟨hrow, -⟩ := h.holds.row h.chained
  have hstart := h.start_le
  rw [entriesFrom, List.getElem?_drop, List.getElem?_map, Option.map_eq_some_iff] at he
  obtain ⟨f, hf, rfl⟩ := he
  rw [(hrow.getElem? hf).index_eq]
  omega

/-- An entry of the log is the frame at its place in the rows. -/
theorem getElem?_entries (h : l.Lies d home start rows) (hi : l.first ≤ index) :
    (entriesFrom l.first start rows)[index - l.first]? =
      rows.flatten[index - start]?.map Framed.entry := by
  have hstart := h.start_le
  rw [entriesFrom, List.getElem?_drop, List.getElem?_map]
  congr 2
  omega

theorem covers_iff : l.covers index = true ↔ l.first ≤ index ∧ index ≤ l.last := by
  rw [covers, Bool.and_eq_true, decide_eq_true_eq, decide_eq_true_eq]

/-- Outside the range there is no entry. -/
theorem getElem?_of_not_covers (h : l.Lies d home start rows) (hi : l.first ≤ index)
    (hout : ¬ l.covers index = true) :
    (entriesFrom l.first start rows)[index - l.first]? = none := by
  rw [covers_iff] at hout
  rw [List.getElem?_eq_none_iff, h.length_entries]
  omega

/-- The segment that an index of the log is looked up in has the entry there. -/
theorem exists_located (h : l.Lies d home start rows) (hfirst : l.first ≤ index)
    (hlast : index ≤ l.last) : ∃ s fs, l.locate? index = some s ∧ s ∈ l.segments ∧
      s.Holds d home l.directory fs ∧ s.first ≤ index ∧
      fs[index - s.first]? = rows.flatten[index - start]? := by
  have hstart := h.start_le
  obtain ⟨s, fs, hfind, hs, hle, hget⟩ := h.holds.find?_reverse h.chained
    (by omega : start ≤ index) (by omega)
  exact ⟨s, fs, (locate?_eq l index).trans hfind,
    List.mem_reverse.1 (List.mem_of_find?_eq_some hfind), hs, hle, hget⟩

/-- **The log is read** as its entries. -/
theorem get (h : l.Lies d home start rows) (index : Nat) : l.get index d =
    .ok (if l.first ≤ index then (entriesFrom l.first start rows)[index - l.first]? else none) := by
  rw [SegmentedLog.get, SegmentedLog.read]
  -- inside the range the segment found holds the frame; outside nothing is read
  by_cases hcov : l.covers index = true
  · obtain ⟨hfirst, hlast⟩ := covers_iff.1 hcov
    obtain ⟨s, fs, hlocate, -, hs, hle, hget⟩ := h.exists_located hfirst hlast
    rw [if_pos hcov, if_pos hfirst, hlocate]
    dsimp only
    rw [hs.get, if_pos hle, hget, h.getElem?_entries hfirst]
  · rw [if_neg hcov]
    dsimp only
    split
    · next hfirst => rw [h.getElem?_of_not_covers hfirst hcov]
    · rfl

/-- Terms are told as they stand in the entries. -/
theorem term (h : l.Lies d home start rows) (index : Nat) : l.term index =
    .ok (((if l.first ≤ index then (entriesFrom l.first start rows)[index - l.first]?
      else none).map Entry.term).getD 0) := by
  rw [SegmentedLog.term]
  by_cases hcov : l.covers index = true
  · obtain ⟨hfirst, hlast⟩ := covers_iff.1 hcov
    obtain ⟨s, fs, hlocate, -, hs, hle, hget⟩ := h.exists_located hfirst hlast
    rw [if_pos hcov, if_pos hfirst, hlocate]
    dsimp only
    rw [hs.term, if_pos hle, hget, h.getElem?_entries hfirst, Option.map_map]
    rfl
  · rw [if_neg hcov]
    split
    · next hfirst => rw [h.getElem?_of_not_covers hfirst hcov]; rfl
    · rfl

end Lies
end SegmentedLog
end RaftReplica
