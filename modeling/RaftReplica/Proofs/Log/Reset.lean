/-
RaftReplica/Proofs/Log/Reset.lean

Dropping everything that a log on disk holds, to start again at some index.

The record of the new start is written first, and then all segments are removed, from the front
on.  While some of them are left, the directory is read with the new start: then it stores the
empty log if what is left ends before that start, and otherwise entries of the old log come back
(`HalfEmptied`).  The second needs `next ≤ l.last`, a start that is not behind the log.

The empty log lies in any directory, with no rows at all (`Stands.lies_empty`); that it stands there
is a matter of what else is in the directory, so it holds once the last segment is gone.

Main results: `Mirrors.runOn_reset`, `simulates_reset`.
-/
import RaftReplica.Proofs.Log.Stored

namespace RaftReplica

open RaftReplica.Frame Disk

namespace SegmentedLog

variable {d : Disk} {home : Location} {start : Nat} {v : Volume} {rows : List (List Framed)}
  {l : SegmentedLog} {m : MemoryLog}

/-- The record tells of a log that starts at `next`, but some segments of the log before it are still
there; `old` are the entries in them. -/
def HalfEmptied (d : Disk) (home : Location) (p : Path) (next last : Nat) (old : List Entry) : Prop :=
  ∃ l a rows, l.directory = p ∧ Stands d home l a rows ∧ Starts d p next ∧ l.segments ≠ [] ∧
    l.last = last ∧ (a ≤ next → old <:+ entriesFrom next a rows)

/-- The empty log lies in a directory without segments. -/
theorem Stands.lies_empty {next : Nat} (h : Stands d home l start rows) (hpos : next ≠ 0) :
    Lies d home { l with first := next, last := next - 1, closed := [], tail := none } next [] := by
  -- nothing is asked of a log without segments but that its range is empty
  refine ⟨h.wellFormed, h.leads, .nil, ?_, by simp, by simp, Nat.le_refl _, ?_, ?_⟩
  · show next = next - 1 + 1
    omega
  · show next ≤ next - 1 + 1
    omega
  · show 1 ≤ next
    omega

/-- **All segments are removed** from a log whose record tells of an empty one.  In between, what is
left is read from the new start on. -/
theorem Stands.runOn_unlinkSegments {next : Nat} (h : Stands v.disk home l start rows)
    (hs : Starts v.disk l.directory next) (hpos : next ≠ 0) (hnext : next ≤ Numeral.max64) :
    ∃ v', (unlinkAll l.segments).runOn v = (.ok (), v') ∧
      Stands v'.disk home { l with first := next, last := next - 1, closed := [], tail := none }
        next [] ∧ Starts v'.disk l.directory next ∧
      (∀ size, Neat size v.disk home rows → Neat size v'.disk home []) ∧
      Volume.Passes (fun d => Stores d home l.directory ⟨next, []⟩ ∨ next ≤ l.last ∧
        HalfEmptied d home l.directory next l.last
          ((entriesFrom l.first start rows).drop (next - l.first))) v v' := by
  obtain ⟨v', hunlink, hclears, hpass⟩ := runOn_unlinkAll h.wellFormed h.leads
    (fun x hx => h.directory_eq hx) fun x _ => h.item?_ne_directory x
  -- once all segments are gone the empty log stands there
  have hempty : ∀ d, Clears v.disk d (l.segments.map (Segment.place home)) →
      Stands d home { l with first := next, last := next - 1, closed := [], tail := none } next [] ∧
        Starts d l.directory next := by
    intro d hd
    have hstands := h.cleared (h.lies_empty hpos) hd (fun x hx => hx) (fun x hx => .inr hx)
      (fun x hx => absurd hx List.not_mem_nil) (by show next - 1 ≤ _; omega)
    exact ⟨hstands, hs.cleared hd h.leads hstands.leads⟩
  obtain ⟨hstands, hstarts⟩ := hempty v'.disk hclears
  refine ⟨v', hunlink, hstands, hstarts,
    fun size hneat => (hneat.cleared hclears).of_subset nofun, hpass.mono ?_⟩
  rintro d ⟨gone, ⟨kept, hsplit⟩, hd⟩
  -- how much is left when the process stops
  by_cases hkept : kept = []
  · -- nothing is left
    rw [hkept, List.append_nil] at hsplit
    obtain ⟨hstands, hstarts⟩ := hempty d (hsplit ▸ hd)
    have hstores := hstands.stores hstarts (Nat.le_refl next) (by omega)
    rw [entriesFrom_nil] at hstores
    exact .inl hstores
  · obtain ⟨l', a, rows', h', hdir, hsegments, hlast, -, hsame⟩ := h.clearedFront hsplit.symm hd
    have hstarts : Starts d l'.directory next :=
      hdir ▸ hs.cleared hd h.leads (hdir ▸ h'.leads)
    have hrow := (h'.holds.row h'.chained).2
    by_cases hnew : next ≤ l.last
    · refine .inr ⟨hnew, l', a, rows', hdir, h', hdir ▸ hstarts, hsegments ▸ hkept, hlast, ?_⟩
      intro ha
      have hstart := h.start_le
      -- the entries that come back are the last ones of the old log
      rw [hsame next ha, entriesFrom, entriesFrom, List.drop_drop,
        show l.first - start + (next - l.first) =
          next - start + (l.first - start + (next - l.first) - (next - start)) by omega,
        ← List.drop_drop]
      exact List.drop_suffix _ _
    · -- all that is left ends before the new start
      have hnone : entriesFrom next a rows' = [] := by
        apply List.drop_of_length_le
        rw [List.length_map]
        omega
      have hstores := h'.stores hstarts (by omega) (by omega)
      rw [hnone, hdir] at hstores
      exact .inl hstores

/-- **Everything is dropped.**  Until the record is replaced the log is stored as it was, and only
segments that reach past the new start are in the way of storing the empty log from then on. -/
theorem Stands.runOn_reset {next : Nat} (h : Stands v.disk home l start rows)
    (hs : Starts v.disk l.directory l.first) (hpos : next ≠ 0) (hnext : next ≤ Numeral.max64) :
    ∃ l' v', (reset next).runOn ⟨l, v⟩ = (.ok (), ⟨l', v'⟩) ∧
      l' = { l with first := next, last := next - 1, closed := [], tail := none } ∧
      Stands v'.disk home l' next [] ∧ Starts v'.disk l.directory next ∧
      (∀ size, Neat size v.disk home rows → Neat size v'.disk home []) ∧
      Volume.Passes (fun d =>
        Stores d home l.directory ⟨l.first, entriesFrom l.first start rows⟩ ∨
        Stores d home l.directory ⟨next, []⟩ ∨ next ≤ l.last ∧
          HalfEmptied d home l.directory next l.last
            ((entriesFrom l.first start rows).drop (next - l.first))) v v' := by
  -- the new log has no segments, so all there are may go
  obtain ⟨v₁, hsave, h₁, hs₁, hdraft, hpass₁⟩ := h.runOn_saveStart hs hnext
  obtain ⟨v', hunlink, h', hs', hneat, hpass'⟩ := h₁.runOn_unlinkSegments hs₁ hpos hnext
  let l' : SegmentedLog := { l with first := next, last := next - 1, closed := [], tail := none }
  refine ⟨l', v', ?_, rfl, h', hs', fun size hn => hneat size ⟨hdraft, hn.written, hn.sized⟩,
    Volume.Passes.trans ?_ (hpass'.mono fun _ => .inr)⟩
  · rw [reset, if_neg hpos]
    show Act.runOn (saveStart next >>= _) _ = _
    rw [Act.runOn_bind_ok hsave, Act.runOn_bind_ok (Mounted.runOn_stored _),
      Act.runOn_bind_ok (Mounted.runOn_update _ _)]
    exact Mounted.runOn_onVolume_ok (m := ⟨l', v₁⟩) hunlink
  · refine hpass₁.mono ?_
    rintro d (⟨hd, hsd⟩ | rfl)
    · exact .inl (hd.stored hsd)
    · exact .inr hpass'.start

/-- **A reset** empties the log on disk as it does in memory. -/
theorem Mirrors.runOn_reset {next : Nat} (h : Mirrors v.disk home l m) (hpos : next ≠ 0)
    (hnext : next ≤ Numeral.max64) :
    ∃ l' v', (reset next).runOn ⟨l, v⟩ = (.ok (), ⟨l', v'⟩) ∧ l'.directory = l.directory ∧
      Mirrors v'.disk home l' ⟨next, []⟩ ∧
      Volume.Passes (fun d => Stores d home l.directory m ∨ Stores d home l.directory ⟨next, []⟩ ∨
        next ≤ l.last ∧
          HalfEmptied d home l.directory next l.last (m.entries.drop (next - m.first))) v v' := by
  obtain ⟨start, rows, h, hs, rfl⟩ := h
  obtain ⟨_, v', hrun, rfl, h', hs', -, hpass⟩ := h.runOn_reset hs hpos hnext
  exact ⟨_, v', hrun, rfl, ⟨next, [], h', hs', by rw [entriesFrom_nil]⟩, hpass⟩

theorem runOn_reset_zero :
    (reset 0).runOn ⟨l, v⟩ = (.error (.error (.invalidArgument .resetToZero)), ⟨l, v⟩) := rfl

/-- The log does not start at zero, on disk or in memory. -/
theorem simulates_reset {next : Nat} (hnext : next ≤ Numeral.max64) :
    Simulates (do set (← Act.ofExcept (MemoryLog.reset next))) (reset next) := by
  intro v home l m h
  by_cases hzero : next = 0
  · subst hzero
    exact ⟨.error (.error (.invalidArgument .resetToZero)), l, v, m, rfl, runOn_reset_zero, h⟩
  · obtain ⟨l', v', hdisk, -, h', -⟩ := h.runOn_reset hzero hnext
    refine ⟨.ok (), l', v', _, ?_, hdisk, h'⟩
    rw [MemoryLog.reset, if_neg hzero]
    rfl

end SegmentedLog
end RaftReplica
