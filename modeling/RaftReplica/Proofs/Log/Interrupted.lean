/-
RaftReplica/Proofs/Log/Interrupted.lean

What is left of a log when the process stops in the middle of a call.  Appending and dropping the
front are safe: whoever opens the directory next has the log from before or from after the call, or
with some of the new entries (`recovers_interrupted`).

The two other calls are not.  Dropping the end leaves a directory that is refused if it stops right
before a sealed segment gets its new name (`truncateAfter_interrupted`).  A reset leaves one that is
refused, or a log of which the dropped entries are a part again, if it stops before all segments
that reach the new start are removed (`reset_interrupted`).

A stop is any prefix of the changes that a call makes to the disk, where a write may also end at any
byte (`StopsIn`).  Every call comes with the list of what it may leave (`Volume.Passes`), so the
theorems here only have to say what each of these disks is for whoever opens it: `Recovers` asks
that every unopened log of that directory opens, with the first index and the entries that are
named.

The log in the examples, `filled`, seals a segment that has outgrown 34 bytes, so that its three
entries are in a sealed segment of two and an open one; stops are counted in changes of the disk
(`leftAfter`).
-/
import RaftReplica.Proofs.Log.Reachable

namespace RaftReplica

open RaftReplica.Frame Disk

namespace SegmentedLog

variable {d d' : Disk} {home : Location} {p : Path} {l : SegmentedLog} {m : MemoryLog}

/-- Whoever opens the directory has a log that starts at `first` and holds the entries `es`. -/
def Recovers (d : Disk) (p : Path) (first : Nat) (es : List Entry) : Prop :=
  ∀ l₁ : SegmentedLog, l₁.directory = p → ∃ l m,
    l₁.init.runOn ⟨.empty, .ofDisk d⟩ = (.ok l, m) ∧ l.first = first ∧ l.Reads m.volume.disk es

theorem Mirrors.reads (h : Mirrors d home l m) : l.first = m.first ∧ l.Reads d m.entries := by
  obtain ⟨start, rows, h, -, rfl⟩ := h
  exact ⟨rfl, h.toLies.reads⟩

/-- A log that is stored is recovered. -/
theorem Stores.recovers (h : Stores d home p m) : Recovers d p m.first m.entries := by
  intro l₁ hdir
  obtain ⟨l, m', hrun, -, hmirrors, -⟩ := Stores.runOn_init (v := .ofDisk d) h hdir
  obtain ⟨hfirst, hreads⟩ := hmirrors.reads
  exact ⟨l, m', hrun, hfirst, hreads⟩

/-! ### A log to try it on -/

/-- A log that starts a new segment behind every second entry. -/
def paired : SegmentedLog := { directory := .ofText "logs", maxSegmentSize := 34 }

/-- Its directory once it was opened for the first time, and the log with three entries, the first
two in a sealed segment. -/
def madeDisk : Disk := (paired.init.runOn ⟨.empty, .ofDisk .empty⟩).2.volume.disk

def filled : Mounted SegmentedLog :=
  ((Change.append [.noOp 1 1, .noOp 1 2, .noOp 1 3]).run.runOn ⟨paired, .ofDisk madeDisk⟩).2

/-- The disk that is left if the process stops in an action on that log after so many calls. -/
def leftAfter (x : Act (Mounted SegmentedLog) Unit) (n : Nat) : Disk := filled.volume.disk.replay
  ((x.runOn ⟨filled.store, .ofDisk filled.volume.disk⟩).2.volume.journal.reverse.take n)

theorem stopsIn_leftAfter (x : Act (Mounted SegmentedLog) Unit) (n : Nat) :
    StopsIn x filled.store filled.volume.disk (leftAfter x n) := .between n

/-- Entries without data fit if their numbers do. -/
theorem proper_noOp {term index : Nat} (hterm : term ≤ Numeral.max64)
    (hindex : index ≤ Numeral.max64) : (Entry.noOp term index).Proper :=
  ⟨hterm, hindex, fun ps hps => absurd hps (by simp [Entry.noOp]),
    fun ps hps => absurd hps (by simp [Entry.noOp])⟩

/-- Nothing is in the way of the example's directory. -/
theorem vacant_paired : Vacant .empty paired.directory := by
  let made := (Volume.makeDirectories paired.directory).runOn (.ofDisk .empty)
  have hmake : made = (.ok (), made.2) := Prod.ext (by decide +kernel) rfl
  exact ⟨wellFormed_empty, made.2, hmake, by decide +kernel⟩

theorem runOn_init_paired : paired.init.runOn ⟨.empty, .ofDisk .empty⟩ =
    (.ok paired, (paired.init.runOn ⟨.empty, .ofDisk .empty⟩).2) :=
  Prod.ext (by decide +kernel) rfl

/-- The entries of the example fit. -/
theorem proper_filled : (Change.append [.noOp 1 1, .noOp 1 2, .noOp 1 3]).Proper := by
  intro e he
  simp only [List.mem_cons, List.not_mem_nil, or_false] at he
  rcases he with rfl | rfl | rfl <;> exact proper_noOp (by decide) (by decide)

/-- The log of the example came to be by opening and appending. -/
theorem reachable_filled : Reachable paired.directory (some filled.store) filled.volume.disk := by
  have hopened : Reachable paired.directory (some paired) madeDisk :=
    .opened (.vacant vacant_paired) rfl runOn_init_paired
  exact hopened.called proper_filled rfl

/-! ### Appending, and dropping the front -/

/-- **A process that stops while entries are appended, or while the front is dropped,** leaves a
directory from which the log is recovered: with some of the new entries, those in front first, or
as it was before or is after the call. -/
theorem recovers_interrupted (h : Reachable p (some l) d) : ∃ old, l.Reads d old ∧
    (∀ es d', (∀ e ∈ es, e.Proper) → StopsIn (append es) l d d' →
      ∃ batch, batch <+: es ∧ Recovers d' p l.first (old ++ batch)) ∧
    ∀ kept, kept ≤ Numeral.max64 → ∃ l' v,
      (truncateBefore kept).runOn ⟨l, .ofDisk d⟩ = (.ok (), ⟨l', v⟩) ∧
      l'.first = max l.first kept ∧ l'.Reads v.disk (old.drop (kept - l.first)) ∧
      ∀ d', StopsIn (truncateBefore kept) l d d' →
        Recovers d' p l.first old ∨ Recovers d' p l'.first (old.drop (kept - l.first)) := by
  obtain ⟨rfl, home, m, hmirrors⟩ := h.sound
  obtain ⟨hfirst, hreads⟩ := hmirrors.reads
  refine ⟨m.entries, hreads, ?_, ?_⟩
  -- appending: some of the batch is there, and nothing else has changed
  · intro es d' hes hstop
    obtain ⟨-, -, hpass⟩ := hmirrors.takes_append (v := .ofDisk d) hes
    obtain ⟨batch, hbatch, hstores⟩ := hpass.left hstop
    exact ⟨batch, hbatch, hfirst ▸ hstores.recovers⟩
  -- dropping the front: from the moment the record is replaced the log is the new one
  · intro kept hkept
    obtain ⟨l', v, hrun, -, hmirrors', hpass⟩ := hmirrors.runOn_truncateBefore (v := .ofDisk d) hkept
    obtain ⟨hfirst', hreads'⟩ := hmirrors'.reads
    have hmemory : m.truncateBefore kept = ⟨max l.first kept, m.entries.drop (kept - l.first)⟩ := by
      rw [MemoryLog.truncateBefore, hfirst]
      split
      · rw [Nat.max_eq_left ‹_›, Nat.sub_eq_zero_of_le ‹_›, List.drop_zero]
      · rw [Nat.max_eq_right (by omega)]
    rw [hmemory] at hfirst' hreads' hpass
    refine ⟨l', v, hrun, hfirst', hreads', fun d' hstop => ?_⟩
    rw [StopsIn, hrun] at hstop
    rcases hpass.left hstop with hstores | hstores
    · exact .inl (hfirst ▸ hstores.recovers)
    · exact .inr (hfirst' ▸ hstores.recovers)

/-- A fourth entry of which twenty bytes are written, and two entries that are dropped while their
segment is still there. -/
theorem recovers_interrupted_torn :
    let l := filled.store
    let d := filled.volume.disk
    let torn := d.replay [.write 1 34 ((framed (.noOp 2 4)).bytes.take 20)]
    StopsIn (append [.noOp 2 4]) l d torn ∧
      StopsIn (truncateBefore 3) l d (leftAfter (truncateBefore 3) 5) ∧
      ∃ old, l.Reads d old ∧
        (∃ batch, batch <+: [.noOp 2 4] ∧ Recovers torn paired.directory 1 (old ++ batch)) ∧
        (Recovers (leftAfter (truncateBefore 3) 5) paired.directory 1 old ∨
          Recovers (leftAfter (truncateBefore 3) 5) paired.directory 3 (old.drop 2)) := by
  intro l d torn
  have hcall : ((append [.noOp 2 4]).runOn ⟨l, .ofDisk d⟩).2.volume.journal.reverse[0]? =
      some (.write 1 34 (framed (.noOp 2 4)).bytes) := by decide +kernel
  have htorn : StopsIn (append [.noOp 2 4]) l d torn := .within 0 _ _ hcall (.write _ _ _ 20)
  have hstop := stopsIn_leftAfter (truncateBefore 3) 5
  have hfirst : l.first = 1 := by decide +kernel
  obtain ⟨old, hreads, happend, htruncate⟩ := recovers_interrupted reachable_filled
  obtain ⟨l', v, -, hfirst', -, hrecovers⟩ := htruncate 3 (by decide)
  obtain ⟨batch, hbatch, hrecovered⟩ := happend [.noOp 2 4] torn
    (fun e he => List.mem_singleton.1 he ▸ proper_noOp (by decide) (by decide)) htorn
  have hdropped := hrecovers _ hstop
  rw [hfirst'] at hdropped
  change Recovers _ _ l.first _ ∨ Recovers _ _ (max l.first 3) (old.drop (3 - l.first)) at hdropped
  change Recovers _ _ l.first _ at hrecovered
  rw [hfirst] at hdropped hrecovered
  exact ⟨htorn, hstop, old, hreads, ⟨batch, hbatch, hrecovered⟩, hdropped⟩

/-! ### Dropping the end -/

/-- **A process that stops while the end is dropped** leaves a directory from which the log is
recovered, unbroken up to the cut at least, unless the last segment that stays is a sealed one that
is cut: then the directory is refused if its file is cut and its name is not changed yet. -/
theorem truncateAfter_interrupted (h : Reachable p (some l) d) : ∃ old, l.Reads d old ∧
    ∀ kept d', l.first ≤ kept + 1 → kept < l.last → StopsIn (truncateAfter kept) l d d' →
      (∃ last, kept ≤ last ∧ last ≤ l.last ∧
        Recovers d' p l.first (old.take (last + 1 - l.first))) ∨
      ∃ s ∈ l.closed, s.first ≤ kept ∧ kept < s.last ∧
        Refuses d' p (.corrupted (.entriesLost s.path.text kept)) := by
  obtain ⟨rfl, home, m, hmirrors⟩ := h.sound
  obtain ⟨hfirst, hreads⟩ := hmirrors.reads
  refine ⟨m.entries, hreads, fun kept d' hle hlt hstop => ?_⟩
  obtain ⟨l', v, hrun, -, -, hpass⟩ := hmirrors.runOn_truncateAfter (v := .ofDisk d) hle
  have hlen := hreads.length
  rw [StopsIn, hrun] at hstop
  rcases hpass.left hstop with ⟨b, hb, hstores⟩ | ⟨s, hs, hcut⟩
  · refine .inl ⟨min (b - 1) l.last, by omega, Nat.min_le_right _ _, ?_⟩
    have htake : m.entries.take (min (b - 1) l.last + 1 - l.first) =
        m.entries.take (b - m.first) := by
      rw [List.take_eq_take_iff]
      omega
    rw [htake, hfirst]
    exact hstores.recovers
  · have hrefuses := hcut.refused
    obtain ⟨-, -, -, -, -, -, -, -, -, -, -, -, -, -, hsfirst, hslast, -⟩ := hcut
    exact .inr ⟨s, hs, hsfirst, hslast, hrefuses⟩

/-- The third entry is gone and the second one is cut off, but its segment has its old name. -/
theorem truncateAfter_interrupted_paired :
    ∃ old, filled.store.Reads filled.volume.disk old ∧
      ((∃ last, 1 ≤ last ∧ last ≤ filled.store.last ∧
        Recovers (leftAfter (truncateAfter 1) 2) paired.directory filled.store.first
          (old.take (last + 1 - filled.store.first))) ∨
      ∃ s ∈ filled.store.closed, s.first ≤ 1 ∧ 1 < s.last ∧
        Refuses (leftAfter (truncateAfter 1) 2) paired.directory
          (.corrupted (.entriesLost s.path.text 1))) := by
  obtain ⟨old, hreads, h⟩ := truncateAfter_interrupted reachable_filled
  exact ⟨old, hreads, h 1 _ (by decide +kernel) (by decide +kernel) (stopsIn_leftAfter _ 2)⟩

/-- No log is recovered from there, though entries up to the cut had to be. -/
theorem truncateAfter_not_recovered :
    ∃ p l d d' kept, Reachable p (some l) d ∧ l.first ≤ kept + 1 ∧ kept < l.last ∧
      StopsIn (truncateAfter kept) l d d' ∧ ∀ first es, ¬ Recovers d' p first es := by
  refine ⟨_, filled.store, filled.volume.disk, leftAfter (truncateAfter 1) 2, 1, reachable_filled,
    by decide +kernel, by decide +kernel, stopsIn_leftAfter _ 2, ?_⟩
  intro first es h
  obtain ⟨l, m, hrun, -⟩ := h paired rfl
  have hrefused : (paired.init.runOn ⟨.empty, .ofDisk (leftAfter (truncateAfter 1) 2)⟩).1.isOk =
      false := by decide +kernel
  rw [hrun] at hrefused
  exact absurd hrefused (by simp [Except.isOk, Except.toBool])

/-! ### Starting anew -/

/-- **A process that stops in a reset** leaves a directory from which the old log or an empty one is
recovered, unless some segment that reaches the new start is still there: then the directory is
refused, or the entries from the new start on are recovered, the dropped ones among them. -/
theorem reset_interrupted (h : Reachable p (some l) d) : ∃ old, l.Reads d old ∧
    ∀ next d', 1 ≤ next → next ≤ Numeral.max64 → StopsIn (reset next) l d d' →
      Recovers d' p l.first old ∨ Recovers d' p next [] ∨
      next ≤ l.last ∧ ((∃ first, next < first ∧
          Refuses d' p (.corrupted (.startsLate first next))) ∨
        ∃ es, Recovers d' p next es ∧ next + es.length = l.last + 1 ∧
          old.drop (next - l.first) <:+ es) := by
  obtain ⟨rfl, home, m, hmirrors⟩ := h.sound
  obtain ⟨hfirst, hreads⟩ := hmirrors.reads
  refine ⟨m.entries, hreads, fun next d' hpos hmax hstop => ?_⟩
  obtain ⟨l', v, hrun, -, -, hpass⟩ := hmirrors.runOn_reset (v := .ofDisk d) (by omega) hmax
  rw [StopsIn, hrun] at hstop
  rw [hfirst]
  rcases hpass.left hstop with hstores | hstores | ⟨hle, hhalf⟩
  · exact .inl hstores.recovers
  · exact .inr (.inl hstores.recovers)
  · refine .inr (.inr ⟨hle, ?_⟩)
    rcases hhalf.refused_or_stores hle with hrefuses | ⟨es, hstores, hes, hold⟩
    · exact .inl hrefuses
    · exact .inr ⟨es, hstores.recovers, hes, hold⟩

/-- The new start is recorded, and both segments are there still. -/
theorem reset_interrupted_paired :
    ∃ old, filled.store.Reads filled.volume.disk old ∧
      (Recovers (leftAfter (reset 2) 5) paired.directory filled.store.first old ∨
        Recovers (leftAfter (reset 2) 5) paired.directory 2 [] ∨
        2 ≤ filled.store.last ∧ ((∃ first, 2 < first ∧
            Refuses (leftAfter (reset 2) 5) paired.directory (.corrupted (.startsLate first 2))) ∨
          ∃ es, Recovers (leftAfter (reset 2) 5) paired.directory 2 es ∧
            2 + es.length = filled.store.last + 1 ∧
            old.drop (2 - filled.store.first) <:+ es)) := by
  obtain ⟨old, hreads, h⟩ := reset_interrupted reachable_filled
  exact ⟨old, hreads, h 2 _ (by decide) (by decide) (stopsIn_leftAfter _ 5)⟩

/-- The entries from the new start on are recovered, though the reset dropped them. -/
theorem reset_not_recovered :
    ∃ p l d d' next, Reachable p (some l) d ∧ 1 ≤ next ∧ StopsIn (reset next) l d d' ∧
      ¬ ((∃ old, l.Reads d old ∧ Recovers d' p l.first old) ∨ Recovers d' p next []) := by
  refine ⟨_, filled.store, filled.volume.disk, leftAfter (reset 2) 5, 2, reachable_filled,
    by decide, stopsIn_leftAfter _ 5, ?_⟩
  have hrange : (paired.init.runOn ⟨.empty, .ofDisk (leftAfter (reset 2) 5)⟩).1.toOption.map
      (fun l => (l.first, l.last)) = some (2, 3) := by decide +kernel
  have hfirst : filled.store.first = 1 := by decide +kernel
  rintro (⟨old, -, h⟩ | h)
  · obtain ⟨l, m, hrun, hl, -⟩ := h paired rfl
    rw [hrun] at hrange
    have hl' := (Prod.mk.inj (Option.some.inj hrange)).1
    omega
  · obtain ⟨l, m, hrun, -, hreads⟩ := h paired rfl
    rw [hrun] at hrange
    obtain ⟨hl, hlast⟩ := Prod.mk.inj (Option.some.inj hrange)
    have hlen := hreads.length
    rw [List.length_nil] at hlen
    omega

end SegmentedLog
end RaftReplica
