/-
RaftReplica/Proofs/Log/Refinement.lean

A log on disk does what a log in memory does.  Both are given the same calls, and the one on disk may
be dropped and opened again between any two of them.  Each call then ends the same way on both, and
the same is seen of both afterwards (`SegmentedLog.like_in_memory`).

Two logs are alike if the one on disk mirrors the one in memory.  What keeps logs alike is built up
along the call (`KeepsAlike`), from the lemmas on the single calls and from the one on opening
again, and an induction on the calls does the rest.

`KeepsAlike x` says that `x` has one result on both, an answer, an error or a broken assertion, and
leaves the logs alike.  It is closed under `pure`, `fail` and `bind`, so a call that is written once
for both backends needs no proof of its own; only the calls that branch on the backend do
(`within`).

What is seen is the range, every entry and every term, at all indices, in range or not
(`LogStore.View`).  Disks are not compared, since the log in memory has none; the one that it is
given is never touched.
-/
import RaftReplica.Proofs.Log.Append
import RaftReplica.Proofs.Log.Reset
import RaftReplica.Proofs.Log.TruncateAfter
import RaftReplica.Proofs.Log.TruncateBefore

namespace RaftReplica

open RaftReplica.Frame Disk

/-! ### Calls and what is seen of them -/

namespace LogStore

/-- What is seen of a log: its range, and the entry and the term at every index. -/
structure View where
  first : Nat
  last : Nat
  entry : Nat → Except Violation (Option Entry)
  term : Nat → Except Violation Nat

def view (l : LogStore) (d : Disk) : View := ⟨l.first, l.last, fun i => l.get i d, l.term⟩

/-- The log before it is opened: of one on disk only the directory is known. -/
def unopened (sync : Bool) (maxSegmentSize : Nat) : LogStore → LogStore
  | memory l => memory l
  | segmented l => segmented { directory := l.directory, sync, maxSegmentSize }

/-- Drops the log and opens it again, for a history that knows nothing. -/
def reopen (sync : Bool) (maxSegmentSize : Nat) : Act (Mounted LogStore) Unit := Act.ofStep fun m =>
  match (m.store.unopened sync maxSegmentSize).init.runOn ⟨.empty, m.volume.restarted⟩ with
  | (.ok l, m') => (.ok (), ⟨l, m'.volume⟩)
  | (.error f, m') => (.error f, ⟨m.store, m'.volume⟩)

end LogStore

/-- The calls on a log that may change it. -/
inductive LogCall
  | append (es : List Entry)
  | appendOne (e : Entry)
  | truncateBefore (kept : Nat)
  | truncateAfter (kept : Nat)
  | reset (next : Nat)
  | reopen (sync : Bool) (maxSegmentSize : Nat)

namespace LogCall

/-- Carries out a call; tells how many entries were appended by one that appends. -/
def run : LogCall → Act (Mounted LogStore) (Option Nat)
  | append es => return some (← LogStore.append es)
  | appendOne e => do
    LogStore.appendOne e
    return none
  | truncateBefore kept => do
    LogStore.truncateBefore kept
    return none
  | truncateAfter kept => do
    LogStore.truncateAfter kept
    return none
  | reset next => do
    LogStore.reset next
    return none
  | reopen sync maxSegmentSize => do
    LogStore.reopen sync maxSegmentSize
    return none

/-- The entries of the call can be written, and its indexes are 64-bit numbers. -/
def Fits : LogCall → Prop
  | append es => ∀ e ∈ es, e.Fits
  | appendOne e => e.Fits
  | truncateBefore kept => kept ≤ Numeral.max64
  | truncateAfter kept => kept ≤ Numeral.max64
  | reset next => next ≤ Numeral.max64
  | reopen _ _ => True

/-- Carries out calls one after the other, whatever way they end; tells how each of them ended and
what is seen of the log then. -/
def trace : List LogCall → Mounted LogStore → List (Except Failure (Option Nat) × LogStore.View)
  | [], _ => []
  | c :: cs, m =>
    let (r, m') := c.run.runOn m
    (r, m'.store.view m'.volume.disk) :: trace cs m'

end LogCall

namespace SegmentedLog

variable {home : Location} {start : Nat} {v : Volume} {rows : List (List Framed)}
  {l l₁ : SegmentedLog} {m : MemoryLog}

/-- Logs that mirror each other are seen alike. -/
theorem Mirrors.view_eq {d d' : Disk} (h : Mirrors d home l m) :
    (LogStore.segmented l).view d = (LogStore.memory m).view d' := by
  have hlast := h.last_eq
  obtain ⟨start, rows, h, -, rfl⟩ := h
  let m : MemoryLog := ⟨l.first, entriesFrom l.first start rows⟩
  -- index by index, inside the range and outside
  have hget : (fun i => l.get i d) = fun i => .ok (m.get i) := by
    funext i
    exact h.toLies.get i
  have hterm : l.term = fun i => .ok (((m.get i).map Entry.term).getD 0) := by
    funext i
    exact h.toLies.term i
  show LogStore.View.mk l.first l.last (fun i => l.get i d) l.term = _
  rw [← hlast, hget, hterm]
  rfl

end SegmentedLog

/-! ### Logs that are alike -/

/-- The first log is on disk, the second in memory, and they mirror each other. -/
def Alike (m w : Mounted LogStore) : Prop :=
  ∃ home l ml, m.store = .segmented l ∧ w.store = .memory ml ∧
    SegmentedLog.Mirrors m.volume.disk home l ml

/-- On logs that are alike the action ends the same way, and leaves them alike. -/
def KeepsAlike {α : Type} (x : Act (Mounted LogStore) α) : Prop :=
  ∀ m w, Alike m w → ∃ r m' w', x.runOn m = (r, m') ∧ x.runOn w = (r, w') ∧ Alike m' w'

namespace KeepsAlike

variable {α β : Type}

theorem pure (a : α) : KeepsAlike (pure a : Act (Mounted LogStore) α) := fun m w h =>
  ⟨.ok a, m, w, rfl, rfl, h⟩

theorem fail (e : Error) : KeepsAlike (Act.fail e : Act (Mounted LogStore) α) := fun m w h =>
  ⟨.error (.error e), m, w, rfl, rfl, h⟩

/-- What keeps logs alike can be done one after the other. -/
theorem bind {x : Act (Mounted LogStore) α} {f : α → Act (Mounted LogStore) β}
    (hx : KeepsAlike x) (hf : ∀ a, KeepsAlike (f a)) : KeepsAlike (x >>= f) := by
  intro m w h
  obtain ⟨r, m', w', hm, hw, h'⟩ := hx m w h
  cases r with
  | ok a =>
    obtain ⟨r, m'', w'', hm', hw', h''⟩ := hf a m' w' h'
    exact ⟨r, m'', w'', (Act.runOn_bind_ok hm).trans hm', (Act.runOn_bind_ok hw).trans hw', h''⟩
  | error e => exact ⟨.error e, m', w', Act.runOn_bind_error hm, Act.runOn_bind_error hw, h'⟩

/-- An action on disk that simulates one in memory. -/
theorem within {x : Act MemoryLog α} {y : Act (Mounted SegmentedLog) α}
    (h : SegmentedLog.Simulates x y) : KeepsAlike (LogStore.within x y) := by
  rintro ⟨_, v⟩ ⟨_, u⟩ ⟨home, l, ml, rfl, rfl, hmirrors⟩
  obtain ⟨r, l', v', ml', hmemory, hdisk, hmirrors'⟩ := h v home l ml hmirrors
  refine ⟨r, ⟨.segmented l', v'⟩, ⟨.memory ml', u⟩, ?_, ?_, home, l', ml', rfl, rfl, hmirrors'⟩
  · rw [LogStore.within, Act.runOn_ofStep]
    dsimp only
    rw [hdisk]
  · rw [LogStore.within, Act.runOn_ofStep]
    dsimp only
    rw [hmemory]

theorem append {es : List Entry} (hes : ∀ e ∈ es, e.Fits) : KeepsAlike (LogStore.append es) :=
  within (SegmentedLog.simulates_append hes)

/-- A single entry is appended alike. -/
theorem appendOne {e : Entry} (he : e.Fits) : KeepsAlike (LogStore.appendOne e) := by
  refine (append ?_).bind ?_
  · intro x hx
    rwa [List.mem_singleton.1 hx]
  · intro n
    show KeepsAlike (if n ≠ 1 then _ else _)
    split
    · exact fail _
    · exact pure ()

/-- A log in memory is not opened again, and the one on disk is the same when it is. -/
theorem reopen (sync : Bool) (maxSegmentSize : Nat) :
    KeepsAlike (LogStore.reopen sync maxSegmentSize) := by
  rintro ⟨_, v⟩ ⟨_, u⟩ ⟨home, l, ml, rfl, rfl, hmirrors⟩
  let l₁ : SegmentedLog := { directory := l.directory, sync, maxSegmentSize }
  have hstores : SegmentedLog.Stores v.restarted.disk home l.directory ml := hmirrors.stores
  obtain ⟨l', m', hrun, -, hmirrors, -⟩ := hstores.runOn_init (rfl : l₁.directory = l.directory)
  refine ⟨.ok (), ⟨.segmented l', m'.volume⟩, ⟨.memory _, u.restarted⟩, ?_, rfl, home, l', _, rfl,
    rfl, hmirrors⟩
  rw [LogStore.reopen, Act.runOn_ofStep]
  show (match (LogStore.segmented l₁).init.runOn ⟨.empty, v.restarted⟩ with
    | (.ok l, m') => _
    | (.error f, m') => _) = _
  rw [LogStore.init, Act.runOn_bind_ok hrun]
  rfl

end KeepsAlike

/-- The same is seen of logs that are alike. -/
theorem Alike.view_eq {m w : Mounted LogStore} (h : Alike m w) :
    m.store.view m.volume.disk = w.store.view w.volume.disk := by
  obtain ⟨home, l, ml, hm, hw, hmirrors⟩ := h
  rw [hm, hw]
  exact hmirrors.view_eq

namespace LogCall

/-- **Every call keeps logs alike.** -/
theorem keepsAlike {c : LogCall} (hc : c.Fits) : KeepsAlike c.run := by
  -- one case for each call
  cases c with
  | append es => exact (KeepsAlike.append hc).bind fun _ => .pure _
  | appendOne e => exact (KeepsAlike.appendOne hc).bind fun _ => .pure _
  | truncateBefore kept =>
    exact (KeepsAlike.within (SegmentedLog.simulates_truncateBefore hc)).bind fun _ => .pure _
  | truncateAfter kept =>
    exact (KeepsAlike.within (SegmentedLog.simulates_truncateAfter kept)).bind fun _ => .pure _
  | reset next =>
    exact (KeepsAlike.within (SegmentedLog.simulates_reset hc)).bind fun _ => .pure _
  | reopen sync maxSegmentSize =>
    exact (KeepsAlike.reopen sync maxSegmentSize).bind fun _ => .pure _

/-- So does every run of calls: all of them end the same way, and show the same. -/
theorem trace_eq {cs : List LogCall} {m w : Mounted LogStore} (h : Alike m w)
    (hcs : ∀ c ∈ cs, c.Fits) : trace cs m = trace cs w := by
  induction cs generalizing m w with
  | nil => rfl
  | cons c cs ih =>
    obtain ⟨r, m', w', hm, hw, h'⟩ := keepsAlike (hcs c List.mem_cons_self) m w h
    rw [trace, trace, hm, hw]
    show (r, _) :: _ = (r, _) :: _
    rw [h'.view_eq, ih h' fun c hc => hcs c (List.mem_cons_of_mem _ hc)]

end LogCall

namespace SegmentedLog

/-- **A log on disk does what one in memory does.**  It is opened in an empty directory, and from
then on every call ends the same way on both logs, whatever the calls are, and the same is seen of
both after each of them.

Every disk that was made by calls is well-formed, by `wellFormed_replay`. -/
theorem like_in_memory {p : Path} {v v₁ : Volume} (hw : v.disk.WellFormed)
    (hmake : (Volume.makeDirectories p).runOn v = (.ok (), v₁)) (hempty : v₁.disk.list p = .ok [])
    (sync : Bool) (maxSegmentSize : Nat) (w : Volume) :
    ∃ l m, (LogStore.segmented { directory := p, sync, maxSegmentSize }).init.runOn ⟨.empty, v⟩ =
        (.ok l, m) ∧ l.view m.volume.disk = (LogStore.memory {}).view w.disk ∧
      ∀ cs : List LogCall, (∀ c ∈ cs, c.Fits) →
        LogCall.trace cs ⟨l, m.volume⟩ = LogCall.trace cs ⟨.memory {}, w⟩ := by
  let l₁ : SegmentedLog := { directory := p, sync, maxSegmentSize }
  obtain ⟨home, l, m, hrun, -, hmirrors, -⟩ :=
    runOn_init_empty hw hmake hempty (rfl : l₁.directory = p)
  refine ⟨.segmented l, m, ?_, hmirrors.view_eq, ?_⟩
  · rw [LogStore.init, Act.runOn_bind_ok hrun]
    rfl
  · intro cs hcs
    exact LogCall.trace_eq ⟨home, l, {}, rfl, rfl, hmirrors⟩ hcs

/-- A batch with a gap, cuts on both sides of the log, one of them refused, and a start at zero,
with segments of one entry each. -/
def varied : List LogCall := [
  .append [.noOp 1 1, .noOp 1 2, .noOp 2 3, .noOp 2 5],
  .truncateBefore 2,
  .reopen true 0,
  .truncateAfter 2,
  .truncateAfter 0,
  .appendOne (.noOp 3 3),
  .reset 0,
  .reopen false 4096]

/-- A run with every kind of call, some of them refused, and what is seen along it. -/
theorem like_in_memory_varied :
    let trace m := LogCall.trace varied m
    let w : Mounted LogStore := ⟨.memory {}, .ofDisk .empty⟩
    ∃ l m, (LogStore.segmented { directory := .ofText "logs", maxSegmentSize := 0 }).init.runOn
        ⟨.empty, .ofDisk .empty⟩ = (.ok l, m) ∧ trace ⟨l, m.volume⟩ = trace w ∧
      (trace w).map (fun x => (x.2.first, x.2.last, x.2.term 3)) = [(1, 3, .ok 2), (2, 3, .ok 2),
        (2, 3, .ok 2), (2, 2, .ok 0), (2, 2, .ok 0), (2, 3, .ok 3), (2, 3, .ok 3),
        (2, 3, .ok 3)] := by
  intro trace w
  have hnoOp (term index : Nat) (hterm : term ≤ Numeral.max64) (hindex : index ≤ Numeral.max64) :
      (Entry.noOp term index).Fits := by
    refine ⟨hterm, hindex, ?_, ?_, ?_⟩
    · show 10 ≤ Numeral.max32
      decide
    · intro ps hps
      exact absurd hps (by simp [Entry.noOp])
    · intro ps hps
      exact absurd hps (by simp [Entry.noOp])
  have hfits : ∀ c ∈ varied, c.Fits := by
    intro c hc
    simp only [varied, List.mem_cons, List.not_mem_nil, or_false] at hc
    rcases hc with rfl | rfl | rfl | rfl | rfl | rfl | rfl | rfl
    · intro e he
      simp only [List.mem_cons, List.not_mem_nil, or_false] at he
      rcases he with rfl | rfl | rfl | rfl <;> exact hnoOp _ _ (by decide) (by decide)
    · show 2 ≤ Numeral.max64
      decide
    · trivial
    · show 2 ≤ Numeral.max64
      decide
    · show 0 ≤ Numeral.max64
      decide
    · exact hnoOp _ _ (by decide) (by decide)
    · show 0 ≤ Numeral.max64
      decide
    · trivial
  let made := (Volume.makeDirectories (.ofText "logs")).runOn (.ofDisk .empty)
  have hmake : made = (.ok (), made.2) := Prod.ext (by decide +kernel) rfl
  have hempty : made.2.disk.list (.ofText "logs") = .ok [] := by decide +kernel
  obtain ⟨l, m, hrun, -, htrace⟩ :=
    like_in_memory (v := .ofDisk .empty) wellFormed_empty hmake hempty true 0 w.volume
  exact ⟨l, m, hrun, htrace varied hfits, rfl⟩

end SegmentedLog
end RaftReplica
