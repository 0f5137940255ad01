/-
RaftReplica/Proofs/Snapshot/Lifetime.lean

How long snapshots live.  In every state that a store can be used into, a snapshot is on the disk
exactly if it is the latest one or somebody reads it, the counts are the numbers of its readers and
of the store's own claim, and nothing touches it while its reader is alive; a commit that fails
leaves no trace (`counted`).

All of this is read off the invariant `Sound`, where each claim stands for one reader or for the
store itself.  How often an index is claimed is then its count, and whether it is claimed at all is
whether it is on the disk (`count_claims`, `mem_claims_iff`).  While a reader is alive its index is
claimed at every step, so the steps leave its snapshot alone, one after the other
(`same_while_alive`).

The latest snapshot is the one that was committed last.  A store that is opened again takes the one
with the greatest index for it, so it may be another one, if a snapshot that reaches further was
committed before and is still read when the process stops (`restarted`).

The examples use a store with two snapshots of which the older one is read (`overlapping`), and one
whose last commit went back (`steppedBack`).
-/
import Mathlib.Logic.Relation
import RaftReplica.Proofs.Snapshot.InUse

namespace RaftReplica.InUse

open Disk SnapshotName SnapshotStore

variable {p : Path} {den : Location} {u u' : InUse} {r : SnapshotReader} {i : Nat}

/-- How often a snapshot is claimed: by each of its live readers, and by the store if it is the
latest one. -/
def claimsOn (u : InUse) (i : Nat) : Nat :=
  u.live.countP (fun r => r.index == i) + if i = u.store.last then 1 else 0

/-- A snapshot is claimed as often as it is counted. -/
theorem count_claims (hi : i ≠ 0) : (u.store.own ++ u.indexes).count i = u.claimsOn i := by
  have hown : u.store.own.count i = if i = u.store.last then 1 else 0 := by
    unfold own
    split
    · next hlast => rw [if_neg (by omega), List.count_nil]
    · rw [List.count_singleton]
      by_cases he : i = u.store.last
      · simp [he]
      · simp [he, Ne.symm he]
  have hlive : u.indexes.count i = u.live.countP fun r => r.index == i := by
    rw [indexes, List.count_eq_countP, List.countP_map]
    rfl
  rw [List.count_append, hown, hlive, claimsOn, Nat.add_comm]

/-- A snapshot is claimed if it is the latest one or somebody reads it. -/
theorem mem_claims_iff (hi : i ≠ 0) : i ∈ u.store.own ++ u.indexes ↔
    i = u.store.last ∨ ∃ r ∈ u.live, r.index = i := by
  rw [List.mem_append, mem_own_iff, and_iff_left hi]
  exact or_congr_right List.mem_map

/-- A step in which the reader stays alive. -/
def StepAlive (p : Path) (den : Location) (r : SnapshotReader) (u u' : InUse) : Prop :=
  Step p den u u' ∧ r ∈ u.live ∧ r ∈ u'.live

/-- **The snapshot of a reader** is the same as long as the reader is alive. -/
theorem same_while_alive (h : Sound p den u) (hrun : Relation.ReflTransGen (StepAlive p den r) u u') :
    Sound p den u' ∧ SameEntry den (published r.index) u.disk u'.disk := by
  induction hrun with
  | refl => exact ⟨h, .of_eq rfl⟩
  | tail _ hlast ih =>
    obtain ⟨hs, hr, hr'⟩ := hlast
    obtain ⟨hsound, hsame⟩ := hs.moves ih.1
    exact ⟨hsound, ih.2.trans
      (hsame r.index (List.mem_map_of_mem hr) (List.mem_map_of_mem hr'))⟩

/-- A commit that fails changes nothing but the work, and that is removed. -/
theorem Sound.commit_error (h : Sound p den u) {w : SnapshotWriter} (hw : w ∈ u.writers)
    {e : Failure} {m : Mounted SnapshotStore}
    (hrun : (commit w).runOn u.mounted = (.error e, m)) : m.store = u.store ∧
      (∀ i, SameEntry den (published i) u.disk m.volume.disk) ∧
      m.volume.disk.isThere w.directory = false := by
  have hshelved := h.shelved.perm (.refl _) (works_perm hw)
  rcases Shelved.runOn_commit (v := .ofDisk u.disk) hshelved (h.bounds w hw) with
    ⟨x, v', hcommit, h', hkept, hgone⟩ | ⟨holders, v', hcommit, -⟩
  · obtain ⟨-, rfl⟩ := Prod.mk.inj (hrun.symm.trans hcommit)
    refine ⟨rfl, fun i => ?_, hgone⟩
    by_cases hi : i ∈ u.store.own ++ u.indexes
    · exact hkept.snapshots i hi
    · exact hshelved.sameEntry_of_notMem h' hi hi
  · nomatch (Prod.mk.inj (hrun.symm.trans hcommit)).1

/-! ### Some runs -/

/-- A writer makes a snapshot that reaches to an index. -/
def making (index : Nat) (u : InUse) : InUse :=
  match create.runOn u.mounted with
  | (.ok w, m) =>
    { u.after m with writers := w.setInfo ⟨⟨1, index⟩, .empty, .empty⟩ :: u.writers }
  | (.error _, m) => u.after m

/-- The writer that came last commits. -/
def committing (u : InUse) : InUse :=
  match u.writers with
  | w :: rest => { u.after ((commit w).runOn u.mounted).2 with writers := rest }
  | [] => u

/-- The latest snapshot is opened. -/
def opening (u : InUse) : InUse :=
  { u.after (openLatest.runOn u.mounted).2 with
    readers := (openLatest.runOn u.mounted).1.toOption.join.toList ++ u.readers }

/-- Committing is a step. -/
theorem step_committing {w : SnapshotWriter} {rest : List SnapshotWriter}
    (hw : u.writers = w :: rest) : Step p den u u.committing := by
  have hstep : Step p den u _ := .commit (w := w) (by rw [hw]; exact List.mem_cons_self) rfl
  rw [InUse.committing, hw]
  rwa [hw, List.erase_cons_head] at hstep

namespace Reachable

variable (h : Reachable p den u)

include h

/-- Making a snapshot leads to a reachable state. -/
theorem making (hi : i ≤ Numeral.max64) : Reachable p den (u.making i) := by
  rcases hcreate : create.runOn u.mounted with ⟨x, m⟩
  have h₁ := h.step (.create hcreate)
  rw [InUse.making, hcreate]
  cases x with
  | error e => exact h₁
  | ok w =>
    have h₂ := h₁.step (.tell (w.setInfo ⟨⟨1, i⟩, .empty, .empty⟩) List.mem_cons_self rfl hi)
    simp only [Except.toOption, Option.toList, List.singleton_append, List.erase_cons_head] at h₂
    exact h₂

/-- So does committing it. -/
theorem committing : Reachable p den u.committing := by
  cases hw : u.writers with
  | nil =>
    rw [InUse.committing, hw]
    exact h
  | cons w rest => exact h.step (step_committing hw)

theorem opening : Reachable p den u.opening := h.step (.openLatest rfl)

end Reachable

/-- The store in a directory of its own on an empty disk. -/
def fresh : InUse :=
  let m := (init.runOn ⟨{ directory := .ofText "s", sync := false }, .ofDisk .empty⟩).2
  ⟨m.store, m.volume.disk, [], []⟩

/-- A fresh store is reachable. -/
theorem reachable_fresh : Reachable (.ofText "s") ["s"] fresh := by
  let made := (Volume.makeDirectories (.ofText "s")).runOn (.ofDisk .empty)
  have hmake : made = (.ok (), made.2) := Prod.ext (by decide +kernel) rfl
  exact .start false wellFormed_empty hmake (by decide +kernel) (by decide +kernel) rfl

/-- **A snapshot lives as long as it is claimed.** -/
theorem counted (h : Reachable p den u) :
    (∀ i, 1 ≤ i → (u.disk.isThere (u.store.place i) = true ↔
      i = u.store.last ∨ ∃ r ∈ u.live, r.index = i)) ∧
    (∀ i, 1 ≤ i →
      u.store.holders.get? i = if u.claimsOn i = 0 then none else some (u.claimsOn i)) ∧
    (∀ r ∈ u.live, ∃ n, u.store.holders.get? r.index = some (n + 1)) ∧
    (∀ r ∈ u.live, r.directory = u.store.place r.index ∧
      u.disk.directoryAt r.directory = .ok (den ++ [published r.index]) ∧
      Record.read (SnapshotTable.file r.directory) u.disk = .ok r.table ∧
      ∀ u', Relation.ReflTransGen (StepAlive p den r) u u' →
        SameEntry den (published r.index) u.disk u'.disk) ∧
    ∀ w ∈ u.writers, ∀ e m, (commit w).runOn u.mounted = (.error e, m) →
      m.store = u.store ∧ (∀ i, SameEntry den (published i) u.disk m.volume.disk) ∧
      m.volume.disk.isThere w.directory = false := by
  have hs := h.sound
  have hmem (r : SnapshotReader) (hr : r ∈ u.live) : r.index ∈ u.store.own ++ u.indexes :=
    List.mem_append_right _ (List.mem_map_of_mem hr)
  refine ⟨fun i hi => ?_, fun i hi => ?_, fun r hr => ?_, fun r hr => ?_,
    fun w hw e m => hs.commit_error hw⟩
  · rw [hs.shelved.isThere_place, decide_eq_true_iff, mem_claims_iff (by omega)]
  · rw [hs.shelved.holders, ← count_claims (by omega)]
    simp only [List.count_eq_zero, ite_not]
  · rw [hs.shelved.holders, if_pos (hmem r hr)]
    have hpos := List.count_pos_iff.2 (hmem r hr)
    exact ⟨_, congrArg some (Nat.sub_add_cancel hpos).symm⟩
  · obtain ⟨hdir, htable⟩ := hs.reads r hr
    rw [← hs.directory] at hdir
    refine ⟨hdir, ?_, htable, fun u' hrun => (same_while_alive hs hrun).2⟩
    rw [hdir]
    exact directoryAt_entry hs.shelved.leads (plain_published _)
      (hs.shelved.item?_published (hmem r hr))

/-- Two readers have different snapshots open, and a writer wants to publish one of them again. -/
def overlapping : InUse := ((fresh.making 5).committing.opening.making 9).committing.opening.making 5

theorem reachable_overlapping : Reachable (.ofText "s") ["s"] overlapping :=
  ((((((reachable_fresh.making (by decide)).committing).opening).making (by decide)).committing).opening
    ).making (by decide)

/-- The older snapshot stays for its reader, and the writer gets nowhere. -/
theorem counted_overlapping : Reachable (.ofText "s") ["s"] overlapping ∧
    (∀ i ∈ [5, 9], overlapping.disk.isThere (overlapping.store.place i) = true) ∧
    overlapping.disk.isThere (overlapping.store.place 7) = false ∧
    [5, 7, 9].map overlapping.store.holders.get? = [some 1, none, some 2] ∧
    (∃ r ∈ overlapping.live, r.index = 5 ∧
      Record.read (SnapshotTable.file r.directory) overlapping.disk = .ok r.table ∧
      StepAlive (.ofText "s") ["s"] r overlapping overlapping.committing ∧
      SameEntry ["s"] (published r.index) overlapping.disk overlapping.committing.disk) ∧
    ∃ w ∈ overlapping.writers, ∃ e m, (commit w).runOn overlapping.mounted = (.error e, m) ∧
      m.store = overlapping.store ∧ m.volume.disk.isThere w.directory = false := by
  have hreach := reachable_overlapping
  obtain ⟨hthere, hcounts, -, hreads, hfails⟩ := counted hreach
  have hlast : overlapping.store.last = 9 := by decide +kernel
  have hindexes : overlapping.indexes = [9, 5] := by decide +kernel
  have hclaims : [5, 7, 9].map overlapping.claimsOn = [1, 0, 2] := by decide +kernel
  -- the two readers are of the two snapshots
  have hexists {i : Nat} (hi : i ∈ [9, 5]) : ∃ r ∈ overlapping.live, r.index = i := by
    rw [← hindexes] at hi
    exact List.mem_map.1 hi
  simp only [List.map_cons, List.map_nil, List.cons.injEq, and_true] at hclaims
  refine ⟨hreach, fun i hi => ?_, ?_, ?_, ?_, ?_⟩
  · have hpos : 1 ≤ i := by
      simp only [List.mem_cons, List.not_mem_nil, or_false] at hi
      omega
    exact (hthere i hpos).2 (.inr (hexists (by simpa [or_comm] using hi)))
  · rw [Bool.eq_false_iff, Ne, hthere 7 (by decide), hlast]
    rintro (h | ⟨r, hr, hindex⟩)
    · nomatch h
    · have hmem : 7 ∈ overlapping.indexes := hindex ▸ List.mem_map_of_mem hr
      rw [hindexes] at hmem
      exact absurd hmem (by decide)
  · simp [hcounts, hclaims]
  · obtain ⟨r, hr, hindex⟩ := hexists (i := 5) (by decide)
    have halive : ∀ r ∈ overlapping.live, r ∈ overlapping.committing.live := by decide +kernel
    have hstep : StepAlive (.ofText "s") ["s"] r overlapping overlapping.committing :=
      ⟨step_committing (List.cons_head_tail (by decide +kernel)).symm, hr, halive r hr⟩
    obtain ⟨-, -, hread, hsame⟩ := hreads r hr
    exact ⟨r, hr, hindex, hread, hstep, hsame _ (.single hstep)⟩
  · have hwriter : ∃ w ∈ overlapping.writers, w.index = 5 := by decide +kernel
    have hrefused : ∀ w ∈ overlapping.writers,
        ((commit w).runOn overlapping.mounted).1 =
          .error (.error (.invalidArgument (.stillReferenced 5))) := by decide +kernel
    obtain ⟨w, hw, -⟩ := hwriter
    have hrun : (commit w).runOn overlapping.mounted =
        (.error (.error (.invalidArgument (.stillReferenced 5))),
          ((commit w).runOn overlapping.mounted).2) := Prod.ext (hrefused w hw) rfl
    obtain ⟨hstore, -, hgone⟩ := hfails w hw _ _ hrun
    exact ⟨w, hw, _, _, hrun, hstore, hgone⟩

/-! ### Opening again -/

/-- Of all snapshots that are claimed, the one with the greatest index stays. -/
theorem Sound.reopened (h : Sound p den u) (sync : Bool) : ∃ s' v',
    init.runOn ⟨{ directory := p, sync }, .ofDisk u.disk⟩ = (.ok (), ⟨s', v'⟩) ∧
    s'.last = max u.store.last (greatest u.indexes) ∧
    SameEntry den (published s'.last) u.disk v'.disk ∧
    ∀ i, 1 ≤ i → (v'.disk.isThere (s'.place i) = true ↔ i = s'.last) := by
  obtain ⟨v', hrun, hshelved, hsame⟩ := Shelved.runOn_init (v := .ofDisk u.disk)
    { directory := p, sync } h.shelved h.directory.symm
  -- what is on the disk is what was claimed, so the greatest claim is found
  have hgreatest : greatest (u.store.own ++ u.indexes) = max u.store.last (greatest u.indexes) := by
    unfold own
    split
    · next hlast => rw [hlast, List.nil_append, Nat.zero_max]
    · rfl
  refine ⟨_, v', hrun, hgreatest, hsame, fun i hi => ?_⟩
  rw [hshelved.isThere_place, decide_eq_true_iff, mem_own_iff]
  exact and_iff_left (by omega)

/-- **A store that is opened again** on the directory, after the process stopped with some readers
alive, keeps the snapshot with the greatest index, and no other one.  It is the latest one exactly
if no reader had one open that reaches further. -/
theorem restarted (h : Reachable p den u) (sync : Bool) : ∃ s' v',
    init.runOn ⟨{ directory := p, sync }, .ofDisk u.disk⟩ = (.ok (), ⟨s', v'⟩) ∧
    s'.last = max u.store.last (greatest u.indexes) ∧
    (s'.last = u.store.last ↔ ∀ r ∈ u.live, r.index ≤ u.store.last) ∧
    SameEntry den (published s'.last) u.disk v'.disk ∧
    ∀ i, 1 ≤ i → (v'.disk.isThere (s'.place i) = true ↔ i = s'.last) := by
  obtain ⟨s', v', hrun, hlast, hrest⟩ := h.sound.reopened sync
  refine ⟨s', v', hrun, hlast, ?_, hrest⟩
  have hmax (a b : Nat) : max a b = a ↔ b ≤ a := by omega
  rw [hlast, hmax, greatest_le_iff]
  exact List.forall_mem_map

/-- The latest snapshot is the one that is found again. -/
theorem restarted_overlapping : Reachable (.ofText "s") ["s"] overlapping ∧
    ∃ s' v', init.runOn ⟨{ directory := .ofText "s", sync := true }, .ofDisk overlapping.disk⟩ =
        (.ok (), ⟨s', v'⟩) ∧ s'.last = 9 ∧ overlapping.store.last = 9 ∧
      SameEntry ["s"] (published 9) overlapping.disk v'.disk ∧
      v'.disk.isThere (s'.place 5) = false := by
  obtain ⟨s', v', hrun, -, hiff, hsame, hthere⟩ := restarted reachable_overlapping true
  have hlast : overlapping.store.last = 9 := by decide +kernel
  have hbelow : ∀ r ∈ overlapping.live, r.index ≤ overlapping.store.last := by decide +kernel
  have hlast' : s'.last = 9 := (hiff.2 hbelow).trans hlast
  rw [hlast'] at hsame
  refine ⟨reachable_overlapping, s', v', hrun, hlast', hlast, hsame, ?_⟩
  rw [Bool.eq_false_iff, Ne, hthere 5 (by decide), hlast']
  decide

/-- A snapshot was committed while one that reaches further is still read. -/
def steppedBack : InUse := ((fresh.making 10).committing.opening.making 5).committing

/-- After that the latest snapshot is not found again: it is removed, and the other one is taken for
the latest. -/
theorem restarted_steppedBack : Reachable (.ofText "s") ["s"] steppedBack ∧
    steppedBack.store.last = 5 ∧ steppedBack.disk.isThere (steppedBack.store.place 5) = true ∧
    ∃ m, init.runOn ⟨{ directory := .ofText "s", sync := false }, .ofDisk steppedBack.disk⟩ =
        (.ok (), m) ∧ m.store.last = 10 ∧ m.volume.disk.isThere (m.store.place 5) = false := by
  have hreach : Reachable (.ofText "s") ["s"] steppedBack :=
    ((((reachable_fresh.making (by decide)).committing).opening).making (by decide)).committing
  obtain ⟨s', v', hrun, hlast, -, hthere⟩ := hreach.sound.reopened false
  have hgreatest : max steppedBack.store.last (greatest steppedBack.indexes) = 10 := by
    decide +kernel
  rw [hgreatest] at hlast
  refine ⟨hreach, by decide +kernel, by decide +kernel, _, hrun, hlast, ?_⟩
  rw [Bool.eq_false_iff, Ne, hthere 5 (by decide), hlast]
  decide

end RaftReplica.InUse
