/-
RaftReplica/Proofs/Replica/Exclusive.lean

A node does one thing with snapshots at a time.

The statement is about every state that calls, steps of jobs and things elsewhere lead to
from a node with a new snapshotter; nobody waits for anybody, so they come in any order.
What holds of the flags and of the jobs is read off the invariant that every move keeps
(`Snapshotter.Consistent`).  Two parts say more than that:

* A job whose download was replaced, or taken back, finds so when its copy is over.  It ends
  then as interrupted and takes nothing along.  The fields of the node stay, and what the
  log tells stays too, although closing the reader of the copy may remove a directory on
  the disk that the log is on.  That needs the two to be apart (`Replica.Sheltered`), and
  nothing else does.
* A node that was shut down begins nothing (`Replica.afterAll_shutdown`).  What is on its
  way is not stopped by that: a save goes on to its end.

Main result: `Replica.one_at_a_time`.
-/
import RaftReplica.Proofs.Replica.Restart
import RaftReplica.Proofs.Replica.Sheltered

namespace RaftReplica

namespace Replica

variable {σ : Type}

/-- **Once a node was shut down** nothing is downloading, and no job, save or download begins. -/
theorem afterAll_shutdown (m : StateMachine σ) {r : Replica σ} (hs : r.snapshotter.Consistent)
    (later : List (Move σ)) :
    let s := r.snapshotter
    let s' := ((r.after m .shutdown).afterAll m later).snapshotter
    s'.jobs.length = s.jobs.length ∧ (s'.saving = true → s.saving = true) ∧
      s'.downloading = none := by
  intro s s'
  have hshut : (r.after m .shutdown).snapshotter =
      { s with stopped := true : Snapshotter }.cancelled := runOn_shutdown r
  -- what is loading has no download, so nothing is left to be given up
  have hnone : (r.after m .shutdown).snapshotter.downloading = none := by
    rw [hshut]
    by_cases hl : s.loading = true
    · have hd : s.downloading = none := by
        have hex := hs.exclusive
        change s.saving.toNat + s.downloading.isSome.toNat + s.loading.toNat ≤ 1 at hex
        rw [hl] at hex
        cases hd : s.downloading with
        | none => rfl
        | some d => rw [hd] at hex; simp at hex
      rw [Snapshotter.cancelled, if_pos hl]
      exact hd
    · have hl' : ({ s with stopped := true } : Snapshotter).loading = false :=
        Bool.eq_false_iff.2 hl
      exact (downloading_cancelled hl').1
  -- giving up a download changes neither the jobs nor what is saved
  have hkept : (r.after m .shutdown).snapshotter.stopped = true ∧
      (r.after m .shutdown).snapshotter.jobs = s.jobs ∧
      (r.after m .shutdown).snapshotter.saving = s.saving := by
    rw [hshut]
    rcases Snapshotter.cancelled_cases { s with stopped := true } with h | ⟨-, h⟩ <;>
      rw [h] <;> exact ⟨rfl, rfl, rfl⟩
  obtain ⟨hstop, hjobs, hsaving⟩ := hkept
  obtain ⟨-, hbegins⟩ := (changes_afterAll m (r.after m .shutdown) later).beginsNothing hstop
  refine ⟨hjobs ▸ hbegins.jobs, fun h => hsaving ▸ hbegins.saving h, ?_⟩
  rcases hbegins.downloading with h | h
  · exact h
  · exact h.trans hnone

/-! ### One thing at a time -/

/-- **One thing at a time.**  Take a node with a new snapshotter, and let any requests, steps of
jobs and things elsewhere follow one another in any order.  In every state `r` that is reached

* at most one of saving, a registered download and loading holds;
* the node says that it installs a snapshot exactly if it downloads or loads one;
* the machine is at work for at most one job;
* a job that finds its download no longer registered ends as interrupted, without touching the
  machine, the log, the history, the latest snapshot, or a flag; if the log is apart from the
  snapshots it tells on the disk of then what it told before; and whatever follows the job stays so;
* a job takes back no registration and no flag but its own, and no two jobs await one download;
* no move lowers the term;
* once the node was shut down nothing is downloading, and no job, save or download begins. -/
theorem one_at_a_time (m : StateMachine σ) (start : Replica σ) (moves : List (Move σ)) :
    let r := afterAll m { start with snapshotter := {} } moves
    let s := r.snapshotter
    s.saving.toNat + s.downloading.isSome.toNat + s.loading.toNat ≤ 1 ∧
    (s.isInstalling = true ↔ s.downloading.isSome = true ∨ s.loading = true) ∧
    s.jobs.countP JobStage.atMachine ≤ 1 ∧
    (∀ n d, s.jobs[n]? = some (.copying d) → s.downloading.map Download.id ≠ some d.id →
      let r' := r.after m (.job n)
      r'.snapshotter = s.setJob n (.supersededBy d) ∧
      r'.machine = r.machine ∧ r'.log = r.log ∧ r'.history = r.history ∧
      (r.Sheltered → r'.log.view r'.volume.disk = r.log.view r.volume.disk) ∧
      ∀ later, (r'.afterAll m later).snapshotter.jobs[n]? = some (.supersededBy d)) ∧
    (∀ n, let s' := (r.after m (.job n)).snapshotter
      (∀ d, s.downloading = some d → s'.downloading ≠ some d →
        ∃ d', (s.job n).download? = some d' ∧ d'.id = d.id) ∧
      (s.saving = true → s'.saving = false → (s.job n).isSave = true) ∧
      (s.loading = true → s'.loading = false → (s.job n).isLoad = true)) ∧
    (s.awaited.map Download.id).Nodup ∧
    (∀ move, s.term ≤ (r.after m move).snapshotter.term) ∧
    (∀ later, let s' := ((r.after m .shutdown).afterAll m later).snapshotter
      s'.jobs.length = s.jobs.length ∧ (s'.saving = true → s.saving = true) ∧
      s'.downloading = none) := by
  intro r s
  have hs : s.Consistent := Snapshotter.consistent_new.changes
    (changes_afterAll m { start with snapshotter := {} } moves)
  refine ⟨hs.exclusive, ?_, hs.atMachine_le, ?_, after_job_releases m r, hs.distinct,
    fun move => (changes_after m r move).term_le, fun later => afterAll_shutdown m hs later⟩
  · rw [Snapshotter.isInstalling, decide_eq_true_eq]
    exact hs.installing
  · intro n d hn hd r'
    obtain ⟨hsnap, hmachine, hlog, hhistory⟩ := after_job_superseded m hn hd
    refine ⟨hsnap, hmachine, hlog, hhistory, fun hsheltered => ?_, fun later => ?_⟩
    · -- the step closes a reader at most, in the directory of the snapshots
      have hquiet : (r.snapshotter.job n).isQuiet = true := by
        rw [Snapshotter.job_eq hn]
        rfl
      obtain ⟨-, hrelied⟩ := hsheltered.after_job m hquiet
      exact congrArg (fun x => x.2.1) hrelied
    · apply (changes_afterAll m r' later).over
      rw [hsnap]
      exact List.getElem?_set_self (List.getElem?_eq_some_iff.1 hn).1

/-! ### An offer that is replaced while the log has entries

The log is on the disk that the snapshots are on, so the last part of the theorem about a
superseded job says something here. -/

open Simulation (BlobMachine)

/-- The leader offers a snapshot that reaches to an entry. -/
def offerUpTo (index : Nat) : InstallRequest :=
  ⟨"group", peerOn 1, 1, ⟨⟨1, index⟩, .empty, .empty⟩,
    "local://leader/" ++ SnapshotName.published index⟩

/-- A first offer is replaced by a second one, and the copy of the first sees that it is to stop. -/
def replacing : List (Move BlobMachine) :=
  [.requestInstall (offerUpTo 10), .requestInstall (offerUpTo 11), .copy 0 Copy.pieceSize]

/-- The node that this happens to has a log on disk with two entries. -/
def filled (r : Replica BlobMachine) : Replica BlobMachine := ((enter early).runOn r).2

/-- What a job copies. -/
def copied? (r : Replica BlobMachine) (n : Nat) : Option Download :=
  match r.snapshotter.jobs[n]? with
  | some (.copying d) => some d
  | _ => none

section

variable {r₀ : Replica BlobMachine}
  (hboot : boot BlobMachine.machine (.below "data") .usual "group" none {} .empty = .ok r₀)

include hboot

/-- The log is below the same directory as the snapshots, but not in theirs. -/
theorem sheltered_replaced :
    (afterAll BlobMachine.machine { filled r₀ with snapshotter := {} } replacing).Sheltered := by
  obtain ⟨home, den, hapart⟩ := fresh_data.exists_apart
  obtain ⟨r₁, hboot₁, hsettled⟩ := boots fresh_data hapart BlobMachine.machine "group" none {}
  obtain rfl : r₁ = r₀ := Except.ok.inj (hboot₁.symm.trans hboot)
  obtain ⟨mem, hentered⟩ := hsettled.enter hapart proper_early
  have hcopies : ((enter early).runOn r₁).2.snapshots.copies.length = 0 := by
    have hmap : (boot BlobMachine.machine (.below "data") .usual "group" none {}
        .empty).toOption.map (fun r => ((enter early).runOn r).2.snapshots.copies.length) =
        some 0 := by decide +kernel
    rw [hboot] at hmap
    exact Option.some.inj hmap
  have h : { filled r₁ with snapshotter := {} : Replica BlobMachine }.Sheltered :=
    (hentered.sheltered hapart (List.length_eq_zero_iff.1 hcopies)).knowing {}
  -- requests and steps of a copy stay on the snapshots' side
  have haside : ∀ move ∈ replacing, move.Aside := by
    intro move hmove
    simp only [replacing, List.mem_cons, List.not_mem_nil, or_false] at hmove
    rcases hmove with rfl | rfl | rfl
    · exact .requestInstall _
    · exact .requestInstall _
    · exact .copy 0 _
  exact (h.afterAll_aside BlobMachine.machine haside).1

/-- The first job is still copying, the second offer is registered, and the entries are there. -/
theorem seen_replaced :
    let r := afterAll BlobMachine.machine { filled r₀ with snapshotter := {} } replacing
    copied? r 0 = some ⟨1, ⟨1, 10⟩, 0⟩ ∧ r.snapshotter.downloading = some ⟨2, ⟨1, 11⟩, 1⟩ ∧
      (r.log.get 2 r.volume.disk).toOption = some (some (.ofData 1 2 [7])) := by
  have hmap : (boot BlobMachine.machine (.below "data") .usual "group" none {} .empty).toOption.map
      (fun r₀ =>
        let r := afterAll BlobMachine.machine { filled r₀ with snapshotter := {} } replacing
        (copied? r 0, r.snapshotter.downloading, (r.log.get 2 r.volume.disk).toOption)) =
      some (some ⟨1, ⟨1, 10⟩, 0⟩, some ⟨2, ⟨1, 11⟩, 1⟩, some (some (.ofData 1 2 [7]))) := by
    decide +kernel
  rw [hboot] at hmap
  obtain ⟨hcopied, hseen⟩ := Prod.mk.inj (Option.some.inj hmap)
  obtain ⟨hdownloading, hget⟩ := Prod.mk.inj hseen
  exact ⟨hcopied, hdownloading, hget⟩

end

/-- The job of the first offer ends as interrupted, and the log on disk has its entries still. -/
theorem one_at_a_time_superseded :
    ∃ r₀, boot BlobMachine.machine (.below "data") .usual "group" none {} .empty = .ok r₀ ∧
      ∃ r, r = afterAll BlobMachine.machine { filled r₀ with snapshotter := {} } replacing ∧
        r.Sheltered ∧
        let r' := r.after BlobMachine.machine (.job 0)
        r'.snapshotter.jobs[0]? = some (.supersededBy ⟨1, ⟨1, 10⟩, 0⟩) ∧
          r'.snapshotter.downloading = some ⟨2, ⟨1, 11⟩, 1⟩ ∧
          (r'.log.get 2 r'.volume.disk).toOption = some (some (.ofData 1 2 [7])) := by
  obtain ⟨home, den, hapart⟩ := fresh_data.exists_apart
  obtain ⟨r₀, hboot, -⟩ := boots fresh_data hapart BlobMachine.machine "group" none {}
  obtain ⟨-, -, -, hsuperseded, -⟩ := one_at_a_time BlobMachine.machine (filled r₀) replacing
  have hsheltered := sheltered_replaced hboot
  obtain ⟨hcopied, hdownloading, hget⟩ := seen_replaced hboot
  refine ⟨r₀, hboot, _, rfl, ?_⟩
  -- what follows needs nothing else of the state, which is a large term
  generalize afterAll BlobMachine.machine { filled r₀ with snapshotter := {} } replacing = r
    at hsuperseded hsheltered hcopied hdownloading hget ⊢
  have hjob : r.snapshotter.jobs[0]? = some (.copying ⟨1, ⟨1, 10⟩, 0⟩) := by
    unfold copied? at hcopied
    split at hcopied
    · next d hd => rw [hd, Option.some.inj hcopied]
    · exact absurd hcopied (by simp)
  have hother : r.snapshotter.downloading.map Download.id ≠ some 1 := by
    rw [hdownloading]
    decide
  obtain ⟨hsnap, -, -, -, hview, -⟩ := hsuperseded 0 _ hjob hother
  have hkept : (r.after BlobMachine.machine (.job 0)).log.get 2
      (r.after BlobMachine.machine (.job 0)).volume.disk = r.log.get 2 r.volume.disk :=
    congrFun (congrArg LogStore.View.entry (hview hsheltered)) 2
  refine ⟨hsheltered, ?_, ?_, hkept ▸ hget⟩
  · rw [hsnap]
    exact List.getElem?_set_self (List.getElem?_eq_some_iff.1 hjob).1
  · rw [hsnap]
    exact hdownloading

end Replica
end RaftReplica
