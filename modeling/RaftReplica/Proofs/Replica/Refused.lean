/-
RaftReplica/Proofs/Replica/Refused.lean

Requests to install a snapshot that are refused while another one is downloading.  Most of them leave
the node as it is.  But a request that could take the place of the download (`Snapshotter.GivesWay`)
has it given up before its own uri is looked at: if the uri names nothing to copy, the request is
refused and the download is lost with it.

* A request that cannot take its place is refused by one of the checks in front, and none of them
  changes anything (`runOn_requestInstall_kept`).
* A request that can gets through all of them, and the download is given up.  What follows depends on
  the uri alone (`runOn_requestInstall_givesWay`).

A download that was given up is never registered again, since each one has a number of its own; so
its job ends as superseded, whatever happens in between.  `Snapshotter.GaveUp` is kept by every
change (`GaveUp.change`): numbers only grow, so no new download has this one, and of all ways on for
the job only one is open.

Main result: `Replica.refused_install`, for every state that moves lead to.
-/
import RaftReplica.Proofs.Replica.Installing

namespace RaftReplica

/-! ### Downloads that were given up -/

namespace Snapshotter

variable {s s' : Snapshotter} {d : Download} {n : Nat}

/-- While a snapshot is downloading nothing else is going on. -/
theorem Consistent.of_downloading (hs : s.Consistent) (hd : s.downloading = some d) :
    s.saving = false ∧ s.loading = false ∧ s.isInstalling = true := by
  have hex := hs.exclusive
  rw [hd, Option.isSome_some, Bool.toNat_true] at hex
  refine ⟨Bool.toNat_eq_zero.1 (by omega), Bool.toNat_eq_zero.1 (by omega), ?_⟩
  · rw [isInstalling, decide_eq_true_eq]
    exact hs.installing.2 (.inl (by rw [hd]; rfl))

/-- The download has its number from before and is not registered; the job with the number `n`
waits for it, or was already told that it is superseded. -/
structure GaveUp (s : Snapshotter) (n : Nat) (d : Download) : Prop where
  numbered : d.id ≤ s.downloads
  unregistered : ¬ s.Registers d
  job : s.jobs[n]? = some (.copying d) ∨ s.jobs[n]? = some (.supersededBy d)

theorem not_registers_of_none (h : s.downloading = none) : ¬ s.Registers d := by
  simp [Registers, h]

/-- **What was given up** stays so in every change. -/
theorem GaveUp.change (h : s.GaveUp n d) (hchange : s.Change s') : s'.GaveUp n d := by
  obtain ⟨hnumbered, hunregistered, hjob⟩ := h
  have hlt : n < s.jobs.length := by
    rcases hjob with hjob | hjob <;> exact (List.getElem?_eq_some_iff.1 hjob).1
  -- one case for each change; only a new download and a step of this very job need an argument
  cases hchange with
  | raise _ => exact ⟨hnumbered, hunregistered, hjob⟩
  | cancel =>
    rcases s.cancelled_cases with h | ⟨-, h⟩
    · rw [h]
      exact ⟨hnumbered, hunregistered, hjob⟩
    · rw [h]
      exact ⟨hnumbered, not_registers_of_none rfl, hjob⟩
  | stop => exact ⟨hnumbered, hunregistered, hjob⟩
  | beginSave => exact ⟨hnumbered, hunregistered, by rwa [List.getElem?_append_left hlt]⟩
  | @beginDownload d' hid =>
    refine ⟨by dsimp only; omega, fun hreg => ?_, by rwa [List.getElem?_append_left hlt]⟩
    -- the new download has a greater number
    have hsame : d'.id = d.id := Option.some.inj hreg
    omega
  | @advance k a b t hk hleads =>
    have hdownloads : t.downloads = s.downloads := by cases hleads <;> rfl
    have hregisters : ¬ t.Registers d := by
      cases hleads with
      | openCopy => exact not_registers_of_none rfl
      | endDownload => exact not_registers_of_none rfl
      | _ => exact hunregistered
    refine ⟨hdownloads ▸ hnumbered, hregisters, ?_⟩
    show (t.jobs.set k b)[n]? = _ ∨ (t.jobs.set k b)[n]? = _
    rw [hleads.jobs_eq]
    by_cases hkn : k = n
    · subst hkn
      rw [List.getElem?_set_self hlt]
      rcases hjob with hjob | hjob
      · obtain rfl := Option.some.inj (hk.symm.trans hjob)
        cases hleads with
        | supersede => exact .inr rfl
        | openCopy _ hreg => exact absurd hreg hunregistered
        | failCopy _ hreg => exact absurd hreg hunregistered
        | save ha => simp [JobStage.isSave] at ha
        | recordSave _ ha => simp [JobStage.isSave] at ha
        | load ha => simp [JobStage.isLoad] at ha
        | recordInstall _ ha => simp [JobStage.isLoad] at ha
      · obtain rfl := Option.some.inj (hk.symm.trans hjob)
        cases hleads with
        | rest => exact .inr rfl
        | save ha => simp [JobStage.supersededBy, JobStage.isSave] at ha
        | recordSave _ ha => simp [JobStage.supersededBy, JobStage.isSave] at ha
        | load ha => simp [JobStage.supersededBy, JobStage.isLoad] at ha
        | recordInstall _ ha => simp [JobStage.supersededBy, JobStage.isLoad] at ha
    · rwa [List.getElem?_set_ne hkn]

/-- A download that was given up stays so, whatever happens. -/
theorem GaveUp.changes (h : s.GaveUp n d) (hchanges : s.Changes s') : s'.GaveUp n d := by
  induction hchanges with
  | refl => exact h
  | tail _ hchange ih => exact ih.change hchange

/-- The download gives way to the request: the node is running and in the request's term, and the
request reaches further than the latest snapshot, and as far as the download. -/
structure GivesWay (s : Snapshotter) (d : Download) (request : InstallRequest) : Prop where
  running : s.stopped = false
  term : request.term = s.term
  newer : s.last.index < request.info.lastIncluded.index
  reaches : d.lastIncluded.index ≤ request.info.lastIncluded.index

end Snapshotter

namespace Replica

open SnapshotStore

variable {σ : Type} {m : StateMachine σ} {r r' : Replica σ} {d : Download} {n : Nat}
  {request : InstallRequest}

/-- The node once its download was given up. -/
def withoutDownload (r : Replica σ) (d : Download) : Replica σ :=
  { r with
    snapshots := r.snapshots.cancelCopy d.copy
    snapshotter := { r.snapshotter with downloading := none, installing := 0 } }

/-- The job of a download that was given up ends as superseded, whatever happens before. -/
theorem after_job_gaveUp (h : r.snapshotter.GaveUp n d) (later : List (Move σ)) :
    ((r.afterAll m later).after m (.job n)).snapshotter.jobs[n]? = some (.supersededBy d) := by
  obtain ⟨-, hunregistered, hjob⟩ := h.changes (changes_afterAll m r later)
  rcases hjob with hjob | hjob
  · rw [(after_job_superseded m hjob hunregistered).1]
    exact List.getElem?_set_self (List.getElem?_eq_some_iff.1 hjob).1
  · exact (changes_after m _ (.job n)).over hjob

/-! ### What a request does while a snapshot is downloading -/

/-- Giving up a download takes its copy back and forgets it. -/
theorem runOn_cancelDownload_of (hd : r.snapshotter.downloading = some d)
    (hl : r.snapshotter.loading = false) :
    (cancelDownload (σ := σ)).runOn r = (.ok (), r.withoutDownload d) := by
  rw [cancelDownload, Act.runOn_bind_ok (runOn_theSnapshotter r), if_neg (by simp [hl]), hd]
  rfl

/-- Nothing is copied if the uri names nothing. -/
theorem runOn_startDownload_error {e : Error} (h : sourceOf request.uri = .error e) :
    (startDownload (σ := σ) request).runOn r = (.error (.error e), r) := by
  have hcopy : (startCopy request.uri).runOn ⟨r.snapshots, r.volume⟩ =
      (.error (.error e), ⟨r.snapshots, r.volume⟩) := by
    rw [startCopy, h]
    rfl
  have hon : (onSnapshots (σ := σ) (startCopy request.uri)).runOn r = (.error (.error e), r) := by
    rw [onSnapshots, Act.runOn_zoom, hcopy]
  rw [startDownload, Act.runOn_bind_error hon]

/-- A copy is begun if the uri names a directory. -/
theorem runOn_startDownload_ok {source : Path} (h : sourceOf request.uri = .ok source) :
    ∃ d' r', (startDownload (σ := σ) request).runOn r = (.ok d', r') := by
  rcases runOn_startDownload (σ := σ) request r with ⟨e, r', hrun, -⟩ | ⟨d', r', hrun, -⟩
  · have hcopy := hrun
    rw [startDownload, onSnapshots, startCopy, h] at hcopy
    nomatch hcopy
  · exact ⟨d', r', hrun⟩

/-- **A request that the download does not give way to** changes nothing at the node, and no job
goes on with it. -/
theorem runOn_requestInstall_kept (hs : r.snapshotter.Consistent)
    (hd : r.snapshotter.downloading = some d) (hterm : request.term ≤ r.snapshotter.term)
    (h : ¬ r.snapshotter.GivesWay d request) :
    ∃ outcome, (requestInstall (σ := σ) request).runOn r = (outcome, r) ∧
      ∀ number, outcome ≠ .ok (.job number) := by
  obtain ⟨hsaving, hloading, -⟩ := hs.of_downloading hd
  have hfollow : (followTerm (σ := σ) request.term).runOn r = (.ok (), r) := by
    rw [followTerm, Act.runOn_bind_ok (runOn_theSnapshotter r), if_neg (by omega)]
    rfl
  rw [requestInstall, Act.runOn_bind_ok (runOn_theSnapshotter r)]
  by_cases hstopped : r.snapshotter.stopped = true
  · rw [if_pos hstopped]
    exact ⟨_, rfl, nofun⟩
  rw [if_neg hstopped]
  by_cases hold : request.term < r.snapshotter.term
  · rw [if_pos hold]
    exact ⟨_, rfl, nofun⟩
  rw [if_neg hold, Act.runOn_bind_ok hfollow, Act.runOn_bind_ok (runOn_theSnapshotter r)]
  by_cases hlast : request.info.lastIncluded.index ≤ r.snapshotter.last.index
  · rw [if_pos hlast]
    exact ⟨_, rfl, nofun⟩
  rw [if_neg hlast]
  -- what is left is a request that reaches less far than the download
  have hless : request.info.lastIncluded.index < d.lastIncluded.index := by
    by_contra hreaches
    exact h ⟨by simpa using hstopped, by omega, by omega, by omega⟩
  have hfree : checkFree request.info.lastIncluded r.snapshotter =
      .error (.busy (.olderThan d.lastIncluded request.info.lastIncluded)) := by
    rw [checkFree, hsaving, hloading, hd]
    simp [hless]
  rw [hfree]
  exact ⟨_, rfl, nofun⟩

/-- **A request that the download gives way to** has it given up, and then depends on its uri. -/
theorem runOn_requestInstall_givesWay (hs : r.snapshotter.Consistent)
    (hd : r.snapshotter.downloading = some d) (h : r.snapshotter.GivesWay d request) :
    (∀ cause, sourceOf request.uri = .error cause →
      (requestInstall (σ := σ) request).runOn r = (.error (.error cause), r.withoutDownload d)) ∧
    ∀ source, sourceOf request.uri = .ok source →
      ∃ number r', (requestInstall (σ := σ) request).runOn r = (.ok (.job number), r') := by
  obtain ⟨hsaving, hloading, -⟩ := hs.of_downloading hd
  have hterm := h.term
  have hnewer := h.newer
  have hreaches := h.reaches
  have hfollow : (followTerm (σ := σ) request.term).runOn r = (.ok (), r) := by
    rw [followTerm, Act.runOn_bind_ok (runOn_theSnapshotter r), if_neg (by omega)]
    rfl
  have hfree : checkFree request.info.lastIncluded r.snapshotter = .ok () := by
    rw [checkFree, hsaving, hloading, hd]
    simp [Nat.not_lt.2 hreaches]
  -- all checks are passed, and only the start of the new copy is left
  have hladder : (requestInstall (σ := σ) request).runOn r = (do
      let d' ← startDownload (σ := σ) request
      return Begun.job (← spawn (.copying d'))).runOn (r.withoutDownload d) := by
    rw [requestInstall, Act.runOn_bind_ok (runOn_theSnapshotter r), if_neg (by simp [h.running]),
      if_neg (by omega), Act.runOn_bind_ok hfollow, Act.runOn_bind_ok (runOn_theSnapshotter r),
      if_neg (by omega), hfree, Act.runOn_bind_ok (Act.runOn_ofExcept_ok rfl r),
      Act.runOn_bind_ok (runOn_cancelDownload_of hd hloading)]
  refine ⟨fun cause hcause => ?_, fun source hsource => ?_⟩
  · rw [hladder, Act.runOn_bind_error (runOn_startDownload_error hcause)]
  · obtain ⟨d', r', hstart⟩ := runOn_startDownload_ok (r := r.withoutDownload d) hsource
    rw [hladder, Act.runOn_bind_ok hstart]
    exact ⟨_, _, rfl⟩

/-- **A request that is refused while a snapshot is downloading**, in any state `r` that requests,
steps of jobs and things elsewhere lead to, where the request's term is not newer than the node's:

* if the download does not give way to the request, the node is as it was and still installs, so
  that everything later goes as without the request;
* otherwise it is the request's uri that names nothing to copy.  The download is given up all the
  same and its copy asked to stop, the node no longer installs, and the job of the download ends as
  superseded. -/
theorem refused_install (m : StateMachine σ) (start : Replica σ) (last : LogId)
    (moves : List (Move σ)) (request : InstallRequest) (d : Download) (e : Failure)
    (r' : Replica σ) :
    let r := afterAll m { start with snapshotter := { last } } moves
    r.snapshotter.downloading = some d → request.term ≤ r.snapshotter.term →
    (requestInstall request).runOn r = (.error e, r') →
    (¬ r.snapshotter.GivesWay d request → r' = r ∧ r'.snapshotter.isInstalling = true) ∧
    (r.snapshotter.GivesWay d request →
      (∃ cause, sourceOf request.uri = .error cause ∧ e = .error cause) ∧
      r' = r.withoutDownload d ∧ r'.snapshotter.isInstalling = false ∧
      ∀ n, r.snapshotter.jobs[n]? = some (.copying d) → ∀ later,
        ((r'.afterAll m later).after m (.job n)).snapshotter.jobs[n]? =
          some (.supersededBy d)) := by
  intro r hd hterm hrun
  have hnew : Snapshotter.Consistent { last } :=
    ⟨rfl, rfl, by simp, by simp, List.nodup_nil, by simp [Snapshotter.awaited]⟩
  have hs : r.snapshotter.Consistent :=
    hnew.changes (changes_afterAll m { start with snapshotter := { last } } moves)
  refine ⟨fun h => ?_, fun h => ?_⟩
  · obtain ⟨outcome, hkept, -⟩ := runOn_requestInstall_kept hs hd hterm h
    rw [hkept] at hrun
    obtain ⟨-, rfl⟩ := Prod.mk.inj hrun
    exact ⟨rfl, (hs.of_downloading hd).2.2⟩
  · obtain ⟨herror, hok⟩ := runOn_requestInstall_givesWay hs hd h
    cases hsource : sourceOf request.uri with
    | ok source =>
      obtain ⟨number, r₁, hjob⟩ := hok source hsource
      rw [hjob] at hrun
      obtain ⟨hr, -⟩ := Prod.mk.inj hrun
      cases hr
    | error cause =>
      rw [herror cause hsource] at hrun
      obtain ⟨he, rfl⟩ := Prod.mk.inj hrun
      refine ⟨⟨cause, rfl, (Except.error.inj he).symm⟩, rfl, rfl, fun n hn later => ?_⟩
      have hmem : d ∈ r.snapshotter.awaited :=
        List.mem_filterMap.2 ⟨_, List.mem_of_getElem? hn, rfl⟩
      have hgave : (r.withoutDownload d).snapshotter.GaveUp n d :=
        ⟨hs.numbered d hmem, Snapshotter.not_registers_of_none rfl, .inl hn⟩
      exact after_job_gaveUp hgave later

/-! The follower downloads the snapshot that its leader offers. -/

open Simulation (BlobMachine)

/-- The follower while it downloads. -/
def downloading : Replica BlobMachine :=
  afterAll BlobMachine.machine { follower with snapshotter := { last := .zero } }
    [.requestInstall (offer 3)]

/-- A request that reaches less far than the download changes nothing; one from the same leader
whose uri names no directory has the download given up. -/
theorem refused_install_older :
    let older : InstallRequest := { offer 3 with info := ⟨⟨1, 9⟩, .empty, .empty⟩ }
    let other : InstallRequest := { offer 3 with uri := "remote://x" }
    (requestInstall older).runOn downloading =
      (.error (.error (.busy (.olderThan ⟨1, 10⟩ ⟨1, 9⟩))), downloading) ∧
    (requestInstall other).runOn downloading =
      (.error (.error (.unsupportedBackend "remote://x")),
        downloading.withoutDownload ⟨1, ⟨1, 10⟩, 0⟩) := by
  intro older other
  let d : Download := ⟨1, ⟨1, 10⟩, 0⟩
  have hd : downloading.snapshotter.downloading = some d := by decide +kernel
  have hterm : downloading.snapshotter.term = 1 := by decide +kernel
  have holder : (requestInstall older).runOn downloading =
      (.error (.error (.busy (.olderThan ⟨1, 10⟩ ⟨1, 9⟩))),
        ((requestInstall older).runOn downloading).2) := Prod.ext (by decide +kernel) rfl
  have hother : (requestInstall other).runOn downloading =
      (.error (.error (.unsupportedBackend "remote://x")),
        ((requestInstall other).runOn downloading).2) := Prod.ext (by decide +kernel) rfl
  have hkept := (refused_install BlobMachine.machine follower .zero [.requestInstall (offer 3)]
    older d _ _ hd (Nat.le_of_eq hterm.symm) holder).1 fun h => absurd h.reaches (by decide)
  have hlost := (refused_install BlobMachine.machine follower .zero [.requestInstall (offer 3)]
    other d _ _ hd (Nat.le_of_eq hterm.symm) hother).2
    ⟨by decide +kernel, hterm.symm, by decide +kernel, by decide⟩
  exact ⟨holder.trans (congrArg _ hkept.1), hother.trans (congrArg _ hlost.2.1)⟩

/-- **A download that is lost**: the request is refused because of its uri and starts nothing, but
the download is no longer registered, its copy is to stop, and its job ends as superseded. -/
theorem refused_install_loses_download :
    let other : InstallRequest := { offer 3 with uri := "remote://x" }
    let asked := (requestInstall other).runOn downloading
    let later := asked.2.afterAll BlobMachine.machine [.copy 0 Copy.pieceSize, .job 0]
    downloading.snapshotter.isInstalling = true ∧
      other.term ≤ downloading.snapshotter.term ∧
      asked.1 = .error (.error (.unsupportedBackend "remote://x")) ∧
      asked.2.snapshotter.downloading = none ∧ asked.2.snapshotter.isInstalling = false ∧
      (asked.2.snapshots.copy 0).cancelled = true ∧
      later.snapshotter.outcome? 0 = some (.error (.interrupted (.superseded ⟨1, 10⟩))) := by
  decide +kernel

end Replica
end RaftReplica
