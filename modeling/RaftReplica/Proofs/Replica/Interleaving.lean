/-
RaftReplica/Proofs/Replica/Interleaving.lean

A node does one thing with snapshots at a time, however the sections of requests and jobs
interleave.

The flags of the snapshotter are set by requests and released by jobs that nobody waits for, so they
are tied to the jobs that are on their way:

    jobs that save  = saving        jobs that load  = loading

and at most one of `saving`, a registered download and `loading` holds.  That is
`Snapshotter.Consistent`.  Every change that a section can make keeps it, so every run of sections
does.

* A job goes on.  `Consistent.advance` has one case for each way that a job can lead to its next
  stage.  Within a phase the two counts stay; at the end of a phase a job gives its flag back; and
  when a copy is opened, the download gives its turn to the load in the same section.
* A request.  `Consistent.change` adds the changes that requests make.  A request begins something
  only if all three flags are down, so the new flag is the only one.
* Downloads are numbered.  The numbers of those that are waited for are distinct and not above the
  last one given, so a job recognises its own download by the number alone.

Some things no change takes back: the term does not fall (`Changes.term_le`), a job that is over
stays over (`Changes.over`), and a node that was stopped begins nothing (`Changes.beginsNothing`).
All of them are read off the same list of changes, and `changes_after` says that every move of a
node is a run of these.
-/
import Mathlib.Data.List.Nodup
import Mathlib.Logic.Relation
import Mathlib.Tactic.Common
import RaftReplica.Proofs.Counting
import RaftReplica.Proofs.Replica.Quiet

namespace RaftReplica

namespace Snapshotter

/-! ### The invariant -/

/-- The downloads that jobs wait for or are about to take back. -/
def awaited (s : Snapshotter) : List Download := s.jobs.filterMap JobStage.download?

/-- Flags and jobs agree, and at most one thing is going on. -/
structure Consistent (s : Snapshotter) : Prop where
  saves : s.jobs.countP JobStage.isSave = s.saving.toNat
  loads : s.jobs.countP JobStage.isLoad = s.loading.toNat
  exclusive : s.saving.toNat + s.downloading.isSome.toNat + s.loading.toNat ≤ 1
  installing : s.installing ≠ 0 ↔ s.downloading.isSome = true ∨ s.loading = true
  /-- No two jobs await the same download. -/
  distinct : (s.awaited.map Download.id).Nodup
  numbered : ∀ d ∈ s.awaited, d.id ≤ s.downloads

/-- A new snapshotter does nothing. -/
theorem consistent_new : Consistent {} where
  saves := rfl
  loads := rfl
  exclusive := by decide
  installing := by simp
  distinct := List.nodup_nil
  numbered := by simp [awaited]

variable {s s' : Snapshotter}

/-- A job that saves tells that `saving` holds. -/
theorem Consistent.saving_of_job (hs : s.Consistent) {n : Nat} {a : JobStage}
    (hn : s.jobs[n]? = some a) (ha : a.isSave = true) : s.saving = true := by
  have hpos := countP_pos_of_getElem? hn ha
  rw [hs.saves] at hpos
  cases h : s.saving with
  | true => rfl
  | false => simp [h] at hpos

/-- A job that loads tells that `loading` holds. -/
theorem Consistent.loading_of_job (hs : s.Consistent) {n : Nat} {a : JobStage}
    (hn : s.jobs[n]? = some a) (ha : a.isLoad = true) : s.loading = true := by
  have hpos := countP_pos_of_getElem? hn ha
  rw [hs.loads] at hpos
  cases h : s.loading with
  | true => rfl
  | false => simp [h] at hpos

/-- A job goes from stage `a` to stage `b`, and the flags follow. -/
theorem Consistent.setJob (hs : s.Consistent) {n : Nat} {a b : JobStage}
    (hn : s.jobs[n]? = some a) (hjobs : s'.jobs = s.jobs) (hdownloads : s'.downloads = s.downloads)
    (hsave : s.saving.toNat + b.isSave.toNat = s'.saving.toNat + a.isSave.toNat)
    (hload : s.loading.toNat + b.isLoad.toNat = s'.loading.toNat + a.isLoad.toNat)
    (hexclusive : s'.saving.toNat + s'.downloading.isSome.toNat + s'.loading.toNat ≤ 1)
    (hinstalling : s'.installing ≠ 0 ↔ s'.downloading.isSome = true ∨ s'.loading = true)
    (hdownload : b.download? = a.download? ∨ b.download? = none) :
    (s'.setJob n b).Consistent := by
  -- the job waits for the download that it waited for, or for none
  have hsub : (s'.setJob n b).awaited.Sublist s.awaited := by
    simp only [awaited, Snapshotter.setJob, hjobs]
    exact filterMap_set_sublist hn hdownload
  refine ⟨?_, ?_, hexclusive, hinstalling, ?_, ?_⟩
  · have hcount := countP_set_add (p := JobStage.isSave) b hn
    have hbefore := hs.saves
    simp only [Snapshotter.setJob, hjobs]
    omega
  · have hcount := countP_set_add (p := JobStage.isLoad) b hn
    have hbefore := hs.loads
    simp only [Snapshotter.setJob, hjobs]
    omega
  · exact hs.distinct.sublist (hsub.map _)
  · intro d hd
    show d.id ≤ s'.downloads
    rw [hdownloads]
    exact hs.numbered d (hsub.subset hd)

/-- A job that stays in a phase, where no flag changes. -/
theorem Consistent.setJob_same (hs : s.Consistent) {n : Nat} {a b : JobStage} (last : LogId)
    (hn : s.jobs[n]? = some a) (hsave : b.isSave = a.isSave) (hload : b.isLoad = a.isLoad)
    (hdownload : b.download? = a.download? ∨ b.download? = none) :
    Consistent ({ s with last }.setJob n b) :=
  hs.setJob hn rfl rfl (by rw [hsave]) (by rw [hload]) hs.exclusive hs.installing hdownload

theorem isLoad_of_isSave {a : JobStage} (h : a.isSave = true) :
    a.isLoad = false ∧ a.download? = none := by
  cases a <;> simp_all [JobStage.isSave, JobStage.isLoad, JobStage.download?]

theorem isSave_of_isLoad {a : JobStage} (h : a.isLoad = true) :
    a.isSave = false ∧ a.download? = none := by
  cases a <;> simp_all [JobStage.isSave, JobStage.isLoad, JobStage.download?]

/-- A download that is registered is there. -/
theorem isSome_of_registers {d : Download} (h : s.Registers d) : s.downloading.isSome = true := by
  cases hd : s.downloading with
  | some d' => rfl
  | none => simp [Registers, hd] at h

/-- Every step of a job keeps the invariant. -/
theorem Consistent.advance (hs : s.Consistent) {n : Nat} {a b : JobStage}
    (hn : s.jobs[n]? = some a) (h : a.Leads s b s') : (s'.setJob n b).Consistent := by
  have hex := hs.exclusive
  cases h with
  -- within a phase the numbers of jobs that save and that load stay as they are
  | save ha hb =>
    obtain ⟨hla, hda⟩ := isLoad_of_isSave ha
    obtain ⟨hlb, hdb⟩ := isLoad_of_isSave hb
    exact hs.setJob_same s.last hn (hb.trans ha.symm) (hlb.trans hla.symm) (.inr hdb)
  | recordSave last ha hb =>
    obtain ⟨hla, hda⟩ := isLoad_of_isSave ha
    obtain ⟨hlb, hdb⟩ := isLoad_of_isSave hb
    exact hs.setJob_same last hn (hb.trans ha.symm) (hlb.trans hla.symm) (.inr hdb)
  | load ha hb =>
    obtain ⟨hsa, hda⟩ := isSave_of_isLoad ha
    obtain ⟨hsb, hdb⟩ := isSave_of_isLoad hb
    exact hs.setJob_same s.last hn (hsb.trans hsa.symm) (hb.trans ha.symm) (.inr hdb)
  | recordInstall last ha hb =>
    obtain ⟨hsa, hda⟩ := isSave_of_isLoad ha
    obtain ⟨hsb, hdb⟩ := isSave_of_isLoad hb
    exact hs.setJob_same last hn (hsb.trans hsa.symm) (hb.trans ha.symm) (.inr hdb)
  | endSave result =>
    -- the job that held `saving` is over, and no other one held it
    have hsaving := hs.saving_of_job hn rfl
    refine hs.setJob hn rfl rfl (by simp [hsaving, JobStage.isSave]) rfl ?_ hs.installing (.inl rfl)
    exact Nat.le_trans (by simp) hex
  | endLoad r result =>
    have hloading := hs.loading_of_job hn rfl
    simp only [hloading, Bool.toNat_true] at hex
    have hnone : s.downloading.isSome = false := by
      cases h : s.downloading.isSome <;> simp [h] at hex ⊢
    refine hs.setJob hn rfl rfl rfl (by simp [hloading, JobStage.isLoad]) ?_ ?_ (.inl rfl)
    · simp only [Bool.toNat_false]
      omega
    · simp [hnone]
  | supersede _ => exact hs.setJob_same s.last hn rfl rfl (.inr rfl)
  | failCopy e _ => exact hs.setJob_same s.last hn rfl rfl (.inl rfl)
  | openCopy r hd =>
    -- the download gives its turn to the load, so at no time is it free
    have hsome := isSome_of_registers hd
    have hloading : s.loading = false := by
      cases h : s.loading <;> simp [h, hsome] at hex ⊢
    refine hs.setJob hn rfl rfl rfl (by simp [hloading, JobStage.isLoad]) ?_ ?_ (.inr rfl)
    · simpa [hsome, hloading] using hex
    · simp [hs.installing, hsome]
  | endDownload result hd =>
    have hsome := isSome_of_registers hd
    have hloading : s.loading = false := by
      cases h : s.loading <;> simp [h, hsome] at hex ⊢
    refine hs.setJob hn rfl rfl rfl rfl ?_ ?_ (.inr rfl)
    · exact Nat.le_trans (by simp) hex
    · simp [hloading]
  | leaveDownload result _ => exact hs.setJob_same s.last hn rfl rfl (.inr rfl)
  | rest result => exact hs.setJob_same s.last hn rfl rfl (.inl rfl)

/-- Giving up a download keeps the flags in step with the jobs. -/
theorem Consistent.cancelled (hs : s.Consistent) : s.cancelled.Consistent := by
  rcases s.cancelled_cases with h | ⟨hl, h⟩
  · rwa [h]
  · rw [h]
    refine ⟨hs.saves, hs.loads, ?_, by simp [hl], hs.distinct, hs.numbered⟩
    exact Nat.le_trans (by simp) hs.exclusive

/-- Every change that a section can make keeps the invariant. -/
theorem Consistent.change (hs : s.Consistent) (h : s.Change s') : s'.Consistent := by
  -- one case for each change; only beginning something touches the counts
  cases h with
  | raise _ => exact ⟨hs.saves, hs.loads, hs.exclusive, hs.installing, hs.distinct, hs.numbered⟩
  | cancel => exact hs.cancelled
  | stop => exact ⟨hs.saves, hs.loads, hs.exclusive, hs.installing, hs.distinct, hs.numbered⟩
  | beginSave _ hsaving hd hl =>
    have hawaited : awaited { s with saving := true, jobs := s.jobs ++ [.making s.last] }
        = s.awaited := by
      rw [awaited, List.filterMap_append]
      exact List.append_nil _
    refine ⟨?_, ?_, ?_, hs.installing, hawaited ▸ hs.distinct, hawaited ▸ hs.numbered⟩
    · simp [List.countP_append, hs.saves, hsaving, JobStage.isSave]
    · simp [List.countP_append, hs.loads, JobStage.isLoad]
    · simp [hd, hl]
  | @beginDownload d hid _ hsaving hd hl =>
    have hawaited : awaited { s with
        downloads := d.id, downloading := some d, installing := d.id,
        jobs := s.jobs ++ [.copying d] } = s.awaited ++ [d] := by
      simp [awaited, List.filterMap_append, JobStage.download?]
    refine ⟨?_, ?_, ?_, ?_, ?_, ?_⟩
    · simp [List.countP_append, hs.saves, JobStage.isSave]
    · simp [List.countP_append, hs.loads, JobStage.isLoad]
    · simp [hsaving, hl]
    · simp [hid]
    · -- the new number is above all that were given before
      rw [hawaited, List.map_append, List.map_singleton, List.nodup_append]
      refine ⟨hs.distinct, List.nodup_singleton _, ?_⟩
      intro i hi j hj
      obtain ⟨d', hd', rfl⟩ := List.mem_map.1 hi
      have hle := hs.numbered d' hd'
      rw [List.mem_singleton.1 hj, hid]
      omega
    · intro d' hd'
      rw [hawaited, List.mem_append, List.mem_singleton] at hd'
      show d'.id ≤ d.id
      rcases hd' with hd' | rfl
      · have hle := hs.numbered d' hd'
        omega
      · exact Nat.le_refl _
  | advance hn hleads => exact hs.advance hn hleads

/-- So does every run of changes, by induction. -/
theorem Consistent.changes (hs : s.Consistent) (h : s.Changes s') : s'.Consistent := by
  induction h with
  | refl => exact hs
  | tail _ hstep ih => exact ih.change hstep

/-! ### What no change undoes -/

/-- The term does not fall in one change. -/
theorem Change.term_le (h : s.Change s') : s.term ≤ s'.term := by
  cases h with
  | raise hle => exact hle
  | cancel =>
    have hterm : s.cancelled.term = s.term := by
      rcases s.cancelled_cases with h | ⟨-, h⟩ <;> rw [h]
    exact Nat.le_of_eq hterm.symm
  | stop => exact Nat.le_refl _
  | beginSave => exact Nat.le_refl _
  | beginDownload => exact Nat.le_refl _
  | advance _ hleads => cases hleads <;> exact Nat.le_refl _

/-- The term never falls. -/
theorem Changes.term_le (h : s.Changes s') : s.term ≤ s'.term := by
  induction h with
  | refl => exact Nat.le_refl _
  | tail _ hstep ih => exact Nat.le_trans ih hstep.term_le

/-- A job that is over stays so. -/
theorem Change.over {n : Nat} {result : Except Error JobResult} (h : s.Change s')
    (hn : s.jobs[n]? = some (.over result)) : s'.jobs[n]? = some (.over result) := by
  have hlt : n < s.jobs.length := (List.getElem?_eq_some_iff.1 hn).1
  cases h with
  | raise _ => exact hn
  | cancel => rcases s.cancelled_cases with h | ⟨-, h⟩ <;> rwa [h]
  | stop => exact hn
  | beginSave => exact (List.getElem?_append_left hlt).trans hn
  | beginDownload => exact (List.getElem?_append_left hlt).trans hn
  | @advance k a b t hk hleads =>
    show (t.jobs.set k b)[n]? = some (.over result)
    rw [hleads.jobs_eq]
    -- a job that is over leads to nothing but itself
    by_cases hkn : k = n
    · subst hkn
      rw [hn] at hk
      obtain rfl := Option.some.inj hk
      rw [List.getElem?_set_self hlt]
      cases hleads with
      | rest => rfl
      | save ha _ => simp [JobStage.isSave] at ha
      | recordSave _ ha _ => simp [JobStage.isSave] at ha
      | load ha _ => simp [JobStage.isLoad] at ha
      | recordInstall _ ha _ => simp [JobStage.isLoad] at ha
    · rw [List.getElem?_set_ne hkn, hn]

/-- A job that is over stays over. -/
theorem Changes.over {n : Nat} {result : Except Error JobResult} (h : s.Changes s')
    (hn : s.jobs[n]? = some (.over result)) : s'.jobs[n]? = some (.over result) := by
  induction h with
  | refl => exact hn
  | tail _ hstep ih => exact hstep.over ih

/-- Nothing begins in `s'` that was not under way in `s`. -/
structure BeginsNothing (s s' : Snapshotter) : Prop where
  jobs : s'.jobs.length = s.jobs.length
  saving : s'.saving = true → s.saving = true
  downloading : s'.downloading = none ∨ s'.downloading = s.downloading

/-- Once it was stopped, nothing begins. -/
theorem Change.beginsNothing (h : s.Change s') (hstop : s.stopped = true) :
    s'.stopped = true ∧ s.BeginsNothing s' := by
  -- the two changes that begin something ask whether the node was stopped
  cases h with
  | raise _ => exact ⟨hstop, rfl, id, .inr rfl⟩
  | cancel =>
    rcases s.cancelled_cases with h | ⟨-, h⟩
    · rw [h]
      exact ⟨hstop, rfl, id, .inr rfl⟩
    · rw [h]
      exact ⟨hstop, rfl, id, .inl rfl⟩
  | stop => exact ⟨rfl, rfl, id, .inr rfl⟩
  | beginSave hgo => simp [hstop] at hgo
  | beginDownload _ hgo => simp [hstop] at hgo
  | @advance n a b t _ hleads =>
    have hset : (t.setJob n b).jobs.length = s.jobs.length := by
      rw [Snapshotter.setJob, List.length_set, hleads.jobs_eq]
    cases hleads with
    | endSave => exact ⟨hstop, hset, by simp [Snapshotter.setJob], .inr rfl⟩
    | openCopy => exact ⟨hstop, hset, id, .inl rfl⟩
    | endDownload => exact ⟨hstop, hset, id, .inl rfl⟩
    | _ => exact ⟨hstop, hset, id, .inr rfl⟩

/-- A node that was stopped begins nothing any more, though what is on its way may end. -/
theorem Changes.beginsNothing (h : s.Changes s') (hstop : s.stopped = true) :
    s'.stopped = true ∧ s.BeginsNothing s' := by
  induction h with
  | refl => exact ⟨hstop, rfl, id, .inr rfl⟩
  | tail _ hstep ih =>
    obtain ⟨hstop', hjobs, hsaving, hdown⟩ := ih
    obtain ⟨hstop'', hjobs', hsaving', hdown'⟩ := hstep.beginsNothing hstop'
    refine ⟨hstop'', hjobs'.trans hjobs, fun h => hsaving (hsaving' h), ?_⟩
    rcases hdown' with h | h
    · exact .inl h
    · rw [h]
      exact hdown

/-- The machine is at work for one job at most. -/
theorem Consistent.atMachine_le (hs : s.Consistent) : s.jobs.countP JobStage.atMachine ≤ 1 := by
  -- a job is at the machine while it saves or loads, and only then
  have hle : ∀ jobs : List JobStage, jobs.countP JobStage.atMachine
      ≤ jobs.countP JobStage.isSave + jobs.countP JobStage.isLoad := by
    intro jobs
    induction jobs with
    | nil => simp
    | cons a rest ih =>
      simp only [List.countP_cons]
      cases a <;> simp [JobStage.atMachine, JobStage.isSave, JobStage.isLoad] <;> omega
  have hex := hs.exclusive
  have hall := hle s.jobs
  rw [hs.saves, hs.loads] at hall
  omega

end Snapshotter

namespace Replica

variable {σ : Type}

/-! ### Runs -/

/-- What can happen at a node: a request, a step of one of its jobs, or anything that does not go
through the snapshotter, as when a copy goes on, the log grows or the machine applies entries. -/
inductive Move (σ : Type)
  | requestSnapshot
  | requestInstall (request : InstallRequest)
  | interrupt (term : Nat)
  | shutdown
  | job (number : Nat)
  | elsewhere (f : Replica σ → Replica σ)

/-- The node after a move. -/
def after (m : StateMachine σ) (r : Replica σ) : Move σ → Replica σ
  | .requestSnapshot => ((requestSnapshot m).runOn r).2
  | .requestInstall request => ((requestInstall request).runOn r).2
  | .interrupt term => ((interrupt term).runOn r).2
  | .shutdown => (shutdown.runOn r).2
  | .job number => ((stepJob m number).runOn r).2
  | .elsewhere f => { f r with snapshotter := r.snapshotter }

/-- The node after moves, one after the other. -/
def afterAll (m : StateMachine σ) (r : Replica σ) (moves : List (Move σ)) : Replica σ :=
  moves.foldl (after m) r

/-- A step of a job as a move. -/
theorem after_job (m : StateMachine σ) (r : Replica σ) (n : Nat) :
    ∃ b r', (advance m (r.snapshotter.job n)).runOn r = (.ok b, r') ∧
      (r.snapshotter.job n).Leads r.snapshotter b r'.snapshotter ∧
      r.after m (.job n) = { r' with snapshotter := r'.snapshotter.setJob n b } := by
  obtain ⟨b, r', hrun, hleads, hstep⟩ := runOn_stepJob m n r
  exact ⟨b, r', hrun, hleads, by rw [after, hstep]⟩

/-- What a job whose download is no longer registered does when its copy is over: it ends, and
nothing but its own stage and the store of snapshots changes. -/
theorem after_job_superseded (m : StateMachine σ) {r : Replica σ} {n : Nat} {d : Download}
    (hn : r.snapshotter.jobs[n]? = some (.copying d)) (hd : ¬ r.snapshotter.Registers d) :
    (r.after m (.job n)).snapshotter = r.snapshotter.setJob n (.supersededBy d) ∧
      (r.after m (.job n)).machine = r.machine ∧ (r.after m (.job n)).log = r.log ∧
      (r.after m (.job n)).history = r.history := by
  have hjob : r.snapshotter.job n = .copying d := Snapshotter.job_eq hn
  obtain ⟨b, r', hrun, hleads, hafter⟩ := after_job m r n
  have hkept := keeps_standing_advance m (show (JobStage.copying d).isQuiet = true from rfl) r
  rw [hjob] at hrun hleads
  rw [hrun] at hkept
  simp only [standing, Prod.mk.injEq] at hkept
  obtain ⟨hmachine, hlog, hhistory, -⟩ := hkept
  rw [hafter]
  refine ⟨?_, hmachine, hlog, hhistory⟩
  generalize r'.snapshotter = s' at hleads ⊢
  -- of all ways on, only one is open to a copy whose download is not registered
  cases hleads with
  | supersede => rfl
  | openCopy _ hreg => exact absurd hreg hd
  | failCopy _ hreg => exact absurd hreg hd
  | save ha => simp [JobStage.isSave] at ha
  | recordSave _ ha => simp [JobStage.isSave] at ha
  | load ha => simp [JobStage.isLoad] at ha
  | recordInstall _ ha => simp [JobStage.isLoad] at ha

/-- A step of a job takes back only what is its own: a registration by the job that awaits the
download, and each flag by a job of its phase. -/
theorem after_job_releases (m : StateMachine σ) (r : Replica σ) (n : Nat) :
    let s := r.snapshotter
    let s' := (r.after m (.job n)).snapshotter
    (∀ d, s.downloading = some d → s'.downloading ≠ some d →
      ∃ d', (s.job n).download? = some d' ∧ d'.id = d.id) ∧
    (s.saving = true → s'.saving = false → (s.job n).isSave = true) ∧
    (s.loading = true → s'.loading = false → (s.job n).isLoad = true) := by
  intro s s'
  obtain ⟨b, r', hrun, hleads, hafter⟩ := after_job m r n
  have hs' : s' = r'.snapshotter.setJob n b := by simp only [s', hafter]
  rw [hs']
  -- the registered download has the number of the one that the job knows
  have hown : ∀ {d d' : Download}, s.Registers d' → s.downloading = some d → d'.id = d.id := by
    intro d d' hreg hd
    rw [Snapshotter.Registers, hd] at hreg
    exact (Option.some.inj hreg).symm
  change (s.job n).Leads s b r'.snapshotter at hleads
  generalize s.job n = a at hleads ⊢
  generalize r'.snapshotter = t at hleads ⊢
  simp only [Snapshotter.setJob]
  cases hleads with
  | endSave => exact ⟨fun d hd hne => absurd hd hne, fun _ _ => rfl, fun h h' => by simp_all⟩
  | endLoad => exact ⟨fun d hd hne => absurd hd hne, fun h h' => by simp_all, fun _ _ => rfl⟩
  | openCopy _ hreg =>
    exact ⟨fun d hd _ => ⟨_, rfl, hown hreg hd⟩, fun h h' => by simp_all, fun _ h' => by simp at h'⟩
  | endDownload _ hreg =>
    exact ⟨fun d hd _ => ⟨_, rfl, hown hreg hd⟩, fun h h' => by simp_all, fun h h' => by simp_all⟩
  | _ => exact ⟨fun d hd hne => absurd hd hne, fun h h' => by simp_all, fun h h' => by simp_all⟩

/-- Every move is a run of changes. -/
theorem changes_after (m : StateMachine σ) (r : Replica σ) (move : Move σ) :
    r.snapshotter.Changes (r.after m move).snapshotter := by
  cases move with
  | requestSnapshot => exact changes_requestSnapshot m r
  | requestInstall request => exact changes_requestInstall request r
  | interrupt term => exact changes_interrupt term r
  | shutdown => exact changes_shutdown r
  | job number => exact changes_stepJob m number r
  | elsewhere f => exact .refl

/-- Every run of moves is a run of changes. -/
theorem changes_afterAll (m : StateMachine σ) (r : Replica σ) (moves : List (Move σ)) :
    r.snapshotter.Changes (r.afterAll m moves).snapshotter := by
  induction moves generalizing r with
  | nil => exact .refl
  | cons move moves ih => exact (changes_after m r move).trans (ih _)

end Replica
end RaftReplica
