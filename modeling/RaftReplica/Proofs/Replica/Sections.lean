/-
RaftReplica/Proofs/Replica/Sections.lean

What each section of a node does to its snapshotter.  A section is what happens as a whole: a
request, or one step of a job.  Machines, stores and the disk may do there what they like, with
success, an error or a broken assertion; the snapshotter changes in one of a few ways only, and
`JobStage.Leads` lists them for the steps of jobs, `Snapshotter.Change` for whole sections.

The lists are complete: `advance_leads` and the lemmas on requests say that every run of a section
is one of them.  All invariants are drawn from the lists alone.

A step of a job is put together from parts of three kinds:

* parts that leave the snapshotter alone (`Act.Keeps Replica.snapshotter`): all calls on the
  machine, the log, the history and the snapshots;
* parts that cannot fail (`Act.Succeeds`): closing a reader and giving up a writer, for whatever
  goes wrong on the disk there is ignored;
* parts that may fail, with a stage to go on with in that case (`runOn_orElse`, `leads_orElse`).

So a step always ends, and a flag that a job holds is released in any case.  A request is a ladder of
checks; at most at its end something is begun, and a term that is followed or a download that is
given up on the way is a change of its own (`Snapshotter.Changes`).
-/
import Mathlib.Logic.Relation
import Mathlib.Tactic.Common
import RaftReplica.Proofs.Act
import RaftReplica.Replica.Jobs

namespace RaftReplica

/-! ### Phases of a job -/

namespace JobStage

/-- The job takes a snapshot and has not released `saving`. -/
def isSave : JobStage → Bool
  | making _ | saving .. | publishing .. | recordingSave _ | endingSave _ => true
  | _ => false

/-- The job has a snapshot to load and has not released `loading`. -/
def isLoad : JobStage → Bool
  | opened _ | loading .. | compacting .. | recordingInstall .. | endingLoad .. => true
  | _ => false

/-- The download that the job waits for or is about to take back. -/
def download? : JobStage → Option Download
  | copying d | endingDownload d _ => some d
  | _ => none

/-- The machine is at work for the job. -/
def atMachine : JobStage → Bool
  | saving .. | loading .. => true
  | _ => false

/-- The result of a job whose download was replaced or interrupted. -/
def supersededBy (d : Download) : JobStage :=
  .over (.error (.interrupted (.superseded d.lastIncluded)))

end JobStage

namespace Snapshotter

theorem job_eq {s : Snapshotter} {n : Nat} {a : JobStage} (hn : s.jobs[n]? = some a) :
    s.job n = a := by rw [job, hn, Option.getD_some]

/-- The download is the registered one. -/
def Registers (s : Snapshotter) (d : Download) : Prop := s.downloading.map Download.id = some d.id

instance (s : Snapshotter) (d : Download) : Decidable (s.Registers d) :=
  inferInstanceAs (Decidable (_ = _))

/-- The snapshotter once a download in progress is given up. -/
def cancelled (s : Snapshotter) : Snapshotter :=
  if s.loading then s
  else
    match s.downloading with
    | none => s
    | some _ => { s with downloading := none, installing := 0 }

/-- Giving up a download changes nothing, or takes the registration away where nothing loads. -/
theorem cancelled_cases (s : Snapshotter) : s.cancelled = s ∨
    s.loading = false ∧ s.cancelled = { s with downloading := none, installing := 0 } := by
  unfold cancelled
  split
  · exact .inl rfl
  · next hloading =>
    split
    · exact .inl rfl
    · exact .inr ⟨by simpa using hloading, rfl⟩

end Snapshotter

/-- `a.Leads s b s'`: a step of a job takes it from stage `a` to stage `b`, and the snapshotter from
`s` to `s'`. -/
inductive JobStage.Leads (s : Snapshotter) : JobStage → JobStage → Snapshotter → Prop
  | save {a b : JobStage} : a.isSave = true → b.isSave = true → Leads s a b s
  | recordSave {a b : JobStage} (last : LogId) : a.isSave = true → b.isSave = true →
      Leads s a b { s with last }
  | endSave (result : Except Error JobResult) :
      Leads s (.endingSave result) (.over result) { s with saving := false }
  | supersede {d : Download} : ¬ s.Registers d → Leads s (.copying d) (supersededBy d) s
  | openCopy {d : Download} (r : SnapshotReader) : s.Registers d →
      Leads s (.copying d) (.opened r) { s with downloading := none, loading := true }
  | failCopy {d : Download} (e : Error) : s.Registers d →
      Leads s (.copying d) (.endingDownload d (.error e)) s
  | load {a b : JobStage} : a.isLoad = true → b.isLoad = true → Leads s a b s
  | recordInstall {a b : JobStage} (last : LogId) : a.isLoad = true → b.isLoad = true →
      Leads s a b { s with last }
  | endLoad (r : SnapshotReader) (result : Except Error JobResult) :
      Leads s (.endingLoad r result) (.over result) { s with loading := false, installing := 0 }
  | endDownload {d : Download} (result : Except Error JobResult) : s.Registers d →
      Leads s (.endingDownload d result) (.over result)
        { s with downloading := none, installing := 0 }
  | leaveDownload {d : Download} (result : Except Error JobResult) : ¬ s.Registers d →
      Leads s (.endingDownload d result) (.over result) s
  | rest (result : Except Error JobResult) : Leads s (.over result) (.over result) s

theorem JobStage.Leads.jobs_eq {s s' : Snapshotter} {a b : JobStage} (h : a.Leads s b s') :
    s'.jobs = s.jobs := by cases h <;> rfl

/-- One change that a section makes to the snapshotter.  A section makes none, or one after the
other. -/
inductive Snapshotter.Change (s : Snapshotter) : Snapshotter → Prop
  | raise {term : Nat} : s.term ≤ term → Change s { s with term }
  | cancel : Change s s.cancelled
  | stop : Change s { s with stopped := true }
  | beginSave : s.stopped = false → s.saving = false → s.downloading = none →
      s.loading = false → Change s { s with saving := true, jobs := s.jobs ++ [.making s.last] }
  | beginDownload {d : Download} : d.id = s.downloads + 1 → s.stopped = false → s.saving = false →
      s.downloading = none → s.loading = false → Change s { s with
        downloads := d.id, downloading := some d, installing := d.id,
        jobs := s.jobs ++ [.copying d] }
  | advance {n : Nat} {a b : JobStage} {s' : Snapshotter} : s.jobs[n]? = some a →
      a.Leads s b s' → Change s (s'.setJob n b)

/-- The changes of a section, one after the other. -/
abbrev Snapshotter.Changes : Snapshotter → Snapshotter → Prop :=
  Relation.ReflTransGen Snapshotter.Change

namespace Replica

variable {σ α : Type} {m : StateMachine σ}

/-! ### Parts that leave the snapshotter alone -/

theorem keeps_onSnapshots (x : Act (Mounted SnapshotStore) α) :
    Act.Keeps Replica.snapshotter (onSnapshots (σ := σ) x) :=
  fun _ => rfl

theorem keeps_onLog (x : Act (Mounted LogStore) α) :
    Act.Keeps Replica.snapshotter (onLog (σ := σ) x) :=
  fun _ => rfl

theorem keeps_onMachine (x : Act (Mounted σ) α) : Act.Keeps Replica.snapshotter (onMachine x) :=
  fun _ => rfl

theorem keeps_letSave (w : SnapshotWriter) : Act.Keeps Replica.snapshotter (letSave m w) :=
  fun _ => rfl

/-- The history does not know of it either. -/
theorem keeps_setHistory (f : MembershipHistory → Except Violation MembershipHistory) :
    Act.Keeps Replica.snapshotter (setHistory (σ := σ) f) := by
  apply Act.Keeps.bind Act.Keeps.get
  intro r
  cases f r.history with
  | ok history => exact Act.Keeps.modify fun _ => rfl
  | error v => exact Act.Keeps.violate v

/-- Compaction touches the log and the history alone. -/
theorem keeps_compact (info : SnapshotMeta) :
    Act.Keeps Replica.snapshotter (compact (σ := σ) info) := by
  apply Act.Keeps.bind Act.Keeps.get
  intro r
  cases r.log.term info.lastIncluded.index with
  | error v => exact Act.Keeps.violate v
  | ok term =>
    dsimp only
    split
    · exact Act.Keeps.bind (keeps_onLog _) fun _ => keeps_setHistory _
    · apply Act.Keeps.bind (keeps_onLog _)
      intro _
      exact Act.Keeps.bind (keeps_setHistory _) fun _ => keeps_setHistory _

/-- Publishing commits and compacts, which leaves the snapshotter alone. -/
theorem keeps_publish (w : SnapshotWriter) (id : LogId) :
    Act.Keeps Replica.snapshotter (publish (σ := σ) w id) := by
  apply Act.Keeps.bind Act.Keeps.get
  intro r
  exact Act.Keeps.bind (keeps_onSnapshots _) fun _ => keeps_compact _

/-! ### Parts that cannot fail -/

/-- A reader is closed whatever the disk answers. -/
theorem succeeds_closeReader (r : SnapshotReader) :
    Act.Succeeds (onSnapshots (σ := σ) (SnapshotStore.closeReader r)) := by
  apply Act.Succeeds.zoom
  refine Act.Succeeds.bind (Act.Succeeds.bind Act.Succeeds.get fun _ => Act.Succeeds.pure _) ?_
  intro s
  cases s.holders.get? r.index with
  | none => exact Act.Succeeds.pure ()
  | some n =>
    dsimp only
    split
    · exact Act.Succeeds.modify _
    · apply Act.Succeeds.bind (Act.Succeeds.modify _)
      intro _
      exact Act.Succeeds.zoom (Act.Succeeds.ignore _)

/-- A writer is given up whatever the disk answers. -/
theorem succeeds_abandon (w : SnapshotWriter) :
    Act.Succeeds (onSnapshots (σ := σ) (SnapshotStore.abandon w)) := by
  apply Act.Succeeds.zoom
  unfold SnapshotStore.abandon
  exact Act.Succeeds.zoom (Act.Succeeds.ignore _)

/-- A part of a job always has an outcome, and a good one is the part's own. -/
theorem runOn_tried (x : Act (Replica σ) α) (r : Replica σ) :
    ∃ result, (tried x).runOn r = (.ok result, (x.runOn r).2) ∧
      ∀ a, result = .ok a → (x.runOn r).1 = .ok a := by
  unfold tried
  rw [Act.runOn_bind, Act.runOn_attempt]
  rcases x.runOn r with ⟨(e | v) | a, r'⟩
  · exact ⟨.error e, rfl, by simp⟩
  · exact ⟨.error (.interrupted .unfinished), rfl, by simp⟩
  · exact ⟨.ok a, rfl, by simp⟩

/-- A part of a job that leaves the snapshotter alone leads to a stage that the part or its failure
gives. -/
theorem runOn_orElse {x : Act (Replica σ) JobStage} {failed : Error → JobStage}
    (hx : Act.Keeps Replica.snapshotter x) {P : JobStage → Prop}
    (hok : ∀ {r stage r'}, x.runOn r = (.ok stage, r') → P stage) (hfail : ∀ e, P (failed e))
    (r : Replica σ) : ∃ stage r', (orElse x failed).runOn r = (.ok stage, r') ∧
      r'.snapshotter = r.snapshotter ∧ P stage := by
  obtain ⟨result, hrun, hresult⟩ := runOn_tried x r
  unfold orElse
  rw [Act.runOn_bind_ok hrun]
  cases result with
  | ok stage => exact ⟨stage, _, rfl, hx r, hok (Prod.ext (hresult stage rfl) rfl)⟩
  | error e => exact ⟨failed e, _, rfl, hx r, hfail e⟩

/-- A part that succeeds leads to its own stage. -/
theorem runOn_orElse_ok {x : Act (Replica σ) JobStage} {failed : Error → JobStage} {b : JobStage}
    {r r' : Replica σ} (h : x.runOn r = (.ok b, r')) : (orElse x failed).runOn r = (.ok b, r') := by
  rw [orElse, tried, Act.runOn_bind, Act.runOn_bind_ok (Act.runOn_attempt x r), h]
  rfl

/-- A part that fails leads to the stage for its error. -/
theorem runOn_orElse_error {x : Act (Replica σ) JobStage} {failed : Error → JobStage} {e : Error}
    {r r' : Replica σ} (h : x.runOn r = (.error (.error e), r')) :
    (orElse x failed).runOn r = (.ok (failed e), r') := by
  rw [orElse, tried, Act.runOn_bind, Act.runOn_bind_ok (Act.runOn_attempt x r), h]
  rfl

/-! ### Steps of jobs -/

/-- A step of a phase that may fail stays in the phase, and the snapshotter as it is. -/
theorem leads_orElse {x : Act (Replica σ) JobStage} {failed : Error → JobStage} {a : JobStage}
    (hx : Act.Keeps Replica.snapshotter x) {P : JobStage → Prop}
    (hok : ∀ {r stage r'}, x.runOn r = (.ok stage, r') → P stage) (hfail : ∀ e, P (failed e))
    (hP : ∀ {s b}, P b → a.Leads s b s) (r : Replica σ) :
    ∃ b r', (orElse x failed).runOn r = (.ok b, r') ∧ a.Leads r.snapshotter b r'.snapshotter := by
  obtain ⟨b, r', hrun, hs, hb⟩ := runOn_orElse hx hok hfail r
  exact ⟨b, r', hrun, hs ▸ hP hb⟩

/-- What a stage that was put after an action is. -/
theorem eq_of_bind_pure {x : Act (Replica σ) α} {f : α → JobStage} {r r' : Replica σ}
    {stage : JobStage} (h : (x >>= fun a => pure (f a)).runOn r = (.ok stage, r')) :
    ∃ a, stage = f a := by
  obtain ⟨a, s, -, hf⟩ := Act.eq_ok_of_bind h
  rw [Act.runOn_pure] at hf
  exact ⟨a, (Except.ok.inj (Prod.mk.inj hf).1).symm⟩

/-- What follows on a save leads to publishing or to the end of the job. -/
theorem afterSave_leads (last : LogId) (w w' : SnapshotWriter) (result : Except Failure LogId)
    (r : Replica σ) : ∃ b r', (afterSave last w' result).runOn r = (.ok b, r') ∧
      (JobStage.saving last w).Leads r.snapshotter b r'.snapshotter := by
  -- a stale state and an error both give the writer up, and end
  have habandon : ∀ result', ∃ b r',
      (do onSnapshots (SnapshotStore.abandon w'); return JobStage.endingSave result').runOn r
        = (.ok b, r') ∧ (JobStage.saving last w).Leads r.snapshotter b r'.snapshotter := by
    intro result'
    obtain ⟨_, r', hrun, hs⟩ := (succeeds_abandon (σ := σ) w').keeping (keeps_onSnapshots _) r
    refine ⟨.endingSave result', r', Act.runOn_bind_ok hrun, ?_⟩
    rw [hs]
    exact .save rfl rfl
  cases result with
  | ok id =>
    by_cases hlt : last.index < id.index
    · exact ⟨.publishing w' id, r, by simp [afterSave, hlt], .save rfl rfl⟩
    · simpa only [afterSave, if_neg hlt] using habandon (.ok (.saved last))
  | error f =>
    cases f with
    | error e => exact habandon (.error e)
    | violation v => exact ⟨_, r, rfl, .save rfl rfl⟩

/-- What follows on a copy depends on whether the download is still registered. -/
theorem afterCopy_leads (d : Download) (joined : Except Error SnapshotReader) (r : Replica σ) :
    ∃ b r', (afterCopy d joined).runOn r = (.ok b, r') ∧
      (JobStage.copying d).Leads r.snapshotter b r'.snapshotter := by
  have hread : (theSnapshotter (σ := σ)).runOn r = (.ok r.snapshotter, r) := rfl
  unfold afterCopy
  rw [Act.runOn_bind_ok hread]
  -- a download that is not registered any more was superseded, and a reader it brings is closed
  by_cases hd : r.snapshotter.Registers d
  · have hif : ¬ r.snapshotter.downloading.map Download.id ≠ some d.id := not_not.2 hd
    rw [if_neg hif]
    cases joined with
    | ok reader => exact ⟨_, _, rfl, .openCopy reader hd⟩
    | error e => exact ⟨_, _, rfl, .failCopy e hd⟩
  · have hif : r.snapshotter.downloading.map Download.id ≠ some d.id := hd
    rw [if_pos hif]
    cases joined with
    | error e => exact ⟨_, r, rfl, .supersede hd⟩
    | ok reader =>
      obtain ⟨_, r', hrun, hs⟩ :=
        (succeeds_closeReader (σ := σ) reader).keeping (keeps_onSnapshots _) r
      refine ⟨_, r', Act.runOn_bind_ok hrun, ?_⟩
      rw [hs]
      exact .supersede hd

/-- A download that ends is forgotten if it is the registered one. -/
theorem endDownload_leads (d : Download) (result : Except Error JobResult) (r : Replica σ) :
    ∃ b r', (do endDownload d; return JobStage.over result).runOn r = (.ok b, r') ∧
      (JobStage.endingDownload d result).Leads r.snapshotter b r'.snapshotter := by
  have hread : (theSnapshotter (σ := σ)).runOn r = (.ok r.snapshotter, r) := rfl
  by_cases hd : r.snapshotter.downloading.map Download.id = some d.id
  · have hend : (endDownload (σ := σ) d).runOn r = (.ok (), { r with
        snapshots := r.snapshots.cancelCopy d.copy
        snapshotter := { r.snapshotter with downloading := none, installing := 0 } }) := by
      unfold endDownload
      rw [Act.runOn_bind_ok hread, if_pos hd]
      rfl
    exact ⟨_, _, Act.runOn_bind_ok hend, .endDownload result hd⟩
  · have hend : (endDownload (σ := σ) d).runOn r = (.ok (), r) := by
      unfold endDownload
      rw [Act.runOn_bind_ok hread, if_neg hd]
      rfl
    exact ⟨_, _, Act.runOn_bind_ok hend, .leaveDownload result hd⟩

/-- **Every step of a job** has a next stage, and is one of those listed. -/
theorem advance_leads (m : StateMachine σ) (a : JobStage) (r : Replica σ) :
    ∃ b r', (advance m a).runOn r = (.ok b, r') ∧ a.Leads r.snapshotter b r'.snapshotter := by
  -- one case for each stage
  cases a with
  | making last =>
    refine leads_orElse (P := fun b => b.isSave = true) ?_ ?_ (fun _ => rfl) (.save rfl) r
    · exact Act.Keeps.bind (keeps_onSnapshots _) fun _ => Act.Keeps.pure _
    · intro r stage r' h
      obtain ⟨w, rfl⟩ := eq_of_bind_pure h
      rfl
  | saving last w =>
    -- the machine may end as it likes; what counts is how the section goes on with its result
    obtain ⟨w', result, r₁, hsave⟩ : ∃ w' result r₁,
        (letSave m w).runOn r = (.ok (result, w'), r₁) := ⟨_, _, _, rfl⟩
    have hkept := keeps_letSave (m := m) w r
    rw [hsave] at hkept
    obtain ⟨b, r', hafter, hleads⟩ := afterSave_leads last w w' result r₁
    rw [hkept] at hleads
    exact ⟨b, r', (Act.runOn_bind_ok hsave).trans hafter, hleads⟩
  | publishing w id =>
    refine leads_orElse (P := fun b => b.isSave = true) ?_ ?_ (fun _ => rfl) (.save rfl) r
    · exact Act.Keeps.bind (keeps_publish w id) fun _ => Act.Keeps.pure _
    · intro r stage r' h
      obtain ⟨_, rfl⟩ := eq_of_bind_pure h
      rfl
  | recordingSave id => exact ⟨_, _, rfl, .recordSave id rfl rfl⟩
  | endingSave result => exact ⟨_, _, rfl, .endSave result⟩
  | copying d =>
    -- joining the copy touches the store alone, and then its result is looked at
    obtain ⟨joined, hrun, -⟩ := runOn_tried
      (onSnapshots (σ := σ) (SnapshotStore.joinCopy d.copy)) r
    obtain ⟨b, r', hafter, hleads⟩ := afterCopy_leads d joined
      ((onSnapshots (σ := σ) (SnapshotStore.joinCopy d.copy)).runOn r).2
    rw [keeps_onSnapshots] at hleads
    exact ⟨b, r', (Act.runOn_bind_ok hrun).trans hafter, hleads⟩
  | opened reader =>
    refine leads_orElse (P := fun b => b.isLoad = true) ?_ ?_ (fun _ => rfl) (.load rfl) r
    · exact Act.Keeps.bind (Act.Keeps.ofExcept _) fun _ => Act.Keeps.pure _
    · intro r stage r' h
      obtain ⟨_, rfl⟩ := eq_of_bind_pure h
      rfl
  | loading reader info =>
    refine leads_orElse (P := fun b => b.isLoad = true) ?_ ?_ (fun _ => rfl) (.load rfl) r
    · exact Act.Keeps.bind (keeps_onMachine _) fun _ => Act.Keeps.pure _
    · intro r stage r' h
      obtain ⟨_, rfl⟩ := eq_of_bind_pure h
      rfl
  | compacting reader info =>
    refine leads_orElse (P := fun b => b.isLoad = true) ?_ ?_ (fun _ => rfl) (.load rfl) r
    · exact Act.Keeps.bind (keeps_compact info) fun _ => Act.Keeps.pure _
    · intro r stage r' h
      obtain ⟨_, rfl⟩ := eq_of_bind_pure h
      rfl
  | recordingInstall reader info => exact ⟨_, _, rfl, .recordInstall info.lastIncluded rfl rfl⟩
  | endingLoad reader result =>
    -- closing the reader cannot fail, so the flag is always released
    obtain ⟨_, r', hrun, hs⟩ :=
      (succeeds_closeReader (σ := σ) reader).keeping (keeps_onSnapshots _) r
    refine ⟨.over result, { r' with
      snapshotter := { r'.snapshotter with loading := false, installing := 0 } },
      Act.runOn_bind_ok hrun, ?_⟩
    rw [hs]
    exact .endLoad reader result
  | endingDownload d result => exact endDownload_leads d result r
  | _ => exact ⟨_, _, rfl, .rest _⟩

/-! ### Requests -/

theorem runOn_theSnapshotter (r : Replica σ) :
    (theSnapshotter (σ := σ)).runOn r = (.ok r.snapshotter, r) := rfl

/-- Giving up a download always succeeds. -/
theorem runOn_cancelDownload (r : Replica σ) :
    ∃ r', (cancelDownload (σ := σ)).runOn r = (.ok (), r') ∧
      r'.snapshotter = r.snapshotter.cancelled := by
  unfold cancelDownload Snapshotter.cancelled
  rw [Act.runOn_bind_ok (runOn_theSnapshotter r)]
  split
  · exact ⟨r, rfl, rfl⟩
  · cases r.snapshotter.downloading with
    | none => exact ⟨r, rfl, rfl⟩
    | some d => exact ⟨_, rfl, rfl⟩

/-- Following a term raises the node's own and gives up the download, or does nothing. -/
theorem changes_followTerm (term : Nat) (r : Replica σ) :
    ∃ r', (followTerm (σ := σ) term).runOn r = (.ok (), r') ∧
      r.snapshotter.Changes r'.snapshotter ∧ r'.snapshotter.stopped = r.snapshotter.stopped := by
  unfold followTerm
  rw [Act.runOn_bind_ok (runOn_theSnapshotter r)]
  split
  · next hlt =>
    obtain ⟨r', hrun, hs⟩ :=
      runOn_cancelDownload { r with snapshotter := { r.snapshotter with term } }
    refine ⟨r', hrun, ?_, ?_⟩
    · rw [hs]
      exact .tail (.single (.raise (Nat.le_of_lt hlt))) .cancel
    · rcases Snapshotter.cancelled_cases { r.snapshotter with term } with h | ⟨-, h⟩ <;>
        rw [hs, h]
  · exact ⟨r, rfl, .refl, rfl⟩

/-- A request to take a snapshot. -/
theorem changes_requestSnapshot (m : StateMachine σ) (r : Replica σ) :
    r.snapshotter.Changes ((requestSnapshot m).runOn r).2.snapshotter := by
  unfold requestSnapshot
  rw [Act.runOn_bind_ok (runOn_theSnapshotter r)]
  dsimp only
  -- each check that fails ends the request with nothing changed
  split
  · exact .refl
  · next hstopped =>
    split
    · exact .refl
    · next hsaving =>
      split
      · exact .refl
      · next hfree =>
        rw [Act.runOn_bind_ok (Act.runOn_get r)]
        split
        · exact .refl
        · simp only [Bool.or_eq_true, not_or, Bool.not_eq_true, Option.isSome_eq_false_iff,
            Option.isNone_iff_eq_none] at hstopped hsaving hfree
          exact .single (.beginSave hstopped hsaving hfree.1 hfree.2)

/-- A snapshotter that lets an install begin neither saves nor loads. -/
theorem checkFree_eq_ok {asked : LogId} {s : Snapshotter} {u : Unit}
    (h : checkFree asked s = .ok u) : s.saving = false ∧ s.loading = false := by
  unfold checkFree at h
  split at h
  · simp at h
  · next hsaving =>
    split at h
    · simp at h
    · next hloading => exact ⟨by simpa using hsaving, by simpa using hloading⟩

/-- Where nothing is loading a cancelled snapshotter has no download. -/
theorem downloading_cancelled {s : Snapshotter} (h : s.loading = false) :
    s.cancelled.downloading = none ∧ s.cancelled.loading = false ∧
      s.cancelled.saving = s.saving ∧ s.cancelled.stopped = s.stopped := by
  unfold Snapshotter.cancelled
  rw [if_neg (by simp [h])]
  split
  · next hd => exact ⟨hd, h, rfl, rfl⟩
  · exact ⟨rfl, h, rfl, rfl⟩

/-- A download is registered under a number of its own, unless its uri names nothing to copy. -/
theorem runOn_startDownload (request : InstallRequest) (r : Replica σ) :
    (∃ e r', (startDownload (σ := σ) request).runOn r = (.error e, r') ∧
      r'.snapshotter = r.snapshotter) ∨
    ∃ d r', (startDownload (σ := σ) request).runOn r = (.ok d, r') ∧
      d.id = r.snapshotter.downloads + 1 ∧
      r'.snapshotter = { r.snapshotter with
        downloads := d.id, downloading := some d, installing := d.id } := by
  have hcopy := keeps_onSnapshots (σ := σ) (SnapshotStore.startCopy request.uri) r
  unfold startDownload
  -- the copy may fail to start; the number is taken only after it has
  rcases hrun : (onSnapshots (SnapshotStore.startCopy request.uri)).runOn r with ⟨e | copy, r'⟩
  · rw [hrun] at hcopy
    exact .inl ⟨e, r', Act.runOn_bind_error hrun, hcopy⟩
  · rw [hrun] at hcopy
    have hs : r'.snapshotter = r.snapshotter := hcopy
    let d : Download := ⟨r'.snapshotter.downloads + 1, request.info.lastIncluded, copy⟩
    refine .inr ⟨d, { r' with snapshotter := { r'.snapshotter with
      downloads := d.id, downloading := some d, installing := d.id } }, ?_, ?_, ?_⟩
    · rw [Act.runOn_bind_ok hrun, Act.runOn_bind_ok (runOn_theSnapshotter r')]
      rfl
    · rw [← hs]
    · rw [← hs]

/-- A request to install a snapshot. -/
theorem changes_requestInstall (request : InstallRequest) (r : Replica σ) :
    r.snapshotter.Changes ((requestInstall (σ := σ) request).runOn r).2.snapshotter := by
  unfold requestInstall
  dsimp only
  rw [Act.runOn_bind_ok (runOn_theSnapshotter r)]
  -- each check that fails ends the request, maybe with a term followed
  split
  · exact .refl
  · next hstopped =>
    split
    · exact .refl
    · obtain ⟨r₁, hfollow, h₁, hstopped₁⟩ := changes_followTerm (σ := σ) request.term r
      rw [Act.runOn_bind_ok hfollow, Act.runOn_bind_ok (runOn_theSnapshotter r₁)]
      split
      · exact h₁
      · cases hfree : checkFree request.info.lastIncluded r₁.snapshotter with
        | error e => exact h₁
        | ok u =>
          obtain ⟨hsaving, hloading⟩ := checkFree_eq_ok hfree
          obtain ⟨r₂, hcancel, h₂⟩ := runOn_cancelDownload r₁
          have hchanges : r.snapshotter.Changes r₂.snapshotter := h₂ ▸ h₁.tail .cancel
          obtain ⟨hd₂, hl₂, hs₂, hp₂⟩ := downloading_cancelled hloading
          rw [← h₂] at hd₂ hl₂ hs₂ hp₂
          have hgo : (Act.ofExcept (.ok u) : Act (Replica σ) Unit).runOn r₁ = (.ok u, r₁) := rfl
          rw [Act.runOn_bind_ok hgo, Act.runOn_bind_ok hcancel]
          rcases runOn_startDownload request r₂ with
            ⟨e, r₃, hrun, h₃⟩ | ⟨d, r₃, hrun, hid, h₃⟩
          · rw [Act.runOn_bind_error hrun]
            exact h₃ ▸ hchanges
          · rw [Act.runOn_bind_ok hrun]
            apply hchanges.tail
            have hspawn : ((do return Begun.job (← spawn (.copying d)) :
                Act (Replica σ) (Begun InstallResponse)).runOn r₃).2.snapshotter
                = { r₃.snapshotter with jobs := r₃.snapshotter.jobs ++ [.copying d] } := rfl
            rw [hspawn, h₃]
            refine .beginDownload hid ?_ (hs₂.trans hsaving) hd₂ hl₂
            rw [hp₂, hstopped₁]
            simpa using hstopped

/-- An interrupt raises the term and gives up the download. -/
theorem changes_interrupt (term : Nat) (r : Replica σ) :
    r.snapshotter.Changes ((interrupt (σ := σ) term).runOn r).2.snapshotter := by
  obtain ⟨r', hrun, hs⟩ := runOn_cancelDownload
    { r with snapshotter := { r.snapshotter with term := max r.snapshotter.term term } }
  have hall : (interrupt (σ := σ) term).runOn r = (.ok (), r') := hrun
  rw [hall]
  dsimp only at hs ⊢
  rw [hs]
  exact .tail (.single (.raise (Nat.le_max_left _ _))) .cancel

/-- A shutdown sets the flag and gives up the download. -/
theorem runOn_shutdown (r : Replica σ) :
    ((shutdown (σ := σ)).runOn r).2.snapshotter
      = { r.snapshotter with stopped := true : Snapshotter }.cancelled := by
  obtain ⟨r', hrun, hs⟩ := runOn_cancelDownload
    { r with snapshotter := { r.snapshotter with stopped := true } }
  have hall : (shutdown (σ := σ)).runOn r = (.ok (), r') := hrun
  rw [hall, hs]

/-- Both are changes. -/
theorem changes_shutdown (r : Replica σ) :
    r.snapshotter.Changes ((shutdown (σ := σ)).runOn r).2.snapshotter := by
  rw [runOn_shutdown]
  exact Relation.ReflTransGen.tail (.single .stop) .cancel

/-- A step of a job of the node always ends well. -/
theorem runOn_stepJob (m : StateMachine σ) (n : Nat) (r : Replica σ) :
    ∃ b r', (advance m (r.snapshotter.job n)).runOn r = (.ok b, r') ∧
      (r.snapshotter.job n).Leads r.snapshotter b r'.snapshotter ∧
      (stepJob m n).runOn r = (.ok (), { r' with snapshotter := r'.snapshotter.setJob n b }) := by
  obtain ⟨b, r', hrun, hleads⟩ := advance_leads m (r.snapshotter.job n) r
  refine ⟨b, r', hrun, hleads, ?_⟩
  unfold stepJob
  rw [Act.runOn_bind_ok (runOn_theSnapshotter r), Act.runOn_bind_ok hrun]
  rfl

/-- A number that no job has stands for one that is over. -/
theorem changes_stepJob (m : StateMachine σ) (n : Nat) (r : Replica σ) :
    r.snapshotter.Changes ((stepJob m n).runOn r).2.snapshotter := by
  obtain ⟨b, r', -, hleads, hstep⟩ := runOn_stepJob m n r
  rw [hstep]
  -- a job that is there takes a step; a number without a job does nothing
  cases hjob : r.snapshotter.jobs[n]? with
  | some a =>
    exact .single (.advance hjob (Snapshotter.job_eq hjob ▸ hleads))
  | none =>
    have ha : r.snapshotter.job n = .over (.error (.interrupted .unfinished)) := by
      simp [Snapshotter.job, hjob]
    rw [ha] at hleads
    have hset : ∀ s : Snapshotter, s = r.snapshotter → s.setJob n b = r.snapshotter := by
      rintro s rfl
      rw [Snapshotter.setJob, List.set_eq_of_length_le (List.getElem?_eq_none_iff.1 hjob)]
    generalize r'.snapshotter = s' at hleads ⊢
    cases hleads with
    | rest => rw [hset _ rfl]
    | save ha _ => simp [JobStage.isSave] at ha
    | recordSave _ ha _ => simp [JobStage.isSave] at ha
    | load ha _ => simp [JobStage.isLoad] at ha
    | recordInstall _ ha _ => simp [JobStage.isLoad] at ha

end Replica
end RaftReplica
