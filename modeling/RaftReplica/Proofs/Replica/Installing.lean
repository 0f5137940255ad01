/-
RaftReplica/Proofs/Replica/Installing.lean

Installs that fail.  The request touches nothing that others rely on (`Replica.reliedOn`), nor do
other calls, nor what happens to copies, nor a step of the job as long as the machine has not begun
to load.  From then on the job goes through to its end, unless something fails that ought not to
(`Replica.Committed`); so an install that fails in the end has changed nothing
(`Replica.failed_install_keeps`).

The argument goes along a run with two invariants, of which always one holds:

* before the load the stage of the job is quiet.  A quiet step is harmless, so what others rely on
  stays (`Sheltered.after_job`);
* from the load on the job is committed.  Each of its steps succeeds if nothing hinders it
  (`Committed.advance`), and steps of others do not take that away.

A job that has failed was never committed, for a committed one ends with success.  So it was quiet
all along.  What may hinder a job that is committed is named in `Unhindered`: the machine fails to
load, the index is out of range, or the snapshot is below the floor.

The machine may fail to load, of course.  But the log may also be dropped up to a snapshot that is
below the floor, and that breaks an assertion after the machine has loaded: the position that the
leader tells is compared with the latest snapshot, that of the snapshot which is found is not
(`Replica.install_below_floor`).
-/
import RaftReplica.Proofs.Replica.Agreement
import RaftReplica.Proofs.Replica.Sheltered
import RaftReplica.Simulation.Machine

namespace RaftReplica

open Disk

/-! ### Stages of an install -/

namespace JobStage

variable {s s' : Snapshotter} {a b : JobStage}

/-- At a quiet stage the machine is not at work. -/
theorem not_atMachine_of_isQuiet (h : a.isQuiet = true) : a.atMachine = false := by
  cases a with
  | saving | loading => nomatch h
  | _ => rfl

/-- A job that does not take a snapshot never does. -/
theorem Leads.isSave_eq_false (h : a.Leads s b s') (ha : a.isSave = false) : b.isSave = false := by
  cases h with
  | save hsave => exact absurd (hsave.symm.trans ha) (by decide)
  | recordSave _ hsave => exact absurd (hsave.symm.trans ha) (by decide)
  | load _ hload => exact (Snapshotter.isSave_of_isLoad hload).1
  | recordInstall _ _ hload => exact (Snapshotter.isSave_of_isLoad hload).1
  | endSave => nomatch ha
  | _ => rfl

end JobStage

namespace Replica

variable {σ α β : Type} {m : StateMachine σ} {r : Replica σ} {n : Nat} {a : JobStage}
  {base : Location → Option Item} {den home : Location} {p : Path}

/-! ### The request -/

/-- If `x` begins a job, it waits for a copy. -/
def BeginsCopying (x : Act (Replica σ) (Begun β)) : Prop :=
  ∀ r n r', x.runOn r = (.ok (.job n), r') → ∃ d, r'.snapshotter.jobs[n]? = some (.copying d)

namespace BeginsCopying

/-- What a request does first does not matter. -/
theorem bind {x : Act (Replica σ) α} {f : α → Act (Replica σ) (Begun β)}
    (hf : ∀ a, BeginsCopying (f a)) : BeginsCopying (x >>= f) := by
  intro r n r' hrun
  obtain ⟨a, s, -, hrun⟩ := Act.eq_ok_of_bind hrun
  exact hf a s n r' hrun

/-- A request may go either way. -/
theorem ite {c : Prop} [Decidable c] {x y : Act (Replica σ) (Begun β)} (hx : BeginsCopying x)
    (hy : BeginsCopying y) : BeginsCopying (if c then x else y) := by
  split
  · exact hx
  · exact hy

/-- A request that is done begins no job. -/
theorem done (b : β) : BeginsCopying (pure (.done b) : Act (Replica σ) (Begun β)) := by
  intro r n r' hrun
  rw [Act.runOn_pure] at hrun
  nomatch Except.ok.inj (Prod.mk.inj hrun).1

/-- Neither does one that fails. -/
theorem fail_bind (e : Error) (f : α → Act (Replica σ) (Begun β)) :
    BeginsCopying (Act.fail e >>= f) := by
  intro r n r' hrun
  rw [Act.runOn_bind, Act.runOn_fail] at hrun
  nomatch (Prod.mk.inj hrun).1

/-- The job that is begun copies. -/
theorem spawn (d : Download) : BeginsCopying (do return .job (← spawn (.copying d)) :
    Act (Replica σ) (Begun β)) := by
  intro r n r' hrun
  obtain ⟨hn, rfl⟩ := Prod.mk.inj hrun
  obtain rfl : r.snapshotter.jobs.length = n := Begun.job.inj (Except.ok.inj hn)
  exact ⟨d, List.getElem?_concat_length⟩

end BeginsCopying

/-- The job of an install begins by copying. -/
theorem beginsCopying_requestInstall (request : InstallRequest) :
    BeginsCopying (requestInstall (σ := σ) request) := by
  refine .bind fun s => .ite (.fail_bind _ _) (.ite (.fail_bind _ _) ?_)
  refine .bind fun _ => .bind fun s => .ite (.done _) ?_
  exact .bind fun _ => .bind fun _ => .bind fun d => .spawn d

/-! ### Other moves -/

/-- The stage of a job that is at stage `a` stays. -/
abbrev KeepsJob (n : Nat) (a : JobStage) (x : Act (Replica σ) α) : Prop :=
  Act.Preserves (fun r => r.snapshotter.jobs[n]? = some a) x

theorem keepsJob_spawn (stage : JobStage) : KeepsJob n a (spawn (σ := σ) stage) :=
  fun _ hn => (List.getElem?_append_left (List.getElem?_eq_some_iff.1 hn).1).trans hn

/-- Giving up a download leaves all jobs at their stages. -/
theorem keepsJob_cancelDownload : KeepsJob n a (cancelDownload (σ := σ)) := by
  intro r hn
  obtain ⟨r', hrun, hcancelled⟩ := runOn_cancelDownload r
  rw [hrun, hcancelled]
  rcases r.snapshotter.cancelled_cases with h | ⟨-, h⟩ <;> rwa [h]

theorem keepsJob_startDownload (request : InstallRequest) :
    KeepsJob n a (startDownload (σ := σ) request) :=
  .bind (fun _ h => h) fun _ => .bind (fun _ h => h) fun _ => .bind (fun _ h => h) fun _ => .pure _

/-- **Only its own steps** lead a job on. -/
theorem keepsJob_after (m : StateMachine σ) (hn : r.snapshotter.jobs[n]? = some a) (move : Move σ)
    (hmove : ∀ k, move = .job k → k ≠ n) : (r.after m move).snapshotter.jobs[n]? = some a := by
  have hcancel : KeepsJob n a (cancelDownload (σ := σ)) := keepsJob_cancelDownload
  -- one case for each move; a step of another job sets that job only
  cases move with
  | requestSnapshot =>
    exact preserves_requestSnapshot (fun _ h => h) (fun _ => keepsJob_spawn _) r hn
  | requestInstall request =>
    refine preserves_requestInstall ?_ hcancel (keepsJob_startDownload _)
      (fun _ => keepsJob_spawn _) r hn
    refine .bind (fun _ h => h) fun s => .ite ?_ (.pure _)
    exact .bind (fun _ h => h) fun _ => hcancel
  | interrupt term => exact Act.Preserves.bind (fun _ h => h) (fun _ => hcancel) r hn
  | shutdown => exact Act.Preserves.bind (fun _ h => h) (fun _ => hcancel) r hn
  | job k =>
    obtain ⟨b, r', -, hleads, hafter⟩ := after_job m r k
    rw [hafter]
    show (r'.snapshotter.jobs.set k b)[n]? = some a
    rw [hleads.jobs_eq, List.getElem?_set_ne (hmove k rfl), hn]
  | elsewhere f => exact hn

/-! ### Runs -/

/-- Nothing that ought to work fails at the next step of the job with the number `n`: the machine can
load the snapshot, and leaves the log alone, and the position of the snapshot leaves room for
another one in the log.  A snapshot that was loaded is not below the floor of the history; nobody
makes sure of that. -/
structure Unhindered (m : StateMachine σ) (n : Nat) (r : Replica σ) : Prop where
  loads : ∀ reader info, r.snapshotter.job n = .loading reader info →
    ∃ r', (onMachine (m.load reader)).runOn r = (.ok (), r') ∧ r'.Sheltered
  fits : ∀ reader info, r.snapshotter.job n = .compacting reader info →
    info.lastIncluded.index < Numeral.max64
  above : ∀ reader info, r.snapshotter.job n = .compacting reader info →
    ¬ info.lastIncluded < r.history.floor.id

/-- `P` holds of each move and the node that it finds. -/
def Along (m : StateMachine σ) (P : Replica σ → Move σ → Prop) : Replica σ → List (Move σ) → Prop
  | _, [] => True
  | r, move :: moves => P r move ∧ Along m P (r.after m move) moves

/-- Each step of the job finds the node unhindered, and what neither is one nor goes on aside leaves
the node sheltered. -/
def RunsFreely (m : StateMachine σ) (n : Nat) : Replica σ → List (Move σ) → Prop :=
  Along m fun r move => (move = .job n → r.Unhindered m n) ∧
    (move ≠ .job n → ¬ move.Aside → (r.after m move).Sheltered)

/-- No step of the job, and nothing that goes on aside, lets the machine load or changes what others
rely on. -/
def LeavesAlone (m : StateMachine σ) (n : Nat) : Replica σ → List (Move σ) → Prop :=
  Along m fun r move => move = .job n ∨ move.Aside →
    (r.snapshotter.job n).atMachine = false ∧ (r.after m move).reliedOn = r.reliedOn

theorem unhindered_of_isQuiet (hjob : (r.snapshotter.job n).isQuiet = true) :
    r.Unhindered m n := by
  refine ⟨?_, ?_, ?_⟩ <;> intro reader info heq <;> rw [heq] at hjob <;> nomatch hjob

/-- The machine is about to load the snapshot or has loaded it, and nothing has failed since.  The
log is in order as long as it is still needed. -/
inductive Committed (r : Replica σ) : JobStage → Prop
  | loading {reader : SnapshotReader} {info : SnapshotMeta} (h : r.Sheltered) :
      Committed r (.loading reader info)
  | compacting {reader : SnapshotReader} {info : SnapshotMeta} (h : r.Sheltered) :
      Committed r (.compacting reader info)
  | recordingInstall {reader : SnapshotReader} {info : SnapshotMeta} :
      Committed r (.recordingInstall reader info)
  | endingLoad {reader : SnapshotReader} {result : JobResult} :
      Committed r (.endingLoad reader (.ok result))
  | over {result : JobResult} : Committed r (.over (.ok result))

/-- A log that is apart from the snapshots is in order. -/
theorem Sheltered.exists_holds (h : r.Sheltered) : ∃ mem, r.log.Holds r.volume.disk mem := by
  cases hlog : r.log with
  | memory l => exact ⟨l, rfl⟩
  | segmented l =>
    obtain ⟨base, home, den, hapart⟩ := h l hlog
    obtain ⟨mem, hmirrors⟩ := hapart.mirrors
    exact ⟨mem, home, hmirrors⟩

/-- A job that is not quiet any more is committed, if it is not one that saves. -/
theorem Sheltered.committed (h : r.Sheltered) (hsave : a.isSave = false)
    (hquiet : a.isQuiet = false) : r.Committed a := by
  cases a with
  | loading => exact .loading h
  | compacting => exact .compacting h
  | recordingInstall => exact .recordingInstall
  | saving | publishing | recordingSave => nomatch hsave
  | _ => nomatch hquiet

/-- A job stays committed as long as the node stays sheltered. -/
theorem Committed.of_sheltered (h : r.Committed a) {r' : Replica σ}
    (hs : r.Sheltered → r'.Sheltered) : r'.Committed a := by
  cases h with
  | loading h => exact .loading (hs h)
  | compacting h => exact .compacting (hs h)
  | recordingInstall => exact .recordingInstall
  | endingLoad => exact .endingLoad
  | «over» => exact .over

/-- **Once it is committed** the job goes on to its end. -/
theorem Committed.advance (h : r.Committed a) (hjob : r.snapshotter.job n = a)
    (hfree : r.Unhindered m n) :
    ∃ b r', (advance m a).runOn r = (.ok b, r') ∧ r'.Committed b := by
  -- one case for each stage from the load on
  cases h with
  | loading h =>
    obtain ⟨r', hload, hs⟩ := hfree.loads _ _ hjob
    exact ⟨_, r', runOn_orElse_ok (Act.runOn_bind_ok hload), .compacting hs⟩
  | compacting h =>
    -- the log is dropped, and then the floor moves up and not back
    obtain ⟨mem, hholds⟩ := h.exists_holds
    obtain ⟨r', hcompact⟩ :=
      exists_runOn_compact hholds (hfree.fits _ _ hjob) (hfree.above _ _ hjob)
    exact ⟨_, r', runOn_orElse_ok (Act.runOn_bind_ok hcompact), .recordingInstall⟩
  | recordingInstall => exact ⟨_, _, rfl, .endingLoad⟩
  | @endingLoad reader =>
    -- closing the reader cannot fail
    obtain ⟨_, r', hclose⟩ := succeeds_closeReader (σ := σ) reader r
    exact ⟨_, _, Act.runOn_bind_ok hclose, .over⟩
  | «over» => exact ⟨_, _, rfl, .over⟩

/-- A job with an error for its outcome is over. -/
theorem eq_over_of_outcome? {s : Snapshotter} {e : Error} (hn : s.jobs[n]? = some a)
    (h : s.outcome? n = some (.error e)) : a = .over (.error e) := by
  unfold Snapshotter.outcome? at h
  rw [Snapshotter.job_eq hn] at h
  split at h
  · rw [Option.some.inj h]
  · nomatch h

/-- A move that is no step of the job leaves the node sheltered. -/
theorem Sheltered.after (h : r.Sheltered) {move : Move σ} (hmove : move ≠ .job n)
    (hother : move ≠ .job n → ¬ move.Aside → (r.after m move).Sheltered) :
    (r.after m move).Sheltered := by
  by_cases haside : move.Aside
  · exact (h.after_aside m haside).1
  · exact hother hmove haside

section

variable (hn : r.snapshotter.jobs[n]? = some a)

include hn

/-- The stage that a step leads a job to. -/
theorem jobs_after_job (m : StateMachine σ) : ∃ b r', (advance m a).runOn r = (.ok b, r') ∧
    a.Leads r.snapshotter b r'.snapshotter ∧
    r.after m (.job n) = { r' with snapshotter := r'.snapshotter.setJob n b } ∧
    (r.after m (.job n)).snapshotter.jobs[n]? = some b := by
  obtain ⟨b, r', hrun, hleads, hafter⟩ := after_job m r n
  rw [Snapshotter.job_eq hn] at hrun hleads
  refine ⟨b, r', hrun, hleads, hafter, ?_⟩
  rw [hafter]
  show (r'.snapshotter.jobs.set n b)[n]? = some b
  rw [hleads.jobs_eq]
  exact List.getElem?_set_self (List.getElem?_eq_some_iff.1 hn).1

/-- A move that is no step of the job leaves it where it is. -/
theorem jobs_after_of_ne (m : StateMachine σ) {move : Move σ} (hmove : move ≠ .job n) :
    (r.after m move).snapshotter.jobs[n]? = some a := by
  refine keepsJob_after m hn move ?_
  rintro k rfl rfl
  exact hmove rfl

variable {moves : List (Move σ)} {e : Error}

/-- What is committed at a time is so in the end. -/
theorem RunsFreely.committed (h : RunsFreely m n r moves) (ha : r.Committed a) :
    ∃ b, (r.afterAll m moves).snapshotter.jobs[n]? = some b ∧
      (r.afterAll m moves).Committed b := by
  induction moves generalizing r a with
  | nil => exact ⟨a, hn, ha⟩
  | cons move moves ih =>
    obtain ⟨hfirst, hrest⟩ := h
    by_cases hmove : move = .job n
    · subst hmove
      obtain ⟨b, r', hrun, -, hafter, hb⟩ := jobs_after_job hn m
      obtain ⟨b', r'', hrun', hcommitted⟩ :=
        ha.advance (Snapshotter.job_eq hn) (hfirst.1 rfl)
      obtain ⟨hok, rfl⟩ := Prod.mk.inj (hrun.symm.trans hrun')
      obtain rfl := Except.ok.inj hok
      exact ih hb hrest (hafter ▸ hcommitted.of_sheltered fun hs => hs.knowing _)
    · exact ih (jobs_after_of_ne hn m hmove) hrest
        (ha.of_sheltered fun hs => hs.after hmove hfirst.2)

/-- **An install that fails** was never committed, and has changed nothing. -/
theorem RunsFreely.leavesAlone (h : RunsFreely m n r moves) (hs : r.Sheltered)
    (hsave : a.isSave = false)
    (houtcome : (r.afterAll m moves).snapshotter.outcome? n = some (.error e)) :
    LeavesAlone m n r moves := by
  induction moves generalizing r a with
  | nil => trivial
  | cons move moves ih =>
    -- were it committed it would not end with an error
    have ha : a.isQuiet = true := by
      rw [← Bool.not_eq_false]
      intro hquiet
      obtain ⟨b, hb, hcommitted⟩ := h.committed hn (hs.committed hsave hquiet)
      obtain rfl := eq_over_of_outcome? hb houtcome
      nomatch hcommitted
    obtain ⟨hfirst, hrest⟩ := h
    have hjob := Snapshotter.job_eq hn
    have hafter := hs.after_job (n := n) m (hjob ▸ ha)
    refine ⟨fun hmove => ⟨hjob ▸ JobStage.not_atMachine_of_isQuiet ha, ?_⟩, ?_⟩
    · rcases hmove with rfl | hmove
      · exact hafter.2
      · exact (hs.after_aside m hmove).2
    · by_cases hmove : move = .job n
      · subst hmove
        obtain ⟨b, r', -, hleads, -, hb⟩ := jobs_after_job hn m
        exact ih hb hrest hafter.1 (hleads.isSave_eq_false hsave) houtcome
      · exact ih (jobs_after_of_ne hn m hmove) hrest (hs.after hmove hfirst.2) hsave houtcome

end

/-- A run in which every move leaves alone what others rely on does so as a whole. -/
theorem LeavesAlone.reliedOn_eq {moves : List (Move σ)} (h : LeavesAlone m n r moves)
    (hmoves : ∀ move ∈ moves, move = .job n ∨ move.Aside) :
    (r.afterAll m moves).reliedOn = r.reliedOn := by
  induction moves generalizing r with
  | nil => rfl
  | cons move moves ih =>
    obtain ⟨hfirst, hrest⟩ := h
    have hsame := (hfirst (hmoves move List.mem_cons_self)).2
    exact (ih hrest fun x hx => hmoves x (List.mem_cons_of_mem _ hx)).trans hsame

/-- **A failed install changes nothing that others rely on.**  A node is asked to install a snapshot,
in whatever state it is and wherever the leader tells it to look.

* The request leaves alone the machine, the log, the history and the latest snapshot, and if it is
  refused that is all.
* If it begins a job, other moves may come between the steps of the job.  Let nothing that ought to
  work fail, and let the job end with an error.  Then no step let the machine load, and each of
  them left those four alone, as did every call and all that happened to copies.
* So they are as they were when the request came, if nothing else came in between. -/
theorem failed_install_keeps {request : InstallRequest} {begun : Replica σ}
    {answer : Except Failure (Begun InstallResponse)}
    (hrequest : (requestInstall request).runOn r = (answer, begun)) :
    begun.reliedOn = r.reliedOn ∧
    ∀ n moves e, r.Sheltered → answer = .ok (.job n) → RunsFreely m n begun moves →
      (begun.afterAll m moves).snapshotter.outcome? n = some (.error e) →
      LeavesAlone m n begun moves ∧
        ((∀ move ∈ moves, move = .job n ∨ move.Aside) →
          (begun.afterAll m moves).reliedOn = r.reliedOn) := by
  have hkept := keeps_holdings_requestInstall request r
  rw [hrequest] at hkept
  have hbegun := reliedOn_of_holdings hkept
  refine ⟨hbegun, ?_⟩
  rintro n moves e hs rfl hfree houtcome
  obtain ⟨d, hn⟩ := beginsCopying_requestInstall request r n begun hrequest
  obtain ⟨hs', -⟩ := hs.runOn (.requestInstall request)
  rw [hrequest] at hs'
  have hleaves := hfree.leavesAlone hn hs' rfl houtcome
  exact ⟨hleaves, fun hmoves => (hleaves.reliedOn_eq hmoves).trans hbegun⟩

/-! A leader has published a snapshot that reaches to its third entry.  A follower has applied five of
its eight entries. -/

open Simulation (BlobMachine)

/-- The disk with the snapshot of the leader. -/
def leaderVolume : Volume :=
  ((BlobMachine.publish [3] ⟨⟨1, 3⟩, .empty, .empty⟩).runOn
    ⟨{ directory := .ofText "leader", sync := false }, .ofDisk .empty⟩).2.volume

/-- A node that has applied five entries of eight and has no snapshot. -/
def follower : Replica BlobMachine where
  volume := leaderVolume
  machine := { applied := ⟨1, 5⟩, state := [5] }
  snapshots := { directory := .ofText "follower", sync := false }
  log := .memory ⟨1, (List.range 8).map fun i => .noOp 1 (i + 1)⟩
  history := .empty

/-- The leader offers a snapshot that is to reach to the tenth entry, and tells where one is that
reaches to the entry at `index`. -/
def offer (index : Nat) : InstallRequest :=
  ⟨"group", { ip := .v4 127 0 0 1, port := 1, idx := 0 }, 1, ⟨⟨1, 10⟩, .empty, .empty⟩,
    "local://leader/" ++ SnapshotName.published index⟩

/-- There is none that reaches to the fourth entry, so the copy fails. -/
theorem failed_install_keeps_missing :
    let begun := ((requestInstall (offer 4)).runOn follower).2
    let r := begun.afterAll BlobMachine.machine [.copy 0 Copy.pieceSize, .job 0, .job 0]
    r.snapshotter.outcome? 0 = some (.error (.io .missing)) ∧ r.reliedOn = follower.reliedOn := by
  intro begun r
  have hrequest : (requestInstall (offer 4)).runOn follower = (.ok (.job 0), begun) :=
    Prod.ext (by decide +kernel) rfl
  have houtcome : r.snapshotter.outcome? 0 = some (.error (.io .missing)) := by decide +kernel
  have hquiet (k : Nat) (hk : k < 3) : ((begun.afterAll BlobMachine.machine
      ([.copy 0 Copy.pieceSize, .job 0, .job 0].take k)).snapshotter.job 0).isQuiet = true := by
    revert k
    decide +kernel
  have hmoves : ∀ move ∈ [Move.copy 0 Copy.pieceSize, .job 0, .job 0],
      move = .job 0 ∨ move.Aside (σ := BlobMachine) := by
    simp only [List.mem_cons, List.not_mem_nil, or_false]
    rintro move (rfl | rfl | rfl)
    · exact .inr (.copy 0 Copy.pieceSize)
    · exact .inl rfl
    · exact .inl rfl
  have hfree (k : Nat) (hk : k < 3) :=
    unhindered_of_isQuiet (m := BlobMachine.machine) (hquiet k hk)
  have hfreely : RunsFreely BlobMachine.machine 0 begun [.copy 0 Copy.pieceSize, .job 0, .job 0] :=
    ⟨⟨fun _ => hfree 0 (by decide), fun _ haside => absurd (.copy 0 Copy.pieceSize) haside⟩,
      ⟨fun _ => hfree 1 (by decide), fun hne => absurd rfl hne⟩,
      ⟨fun _ => hfree 2 (by decide), fun hne => absurd rfl hne⟩, trivial⟩
  obtain ⟨-, hall⟩ := failed_install_keeps (m := BlobMachine.machine) hrequest
  exact ⟨houtcome, (hall 0 _ _ (fun _ hlog => nomatch hlog) rfl hfreely houtcome).2 hmoves⟩

/-- **A snapshot below the floor.**  The follower takes a snapshot of its own and applies three more
entries.  The snapshot that it is told to install reaches less far than its own, but the leader
tells otherwise.  The install fails, and the state of the machine is that of the leader's third
entry. -/
theorem install_below_floor :
    let own := follower.afterAll BlobMachine.machine (.requestSnapshot :: List.replicate 5 (.job 0) ++
      [.elsewhere fun r => { r with machine := { applied := ⟨1, 8⟩, state := [8] } }])
    let asked := (requestInstall (offer 3)).runOn own
    let r := asked.2.afterAll BlobMachine.machine
      (List.replicate 3 (.copy 0 Copy.pieceSize) ++ List.replicate 5 (.job 1))
    own.history.floor.id = ⟨1, 5⟩ ∧ own.machine.state = [8] ∧ asked.1 = .ok (.job 1) ∧
      r.snapshotter.outcome? 1 = some (.error (.interrupted .unfinished)) ∧
      r.machine.state = [3] ∧ r.machine.applied = ⟨1, 3⟩ := by
  decide +kernel

end Replica
end RaftReplica
