/-
RaftReplica/Proofs/Replica/Quiet.lean

What a node stands on: the state of its machine, its log, its history, the latest snapshot and what
is about to be the latest one (`Replica.standing`), and with the disk (`Replica.holdings`). Requests
leave all of it alone, and the disk with it (`keeps_holdings_requestInstall` and the like). So do
most steps of jobs, but for the disk (`keeps_standing_advance`); it changes only where the machine
is at work, where the log is dropped up to a snapshot, and where a snapshot is recorded.

Both facts are put together from the parts that sections are made of, by the rules for `Act.Keeps`:

* a part that touches the snapshotter alone keeps the holdings, if it leaves the latest snapshot and
  what is about to be recorded (`keeps_holdings_tell`);
* a part that touches the store of the snapshots keeps what the node stands on, and it keeps the
  disk too if it does not write (`keeps_holdings_onSnapshots`);
* a request is a ladder of checks with such parts at its end.  `preserves_requestSnapshot` and
  `preserves_requestInstall` climb it once, for any property that the parts preserve.
-/
import RaftReplica.Proofs.Replica.Sections

namespace RaftReplica

/-- At these stages a step of the job leaves alone what the node stands on. -/
def JobStage.isQuiet : JobStage → Bool
  | saving .. | publishing .. | recordingSave _ => false
  | loading .. | compacting .. | recordingInstall .. => false
  | _ => true

/-- The position that the job is about to record as the one of the latest snapshot. -/
def JobStage.recording? : JobStage → Option LogId
  | recordingSave id => some id
  | recordingInstall _ info => some info.lastIncluded
  | _ => none

/-- The positions that jobs are about to record. -/
def Snapshotter.recording (s : Snapshotter) : List LogId := s.jobs.filterMap JobStage.recording?

namespace Replica

variable {σ α β : Type} {m : StateMachine σ}

/-- What others rely on at a node. -/
def standing (r : Replica σ) : σ × LogStore × MembershipHistory × LogId × List LogId :=
  (r.machine, r.log, r.history, r.snapshotter.last, r.snapshotter.recording)

/-- All that, and the disk. -/
def holdings (r : Replica σ) : Volume × σ × LogStore × MembershipHistory × LogId × List LogId :=
  (r.volume, r.standing)

/-! ### Parts -/

/-- Looking at the result of a part changes nothing. -/
theorem keeps_tried {view : Replica σ → β} {x : Act (Replica σ) α} (hx : Act.Keeps view x) :
    Act.Keeps view (tried x) := by
  apply Act.Keeps.bind hx.attempt
  rintro ((e | v) | a) <;> exact Act.Keeps.pure _

/-- What a part keeps is kept when it fails, too. -/
theorem keeps_orElse {view : Replica σ → β} {x : Act (Replica σ) JobStage} (hx : Act.Keeps view x)
    (failed : Error → JobStage) : Act.Keeps view (orElse x failed) := by
  apply Act.Keeps.bind (keeps_tried hx)
  rintro (e | stage) <;> exact Act.Keeps.pure _

/-- The result of a part is what the part ensures, if it has one. -/
theorem ensures_tried {P : Replica σ → Prop} {Q : α → Prop} {x : Act (Replica σ) α}
    (hx : Act.Ensures P x Q) : Act.Ensures P (tried x) fun r => ∀ a, r = .ok a → Q a := by
  apply Act.Ensures.bind hx.attempt
  rintro ((e | v) | a) h
  · exact .pure nofun
  · exact .pure nofun
  · exact .pure fun _ heq => h _ (congrArg Except.ok (Except.ok.inj heq))

/-- A part that may fail ensures what both of its ends do. -/
theorem ensures_orElse {P : Replica σ → Prop} {Q : JobStage → Prop}
    {x : Act (Replica σ) JobStage} {failed : Error → JobStage} (hx : Act.Ensures P x Q)
    (hf : ∀ e, Q (failed e)) : Act.Ensures P (orElse x failed) Q := by
  apply Act.Ensures.bind (ensures_tried hx)
  rintro (e | stage) h
  · exact .pure (hf e)
  · exact .pure (h stage rfl)

theorem keeps_standing_of_holdings {x : Act (Replica σ) α} (hx : Act.Keeps holdings x) :
    Act.Keeps standing x := hx.map Prod.snd

theorem keeps_standing_onSnapshots (x : Act (Mounted SnapshotStore) α) :
    Act.Keeps standing (onSnapshots (σ := σ) x) := fun _ => rfl

theorem keeps_holdings_onSnapshots {x : Act (Mounted SnapshotStore) α}
    (hx : Act.Keeps Mounted.volume x) : Act.Keeps holdings (onSnapshots (σ := σ) x) :=
  fun r => congrArg (fun v => (v, r.standing)) (hx ⟨r.snapshots, r.volume⟩)

theorem keeps_holdings_theSnapshotter : Act.Keeps holdings (theSnapshotter (σ := σ)) := fun _ => rfl

/-- Whatever a snapshotter is told, if only it is not a new latest snapshot. -/
theorem keeps_holdings_tell {f : Snapshotter → Snapshotter}
    (h : ∀ s, (f s).last = s.last ∧ (f s).recording = s.recording) :
    Act.Keeps holdings (tell (σ := σ) f) := by
  intro r
  obtain ⟨hlast, hrecording⟩ := h r.snapshotter
  show (r.volume, r.machine, r.log, r.history, (f r.snapshotter).last,
    (f r.snapshotter).recording) = _
  rw [hlast, hrecording]
  rfl

/-- Giving up a download keeps them. -/
theorem keeps_holdings_cancelDownload : Act.Keeps holdings (cancelDownload (σ := σ)) := by
  apply Act.Keeps.bind keeps_holdings_theSnapshotter
  intro s
  apply Act.Keeps.ite (Act.Keeps.pure _)
  split
  · exact Act.Keeps.pure _
  · exact Act.Keeps.bind (Act.Keeps.modify fun _ => rfl)
      fun _ => keeps_holdings_tell fun _ => ⟨rfl, rfl⟩

/-- A new job keeps them if it has nothing to record yet. -/
theorem keeps_holdings_spawn {stage : JobStage} (h : stage.recording? = none) :
    Act.Keeps holdings (spawn (σ := σ) stage) := by
  apply Act.Keeps.bind keeps_holdings_theSnapshotter
  intro s
  refine Act.Keeps.bind (keeps_holdings_tell fun s => ⟨rfl, ?_⟩) fun _ => Act.Keeps.pure _
  show (s.jobs ++ [stage]).filterMap _ = _
  rw [List.filterMap_append, List.filterMap_cons_none h, List.filterMap_nil, List.append_nil]
  rfl

/-- A copy that is started has not written anything yet. -/
theorem keeps_volume_startCopy (uri : String) :
    Act.Keeps Mounted.volume (SnapshotStore.startCopy uri) := by
  apply Act.Keeps.bind (Act.Keeps.ofExcept _)
  intro source
  apply Act.Keeps.bind (fun _ => rfl)
  intro s
  exact Act.Keeps.bind (fun _ => rfl) fun _ => Act.Keeps.pure _

/-- So starting a download keeps the holdings. -/
theorem keeps_holdings_startDownload (request : InstallRequest) :
    Act.Keeps holdings (startDownload (σ := σ) request) := by
  apply Act.Keeps.bind (keeps_holdings_onSnapshots (keeps_volume_startCopy _))
  intro copy
  apply Act.Keeps.bind keeps_holdings_theSnapshotter
  intro s
  exact Act.Keeps.bind (keeps_holdings_tell fun _ => ⟨rfl, rfl⟩) fun _ => Act.Keeps.pure _

/-- Following a term keeps them. -/
theorem keeps_holdings_followTerm (term : Nat) :
    Act.Keeps holdings (followTerm (σ := σ) term) := by
  apply Act.Keeps.bind keeps_holdings_theSnapshotter
  intro s
  refine Act.Keeps.ite ?_ (Act.Keeps.pure _)
  exact Act.Keeps.bind (keeps_holdings_tell fun _ => ⟨rfl, rfl⟩)
    fun _ => keeps_holdings_cancelDownload

/-- What follows on a save may give the writer up, which is a matter of the store. -/
theorem keeps_standing_afterSave (last : LogId) (w : SnapshotWriter)
    (result : Except Failure LogId) : Act.Keeps standing (afterSave (σ := σ) last w result) := by
  rcases result with (e | v) | id
  · exact Act.Keeps.bind (keeps_standing_onSnapshots _) fun _ => Act.Keeps.pure _
  · exact Act.Keeps.pure _
  · apply Act.Keeps.ite (Act.Keeps.pure _)
    exact Act.Keeps.bind (keeps_standing_onSnapshots _) fun _ => Act.Keeps.pure _

/-- What follows on a copy may close its reader, which is a matter of the store. -/
theorem keeps_standing_afterCopy (d : Download) (joined : Except Error SnapshotReader) :
    Act.Keeps standing (afterCopy (σ := σ) d joined) := by
  apply Act.Keeps.bind (keeps_standing_of_holdings keeps_holdings_theSnapshotter)
  intro s
  dsimp only
  -- the download may be registered or not, and the copy may have failed or not
  apply Act.Keeps.ite
  · cases joined with
    | ok reader => exact Act.Keeps.bind (keeps_standing_onSnapshots _) fun _ => Act.Keeps.pure _
    | error e => exact Act.Keeps.pure _
  · cases joined with
    | ok reader =>
      exact Act.Keeps.bind (keeps_standing_of_holdings (keeps_holdings_tell fun _ => ⟨rfl, rfl⟩))
        fun _ => Act.Keeps.pure _
    | error e => exact Act.Keeps.pure _

/-- A download that ends keeps the holdings. -/
theorem keeps_holdings_endDownload (d : Download) :
    Act.Keeps holdings (endDownload (σ := σ) d) := by
  apply Act.Keeps.bind keeps_holdings_theSnapshotter
  intro s
  refine Act.Keeps.ite ?_ (Act.Keeps.pure _)
  exact Act.Keeps.bind (Act.Keeps.modify fun _ => rfl)
    fun _ => keeps_holdings_tell fun _ => ⟨rfl, rfl⟩

/-! ### Requests -/

/-- What no part of a request to take a snapshot takes away stays, whatever comes of it. -/
theorem preserves_requestSnapshot {P : Replica σ → Prop}
    (hsaving : Act.Preserves P (tell fun s => { s with saving := true }))
    (hspawn : ∀ last, Act.Preserves P (spawn (.making last))) :
    Act.Preserves P (requestSnapshot m) := by
  refine .bind (fun _ h => h) fun s => ?_
  dsimp only
  refine .ite (.fail_bind _ _) ?_
  refine .ite (.fail_bind _ _) ?_
  refine .ite (.fail_bind _ _) ?_
  refine .bind .get fun r => ?_
  refine .ite (.pure _) ?_
  exact .bind hsaving fun _ => .bind (hspawn s.last) fun _ => .pure _

/-- And so it is with a request to install one. -/
theorem preserves_requestInstall {P : Replica σ → Prop} {request : InstallRequest}
    (hfollow : Act.Preserves P (followTerm request.term))
    (hcancel : Act.Preserves P cancelDownload)
    (hstart : Act.Preserves P (startDownload request))
    (hspawn : ∀ d, Act.Preserves P (spawn (.copying d))) :
    Act.Preserves P (requestInstall request) := by
  refine .bind (fun _ h => h) fun s => ?_
  dsimp only
  refine .ite (.fail_bind _ _) ?_
  refine .ite (.fail_bind _ _) ?_
  refine .bind hfollow fun _ => .bind (fun _ h => h) fun s' => ?_
  refine .ite (.pure _) ?_
  refine .bind (.ofExcept _) fun _ => ?_
  exact .bind hcancel fun _ => .bind hstart fun d => .bind (hspawn d) fun _ => .pure _

/-- **A request to take a snapshot** leaves alone what the node stands on, whatever comes of it. -/
theorem keeps_holdings_requestSnapshot : Act.Keeps holdings (requestSnapshot m) :=
  .of_preserves fun c => preserves_requestSnapshot
    ((keeps_holdings_tell fun _ => ⟨rfl, rfl⟩).preserves c)
    fun _ => (keeps_holdings_spawn rfl).preserves c

/-- **A request to install a snapshot** does so as well. -/
theorem keeps_holdings_requestInstall (request : InstallRequest) :
    Act.Keeps holdings (requestInstall (σ := σ) request) :=
  .of_preserves fun c => preserves_requestInstall ((keeps_holdings_followTerm _).preserves c)
    (keeps_holdings_cancelDownload.preserves c) ((keeps_holdings_startDownload _).preserves c)
    fun _ => (keeps_holdings_spawn rfl).preserves c

theorem keeps_holdings_interrupt (term : Nat) : Act.Keeps holdings (interrupt (σ := σ) term) :=
  Act.Keeps.bind (keeps_holdings_tell fun _ => ⟨rfl, rfl⟩) fun _ => keeps_holdings_cancelDownload

theorem keeps_holdings_shutdown : Act.Keeps holdings (shutdown (σ := σ)) :=
  Act.Keeps.bind (keeps_holdings_tell fun _ => ⟨rfl, rfl⟩) fun _ => keeps_holdings_cancelDownload

/-! ### Steps of jobs -/

/-- **A step of a job at a quiet stage** leaves alone what the node stands on. -/
theorem keeps_standing_advance (m : StateMachine σ) {a : JobStage} (h : a.isQuiet = true) :
    Act.Keeps standing (advance m a) := by
  have htell {f : Snapshotter → Snapshotter}
      (h : ∀ s, (f s).last = s.last ∧ (f s).recording = s.recording) :
      Act.Keeps standing (tell (σ := σ) f) := keeps_standing_of_holdings (keeps_holdings_tell h)
  -- one case for each quiet stage
  cases a with
  | making last =>
    apply keeps_orElse
    exact Act.Keeps.bind (keeps_standing_onSnapshots _) fun _ => Act.Keeps.pure _
  | endingSave result =>
    exact Act.Keeps.bind (htell fun _ => ⟨rfl, rfl⟩) fun _ => Act.Keeps.pure _
  | copying d =>
    apply Act.Keeps.bind (keeps_tried (keeps_standing_onSnapshots _))
    exact fun joined => keeps_standing_afterCopy d joined
  | opened reader =>
    apply keeps_orElse
    exact Act.Keeps.bind (Act.Keeps.ofExcept _) fun _ => Act.Keeps.pure _
  | endingLoad reader result =>
    apply Act.Keeps.bind (keeps_standing_onSnapshots _)
    intro _
    exact Act.Keeps.bind (htell fun _ => ⟨rfl, rfl⟩) fun _ => Act.Keeps.pure _
  | endingDownload d result =>
    apply keeps_standing_of_holdings
    exact Act.Keeps.bind (keeps_holdings_endDownload d) fun _ => Act.Keeps.pure _
  | «over» result => exact Act.Keeps.pure _
  | _ => simp [JobStage.isQuiet] at h

end Replica
end RaftReplica
