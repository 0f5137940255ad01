/-
RaftReplica/Proofs/Replica/Latest.lean

The latest snapshot of a node and the floor of its history.  A job that drops the log up to a
snapshot moves the floor there first, and then records the snapshot as the latest one; in between,
other sections may happen.  So either the two are at the same position, or one job has moved the
floor up and is about to record it (`Snapshotter.Level`).  The floor never moves back, and only one
job at a time can move it, so the latest snapshot never goes back either
(`Replica.latest_at_floor`).

* One step of a job moves the floor, or records the snapshot, or does neither; `JobStage.Lifts` has
  these three cases, and `advance_lifts` finds the one for each stage.  Where the floor is moved it
  may also fail to move, and then the job ends (`lifts_orElse`).
* The invariant.  `Level.advance` takes the three cases through `Level`.  A job that has something to
  record holds one of the two flags, so by `Consistent` there is no other such job
  (`Consistent.recording_eq`).
* All moves.  Requests leave the floor and the latest snapshot alone (`Level.of_holdings`), and what
  happens elsewhere is asked to keep the floor (`Move.KeepsFloor`).
* The start.  A node that is initialised adopts the snapshot on its disk, if there is one; the floor
  and the latest snapshot are then set together (`preserves_init`).

The term that a node follows is counted in the same way, from what each move makes of it
(`following_after`): interrupts raise it always, requests until the node is shut down.
-/
import RaftReplica.Proofs.Membership.History
import RaftReplica.Proofs.Replica.Interleaving
import RaftReplica.Simulation.Machine

namespace RaftReplica

open Simulation (BlobMachine)

/-! ### One step of a job -/

/-- `a.Lifts floor last b floor' last'`: a step of a job from stage `a` to stage `b` leaves alone
where the floor and the latest snapshot are, or it moves the floor up, or it records that. -/
inductive JobStage.Lifts (floor last : LogId) : JobStage → JobStage → LogId → LogId → Prop
  | stay {a b : JobStage} : a.recording? = none → b.recording? = none → Lifts floor last a b floor last
  | move {a b : JobStage} {id : LogId} : a.isSave = true ∨ a.isLoad = true → a.recording? = none →
      b.recording? = some id → ¬ id < floor → Lifts floor last a b id last
  | record {a b : JobStage} {id : LogId} : a.recording? = some id → b.recording? = none →
      Lifts floor last a b floor id

namespace Replica

variable {σ α β : Type} {m : StateMachine σ}

/-- If `x` has a result the floor is at `id` then, which is not below where it was; and if `x` fails
the floor is where it was. -/
def MovesFloor (x : Act (Replica σ) α) (id : LogId) : Prop := ∀ r,
  (∃ a r', x.runOn r = (.ok a, r') ∧ r'.history.floor.id = id ∧ ¬ id < r.history.floor.id) ∨
    ∃ e r', x.runOn r = (.error e, r') ∧ r'.history.floor = r.history.floor

/-- What comes before may do anything that keeps the floor. -/
theorem MovesFloor.bind {x : Act (Replica σ) α} {f : α → Act (Replica σ) β} {id : LogId}
    (hx : Act.Keeps (fun r => r.history.floor) x) (hf : ∀ a, MovesFloor (f a) id) :
    MovesFloor (x >>= f) id := by
  intro r
  have hkept := hx r
  rcases hrun : x.runOn r with ⟨e | a, r₁⟩
  · rw [hrun] at hkept
    exact .inr ⟨e, r₁, Act.runOn_bind_error hrun, hkept⟩
  · rw [hrun] at hkept
    rw [Act.runOn_bind_ok hrun]
    change r₁.history.floor = r.history.floor at hkept
    rw [← hkept]
    exact hf a r₁

theorem keeps_floor_onLog (x : Act (Mounted LogStore) α) :
    Act.Keeps (fun r : Replica σ => r.history.floor) (onLog x) := fun _ => rfl

/-- A change of the history that keeps its floor keeps that of the node. -/
theorem keeps_floor_setHistory {f : MembershipHistory → Except Violation MembershipHistory}
    (h : ∀ a b, f a = .ok b → b.floor = a.floor) :
    Act.Keeps (fun r : Replica σ => r.history.floor) (setHistory f) := by
  intro r
  rw [setHistory, Act.runOn_bind_ok (Act.runOn_get r)]
  cases hf : f r.history with
  | ok b => exact h _ _ hf
  | error v => rfl

/-- The floor is set to the snapshot, or the assertion about it fails. -/
theorem movesFloor_setFloor (info : SnapshotMeta) :
    MovesFloor (σ := σ) (setHistory (·.setFloor info.membership)) info.lastIncluded := by
  intro r
  rw [setHistory, Act.runOn_bind_ok (Act.runOn_get r)]
  cases hset : r.history.setFloor info.membership with
  | ok h' =>
    obtain ⟨hfloor, rfl⟩ := MembershipHistory.setFloor_eq_ok_iff.1 hset
    exact .inl ⟨(), _, rfl, rfl, hfloor⟩
  | error v => exact .inr ⟨.violation v, r, rfl, rfl⟩

/-- **The floor comes last** when the log is dropped up to a snapshot. -/
theorem movesFloor_compact (info : SnapshotMeta) :
    MovesFloor (σ := σ) (compact info) info.lastIncluded := by
  apply MovesFloor.bind Act.Keeps.get
  intro r
  dsimp only
  -- two ways to drop the log, and in both the floor is moved at the end
  split
  · exact fun r => .inr ⟨_, r, rfl, rfl⟩
  · split
    · exact .bind (keeps_floor_onLog _) fun _ => movesFloor_setFloor info
    · apply MovesFloor.bind (keeps_floor_onLog _)
      intro _
      apply MovesFloor.bind (keeps_floor_setHistory _)
      · exact fun _ => movesFloor_setFloor info
      · rintro a _ ⟨⟩
        rfl

/-- Publishing a snapshot moves the floor to it, or fails. -/
theorem movesFloor_publish (w : SnapshotWriter) (id : LogId) :
    MovesFloor (σ := σ) (publish w id) id := by
  apply MovesFloor.bind Act.Keeps.get
  intro r
  exact .bind (fun _ => rfl) fun _ => movesFloor_compact _

/-! ### Steps of jobs -/

/-- Only after the log is dropped there is something to record. -/
theorem ensures_recording_none (m : StateMachine σ) {a : JobStage}
    (h : ∀ w id, a ≠ .publishing w id) (h' : ∀ r info, a ≠ .compacting r info) :
    Act.Ensures (fun _ => True) (advance m a) fun b => b.recording? = none := by
  have hany {α : Type} (x : Act (Replica σ) α) : Act.Ensures (fun _ => True) x fun _ => True :=
    fun _ _ => ⟨trivial, fun _ _ => trivial⟩
  -- one case for each stage; the two that are left out are those that move the floor
  cases a with
  | making last =>
    exact ensures_orElse (.bind (hany _) fun _ _ => .pure rfl) fun _ => rfl
  | saving last w =>
    refine .bind (hany _) fun x _ => ?_
    obtain ⟨(e | v) | id, w'⟩ := x
    · exact .bind (hany _) fun _ _ => .pure rfl
    · exact .pure rfl
    · show Act.Ensures _ (afterSave last w' (.ok id)) _
      unfold afterSave
      dsimp only
      split
      · exact .pure rfl
      · exact .bind (hany _) fun _ _ => .pure rfl
  | publishing w id => exact absurd rfl (h w id)
  | recordingSave id => exact .bind (hany _) fun _ _ => .pure rfl
  | endingSave result => exact .bind (hany _) fun _ _ => .pure rfl
  | copying d =>
    refine .bind (hany _) fun joined _ => .bind (hany _) fun s _ => ?_
    dsimp only
    split
    · cases joined with
      | ok reader => exact .bind (hany _) fun _ _ => .pure rfl
      | error e => exact .pure rfl
    · cases joined with
      | ok reader => exact .bind (hany _) fun _ _ => .pure rfl
      | error e => exact .pure rfl
  | opened reader =>
    exact ensures_orElse (.bind (hany _) fun _ _ => .pure rfl) fun _ => rfl
  | loading reader info =>
    exact ensures_orElse (.bind (hany _) fun _ _ => .pure rfl) fun _ => rfl
  | compacting reader info => exact absurd rfl (h' reader info)
  | recordingInstall reader info =>
    exact .bind (hany _) fun _ _ => .bind (hany _) fun _ _ => .pure rfl
  | endingLoad reader result =>
    exact .bind (hany _) fun _ _ => .bind (hany _) fun _ _ => .pure rfl
  | endingDownload d result => exact .bind (hany _) fun _ _ => .pure rfl
  | «over» result => exact .pure rfl

/-- A part that fails leads to the stage for its failure. -/
theorem runOn_orElse_failed {x : Act (Replica σ) JobStage} (failed : Error → JobStage) {e : Failure}
    {r r' : Replica σ} (h : x.runOn r = (.error e, r')) :
    ∃ e', (orElse x failed).runOn r = (.ok (failed e'), r') := by
  cases e with
  | error e => exact ⟨e, runOn_orElse_error h⟩
  | violation v =>
    refine ⟨.interrupted .unfinished, ?_⟩
    rw [orElse, tried, Act.runOn_bind, Act.runOn_bind_ok (Act.runOn_attempt x r), h]
    rfl

/-- A part of a job that moves the floor, and then goes on to record that. -/
theorem lifts_orElse {x : Act (Replica σ) Unit} {id : LogId} {a b : JobStage}
    {failed : Error → JobStage} (hx : MovesFloor x id)
    (hkeeps : Act.Keeps Replica.snapshotter x) (hbusy : a.isSave = true ∨ a.isLoad = true)
    (ha : a.recording? = none) (hb : b.recording? = some id)
    (hfailed : ∀ e, (failed e).recording? = none) (r : Replica σ) :
    ∃ b' r', (orElse (do x; return b) failed).runOn r = (.ok b', r') ∧
      a.Lifts r.history.floor.id r.snapshotter.last b' r'.history.floor.id r'.snapshotter.last := by
  have hsame := hkeeps r
  rcases hx r with ⟨_, r', hrun, hfloor, hle⟩ | ⟨e, r', hrun, hfloor⟩
  · rw [hrun] at hsame
    have hgo : (do x; return b : Act (Replica σ) JobStage).runOn r = (.ok b, r') :=
      Act.runOn_bind_ok hrun
    refine ⟨b, r', runOn_orElse_ok hgo, ?_⟩
    rw [hsame, hfloor]
    exact .move hbusy ha hb hle
  · rw [hrun] at hsame
    have hstop : (do x; return b : Act (Replica σ) JobStage).runOn r = (.error e, r') :=
      Act.runOn_bind_error hrun
    obtain ⟨e', hrun'⟩ := runOn_orElse_failed failed hstop
    refine ⟨failed e', r', hrun', ?_⟩
    rw [hsame, hfloor]
    exact .stay ha (hfailed e')

/-- A step at any other stage leaves alone where the floor and the latest snapshot are. -/
theorem keeps_floor_advance (m : StateMachine σ) {a : JobStage}
    (h : ∀ w id, a ≠ .publishing w id) (h' : ∀ r info, a ≠ .compacting r info)
    (hrec : a.recording? = none) :
    Act.Keeps (fun r => (r.history.floor, r.snapshotter.last)) (advance m a) := by
  have hpart {α : Type} {x : Act (Replica σ) α} (hx : Act.Keeps standing x) :
      Act.Keeps (fun r => (r.history.floor, r.snapshotter.last)) x :=
    hx.map fun (_, _, history, last, _) => (history.floor, last)
  cases a with
  | saving last w =>
    -- the machine may change here, but nothing else
    apply Act.Keeps.bind (fun _ => rfl)
    intro x
    exact hpart (keeps_standing_afterSave last x.2 x.1)
  | loading reader info =>
    apply keeps_orElse
    exact Act.Keeps.bind (fun _ => rfl) fun _ => Act.Keeps.pure _
  | publishing w id => exact absurd rfl (h w id)
  | compacting reader info => exact absurd rfl (h' reader info)
  | recordingSave id => nomatch hrec
  | recordingInstall reader info => nomatch hrec
  | _ => exact hpart (keeps_standing_advance m rfl)

/-- **Every step of a job** keeps the floor and the latest snapshot, or lifts one of them. -/
theorem advance_lifts (m : StateMachine σ) (a : JobStage) (r : Replica σ) :
    ∃ b r', (advance m a).runOn r = (.ok b, r') ∧
      a.Lifts r.history.floor.id r.snapshotter.last b r'.history.floor.id r'.snapshotter.last := by
  have hquiet (h : ∀ w id, a ≠ .publishing w id) (h' : ∀ r info, a ≠ .compacting r info)
      (hrec : a.recording? = none) : ∃ b r', (advance m a).runOn r = (.ok b, r') ∧
      a.Lifts r.history.floor.id r.snapshotter.last b r'.history.floor.id r'.snapshotter.last := by
    obtain ⟨b, r', hrun, -⟩ := advance_leads m a r
    have hkept := keeps_floor_advance m h h' hrec r
    have hb := (ensures_recording_none m h h' r trivial).2
    rw [hrun] at hkept hb
    obtain ⟨hfloor, hlast⟩ := Prod.mk.inj hkept
    refine ⟨b, r', hrun, ?_⟩
    rw [hfloor, hlast]
    exact .stay hrec (hb b rfl)
  -- two stages move the floor, two record, and the rest do neither
  cases a with
  | publishing w id =>
    exact lifts_orElse (movesFloor_publish w id) (keeps_publish w id) (.inl rfl) rfl rfl
      (fun _ => rfl) r
  | compacting reader info =>
    exact lifts_orElse (movesFloor_compact info) (keeps_compact info) (.inr rfl) rfl rfl
      (fun _ => rfl) r
  | recordingSave id => exact ⟨_, _, rfl, .record rfl rfl⟩
  | recordingInstall reader info => exact ⟨_, _, rfl, .record rfl rfl⟩
  | _ => exact hquiet nofun nofun rfl

end Replica

/-! ### The invariant -/

namespace Snapshotter

variable {s s' : Snapshotter} {floor floor' : LogId} {n : Nat} {a b : JobStage}

/-- The floor is at the latest snapshot, or one job has moved it up and is about to record that. -/
structure Level (s : Snapshotter) (floor : LogId) : Prop where
  consistent : s.Consistent
  level : s.recording = [] ∧ s.last = floor ∨ s.recording = [floor] ∧ ¬ floor < s.last

/-- A job that is about to record a snapshot saves or loads. -/
theorem isBusy_of_recording {id : LogId} (h : a.recording? = some id) :
    a.isSave = true ∨ a.isLoad = true := by
  cases a with
  | recordingSave id => exact .inl rfl
  | recordingInstall r info => exact .inr rfl
  | _ => nomatch h

/-- Next to a job that saves or loads no other one has anything to record. -/
theorem Consistent.recording_eq (hs : s.Consistent) {before behind : List JobStage}
    (hjobs : s.jobs = before ++ a :: behind) (ha : a.isSave = true ∨ a.isLoad = true) :
    before.filterMap JobStage.recording? = [] ∧ behind.filterMap JobStage.recording? = [] := by
  have hsaves := hs.saves
  have hloads := hs.loads
  have hex := hs.exclusive
  rw [hjobs, List.countP_append, List.countP_cons] at hsaves hloads
  have hnone {jobs : List JobStage} (hsave : jobs.countP JobStage.isSave = 0)
      (hload : jobs.countP JobStage.isLoad = 0) : jobs.filterMap JobStage.recording? = [] := by
    refine List.filterMap_eq_nil_iff.2 fun x hx => ?_
    cases hrec : x.recording? with
    | none => rfl
    | some id =>
      rcases isBusy_of_recording hrec with h | h
      · exact absurd h (List.countP_eq_zero.1 hsave x hx)
      · exact absurd h (List.countP_eq_zero.1 hload x hx)
  -- this job uses up the one flag there is, so none is left for the others
  have hone : 1 ≤ (if a.isSave = true then 1 else 0) + if a.isLoad = true then 1 else 0 := by
    rcases ha with h | h <;> simp [h]
  exact ⟨hnone (by omega) (by omega), hnone (by omega) (by omega)⟩

/-- **A step of a job** keeps the floor level with the latest snapshot, which does not go back. -/
theorem Level.advance (hs : s.Level floor) (hn : s.jobs[n]? = some a) (hleads : a.Leads s b s')
    (h : a.Lifts floor s.last b floor' s'.last) :
    (s'.setJob n b).Level floor' ∧ ¬ s'.last < s.last := by
  have hconsistent := hs.consistent.advance hn hleads
  obtain ⟨before, behind, hjobs, hset⟩ := exists_around hn
  have haround (x : JobStage) : (before ++ x :: behind).filterMap JobStage.recording? =
      before.filterMap JobStage.recording? ++
        (x.recording?.toList ++ behind.filterMap JobStage.recording?) := by
    rw [List.filterMap_append, List.filterMap_cons]
    cases x.recording? <;> rfl
  have hrecording : s.recording = (before ++ a :: behind).filterMap JobStage.recording? := by
    rw [recording, hjobs]
  have hrecording' : (s'.setJob n b).recording =
      (before ++ b :: behind).filterMap JobStage.recording? := by
    rw [recording, setJob, hleads.jobs_eq, hset]
  rw [haround] at hrecording hrecording'
  generalize hlast : s'.last = last' at h ⊢
  change (s'.setJob n b).last = last' at hlast
  -- a job that saves or loads is the only one that could have something to record
  have halone (ha : a.isSave = true ∨ a.isLoad = true) : s.recording = a.recording?.toList ∧
      (s'.setJob n b).recording = b.recording?.toList := by
    obtain ⟨hbefore, hbehind⟩ := hs.consistent.recording_eq hjobs ha
    rw [hrecording, hrecording', hbefore, hbehind]
    exact ⟨List.append_nil _, List.append_nil _⟩
  -- neither moved nor recorded, moved and about to be recorded, or recorded
  cases h with
  | stay ha hb =>
    refine ⟨⟨hconsistent, ?_⟩, LogId.lt_irrefl _⟩
    rw [hlast, hrecording', hb, ← ha, ← hrecording]
    exact hs.level
  | move hbusy ha hb hle =>
    obtain ⟨hnone, hsome⟩ := halone hbusy
    rw [ha] at hnone
    rw [hb] at hsome
    rcases hs.level with ⟨-, rfl⟩ | ⟨hrec, -⟩
    · exact ⟨⟨hconsistent, .inr ⟨hsome, hlast ▸ hle⟩⟩, LogId.lt_irrefl _⟩
    · exact absurd (hnone.symm.trans hrec) (by simp)
  | record ha hb =>
    obtain ⟨hsome, hnone⟩ := halone (isBusy_of_recording ha)
    rw [ha] at hsome
    rw [hb] at hnone
    rcases hs.level with ⟨hrec, -⟩ | ⟨hrec, hle⟩
    · exact absurd (hrec.symm.trans hsome) (by simp)
    · obtain rfl : last' = floor := by simpa using hsome.symm.trans hrec
      exact ⟨⟨hconsistent, .inl ⟨hnone, hlast⟩⟩, hle⟩

/-- A change that neither records anything nor has anything to record. -/
theorem Level.of_same (hs : s.Level floor) (hconsistent : s'.Consistent) (hlast : s'.last = s.last)
    (hrecording : s'.recording = s.recording) : s'.Level floor := by
  refine ⟨hconsistent, ?_⟩
  rw [hlast, hrecording]
  exact hs.level

end Snapshotter

namespace Replica

variable {σ : Type} {m : StateMachine σ} {r : Replica σ}

/-! ### Runs -/

/-- Only the snapshotter moves the floor. -/
def Move.KeepsFloor : Move σ → Prop
  | .elsewhere f => ∀ r, (f r).history.floor = r.history.floor
  | _ => True

/-- The floor is level with the latest snapshot. -/
def Level (r : Replica σ) : Prop := r.snapshotter.Level r.history.floor.id

/-- What leaves alone what the node stands on keeps the floor level. -/
theorem Level.of_standing {r' : Replica σ} (h : r.Level) (hr : r'.standing = r.standing)
    (hchanges : r.snapshotter.Changes r'.snapshotter) :
    r'.Level ∧ ¬ r'.snapshotter.last < r.snapshotter.last := by
  simp only [standing, Prod.mk.injEq] at hr
  obtain ⟨-, -, hhistory, hlast, hrecording⟩ := hr
  refine ⟨?_, hlast ▸ LogId.lt_irrefl _⟩
  rw [Level, hhistory]
  exact Snapshotter.Level.of_same h (h.consistent.changes hchanges) hlast hrecording

/-- A move that leaves what the node holds keeps the floor and the latest snapshot level. -/
theorem Level.of_holdings {r' : Replica σ} (h : r.Level) (hr : r'.holdings = r.holdings)
    (hchanges : r.snapshotter.Changes r'.snapshotter) :
    r'.Level ∧ ¬ r'.snapshotter.last < r.snapshotter.last :=
  h.of_standing (congrArg Prod.snd hr) hchanges

/-- A step of a job keeps them level. -/
theorem Level.job (h : r.Level) (m : StateMachine σ) (n : Nat) :
    (r.after m (.job n)).Level ∧ ¬ (r.after m (.job n)).snapshotter.last < r.snapshotter.last := by
  have hchanges := changes_after m r (.job n)
  obtain ⟨b, r', hrun, hleads, hafter⟩ := after_job m r n
  obtain ⟨b', r'', hrun', hlifts⟩ := advance_lifts m (r.snapshotter.job n) r
  obtain ⟨hb, rfl⟩ := Prod.mk.inj (hrun.symm.trans hrun')
  obtain rfl := Except.ok.inj hb
  rw [hafter]
  cases hjob : r.snapshotter.jobs[n]? with
  | some a =>
    rw [Snapshotter.job_eq hjob] at hleads hlifts
    exact Snapshotter.Level.advance h hjob hleads hlifts
  | none =>
    -- no job has that number, and nothing happens
    have hover : (r.snapshotter.job n).isQuiet = true := by simp [Snapshotter.job, hjob, JobStage.isQuiet]
    have hkept := keeps_standing_advance m hover r
    have hsame : r'.snapshotter.setJob n b = r'.snapshotter := by
      rw [Snapshotter.setJob, hleads.jobs_eq,
        List.set_eq_of_length_le (List.getElem?_eq_none_iff.1 hjob), ← hleads.jobs_eq]
    rw [hrun] at hkept
    rw [hafter, hsame] at hchanges
    rw [hsame]
    exact h.of_standing hkept hchanges

/-- **Every move** keeps the floor level with the latest snapshot, which does not go back. -/
theorem Level.after {move : Move σ} (h : r.Level) (hmove : move.KeepsFloor) (m : StateMachine σ) :
    (r.after m move).Level ∧ ¬ (r.after m move).snapshotter.last < r.snapshotter.last := by
  -- one case for each move
  cases move with
  | requestSnapshot =>
    exact h.of_holdings (keeps_holdings_requestSnapshot r) (changes_requestSnapshot m r)
  | requestInstall request =>
    exact h.of_holdings (keeps_holdings_requestInstall request r) (changes_requestInstall request r)
  | interrupt term =>
    exact h.of_holdings (keeps_holdings_interrupt term r) (changes_interrupt term r)
  | shutdown => exact h.of_holdings (keeps_holdings_shutdown r) (changes_shutdown r)
  | job n => exact h.job m n
  | elsewhere f =>
    refine ⟨?_, LogId.lt_irrefl _⟩
    show r.snapshotter.Level (f r).history.floor.id
    rw [hmove r]
    exact h

/-- So does every run of moves that keep the floor. -/
theorem Level.afterAll {moves : List (Move σ)} (h : r.Level)
    (hmoves : ∀ move ∈ moves, move.KeepsFloor) (m : StateMachine σ) : (r.afterAll m moves).Level := by
  induction moves generalizing r with
  | nil => exact h
  | cons move moves ih =>
    exact ih (h.after (hmoves move List.mem_cons_self) m).1
      fun x hx => hmoves x (List.mem_cons_of_mem _ hx)

/-! ### Starting -/

theorem level_new {floor : LogId} : Snapshotter.Level { last := floor } floor :=
  ⟨⟨rfl, rfl, Nat.zero_le 1, by simp, List.nodup_nil, by simp [Snapshotter.awaited]⟩, .inl ⟨rfl, rfl⟩⟩

/-- A node that starts has its latest snapshot at the floor, with whatever it was that it loaded, or
failed to load. -/
theorem preserves_init (m : StateMachine σ) : Act.Preserves
    (fun r => r.snapshotter = { last := r.history.floor.id }) (init m) := by
  have hadopt (reader : SnapshotReader) : Act.Preserves
      (fun r => r.snapshotter = { last := r.history.floor.id }) (adopt m reader) := by
    refine .bind (fun r h => by rwa [Act.runOn_ofExcept]) fun info => ?_
    refine .bind (fun _ h => h) fun _ r h => ?_
    have hsame := keeps_compact info r
    rcases movesFloor_compact info r with ⟨_, r', hrun, hfloor, -⟩ | ⟨e, r', hrun, hfloor⟩
    · rw [hrun] at hsame
      change r'.snapshotter = r.snapshotter at hsame
      rw [Act.runOn_bind_ok hrun]
      show { r'.snapshotter with last := info.lastIncluded : Snapshotter } = { last := r'.history.floor.id }
      rw [hsame, h, hfloor]
    · rw [hrun] at hsame
      change r'.snapshotter = r.snapshotter at hsame
      rw [Act.runOn_bind_error hrun, hsame, hfloor]
      exact h
  refine .bind (fun _ h => h) fun opened => ?_
  -- without a snapshot nothing is adopted
  cases opened with
  | none => exact .pure ()
  | some reader =>
    refine .bind (fun r h => hadopt reader r h) fun result => ?_
    refine .bind (fun _ h => h) fun _ => ?_
    cases result with
    | ok _ => exact .pure ()
    | error e => exact fun _ h => h

/-! ### Terms -/

/-- The term that a node follows, and whether it was shut down. -/
def following (r : Replica σ) : Nat × Bool := (r.snapshotter.term, r.snapshotter.stopped)

theorem following_cancelled (s : Snapshotter) :
    (s.cancelled.term, s.cancelled.stopped) = (s.term, s.stopped) := by
  rcases s.cancelled_cases with h | ⟨-, h⟩ <;> rw [h]

/-- Giving up a download changes neither the term nor whether the node was shut down. -/
theorem keeps_following_cancelDownload : Act.Keeps following (cancelDownload (σ := σ)) := by
  intro r
  obtain ⟨r', hrun, hcancelled⟩ := runOn_cancelDownload r
  rw [hrun, following, hcancelled]
  exact following_cancelled _

theorem keeps_following_spawn (stage : JobStage) : Act.Keeps following (spawn (σ := σ) stage) :=
  .bind (fun _ => rfl) fun _ => .bind (fun _ => rfl) fun _ => .pure _

theorem keeps_following_startDownload (request : InstallRequest) :
    Act.Keeps following (startDownload (σ := σ) request) :=
  .bind (fun _ => rfl) fun _ => .bind (fun _ => rfl) fun _ => .bind (fun _ => rfl) fun _ => .pure _

theorem keeps_following_requestSnapshot : Act.Keeps following (requestSnapshot m) :=
  .of_preserves fun _ => preserves_requestSnapshot (fun _ h => h)
    fun _ => (keeps_following_spawn _).preserves _

/-- Following a greater term raises the node's own. -/
theorem following_followTerm (term : Nat) (r : Replica σ) :
    ∃ r', (followTerm (σ := σ) term).runOn r = (.ok (), r') ∧
      following r' = (max r.snapshotter.term term, r.snapshotter.stopped) := by
  unfold followTerm
  rw [Act.runOn_bind_ok (runOn_theSnapshotter r)]
  split
  · next hlt =>
    obtain ⟨r', hrun, hcancelled⟩ :=
      runOn_cancelDownload { r with snapshotter := { r.snapshotter with term } }
    refine ⟨r', hrun, ?_⟩
    rw [following, hcancelled, following_cancelled, Nat.max_eq_right (Nat.le_of_lt hlt)]
  · next hle => exact ⟨r, rfl, by rw [Nat.max_eq_left (Nat.not_lt.1 hle)]; rfl⟩

/-- A node that was not shut down follows the term of a request, whatever comes of it. -/
theorem following_requestInstall (request : InstallRequest) (r : Replica σ) :
    following ((requestInstall request).runOn r).2 =
      (if r.snapshotter.stopped then r.snapshotter.term else max r.snapshotter.term request.term,
        r.snapshotter.stopped) := by
  unfold requestInstall
  dsimp only
  rw [Act.runOn_bind_ok (runOn_theSnapshotter r)]
  split
  · rfl
  · split
    · next hlt =>
      rw [Nat.max_eq_left (Nat.le_of_lt hlt)]
      rfl
    · obtain ⟨r₁, hfollow, hr₁⟩ := following_followTerm (σ := σ) request.term r
      rw [Act.runOn_bind_ok hfollow, ← hr₁]
      refine Act.Keeps.bind (fun _ => rfl) (fun s => ?_) r₁
      refine Act.Keeps.ite (.pure _) (.bind (.ofExcept _) fun _ => ?_)
      refine .bind keeps_following_cancelDownload fun _ => ?_
      exact .bind (keeps_following_startDownload _) fun _ =>
        .bind (keeps_following_spawn _) fun _ => .pure _

/-- A step of a job does not change them. -/
theorem following_job (m : StateMachine σ) (n : Nat) (r : Replica σ) :
    following (r.after m (.job n)) = following r := by
  obtain ⟨b, r', -, hleads, hafter⟩ := after_job m r n
  rw [hafter]
  show (r'.snapshotter.term, r'.snapshotter.stopped) = (r.snapshotter.term, r.snapshotter.stopped)
  generalize r.snapshotter.job n = a at hleads
  generalize r'.snapshotter = s' at hleads ⊢
  cases hleads <;> rfl

namespace Move

/-- The term that an interruption tells. -/
def interruptTerm? : Move σ → Option Nat
  | .interrupt term => some term
  | _ => none

/-- The term that a request to install tells. -/
def requestTerm? : Move σ → Option Nat
  | .requestInstall request => some request.term
  | _ => none

/-- Whether a move shuts the node down. -/
def isShutdown : Move σ → Bool
  | .shutdown => true
  | _ => false

end Move

/-- The largest of the terms that interruptions tell. -/
def interruptTerm (moves : List (Move σ)) : Nat :=
  (moves.filterMap Move.interruptTerm?).foldr max 0

/-- The largest of the terms that requests to install tell before the node is shut down. -/
def requestTerm (moves : List (Move σ)) : Nat :=
  ((moves.takeWhile (!·.isShutdown)).filterMap Move.requestTerm?).foldr max 0

/-- The greatest term of an interrupt, one move at a time. -/
theorem interruptTerm_cons (move : Move σ) (moves : List (Move σ)) :
    interruptTerm (move :: moves) = max (move.interruptTerm?.getD 0) (interruptTerm moves) := by
  rw [interruptTerm, List.filterMap_cons]
  cases move.interruptTerm? with
  | none => exact (Nat.zero_max _).symm
  | some term => rfl

/-- The greatest term of a request before the node is shut down, one move at a time. -/
theorem requestTerm_cons (move : Move σ) (moves : List (Move σ)) : requestTerm (move :: moves) =
    if move.isShutdown then 0 else max (move.requestTerm?.getD 0) (requestTerm moves) := by
  rw [requestTerm, List.takeWhile_cons]
  cases move.isShutdown with
  | true => rfl
  | false =>
    rw [if_pos (by decide), if_neg (by decide), List.filterMap_cons]
    cases move.requestTerm? with
    | none => exact (Nat.zero_max _).symm
    | some term => rfl

/-- What a move tells a node about terms. -/
theorem following_after (m : StateMachine σ) (r : Replica σ) (move : Move σ) :
    following (r.after m move) = (max r.snapshotter.term (max (move.interruptTerm?.getD 0)
        (if r.snapshotter.stopped then 0 else move.requestTerm?.getD 0)),
      r.snapshotter.stopped || move.isShutdown) := by
  have hsame : following r = (max r.snapshotter.term (max 0
      (if r.snapshotter.stopped then 0 else 0)), r.snapshotter.stopped || false) := by
    simp [following]
  -- one case for each move: an interrupt and a request raise the term, a shutdown sets the flag
  cases move with
  | requestSnapshot => exact (keeps_following_requestSnapshot r).trans hsame
  | requestInstall request =>
    refine (following_requestInstall request r).trans ?_
    cases r.snapshotter.stopped <;> simp [Move.interruptTerm?, Move.requestTerm?, Move.isShutdown]
  | interrupt term =>
    obtain ⟨r', hrun, hcancelled⟩ := runOn_cancelDownload
      { r with snapshotter := { r.snapshotter with term := max r.snapshotter.term term } }
    have hall : (interrupt (σ := σ) term).runOn r = (.ok (), r') := hrun
    rw [after, hall, following, hcancelled, following_cancelled]
    simp [Move.interruptTerm?, Move.requestTerm?, Move.isShutdown]
  | shutdown =>
    rw [after, following, runOn_shutdown, following_cancelled]
    simp [Move.interruptTerm?, Move.requestTerm?, Move.isShutdown]
  | job n => exact (following_job m n r).trans hsame
  | elsewhere f => exact hsame

/-- **A node follows the largest term** that it was told. -/
theorem term_afterAll (m : StateMachine σ) (r : Replica σ) (moves : List (Move σ)) :
    (r.afterAll m moves).snapshotter.term = max r.snapshotter.term
      (max (interruptTerm moves) (if r.snapshotter.stopped then 0 else requestTerm moves)) := by
  induction moves generalizing r with
  | nil => simp [afterAll, interruptTerm, requestTerm]
  | cons move moves ih =>
    obtain ⟨hterm, hstopped⟩ := Prod.mk.inj (following_after m r move)
    show ((r.after m move).afterAll m moves).snapshotter.term = _
    rw [ih, hterm, hstopped, interruptTerm_cons, requestTerm_cons]
    -- a shutdown tells no term
    have hshutdown : move.isShutdown = true → move.requestTerm?.getD 0 = 0 := by
      cases move <;> simp [Move.isShutdown, Move.requestTerm?]
    cases r.snapshotter.stopped <;> cases hmove : move.isShutdown <;>
      simp only [Bool.or_true, Bool.or_false, Bool.false_eq_true, if_true, if_false] <;>
      simp only [hmove, forall_const] at hshutdown <;> omega

/-! ### The latest snapshot -/

/-- **The latest snapshot and the floor.**  A node with a new snapshotter and a history without a
floor starts, or does not, and then requests, steps of jobs and things elsewhere follow one another
in any order; everything may succeed, fail or break an assertion, but nothing elsewhere moves the
floor.  In every state that is reached

* no further move sets the latest snapshot back, and starting did not;
* the latest snapshot is at the floor of the history, unless a job saves or loads;
* the term is the largest one that interruptions told, and requests to install before the node was
  shut down. -/
theorem latest_at_floor (m : StateMachine σ) {node start : Replica σ}
    (hnew : node.snapshotter = {}) (hfloor : node.history.floor = .initial)
    (hstart : start = node ∨ start = ((init m).runOn node).2)
    (moves : List (Move σ)) (hmoves : ∀ move ∈ moves, move.KeepsFloor) :
    let r := start.afterAll m moves
    ¬ start.snapshotter.last < node.snapshotter.last ∧
    (∀ move : Move σ, move.KeepsFloor → ¬ (r.after m move).snapshotter.last < r.snapshotter.last) ∧
    ((∀ a ∈ r.snapshotter.jobs, a.isSave = false ∧ a.isLoad = false) →
      r.snapshotter.last = r.history.floor.id) ∧
    r.snapshotter.term = max (interruptTerm moves) (requestTerm moves) := by
  intro r
  have hnode : node.snapshotter = { last := node.history.floor.id } := by
    rw [hnew, hfloor]
    rfl
  have hbegun : start.snapshotter = { last := start.history.floor.id } := by
    rcases hstart with rfl | rfl
    · exact hnode
    · exact preserves_init m node hnode
  have hlevel : r.Level := by
    refine Level.afterAll ?_ hmoves m
    rw [Level, hbegun]
    exact level_new
  refine ⟨by rw [hnew]; exact LogId.not_lt_zero _, fun move hmove => (hlevel.after hmove m).2, fun hidle => ?_, ?_⟩
  · rcases hlevel.level with ⟨-, hlast⟩ | ⟨hrecording, -⟩
    · exact hlast
    · -- what is about to be recorded is so by a job that saves or loads
      have hmem : r.history.floor.id ∈ r.snapshotter.recording := by simp [hrecording]
      obtain ⟨a, ha, hid⟩ := List.mem_filterMap.1 hmem
      obtain ⟨hsave, hload⟩ := hidle a ha
      rcases Snapshotter.isBusy_of_recording hid with h | h
      · exact absurd (h.symm.trans hsave) (by decide)
      · exact absurd (h.symm.trans hload) (by decide)
  · have hterm := term_afterAll m start moves
    rw [hbegun] at hterm
    simpa using hterm

/-! A node takes two snapshots.  In between its leader asks it to install one from a place that is
none, and after it was shut down another leader does. -/

/-- The machine has applied two entries of the log. -/
def applying : Replica BlobMachine where
  volume := .ofDisk .empty
  machine := { applied := ⟨1, 2⟩, state := [7] }
  snapshots := { directory := .ofText "snapshot", sync := false }
  log := .memory { first := 1, entries := [.noOp 1 1, .ofData 1 2 [7], .noOp 2 3] }
  history := .empty

/-- Further entries are applied. -/
def applyUpTo (id : LogId) : Move BlobMachine :=
  .elsewhere fun r => { r with machine := { r.machine with applied := id } }

/-- A leader of a given term asks to install a snapshot from nowhere. -/
def leaderOf (term : Nat) : Move BlobMachine :=
  .requestInstall ⟨"group", { ip := .v4 127 0 0 1, port := 1, idx := 0 }, term,
    ⟨⟨term, 9⟩, .empty, .empty⟩, "nowhere"⟩

/-- Two snapshots, with requests of other leaders in between.  The second snapshot is the latest one,
the floor is there, and the term is the greatest that was told before the node was shut down. -/
theorem latest_at_floor_twice :
    let moves := .requestSnapshot :: List.replicate 5 (.job 0) ++
      [applyUpTo ⟨2, 3⟩, leaderOf 4, .interrupt 3, .requestSnapshot] ++ List.replicate 4 (.job 1) ++
      [.shutdown, leaderOf 8, .job 1]
    let r := ((init BlobMachine.machine).runOn applying).2.afterAll BlobMachine.machine moves
    r.snapshotter.last = ⟨2, 3⟩ ∧ r.history.floor.id = ⟨2, 3⟩ ∧ r.snapshotter.term = 4 := by
  intro moves
  have hmoves : ∀ move ∈ moves, move.KeepsFloor := by
    simp [moves, leaderOf, applyUpTo, Move.KeepsFloor]
  have hall := latest_at_floor BlobMachine.machine
    (show applying.snapshotter = {} from rfl) rfl (.inr rfl) moves hmoves
  have hseen :
      let r := ((init BlobMachine.machine).runOn applying).2.afterAll BlobMachine.machine moves
      r.snapshotter.last = ⟨2, 3⟩ ∧
        r.snapshotter.jobs.all (fun a => !a.isSave && !a.isLoad) = true := by decide +kernel
  -- what is said about the state is enough, nobody has to compute it again
  generalize ((init BlobMachine.machine).runOn applying).2.afterAll BlobMachine.machine moves = r
    at hall hseen ⊢
  obtain ⟨-, -, hlast, hterm⟩ := hall
  have hidle : ∀ a ∈ r.snapshotter.jobs, a.isSave = false ∧ a.isLoad = false := by
    simpa using hseen.2
  exact ⟨hseen.1, (hlast hidle).symm.trans hseen.1, hterm.trans (by decide)⟩

end Replica
end RaftReplica
