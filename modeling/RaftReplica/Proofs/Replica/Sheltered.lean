/-
RaftReplica/Proofs/Replica/Sheltered.lean

What others rely on at a node: the state of its machine, what its log tells, its history
and its latest snapshot (`Replica.reliedOn`).

The log tells what is on disk, and the snapshots are on the same disk.  So an action on
the snapshots leaves the log alone only if the two are apart.  This is said of the disk
and not of the paths (`Replica.Separate`): whatever becomes of the directory of the
snapshots, the path of the log leads where it did, and what is there is what was there.
A node is `Sheltered` if its log is in memory, or if it is on disk and this holds.

An action is `Harmless` if it leaves alone the fields of the node, and on disk all but the
snapshots.  Every call is, and so is every step of a job at a quiet stage.  What is
harmless leaves alone what others rely on, and leaves the node sheltered
(`Sheltered.runOn`); so runs of such moves do.
-/
import RaftReplica.Proofs.Replica.Interleaving
import RaftReplica.Proofs.Replica.Settled
import RaftReplica.Proofs.Snapshot.Outside

namespace RaftReplica

open Disk

namespace Replica

variable {σ α β : Type} {m : StateMachine σ} {r : Replica σ} {n : Nat} {a : JobStage}
  {base : Location → Option Item} {den home : Location} {p : Path}

/-! ### What others rely on -/

/-- The state of the machine, what the log tells, the history and the latest snapshot. -/
def reliedOn (r : Replica σ) : σ × LogStore.View × MembershipHistory × LogId :=
  (r.machine, r.log.view r.volume.disk, r.history, r.snapshotter.last)

/-- What others rely on is part of what a node holds. -/
theorem reliedOn_of_holdings {r' : Replica σ} (h : r'.holdings = r.holdings) :
    r'.reliedOn = r.reliedOn := by
  simp only [holdings, standing, Prod.mk.injEq] at h
  obtain ⟨hvolume, hmachine, hlog, hhistory, hlast, -⟩ := h
  rw [reliedOn, reliedOn, hvolume, hmachine, hlog, hhistory, hlast]

/-- The log `l` is in the directory `home` of the disk, and the snapshots are in another one, `den`,
outside of which the disk is `base`.  The log is not below it, and its path does not lead through
it. -/
structure Separate (r : Replica σ) (l : SegmentedLog) (base : Location → Option Item)
    (home den : Location) : Prop where
  mirrors : ∃ mem, SegmentedLog.Mirrors r.volume.disk home l mem
  ne : home ≠ den
  not_below : ¬ Below den home
  leads : ∀ d, Outside base den d → d.directoryAt l.directory = .ok home
  rooted : Rooted base den r.snapshots.directory
  inside : r.snapshots.Inside base den r.snapshots.directory
  outside : Outside base den r.volume.disk

/-- The log is in memory, or it is on disk and the snapshots are elsewhere. -/
def Sheltered (r : Replica σ) : Prop :=
  ∀ l, r.log = .segmented l → ∃ base home den, r.Separate l base home den

/-- What the node knows about its snapshots does not matter. -/
theorem Sheltered.knowing (h : r.Sheltered) (s : Snapshotter) :
    { r with snapshotter := s }.Sheltered := by
  intro l hl
  obtain ⟨base, home, den, hapart⟩ := h l hl
  exact ⟨base, home, den, hapart.mirrors, hapart.ne, hapart.not_below, hapart.leads, hapart.rooted,
    hapart.inside, hapart.outside⟩

/-- What happens in the directory of the snapshots leaves the log as it is. -/
theorem Separate.elsewhere {l : SegmentedLog} (h : r.Separate l base home den) {d : Disk}
    (ho : Outside base den d) : ∃ mem, SegmentedLog.Mirrors r.volume.disk home l mem ∧
      SegmentedLog.Mirrors d home l mem := by
  obtain ⟨mem, hmirrors⟩ := h.mirrors
  -- a segment is directly in the directory of the log, and that is not below the other
  have hsame (name : String) : d.item? (home ++ [name]) = r.volume.disk.item? (home ++ [name]) := by
    have hnot : ¬ Below den (home ++ [name]) := fun hbelow => by
      rcases eq_or_below_of_below_entry hbelow with heq | hbelow
      · exact h.ne heq.symm
      · exact h.not_below hbelow
    rw [ho.item? _ hnot, h.outside.item? _ hnot]
  exact ⟨mem, hmirrors, hmirrors.elsewhere ho.wellFormed (h.leads d ho) hsame⟩

/-- A node between two calls that keeps its log and its snapshots in directories of their own is
sheltered. -/
theorem Settled.sheltered {base : Disk} {pl : Storages.Places} {mem : MemoryLog}
    {latest : Option SnapshotMeta} (h : Settled base home den pl r mem latest)
    (hapart : Apart base home den pl.log pl.snapshots) (hcopies : r.snapshots.copies = []) :
    r.Sheltered := by
  rintro l hlog
  obtain ⟨l', hlog', hdir, hmirrors⟩ := h.hold.log
  obtain rfl : l' = l := LogStore.segmented.inj (hlog'.symm.trans hlog)
  have hnot : ¬ Below den home := hapart.symm.not_below_of_directory hapart.item?_home
  refine ⟨r.volume.disk.item?, home, den, ⟨mem, hmirrors⟩, hapart.ne, hnot, fun d ho => ?_, ?_,
    ⟨rfl, ?_⟩, .refl h.hold.stands.wellFormed⟩
  · exact hdir ▸ (h.kept.inSnapshots hapart ho).log
  · exact h.hold.directory ▸ h.kept.rooted_snapshots hapart
  · rw [hcopies]
    exact fun _ hc => absurd hc List.not_mem_nil

/-! ### What happens in the directory of the snapshots -/

/-- The action on a node changes nothing on disk outside of the directory of the snapshots. -/
abbrev Confined (base : Location → Option Item) (den : Location) (p : Path)
    (x : Act (Replica σ) α) : Prop :=
  Act.Ensures (fun r => r.snapshots.Inside base den p ∧ Outside base den r.volume.disk) x
    fun _ => True

theorem confined_onSnapshots {x : Act (Mounted SnapshotStore) α}
    (hx : SnapshotStore.Confined base den p x fun _ => True) :
    Confined base den p (onSnapshots (σ := σ) x) := fun r hr => hx ⟨r.snapshots, r.volume⟩ hr

theorem confined_tell (f : Snapshotter → Snapshotter) :
    Confined base den p (tell (σ := σ) f) := .modify fun _ h => h

theorem confined_theSnapshotter : Confined base den p (theSnapshotter (σ := σ)) :=
  fun _ hr => ⟨hr, fun _ _ => trivial⟩

/-- The end of a download does not touch the disk. -/
theorem confined_endDownload (d : Download) : Confined base den p (endDownload (σ := σ) d) := by
  refine .bind confined_theSnapshotter fun s _ => ?_
  split
  · refine .bind (.modify fun r hr => ⟨?_, hr.2⟩) fun _ _ => confined_tell _
    exact hr.1.modifyCopy d.copy fun _ => id
  · exact .pure trivial

section

variable (hp : Rooted base den p)

include hp

/-- What follows on a copy closes a reader at most. -/
theorem confined_afterCopy (d : Download) (joined : Except Error SnapshotReader) :
    Confined base den p (afterCopy (σ := σ) d joined) := by
  have hclose (reader : SnapshotReader) : Confined base den p
      (onSnapshots (σ := σ) (SnapshotStore.closeReader reader)) :=
    confined_onSnapshots (SnapshotStore.confined_closeReader hp reader)
  refine .bind confined_theSnapshotter fun s _ => ?_
  dsimp only
  split
  · cases joined with
    | ok reader => exact .bind (hclose reader) fun _ _ => .pure trivial
    | error e => exact .pure trivial
  · cases joined with
    | ok reader => exact .bind (confined_tell _) fun _ _ => .pure trivial
    | error e => exact .pure trivial

/-- A step of a job at a quiet stage. -/
theorem confined_advance (m : StateMachine σ) (ha : a.isQuiet = true) :
    Confined base den p (advance m a) := by
  -- one case for each quiet stage; what is done on the disk is done by the store of the snapshots
  cases a with
  | making last =>
    refine ensures_orElse (.bind (confined_onSnapshots ?_) fun _ _ => .pure trivial) fun _ => trivial
    exact (SnapshotStore.confined_create hp).mono fun _ _ => trivial
  | endingSave result => exact .bind (confined_tell _) fun _ _ => .pure trivial
  | copying d =>
    refine .bind (ensures_tried (confined_onSnapshots ?_)) fun joined _ => ?_
    · exact SnapshotStore.confined_joinCopy _
    · exact confined_afterCopy hp d joined
  | opened reader =>
    refine ensures_orElse (.bind (Q := fun _ => True) ?_ fun _ _ => .pure trivial) fun _ => trivial
    exact .ofExcept fun _ _ => trivial
  | endingLoad reader result =>
    refine .bind (confined_onSnapshots (SnapshotStore.confined_closeReader hp reader)) fun _ _ => ?_
    exact .bind (confined_tell _) fun _ _ => .pure trivial
  | endingDownload d result => exact .bind (confined_endDownload d) fun _ _ => .pure trivial
  | «over» result => exact .pure trivial
  | _ => nomatch ha

end

/-- Giving up a download does not touch the disk. -/
theorem confined_cancelDownload : Confined base den p (cancelDownload (σ := σ)) := by
  refine .bind confined_theSnapshotter fun s _ => ?_
  split
  · exact .pure trivial
  · split
    · exact .pure trivial
    · refine .bind (.modify fun r hr => ⟨?_, hr.2⟩) fun _ _ => confined_tell _
      exact hr.1.modifyCopy _ fun _ => id

/-- Starting one does not touch it yet. -/
theorem confined_startDownload (request : InstallRequest) :
    Confined base den p (startDownload (σ := σ) request) := by
  refine .bind (confined_onSnapshots (SnapshotStore.confined_startCopy _)) fun _ _ => ?_
  exact .bind confined_theSnapshotter fun _ _ => .bind (confined_tell _) fun _ _ => .pure trivial

/-- The action leaves alone what the node stands on, and on disk all but the snapshots. -/
structure Harmless (x : Act (Replica σ) α) : Prop where
  stands : Act.Keeps standing x
  confined : ∀ {base den p}, Rooted base den p → Confined base den p x

theorem Harmless.interrupt (term : Nat) : Harmless (interrupt (σ := σ) term) where
  stands := keeps_standing_of_holdings (keeps_holdings_interrupt term)
  confined _ := .bind (confined_tell _) fun _ _ => confined_cancelDownload

theorem Harmless.shutdown : Harmless (shutdown (σ := σ)) where
  stands := keeps_standing_of_holdings keeps_holdings_shutdown
  confined _ := .bind (confined_tell _) fun _ _ => confined_cancelDownload

theorem Harmless.requestSnapshot (m : StateMachine σ) : Harmless (requestSnapshot m) where
  stands := keeps_standing_of_holdings keeps_holdings_requestSnapshot
  confined _ := .of_preserves (preserves_requestSnapshot (fun _ h => h) fun _ _ h => h)

/-- A request to install a snapshot is harmless, whatever it is answered. -/
theorem Harmless.requestInstall (request : InstallRequest) :
    Harmless (requestInstall (σ := σ) request) where
  stands := keeps_standing_of_holdings (keeps_holdings_requestInstall request)
  confined _ := by
    refine .of_preserves (preserves_requestInstall ?_ confined_cancelDownload.preserves
      (confined_startDownload request).preserves fun _ _ h => h)
    refine .bind (fun _ h => h) fun s => .ite ?_ (.pure _)
    exact .bind (fun _ h => h) fun _ => confined_cancelDownload.preserves

/-- What is confined to the snapshots is harmless. -/
theorem Harmless.onSnapshots {x : Act (Mounted SnapshotStore) α}
    (hx : ∀ {base den p}, Rooted base den p → SnapshotStore.Confined base den p x fun _ => True) :
    Harmless (onSnapshots (σ := σ) x) where
  stands := keeps_standing_onSnapshots x
  confined hp := confined_onSnapshots (hx hp)

/-- A step at a quiet stage is harmless. -/
theorem Harmless.advance (m : StateMachine σ) (ha : a.isQuiet = true) :
    Harmless (advance m a) where
  stands := keeps_standing_advance m ha
  confined hp := confined_advance hp m ha

/-- What is harmless leaves alone what others rely on. -/
theorem Sheltered.runOn (h : r.Sheltered) {x : Act (Replica σ) α} (hx : Harmless x) :
    (x.runOn r).2.Sheltered ∧ (x.runOn r).2.reliedOn = r.reliedOn := by
  have hsame := hx.stands r
  simp only [standing, Prod.mk.injEq] at hsame
  obtain ⟨hmachine, hlog, hhistory, hlast, -⟩ := hsame
  refine ⟨fun l hl => ?_, ?_⟩
  · rw [hlog] at hl
    obtain ⟨base, home, den, hapart⟩ := h l hl
    obtain ⟨⟨hinside, houtside⟩, -⟩ := hx.confined hapart.rooted r ⟨hapart.inside, hapart.outside⟩
    obtain ⟨mem, -, hmirrors⟩ := hapart.elsewhere houtside
    refine ⟨base, home, den, ⟨mem, hmirrors⟩, hapart.ne, hapart.not_below, hapart.leads, ?_, ?_,
      houtside⟩
    · exact hinside.directory ▸ hapart.rooted
    · exact hinside.directory ▸ hinside
  · rw [reliedOn, reliedOn, hmachine, hlog, hhistory, hlast]
    -- what a log on disk shows is what it mirrors, and that has not changed
    have hview : r.log.view (x.runOn r).2.volume.disk = r.log.view r.volume.disk := by
      cases hstore : r.log with
      | memory l => rfl
      | segmented l =>
        obtain ⟨base, home, den, hapart⟩ := h l hstore
        obtain ⟨⟨-, houtside⟩, -⟩ :=
          hx.confined hapart.rooted r ⟨hapart.inside, hapart.outside⟩
        obtain ⟨mem, hbefore, hafter⟩ := hapart.elsewhere houtside
        have hview : (LogStore.segmented l).view _ = (LogStore.memory mem).view .empty :=
          hafter.view_eq
        exact hview.trans hbefore.view_eq.symm
    rw [hview]

/-! ### Moves -/

/-- A step of a copy. -/
def Move.copy (number granted : Nat) : Move σ :=
  .elsewhere fun r => ((onSnapshots (SnapshotStore.stepCopy number granted)).runOn r).2

/-- A copy finds that all slots are taken. -/
def Move.refuse (number : Nat) : Move σ :=
  .elsewhere fun r => { r with snapshots := r.snapshots.refuseCopy number }

/-- The move is a call, or something happens to a copy. -/
inductive Move.Aside : Move σ → Prop
  | requestSnapshot : Aside .requestSnapshot
  | requestInstall (request : InstallRequest) : Aside (.requestInstall request)
  | interrupt (term : Nat) : Aside (.interrupt term)
  | shutdown : Aside .shutdown
  | copy (number granted : Nat) : Aside (.copy number granted)
  | refuse (number : Nat) : Aside (.refuse number)

/-- **Calls and copies** leave alone what others rely on. -/
theorem Sheltered.after_aside (h : r.Sheltered) (m : StateMachine σ) {move : Move σ}
    (hmove : move.Aside) :
    (r.after m move).Sheltered ∧ (r.after m move).reliedOn = r.reliedOn := by
  -- one case for each move that is no step of a job
  cases hmove with
  | requestSnapshot => exact h.runOn (.requestSnapshot m)
  | requestInstall request => exact h.runOn (.requestInstall request)
  | interrupt term => exact h.runOn (.interrupt term)
  | shutdown => exact h.runOn .shutdown
  | copy number granted =>
    exact h.runOn (.onSnapshots fun hp => SnapshotStore.confined_stepCopy hp number granted)
  | refuse number =>
    have hrefuse {base den p} : SnapshotStore.Confined base den p
        (Mounted.update (SnapshotStore.refuseCopy number)) fun _ => True :=
      Mounted.confined_update fun s hs => hs.refuseCopy number
    exact h.runOn (.onSnapshots fun _ => hrefuse)

theorem Sheltered.afterAll_aside (h : r.Sheltered) (m : StateMachine σ) {moves : List (Move σ)}
    (hmoves : ∀ move ∈ moves, move.Aside) :
    (r.afterAll m moves).Sheltered ∧ (r.afterAll m moves).reliedOn = r.reliedOn := by
  induction moves generalizing r with
  | nil => exact ⟨h, rfl⟩
  | cons move moves ih =>
    obtain ⟨hstep, hrelied⟩ := h.after_aside m (hmoves move List.mem_cons_self)
    obtain ⟨hrun, hkept⟩ := ih hstep fun x hx => hmoves x (List.mem_cons_of_mem _ hx)
    exact ⟨hrun, hkept.trans hrelied⟩

/-- **The job** does so too, at a quiet stage. -/
theorem Sheltered.after_job (h : r.Sheltered) (m : StateMachine σ)
    (hquiet : (r.snapshotter.job n).isQuiet = true) :
    (r.after m (.job n)).Sheltered ∧ (r.after m (.job n)).reliedOn = r.reliedOn := by
  obtain ⟨b, r', hrun, -, hafter⟩ := Replica.after_job m r n
  have hkept := h.runOn (.advance m hquiet)
  rw [hrun] at hkept
  rw [hafter]
  exact ⟨hkept.1.knowing _, hkept.2⟩

end Replica
end RaftReplica
