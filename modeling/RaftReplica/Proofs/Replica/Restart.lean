/-
RaftReplica/Proofs/Replica/Restart.lean

A restart loses nothing.  A node is started over stores that are new, entries are appended and
snapshots are taken, in any order, and it is dropped and started again: it has the latest snapshot,
the log and the history of the membership that it had (`Replica.restart_loses_nothing`).

The history is rebuilt from two sides.  Below it is what the snapshot tells, as compaction left it;
above it is what the entries tell that are still in the log, whatever the files hold besides.
`Settled` ties both to the node at any time of a run.

* First start (`boots`).  The stores are empty, and so is the node.
* Runs (`Runs.settled`).  By induction over the run: appending, the machine's own work, and taking a
  snapshot each lead from a settled node to a settled one.
* Second start (`Settled.boots`).  The stores are opened again and hold what they did
  (`Storages.Fresh.reopened`).  The history hears of all memberships that the files tell, and
  adopting the snapshot drops those up to it, so that exactly those in the log are left.

The machine must be able to load what it saved, and that is all that is asked of it (`Loads`).  A
machine that keeps its state in one file does (`Settled.loads`).
-/
import RaftReplica.Proofs.Simulation.Machine

namespace RaftReplica

open Disk

namespace Replica

open SnapshotStore (reach openLatest)

variable {σ : Type}

/-! ### Starting a node -/

/-- A node over opened stores; it needs one for snapshots. -/
def ofStorages (x : σ) (s : Storages) (v : Volume) : Except Error (Replica σ) :=
  match s.snapshots with
  | some snapshots => .ok { volume := v, machine := x, snapshots, log := s.log, history := s.history }
  | none => .error (.invalidArgument .noSnapshotUri)

/-- Opens the stores on a disk and starts a node over them, with a machine in state `x`. -/
def boot (m : StateMachine σ) (o : Options) (b : Backends) (group : String) (throttle : Option Nat)
    (x : σ) (d : Disk) : Except Failure (Replica σ) := do
  let (opened, v) := (Storages.openAll o b group throttle).runOn (.ofDisk d)
  let r ← (ofStorages x (← opened) v).mapError Failure.error
  let (started, r) := (init m).runOn r
  started.map fun () => r

/-- A machine in state `y` loads the latest snapshot that the stores on the disk have, if there is
one, and leaves the stores alone. -/
def Loads (m : StateMachine σ) (o : Options) (b : Backends) (group : String) (throttle : Option Nat)
    (pl : Storages.Places) (y : σ) (d : Disk) : Prop :=
  ∀ s v snapshots reader s', (Storages.openAll o b group throttle).runOn (.ofDisk d) = (.ok s, v) →
    s.snapshots = some snapshots → openLatest.runOn ⟨snapshots, v⟩ = (.ok (some reader), s') →
    ∃ y' v', (m.load reader).runOn ⟨y, s'.volume⟩ = (.ok (), ⟨y', v'⟩) ∧
      pl.Spared (fun _ => False) s'.volume.disk v'.disk

variable {m : StateMachine σ} {o : Options} {b : Backends} {log : SegmentedLog}
  {ballots : BallotStore} {snapshots : SnapshotStore} {d base : Disk} {v : Volume}
  {home den : Location} {pl : Storages.Places} {r r' r₀ : Replica σ} {mem mem' : MemoryLog}
  {latest : Option SnapshotMeta} {info : SnapshotMeta} {group : String} {throttle : Option Nat}
  {x y : σ} {s : Storages}

/-- A node is started if its stores are opened and it is initialised over them. -/
theorem boot_ok (hopen : (Storages.openAll o b group throttle).runOn (.ofDisk d) = (.ok s, v))
    (hs : s.snapshots = some snapshots)
    (hinit : (init m).runOn { volume := v, machine := x, snapshots, log := s.log, history := s.history } =
      (.ok (), r)) : boot m o b group throttle x d = .ok r := by
  have hof : ofStorages x s v = .ok
      { volume := v, machine := x, snapshots, log := s.log, history := s.history } := by
    rw [ofStorages, hs]
  rw [boot, hopen]
  dsimp only
  show ((ofStorages x s v).mapError Failure.error >>= _) = _
  rw [hof]
  show Except.map _ ((init m).runOn _).1 = _
  rw [hinit]
  rfl

/-- Without a snapshot there is nothing to load. -/
theorem runOn_init_none (h : r.snapshots.Stands r.volume.disk den none) :
    (init m).runOn r = (.ok (), r) := by
  rw [init, onSnapshots, Act.runOn_bind, Act.runOn_zoom, h.runOn_openLatest_none]
  rfl

/-- **A node that starts over a snapshot** loads it, and its history starts there; the log is behind
it already. -/
theorem runOn_init_some (hold : Storages.Hold pl r.volume.disk home den r.log r.snapshots mem (some info))
    (hk : pl.Kept base home den r.volume.disk) (hapart : Apart base home den pl.log pl.snapshots)
    (hfirst : mem.first = info.lastIncluded.index + 1)
    (hmax : info.lastIncluded.index < Numeral.max64) (hfloor : r.history.floor = .initial)
    (hload : ∀ reader s', openLatest.runOn ⟨r.snapshots, r.volume⟩ = (.ok (some reader), s') →
      ∃ y' v', (m.load reader).runOn ⟨r.machine, s'.volume⟩ = (.ok (), ⟨y', v'⟩) ∧
        pl.Spared (fun _ => False) s'.volume.disk v'.disk) : ∃ y' l' v',
    (init m).runOn r = (.ok (), { r with
      volume := v'
      machine := y'
      log := .segmented l'
      history := ⟨r.history.entries.dropWhile (·.index ≤ info.lastIncluded.index), info.membership⟩
      snapshotter := { r.snapshotter with last := info.lastIncluded } }) ∧
    pl.Kept base home den v'.disk ∧
    Storages.Hold pl v'.disk home den (.segmented l') r.snapshots mem (some info) := by
  obtain ⟨reader, held, hopen, hinfo, -, -, -, hclose⟩ := hold.stands.runOn_openLatest
  obtain ⟨y', v', hloaded, hspared⟩ := hload reader _ hopen
  have hk' := hk.spared hspared
  have hold' := hold.elsewhere hapart hk' (fun m hm => (hspared.log _ hk.log).2 m hm id)
    fun m hm => (hspared.snapshots _ hk.snapshots).2 m hm id
  obtain ⟨l, hlog, hdir, hmirrors⟩ := hold'.log
  -- the log starts behind the snapshot, so it has no entry there
  have hterm : l.term info.lastIncluded.index = .ok 0 := by
    have hterm := hold'.term_eq info.lastIncluded.index
    rw [hlog, MemoryLog.get, if_neg (by omega)] at hterm
    exact hterm
  -- the floor is where it starts, below everything
  have hstart : ¬ info.lastIncluded < r.history.floor.id := by
    rw [hfloor, LogId.lt_iff]
    show ¬ (_ < 0 ∨ _ ∧ _ < 0)
    omega
  let r₁ : Replica σ := { r with snapshots := held, volume := v', machine := y' }
  obtain ⟨l', v'', hcompact, hdir', hmirrors', houtside⟩ := runOn_compact (r := r₁) hlog hmirrors
    (hdir ▸ hk'.rooted_log hapart) hterm (.inl rfl) hmax hstart
  rw [MemoryLog.truncateBefore, if_pos (by omega)] at hmirrors'
  refine ⟨y', l', v'', ?_, hk'.inLog hapart houtside,
    hold'.withLog hapart hk' houtside (hdir'.trans hdir) hmirrors'⟩
  have hopen' : (onSnapshots openLatest).runOn r =
      (.ok (some reader), { r with snapshots := held }) := by
    rw [onSnapshots, Act.runOn_zoom, hopen]
  have hmachine : (onMachine (m.load reader)).runOn { r with snapshots := held } = (.ok (), r₁) := by
    rw [onMachine, Act.runOn_zoom, hloaded]
  have hadopt : (adopt m reader).runOn { r with snapshots := held } = (.ok (), { r₁ with
      volume := v''
      log := .segmented l'
      history := ⟨r.history.entries.dropWhile (·.index ≤ info.lastIncluded.index), info.membership⟩
      snapshotter := { r.snapshotter with last := info.lastIncluded } }) := by
    rw [adopt, Act.runOn_bind_ok (Act.runOn_ofExcept_ok hinfo _), Act.runOn_bind_ok hmachine,
      Act.runOn_bind_ok hcompact]
    rfl
  rw [init, Act.runOn_bind_ok hopen']
  dsimp only
  rw [Act.runOn_bind_ok (Act.runOn_attempt _ _), hadopt, onSnapshots, Act.runOn_bind,
    Act.runOn_zoom]
  dsimp only [r₁]
  rw [hclose]
  rfl

/-! ### Runs -/

/-- The states that a node gets into from `r₀` on: entries are appended, the machine works and leaves
the stores alone, and snapshots are taken. -/
inductive Runs (m : StateMachine σ) (pl : Storages.Places) (r₀ : Replica σ) : Replica σ → Prop
  | start : Runs m pl r₀ r₀
  | entered {r : Replica σ} {es : List Entry} (h : Runs m pl r₀ r) (hes : ∀ e ∈ es, e.Proper) :
      Runs m pl r₀ ((enter es).runOn r).2
  | worked {r : Replica σ} (h : Runs m pl r₀ r) (x : σ) {v : Volume}
      (hs : pl.Spared (fun _ => False) r.volume.disk v.disk) :
      Runs m pl r₀ { r with machine := x, volume := v }
  | snapshot {r : Replica σ} (h : Runs m pl r₀ r)
      (hsave : r.snapshotter.last.index < (m.applied r.machine).index → Saves m pl r) :
      Runs m pl r₀ ((takeSnapshot m).runOn r).2

/-- **Whatever happens to a node**, it has settled. -/
theorem Runs.settled (h : Runs m pl r₀ r) (hapart : Apart base home den pl.log pl.snapshots)
    (h₀ : Settled base home den pl r₀ mem latest) :
    ∃ mem' latest', Settled base home den pl r mem' latest' := by
  -- by induction over the run, with one case for each of the things that may happen
  induction h with
  | start => exact ⟨mem, latest, h₀⟩
  | entered _ hes ih =>
    obtain ⟨mem', latest', ih⟩ := ih
    obtain ⟨mem'', hsettled⟩ := ih.enter hapart hes
    exact ⟨mem'', latest', hsettled⟩
  | worked _ x hs ih =>
    obtain ⟨mem', latest', ih⟩ := ih
    exact ⟨mem', latest', ih.work hapart x hs⟩
  | snapshot _ hsave ih =>
    obtain ⟨mem', latest', ih⟩ := ih
    exact ih.takeSnapshot hapart hsave

section

variable (hfresh : Storages.Fresh o b d log ballots snapshots v)
  (hapart : Apart v.disk home den log.directory snapshots.directory)

include hfresh hapart

/-- A node is started over new stores. -/
theorem boots (m : StateMachine σ) (group : String) (throttle : Option Nat) (x : σ) :
    ∃ r₀, boot m o b group throttle x d = .ok r₀ ∧
      Settled v.disk home den (Storages.places log ballots snapshots) r₀ {} none := by
  obtain ⟨s, store, hopen, hs, hold, hhistory⟩ := hfresh.opened hapart group throttle
  refine ⟨{ volume := v, machine := x, snapshots := store, log := s.log, history := s.history },
    boot_ok hopen hs (runOn_init_none hold.stands), .refl hapart hfresh.wellFormed_prepared, hold, rfl,
    by decide, fun e he => absurd he List.not_mem_nil, ?_, rfl⟩
  exact hhistory

/-- **A node is started again** where it was. -/
theorem Settled.boots
    (h : Settled v.disk home den (Storages.places log ballots snapshots) r mem latest)
    (hload : Loads m o b group throttle (Storages.places log ballots snapshots) y r.volume.disk) :
    ∃ r', boot m o b group throttle y r.volume.disk = .ok r' ∧
      Settled v.disk home den (Storages.places log ballots snapshots) r' mem latest := by
  obtain ⟨s, store, w, hopen, hs, hold, htells, houtside⟩ :=
    hfresh.reopened hapart group throttle (w := .ofDisk r.volume.disk) h.kept h.hold
  have hk := h.kept.inLog hapart houtside
  have hindex := h.first
  -- of the memberships that were found those in the log are above the snapshot
  have habove : s.history.entries.dropWhile (·.index ≤ (reach latest).index) =
      Segment.memberships mem.entries := by
    rw [htells.ascending.dropWhile_eq, ← hindex]
    exact htells.above
  -- without a snapshot the history is what the files tell; with one it is cut at the snapshot
  cases latest with
  | none =>
    refine ⟨_, boot_ok hopen hs (runOn_init_none hold.stands), hk, hold, h.first, h.bounded, h.proper,
      ?_, rfl⟩
    have hall : s.history.entries.filter (1 ≤ ·.index) = s.history.entries :=
      List.filter_eq_self.2 fun e he => decide_eq_true (htells.positive e he)
    rw [← habove, htells.ascending.dropWhile_eq]
    show s.history = ⟨s.history.entries.filter (1 ≤ ·.index), .initial⟩
    rw [hall, ← htells.floor]
  | some info =>
    obtain ⟨y', l', v', hinit, hk', hold'⟩ := runOn_init_some (m := m)
      (r := { volume := w, machine := y, snapshots := store, log := s.log, history := s.history })
      hold hk hapart h.first h.bounded htells.floor fun reader s' => hload s w store reader s' hopen hs
    refine ⟨_, boot_ok hopen hs hinit, hk', hold', h.first, h.bounded, h.proper, ?_, rfl⟩
    exact congrArg (MembershipHistory.mk · info.membership) habove

end

/-- **A restart loses nothing.**  A node is started over stores in new directories, and entries are
appended and snapshots taken in any order.  If it is then started again, with a machine in any state
that can load the latest snapshot, it has the same latest snapshot, the same log and the same members
as of every index. -/
theorem restart_loses_nothing (hfresh : Storages.Fresh o b d log ballots snapshots v)
    (m : StateMachine σ) (group : String) (throttle : Option Nat) (x : σ) :
    (∃ r₀, boot m o b group throttle x d = .ok r₀) ∧
      ∀ r₀ r y, boot m o b group throttle x d = .ok r₀ →
        Runs m (Storages.places log ballots snapshots) r₀ r →
        Loads m o b group throttle (Storages.places log ballots snapshots) y r.volume.disk →
        ∃ r', boot m o b group throttle y r.volume.disk = .ok r' ∧
          r'.snapshotter.last = r.snapshotter.last ∧
          r'.log.view r'.volume.disk = r.log.view r.volume.disk ∧
          ∀ i, r'.history.get i = r.history.get i := by
  obtain ⟨home, den, hapart⟩ := hfresh.exists_apart
  obtain ⟨r₁, hboot, hsettled⟩ := boots hfresh hapart m group throttle x
  refine ⟨⟨r₁, hboot⟩, fun r₀ r y hboot' hruns hload => ?_⟩
  obtain rfl : r₁ = r₀ := Except.ok.inj (hboot.symm.trans hboot')
  obtain ⟨mem, latest, h⟩ := hruns.settled hapart hsettled
  obtain ⟨r', hagain, h'⟩ := h.boots hfresh hapart hload
  obtain ⟨hlast, hview, hhistory⟩ := h.same h'
  exact ⟨r', hagain, hlast, hview, fun i => by rw [hhistory]⟩

/-! ### A restart after a snapshot -/

open Simulation (BlobMachine)

/-- A peer that is told from others by its port. -/
def peerOn (port : UInt16) : Peer := { ip := .v4 127 0 0 1, port, idx := 0 }

/-- A membership and an entry of data, which the snapshot covers. -/
def early : List Entry := [.ofPeers 1 1 [peerOn 1, peerOn 2] none, .ofData 1 2 [7]]

/-- What comes behind the snapshot, with a change of the membership. -/
def late : List Entry := [.noOp 2 3, .ofPeers 2 4 [peerOn 1] (some [peerOn 1, peerOn 2])]

/-- The machine is ahead of the latest snapshot. -/
def ahead (r : Replica BlobMachine) : Replica BlobMachine :=
  { ((enter early).runOn r).2 with machine := { applied := ⟨1, 2⟩, state := [7] } }

/-- A snapshot is taken of the first entries, which stay in the file of the log, and then more are
appended. -/
def eventful (r : Replica BlobMachine) : Replica BlobMachine :=
  ((enter late).runOn ((takeSnapshot BlobMachine.machine).runOn (ahead r)).2).2

/-- The stores of a member with everything below one directory. -/
def dataLog : SegmentedLog := { directory := .ofText "data/log" }

/-- The ballots that the settings below `data` name. -/
def dataBallots : BallotStore := .single { directory := .ofText "data/raft_meta", sync := true }

/-- The snapshots that the settings below `data` name. -/
def dataSnapshots : SnapshotStore := { directory := .ofText "data/snapshot", sync := true }

/-- The volume with their directories. -/
def dataVolume : Volume :=
  ((Storages.prepare dataLog dataBallots dataSnapshots).runOn (.ofDisk .empty)).2

/-- The settings below `data` name stores that are new on an empty disk. -/
theorem fresh_data :
    Storages.Fresh (.below "data") .usual .empty dataLog dataBallots dataSnapshots dataVolume := by
  let opened : BallotStore := .single
    { directory := .ofText "data/raft_meta", sync := true, current := some .initial }
  have hread : BallotStore.init.runOn ⟨dataBallots, dataVolume⟩ = (.ok (), ⟨opened, dataVolume⟩) := by
    have hparts : let run := BallotStore.init.runOn ⟨dataBallots, dataVolume⟩
        run.1 = .ok () ∧ run.2.store = opened ∧ run.2.volume.disk = dataVolume.disk ∧
          run.2.volume.journal = dataVolume.journal := by decide +kernel
    generalize dataVolume = v at hparts ⊢
    dsimp only at hparts
    rcases hrun : BallotStore.init.runOn ⟨dataBallots, v⟩ with ⟨result, ⟨store, disk, journal⟩⟩
    rw [hrun] at hparts
    obtain ⟨rfl, rfl, rfl, rfl⟩ := hparts
    rfl
  exact {
    makeLog := by decide +kernel
    makeBallots := by decide +kernel
    makeSnapshots := ⟨"local://data/snapshot?sync=true", by decide +kernel, rfl⟩
    wellFormed := wellFormed_empty
    prepared := ⟨opened, Prod.ext (by decide +kernel) (by rw [dataVolume])⟩
    readable := ⟨opened, hread⟩
    logEmpty := by decide +kernel
    snapshotsEmpty := by decide +kernel
    apart := by decide +kernel }

/-- The machine takes the state of the latest snapshot, if its file is there. -/
theorem Settled.loads {bs : Bytes} {r : Replica BlobMachine}
    (hfresh : Storages.Fresh o b d log ballots snapshots v)
    (hapart : Apart v.disk home den log.directory snapshots.directory)
    (h : Settled v.disk home den (Storages.places log ballots snapshots) r mem latest)
    (hfile : r.volume.disk.read ((r.snapshots.place r.snapshots.last).entry BlobMachine.fileName) =
      .ok bs) :
    Loads BlobMachine.machine o b group throttle (Storages.places log ballots snapshots) {}
      r.volume.disk := by
  intro s w store reader s' hopen hs hlatest
  obtain ⟨x, store', w', hopen', hs', hold, -, houtside⟩ :=
    hfresh.reopened hapart group throttle (w := .ofDisk r.volume.disk) h.kept h.hold
  obtain ⟨hx, rfl⟩ := Prod.mk.inj (hopen.symm.trans hopen')
  obtain rfl := Except.ok.inj hx
  obtain rfl := Option.some.inj (hs.symm.trans hs')
  cases latest with
  | none =>
    rw [hold.stands.runOn_openLatest_none] at hlatest
    exact absurd hlatest (by simp)
  | some info =>
    obtain ⟨reader', held, hopened, hinfo, -, hdir, -⟩ := hold.stands.runOn_openLatest
    obtain ⟨hreader, rfl⟩ := Prod.mk.inj (hlatest.symm.trans hopened)
    obtain rfl := Option.some.inj (Except.ok.inj hreader)
    -- the snapshots are apart from the log, which is all that changes when the stores are opened
    have hread : w.disk.read (reader.directory.entry BlobMachine.fileName) = .ok bs := by
      have hplain := SnapshotName.plain_published info.lastIncluded.index
      rw [SnapshotStore.place, h.hold.stands.last_eq rfl, read_entry (directoryAt_entry
        h.hold.stands.leads hplain (h.hold.stands.kept info rfl).directory)
        BlobMachine.plain_fileName] at hfile
      rw [hdir, SnapshotStore.place, hold.stands.last_eq rfl, read_entry (directoryAt_entry
        hold.stands.leads hplain (hold.stands.kept info rfl).directory) BlobMachine.plain_fileName,
        hapart.item?_eq houtside ((below_entry _).trans_isPrefix (List.prefix_append _ _))]
      exact hfile
    exact ⟨_, w, BlobMachine.runOn_load rfl rfl hread hinfo, .refl _ _ _⟩

/-- The entries of the first batch can be stored. -/
theorem proper_early : ∀ e ∈ early, e.Proper := by
  have hpeers : ∀ p ∈ [peerOn 1, peerOn 2], p.ip.IsV4 := by decide
  intro e he
  rcases List.mem_pair.1 he with rfl | rfl
  · exact ⟨by decide, by decide, fun ps hps => Option.some.inj hps ▸ hpeers, nofun⟩
  · exact ⟨by decide, by decide, nofun, nofun⟩

/-- The entries of the second batch can be stored. -/
theorem proper_late : ∀ e ∈ late, e.Proper := by
  have hpeers : ∀ p ∈ [peerOn 1], p.ip.IsV4 := by decide
  have hformer : ∀ p ∈ [peerOn 1, peerOn 2], p.ip.IsV4 := by decide
  intro e he
  rcases List.mem_pair.1 he with rfl | rfl
  · exact ⟨by decide, by decide, nofun, nofun⟩
  · exact ⟨by decide, by decide, fun ps hps => Option.some.inj hps ▸ hpeers,
      fun ps hps => Option.some.inj hps ▸ hformer⟩

section

variable {r₀ : Replica BlobMachine}
  (hboot : boot BlobMachine.machine (.below "data") .usual "group" none {} .empty = .ok r₀)

include hboot

/-- What is in the file of the latest snapshot after the run, and what is seen of the node. -/
theorem seen_eventful : let r := eventful r₀
    r.volume.disk.read ((r.snapshots.place r.snapshots.last).entry BlobMachine.fileName) = .ok [7] ∧
      r.snapshotter.last = ⟨1, 2⟩ ∧ r.log.first = 3 ∧ r.log.last = 4 ∧
      (r.history.get 3).peers.peers = [peerOn 1, peerOn 2] ∧
      (r.history.get 4).peers.peers = [peerOn 1] := by
  have hmap : (boot BlobMachine.machine (.below "data") .usual "group" none {} .empty).toOption.map
      (fun r₀ =>
        let r := eventful r₀
        ((r.volume.disk.read ((r.snapshots.place r.snapshots.last).entry
            BlobMachine.fileName)).toOption,
          (r.snapshotter.last, r.log.first, r.log.last), (r.history.get 3).peers.peers,
          (r.history.get 4).peers.peers)) =
      some (some [7], (⟨1, 2⟩, 3, 4), [peerOn 1, peerOn 2], [peerOn 1]) := by decide +kernel
  rw [hboot] at hmap
  have hseen := Option.some.inj hmap
  simp only [Prod.mk.injEq] at hseen
  obtain ⟨hfile, ⟨hlast, hfirst, hend⟩, hbefore, hafter⟩ := hseen
  refine ⟨?_, hlast, hfirst, hend, hbefore, hafter⟩
  rcases hread : (eventful r₀).volume.disk.read _ with e | bs
  · rw [hread] at hfile
    exact absurd hfile (by simp [Except.toOption])
  · rw [hread] at hfile
    exact congrArg Except.ok (Option.some.inj hfile)

/-- The history of the example is a run. -/
theorem runs_eventful : Runs BlobMachine.machine
    (Storages.places dataLog dataBallots dataSnapshots) r₀ (eventful r₀) := by
  obtain ⟨home, den, hapart⟩ := fresh_data.exists_apart
  obtain ⟨r₁, hboot₁, hsettled⟩ := boots fresh_data hapart BlobMachine.machine "group" none {}
  obtain rfl : r₁ = r₀ := Except.ok.inj (hboot₁.symm.trans hboot)
  obtain ⟨mem, hentered⟩ := hsettled.enter hapart proper_early
  have hahead := hentered.work hapart { applied := ⟨1, 2⟩, state := [7] } (.refl _ _ _)
  have hballots : ∀ x ∈ dataBallots.record?, ∃ l, dataVolume.disk.directoryAt x.1 = .ok l := by
    rintro x ⟨⟩
    exact ⟨["data", "raft_meta"], by decide +kernel⟩
  have hget : (boot BlobMachine.machine (.below "data") .usual "group" none {} .empty).toOption.map
      (fun r => (ahead r).log.get 2 (ahead r).volume.disk) =
        some (.ok (some (.ofData 1 2 [7]))) := by decide +kernel
  rw [hboot] at hget
  simp only [Except.toOption, Option.map_some, Option.some.injEq] at hget
  have hindex : 2 < Numeral.max64 := by decide
  have hsaves : Saves BlobMachine.machine (Storages.places dataLog dataBallots dataSnapshots)
      (ahead r₁) := BlobMachine.saves hahead hapart hballots rfl rfl hindex ⟨_, hget, rfl⟩
  have hbegun : Runs BlobMachine.machine (Storages.places dataLog dataBallots dataSnapshots) r₁
      (ahead r₁) := .worked (.entered .start proper_early) _ (.refl _ _ _)
  exact .entered (.snapshot hbegun fun _ => hsaves) proper_late

/-- The machine of the example loads the file that it saved. -/
theorem loads_eventful : Loads BlobMachine.machine (.below "data") .usual "group" none
    (Storages.places dataLog dataBallots dataSnapshots) {} (eventful r₀).volume.disk := by
  obtain ⟨home, den, hapart⟩ := fresh_data.exists_apart
  obtain ⟨r₁, hboot₁, hsettled⟩ := boots fresh_data hapart BlobMachine.machine "group" none {}
  obtain rfl : r₁ = r₀ := Except.ok.inj (hboot₁.symm.trans hboot)
  obtain ⟨mem, latest, h⟩ := (runs_eventful hboot).settled hapart hsettled
  exact h.loads fresh_data hapart (seen_eventful hboot).1

end

/-- A node that took a snapshot between two batches of entries, started again: the two entries
behind the snapshot are there, and the members of both sides are told. -/
theorem restart_loses_nothing_eventful :
    let boot := boot BlobMachine.machine (.below "data") .usual "group" none {}
    ∃ r₀ r', boot .empty = .ok r₀ ∧ boot (eventful r₀).volume.disk = .ok r' ∧
      r'.snapshotter.last = ⟨1, 2⟩ ∧ r'.log.first = 3 ∧ r'.log.last = 4 ∧
      r'.log.view r'.volume.disk = (eventful r₀).log.view (eventful r₀).volume.disk ∧
      (r'.history.get 3).peers.peers = [peerOn 1, peerOn 2] ∧
      (r'.history.get 4).peers.peers = [peerOn 1] := by
  intro boot
  let places := Storages.places dataLog dataBallots dataSnapshots
  obtain ⟨⟨r₀, hboot⟩, hrestart⟩ :=
    restart_loses_nothing fresh_data BlobMachine.machine "group" none {}
  have hruns : Runs BlobMachine.machine places r₀ (eventful r₀) := runs_eventful hboot
  have hload : Loads BlobMachine.machine (.below "data") .usual "group" none places {}
      (eventful r₀).volume.disk := loads_eventful hboot
  obtain ⟨r', hagain, hlast', hview, hget⟩ := hrestart r₀ (eventful r₀) {} hboot hruns hload
  obtain ⟨-, hlast, hfirst, hend, hbefore, hafter⟩ := seen_eventful hboot
  obtain ⟨hfirst', hend', -⟩ := LogStore.View.mk.inj hview
  exact ⟨r₀, r', hboot, hagain, by rw [hlast', hlast], by rw [hfirst', hfirst], by rw [hend', hend],
    hview, by rw [hget, hbefore], by rw [hget, hafter]⟩

end Replica
end RaftReplica
