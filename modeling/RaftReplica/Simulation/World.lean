/-
RaftReplica/Simulation/World.lean

A world of nodes on one volume.  Stores, throttles and machines are known by their numbers, because
several nodes and whoever watches them may share one.  Everything is put into a world with `add`,
which gives its number, and nothing is ever taken out, so a number stays good.

Each kind of thing has a list, and a `Part` says how to read it and how to set it; `add`, `item`,
`put` and `change` are written once for all of them.  `item` gives some default where there is
nothing, so that actions need not ask whether a number is known.

* `onVolume`, `onStore` and `onReplica` take actions to the world.
* `onReplica` puts a node together from what it shares, runs the action, and puts every part back at
  its number.
-/
import RaftReplica.Replica.Jobs
import RaftReplica.Simulation.Gate
import RaftReplica.Simulation.Machine
import RaftReplica.Storages
import RaftReplica.Timer.Basic

namespace RaftReplica.Simulation

/-- A node: the numbers of what it shares, and what it knows about its snapshots. -/
structure Executor where
  machine : Nat
  snapshots : Nat
  log : Nat
  history : Nat
  snapshotter : Snapshotter := {}
  deriving Inhabited

/-- What a timer does when it fires: it notes down what happens to it, as it was told to behave, or
it asks a node for a snapshot. -/
inductive TimerTask
  | recorder (adjust : Option Nat) (hold panics plain : Bool) (events : List String)
  | snapshots (executor draw : Nat) (first : Bool)
  deriving Inhabited

/-- A timer and its task. -/
structure TaskTimer where
  timer : Timer
  task : TimerTask

instance : Inhabited TaskTimer := ⟨⟨{ timeout := 0 }, default⟩⟩

instance : Inhabited LogStore := ⟨.memory {}⟩

instance : Inhabited BallotStore := ⟨.memory {}⟩

instance : Inhabited SnapshotStore := ⟨{ directory := .ofText "", sync := false }⟩

/-- A sleep by the number of its timer and its own number there. -/
structure ScheduledSleep where
  timer : Nat
  number : Nat

/-- What the worker of the timers has to do: to run the callback of a timer, or to carry out a job
that a node began because its timer fired. -/
inductive WorkItem
  | callback (timer : Nat)
  | job (executor number : Nat)
  deriving DecidableEq

/-- All there is.  `nanos` is the time that throttles see; `now` is the time of the timers in
milliseconds, `schedule` are their sleeps in the order in which they began, `queue` is what waits
for the worker, and `busy` is what it has begun and cannot end yet. -/
structure World where
  volume : Volume := .ofDisk .empty
  histories : List MembershipHistory := []
  logs : List LogStore := []
  ballots : List BallotStore := []
  snapshots : List SnapshotStore := []
  throttles : List AnyThrottle := []
  machines : List BlobMachine := []
  executors : List Executor := []
  timers : List TaskTimer := []
  nanos : Nat := 0
  now : Nat := 0
  schedule : List ScheduledSleep := []
  queue : List WorkItem := []
  busy : Option WorkItem := none
  deriving Inhabited

namespace World

variable {σ α : Type}

/-- One list of a world: how to read it and how to set it. -/
structure Part (σ : Type) where
  read : World → List σ
  write : World → List σ → World

namespace Part

def histories : Part MembershipHistory := ⟨World.histories, fun w l => { w with histories := l }⟩
def logs : Part LogStore := ⟨World.logs, fun w l => { w with logs := l }⟩
def ballots : Part BallotStore := ⟨World.ballots, fun w l => { w with ballots := l }⟩
def snapshots : Part SnapshotStore := ⟨World.snapshots, fun w l => { w with snapshots := l }⟩
def throttles : Part AnyThrottle := ⟨World.throttles, fun w l => { w with throttles := l }⟩
def machines : Part BlobMachine := ⟨World.machines, fun w l => { w with machines := l }⟩
def executors : Part Executor := ⟨World.executors, fun w l => { w with executors := l }⟩
def timers : Part TaskTimer := ⟨World.timers, fun w l => { w with timers := l }⟩

end Part

/-- Puts something into the world; its number is the second half. -/
def add (p : Part σ) (a : σ) (w : World) : World × Nat :=
  (p.write w (p.read w ++ [a]), (p.read w).length)

/-- What has a given number. -/
def item [Inhabited σ] (p : Part σ) (n : Nat) (w : World) : σ := (p.read w)[n]?.getD default

/-- Puts something in the place of what has a given number. -/
def put (p : Part σ) (n : Nat) (a : σ) (w : World) : World := p.write w ((p.read w).set n a)

/-- Changes what has a given number. -/
def change (p : Part σ) (n : Nat) (f : σ → σ) (w : World) : World :=
  p.write w ((p.read w).modify n f)

/-- An action on the volume. -/
def onVolume (x : Act Volume α) : Act World α :=
  x.zoom volume fun w v => { w with volume := v }

/-- An action on a store with a given number. -/
def onStore [Inhabited σ] (p : Part σ) (n : Nat) (x : Act (Mounted σ) α) : Act World α :=
  x.zoom (fun w => ⟨w.item p n, w.volume⟩) fun w m => { w.put p n m.store with volume := m.volume }

/-- Opens a log and tells a history what is in it. -/
def openLog (log history : Nat) : Act World Unit := do
  let l := (← get).item .logs log
  let l ← onStore .histories history l.init
  modify (put .logs log l)

/-- An action of the node with a given number. -/
def onReplica (n : Nat) (x : Act (Replica BlobMachine) α) : Act World α :=
  x.zoom
    (fun w =>
      let e := w.item .executors n
      { volume := w.volume
        machine := w.item .machines e.machine
        snapshots := w.item .snapshots e.snapshots
        log := w.item .logs e.log
        history := w.item .histories e.history
        snapshotter := e.snapshotter })
    fun w r =>
      let e := w.item .executors n
      let w := { w with volume := r.volume }
      -- each part goes back to where it came from, also the ones that did not change
      let w := w.put .machines e.machine r.machine
      let w := w.put .snapshots e.snapshots r.snapshots
      let w := w.put .logs e.log r.log
      let w := w.put .histories e.history r.history
      w.put .executors n { e with snapshotter := r.snapshotter }

end World
end RaftReplica.Simulation
