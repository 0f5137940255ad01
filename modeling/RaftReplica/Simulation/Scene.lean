/-
RaftReplica/Simulation/Scene.lean

A scene: a world, and names for what is in it.  What several can share is named by its number in the
world, the rest by itself.  A thing that loses its name is let go: a reader no longer keeps its
snapshot, nor does a copy whose outcome nobody took, and a timer is destroyed.

Names are how a scene is talked to from outside, one command at a time.  Each command is an action on
the scene, after which the world settles and the worker goes on, so that between two commands
nothing moves by itself.

* `Scene.bind` gives a name and `Scene.unbind` takes it away; both let go of what had it.
* `Scene.keep` puts a later state of the same thing under its name, and lets go of nothing.
* `Scene.onWorld` runs an action and settles.
* `Scene.openStorages` opens all stores of a member and gives each a name of its own below the given
  one.

The projections of `Thing` tell what kind of thing a name stands for; a command that needs another
kind is refused by whoever reads the commands.
-/
import RaftReplica.Directory
import RaftReplica.Simulation.Clock

namespace RaftReplica.Simulation

/-- The opened stores of one member of a group, by their numbers. -/
structure Bundle where
  group : String
  log : Nat
  ballots : Nat
  history : Nat
  snaps : Option Nat

/-- What a name stands for. -/
inductive Thing
  | peers (s : PeerSet)
  | segment (s : Segment)
  | history (n : Nat)
  | log (n : Nat)
  | ballots (n : Nat) (deletes : Bool)
  | snaps (n : Nat) (shown : Bool)
  | writer (w : SnapshotWriter)
  | reader (store : Nat) (r : SnapshotReader)
  | copier (store copy : Nat)
  | throttle (n : Nat)
  | machine (n : Nat)
  | executor (n : Nat)
  | job (executor number : Nat)
  | backends (b : Backends)
  | bundle (b : Bundle)
  | timer (n : Nat)
  | directory (d : Directory)
  | node (n : HostedNode)

namespace Thing

def peers? : Thing → Option PeerSet
  | peers s => some s
  | _ => none

def segment? : Thing → Option Segment
  | segment s => some s
  | _ => none

def history? : Thing → Option Nat
  | history n => some n
  | _ => none

def log? : Thing → Option Nat
  | log n => some n
  | _ => none

def ballots? : Thing → Option (Nat × Bool)
  | ballots n deletes => some (n, deletes)
  | _ => none

def snaps? : Thing → Option (Nat × Bool)
  | snaps n shown => some (n, shown)
  | _ => none

def writer? : Thing → Option SnapshotWriter
  | writer w => some w
  | _ => none

def reader? : Thing → Option SnapshotReader
  | reader _ r => some r
  | _ => none

def copier? : Thing → Option (Nat × Nat)
  | copier store copy => some (store, copy)
  | _ => none

def throttle? : Thing → Option Nat
  | throttle n => some n
  | _ => none

def machine? : Thing → Option Nat
  | machine n => some n
  | _ => none

def executor? : Thing → Option Nat
  | executor n => some n
  | _ => none

def job? : Thing → Option (Nat × Nat)
  | job e number => some (e, number)
  | _ => none

def backends? : Thing → Option Backends
  | backends b => some b
  | _ => none

def bundle? : Thing → Option Bundle
  | bundle b => some b
  | _ => none

def timer? : Thing → Option Nat
  | timer n => some n
  | _ => none

def directory? : Thing → Option Directory
  | directory d => some d
  | _ => none

def node? : Thing → Option HostedNode
  | node n => some n
  | _ => none

end Thing

/-- A world and names, and what the nodes were named that were made so far: a node's mark is its
place among them. -/
structure Scene where
  world : World := {}
  names : List (String × Thing) := []
  nodes : List String := []

namespace Scene

/-- What a name stands for. -/
def find (s : Scene) (name : String) : Option Thing := s.names.lookup name

/-- An action on the world, which then settles, and the worker goes on. -/
def onWorld {α : Type} (x : Act World α) : Act Scene α :=
  (World.thenSettle x).zoom world fun s w => { s with world := w.worked }

/-- Changes the world. -/
def change (f : World → World) : Act Scene Unit := modify fun s => { s with world := f s.world }

/-- Puts something into the world and gives its number. -/
def add {σ : Type} (p : World.Part σ) (a : σ) : Act Scene Nat := do
  let (w, n) := (← get).world.add p a
  change fun _ => w
  return n

/-- Lets go of something that no name stands for any more. -/
def release : Thing → Act Scene Unit
  | .reader n r => onWorld (World.onStore .snapshots n (SnapshotStore.closeReader r))
  | .copier n copy => onWorld (World.onStore .snapshots n (SnapshotStore.disownCopy copy))
  | .timer n => change (World.callTimer n .destroy)
  | _ => pure ()

/-- Takes a name away. -/
def unbind (name : String) : Act Scene Unit := do
  let old := (← get).find name
  modify fun s => { s with names := s.names.filter (·.1 != name) }
  if let some t := old then release t

/-- Gives a name; what had it before loses it. -/
def bind (name : String) (t : Thing) : Act Scene Unit := do
  let old := (← get).find name
  modify fun s => { s with names := (name, t) :: s.names.filter (·.1 != name) }
  -- after the new thing has the name, since letting go may change the world
  if let some t := old then release t

/-- Lets a name stand for something else that is the same thing at a later time. -/
def keep (name : String) (t : Thing) (s : Scene) : Scene :=
  { s with names := s.names.map fun p => if p.1 == name then (p.1, t) else p }

/-- An action on a segment that a name stands for, and the world settles. -/
def onSegment {α : Type} (name : String) (s : Segment) (x : Act (Mounted Segment) α) :
    Act Scene α :=
  x.zoom (fun c => ⟨s, c.world.volume⟩) fun c m =>
    { c.keep name (.segment m.store) with
      world := ({ c.world with volume := m.volume } : World).settled.worked }

/-- Opens all stores of one member of a group; names below `name` stand for them. -/
def openStorages (name : String) (o : Options) (b : Backends) (group : String) :
    Act Scene Storages := do
  let throttle ← o.throttle.mapM fun t => add .throttles (.rate (.ofOptions t))
  let s ← onWorld (World.onVolume (Storages.openAll o b group throttle))
  let log ← add .logs s.log
  let ballots ← add .ballots s.ballots
  let history ← add .histories s.history
  let snaps ← s.snapshots.mapM (add .snapshots)
  bind name (.bundle { group := s.group, log, ballots, history, snaps })
  bind (name ++ ".log") (.log log)
  bind (name ++ ".cm") (.history history)
  bind (name ++ ".meta") (.ballots ballots false)
  if let some n := snaps then bind (name ++ ".snap") (.snaps n false)
  return s

/-- The stores of a bundle as they are now. -/
def storages (b : Bundle) (w : World) : Storages where
  group := b.group
  log := w.item .logs b.log
  ballots := w.item .ballots b.ballots
  history := w.item .histories b.history
  snapshots := b.snaps.map fun n => w.item .snapshots n

/-- A node over the stores of a bundle, which needs a store of snapshots. -/
def executorOver (machine : Nat) (b : Bundle) : Except Error Executor :=
  match b.snaps with
  | some snapshots => .ok { machine, snapshots, log := b.log, history := b.history }
  | none => .error (.invalidArgument .noSnapshotUri)

/-- Takes the names of all those stores away. -/
def closeStorages (name : String) : Act Scene Unit := do
  for suffix in ["", ".log", ".cm", ".meta", ".snap"] do unbind (name ++ suffix)

/-- A node that can be registered, with a mark of its own. -/
def makeNode (name : String) (id : NodeId) : Act Scene HostedNode := do
  let n : HostedNode := ⟨(← get).nodes.length, id⟩
  modify fun s => { s with nodes := s.nodes ++ [name] }
  bind name (.node n)
  return n

/-- What a node was named, even if the name stands for something else by now. -/
def nameOf (n : HostedNode) (s : Scene) : Option String := s.nodes[n.mark]?

/-- The named timers with their descriptions and events, and the events of those without a name. -/
def report (s : Scene) : List (String × String × Option (List String)) × List String :=
  let named := s.names.filterMap fun
    | (name, .timer n) => some (name, n)
    | _ => none
  -- a timer can outlive its name
  let unnamed := (List.range s.world.timers.length).filter fun n => !named.any (·.2 == n)
  (named.map fun p =>
      let t := s.world.item .timers p.2
      (p.1, t.timer.describe, t.task.events?),
    unnamed.flatMap fun n => ((s.world.item .timers n).task.events?).getD [])

/-- Forgets the events that were reported. -/
def reported (w : World) : World :=
  { w with timers := w.timers.map fun t => { t with task := t.task.cleared } }

end Scene
end RaftReplica.Simulation
