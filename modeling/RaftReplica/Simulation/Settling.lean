/-
RaftReplica/Simulation/Settling.lean

How a world settles.  Copies and jobs go on, one step after the other, until each of them is over or
waits: for something that only comes from outside, a gate that is opened or a machine that is
released, or for the worker of the timers.

In each round the first copy that can go on makes a step, and a job only if no copy can.  This is one
of the many orders in which steps can follow one another; results about nodes and copies do not
depend on it, as they are shown for every order, and of this one only that it is made of such steps.

* `stepCopy?` asks for what a copy needs, a slot or bytes, and makes its step if it gets that.
* `stepJob?` makes the step of a job, unless its stage waits (`waits`).
* `step?` is one round, `run` is so many of them, and `settled` is more than any scene needs.
-/
import RaftReplica.Simulation.World

namespace RaftReplica.Simulation.World

/-! ### Copies -/

/-- One step of a copy that was granted so many bytes; at its end it gives its slot back. -/
def runCopy (store number granted : Nat) (w : World) : World :=
  let (_, w) := (onStore .snapshots store (SnapshotStore.stepCopy number granted)).runOn w
  let c := (w.item .snapshots store).copy number
  match c.throttle with
  | some n => if c.isOver then w.change .throttles n AnyThrottle.giveBack else w
  | none => w

/-- A step of a copy that needs a slot. -/
def seekSlot (store number throttle : Nat) (w : World) : Option World :=
  let t := w.item .throttles throttle
  if t.holdsTasks then none
  else
    match t.take? with
    | some t => some ((w.put .throttles throttle t).runCopy store number 0)
    -- all slots are taken: the copy does not wait for one
    | none => some (w.change .snapshots store (SnapshotStore.refuseCopy number))

/-- A step of a copy that asks for bytes; if it is granted none it waits and asks again. -/
def seekBytes (store number throttle : Nat) (w : World) : Option World :=
  let t := w.item .throttles throttle
  if t.isClosed then none
  else
    let (granted, t) := t.ask w.nanos Copy.pieceSize
    let w := w.put .throttles throttle t
    -- the time that throttles see goes on only here, so a wait for the next cycle ends
    if granted = 0 then some { w with nanos := w.nanos + t.interval }
    else some (w.runCopy store number granted)

/-- A step of a copy, if it can go on. -/
def stepCopy? (store number : Nat) (w : World) : Option World :=
  let c := (w.item .snapshots store).copy number
  if c.isOver then none
  else
    match c.need, c.throttle with
    | .slot, some n => w.seekSlot store number n
    | .bytes, some n => w.seekBytes store number n
    | _, _ => some (w.runCopy store number Copy.pieceSize)

/-! ### Jobs -/

/-- A job at this stage waits for something. -/
def waits (b : BlobMachine) (s : SnapshotStore) : JobStage → Bool
  | .saving .. => b.holdsSave
  | .loading .. => b.holdsLoad
  | .copying d => !(s.copy d.copy).isOver
  | .over _ => true
  | _ => false

/-- A step of a job, if it can go on and does not wait for the worker. -/
def stepJob? (executor number : Nat) (w : World) : Option World :=
  let e := w.item .executors executor
  if w.queue.contains (.job executor number) then none
  else if waits (w.item .machines e.machine) (w.item .snapshots e.snapshots)
      (e.snapshotter.job number) then none
  else
    let (_, w) := (onReplica executor (Replica.stepJob BlobMachine.machine number)).runOn w
    some w

/-! ### Settling -/

/-- All copies of all stores. -/
def allCopies (w : World) : List (Nat × Nat) :=
  (List.range w.snapshots.length).flatMap fun s =>
    (List.range (w.item .snapshots s).copies.length).map fun c => (s, c)

/-- All jobs of all nodes. -/
def allJobs (w : World) : List (Nat × Nat) :=
  (List.range w.executors.length).flatMap fun e =>
    (List.range (w.item .executors e).snapshotter.jobs.length).map fun j => (e, j)

/-- One step of the first copy or job that can go on. -/
def step? (w : World) : Option World :=
  (w.allCopies.findSome? fun p => w.stepCopy? p.1 p.2).or
    (w.allJobs.findSome? fun p => w.stepJob? p.1 p.2)

/-- So many steps, or fewer if nothing can go on any more. -/
def run : Nat → World → World
  | 0, w => w
  | fuel + 1, w =>
    match w.step? with
    | some w => run fuel w
    | none => w

/-- The world when nothing can go on any more. -/
def settled (w : World) : World := w.run 1000000

/-- An action, after which the world settles. -/
def thenSettle {α : Type} (x : Act World α) : Act World α := Act.ofStep fun w =>
  let (r, w) := x.runOn w
  (r, w.settled)

end RaftReplica.Simulation.World
