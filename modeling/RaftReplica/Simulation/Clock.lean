/-
RaftReplica/Simulation/Clock.lean

The clock of a world.  It stands still until it is set ahead; then the timers whose sleeps have ended
fire, those that are due earlier first.  One worker runs their callbacks in the order in which they
fired, and it also carries out the snapshots that they ask for; while it cannot end what it has
begun, the rest waits.

A timer itself is in `Timer.Basic` and knows of no clock: it is told the time when it is
called.  Here is what surrounds it.

* `TimerTask.adjust` and `TimerTask.hear` are what a task makes of the questions and the notices of
  its timer.
* `World.stepTimer` is one step of one timer, with its sleep put into the schedule of all.
* `World.fireAll` lets sleeps end, `World.work` lets the worker go on.
* `World.startSnapshots` makes the timer by which a node asks for snapshots.

A callback that is held keeps the worker busy, so that what happens to a timer while its callback
runs can be tried out.
-/
import RaftReplica.Simulation.Settling

namespace RaftReplica.Simulation

namespace TimerTask

/-- How the task adjusts the time to sleep; the first snapshot of a node comes at a random time. -/
def adjust (t : TimerTask) (asked : Nat) : Nat :=
  match t with
  | recorder (some given) _ _ false _ => given
  | recorder .. => asked
  -- only the first sleep is drawn, so nodes that start together do not save together
  | snapshots _ draw first => if first && 0 < asked then 1 + draw % asked else asked

/-- Notes an event down. -/
def note (event : String) (isRun : Bool) (t : TimerTask) : TimerTask :=
  match t with
  | recorder a h p plain events =>
    recorder a h p plain (if plain && !isRun then events else events ++ [event])
  | snapshots .. => t

/-- What a notice of the timer does to the task. -/
def hear (t : TimerTask) : Notice → TimerTask
  | .armed asked given =>
    match t with
    | snapshots e draw first => snapshots e draw (first && asked == 0)
    | t => t.note ("arm " ++ Numeral.text asked ++ "->" ++ Numeral.text given) false
  | .run => t.note "run" true
  | .destroyed => t.note "destroy" false

/-- The callback does not return until it is released. -/
def holds : TimerTask → Bool
  | recorder _ hold .. => hold
  | snapshots .. => false

/-- The callback breaks an assertion. -/
def panics : TimerTask → Bool
  | recorder _ _ panics .. => panics
  | snapshots .. => false

/-- Tells the task how to behave from now on; what is not told stays. -/
def planned (adjust : Option (Option Nat)) (hold panics : Option Bool) : TimerTask → TimerTask
  | recorder a h p plain events =>
    recorder (adjust.getD a) (hold.getD h) (panics.getD p) plain events
  | t => t

/-- The events since they were last taken; a node's timer notes none down. -/
def events? : TimerTask → Option (List String)
  | recorder _ _ _ _ events => some events
  | snapshots .. => none

/-- The task after its events were taken. -/
def cleared : TimerTask → TimerTask
  | recorder a h p plain _ => recorder a h p plain []
  | t => t

end TimerTask

namespace World

/-- One step of a timer, and what its task makes of the notices.  A sleep that begins is the last
one of the schedule. -/
def stepTimer (n : Nat) (event : TimerEvent) (w : World) : World × List Notice :=
  let t := w.item .timers n
  let (timer, notices) := t.timer.step t.task.adjust w.now event
  let w := w.put .timers n ⟨timer, notices.foldl TimerTask.hear t.task⟩
  -- a step begins one sleep at most
  let begun := (List.range timer.sleeps.length).drop t.timer.sleeps.length
  ({ w with schedule := w.schedule ++ begun.map fun k => ⟨n, k⟩ }, notices)

/-- The callback of a timer returns. -/
def endCallback (n : Nat) (w : World) : World :=
  let w := w.change .timers n fun t =>
    if t.task.panics then t else { t with task := t.task.note "end" false }
  (w.stepTimer n .leave).1

/-- What a callback does: that of a node's timer asks for a snapshot, which then waits for the
worker. -/
def runCallback (n : Nat) (w : World) : World :=
  match (w.item .timers n).task with
  | .snapshots e .. =>
    match (onReplica e (Replica.requestSnapshot BlobMachine.machine)).runOn w with
    | (.ok (.job number), w) => { w with queue := w.queue ++ [.job e number] }
    | (_, w) => w
  | .recorder .. => w

/-- The worker takes up what waited for it. -/
def takeUp (item : WorkItem) (w : World) : World :=
  match item with
  | .callback n =>
    let (w, notices) := w.stepTimer n .enter
    if notices.contains .run then
      let w := w.runCallback n
      if (w.item .timers n).task.holds then { w with busy := some item } else w.endCallback n
    else w
  | .job .. => { w.settled with busy := some item }

/-- The worker is free again if the job that it carried out is over. -/
def freed (w : World) : World :=
  match w.busy with
  | some (.job e number) =>
    if ((w.item .executors e).snapshotter.outcome? number).isSome then { w with busy := none }
    else w
  | _ => w

/-- When a scheduled sleep ends, if it still goes on. -/
def dueOf? (w : World) (s : ScheduledSleep) : Option Nat :=
  ((w.item .timers s.timer).timer.sleeps[s.number]?.filter (·.state = .pending)).map Sleep.due

/-- The sleeps that are over, those that were due earlier first, and of those that were due at once
the one that began earlier. -/
def overdue (w : World) : List ScheduledSleep :=
  let ended := w.schedule.filterMap fun s =>
    ((w.dueOf? s).filter (· ≤ w.now)).map fun due => (due, s)
  (ended.mergeSort fun a b => a.1 ≤ b.1).map (·.2)

/-- The timers whose sleeps are over fire, and their callbacks wait for the worker. -/
def fireAll (w : World) : World :=
  let ended := w.overdue
  let w := ended.foldl (fun w s => (w.stepTimer s.timer (.fire s.number)).1) w
  { w with
    queue := w.queue ++ ended.map fun s => .callback s.timer
    schedule := w.schedule.filter fun s => (w.dueOf? s).isSome }

/-- The worker goes on until nothing waits for it any more or it cannot end what it has begun. -/
def work : Nat → World → World
  | 0, w => w
  | fuel + 1, w =>
    -- time may have passed for a sleep while the worker was busy
    let w := w.fireAll.freed
    match w.busy, w.queue with
    | none, item :: rest => work fuel ({ w with queue := rest }.takeUp item)
    | _, _ => w

/-- Does all the work that can be done; a callback gives rise to one more item at most. -/
def worked (w : World) : World := w.work (2 * (w.queue.length + w.schedule.length) + 1)

/-- A call of a timer from outside. -/
def callTimer (n : Nat) (event : TimerEvent) (w : World) : World := (w.stepTimer n event).1.worked

/-- A timer that asks a node for snapshots is made and started, if they are due at all.  Its first
sleep is drawn: a draw of `0` is the shortest. -/
def startSnapshots (executor seconds draw : Nat) (canRun : Bool) : Act World (Option Nat) := do
  match ← Act.ofExcept (Timer.forSnapshots? seconds canRun) with
  | none => return none
  | some timer =>
    let (w, n) := (← get).add .timers ⟨timer, .snapshots executor draw true⟩
    set (w.callTimer n .start)
    return some n

/-- Sets the clock ahead: every timer whose sleep is over then fires once. -/
def advanceClock (ms : Nat) (w : World) : World := { w with now := w.now + ms }.worked

/-- Tells a timer's task how to behave; a callback that is no longer held returns. -/
def planTimer (n : Nat) (adjust : Option (Option Nat)) (hold panics : Option Bool) (w : World) :
    World :=
  let w := w.change .timers n fun t => { t with task := t.task.planned adjust hold panics }
  if w.busy = some (.callback n) ∧ !(w.item .timers n).task.holds then
    ({ w with busy := none }.endCallback n).worked
  else w

end World
end RaftReplica.Simulation
