/-
RaftReplica/Timer/Basic.lean

Repeating timers.  A timer that was started sleeps for its timeout, then its callback is dispatched
and runs on a worker, and when it returns the timer sleeps again.  Stopping a timer cancels its
sleep; if the sleep is over already, the callback still has the last word: it sees that the timer
was stopped and ends there.  A destroyed timer is stopped for good and says so once, but never while
its callback runs.

Each function is one step that happens as a whole.  A step also gives notices of what it did, in
their order.

The state separates what callers want from what is under way.  `stopped` is changed by calls alone;
`running` says that a sleep or a callback is still to be ended, and it is the one that ends it who
clears it.  A timer that is stopped and started again while its callback is under way is running all
the time, and so no second sleep begins beside the first.

* `start`, `stop`, `rearm` and `destroy` are calls from outside.
* `fire`, `enter` and `leave` are the ends of a sleep, and the beginning and the end of a callback.
* `step` is any of them; what holds over every history of steps is in `Proofs.Timer.Lifecycle`.
-/
import RaftReplica.Error

namespace RaftReplica

/-- Whether a sleep is still going on, has ended, or was cancelled. -/
inductive SleepState
  | pending
  | fired
  | cancelled
  deriving DecidableEq, Repr

/-- A sleep of a timer; it ends at `due`. -/
structure Sleep where
  state : SleepState
  due : Nat
  deriving DecidableEq, Repr

/-- What a timer tells its task: it asked for the time to sleep and got an answer, its callback
begins, or it is destroyed. -/
inductive Notice
  | armed (asked given : Nat)
  | run
  | destroyed
  deriving DecidableEq, Repr

/-- A timer.  `current` is the number of the sleep that can still be cancelled; callbacks that were
dispatched, and those that are executing, are counted. -/
structure Timer where
  timeout : Nat
  stopped : Bool := true
  running : Bool := false
  destroyed : Bool := false
  invoking : Bool := false
  current : Option Nat := none
  sleeps : List Sleep := []
  dispatched : Nat := 0
  executing : Nat := 0
  deriving DecidableEq, Repr

/-- What can happen to a timer: it is called from outside, a sleep ends, a worker takes up a
dispatched callback, or the callback returns. -/
inductive TimerEvent
  | start
  | stop
  | reset
  | resetWith (timeout : Nat)
  | destroy
  | fire (sleep : Nat)
  | enter
  | leave
  deriving DecidableEq, Repr

namespace Timer

/-- The state of a timer after a step, and the notices it gave. -/
abbrev Step : Type := Timer × List Notice

/-- A timer is made only where something runs its callbacks. -/
def make (timeout : Nat) (canRun : Bool) : Except Error Timer :=
  if canRun then .ok { timeout } else .error (.invalidArgument .timerOutside)

/-- The timer for snapshots that are due every so many seconds; there is none if that is zero. -/
def forSnapshots? (seconds : Nat) (canRun : Bool) : Except Error (Option Timer) :=
  if seconds = 0 then .ok none
  else if canRun then .ok (some { timeout := seconds * 1000 })
  else .error (.invalidArgument .snapshotTimerOutside)

/-- Begins a sleep; the task may adjust how long it is. -/
def arm (adjust : Nat → Nat) (now : Nat) (t : Timer) : Step :=
  let given := adjust t.timeout
  ({ t with
      current := some t.sleeps.length
      sleeps := t.sleeps ++ [⟨.pending, now + given⟩] }, [.armed t.timeout given])

/-- The sleep that can still be cancelled, if it has not ended. -/
def pending? (t : Timer) : Option Nat :=
  t.current.filter fun n => t.sleeps[n]?.any (·.state = .pending)

/-- Sets the state of a sleep. -/
def setSleep (n : Nat) (state : SleepState) (t : Timer) : Timer :=
  { t with sleeps := t.sleeps.modify n fun s => { s with state } }

/-- Forgets the current sleep, and cancels it unless it has ended. -/
def giveUp (t : Timer) : Timer :=
  match t.pending? with
  | some n => { t.setSleep n .cancelled with current := none }
  | none => { t with current := none }

/-! ### Calls -/

/-- Starts the timer; one whose callback is still under way sleeps when that returns. -/
def start (adjust : Nat → Nat) (now : Nat) (t : Timer) : Step :=
  if t.destroyed || !t.stopped then (t, [])
  -- the callback that is under way sleeps when it returns
  else if t.running then ({ t with stopped := false }, [])
  else { t with stopped := false, running := true }.arm adjust now

/-- Stops the timer, at once unless its sleep has ended. -/
def stop (t : Timer) : Step :=
  if t.stopped then (t, [])
  else
    -- a sleep that has ended is on its way to the worker and has to end there
    ({ t.giveUp with stopped := true, running := t.running && t.pending?.isNone }, [])

/-- Begins the sleep again, if there is one to begin again. -/
def rearm (adjust : Nat → Nat) (now : Nat) (t : Timer) : Step :=
  if t.stopped then (t, [])
  else if t.pending?.isSome then t.giveUp.arm adjust now
  -- the callback is under way; when it returns the timer sleeps for the new time
  else (t.giveUp, [])

/-- Stops the timer for good. -/
def destroy (t : Timer) : Step :=
  if t.destroyed then (t, [])
  else if !t.running then ({ t with destroyed := true }, [.destroyed])
  -- a callback is under way and says so when it returns
  else if t.stopped then ({ t with destroyed := true }, [])
  else if t.pending?.isSome then
    ({ t.giveUp with destroyed := true, stopped := true, running := false }, [.destroyed])
  else ({ t.giveUp with destroyed := true, stopped := true }, [])

/-! ### The timer's own steps -/

/-- A sleep ends, and the callback is dispatched. -/
def fire (n : Nat) (t : Timer) : Step :=
  if t.sleeps[n]?.any (·.state = .pending) then
    ({ t.setSleep n .fired with dispatched := t.dispatched + 1 }, [])
  else (t, [])

/-- The callback sees that the timer was stopped. -/
def settle (t : Timer) : Step :=
  ({ t with running := false }, if t.destroyed then [.destroyed] else [])

/-- A worker takes up a dispatched callback. -/
def enter (t : Timer) : Step :=
  if t.dispatched = 0 then (t, [])
  else
    -- the sleep that led here can no longer be cancelled
    let t := { t with dispatched := t.dispatched - 1, current := none }
    if t.stopped then t.settle
    else ({ t with invoking := true, executing := t.executing + 1 }, [.run])

/-- The callback returns. -/
def leave (adjust : Nat → Nat) (now : Nat) (t : Timer) : Step :=
  if t.executing = 0 then (t, [])
  else
    let t := { t with executing := t.executing - 1, invoking := false }
    if t.stopped then t.settle else t.arm adjust now

/-- One step. -/
def step (adjust : Nat → Nat) (now : Nat) (t : Timer) : TimerEvent → Step
  | .start => t.start adjust now
  | .stop => t.stop
  | .reset => t.rearm adjust now
  | .resetWith timeout => { t with timeout }.rearm adjust now
  | .destroy => t.destroy
  | .fire n => t.fire n
  | .enter => t.enter
  | .leave => t.leave adjust now

/-! ### Text -/

/-- How a timer is shown in descriptions. -/
def describe (t : Timer) : String :=
  "timeout(" ++ Numeral.text t.timeout ++ "ms) " ++
    (if t.stopped then "STOPPED " else "STARTED ") ++
    (if t.running then "RUNNING " else "IDLE ") ++
    (if t.destroyed then "DESTROYED " else "ALIVE ") ++
    (if t.invoking then "INVOKING" else "WAITING")

/-- A timeout with a random delay of at most `delay` on top, so that not all nodes wake at once. -/
def jittered (draw timeout delay : Nat) : Nat := timeout + draw % (delay + 1)

/-- The delay only adds, and never more than it may. -/
theorem jittered_mem (draw timeout delay : Nat) :
    timeout ≤ jittered draw timeout delay ∧ jittered draw timeout delay ≤ timeout + delay := by
  have : draw % (delay + 1) < delay + 1 := Nat.mod_lt _ (by omega)
  simp only [jittered]
  omega

end Timer
end RaftReplica
