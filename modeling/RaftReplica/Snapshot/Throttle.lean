/-
RaftReplica/Snapshot/Throttle.lean

Throttles keep copies of snapshots from starving everything else.  A throttle hands out slots, as
many as copies may run at a time, and bytes, as many as fit into one cycle; a limit of zero is
none.  What is not used in a cycle is lost.  Times are in nanoseconds; whoever asks tells what time it
is.

A cycle is not tied to the clock: it begins when someone asks after the last one has ended.  So a
throttle that nobody asks for a long time does not save up bytes, and `asOf` needs no loop.

* `Slots.take?` and `Slots.giveBack` are for whole copies.
* `Throttle.grant` may grant fewer bytes than were asked for, or none; it never grants more
  (`grant_le`).
-/
import RaftReplica.Options

namespace RaftReplica

/-- Slots for copies: how many may be taken, and how many are. -/
structure Slots where
  limit : Nat
  taken : Nat := 0
  deriving DecidableEq, Repr

namespace Slots

/-- Takes a slot, if one is free. -/
def take? (s : Slots) : Option Slots :=
  if 0 < s.limit ∧ s.limit ≤ s.taken then none else some { s with taken := s.taken + 1 }

/-- Gives a slot back. -/
def giveBack (s : Slots) : Slots := { s with taken := s.taken - 1 }

end Slots

/-- So many bytes in each cycle, and so many copies at a time. -/
structure Throttle where
  bytesPerCycle : Nat
  cycle : Nat
  slots : Slots
  cycleStart : Nat := 0
  cycleBytes : Nat := 0
  deriving DecidableEq, Repr

namespace Throttle

/-- The number of nanoseconds in a second. -/
def second : Nat := 1000000000

/-- A throttle with given settings; however few bytes are allowed, a cycle has at least one. -/
def ofOptions (o : ThrottleOptions) : Throttle :=
  let checks := max o.checksPerSecond 1
  -- a limit that rounds down to zero would be no limit at all
  { bytesPerCycle := if o.bytesPerSecond = 0 then 0 else max (o.bytesPerSecond / checks) 1
    cycle := second / checks
    slots := { limit := o.maxTasks } }

/-- The throttle as of `now`: a new cycle may have begun. -/
def asOf (now : Nat) (t : Throttle) : Throttle :=
  if t.cycle ≤ now - t.cycleStart then { t with cycleStart := now, cycleBytes := 0 } else t

/-- How many of the bytes asked for may be copied now, possibly none. -/
def grant (now asked : Nat) (t : Throttle) : Nat × Throttle :=
  if t.bytesPerCycle = 0 then (asked, t)
  else
    let t := t.asOf now
    let granted := min asked (t.bytesPerCycle - t.cycleBytes)
    (granted, { t with cycleBytes := t.cycleBytes + granted })

/-- Nobody is granted more than was asked for. -/
theorem grant_le (now asked : Nat) (t : Throttle) : (t.grant now asked).1 ≤ asked := by
  simp only [grant]
  split
  · exact Nat.le_refl _
  · exact Nat.min_le_left ..

end Throttle
end RaftReplica
