/-
RaftReplica/Simulation/Gate.lean

A throttle to try copies with.  While the gate is closed it grants nothing; once it is open it grants
what it was told to, and after that whatever is asked for.

A copy treats a gate like any other throttle (`AnyThrottle`): it takes a slot, asks for bytes before
each piece and gives the slot back at its end.  So a closed gate is a place to stop a copy at,
between two of its steps, and a gate that was told what to grant cuts a file into pieces of those
sizes.  The gate counts how often it was asked and how many copies gave their slot back.
-/
import RaftReplica.Snapshot.Throttle

namespace RaftReplica.Simulation

/-- A gate, how many bytes it will grant, and how often it was asked while it was open.  If it holds
tasks, copies wait for their slots too while it is closed. -/
structure Gate where
  isOpen : Bool
  grants : List Nat := []
  slots : Slots
  holdsTasks : Bool := false
  asked : Nat := 0
  finished : Nat := 0

/-- A throttle of either kind. -/
inductive AnyThrottle
  | rate (t : Throttle)
  | gate (g : Gate)

instance : Inhabited AnyThrottle := ⟨.gate { isOpen := true, slots := ⟨0, 0⟩ }⟩

/-- The answer of an open gate. -/
def Gate.answer (asked : Nat) (g : Gate) : Nat × Gate :=
  let g := { g with asked := g.asked + 1 }
  match g.grants with
  | [] => (asked, g)
  | n :: rest => (n, { g with grants := rest })

namespace AnyThrottle

/-- The slots of a throttle of either kind. -/
def slots : AnyThrottle → Slots
  | rate t => t.slots
  | gate g => g.slots

/-- The throttle with other slots. -/
def setSlots (s : Slots) : AnyThrottle → AnyThrottle
  | rate t => rate { t with slots := s }
  | gate g => gate { g with slots := s }

/-- Nothing gets through for now. -/
def isClosed : AnyThrottle → Bool
  | rate _ => false
  | gate g => !g.isOpen

/-- Copies have to wait for a slot even if one is free. -/
def holdsTasks : AnyThrottle → Bool
  | rate _ => false
  | gate g => g.holdsTasks && !g.isOpen

/-- How many of the bytes asked for may be copied. -/
def ask (now asked : Nat) (t : AnyThrottle) : Nat × AnyThrottle :=
  match t with
  | rate t => (t.grant now asked).map id rate
  | gate g => if g.isOpen then (g.answer asked).map id gate else (0, gate g)

/-- How long a copy waits after it was granted nothing, in nanoseconds. -/
def interval : AnyThrottle → Nat
  | rate t => t.cycle
  | gate _ => 1000000

/-- Takes a slot, if one is free. -/
def take? (t : AnyThrottle) : Option AnyThrottle := t.slots.take?.map t.setSlots

/-- Gives a slot back. -/
def giveBack (t : AnyThrottle) : AnyThrottle :=
  match t.setSlots t.slots.giveBack with
  | gate g => gate { g with finished := g.finished + 1 }
  | rate t => rate t

end AnyThrottle
end RaftReplica.Simulation
