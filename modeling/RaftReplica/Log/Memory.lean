/-
RaftReplica/Log/Memory.lean

A log in memory: the index of its first entry, and its entries in their order.  It does what the log
on disk does, and nothing of it survives the process.

It is the simplest thing that a log can be, and so it also says what the other one is to do:
`Proofs.Log.Refinement` and the modules around it show that the log in a directory gives the same
answers to any calls, as long as no call fails for a reason of the disk.

* `MemoryLog.append` stops at the first entry that does not continue the log, and keeps those before
  it.
* `MemoryLog.truncateBefore` and `MemoryLog.reset` move the first index, `MemoryLog.truncateAfter`
  does not.
-/
import RaftReplica.Act
import RaftReplica.Entry

namespace RaftReplica

/-- Entries in a row, from index `first` on. -/
structure MemoryLog where
  first : Nat := 1
  entries : List Entry := []
  deriving DecidableEq, Repr

namespace MemoryLog

/-- The index of the last entry; one before the first index if there is none. -/
def last (l : MemoryLog) : Nat := l.first + l.entries.length - 1

/-- The entry at an index, if the log holds one there. -/
def get (l : MemoryLog) (index : Nat) : Option Entry :=
  if l.first ≤ index then l.entries[index - l.first]? else none

/-- Appends entries up to the first that does not continue the log. -/
def append : List Entry → Act MemoryLog Nat
  | [] => pure 0
  | e :: rest => do
    let l ← MonadState.get
    -- asked for each entry, so a gap inside `es` ends the call in the middle of it
    Act.require (e.index = l.last + 1) (.appendGap l.last)
    modify fun l => { l with entries := l.entries ++ [e] }
    return (← append rest) + 1

/-- Drops the entries below `kept`. -/
def truncateBefore (l : MemoryLog) (kept : Nat) : MemoryLog :=
  -- above the last entry too: then the log is empty and starts at `kept`
  if kept ≤ l.first then l else ⟨kept, l.entries.drop (kept - l.first)⟩

/-- Drops the entries above `kept`. -/
def truncateAfter (l : MemoryLog) (kept : Nat) : Except Violation MemoryLog :=
  if kept + 1 < l.first then .error (.truncateBelowFirst kept l.first)
  else .ok { l with entries := l.entries.take (kept + 1 - l.first) }

/-- Drops everything; the next entry will have index `next`. -/
def reset (next : Nat) : Except Error MemoryLog :=
  if next = 0 then .error (.invalidArgument .resetToZero) else .ok { first := next }

end MemoryLog
end RaftReplica
