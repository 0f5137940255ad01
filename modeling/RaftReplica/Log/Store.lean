/-
RaftReplica/Log/Store.lean

A log, wherever it is kept.  Its range is from the first index to the last and is empty when the
first is one above the last; outside of it there are no entries and the term is zero.

`LogStore` is the sum of the two kinds.  Reading takes the disk as an argument, since an entry of a
durable log is only in its file; a log in memory ignores it.  What changes a log goes through
`within`, which runs the action of the one kind or of the other and leaves the volume alone for a
log in memory.

* `appendOne` is what a node calls: it takes an entry that was not appended for an error.
* `init` opens a log; one in memory has nothing to open and tells the history nothing.
-/
import RaftReplica.Log.Memory
import RaftReplica.Log.Segmented

namespace RaftReplica

/-- A log in memory or on disk. -/
inductive LogStore
  | memory (l : MemoryLog)
  | segmented (l : SegmentedLog)
  deriving DecidableEq

namespace LogStore

/-- The index of the first entry, or the next one's if there is none. -/
def first : LogStore → Nat
  | memory l => l.first
  | segmented l => l.first

/-- The index of the last entry, or the one before the first index. -/
def last : LogStore → Nat
  | memory l => l.last
  | segmented l => l.last

/-- The log holds no entry. -/
def isEmpty (l : LogStore) : Bool := l.last < l.first

/-- The entry at an index; none outside the log. -/
def get (l : LogStore) (index : Nat) (d : Disk) : Except Violation (Option Entry) :=
  match l with
  | memory l => .ok (l.get index)
  | segmented l => l.get index d

/-- The term of the entry at an index; zero outside the log. -/
def term (l : LogStore) (index : Nat) : Except Violation Nat :=
  match l with
  | memory l => .ok (((l.get index).map Entry.term).getD 0)
  | segmented l => l.term index

/-- Opens the log and tells the history every membership found in it. -/
def init (l : LogStore) : Act (Mounted MembershipHistory) LogStore :=
  match l with
  | memory l => pure (memory l)
  | segmented l => return segmented (← l.init)

/-- An action on the log that is behind a constructor. -/
def within {α : Type} (onMemory : Act MemoryLog α) (onDisk : Act (Mounted SegmentedLog) α) :
    Act (Mounted LogStore) α := Act.ofStep fun m =>
  match m.store with
  | memory l =>
    let (r, l) := onMemory.runOn l
    (r, ⟨memory l, m.volume⟩)
  | segmented l =>
    let (r, m) := onDisk.runOn ⟨l, m.volume⟩
    (r, ⟨segmented m.store, m.volume⟩)

/-- Appends entries and tells how many of them are in the log now. -/
def append (es : List Entry) : Act (Mounted LogStore) Nat :=
  within (MemoryLog.append es) (SegmentedLog.append es)

/-- Appends one entry. -/
def appendOne (e : Entry) : Act (Mounted LogStore) Unit := do
  if (← append [e]) ≠ 1 then Act.fail (.io (.notAppended e.index))

/-- Drops the entries below `kept`. -/
def truncateBefore (kept : Nat) : Act (Mounted LogStore) Unit :=
  within (modify fun l => l.truncateBefore kept) (SegmentedLog.truncateBefore kept)

/-- Drops the entries above `kept`. -/
def truncateAfter (kept : Nat) : Act (Mounted LogStore) Unit :=
  within (do
    match (← MonadState.get).truncateAfter kept with
    | .ok l => set l
    | .error v => Act.violate v) (SegmentedLog.truncateAfter kept)

/-- Drops everything; the next entry will have index `next`. -/
def reset (next : Nat) : Act (Mounted LogStore) Unit :=
  within (do set (← Act.ofExcept (MemoryLog.reset next))) (SegmentedLog.reset next)

end LogStore
end RaftReplica
