/-
RaftReplica/Snapshot/Copy.lean

Copies of snapshots, as data.  A copy waits for a slot, then takes the files of the snapshot it
copies one after the other, piece by piece, and in the end publishes what it made.  Before each piece
it looks whether it was cancelled and asks how many bytes it may copy.

The stage of a copy holds all that its next step needs: the directory that is being filled with its
table so far, the file that is under way, and the files that are left.  Files that are open are held
by their numbers, so the snapshot may be removed while it is copied and the copy goes on.

* `Transfer` is one file under way, with the checksum over what was copied so far.
* `Copy.need` is what a copy asks its throttle for before its next step.

How the steps go is in `Snapshot.Copying`.
-/
import RaftReplica.Snapshot.Writer

namespace RaftReplica

/-- A file that is being copied: the open files, how far the copy is, and the checksum so far.  A
directory in the place of the file can be opened too, but not read. -/
structure Transfer where
  name : String
  expected : FileMeta
  input : Option Nat
  output : Nat
  copied : Nat := 0
  register : UInt32 := Crc32.start
  deriving DecidableEq

/-- How far a copy is. -/
inductive CopyStage
  | waiting
  | copying (w : SnapshotWriter) (info : SnapshotMeta) (t : Transfer)
      (rest : List (String × FileMeta))
  | over (result : Except Error SnapshotReader)

/-- A copy from a directory into a store; `throttle` is the number of the throttle it asks, and it
is `joined` once its outcome was taken, or nobody is left to take it. -/
structure Copy where
  source : Path
  throttle : Option Nat
  cancelled : Bool := false
  joined : Bool := false
  stage : CopyStage := .waiting

instance : Inhabited Copy := ⟨{ source := .ofText "", throttle := none }⟩

/-- What a copy needs to go on. -/
inductive CopyNeed
  | slot
  | bytes
  | nothing
  deriving DecidableEq, Repr

namespace Copy

/-- The largest piece that is copied at once. -/
def pieceSize : Nat := 128 * 1024

/-- The copy has come to its end, good or bad. -/
def isOver (c : Copy) : Bool :=
  match c.stage with
  | .over _ => true
  | _ => false

/-- What the copy asks its throttle for; a cancelled one no longer asks for bytes. -/
def need (c : Copy) : CopyNeed :=
  match c.throttle, c.stage with
  | some _, .waiting => .slot
  | some _, .copying .. => if c.cancelled then .nothing else .bytes
  | _, _ => .nothing

end Copy
end RaftReplica
