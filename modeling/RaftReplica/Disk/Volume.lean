/-
RaftReplica/Disk/Volume.lean

A volume is a disk in use: its present content, and the calls that have changed it so far, the last
one first.  The calls tell what the disk looks like if the process stops between two of them, or in
the middle of a write.

The journal is only read by proofs.  No operation looks at it, so it says nothing that a program
could use; it is there since "at any point of this operation" is a statement about the calls, and a
volume that kept only its last disk would have forgotten them.  `Disk.LeftBy` says which disks a stop
can leave: after some of the calls, with the next one possibly a write of which only a part arrived.

The operations are those of a file system as the stores use them, each a few calls: creating and
filling files, renaming, making directories along a path, removing.  `collect` removes a directory
under another name, `discard` goes as far as it gets.

Stores keep what they remember in a value of their own; `Mounted` puts such a value next to the
volume it lives on.
-/
import RaftReplica.Act
import RaftReplica.Disk.Basic

namespace RaftReplica

/-- A disk and the calls that changed it. -/
structure Volume where
  disk : Disk
  journal : List Call := []
  deriving Inhabited

namespace Volume

/-- A volume on a disk, before any call. -/
def ofDisk (d : Disk) : Volume := { disk := d }

/-- The same disk, before any further call. -/
def restarted (v : Volume) : Volume := ofDisk v.disk

/-- Carries out a call. -/
def perform (c : Call) : Act Volume Unit := Act.ofStep fun v =>
  match v.disk.perform c with
  | .ok d => (.ok (), ⟨d, c :: v.journal⟩)
  | .error e => (.error (.error (.io e)), v)

/-- Looks at the disk. -/
def look {α : Type} (f : Disk → Except IoCause α) : Act Volume α := Act.reading fun v =>
  (f v.disk).mapError Error.io

/-- The location that a path names. -/
def locate (p : Path) : Act Volume Location := look (·.locate p)

/-! ### Files -/

/-- Opens a file for writing, empty; it is made if nothing was there. -/
def create (p : Path) : Act Volume Nat := do
  let l ← look (·.locateEntry p)
  -- a name that can only be a directory's
  if p.endsInSlash then Act.fail (.io .isDirectory)
  perform (.create l)
  look (·.fileAt p)

/-- Opens a file that is there. -/
def openFile (p : Path) : Act Volume Nat := look (·.fileAt p)

/-- Writes into an open file. -/
def write (number pos : Nat) (bytes : Bytes) : Act Volume Unit := perform (.write number pos bytes)

/-- Cuts or lengthens an open file. -/
def setLength (number length : Nat) : Act Volume Unit := perform (.setLength number length)

/-- Changes a name; only that of a directory may be written with a slash at its end. -/
def rename (old new : Path) : Act Volume Unit := do
  let l ← look (·.locateEntry old)
  let m ← look (·.locateEntry new)
  if old.endsInDots || new.endsInDots then Act.fail (.io .inUse)
  match (← get).disk.node? l with
  -- with a slash behind it a file is asked for as a directory
  | some (.file _) => if old.endsInSlash || new.endsInSlash then Act.fail (.io .notDirectory)
  | _ => pure ()
  perform (.rename l m)

/-- Removes the file at a path. -/
def removeFile (p : Path) : Act Volume Unit := do perform (.removeFile (← locate p))

/-- Makes what was written to a file durable, if asked to. -/
def flush (sync : Bool) (number : Nat) : Act Volume Unit :=
  if sync then perform (.flush number) else pure ()

/-- Makes the names in the directory of `p` durable, if asked to. -/
def flushParent (sync : Bool) (p : Path) : Act Volume Unit := do
  if sync then perform (.flushDirectory (← locate p).dropLast)

/-- Writes a whole file. -/
def fill (p : Path) (bs : Bytes) : Act Volume Unit := do write (← create p) 0 bs

/-- Puts other content into a file that is there. -/
def edit (p : Path) (f : Bytes → Bytes) : Act Volume Unit := do
  let old ← look (·.read p)
  let number ← openFile p
  -- emptied first, so nothing of a longer content stays behind
  setLength number 0
  write number 0 (f old)

/-! ### Directories -/

/-- Only slashes and dots are left of a path, and at least one dot. -/
def onlyDots (parts : List String) : Bool :=
  parts.contains "." && parts.all fun q => q == "" || q == "."

/-- Makes the directories along a path that are not there yet; the last one is not made if the path
goes on with a dot. -/
def makeAll (l : Location) : List String → Act Volume Unit
  | [] => pure ()
  | part :: rest => do
    let next := Disk.step l part
    match (← get).disk.node? next with
    | some .directory => makeAll next rest
    | some (.file _) => Act.fail (.io (if rest.all (· == "") then .taken else .notDirectory))
    | none => do
      if onlyDots rest then Act.fail (.io .missing)
      perform (.makeDirectory next)
      makeAll next rest

/-- Makes a directory and all above it. -/
def makeDirectories (p : Path) : Act Volume Unit :=
  if p.isEmpty then pure () else makeAll [] p.parts

/-- Writes a whole file, in a directory that is made if it is not there. -/
def fillBelow (p : Path) (bs : Bytes) : Act Volume Unit := do
  makeAll [] p.parentParts
  fill p bs

/-- Removes what is at a path. -/
def remove (p : Path) : Act Volume Unit := do
  match ← look (·.lookup p) with
  | .directory => perform (.removeTree (← locate p))
  | .file _ => removeFile p

/-- Removes whatever is at a path; nothing there is fine. -/
def removeAll (p : Path) : Act Volume Unit := do
  match (← get).disk.lookup p with
  | .error .missing => pure ()
  | _ => remove p

/-- Removes whatever is at a path, as far as it goes. -/
def discard (p : Path) : Act Volume Unit := (removeAll p).ignore

/-- Removes a directory under a name of its own first, so that a crash in between leaves no half
of it under the old name; leftovers of an earlier crash go too. -/
def collect (p : Path) : Act Volume Unit := do
  let garbage := p.withSuffix ".tmp"
  -- a crash may have left something here
  removeAll garbage
  if (← get).disk.isThere p then
    -- from here on nothing is found under the old name
    rename p garbage
    removeAll garbage

end Volume

/-! ### Stores on a volume -/

/-- What a store remembers, and the volume it lives on. -/
structure Mounted (σ : Type) where
  store : σ
  volume : Volume

namespace Mounted

variable {σ α : Type}

/-- An action on the volume. -/
def onVolume (x : Act Volume α) : Act (Mounted σ) α :=
  x.zoom Mounted.volume fun m v => { m with volume := v }

/-- What the store remembers. -/
def stored : Act (Mounted σ) σ := do return (← get).store

/-- Lets the store remember something else. -/
def update (f : σ → σ) : Act (Mounted σ) Unit := modify fun m => { m with store := f m.store }

end Mounted

/-! ### Crashes -/

/-- A call that was cut short: of a write any number of bytes may have arrived. -/
inductive Call.TornTo : Call → Call → Prop
  | write (number pos : Nat) (bytes : Bytes) (n : Nat) :
    TornTo (.write number pos bytes) (.write number pos (bytes.take n))

/-- The disks that a process can leave which stops while it makes `calls` on `d`: some of the
calls were made, and the next one may be a write that was cut short. -/
inductive Disk.LeftBy (d : Disk) (calls : List Call) : Disk → Prop
  | between (n : Nat) : LeftBy d calls (d.replay (calls.take n))
  | within (n : Nat) (c torn : Call) (hc : calls[n]? = some c) (ht : c.TornTo torn) :
    LeftBy d calls (d.replay (calls.take n ++ [torn]))

end RaftReplica
