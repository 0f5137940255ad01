/-
RaftReplica/Snapshot/Copying.lean

How copies run.  A store begins a copy, and the copy then goes on in steps: it begins with its slot,
takes the next piece, and so on until it is over.  If something fails, the directory it was filling
is removed and the store is as if the copy had never begun.

One step is `stepCopy`.  By the stage it reads the table and makes a directory (`beginCopy`), or
copies one piece and at the end of a file goes on to the next (`fill`), or publishes what was made
(`finishCopy`).  `afterFilling` is what these have in common: it removes the directory if the filling
failed.

A copy can be cancelled between any two steps.  It looks at that before each piece and once more
behind the last file; from then on it is too late, and the snapshot is published although the copy
was asked to stop.

* `startCopy` begins, `cancelCopy` asks to stop, `joinCopy` takes the outcome, once.
* `disownCopy` closes the snapshot that a copy opened if nobody is left to take it.
* `checkSum` compares what was read with what the table of the snapshot says.
-/
import RaftReplica.Snapshot.Store
import RaftReplica.Uri

namespace RaftReplica.SnapshotStore

/-! ### Copies of a store -/

/-- The directory that a uri names as the source of a copy. -/
def sourceOf (uri : String) : Except Error Path := do
  let u ← StorageUri.parse uri
  if u.scheme ≠ "local" then throw (.unsupportedBackend uri)
  return .ofText (← u.requirePath)

/-- Begins a copy and gives its number. -/
def startCopy (uri : String) : Act (Mounted SnapshotStore) Nat := do
  let source ← Act.ofExcept (sourceOf uri)
  let s ← Mounted.stored
  Mounted.update fun s => { s with copies := s.copies ++ [{ source, throttle := s.throttle }] }
  return s.copies.length

/-- Changes one copy. -/
def modifyCopy (number : Nat) (f : Copy → Copy) (s : SnapshotStore) : SnapshotStore :=
  { s with copies := s.copies.modify number f }

/-- Asks a copy to stop; it looks before each piece and at its end. -/
def cancelCopy (number : Nat) (s : SnapshotStore) : SnapshotStore :=
  s.modifyCopy number fun c => { c with cancelled := true }

/-- The copy with a given number. -/
def copy (s : SnapshotStore) (number : Nat) : Copy := s.copies[number]?.getD default

/-- The outcome of a copy that is over; it can be taken once. -/
def joinCopy (number : Nat) : Act (Mounted SnapshotStore) SnapshotReader := do
  let c := (← Mounted.stored).copy number
  if c.joined then Act.fail (.invalidArgument .copyTakenTwice)
  -- taken from now on, whatever the outcome is
  Mounted.update (modifyCopy number fun c => { c with joined := true })
  match c.stage with
  | .over r => Act.ofExcept r
  | _ => Act.fail (.interrupted .unfinished)

/-- Closes the snapshot that a copy has opened, if it is over and came to that. -/
def closeOutcome : CopyStage → Act (Mounted SnapshotStore) Unit
  | .over (.ok r) => closeReader r
  | _ => pure ()

/-- Nobody will take the outcome of a copy any more; a snapshot that it opened is closed, and one
that it is still going to open will be. -/
def disownCopy (number : Nat) : Act (Mounted SnapshotStore) Unit := do
  let c := (← Mounted.stored).copy number
  Mounted.update (modifyCopy number fun c => { c with joined := true })
  if !c.joined then closeOutcome c.stage

/-! ### Steps -/

/-- Opens a file for reading; a directory can be opened as well. -/
def openInput (file : Path) : Act Volume (Option Nat) :=
  Volume.look fun d => do
    match ← d.lookup file with
    | .file n => return some n
    | .directory => return none

/-- What a copy that filled its directory does: it tells what the snapshot covers, publishes it and
opens it. -/
def finishCopy (w : SnapshotWriter) (info : SnapshotMeta) :
    Act (Mounted SnapshotStore) CopyStage := do
  let index ← commit (w.setInfo info)
  return .over (.ok (← openAt index))

/-- Begins the next file, if there is one left. -/
def openNext (source : Path) (w : SnapshotWriter) (info : SnapshotMeta) :
    List (String × FileMeta) → Act Volume (Option CopyStage)
  | [] => return none
  | (name, expected) :: rest => do
    Act.ofExcept (SnapshotName.check name)
    let input ← openInput (source.entry name)
    let output ← Volume.create (w.directory.entry name)
    return some (.copying w info { name, expected, input, output } rest)

/-- Goes on after a file: with the next one or, behind the last, to the end of the copy. -/
def nextFile (c : Copy) (w : SnapshotWriter) (info : SnapshotMeta)
    (rest : List (String × FileMeta)) : Act Volume (Option CopyStage) := do
  match ← openNext c.source w info rest with
  | some stage => return some stage
  | none =>
    -- the last look at it: what follows is not interrupted
    if c.cancelled then Act.fail (.interrupted (.copyFrom c.source.text))
    return none

/-- The file was copied as a whole: its checksum has to be the expected one. -/
def checkSum (source : Path) (t : Transfer) : Except Error Unit :=
  match t.expected.checksum with
  | some expected =>
    let found := Crc32.finish t.register
    if found = expected then .ok ()
    else .error (.corrupted (.fileChecksum (source.entry t.name).text expected found))
  | none => .ok ()

/-- Copies the next piece, of at most `granted` bytes; none if the file is at its end. -/
def nextPiece (granted : Nat) (t : Transfer) : Act Volume (Option Transfer) := do
  Act.require (granted ≤ Copy.pieceSize) .grantTooLarge
  match t.input with
  | none => Act.fail (.io .isDirectory)
  | some input =>
    let piece := (((← get).disk.content input).drop t.copied).take granted
    if piece.isEmpty then return none
    Volume.write t.output t.copied piece
    return some { t with
      copied := t.copied + piece.length
      register := Crc32.feedAll t.register piece }

/-- Copies a piece and, at the end of a file, goes on to the next one. -/
def fill (c : Copy) (granted : Nat) (w : SnapshotWriter) (info : SnapshotMeta) (t : Transfer)
    (rest : List (String × FileMeta)) : Act Volume (Option CopyStage × SnapshotWriter) := do
  if c.cancelled then Act.fail (.interrupted (.copyOf (c.source.entry t.name).text))
  match ← nextPiece granted t with
  | some t => return (some (.copying w info t rest), w)
  | none =>
    -- before the file is entered, so a damaged one never gets into a table
    Act.ofExcept (checkSum c.source t)
    Volume.flush w.sync t.output
    let w ← Act.ofExcept (w.addFile t.name t.expected)
    return (← nextFile c w info rest, w)

/-- What follows after the directory `w` was filled further: the next stage, the end of the copy, or
its failure, after which the directory is removed. -/
def afterFilling (w : SnapshotWriter) (info : SnapshotMeta)
    (x : Act Volume (Option CopyStage × SnapshotWriter)) :
    Act (Mounted SnapshotStore) CopyStage := do
  match ← (Mounted.onVolume x).attempt with
  | .ok (some stage, _) => return stage
  | .ok (none, w) => finishCopy w info
  | .error (.error e) =>
    abandon w
    Act.fail e
  | .error (.violation v) => Act.violate v

/-- The first step of a copy: it reads the table of the source and makes a directory to fill. -/
def beginCopy (c : Copy) : Act (Mounted SnapshotStore) CopyStage := do
  let table : SnapshotTable ← Mounted.onVolume (Record.load (SnapshotTable.file c.source))
  match table.info with
  | none => Act.fail (.corrupted (.noSnapshotMeta c.source.text))
  | some info =>
    let w ← create
    -- from here on a failure has a directory to remove
    afterFilling w info (do return (← nextFile c w info table.files.rows, w))

/-- The stage that a step of a copy leads to; a copy that fails is over, and so is one that broke an
assertion. -/
def stageOf (x : Act (Mounted SnapshotStore) CopyStage) :
    Act (Mounted SnapshotStore) CopyStage := do
  match ← x.attempt with
  | .ok stage => return stage
  | .error (.error e) => return .over (.error e)
  | .error (.violation _) => return .over (.error (.io .copyBroke))

/-- One step of a copy, which was granted so many bytes. -/
def stepCopy (number granted : Nat) : Act (Mounted SnapshotStore) Unit := do
  let c := (← Mounted.stored).copy number
  let stage ← stageOf (match c.stage with
    | .waiting => beginCopy c
    | .copying w info t rest => afterFilling w info (fill c granted w info t rest)
    | .over r => return .over r)
  Mounted.update (modifyCopy number fun c => { c with stage })
  -- nobody is left who would close what the copy opened
  if c.joined then closeOutcome stage

/-- All slots are taken: the copy is over before it began. -/
def refuseCopy (number : Nat) (s : SnapshotStore) : SnapshotStore :=
  s.modifyCopy number fun c => { c with stage := .over (.error (.busy .copies)) }

end RaftReplica.SnapshotStore
