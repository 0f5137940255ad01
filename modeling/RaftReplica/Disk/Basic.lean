/-
RaftReplica/Disk/Basic.lean

A disk as a value: which names lead to what, and what the files hold.

Names and contents are kept apart.  A name leads to a file by the file's number, so a file that is
open keeps its content when its name is changed or taken away, and two stores that hold the same
file open see each other's writes.  Numbers are places in the list of contents and are never used
again, so a number that was handed out stays good.

A path is followed part by part: `walk` needs a directory at each part but the last, as the
operating system does, and reports which of them is missing or is a file.  `locate` keeps a slash at
the end of a path, where only a directory will do, and `locateEntry` takes it away, for calls that
name an entry of a directory and not what it leads to.

What changes a disk is a `Call`, one step that happens wholly or not at all; `Disk.perform` says
what it does and when it is refused.  Larger operations are sequences of calls (`Disk.Volume`), and
what a crash leaves is a prefix of such a sequence.  Flushing is a call too, though it changes
nothing here: a process may stop before it or after it.
-/
import RaftReplica.Disk.Content
import RaftReplica.Disk.Path
import RaftReplica.Error

namespace RaftReplica

/-- Where a file or directory is: the names that lead to it from the top. -/
abbrev Location := List String

/-- What a name leads to. -/
inductive Node
  | file (number : Nat)
  | directory
  deriving DecidableEq, Repr

/-- Names and contents. -/
structure Disk where
  nodes : List (Location × Node)
  contents : List Content
  deriving DecidableEq, Repr, Inhabited

/-- One step that changes a disk. -/
inductive Call
  | makeDirectory (l : Location)
  | create (l : Location)
  | write (number pos : Nat) (bytes : Bytes)
  | setLength (number length : Nat)
  | rename (old new : Location)
  | removeFile (l : Location)
  | removeTree (l : Location)
  | flush (number : Nat)
  | flushDirectory (l : Location)
  deriving DecidableEq, Repr

namespace Disk

/-- Nothing but the directory at the top. -/
def empty : Disk := ⟨[], []⟩

/-! ### Looking -/

/-- What is at a location; at the top there is a directory. -/
def node? (d : Disk) (l : Location) : Option Node :=
  if l = [] then some .directory else d.nodes.lookup l

/-- The content of a file. -/
def content (d : Disk) (number : Nat) : Bytes := (d.contents[number]?.getD default).bytes

/-- Where one part of a path leads. -/
def step (l : Location) (part : String) : Location :=
  -- at the top two dots lead nowhere: `dropLast` of no names is no names
  if part = "" ∨ part = "." then l else if part = ".." then l.dropLast else l ++ [part]

/-- Follows a path; all parts but the last have to lead to directories. -/
def walk (d : Disk) (l : Location) : List String → Except IoCause Location
  | [] => .ok l
  | [part] => .ok (step l part)
  | part :: rest =>
    match d.node? (step l part) with
    | some .directory => d.walk (step l part) rest
    -- a file on the way, not at the end of it
    | some (.file _) => .error .notDirectory
    | none => .error .missing

/-- The location that a path names, whether or not anything is there. -/
def locate (d : Disk) (p : Path) : Except IoCause Location :=
  -- no text at all names nothing, not even the top
  if p.isEmpty then .error .missing else d.walk [] p.parts

/-- The location of the entry that a path names; slashes at its end do not count. -/
def locateEntry (d : Disk) (p : Path) : Except IoCause Location :=
  if p.isEmpty then .error .missing else d.walk [] p.entryParts

/-- What a path leads to. -/
def lookup (d : Disk) (p : Path) : Except IoCause Node := do
  match d.node? (← d.locate p) with
  | some n => .ok n
  | none => .error .missing

/-- Something is at the path. -/
def isThere (d : Disk) (p : Path) : Bool := (d.lookup p).isOk

/-- A directory is at the path. -/
def isDirectory (d : Disk) (p : Path) : Bool :=
  match d.lookup p with
  | .ok .directory => true
  | _ => false

/-- The file at a path, by its number. -/
def fileAt (d : Disk) (p : Path) : Except IoCause Nat := do
  match ← d.lookup p with
  | .file number => .ok number
  | .directory => .error .isDirectory

/-- The content of the file at a path. -/
def read (d : Disk) (p : Path) : Except IoCause Bytes := do return d.content (← d.fileAt p)

/-- The name of a location directly below `l`. -/
def nameBelow? (l : Location) (m : Location) : Option String :=
  if m.dropLast = l then m.getLast? else none

/-- The location of the directory at a path. -/
def directoryAt (d : Disk) (p : Path) : Except IoCause Location := do
  match ← d.lookup p with
  | .directory => d.locate p
  | .file _ => .error .notDirectory

/-- The names in a directory. -/
def list (d : Disk) (p : Path) : Except IoCause (List String) := do
  let l ← d.directoryAt p
  return d.nodes.filterMap fun n => nameBelow? l n.1

/-- Everything below a directory: the names that lead there from it, and the content of a file or
none for a directory. -/
def tree (d : Disk) (p : Path) : Except IoCause (List (Location × Option Bytes)) := do
  let l ← d.directoryAt p
  return (d.nodes.filter fun n => l <+: n.1 && n.1 != l).map fun n =>
    (n.1.drop l.length, match n.2 with
      | .directory => none
      | .file number => some (d.content number))

/-! ### Changing -/

/-- Names `n` at `l`, where nothing was. -/
def add (d : Disk) (l : Location) (n : Node) : Disk := { d with nodes := d.nodes ++ [(l, n)] }

/-- Takes away a name and all below it. -/
def drop (d : Disk) (l : Location) : Disk :=
  { d with nodes := d.nodes.filter fun n => !(l <+: n.1) }

/-- A new name for a location and all below it. -/
def move (d : Disk) (old new : Location) : Disk :=
  { d with
    nodes := d.nodes.map fun n =>
      if old <+: n.1 then (new ++ n.1.drop old.length, n.2) else n }

/-- Other content for a file. -/
def changeContent (d : Disk) (number : Nat) (f : Content → Content) : Disk :=
  { d with contents := d.contents.modify number f }

/-- A location where a name can be added: its parent is a directory. -/
def hasParent (d : Disk) (l : Location) : Except IoCause Unit :=
  match d.node? l.dropLast with
  | some .directory => .ok ()
  | some (.file _) => .error .notDirectory
  | none => .error .missing

/-- Something is below a location. -/
def hasEntries (d : Disk) (l : Location) : Bool := d.nodes.any fun n => l <+: n.1 && n.1 != l

/-- Changes a name.  What was at the new name is lost, if it is a file or an empty directory in
the place of a directory; a directory does not go below itself. -/
def rename (d : Disk) (old new : Location) : Except IoCause Disk := do
  d.hasParent old
  d.hasParent new
  match d.node? old with
  | none => .error .missing
  | some node =>
    if old = new then .ok d
    -- neither of the two names may lead through the other
    else if old <+: new then .error (if node = .directory then .invalid else .notDirectory)
    else if new <+: old then .error .notEmpty
    else
      match node, d.node? new with
      | _, none => .ok (d.move old new)
      | .file _, some (.file _) => .ok ((d.drop new).move old new)
      | .file _, some .directory => .error .isDirectory
      | .directory, some (.file _) => .error .notDirectory
      | .directory, some .directory =>
        if d.hasEntries new then .error .notEmpty else .ok ((d.drop new).move old new)

/-- What a call does. -/
def perform (d : Disk) : Call → Except IoCause Disk
  | .makeDirectory l =>
    match d.node? l with
    | some _ => .error .taken
    | none => do
      d.hasParent l
      return d.add l .directory
  | .create l =>
    match d.node? l with
    -- who has the file open writes into the emptied one from here on
    | some (.file number) => .ok (d.changeContent number fun _ => default)
    | some .directory => .error .isDirectory
    | none => do
      d.hasParent l
      -- the new number is the first one not in use yet
      return { d.add l (.file d.contents.length) with contents := d.contents ++ [default] }
  | .write number pos bytes => .ok (d.changeContent number (·.write pos bytes))
  | .setLength number length => .ok (d.changeContent number (·.resize length))
  | .rename old new => d.rename old new
  | .removeFile l =>
    match d.node? l with
    | some (.file _) => .ok (d.drop l)
    | some .directory => .error .isDirectory
    | none => .error .missing
  | .removeTree l =>
    match d.node? l with
    | some .directory => .ok (d.drop l)
    | some (.file _) => .error .notDirectory
    | none => .error .missing
  | .flush _ => .ok d
  | .flushDirectory _ => .ok d

/-- The disk after calls that are all carried out; a refused one changes nothing. -/
def replay (d : Disk) (calls : List Call) : Disk :=
  calls.foldl (fun d c => (d.perform c).toOption.getD d) d

end Disk
end RaftReplica
