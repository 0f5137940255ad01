/-
RaftReplica/Disk/Path.lean

Paths of files and directories.  A path is a text given from outside, with the names that the library
itself adds below it; its own text puts slashes between them.  Blank parts and single dots lead
nowhere, two dots lead up.

Text and names are kept apart since they are trusted differently.  The text can hold anything,
slashes at its end, dots, blanks; a name that was added is one part, and lemmas about where a store
puts its files need no assumption about the text in front.

* `Path.text` is the path as messages show it, `Path.parts` as it is followed.
* `Path.withSuffix` makes the name under which something is prepared before it is renamed.
* `Path.entryParts`, `Path.endsInSlash` and `Path.endsInDots` tell the endings apart that the
  operating system treats differently.
-/
import RaftReplica.Text.Fields

namespace RaftReplica

/-- A path: a given text, and names below it. -/
structure Path where
  base : String
  below : List String := []
  deriving DecidableEq, Repr, Inhabited

namespace Path

/-- The path with a given text. -/
def ofText (s : String) : Path := { base := s }

/-- The entry of a directory with a given name. -/
def entry (p : Path) (name : String) : Path := { p with below := p.below ++ [name] }

/-- The path that a text leads to from a directory; the text may have several parts. -/
def descend (p : Path) (s : String) : Path :=
  { p with below := p.below ++ (Text.split '/' s.toList).map String.ofList }

/-- Puts a name behind a text, with a slash between them unless one is there. -/
def joinText (base name : String) : String :=
  if base.isEmpty then name
  else if base.toList.getLast? = some '/' then base ++ name
  else base ++ "/" ++ name

/-- The text of a path. -/
def text (p : Path) : String := p.below.foldl joinText p.base

/-- The parts between the slashes. -/
def parts (p : Path) : List String :=
  (Text.split '/' p.base.toList).map String.ofList ++ p.below

/-- The path whose last part is longer by `suffix`. -/
def withSuffix (p : Path) (suffix : String) : Path :=
  match p.below.getLast? with
  | some last => { p with below := p.below.dropLast ++ [last ++ suffix] }
  -- behind a slash at the end the suffix is a name of its own
  | none => { p with base := p.base ++ suffix }

/-- A path without any text leads nowhere. -/
def isEmpty (p : Path) : Bool := p.base.isEmpty && p.below.isEmpty

/-- The parts of a path without the slashes at its end. -/
def entryParts (p : Path) : List String := (p.parts.reverse.dropWhile (· == "")).reverse

/-- A path with a slash at its end can only name a directory. -/
def endsInSlash (p : Path) : Bool := p.parts.getLast? == some ""

/-- The names that lead to the directory of a path. -/
def parentParts (p : Path) : List String := (p.parts.filter fun q => q != "" && q != ".").dropLast

/-- The path ends by naming a directory only through where it stands. -/
def endsInDots (p : Path) : Bool :=
  match p.entryParts.getLast? with
  | some last => last == "." || last == ".."
  | none => true

/-- A path leads below `base` for each name. -/
theorem below_entry (p : Path) (name : String) : (p.entry name).below = p.below ++ [name] := rfl

/-- A name that was added is the last part, whatever the text in front looks like. -/
theorem parts_entry (p : Path) (name : String) : (p.entry name).parts = p.parts ++ [name] := by
  simp [parts, entry]

end Path
end RaftReplica
