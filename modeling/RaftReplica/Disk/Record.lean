/-
RaftReplica/Disk/Record.lean

Records: small files that are always replaced as a whole.  A record is the length of its payload in
four bytes, most significant first, and the payload, which is JSON.  It is written under another name
and then renamed, so a reader finds either the old record or the new one.

The length in front is what finds a torn record: a payload that is shorter than announced is refused
as corrupted, while bytes behind it are ignored.  There is no checksum.

* `Record.save` writes, `Record.load` reads, `Record.load?` takes a missing record for none, and
  `Record.remove` takes it for done.
* `Record.parse` is the reading without a disk, so that what can be read back is a question about
  bytes alone.

What holds of every stop inside `save`, for each type that is stored this way, is in
`Proofs.Disk.Record` and `Proofs.Records`.
-/
import RaftReplica.Bytes.Word
import RaftReplica.Disk.Volume
import RaftReplica.Json.Records

namespace RaftReplica.Record

variable {α : Type} [JsonForm α]

/-- The payload with its length in front. -/
def frame (payload : Bytes) : Bytes := Bytes.bigEndian 4 payload.length ++ payload

/-- The payload of a record; bytes behind it do not count, missing ones do. -/
def unframe? (bs : Bytes) : Option Bytes :=
  if bs.length < 4 then none
  else
    let length := Bytes.ofBigEndian (bs.take 4)
    let rest := bs.drop 4
    -- more than announced is fine: only the announced part is taken
    if rest.length < length then none else some (rest.take length)

/-- The name under which the record for `file` is written first. -/
def draft (file : Path) : Path := file.withSuffix ".tmp"

/-- Replaces a record. -/
def save (file : Path) (value : α) (sync : Bool) : Act Volume Unit := do
  let payload := Json.encode value
  -- the length has to fit into its four bytes
  if Numeral.max32 < payload.length then
    Act.fail (.invalidArgument (.recordTooLarge payload.length))
  let number ← Volume.create (draft file)
  Volume.write number 0 (frame payload)
  Volume.flush sync number
  -- up to here a reader finds the record as it was before
  Volume.rename (draft file) file
  Volume.flushParent sync file

/-- The value that the bytes of a record hold; `name` is shown when they hold none. -/
def parse (name : String) (bs : Bytes) : Except Error α :=
  match unframe? bs with
  | none => .error (.corrupted (.shortRecord name))
  | some payload =>
    match Json.decode? payload with
    | some a => .ok a
    | none => .error (.corrupted (.badRecord name))

/-- The value of a record on a disk. -/
def read (file : Path) (d : Disk) : Except Error α := do
  parse file.text (← (d.read file).mapError Error.io)

/-- Reads a record. -/
def load (file : Path) : Act Volume α := Act.reading fun v => read file v.disk

/-- Reads a record, if there is one. -/
def load? (file : Path) : Act Volume (Option α) := Act.reading fun v =>
  match read file v.disk with
  | .ok a => .ok (some a)
  | .error (.io .missing) => .ok none
  | .error e => .error e

/-- Removes a record, if there is one. -/
def remove (file : Path) : Act Volume Unit := Act.ofStep fun v =>
  match (Volume.removeFile file).runOn v with
  -- gone already is as good as removed
  | (.error (.error (.io .missing)), v') => (.ok (), v')
  | r => r

end RaftReplica.Record
