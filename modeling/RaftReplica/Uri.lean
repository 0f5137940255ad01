/-
RaftReplica/Uri.lean

Storage uris: `scheme://path?key=value&key=value`.  The scheme names a kind of storage, the path a
directory.  Blanks around the scheme and all blanks behind it do not count.  A key without a value has
the empty one, and of parameters with one key the last counts.

Nothing is escaped: there is no way to write a blank, or a question mark in the path, so a directory
with such a name cannot be named by a uri.  Which directories can be is shown in `Proofs.Uri`.

* `StorageUri.parse` reads a uri; it refuses one without the mark or without a scheme.
* `StorageUri.boolParam` and `StorageUri.natParam` read parameters with a default, and refuse a
  value of another kind.
* `StorageUri.withDefault` adds a parameter to the text of a uri, unless the uri has it.
-/
import RaftReplica.Error
import RaftReplica.Table
import RaftReplica.Text.Blank
import RaftReplica.Text.Fields

namespace RaftReplica

/-- A uri that names a storage. -/
structure StorageUri where
  scheme : String
  path : String
  params : Table String String
  deriving DecidableEq

namespace StorageUri

/-- The mark behind the scheme. -/
def mark : List Char := [':', '/', '/']

/-- The scheme, and everything behind the mark, both without the blanks that do not count. -/
def halves? (cs : List Char) : Option (List Char × List Char) :=
  (Text.cutAt mark cs).map fun p => (Text.trim p.1, Text.removeBlanks p.2)

/-- Key and value of a parameter. -/
def keyAndValue (cs : List Char) : String × String :=
  let p := (Text.cut '=' cs).getD (cs, [])
  (String.ofList p.1, String.ofList p.2)

/-- The parameters of a query; empty ones are skipped. -/
def paramsOf (query : List Char) : Table String String :=
  .ofList (((Text.split '&' query).filter (!·.isEmpty)).map keyAndValue)

/-- The uri with given halves. -/
def ofHalves (scheme rest : List Char) : StorageUri :=
  let p := (Text.cut '?' rest).getD (rest, [])
  ⟨String.ofList scheme, String.ofList p.1, paramsOf p.2⟩

/-- Reads a uri; it needs the mark and a scheme before it. -/
def parse (s : String) : Except Error StorageUri :=
  match halves? s.toList with
  | none => .error (.invalidUri s)
  | some (scheme, rest) =>
    if scheme.isEmpty then .error (.invalidUri s) else .ok (ofHalves scheme rest)

/-- The path, for storages that live in a directory. -/
def requirePath (u : StorageUri) : Except Error String :=
  if u.path.isEmpty then .error (.invalidUri (u.scheme ++ ":// needs a path")) else .ok u.path

/-- The value of a parameter. -/
def param? (u : StorageUri) (key : String) : Option String := u.params.get? key

/-- A parameter that is true or false. -/
def boolParam (u : StorageUri) (key : String) (default : Bool) : Except Error Bool :=
  match u.param? key with
  | none => .ok default
  | some v =>
    if v = "true" ∨ v = "1" then .ok true
    else if v = "false" ∨ v = "0" then .ok false
    else .error (.invalidArgument (.notBool key v))

/-- A parameter that is a number. -/
def natParam (u : StorageUri) (key : String) (default : Nat) : Except Error Nat :=
  match u.param? key with
  | none => .ok default
  | some v =>
    match Numeral.parse64? v.toList with
    | some n => .ok n
    | none => .error (.invalidArgument (.notNumber key v))

/-- The text of a uri with a parameter added, unless the uri sets that parameter itself. -/
def withDefault (uri key value : String) : Except Error String := do
  let u ← parse uri
  if (u.param? key).isSome then return uri
  -- the first parameter is announced by a question mark, further ones are joined on
  let separator := if uri.toList.contains '?' then "&" else "?"
  return Text.trimmed uri ++ separator ++ key ++ "=" ++ value

end StorageUri

/-- The word for a truth value in a uri. -/
def boolWord (b : Bool) : String := if b then "true" else "false"

end RaftReplica
