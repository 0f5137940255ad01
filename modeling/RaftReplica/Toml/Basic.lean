/-
RaftReplica/Toml/Basic.lean

TOML values, and documents as tables within tables.  A document may name one table in several ways:
by a header, on the way to another table, or by a dotted key.  How a table came to be decides whether
a later line may still add to it, so a table remembers its origin.

Every line of a document is a change of one table somewhere below the top.  `alterAt` leads there
along a path, making the tables that are missing, and refuses a path that leads through a value or
through a table that is closed to it; `addRow`, `define` and `extend` are the changes.

* A key may be given once: `addRow` refuses a second value for it.
* A header may be given once, unless the table was only passed through before (`define`).
* An array of tables grows by a header of its own (`extend`), and paths lead into its last table.
-/

namespace RaftReplica

/-- How a table came to be. -/
inductive TomlOrigin
  | header
  | onTheWay
  | dottedKey
  | inline
  deriving DecidableEq, Repr

/-- A TOML value.  Of numbers with a fraction only their being numbers is kept, and of dates only
their being dates. -/
inductive Toml
  | text (s : String)
  | int (n : Int)
  | float
  | bool (b : Bool)
  | date
  | list (items : List Toml)
  | table (origin : TomlOrigin) (rows : List (String × Toml))
  | tables (items : List Toml)
  deriving Repr, Inhabited

namespace Toml

/-- A document before its first line. -/
def emptyDocument : Toml := .table .header []

/-- Puts another value next to a key. -/
def replace (key : String) (v : Toml) (rows : List (String × Toml)) : List (String × Toml) :=
  rows.map fun r => if r.1 = key then (key, v) else r

/-- The value next to a key of a table. -/
def get? (key : String) : Toml → Option Toml
  | .table _ rows => rows.lookup key
  | _ => none

/-- Changes the table at the end of a path, making the tables on the way.  A path of a dotted key
may not lead through a table that a header or an inline table has defined; a path leads into the
last one of an array of tables. -/
def alterAt (byDottedKey : Bool) (change : Toml → Option Toml) : List String → Toml → Option Toml
  | [], t => change t
  | key :: path, .table origin rows =>
    match rows.lookup key with
    | none =>
      (alterAt byDottedKey change path
        (.table (if byDottedKey then .dottedKey else .onTheWay) [])).map fun t =>
          .table origin (rows ++ [(key, t)])
    | some (.table inner innerRows) =>
      if byDottedKey && (inner == .header || inner == .inline) then none
      else if !byDottedKey && inner == .inline then none
      else
        (alterAt byDottedKey change path (.table inner innerRows)).map fun t =>
          .table origin (replace key t rows)
    -- an array of tables is entered at its last one
    | some (.tables items) =>
      match items.getLast? with
      | some last =>
        (alterAt byDottedKey change path last).map fun t =>
          .table origin (replace key (.tables (items.dropLast ++ [t])) rows)
      | none => none
    | some _ => none
  | _ :: _, _ => none

/-- Adds a row to a table.  A dotted key adds only to tables that dotted keys made. -/
def addRow (byDottedKey : Bool) (key : String) (v : Toml) : Toml → Option Toml
  | .table origin rows =>
    -- the table is of the one kind and the line of the other
    if (origin == .dottedKey) != byDottedKey || (rows.lookup key).isSome then none
    else some (.table origin (rows ++ [(key, v)]))
  | _ => none

/-- Defines a table by its header: it may so far only have been passed through. -/
def define (key : String) : Toml → Option Toml
  | .table origin rows =>
    match rows.lookup key with
    | none => some (.table origin (rows ++ [(key, .table .header [])]))
    | some (.table .onTheWay inner) =>
      some (.table origin (replace key (.table .header inner) rows))
    | some _ => none
  | _ => none

/-- Adds a table to an array of tables. -/
def extend (key : String) : Toml → Option Toml
  | .table origin rows =>
    match rows.lookup key with
    | none => some (.table origin (rows ++ [(key, .tables [.table .header []])]))
    | some (.tables items) =>
      some (.table origin (replace key (.tables (items ++ [.table .header []])) rows))
    | some _ => none
  | _ => none

/-- Takes a path apart into the way and the last key. -/
def splitPath? (path : List String) : Option (List String × String) :=
  path.getLast?.map fun last => (path.dropLast, last)

/-- Adds a value under a key, dotted or not, to the table that `header` leads to. -/
def addAt (header : List String) (path : List String) (v : Toml) (document : Toml) :
    Option Toml := do
  let (way, key) ← splitPath? path
  alterAt false (alterAt true (addRow (!way.isEmpty) key v) way) header document

end Toml
end RaftReplica
