/-
RaftReplica/Options.lean

The settings of a node, and how they are read from a TOML document.  A setting that is left out has
its default; settings with unknown names are ignored.

A setting that is there has to be of the right kind and in the range of its field: a number with a
fraction, a negative one or one that is too large spoils the whole document, and no default takes
its place.  Nothing says which setting it was.

The defaults stand in `Options` and `ThrottleOptions`, so that a document without any line gives the
same settings as no document.  A throttle that is not mentioned is none; one that is mentioned has
its own defaults.

* `Options.below` puts every store into one directory.
* `Options.setting` is the rule for one setting, `Options.ofToml?` applies it to all.
-/
import RaftReplica.Error
import RaftReplica.Toml.Reader

namespace RaftReplica

/-- How much of disk and network the copies of snapshots may take. -/
structure ThrottleOptions where
  bytesPerSecond : Nat := 30 * 1024 * 1024
  checksPerSecond : Nat := 10
  maxTasks : Nat := 0
  deriving DecidableEq, Repr, Inhabited

/-- The settings of a node; times are in milliseconds unless the name says seconds. -/
structure Options where
  electionTimeout : Nat := 1000
  maxElectionDelay : Nat := 1000
  snapshotIntervalSeconds : Nat := 3600
  logUri : String := "memory://"
  ballotUri : String := "memory://"
  snapshotUri : String := ""
  syncLog : Bool := true
  syncMeta : Bool := true
  maxSegmentSize : Nat := 8 * 1024 * 1024
  throttle : Option ThrottleOptions := none
  deriving DecidableEq, Repr, Inhabited

namespace Options

/-- Settings with every storage on disk below `directory`. -/
def below (directory : String) : Options :=
  { logUri := "local://" ++ directory ++ "/log"
    ballotUri := "local://" ++ directory ++ "/raft_meta"
    snapshotUri := "local://" ++ directory ++ "/snapshot" }

/-! ### Reading settings -/

/-- The value of a setting: `default` if it is left out, none if it is of the wrong kind. -/
def setting {α : Type} (read : Toml → Option α) (default : α) (v : Option Toml) : Option α :=
  match v with
  | none => some default
  -- a wrong value is no reason to take the default
  | some v => read v

/-- A number of at most `largest`, without a sign. -/
def nat? (largest : Nat) : Toml → Option Nat
  | .int n => if 0 ≤ n ∧ n ≤ largest then some n.toNat else none
  | _ => none

/-- A number of sixty-four bits. -/
def nat64? : Toml → Option Nat := nat? Numeral.max64

/-- A number of thirty-two bits. -/
def nat32? : Toml → Option Nat := nat? Numeral.max32

/-- A text. -/
def text? : Toml → Option String
  | .text s => some s
  | _ => none

/-- A truth value. -/
def bool? : Toml → Option Bool
  | .bool b => some b
  | _ => none

/-- Reads the three settings of the throttle. -/
def throttleOf? (bytes checks tasks : Option Toml) : Option ThrottleOptions := do
  let d : ThrottleOptions := {}
  return {
    bytesPerSecond := ← setting nat64? d.bytesPerSecond bytes
    checksPerSecond := ← setting nat32? d.checksPerSecond checks
    maxTasks := ← setting nat32? d.maxTasks tasks }

/-- The throttle is a table, or a list of its settings in order; a date counts as an empty
table. -/
def throttle? : Toml → Option ThrottleOptions
  | .list items => throttleOf? items[0]? items[1]? items[2]?
  | .tables items => throttleOf? items[0]? items[1]? items[2]?
  | .date => some {}
  | .table o rows =>
    let t := Toml.table o rows
    throttleOf? (t.get? "throughput_bytes_per_s") (t.get? "check_cycle") (t.get? "max_tasks")
  | _ => none

/-- The settings that a document gives. -/
def ofToml? (t : Toml) : Option Options := do
  let d : Options := {}
  return {
    electionTimeout := ← setting nat64? d.electionTimeout (t.get? "election_timeout_ms")
    maxElectionDelay := ← setting nat64? d.maxElectionDelay (t.get? "max_election_delay_ms")
    snapshotIntervalSeconds :=
      ← setting nat64? d.snapshotIntervalSeconds (t.get? "snapshot_interval_s")
    logUri := ← setting text? d.logUri (t.get? "log_uri")
    ballotUri := ← setting text? d.ballotUri (t.get? "raft_meta_uri")
    snapshotUri := ← setting text? d.snapshotUri (t.get? "snapshot_uri")
    syncLog := ← setting bool? d.syncLog (t.get? "raft_sync")
    syncMeta := ← setting bool? d.syncMeta (t.get? "raft_sync_meta")
    maxSegmentSize := ← setting nat64? d.maxSegmentSize (t.get? "max_segment_size")
    throttle := ← setting (fun v => (throttle? v).map some) none (t.get? "snapshot_throttle") }

/-- Reads settings from the text of a TOML document. -/
def parse (s : String) : Except Error Options :=
  match (Toml.read? s).bind ofToml? with
  | some o => .ok o
  | none => .error (.invalidArgument .badOptions)

end Options
end RaftReplica
