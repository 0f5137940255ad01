/-
RaftReplica/Error.lean

What can go wrong, as causes, and the one place that words them.

An `Error` is an answer: the caller gets it and goes on.  A `Violation` is a broken assertion: the
caller used an object in a way its contract forbids, and the call ends where the assertion stands,
keeping whatever it had done before.  `Failure` is the sum of the two, and how an action can end
without a result.

Each kind of error has a type of its own for its causes, with the values its text shows: an index, a
file, the two positions that were compared.  So the text of an error is a function of its cause
(`Error.message`), and two errors that are worded alike are still told apart.  The cause `other`
carries a text that was made elsewhere, as by the state machine.

* `Error.kind` names the kind, as callers match on it.
* `Error.isProtocolOutcome` are the kinds a node expects in its normal work.
* `Violation.message?` has no text for an index out of bounds and for a grant that is too large.
-/
import RaftReplica.LogId
import RaftReplica.Text.Quoted

namespace RaftReplica

/-! ### Causes -/

/-- Why the file system refused. -/
inductive IoCause
  | missing
  | taken
  | notDirectory
  | isDirectory
  | invalid
  | inUse
  | notEmpty
  | endOfFile
  | notText
  | segmentNotOpen (first : Nat)
  | notAppended (index : Nat)
  | copyBroke
  | other (text : String)
  deriving DecidableEq, Repr

/-- What is wrong with data read back from disk. -/
inductive Damage
  | entryType (tag : Nat)
  | headerChecksum
  | bodyChecksum (index : Nat)
  | undecodable (index : Nat)
  | shortEntry (index : Nat)
  | headerAt (file : String) (offset : Nat) (cause : Damage)
  | bodyIn (file : String) (cause : Damage)
  | entriesLost (file : String) (last : Nat)
  | entriesAdded (file : String) (last : Nat)
  | segmentAtZero (name : String)
  | twoTails (first other : Nat)
  | gap (expected found : Nat)
  | startsLate (first start : Nat)
  | shortRecord (file : String)
  | badRecord (file : String)
  | noSnapshotMeta (directory : String)
  | fileChecksum (file : String) (expected found : UInt32)
  | other (text : String)
  deriving DecidableEq, Repr

/-- What a caller asked for that makes no sense. -/
inductive Misuse
  | badPeer (text : String)
  | entryTooLarge (index : Nat)
  | recordTooLarge (size : Nat)
  | notInitialized (what : String)
  | badOptions
  | noSnapshotUri
  | notBool (key value : String)
  | notNumber (key value : String)
  | schemeTaken (kind scheme : String)
  | resetToZero
  | writerWithoutMeta
  | stillReferenced (index : Nat)
  | badFileName (name : String)
  | copyTakenTwice
  | timerOutside
  | snapshotTimerOutside
  | other (text : String)
  deriving DecidableEq, Repr

/-- Why something in progress came to nothing. -/
inductive Interruption
  | superseded (snapshot : LogId)
  | unfinished
  | copyOf (file : String)
  | copyFrom (directory : String)
  | other (text : String)
  deriving DecidableEq, Repr

/-- What stands in the way for now. -/
inductive Obstacle
  | saving
  | installing
  | loading
  | olderThan (current asked : LogId)
  | copies
  | other (text : String)
  deriving DecidableEq, Repr

/-- What was looked for in vain. -/
inductive Absence
  | snapshot (index : Nat)
  | other (text : String)
  deriving DecidableEq, Repr

/-- Everything a call can answer instead of its result. -/
inductive Error
  | io (cause : IoCause)
  | serialization (detail : String)
  | corrupted (damage : Damage)
  | unsupportedBackend (name : String)
  | invalidUri (text : String)
  | invalidArgument (misuse : Misuse)
  | staleInsert (entry last : LogId)
  | termMismatch (request current : Nat)
  | interrupted (why : Interruption)
  | busy (obstacle : Obstacle)
  | stopped
  | notFound (what : Absence)
  deriving DecidableEq, Repr

/-! ### Wording -/

open Numeral (text)

/-- The words of the operating system for a refusal. -/
def IoCause.message : IoCause → String
  | .missing => "No such file or directory (os error 2)"
  | .taken => "File exists (os error 17)"
  | .notDirectory => "Not a directory (os error 20)"
  | .isDirectory => "Is a directory (os error 21)"
  | .invalid => "Invalid argument (os error 22)"
  | .inUse => "Device or resource busy (os error 16)"
  | .notEmpty => "Directory not empty (os error 39)"
  -- from here on these are not refusals of the file system itself
  | .endOfFile => "failed to fill whole buffer"
  | .notText => "stream did not contain valid UTF-8"
  | .segmentNotOpen first => "segment " ++ text first ++ " has no open file"
  | .notAppended index => "entry " ++ text index ++ " was not appended"
  | .copyBroke => "snapshot copier panicked"
  | .other t => t

/-- The words that introduce damaged data. -/
def Damage.opening : String := "corrupted data: "

/-- Damage found inside a file is reported with the file's own words around it. -/
def Damage.message : Damage → String
  | .entryType tag => "unknown entry type " ++ text tag
  | .headerChecksum => "entry header checksum mismatch"
  | .bodyChecksum index => "entry " ++ text index ++ " body checksum mismatch"
  | .undecodable index => "entry " ++ text index ++ " undecodable: malformed body"
  | .shortEntry index => "entry " ++ text index ++ " is shorter than its header"
  | .headerAt file offset cause =>
    file ++ " at offset " ++ text offset ++ ": " ++ opening ++ cause.message
  | .bodyIn file cause => file ++ ": " ++ opening ++ cause.message
  | .entriesLost file last =>
    "data lost in closed segment " ++ file ++ ", last entry is " ++ text last
  | .entriesAdded file last =>
    "found garbage in closed segment " ++ file ++ ", last entry is " ++ text last
  | .segmentAtZero name => "segment " ++ name ++ " starts at index 0"
  -- the lower one first, in whichever order they were found
  | .twoTails a b =>
    "open segment conflict: " ++ text (min a b) ++ " and " ++ text (max a b)
  | .gap expected found =>
    "gap between segments: expected " ++ text expected ++ ", found " ++ text found
  | .startsLate first start =>
    "log starts at " ++ text first ++ " but first_log_index is " ++ text start
  | .shortRecord file => "short read on " ++ file
  | .badRecord file => "failed to parse " ++ file ++ ": malformed record"
  | .noSnapshotMeta directory => "snapshot " ++ directory ++ " has no meta"
  | .fileChecksum file expected found =>
    file ++ " checksum mismatch: expected " ++ Numeral.hex8 expected ++ ", got " ++
      Numeral.hex8 found
  | .other t => t

/-- The words for a request that makes no sense. -/
def Misuse.message : Misuse → String
  | .badPeer t => "invalid peer id `" ++ t ++ "`"
  | .entryTooLarge index => "entry " ++ text index ++ " is too large"
  | .recordTooLarge size => "record of " ++ text size ++ " bytes is too large"
  | .notInitialized what => what ++ " is not initialized"
  | .badOptions => "bad raft options: malformed value"
  | .noSnapshotUri => "snapshot_uri is not configured"
  | .notBool key value => key ++ "=" ++ value ++ " is not a bool"
  | .notNumber key value => key ++ "=" ++ value ++ " is not a number"
  | .schemeTaken kind scheme => kind ++ " storage `" ++ scheme ++ "` is already registered"
  | .resetToZero => "next_log_index must be positive"
  | .writerWithoutMeta => "snapshot writer has no meta"
  | .stillReferenced index => "snapshot " ++ text index ++ " is still referenced"
  | .badFileName name => "bad snapshot file name `" ++ name ++ "`"
  | .copyTakenTwice => "snapshot copier already joined"
  | .timerOutside => "timer needs a tokio runtime: none is running"
  | .snapshotTimerOutside => "snapshot timer needs a tokio runtime: none is running"
  | .other t => t

/-- The words for work that was given up. -/
def Interruption.message : Interruption → String
  | .superseded snapshot => "download of snapshot " ++ snapshot.text ++ " was interrupted"
  | .unfinished => "snapshot task did not finish: it broke an assertion"
  | .copyOf file => "copy of " ++ file ++ " cancelled"
  | .copyFrom directory => "copy from " ++ directory ++ " cancelled"
  | .other t => t

/-- The words for what stands in the way. -/
def Obstacle.message : Obstacle → String
  | .saving => "a snapshot is being saved"
  | .installing => "a snapshot is being installed"
  | .loading => "a snapshot is being loaded"
  | .olderThan current asked =>
    "snapshot " ++ current.text ++ " is downloading, " ++ asked.text ++ " is older"
  | .copies => "too many concurrent snapshot copies"
  | .other t => t

/-- The words for what is not there. -/
def Absence.message : Absence → String
  | .snapshot index => "snapshot " ++ text index
  | .other t => t

/-- The text of an error, as it is shown to operators. -/
def Error.message : Error → String
  | .io cause => "io error: " ++ cause.message
  | .serialization detail => "serialization error: " ++ detail
  | .corrupted damage => Damage.opening ++ damage.message
  | .unsupportedBackend name => "unsupported storage backend `" ++ name ++ "`"
  | .invalidUri t => "invalid uri `" ++ t ++ "`"
  | .invalidArgument misuse => "invalid argument: " ++ misuse.message
  | .staleInsert entry last =>
    "stale configuration insert: " ++ entry.text ++ " is not after " ++ last.text
  | .termMismatch request current =>
    "term mismatch: request term " ++ text request ++ ", current term " ++ text current
  | .interrupted why => "interrupted: " ++ why.message
  | .busy obstacle => "busy: " ++ obstacle.message
  | .stopped => "stopped"
  | .notFound what => "not found: " ++ what.message

/-- The name of the kind of an error. -/
def Error.kind : Error → String
  | .io _ => "Io"
  | .serialization _ => "Serialization"
  | .corrupted _ => "Corrupted"
  | .unsupportedBackend _ => "UnsupportedBackend"
  | .invalidUri _ => "InvalidUri"
  | .invalidArgument _ => "InvalidArgument"
  | .staleInsert .. => "StaleInsert"
  | .termMismatch .. => "TermMismatch"
  | .interrupted _ => "Interrupted"
  | .busy _ => "Busy"
  | .stopped => "Stopped"
  | .notFound _ => "NotFound"

/-- An error of a given kind with a text of one's own; for kinds that have no such text it is
none. -/
def Error.ofText? (kind text : String) : Option Error :=
  match kind with
  | "Io" => some (.io (.other text))
  | "Serialization" => some (.serialization text)
  | "Corrupted" => some (.corrupted (.other text))
  | "UnsupportedBackend" => some (.unsupportedBackend text)
  | "InvalidUri" => some (.invalidUri text)
  | "InvalidArgument" => some (.invalidArgument (.other text))
  | "Interrupted" => some (.interrupted (.other text))
  | "Busy" => some (.busy (.other text))
  | "Stopped" => some .stopped
  | "NotFound" => some (.notFound (.other text))
  | _ => none

/-- The outcomes that the protocol expects: callers retry or ignore them. -/
def Error.isProtocolOutcome : Error → Bool
  | .termMismatch .. | .interrupted _ | .busy _ => true
  | _ => false

/-! ### Broken assertions -/

/-- The assertions that callers can break. -/
inductive Violation
  | appendToClosed (first : Nat)
  | appendOutOfOrder
  | createClosed
  | closeTwice (first : Nat)
  | truncateBelowStart (last first : Nat)
  | appendGap (last : Nat)
  | truncateBelowFirst (last first : Nat)
  | floorMovedBack (new old : LogId)
  | outOfBounds
  | grantTooLarge
  | machine (text : String)
  deriving DecidableEq, Repr

/-- The text of a broken assertion; an index out of bounds has none. -/
def Violation.message? : Violation → Option String
  | .appendToClosed first => some ("append to closed segment " ++ text first)
  | .appendOutOfOrder => some "segment append out of order"
  | .createClosed => some "only open segments are created"
  | .closeTwice first => some ("segment " ++ text first ++ " is already closed")
  | .truncateBelowStart last first =>
    some ("truncate(" ++ text last ++ ") before segment start " ++ text first)
  | .appendGap last => some ("non-contiguous append: last_log_index=" ++ text last)
  | .truncateBelowFirst last first =>
    some ("truncate_suffix(" ++ text last ++ ") below first_log_index " ++ text first)
  | .floorMovedBack new old =>
    some ("snapshot watermark moved backwards: " ++ new.text ++ " < " ++ old.text)
  | .outOfBounds => none
  | .grantTooLarge => none
  | .machine t => some t

/-- How a call can end without a result. -/
inductive Failure
  | error (e : Error)
  | violation (v : Violation)
  deriving DecidableEq, Repr

end RaftReplica
