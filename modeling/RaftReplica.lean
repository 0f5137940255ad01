import RaftReplica.Text.Blank
import RaftReplica.Text.Fields
import RaftReplica.Text.Quoted
import RaftReplica.Bytes.Word
import RaftReplica.Bytes.Crc32
import RaftReplica.Entry
import RaftReplica.Membership.History
import RaftReplica.Json.Reader
import RaftReplica.Json.Records
import RaftReplica.Options
import RaftReplica.Uri
import RaftReplica.Ballot.Store
import RaftReplica.Log.Store
import RaftReplica.Snapshot.Copying
import RaftReplica.Snapshot.Throttle
import RaftReplica.Storages
import RaftReplica.Replica.Jobs
import RaftReplica.Timer.Basic
import RaftReplica.Directory
import RaftReplica.Bytes.Hex
import RaftReplica.Simulation.Scene
import RaftReplica.Proofs.Act
import RaftReplica.Proofs.Replica.Sections
import RaftReplica.Proofs.Timer.Lifecycle
import RaftReplica.Proofs.Replica.Interleaving
import RaftReplica.Proofs.Replica.Exclusive
import RaftReplica.Proofs.Disk.WellFormed
import RaftReplica.Proofs.Disk.Items
import RaftReplica.Proofs.Disk.Entries
import RaftReplica.Proofs.Disk.Crash
import RaftReplica.Proofs.Disk.Trees
import RaftReplica.Proofs.Log.FileName
import RaftReplica.Proofs.Peer
import RaftReplica.Proofs.Log.Frame
import RaftReplica.Proofs.Log.Encoding
import RaftReplica.Proofs.Json.Reader
import RaftReplica.Proofs.Json.RoundTrip
import RaftReplica.Proofs.Disk.Record
import RaftReplica.Proofs.Json.Records
import RaftReplica.Proofs.Disk.Outside
import RaftReplica.Proofs.Log.Start
import RaftReplica.Proofs.Log.Segment
import RaftReplica.Proofs.Log.Loading
import RaftReplica.Proofs.Log.Layout
import RaftReplica.Proofs.Log.Listing
import RaftReplica.Proofs.Log.Opening
import RaftReplica.Proofs.Log.Recovery
import RaftReplica.Proofs.Log.Standing
import RaftReplica.Proofs.Log.Stored
import RaftReplica.Proofs.Log.Append
import RaftReplica.Proofs.Log.TruncateBefore
import RaftReplica.Proofs.Log.TruncateAfter
import RaftReplica.Proofs.Log.Reset
import RaftReplica.Proofs.Log.Refinement
import RaftReplica.Proofs.Log.Refused
import RaftReplica.Proofs.Log.Reachable
import RaftReplica.Proofs.Log.Interrupted
import RaftReplica.Proofs.Replica.Latest
import RaftReplica.Proofs.Replica.Agreement
import RaftReplica.Proofs.Replica.Restart
import RaftReplica.Proofs.Replica.Installing
import RaftReplica.Proofs.Directory
import RaftReplica.Proofs.Ballot.Store
import RaftReplica.Proofs.Snapshot.Lifetime
import RaftReplica.Proofs.Membership.Floor
import RaftReplica.Proofs.Log.Torn
import RaftReplica.Proofs.Log.Flipped
import RaftReplica.Proofs.Replica.Taken
import RaftReplica.Proofs.Records
import RaftReplica.Proofs.Snapshot.Written
import RaftReplica.Proofs.Simulation.Copies
import RaftReplica.Proofs.Readable
import RaftReplica.Proofs.Uri
import RaftReplica.Proofs.Replica.Refused
import RaftReplica.Proofs.Log.Partial
import RaftReplica.Proofs.Parameters
import RaftReplica.Proofs.Membership.PeerSet
import RaftReplica.Proofs.Log.Shape
import RaftReplica.Proofs.Backends
