import RarmDb.Data.Decimal
import RarmDb.Data.Hash
import RarmDb.Data.Record
import RarmDb.Data.Schema
import RarmDb.Data.TypeName
import RarmDb.Data.Value
import RarmDb.Disk.Backing
import RarmDb.Disk.Exhaustion
import RarmDb.Disk.Handle
import RarmDb.Disk.Indices
import RarmDb.Disk.Model
import RarmDb.Disk.Reads
import RarmDb.Disk.Shared
import RarmDb.Disk.Tables
import RarmDb.Leaf.Accept
import RarmDb.Leaf.Append
import RarmDb.Leaf.Atomic
import RarmDb.Leaf.Backward
import RarmDb.Leaf.Chain
import RarmDb.Leaf.Collect
import RarmDb.Leaf.Entries
import RarmDb.Leaf.Growth
import RarmDb.Leaf.Header
import RarmDb.Leaf.Map
import RarmDb.Leaf.Merge
import RarmDb.Leaf.Model
import RarmDb.Leaf.Pointers
import RarmDb.Leaf.Probes
import RarmDb.Leaf.Redistribute
import RarmDb.Leaf.Scan
import RarmDb.Leaf.Search
import RarmDb.Leaf.Split
import RarmDb.Lib.Bisect
import RarmDb.Lib.Buffer
import RarmDb.Lib.Bytes
import RarmDb.Lib.CacheProtocol
import RarmDb.Lib.CacheWaits
import RarmDb.Lib.Exec
import RarmDb.Lib.Ghost
import RarmDb.Lib.Linked
import RarmDb.Lib.Locked
import RarmDb.Lib.PinProtocol
import RarmDb.Lib.Ranges
import RarmDb.Lib.Refine
import RarmDb.Lib.SortedMap
import RarmDb.Lib.TableProtocol
import RarmDb.Lib.Text
import RarmDb.Page.Checked
import RarmDb.Page.Compact
import RarmDb.Page.Header
import RarmDb.Page.Layout
import RarmDb.Page.Model
import RarmDb.Page.Ops
import RarmDb.Page.Refine
import RarmDb.Page.Space
import RarmDb.Pool.Blank
import RarmDb.Pool.Calls
import RarmDb.Pool.Clock
import RarmDb.Pool.Coherent
import RarmDb.Pool.Create
import RarmDb.Pool.Effect
import RarmDb.Pool.Evictor
import RarmDb.Pool.Frames
import RarmDb.Pool.Full
import RarmDb.Pool.Invariant
import RarmDb.Pool.Locks
import RarmDb.Pool.Model
import RarmDb.Pool.Outcome
import RarmDb.Pool.Queue
import RarmDb.Pool.Runs
import RarmDb.Pool.Store
import RarmDb.Pool.Unallocated
import RarmDb.Record.Accept
import RarmDb.Record.Codec
import RarmDb.Record.Compatible
import RarmDb.Record.Decodable
import RarmDb.Record.Key
import RarmDb.Record.Layout
import RarmDb.Record.Precision
import RarmDb.Record.Reread
import RarmDb.Record.RoundTrip
import RarmDb.Record.Typed
import RarmDb.Tasks.Cache
import RarmDb.Tasks.Counts
import RarmDb.Tasks.Fair
import RarmDb.Tasks.Files
import RarmDb.Tasks.Guards
import RarmDb.Tasks.Holders
import RarmDb.Tasks.Images
import RarmDb.Tasks.Latest
import RarmDb.Tasks.Leaves
import RarmDb.Tasks.Loads
import RarmDb.Tasks.Model
import RarmDb.Tasks.Moves
import RarmDb.Tasks.Pins
import RarmDb.Tasks.Reads
import RarmDb.Tasks.Returns
import RarmDb.Tasks.Stored
import RarmDb.Tasks.Suspended
import RarmDb.Tasks.Table
import RarmDb.Tasks.Traces
import RarmDb.Tasks.Traffic
import RarmDb.Tasks.Waits
