import EmbeddedMongo.Conc.System
import EmbeddedMongo.Conc.Tally
import EmbeddedMongo.Conc.Monitor
import EmbeddedMongo.Options
import EmbeddedMongo.Error
import EmbeddedMongo.Bson
import EmbeddedMongo.Find
import EmbeddedMongo.Nonblocking.State
import EmbeddedMongo.Nonblocking.Queue
import EmbeddedMongo.Nonblocking.Shutdown
import EmbeddedMongo.Nonblocking.Workers
import EmbeddedMongo.Nonblocking.Counts
import EmbeddedMongo.Nonblocking.Jobs
import EmbeddedMongo.Nonblocking.Wakeups
import EmbeddedMongo.Nonblocking.Rendezvous
import EmbeddedMongo.Nonblocking.Rest
import EmbeddedMongo.Nonblocking.Delivery
import EmbeddedMongo.Nonblocking.Close
import EmbeddedMongo.Nonblocking.Owner
import EmbeddedMongo.Pool.Slot
import EmbeddedMongo.Pool.Reaper
import EmbeddedMongo.Pool.Sessions
import EmbeddedMongo.Pool.Ledger
import EmbeddedMongo.Pool.Floor
import EmbeddedMongo.Pool.Wakeups
import EmbeddedMongo.Pool.Interrupt
import EmbeddedMongo.Nonblocking.Find
import EmbeddedMongo.Nonblocking.Reading
import EmbeddedMongo.Nonblocking.Abandon
import EmbeddedMongo.Nonblocking.Shrink
import EmbeddedMongo.Pool.Close
import EmbeddedMongo.Conc.Critical
import EmbeddedMongo.Conc.Tenancy
import EmbeddedMongo.Limits.Knobs
import EmbeddedMongo.Limits.Process
import EmbeddedMongo.Limits.Moves
import EmbeddedMongo.Limits.Opens
import EmbeddedMongo.Android.Cancellation
import EmbeddedMongo.Android.Racing
import EmbeddedMongo.Android.BridgeError
import EmbeddedMongo.Android.StorageOptions
import EmbeddedMongo.Android.FreeDiskFloorAtOpen
import EmbeddedMongo.Conc.Reruns
import EmbeddedMongo.Repair.Marker
import EmbeddedMongo.Repair.Report
import EmbeddedMongo.Repair.Commands
import EmbeddedMongo.Repair.Pass
import EmbeddedMongo.Repair.Checked
import EmbeddedMongo.Repair.Marked
import EmbeddedMongo.Android.Handle
import EmbeddedMongo.Android.Registry
import EmbeddedMongo.Android.Closing
import EmbeddedMongo.Fmt.Bytes
import EmbeddedMongo.Fmt.Checked
import EmbeddedMongo.Wire.Parser
import EmbeddedMongo.Wire.Grammar
import EmbeddedMongo.Wire.Exact
import EmbeddedMongo.Wire.Inverse
import EmbeddedMongo.Wire.Merge
import EmbeddedMongo.Pool.Stale
import EmbeddedMongo.Native.Ownership
import EmbeddedMongo.Nonblocking.Checkouts
import EmbeddedMongo.Android.Opening
import EmbeddedMongo.Android.CursorFlow
import EmbeddedMongo.Android.CursorKills
import EmbeddedMongo.Nonblocking.CursorOwner
import EmbeddedMongo.Conc.Generator
import EmbeddedMongo.Cursors.Paging
import EmbeddedMongo.Cursors.Blocking
import EmbeddedMongo.Cursors.Alike
import EmbeddedMongo.Android.Ids
import EmbeddedMongo.Nonblocking.Burst
import EmbeddedMongo.Nonblocking.Exact
import EmbeddedMongo.Android.ErrorCodes
import EmbeddedMongo.Repair.Recording
import EmbeddedMongo.Android.CommandReply
import EmbeddedMongo.Android.Durability
import EmbeddedMongo.Android.Journalled
import EmbeddedMongo.Android.OpenWithOptions
import EmbeddedMongo.Fmt.Stream
import EmbeddedMongo.Node.Frames
import EmbeddedMongo.Node.Serve
import EmbeddedMongo.Node.Framing
import EmbeddedMongo.Node.ReplyId
import EmbeddedMongo.Bindings.AsyncClient
import EmbeddedMongo.Bindings.NativeClient
import EmbeddedMongo.Build.Cache
import EmbeddedMongo.Build.Racing
import EmbeddedMongo.Conc.Aloud
import EmbeddedMongo.Conc.Arc
import EmbeddedMongo.Ffi.Client
import EmbeddedMongo.Ffi.Lifetimes
import EmbeddedMongo.Repair.Announce
import EmbeddedMongo.Android.Facade
import EmbeddedMongo.Android.FacadeClosing
import EmbeddedMongo.Bindings.Connection
import EmbeddedMongo.Bindings.Pool
import EmbeddedMongo.Bindings.Wait
import EmbeddedMongo.Android.CollectionInserts
