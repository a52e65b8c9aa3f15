import RpcPool.CommandLine
import RpcPool.Config.Storage
import RpcPool.Json.Data
import RpcPool.Log.Logger
import RpcPool.Main
import RpcPool.Manager.Journal
import RpcPool.Report
import RpcPool.Rpc.Address
import RpcPool.Rpc.Exchange
import RpcPool.StoredNames
import RpcPool.Proofs.Health
import RpcPool.Proofs.Pool
import RpcPool.Proofs.Instances
import RpcPool.Proofs.Sections
import RpcPool.Proofs.Turns
import RpcPool.Proofs.Run
import RpcPool.Proofs.Integrity
import RpcPool.Proofs.Unasked
import RpcPool.Proofs.Observers
import RpcPool.Proofs.Check
import RpcPool.Proofs.Callbacks
import RpcPool.Proofs.Undisturbed
import RpcPool.Proofs.Notifications
import RpcPool.Proofs.Batches
import RpcPool.Proofs.Reentrance
import RpcPool.Proofs.Isolation
import RpcPool.Proofs.Exclusion
import RpcPool.Proofs.History
import RpcPool.Proofs.Gathering
import RpcPool.Proofs.Alone
import RpcPool.Proofs.Descent
import RpcPool.Proofs.Sweep
import RpcPool.Proofs.Failover
import RpcPool.Proofs.Overtaken
import RpcPool.Proofs.Hysteresis
import RpcPool.Proofs.Chores
import RpcPool.Proofs.Moves
import RpcPool.Proofs.Tending
import RpcPool.Proofs.Ledger
import RpcPool.Proofs.Guarding
import RpcPool.Proofs.Punctual
import RpcPool.Proofs.Accounts
import RpcPool.Proofs.Deadlines
import RpcPool.Proofs.Solo
import RpcPool.Proofs.Broken
import RpcPool.Proofs.Alike
import RpcPool.Proofs.Joining
import RpcPool.Proofs.Confluence
import RpcPool.Proofs.Directory
import RpcPool.Proofs.Configured
import RpcPool.Proofs.Loops
import RpcPool.Proofs.Stops
import RpcPool.Proofs.Orders
import RpcPool.Proofs.Polled
import RpcPool.Proofs.Rhythm
import RpcPool.Proofs.Reset
import RpcPool.Proofs.Saving
import RpcPool.Proofs.Passwords
import RpcPool.Proofs.Rendering
import RpcPool.Proofs.Trees
import RpcPool.Proofs.Rotation
import RpcPool.Proofs.Mirror
import RpcPool.Proofs.Foremost
import RpcPool.Proofs.Preference
import RpcPool.Proofs.Groups
import RpcPool.Proofs.Listing
import RpcPool.Proofs.Outcomes
import RpcPool.Proofs.Refusals
import RpcPool.Proofs.Stability
import RpcPool.Proofs.Typed
import RpcPool.Proofs.Snapshots
import RpcPool.Proofs.Search
import RpcPool.Proofs.Redacted
import RpcPool.Proofs.LogSize
import RpcPool.Proofs.Archives
import RpcPool.Proofs.Storage
import RpcPool.Proofs.Encoding
import RpcPool.Proofs.Reading
import RpcPool.Proofs.Rereading
import RpcPool.Proofs.Addresses
