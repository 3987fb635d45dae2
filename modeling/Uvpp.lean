import Uvpp.Machine.Run
import Uvpp.Machine.Count
import Uvpp.Machine.Ring
import Uvpp.Machine.Integral
import Uvpp.Machine.Chrono
import Uvpp.Machine.History
import Uvpp.Machine.Throwing
import Uvpp.Machine.Storage
import Uvpp.Core.Errno
import Uvpp.Cancel.StopList
import Uvpp.Cancel.Memory
import Uvpp.Cancel.Stops
import Uvpp.Cancel.Reentry
import Uvpp.Close.State
import Uvpp.Close.Life
import Uvpp.Close.Settle
import Uvpp.Close.Owner
import Uvpp.Close.Process
import Uvpp.Close.Exit
import Uvpp.Close.Deletion
import Uvpp.Task.Await
import Uvpp.Scope.Model
import Uvpp.Scope.Stop
import Uvpp.Scope.Kids
import Uvpp.Scope.Join
import Uvpp.Scope.Adopt
import Uvpp.Callback.Slot
import Uvpp.Callback.Lending
import Uvpp.Spawn.Model
import Uvpp.Spawn.Life
import Uvpp.Spawn.Project
import Uvpp.Spawn.Lifetime
import Uvpp.Spawn.Outcome
import Uvpp.Spawn.Report
import Uvpp.Queue.Fifo
import Uvpp.Posting.Model
import Uvpp.Posting.Component
import Uvpp.Posting.Exclusion
import Uvpp.Posting.Progress
import Uvpp.Posting.Contract
import Uvpp.Wait.Model
import Uvpp.Wait.Forms
import Uvpp.Wait.Moves
import Uvpp.Wait.Coupling
import Uvpp.Wait.Contract
import Uvpp.Wait.Summary
import Uvpp.Wait.FsEvent
import Uvpp.Wait.Confined
import Uvpp.Resource.Model
import Uvpp.Resource.Books
import Uvpp.Resource.Attempt
import Uvpp.Resource.Contract
import Uvpp.Raw.Stream
import Uvpp.Raw.Udp
import Uvpp.Raw.Watcher
import Uvpp.Raw.Selection
import Uvpp.Raw.Request
import Uvpp.Raw.Completion
import Uvpp.Provisional.Model
import Uvpp.Provisional.Protocol
import Uvpp.Provisional.Contract
import Uvpp.Stream.Write
import Uvpp.Stream.Export
import Uvpp.Poll.Init
import Uvpp.Poll.Rollback
import Uvpp.Poll.Source
import Uvpp.Poll.Polling
import Uvpp.Sleep.Model
import Uvpp.Sleep.Contract
import Uvpp.Sleep.Timeout
import Uvpp.Pool.Model
import Uvpp.Pool.Forms
import Uvpp.Pool.Story
import Uvpp.Pool.Files
import Uvpp.Pool.Lists
import Uvpp.Pool.Records
import Uvpp.Pool.Contract
import Uvpp.Pool.Request
import Uvpp.Receive.Model
import Uvpp.Receive.Drain
import Uvpp.Receive.Finish
import Uvpp.Receive.Books
import Uvpp.Receive.Ends
import Uvpp.Receive.Contract
import Uvpp.SendBatch.Model
import Uvpp.SendBatch.Refine
import Uvpp.SendBatch.Programs
import Uvpp.SendBatch.Contract
import Uvpp.Operation.World
import Uvpp.Operation.Awaiters
import Uvpp.Operation.Run
import Uvpp.Operation.Books
import Uvpp.Operation.Bound
import Uvpp.Operation.Bodies
import Uvpp.Operation.Steps
import Uvpp.Operation.Affinity
import Uvpp.Operation.Regions
import Uvpp.Process.Raw
import Uvpp.System.Text
