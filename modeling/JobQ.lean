import JobQ.Library.Machine
import JobQ.Library.Json
import JobQ.Library.JsonRoundTrip
import JobQ.Library.Dict
import JobQ.Library.Md5
import JobQ.Model.Entities
import JobQ.Library.Retry
import JobQ.Model.ServiceBusClient
import JobQ.Proof.Request
import JobQ.Proof.Push
import JobQ.Model.PullAndExecute
import JobQ.Model.HeartbeatWorker
import JobQ.Proof.Delivery.Cancellation
import JobQ.Proof.Delivery.Heartbeat
import JobQ.Proof.Delivery.LostLock
import JobQ.Proof.HeartbeatWorker
import JobQ.Library.AsyncQueue
import JobQ.Model.BatchEnqueue
import JobQ.Model.QueueSystem
import JobQ.Proof.BatchEnqueue.Steps
import JobQ.Proof.BatchEnqueue.Stuck
import JobQ.Proof.Delivery.Requests
import JobQ.Proof.QueueSystem.NoLoss
import JobQ.Proof.QueueSystem.Payload
import JobQ.Proof.QueueSystem.RetryBudget
import JobQ.Library.FairShare
import JobQ.Model.MultiRegionWorkforce
import JobQ.Proof.BatchEnqueue.ExactlyOnce
import JobQ.Proof.MultiRegionWorkforce.Distribution
import JobQ.Proof.MultiRegionWorkforce.Resume
import JobQ.Proof.Task.Id
import JobQ.Proof.Task.Wire
import JobQ.Library.Pool
import JobQ.Model.LaunchWorkers
import JobQ.Proof.LaunchWorkers.Steps
import JobQ.Proof.LaunchWorkers.LeftBehind
import JobQ.Proof.LaunchWorkers.Held
import JobQ.Proof.LaunchWorkers.NoNewTasks
import JobQ.Proof.LaunchWorkers.NotSwallowed
import JobQ.Model.Workforce
import JobQ.Proof.MultiRegionWorkforce.OverHire
import JobQ.Proof.LaunchWorkers.Preemption
import JobQ.Model.Syncer
import JobQ.Proof.Syncer.Files
import JobQ.Proof.Syncer.LostUpdate
import JobQ.Model.BackgroundDirSync
import JobQ.Proof.BackgroundDirSync.Steps
import JobQ.Proof.BackgroundDirSync.Shutdown
import JobQ.Proof.BackgroundDirSync.Flushed
import JobQ.Model.PidFile
import JobQ.Proof.PidFile
import JobQ.Model.ProcessPool
import JobQ.Proof.ProcessPool
import JobQ.Proof.ProcessPool.Canceled
import JobQ.Proof.Task.DeadLetter
import JobQ.Proof.Delivery.Contained
import JobQ.Proof.BatchEnqueue.Exposed
import JobQ.Proof.LaunchWorkers.Drain
import JobQ.Proof.LaunchWorkers.Escalation
import JobQ.Library.Streak
import JobQ.Proof.LaunchWorkers.Failures
import JobQ.Proof.Renewal.Warned
import JobQ.Proof.Renewal.Timing
import JobQ.Library.Sweep
import JobQ.Model.Workforce.Hire
import JobQ.Proof.Workforce.Hire
import JobQ.Proof.MultiRegionWorkforce.RunResult
import JobQ.Library.StableSort
import JobQ.Model.Workforce.LayOff
import JobQ.Proof.Workforce.Variants
import JobQ.Proof.Workforce.ScaleTo
import JobQ.Model.MapRegions
import JobQ.Proof.MultiRegionWorkforce.MapRegions
import JobQ.Proof.MultiRegionWorkforce.LastGood
import JobQ.Proof.MultiRegionWorkforce.Target
import JobQ.Library.Text
import JobQ.Model.ReadStream
import JobQ.Proof.ReadStream
import JobQ.Library.Glob
import JobQ.Model.SyncFilter
import JobQ.Proof.Syncer.Include
import JobQ.Proof.Syncer.Filters
import JobQ.Library.IntLiteral
import JobQ.Library.Fallible
import JobQ.Library.Files
import JobQ.Model.BackendSpec
import JobQ.Proof.BackendSpec
import JobQ.Model.Duration
import JobQ.Proof.Duration
import JobQ.Model.ScheduledEvents
import JobQ.Proof.ScheduledEvents
import JobQ.Model.CallPeriodically
import JobQ.Proof.CallPeriodically
import JobQ.Model.StackManager
import JobQ.Proof.StackManager
import JobQ.Model.CodeCache
import JobQ.Proof.CodeCache
import JobQ.Model.BlobFolder
import JobQ.Proof.BlobFolder
import JobQ.Model.SyncPass
import JobQ.Proof.Syncer.Pass
import JobQ.Proof.Syncer.Idempotent
import JobQ.Proof.Syncer.Follows
import JobQ.Library.FloatLiteral
import JobQ.Library.FloatRange
import JobQ.Model.Workforce.RequestWithRetry
import JobQ.Proof.Workforce.RequestWithRetry
import JobQ.Model.Workforce.ListJobs
import JobQ.Proof.Workforce.ListJobs
import JobQ.Model.Workforce.ExtraFilters
import JobQ.Proof.Workforce.ExtraFilters
import JobQ.Library.TtlCache
import JobQ.Model.LogCache
import JobQ.Proof.LogCache
import JobQ.Library.PeekLock
import JobQ.Model.ServiceBusQueue
import JobQ.Proof.ServiceBusQueue.NoLoss
import JobQ.Proof.ServiceBusQueue.Settled
import JobQ.Library.Clock
import JobQ.Model.RunCmd
import JobQ.Proof.RunCmd
import JobQ.Proof.RunCmd.Timing
import JobQ.Model.ShellCommand
import JobQ.Proof.ShellCommand
import JobQ.Proof.LaunchWorkers.Looking
import JobQ.Proof.QueueSystem.Grip
import JobQ.Proof.QueueSystem.Receipts
import JobQ.Proof.QueueSystem.Attended
import JobQ.Model.QueueWorkers
import JobQ.Proof.QueueWorkers.Steps
import JobQ.Proof.QueueWorkers.Drained
import JobQ.Model.WorkforceMonitor
import JobQ.Proof.WorkforceMonitor.Steps
import JobQ.Proof.WorkforceMonitor.Reached
import JobQ.Proof.WorkforceMonitor.Signalled
import JobQ.Proof.WorkforceMonitor.Once
import JobQ.Model.Autoscaler
import JobQ.Proof.Autoscaler.Steps
import JobQ.Proof.Autoscaler.Fleet
import JobQ.Proof.Autoscaler.Tick
import JobQ.Proof.Autoscaler.Reads
import JobQ.Proof.Autoscaler.Bounded
import JobQ.Proof.Autoscaler.LayOffs
import JobQ.Proof.Autoscaler.Spared
import JobQ.Proof.BackgroundDirSync.Output
