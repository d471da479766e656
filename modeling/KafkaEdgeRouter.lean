import KafkaEdgeRouter.AtomicProgram
import KafkaEdgeRouter.ProgramViews
import KafkaEdgeRouter.AssociationMap
import KafkaEdgeRouter.RouteKeys
import KafkaEdgeRouter.InvertedIndex
import KafkaEdgeRouter.EventHistory
import KafkaEdgeRouter.BoundedChannel
import KafkaEdgeRouter.ThreadPool
import KafkaEdgeRouter.ProgramTraces
import KafkaEdgeRouter.ThreadAccounts
import KafkaEdgeRouter.LockedData
import KafkaEdgeRouter.InterleavedRuns
import KafkaEdgeRouter.RouterOperations
import KafkaEdgeRouter.IndexConsistency
import KafkaEdgeRouter.RouterProtocol
import KafkaEdgeRouter.DispatchRefinement
import KafkaEdgeRouter.GaugeAccounts
import KafkaEdgeRouter.RejectedCalls
import KafkaEdgeRouter.RouterAccesses
import KafkaEdgeRouter.DeliveryOrder
import KafkaEdgeRouter.ConsumerIsolation
import KafkaEdgeRouter.StrikePolicy
import KafkaEdgeRouter.SlowConsumers
import KafkaEdgeRouter.CrashRestart
import KafkaEdgeRouter.PartitionedLog
import KafkaEdgeRouter.RecordSize
import KafkaEdgeRouter.AttemptBounds
import KafkaEdgeRouter.RetrySchedules
import KafkaEdgeRouter.SourceCommits
import KafkaEdgeRouter.WebhookLockstep
import KafkaEdgeRouter.WebhookStartup
import KafkaEdgeRouter.WebhookManager
import KafkaEdgeRouter.EgressChecks
import KafkaEdgeRouter.WireEncoding
import KafkaEdgeRouter.SizeLimits
import KafkaEdgeRouter.RecordRoundTrip
import KafkaEdgeRouter.HeaderInvariance
import KafkaEdgeRouter.FallbackIds
import KafkaEdgeRouter.LimitCoherence
import KafkaEdgeRouter.KafkaKeys
import KafkaEdgeRouter.PublishContract
import KafkaEdgeRouter.AbuseWindows
import KafkaEdgeRouter.ReadinessHistory
import KafkaEdgeRouter.LatencyHistogram
import KafkaEdgeRouter.ProgramNotes
import KafkaEdgeRouter.ConnectionOwners
import KafkaEdgeRouter.OwnedCalls
import KafkaEdgeRouter.StreamRequests
import KafkaEdgeRouter.StreamingSessions
import KafkaEdgeRouter.SessionLedger
import KafkaEdgeRouter.SessionPrograms
import KafkaEdgeRouter.SessionTurns
import KafkaEdgeRouter.WebhookSessions
import KafkaEdgeRouter.SessionThreads
import KafkaEdgeRouter.CredentialTenants
import KafkaEdgeRouter.SessionSystem
import KafkaEdgeRouter.TenantIsolation
import KafkaEdgeRouter.LockDiscipline
import KafkaEdgeRouter.ServerProgress
import KafkaEdgeRouter.SessionReplies
