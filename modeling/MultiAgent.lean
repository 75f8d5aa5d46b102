import MultiAgent.Lib.Machine
import MultiAgent.Lib.Dict
import MultiAgent.Reliability.CircuitBreaker
import MultiAgent.Reliability.Saga
import MultiAgent.Security.TokenPool
import MultiAgent.Reliability.SagaTrace
import MultiAgent.Reliability.SagaCompensation
import MultiAgent.Reliability.SagaPosition
import MultiAgent.Reliability.SagaCancel
import MultiAgent.Reliability.SagaOutcome
import MultiAgent.Reliability.SagaStatistics
import MultiAgent.Adapters.SagaParallel
import MultiAgent.Adapters.SagaOutcome
import MultiAgent.Adapters.SagaMetrics
import MultiAgent.Lib.DepthFirst
import MultiAgent.Lib.Fallible
import MultiAgent.Lib.PyValue
import MultiAgent.Workflows.WorkflowSpec
import MultiAgent.Workflows.WorkflowData
import MultiAgent.Workflows.WorkflowLoader
import MultiAgent.Workflows.WorkflowExtends
import MultiAgent.Reliability.CircuitBreakerProbes
import MultiAgent.Adapters.CircuitBreaker
import MultiAgent.ModelGateway.CircuitBreaker
import MultiAgent.Adapters.ResilientAdapter
import MultiAgent.Security.ConcurrencyManager
import MultiAgent.Security.TenantTracking
import MultiAgent.Security.TenantLimits
import MultiAgent.Lib.Json
import MultiAgent.Lib.Once
import MultiAgent.Reliability.ToolAdapter
import MultiAgent.Reliability.ToolLedgers
import MultiAgent.Reliability.ToolIdempotency
import MultiAgent.Resilience.ToolAdapter
import MultiAgent.Resilience.ToolIdempotency
import MultiAgent.Resilience.Idempotency
import MultiAgent.Lib.LoggedTask
import MultiAgent.Resilience.ToolLog
import MultiAgent.Security.FairScheduler
import MultiAgent.Security.FairQueue
import MultiAgent.Security.WeightedFairness
import MultiAgent.Security.FairnessMiddleware
import MultiAgent.Lib.TokenBucket
import MultiAgent.Security.TokenBucket
import MultiAgent.Clients.RateLimiter
import MultiAgent.Security.TokenBucketRedis
import MultiAgent.Clients.QuotaEnforcer
import MultiAgent.ModelGateway.RateLimiter
import MultiAgent.Lib.Calendar
import MultiAgent.Lib.WindowSum
import MultiAgent.Performance.CostWindow
import MultiAgent.Performance.CostCeiling
import MultiAgent.Performance.CostSpending
import MultiAgent.Performance.CostBlocking
import MultiAgent.Lib.Positions
import MultiAgent.Events.DLQHandler
import MultiAgent.Events.DLQRemovals
import MultiAgent.Lib.Split
import MultiAgent.Events.NATSClient
import MultiAgent.Events.NATSDeadLetters
import MultiAgent.Events.NATSDelivery
import MultiAgent.Events.DLQProcessor
import MultiAgent.Lib.TaskLock
import MultiAgent.Events.EventStore
import MultiAgent.Events.EventProducer
import MultiAgent.Events.EventLocks
import MultiAgent.Events.ProducerStop
import MultiAgent.Lib.Expiry
import MultiAgent.SemanticCache.CacheManager
import MultiAgent.SemanticCache.CacheInterleaving
import MultiAgent.SemanticCache.CacheExpiry
import MultiAgent.Lib.ReadyPass
import MultiAgent.Infrastructure.DRRunbooks
import MultiAgent.Infrastructure.RunbookOrder
import MultiAgent.Lib.Splice
import MultiAgent.Middleware.PrivacyMiddleware
import MultiAgent.Middleware.PrivacyRedaction
import MultiAgent.Middleware.PrivacyResponse
import MultiAgent.Middleware.CallNext
import MultiAgent.Clients.RequestHedging
import MultiAgent.Infrastructure.FailoverManager
import MultiAgent.Clients.CoordinatedCancellation
import MultiAgent.Clients.CancellationOutcome
import MultiAgent.Lib.Noninterference
import MultiAgent.SemanticCache.TenantKeys
import MultiAgent.SemanticCache.SharedRedis
import MultiAgent.SemanticCache.RedisFrames
import MultiAgent.SemanticCache.TenantIsolation
import MultiAgent.SemanticCache.TenantView
import MultiAgent.Security.RowLevelSecurity
import MultiAgent.Security.Authentication
import MultiAgent.Security.AccountLockout
import MultiAgent.Security.FieldEncryption
import MultiAgent.Security.KeyRotation
import MultiAgent.Events.NATSEventBus
import MultiAgent.Middleware.ContractValidation
import MultiAgent.Middleware.ContractMiddleware
import MultiAgent.Security.CVEGates
import MultiAgent.Security.CVEGateLaw
import MultiAgent.Infrastructure.ReplicationTasks
import MultiAgent.Infrastructure.ReplicationPause
import MultiAgent.Lib.Following
import MultiAgent.Workflows.WorkflowErrors
import MultiAgent.Workflows.WorkflowTermination
import MultiAgent.Workflows.WorkflowOverlays
import MultiAgent.Lib.ObjectHeap
import MultiAgent.Lib.DryRun
import MultiAgent.Workflows.WorkflowObjects
import MultiAgent.Workflows.WorkflowAliasing
import MultiAgent.Workflows.WorkflowFrame
import MultiAgent.Workflows.WorkflowCycles
import MultiAgent.Workflows.WorkflowInsertion
import MultiAgent.Workflows.WorkflowChain
import MultiAgent.Workflows.WorkflowMerge
import MultiAgent.Lib.ObjectValues
import MultiAgent.Workflows.WorkflowMergeObjects
import MultiAgent.Lib.KeyedEdits
import MultiAgent.Workflows.WorkflowMutations
import MultiAgent.Lib.SameValue
import MultiAgent.Orchestrator.WorkflowFiles
import MultiAgent.Orchestrator.WorkflowExport
import MultiAgent.Orchestrator.WorkflowValidation
import MultiAgent.Lib.Permits
import MultiAgent.Reliability.BulkheadCalls
import MultiAgent.Lib.ForLoop
import MultiAgent.Adapters.RetryLoops
import MultiAgent.Adapters.RetryAgreement
import MultiAgent.Security.AdmissionOrder
import MultiAgent.Security.SchedulerMetrics
import MultiAgent.Security.TokenBucketRetry
import MultiAgent.Lib.SlidingWindow
import MultiAgent.Adapters.RateLimiter
import MultiAgent.Security.RateLimitMiddleware
import MultiAgent.Security.SlidingWindows
import MultiAgent.Performance.CostQueries
import MultiAgent.Adapters.RetryDecorator
import MultiAgent.Adapters.Decorators
import MultiAgent.Resilience.RecoveryAttempts
import MultiAgent.Lib.Document
import MultiAgent.Lib.PrefixCode
import MultiAgent.Lib.DocumentText
import MultiAgent.Lib.PythonText
import MultiAgent.Lib.PythonFormats
import MultiAgent.Reliability.IdempotencyKeys
import MultiAgent.Lib.Decimal
import MultiAgent.Lib.Paging
import MultiAgent.Events.DLQPages
import MultiAgent.Clients.TimeoutManager
import MultiAgent.SemanticCache.RetrieveBest
import MultiAgent.Orchestrator.CapacityConfig
import MultiAgent.Router.SchemaValidator
import MultiAgent.Router.SchemaConformance
import MultiAgent.Lib.Average
import MultiAgent.Router.NoveltyDetector
import MultiAgent.Router.NoveltyHistory
import MultiAgent.Router.HistoricalTracker
import MultiAgent.Router.MisrouteRate
import MultiAgent.Lib.Regex
import MultiAgent.Lib.SpliceCover
import MultiAgent.Security.PIIDetector
import MultiAgent.Security.RedactionCover
import MultiAgent.Lib.Validated
import MultiAgent.Contracts.ToolSpec
import MultiAgent.Contracts.ToolSpecPayloads
import MultiAgent.Contracts.ToolSpecConstruction
import MultiAgent.Middleware.NestedContracts
import MultiAgent.Middleware.LogSanitizer
import MultiAgent.Middleware.LogSanitizerLaw
import MultiAgent.Lib.PathSearch
import MultiAgent.Security.InputValidator
import MultiAgent.Security.CircularReferences
import MultiAgent.Security.InputGuarantee
import MultiAgent.Security.Permissions
import MultiAgent.Security.EncryptedDictionaries
import MultiAgent.Security.VulnerabilityMarks
import MultiAgent.Lib.BoundedDeque
import MultiAgent.Security.ThreatDetection
import MultiAgent.Observability.SLOManager
import MultiAgent.Observability.ErrorBudgetLaw
import MultiAgent.Infrastructure.RunbookExecutions
import MultiAgent.Lib.PastTime
import MultiAgent.Adapters.HealthChecker
import MultiAgent.Security.TenantRateLimiter
import MultiAgent.Infrastructure.KEDAScaler
import MultiAgent.Lib.ListIteration
import MultiAgent.Realtime.ConnectionManager
import MultiAgent.Clients.CancellationRequests
import MultiAgent.Resilience.ResiliencePatterns
import MultiAgent.ModelGateway.ChatCompletions
import MultiAgent.ModelGateway.CompletionAccounts
import MultiAgent.Lib.OrderStatistics
import MultiAgent.Performance.BaselineManager
import MultiAgent.Performance.PerformanceGates
import MultiAgent.Lib.Luhn
import MultiAgent.Evaluation.EpisodeReplay
import MultiAgent.Events.EventConsumer
