import CuckooEcho.Lib.Run
import CuckooEcho.Lib.Noninterference
import CuckooEcho.Lib.ReadCommitted
import CuckooEcho.Lib.Serial
import CuckooEcho.Lib.ExpiringCounters
import CuckooEcho.Lib.Lines
import CuckooEcho.Lib.Json.Parse
import CuckooEcho.Lib.Json.Size
import CuckooEcho.Lib.Json.Print
import CuckooEcho.Lib.StateGraph
import CuckooEcho.Lib.Pattern
import CuckooEcho.Lib.Python
import CuckooEcho.Agent.State
import CuckooEcho.Agent.Preprocess
import CuckooEcho.Agent.Router
import CuckooEcho.Agent.Tools
import CuckooEcho.Agent.Retrieval
import CuckooEcho.Agent.Generate
import CuckooEcho.Agent.Guardrails
import CuckooEcho.Agent.Graph
import CuckooEcho.Agent.Thread
import CuckooEcho.Chat.Frames
import CuckooEcho.Chat.Stream
import CuckooEcho.Chat.Corrections
import CuckooEcho.Chat.History
import CuckooEcho.Chat.Reply
import CuckooEcho.Chat.Handoff
import CuckooEcho.Chat.Service
import CuckooEcho.Chat.ThreadLock
import CuckooEcho.Chat.TokenQueue
import CuckooEcho.Chat.Delivery
import CuckooEcho.Chat.Isolation
import CuckooEcho.Frontend.SseClient
import CuckooEcho.Frontend.TokenRoundTrip
import CuckooEcho.Frontend.AuthStore
import CuckooEcho.Admin.Auth
import CuckooEcho.Frontend.AdminSession
import CuckooEcho.Frontend.ApiClient
import CuckooEcho.Frontend.ArrivedReply
import CuckooEcho.Frontend.UnauthorizedCalls
import CuckooEcho.Frontend.ChatStore
import CuckooEcho.Frontend.ThreadSwitch
import CuckooEcho.Frontend.StreamedReply
import CuckooEcho.Frontend.SseConnection
import CuckooEcho.Frontend.WsClient
import CuckooEcho.Frontend.WsConnection
import CuckooEcho.Hitl.Schema
import CuckooEcho.Hitl.Sessions
import CuckooEcho.Hitl.ThreadStatus
import CuckooEcho.Hitl.Transactions
import CuckooEcho.Hitl.Serial
import CuckooEcho.Hitl.Resolution
import CuckooEcho.Hitl.Escalation
import CuckooEcho.Shared.CircuitBreaker
import CuckooEcho.Shared.Admission
import CuckooEcho.Shared.Evidence
import CuckooEcho.Shared.Recovery
import CuckooEcho.Gateway.RateLimit
import CuckooEcho.Gateway.RequestLimit
import CuckooEcho.Gateway.Lockout
import CuckooEcho.Gateway.Isolation
import CuckooEcho.Gateway.LimitChange
import CuckooEcho.Lib.Text
import CuckooEcho.Knowledge.Chunker
import CuckooEcho.Knowledge.Coverage
import CuckooEcho.Knowledge.Repetition
import CuckooEcho.Chat.Context
import CuckooEcho.Agent.PrivateInputs
import CuckooEcho.Agent.SearchBreaker
import CuckooEcho.Shared.SemanticCache
import CuckooEcho.Chat.SharedCache
import CuckooEcho.Chat.Intervention
import CuckooEcho.Chat.Unresolved
import CuckooEcho.Feedback.Schema
import CuckooEcho.Feedback.Toggle
import CuckooEcho.Feedback.Stats
import CuckooEcho.Feedback.Ratings
import CuckooEcho.Feedback.Scopes
import CuckooEcho.Lib.Interleaving
import CuckooEcho.Billing.Accounts
import CuckooEcho.Billing.Limit
import CuckooEcho.Agent.TokenUsage
import CuckooEcho.Billing.Usage
import CuckooEcho.Knowledge.Worker
import CuckooEcho.Knowledge.Exclusive
import CuckooEcho.Knowledge.Indexing
import CuckooEcho.Knowledge.Deletion
import CuckooEcho.Lib.Dict
import CuckooEcho.Knowledge.ChunkShape
import CuckooEcho.Knowledge.Provenance
import CuckooEcho.Knowledge.Settling
import CuckooEcho.Knowledge.Termination
import CuckooEcho.Frontend.SseReads
import CuckooEcho.Shared.OpeningRule
import CuckooEcho.Shared.PluginSystem
import CuckooEcho.Shared.LivePlugins
import CuckooEcho.Shared.WebhookService
import CuckooEcho.Shared.WebhookDeliveries
import CuckooEcho.Gateway.TokenBucket
import CuckooEcho.Admin.HitlSockets
import CuckooEcho.Admin.Broadcast
import CuckooEcho.Admin.Confidential
import CuckooEcho.Shared.CacheBackend
import CuckooEcho.Shared.CacheEquivalence
import CuckooEcho.Shared.Rbac
import CuckooEcho.Billing.CheckLimit
import CuckooEcho.Billing.Plans
import CuckooEcho.Billing.PlanDeletions
import CuckooEcho.Lib.Ranking
import CuckooEcho.Lib.PatternSearch
import CuckooEcho.Agent.RetrievedContext
import CuckooEcho.Agent.RuleRouting
import CuckooEcho.Agent.Compression
import CuckooEcho.Chat.LatestMessage
import CuckooEcho.Chat.CachedReply
import CuckooEcho.Shared.CacheValidity
import CuckooEcho.Lib.Backoff
import CuckooEcho.Frontend.Reconnects
import CuckooEcho.Lib.StableMerge
import CuckooEcho.Frontend.Reconciliation
import CuckooEcho.Lib.Json.Stringify
import CuckooEcho.Lib.OrderedStore
import CuckooEcho.Frontend.ThreadCache
import CuckooEcho.Frontend.CacheLimits
import CuckooEcho.Agent.ToolRegistry
import CuckooEcho.Agent.ToolExecutor
import CuckooEcho.Agent.ToolFailures
import CuckooEcho.Agent.ParallelTools
import CuckooEcho.Agent.ToolDispatch
import CuckooEcho.Shared.RankFusion
import CuckooEcho.Chat.HistoryRoute
import CuckooEcho.Frontend.FieldMapper
import CuckooEcho.Frontend.NestedResponse
import CuckooEcho.Frontend.LoadedHistory
import CuckooEcho.Lib.PatternLanguage
import CuckooEcho.Lib.Redaction
import CuckooEcho.Shared.PiiDetector
import CuckooEcho.Agent.SafetyGuardrails
import CuckooEcho.Agent.OutputInspection
import CuckooEcho.Feedback.Submission
import CuckooEcho.Agent.SessionManager
import CuckooEcho.Lib.Json.Dumps
import CuckooEcho.Chat.Experiments
import CuckooEcho.Chat.ExperimentStorage
import CuckooEcho.Chat.ExperimentResults
import CuckooEcho.Shared.Analytics
import CuckooEcho.Admin.Metrics
import CuckooEcho.Lib.Greedy
import CuckooEcho.Shared.ContextCompressor
import CuckooEcho.Shared.ContextOptimizer
import CuckooEcho.Lib.Substitution
import CuckooEcho.Agent.PromptReading
import CuckooEcho.Agent.PromptRendering
import CuckooEcho.Agent.PromptTemplate
import CuckooEcho.Frontend.KnowledgeDocs
import CuckooEcho.Frontend.AdminStore
import CuckooEcho.Frontend.HitlPanel
import CuckooEcho.Lib.Leases
import CuckooEcho.Agent.Orchestrator
import CuckooEcho.Agent.Delegation
import CuckooEcho.Agent.AgentLeases
import CuckooEcho.Agent.TaskOutcomes
import CuckooEcho.Agent.SharedContext
import CuckooEcho.Agent.MemoryManager
import CuckooEcho.Shared.TemplateConditions
import CuckooEcho.Shared.TemplateRendering
import CuckooEcho.Shared.PromptVersioning
import CuckooEcho.Shared.Reranker
import CuckooEcho.Chat.StreamBuffers
import CuckooEcho.Shared.ChunkSpans
import CuckooEcho.Shared.ChunkSizes
import CuckooEcho.Shared.ApiMarketplace
import CuckooEcho.Shared.ApiKeys
import CuckooEcho.Shared.CustomerSuccess
import CuckooEcho.Frontend.JwtPayload
import CuckooEcho.Knowledge.Windows
import CuckooEcho.Lib.Inevitable
import CuckooEcho.Chat.Completion
import CuckooEcho.Frontend.CachedThreads
import CuckooEcho.Frontend.DocumentPolling
import CuckooEcho.Hitl.Draining
