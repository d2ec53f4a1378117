import QuikSyncAdapters.Library.Machine
import QuikSyncAdapters.Library.Schedules
import QuikSyncAdapters.Library.Deduplication
import QuikSyncAdapters.Library.Pipelines
import QuikSyncAdapters.Library.Amortised
import QuikSyncAdapters.Library.LeaseLock
import QuikSyncAdapters.Library.LeaseRuns
import QuikSyncAdapters.Library.LeaseNaming
import QuikSyncAdapters.Library.EventLoop
import QuikSyncAdapters.Library.PyValue
import QuikSyncAdapters.Library.Rounding
import QuikSyncAdapters.Library.Fallible
import QuikSyncAdapters.Library.ObjectStore
import QuikSyncAdapters.Library.Registry
import QuikSyncAdapters.Library.Retry
import QuikSyncAdapters.Library.Scrubbing
import QuikSyncAdapters.Library.SlidingWindow
import QuikSyncAdapters.Library.Trimming
import QuikSyncAdapters.Library.UrlQuery
import QuikSyncAdapters.Client.Exceptions
import QuikSyncAdapters.Client.Auth
import QuikSyncAdapters.Client.RefreshThreshold
import QuikSyncAdapters.Client.MintStep
import QuikSyncAdapters.Client.Redaction
import QuikSyncAdapters.Client.RosRequest
import QuikSyncAdapters.Client.Http
import QuikSyncAdapters.Client.HttpRetry
import QuikSyncAdapters.Client.RetryContract
import QuikSyncAdapters.Client.ResponseStatus
import QuikSyncAdapters.Client.Endpoints
import QuikSyncAdapters.Client.Addressing
import QuikSyncAdapters.Client.MintOutcomes
import QuikSyncAdapters.Client.TokenRuns
import QuikSyncAdapters.Client.Revocations
import QuikSyncAdapters.Client.SharedToken
import QuikSyncAdapters.Client.Ws
import QuikSyncAdapters.Client.WsBreaker
import QuikSyncAdapters.Client.WsReconnects
import QuikSyncAdapters.Client.WsBackoff
import QuikSyncAdapters.Client.WsSurvival
import QuikSyncAdapters.Client.WsFrames
import QuikSyncAdapters.Client.WsUrl
import QuikSyncAdapters.Pump.StatePump
import QuikSyncAdapters.Pump.Dispatch
import QuikSyncAdapters.Pump.Lifecycle
import QuikSyncAdapters.Pump.Subscriptions
import QuikSyncAdapters.Pump.Deliveries
import QuikSyncAdapters.Pump.NodeThreads
import QuikSyncAdapters.Pump.NodeStops
import QuikSyncAdapters.Pump.NodeEnds
import QuikSyncAdapters.Pump.NodeShutdown
import QuikSyncAdapters.Lift.SessionManager
import QuikSyncAdapters.Lift.SessionRefinement
import QuikSyncAdapters.Lift.SessionRuns
import QuikSyncAdapters.Lift.Ownership
import QuikSyncAdapters.Lift.Handle
import QuikSyncAdapters.Lift.Dispatch
import QuikSyncAdapters.Lift.Node
import QuikSyncAdapters.Lift.Routing
import QuikSyncAdapters.Lift.Interleaving
import QuikSyncAdapters.Lift.Isolation
import QuikSyncAdapters.Lift.MutualExclusion
import QuikSyncAdapters.Lift.World
import QuikSyncAdapters.Lift.StaleFrames
import QuikSyncAdapters.Lift.Convergence
import QuikSyncAdapters.Door.Handle
import QuikSyncAdapters.Door.Node
import QuikSyncAdapters.Door.Routing
import QuikSyncAdapters.Subscription
import QuikSyncAdapters.Fleet.RobotHandle
import QuikSyncAdapters.Fleet.StateTranslation
import QuikSyncAdapters.Fleet.Callbacks
import QuikSyncAdapters.Fleet.Binding
import QuikSyncAdapters.Fleet.Completion
import QuikSyncAdapters.Fleet.CallbackErrors
import QuikSyncAdapters.Fleet.LazyRegistration
import QuikSyncAdapters.Fleet.ConcurrentRegistration
import QuikSyncAdapters.Fleet.Wiring
import QuikSyncAdapters.Fleet.BindingErrors
import QuikSyncAdapters.Fleet.Discovery
import QuikSyncAdapters.Fleet.PumpRunner
import QuikSyncAdapters.Fleet.StopRequests
import QuikSyncAdapters.Fleet.RunnerEnds
import QuikSyncAdapters.CommandStatus
import QuikSyncAdapters.Config
import QuikSyncAdapters.IdLists
import QuikSyncAdapters.YamlConfig
import QuikSyncAdapters.ConfigSources
import QuikSyncAdapters.ReconnectBase
import QuikSyncAdapters.Adapters
import QuikSyncAdapters.Pump.Attended
import QuikSyncAdapters.Pump.DryRun
import QuikSyncAdapters.Fleet.StatePath
import QuikSyncAdapters.Scoping
import QuikSyncAdapters.Door.Publishing
import QuikSyncAdapters.Lift.Publishing
import QuikSyncAdapters.ExactlyOnce
