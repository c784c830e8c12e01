import Brainkit.Browser.Manager
import Brainkit.Browser.Processes
import Brainkit.Deploy.Mirroring
import Brainkit.Deploy.RestoreOrder
import Brainkit.Discovery.Bus
import Brainkit.Discovery.Departure
import Brainkit.Engine.CallerIdentity
import Brainkit.Engine.Drain
import Brainkit.Engine.HookLease
import Brainkit.Engine.MountCommand
import Brainkit.Engine.PolicyChoice
import Brainkit.Engine.Retries
import Brainkit.Engine.StreamTracker
import Brainkit.Gateway.CloseDeadlock
import Brainkit.Gateway.Reassembly
import Brainkit.Gateway.RouteOwners
import Brainkit.Gateway.Routes
import Brainkit.Gateway.StreamReplay
import Brainkit.Jsbridge.AsyncContext
import Brainkit.Jsbridge.Buffer
import Brainkit.Jsbridge.FetchStream
import Brainkit.Jsbridge.FsPaths
import Brainkit.Jsbridge.SocketBytes
import Brainkit.Jsbridge.SocketLifecycle
import Brainkit.Jsbridge.Spawned
import Brainkit.Jsbridge.TextDecoder
import Brainkit.Jsbridge.Timers
import Brainkit.Jsbridge.TimersSound
import Brainkit.Jsbridge.WebSocket
import Brainkit.Library.Binding
import Brainkit.Library.Calendar
import Brainkit.Library.Ecma
import Brainkit.Library.EcmaJson
import Brainkit.Library.EcmaJsonRead
import Brainkit.Library.EcmaNesting
import Brainkit.Library.Forest
import Brainkit.Library.Gate
import Brainkit.Library.GoCompact
import Brainkit.Library.GoDecimal
import Brainkit.Library.GoJson
import Brainkit.Library.GoJsonText
import Brainkit.Library.GoQuote
import Brainkit.Library.Highest
import Brainkit.Library.JsonObject
import Brainkit.Library.Planned
import Brainkit.Library.Postorder
import Brainkit.Library.Provision
import Brainkit.Library.Regex
import Brainkit.Library.Replacement
import Brainkit.Library.Rfc3339
import Brainkit.Library.Ring
import Brainkit.Library.Runes
import Brainkit.Library.Semver
import Brainkit.Library.Trim
import Brainkit.Libsql.Batons
import Brainkit.Libsql.Classification
import Brainkit.Libsql.Conditions
import Brainkit.Libsql.Inside
import Brainkit.Libsql.ReadLock
import Brainkit.Libsql.StoredSql
import Brainkit.Libsql.ValueCodec
import Brainkit.Mcp.Conservation
import Brainkit.Modules.Cleanups
import Brainkit.Modules.CloseJob
import Brainkit.Modules.Descriptor
import Brainkit.Modules.HostHandles
import Brainkit.Modules.KeptCleanups
import Brainkit.Modules.KitCleanups
import Brainkit.Modules.KitScopes
import Brainkit.Modules.MountGraph
import Brainkit.Modules.MountSound
import Brainkit.Modules.MountTable
import Brainkit.Modules.Mounts
import Brainkit.Modules.Preflight
import Brainkit.Modules.PreflightMount
import Brainkit.Modules.PreflightPlan
import Brainkit.Modules.Scope
import Brainkit.Modules.ScopeClose
import Brainkit.Modules.StartupOrder
import Brainkit.Packages.Domain
import Brainkit.Packages.Index
import Brainkit.Packages.Sanitized
import Brainkit.Packages.Sanitizer
import Brainkit.Plugins.Backoff
import Brainkit.Plugins.Executors
import Brainkit.Plugins.Reported
import Brainkit.Plugins.SharedServer
import Brainkit.Plugins.Tracked
import Brainkit.Providers.Configs
import Brainkit.Providers.Host
import Brainkit.Providers.HostClosed
import Brainkit.Providers.ProbeFreshness
import Brainkit.Providers.Redaction
import Brainkit.Providers.Rotation
import Brainkit.Providers.RuntimeCache
import Brainkit.Providers.RuntimeCoherence
import Brainkit.Runtime.Approval
import Brainkit.Runtime.ApprovalGuard
import Brainkit.Runtime.Attachment
import Brainkit.Runtime.AttachmentInvariant
import Brainkit.Runtime.AttachmentSound
import Brainkit.Runtime.BridgeLifecycle
import Brainkit.Runtime.BusPayload
import Brainkit.Runtime.Compartment
import Brainkit.Runtime.DeployCleanup
import Brainkit.Runtime.DeployCleanupSound
import Brainkit.Runtime.Evaluations
import Brainkit.Runtime.HandlerErrors
import Brainkit.Runtime.ResourceAgreement
import Brainkit.Runtime.ResourceIsolation
import Brainkit.Runtime.ScriptTools
import Brainkit.Runtime.StripImports
import Brainkit.Schedules.Armed
import Brainkit.Schedules.CloseJoin
import Brainkit.Schedules.LatestOperation
import Brainkit.Schedules.PublishedOnce
import Brainkit.Schedules.StoredTimes
import Brainkit.Sdk.CloseContext
import Brainkit.Sdk.EnvelopeRoundTrip
import Brainkit.Sdk.FirstTerminal
import Brainkit.Sdk.PendingCallDeadlock
import Brainkit.Sdk.PluginSubscriptions
import Brainkit.Sdk.StreamDelivery
import Brainkit.Sdk.ToolAnswers
import Brainkit.Server.ConfigEnv
import Brainkit.Storage.Backed
import Brainkit.Storage.InitBridges
import Brainkit.Storage.KindsApart
import Brainkit.Storage.Manager
import Brainkit.Storage.Removals
import Brainkit.Tools.Naming
import Brainkit.Tools.Precedence
import Brainkit.Tools.Registry
import Brainkit.Tools.Resolve
import Brainkit.Tracing.BoundedLog
import Brainkit.Tracing.Continuity
import Brainkit.Tracing.MemoryStore
import Brainkit.Transport.Backlog
import Brainkit.Transport.Cascade
import Brainkit.Transport.MemoryOrder
import Brainkit.Transport.Registration
import Brainkit.Transport.ReplyTo
