import Garcon.Http.Grammar
import Garcon.Http.Wire
import Garcon.App.Segmentation
import Garcon.App.Accounting
import Garcon.App.KeptAlive
import Garcon.Modules.RateLimit.Admission
import Garcon.Modules.HeaderGuard
import Garcon.Modules.Containment
import Garcon.Modules.Spelling
import Garcon.Modules.JwtAuth.Identity
import Garcon.Modules.JwtAuth.Expiry
import Garcon.App.WorkQueue.Fifo
import Garcon.App.WorkQueue.WakeUp
import Garcon.App.Transparency
import Garcon.Http.Fields
import Garcon.App.StateMachine
import Garcon.App.Hsts
import Garcon.Modules.Preflight
import Garcon.Modules.RateLimit.Isolation
import Garcon.Modules.RoutePrinting
import Garcon.Http.Exactness
import Garcon.Modules.Router.Matching
import Garcon.Http.KeepAlive
import Garcon.Modules.Vary
import Garcon.Modules.RuleLines
import Garcon.Modules.HostNames
import Garcon.Modules.RateLimit.Conforming
import Garcon.Modules.RateLimit.RetryAfter
import Garcon.Modules.JwtAuth.Malleability
import Garcon.Http.Limit
import Garcon.App.Startup
import Garcon.Modules.Decimals
import Garcon.App.PassHeaders
import Garcon.Modules.HeadRequests
import Garcon.Modules.NormalForm
import Garcon.Modules.Router.PlainPatterns
import Garcon.App.AccessLog
import Garcon.Modules.JwtAuth.RoundTrip
import Garcon.Library.Transfer
import Garcon.Tls.Stream
import Garcon.App.Delivery
import Garcon.Http.Bounded
import Garcon.Net.Supply
import Garcon.App.Returns
import Garcon.Library.Refinement
import Garcon.App.ServerRun
import Garcon.App.ServerRun.Invariant
import Garcon.App.ServerRun.Descriptors
import Garcon.App.ServerRun.WakeUps
import Garcon.App.ServerRun.Shutdown
import Garcon.Library.SortBy
import Garcon.App.ModuleConfig
import Garcon.Library.Protocol
import Garcon.App.Loading
import Garcon.App.Loading.Lifecycle
import Garcon.App.Loading.Bundled
import Garcon.Http.Dialog
import Garcon.App.LockStep
import Garcon.Modules.RuleFiles
import Garcon.Modules.RuleFiles.Guards
import Garcon.Modules.RuleFiles.Policies
import Garcon.Modules.RuleFiles.Settings
import Garcon.Modules.Canonical
import Garcon.Modules.RateLimit.Concurrent
import Garcon.Library.Ownership
import Garcon.Net.SocketObjects
import Garcon.Library.FirstError
