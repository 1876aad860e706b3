import Apigate.Lib.Text
import Apigate.Lib.Segments
import Apigate.Lib.MultiMap
import Apigate.Lib.Fold
import Apigate.Lib.Prog
import Apigate.Lib.Runs
import Apigate.Lib.Rotation
import Apigate.Lib.Scan
import Apigate.Lib.Smoothing
import Apigate.Lib.Machine
import Apigate.Lib.MediaType
import Apigate.Lib.Borrow
import Apigate.Lib.Grouping
import Apigate.Lib.Alike
import Apigate.Lib.TokenReader
import Apigate.Lib.Slots
import Apigate.Http
import Apigate.Error
import Apigate.Backend
import Apigate.Routing
import Apigate.Balancing
import Apigate.Policy
import Apigate.PartsCtx
import Apigate.Pipeline
import Apigate.Route
import Apigate.Proxy
import Apigate.Macros.Template
import Apigate.Macros.Codegen
import Apigate.Macros.Expand
import Apigate.Macros.Attributes
import Apigate.App.Build
import Apigate.App.Calls
import Apigate.App.Dispatch
import Apigate.App.Gateway
import Apigate.App.Updates
import Apigate.App.Tracing
import Apigate.App.Watched
import Apigate.Correctness.JumpHash
import Apigate.Correctness.Capture
import Apigate.Correctness.Template
import Apigate.Correctness.Mounting
import Apigate.Correctness.Dispatchable
import Apigate.Correctness.Configuration
import Apigate.Correctness.PipelineSpec
import Apigate.Correctness.Framing
import Apigate.Correctness.HopByHop
import Apigate.Correctness.PathText
import Apigate.Correctness.QueryKept
import Apigate.Correctness.ClientHop
import Apigate.Correctness.InjectedHeaders
import Apigate.Correctness.EncodedQuery
import Apigate.Correctness.Handler
import Apigate.Correctness.FailClosed
import Apigate.Correctness.ServiceBackends
import Apigate.Correctness.Refinement
import Apigate.Correctness.RouteTable
import Apigate.Correctness.EvenSpread
import Apigate.Correctness.InFlight
import Apigate.Correctness.LoadArray
import Apigate.Correctness.Accounting
import Apigate.Correctness.Latency
import Apigate.Correctness.LeastScan
import Apigate.Correctness.OwnLoad
import Apigate.Correctness.LatencyAverage
import Apigate.Correctness.CandidateSafety
import Apigate.Correctness.DeadBackend
import Apigate.Correctness.HashFallback
import Apigate.Correctness.StickyKeys
import Apigate.Correctness.BuildPanics
import Apigate.Correctness.BackendUrl
import Apigate.Correctness.BufferedRead
import Apigate.Correctness.ContentType
import Apigate.Correctness.TemplateGrammar
import Apigate.Correctness.CapturePatterns
import Apigate.Correctness.Signatures
import Apigate.Correctness.HandlerRuns
import Apigate.Correctness.ErrorDetails
import Apigate.Correctness.Observer
import Apigate.Correctness.EventProtocol
import Apigate.Correctness.AttributeGrammar
import Apigate.Correctness.ServiceModule
import Apigate.Correctness.NoPanics
import Apigate.Correctness.Affinity
import Apigate.Correctness.Isolation
import Apigate.Correctness.SourceToWire
import Apigate.Correctness.Footprints
import Apigate.Correctness.Validation
import Apigate.Lib.Tasks
import Apigate.Correctness.HookOrder
import Apigate.Correctness.Mapping
import Apigate.Correctness.Relay
