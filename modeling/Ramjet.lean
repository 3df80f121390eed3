import Ramjet.Base.Octets
import Ramjet.Base.Outcome
import Ramjet.Base.Net
import Ramjet.Base.AssocMap
import Ramjet.Engine.Codec.MessageHead
import Ramjet.Engine.Codec.AcceptedHead
import Ramjet.Engine.Codec.BodyFraming
import Ramjet.Engine.Headers
import Ramjet.Engine.WrittenHead
import Ramjet.Engine.RewrittenFields
import Ramjet.Engine.FramingAgreement
import Ramjet.Base.FirstHit
import Ramjet.Router.Host
import Ramjet.Router.Balancing
import Ramjet.Router.Rule
import Ramjet.Router.Table
import Ramjet.Router.Builder
import Ramjet.Router.Reference
import Ramjet.Base.Segments
import Ramjet.Router.PathOrder
import Ramjet.Router.BuiltTable
import Ramjet.Router.RoutingAgreement
import Ramjet.Base.Machine
import Ramjet.Proxy.History
import Ramjet.Proxy.PublishOrder
import Ramjet.Base.Text
import Ramjet.Controller.Annotations
import Ramjet.Controller.Config
import Ramjet.Controller.Endpoints
import Ramjet.Controller.Secrets
import Ramjet.Controller.Plan
import Ramjet.Controller.Translate
import Ramjet.Controller.BackendClaims
import Ramjet.Controller.Claims
import Ramjet.Controller.Registration
import Ramjet.Controller.Compiled
import Ramjet.Base.Accumulate
import Ramjet.Controller.Reported
import Ramjet.Controller.Totality
import Ramjet.Controller.HostSpelling
import Ramjet.Controller.ServedCertificates
import Ramjet.Controller.Answers
import Ramjet.Controller.Fallbacks
import Ramjet.Controller.Arbitration
import Ramjet.Base.Recency
import Ramjet.Proxy.Operations
import Ramjet.Proxy.Rollback
import Ramjet.Ingressd.PromoterSafety
import Ramjet.Ingressd.Rearming
import Ramjet.Controller.Feed
import Ramjet.Controller.OwnWrites
import Ramjet.Controller.Rebuild
import Ramjet.Controller.Publishing
import Ramjet.Base.Arrival
import Ramjet.Controller.ArrivalOrder
import Ramjet.Base.PrefixCode
import Ramjet.Engine.Codec.Chunked
import Ramjet.Engine.Limits
import Ramjet.Engine.Route
import Ramjet.Base.Buckets
import Ramjet.Engine.IdlePool
import Ramjet.Engine.PoolRuns
import Ramjet.Engine.Tls
import Ramjet.Engine.Worker.Connection
import Ramjet.Engine.Worker.Core
import Ramjet.Engine.Worker.Accounting
import Ramjet.Engine.Worker.Serving
import Ramjet.Engine.Worker.Requests
import Ramjet.Engine.Worker.Handlers
import Ramjet.Engine.Worker.Loop
import Ramjet.Engine.Worker.Descriptors
import Ramjet.Engine.Worker.Ownership
import Ramjet.Ingressd.StepWeights
import Ramjet.Ingressd.Deadlines
import Ramjet.Proxy.HeaderMap
import Ramjet.Proxy.Headers
import Ramjet.Proxy.Forward
import Ramjet.Proxy.SentFields
import Ramjet.Proxy.HeaderParity
import Ramjet.Proxy.RouteParity
import Ramjet.Engine.Worker.Moves
import Ramjet.Engine.Worker.Turns
import Ramjet.Engine.Worker.Events
import Ramjet.Engine.Worker.Keeping
import Ramjet.Engine.Worker.Arrivals
import Ramjet.Engine.Worker.Frames
import Ramjet.Base.Incremental
import Ramjet.Proxy.ProxyProtocol
import Ramjet.Engine.Codec.ChunkFeeds
import Ramjet.Engine.Codec.ChunkGrammar
import Ramjet.Base.Search
import Ramjet.Engine.Codec.HeadArrival
import Ramjet.Engine.Reemission
import Ramjet.Router.RouteNumbers
import Ramjet.Router.Counters
import Ramjet.Router.CountersKept
import Ramjet.Router.CounterRuns
import Ramjet.Engine.Helper
import Ramjet.Engine.HelperNotes
import Ramjet.Engine.Worker.Images
import Ramjet.Engine.Worker.Alterations
import Ramjet.Engine.Worker.Changes
import Ramjet.Engine.Worker.Handling
import Ramjet.Engine.Worker.Coherence
import Ramjet.Engine.Worker.Tunnels
import Ramjet.Base.Windows
import Ramjet.Router.Rotation
import Ramjet.Router.Selection
import Ramjet.Router.CanaryDecision
import Ramjet.Engine.FieldLines
import Ramjet.Controller.Pruning
import Ramjet.Controller.Attachments
import Ramjet.Controller.Supplied
import Ramjet.Base.Comparison
import Ramjet.Router.ServedRules
import Ramjet.Controller.Diff
import Ramjet.Controller.DiffLaws
import Ramjet.Controller.DiffSpelling
import Ramjet.Proxy.Body
import Ramjet.Proxy.BodyCopies
import Ramjet.Ingressd.Applying
import Ramjet.Base.Totals
import Ramjet.Engine.Worker.Inflight
import Ramjet.Proxy.InflightParity
import Ramjet.Engine.HeadGrowth
import Ramjet.Engine.Worker.Shifts
import Ramjet.Engine.Worker.Relaying
import Ramjet.Engine.Worker.OldClients
import Ramjet.Engine.Worker.Pairing
import Ramjet.Engine.Worker.Deliveries
import Ramjet.Engine.Worker.Lanes
import Ramjet.Engine.Worker.Effects
import Ramjet.Engine.Worker.Continuity
import Ramjet.Engine.Worker.Mirroring
import Ramjet.Engine.Worker.MirrorBooks
import Ramjet.Engine.Worker.MirrorNotes
import Ramjet.Engine.Worker.MirrorRuns
import Ramjet.Engine.Worker.Retries
import Ramjet.Engine.Worker.Steering
import Ramjet.Engine.Worker.PooledRetries
import Ramjet.Engine.Worker.Forwarding
import Ramjet.Engine.Worker.Responses
import Ramjet.Base.Shards
import Ramjet.Proxy.Metrics
import Ramjet.Engine.Metrics
import Ramjet.Engine.MetricsParity
import Ramjet.Base.Records
import Ramjet.Engine.NoteFraming
import Ramjet.Controller.StatusAddresses
import Ramjet.Controller.EndpointSets
import Ramjet.Controller.Diagnostics
import Ramjet.Base.Calendar
import Ramjet.Base.FixedWidth
import Ramjet.Proxy.Timestamps
import Ramjet.Top.Rfc3339
import Ramjet.Top.RoundTrip
import Ramjet.Top.Prom
import Ramjet.Top.Scraping
import Ramjet.Base.Orders
import Ramjet.Base.Origins
import Ramjet.Top.App
import Ramjet.Top.Confirming
import Ramjet.Top.Displaying
