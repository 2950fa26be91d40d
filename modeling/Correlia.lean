import Correlia.Lib.Datetime
import Correlia.Lib.TopK
import Correlia.Lib.Run
import Correlia.Lib.Table
import Correlia.Domain.Rules
import Correlia.Store
import Correlia.Invariant
import Correlia.Crossing
import Correlia.Lifetimes
import Correlia.Soundness
import Correlia.Completeness
import Correlia.ArrivalOrder
import Correlia.Membership
import Correlia.Plugins.Icinga2
import Correlia.Processing.RuleEngine
import Correlia.Ingestion
import Correlia.Poisoning
import Correlia.ReadCommitted
import Correlia.Redaction
import Correlia.RateLimiting
import Correlia.Pagination
import Correlia.TokenGuessing
import Correlia.SizeCap
import Correlia.TagValidation
import Correlia.TagsOfAudit
import Correlia.Expiration
import Correlia.WindowArithmetic
import Correlia.Redelivery
import Correlia.ReportAgreement
import Correlia.AllOrNothing
import Correlia.Ownership
import Correlia.Isolation
import Correlia.RuleSelection
import Correlia.Precedence
import Correlia.TagMigration
import Correlia.GroupKeys
import Correlia.Fingerprints
import Correlia.SummaryRendering
import Correlia.TopologyTags
import Correlia.Lib.IpNetwork
import Correlia.Closures
import Correlia.RetryAfter
import Correlia.NoteBounds
import Correlia.Lib.Occurrences
import Correlia.UniqueSlugs
import Correlia.CursorRejection
import Correlia.ReportFailures
import Correlia.SizeLimiting
import Correlia.ThresholdFacts
import Correlia.AuditTrail
import Correlia.Service
import Correlia.DeliveryRecords
import Correlia.Api.Responses
import Correlia.ReadBack
import Correlia.Deliveries
import Correlia.Api.App
import Correlia.BackgroundSweeps
import Correlia.Config.Plugins
import Correlia.DeliveryEndings
import Correlia.Draining
import Correlia.Guests
import Correlia.Main
import Correlia.OperatorApi
import Correlia.Startup
import Correlia.Api.Health
import Correlia.Lib.Serial
import Correlia.Readiness
import Correlia.RowLocks
import Correlia.Scripts.MigratePlugins
import Correlia.PluginMigration
