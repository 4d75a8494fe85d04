import Comsat.App.Attribution
import Comsat.App.NativeScheduler
import Comsat.App.RunTokens
import Comsat.App.TargetStreams
import Comsat.App.TotalFailure
import Comsat.App.WatchIds
import Comsat.Cli.NativeStore
import Comsat.Cli.Pipeline
import Comsat.Cli.Plugins
import Comsat.Cli.UnixOutput
import Comsat.Cloud.ClaimPass
import Comsat.Cloud.QueueRuns
import Comsat.Cloud.RecordBudget
import Comsat.Cloud.ServedTenants
import Comsat.Engine.Accounting
import Comsat.Engine.Budget
import Comsat.Engine.Canonical
import Comsat.Engine.DedupeExact
import Comsat.Engine.Selection
import Comsat.Notify.Attempts
import Comsat.Notify.Sendable
import Comsat.Notify.WebhookUrl
import Comsat.Plugins.CooldownArithmetic
import Comsat.Plugins.DateBounds
import Comsat.Plugins.NativeTargets
import Comsat.Plugins.Requests
import Comsat.Plugins.WebTitle
import Comsat.Source.Errors
import Comsat.Source.SchemaDocument
import Comsat.Store.ClaimDrain
import Comsat.Store.Conflict
import Comsat.Store.DeliveryClaims
import Comsat.Store.DeliveryStates
import Comsat.Store.Fencing
import Comsat.Store.History
import Comsat.Store.Outbox
import Comsat.Store.PayloadContent
import Comsat.Store.Refinement
import Comsat.Store.Tenancy
