import Comsat.Engine.Merge
import Comsat.Notify.Webhook

set_option relaxedAutoImplicit false
set_option autoImplicit false

/-!
# The native runner of watches

A native process claims the next due watch of its tenant, starts a run of it, searches and
completes the run.

## Main definitions

* `ComsatApp` — what the runner is configured with.
* `ComsatApp.claimRequest`, `ComsatApp.startRequest`, `ComsatApp.completeRequest` — what the
  runner asks of the store.
-/

namespace Comsat

/-- How long the native runner holds a watch. -/
def nativeLeaseSeconds : ℕ := 60

/-- Who a native process is to the store. -/
def nativeLeaseOwner (pid : ℕ) : String := "comsat-native-" ++ toString pid

/-- The diagnostics of a search as the error of its run, if there are any. -/
def diagnosticsError (diagnostics : List EngineDiagnostic) : Option String :=
  if diagnostics.isEmpty then none
  else some (String.intercalate "; "
    (diagnostics.map fun diagnostic => diagnostic.source.value ++ ": " ++ diagnostic.message))

/-- What the native runner is configured with. -/
structure ComsatApp where
  leaseOwner : String
  tenantId : String
  deliveryConfig : Option WatchDeliveryConfig

namespace ComsatApp

variable (app : ComsatApp)

/-- The claim of the next due watch. -/
def claimRequest (now : ℤ) : ClaimDueWatch where
  tenantId := app.tenantId
  nowEpochSeconds := now
  leaseOwner := app.leaseOwner
  leaseSeconds := nativeLeaseSeconds

/-- The identifier of the run of a claimed watch. -/
def watchRunId (claim : ClaimedWatch) : String :=
  claim.watch.watchId ++ ":" ++ app.leaseOwner ++ ":" ++ toString claim.watch.nextDueEpochSeconds

/-- The start of the run. -/
def startRequest (claim : ClaimedWatch) (now : ℤ) : StartWatchRun where
  tenantId := claim.watch.tenantId
  watchId := claim.watch.watchId
  runId := app.watchRunId claim
  idempotencyKey := app.watchRunId claim
  leaseOwner := app.leaseOwner
  startedAtEpochSeconds := now

/-- The completion of the run. -/
def completeRequest [DefaultHasher] (claim : ClaimedWatch) (outcome : SearchOutcome)
    (finishedAt : ℤ) : CompleteWatchRun where
  tenantId := claim.watch.tenantId
  watchId := claim.watch.watchId
  runId := app.watchRunId claim
  leaseOwner := app.leaseOwner
  finishedAtEpochSeconds := finishedAt
  records := outcome.records
  nextCursor := claim.watch.cursor
  error := diagnosticsError outcome.diagnostics
  delivery := app.deliveryConfig.map fun config =>
    config.deliveryForRun claim.watch.tenantId claim.watch.watchId (app.watchRunId claim)

end ComsatApp

end Comsat
