import Comsat.Engine.Merge
import Comsat.Notify.Webhook

set_option relaxedAutoImplicit false
set_option autoImplicit false

/-!
# Queued watches of the Worker

The Worker claims due watches, puts a message for each of them on a queue and runs a watch when it
receives its message.

## Main definitions

* `WatchClaimMessage` — the message about a claimed watch.
* `CloudWatch.claimRequest`, `CloudWatch.startRequest`, `CloudWatch.completeRequest` — what the
  Worker asks of the store.

## Design

* The nonce of a lease owner comes from the random numbers of the runtime and is an argument.
-/

namespace Comsat

/-- The message about a claimed watch. -/
structure WatchClaimMessage where
  tenantId : String
  watchId : String
  query : Query
  sourceIds : List SourceId
  cursor : Json
  leaseOwner : String
  leaseExpiresEpochSeconds : ℤ

/-- The message about a watch under a lease. -/
def WatchClaimMessage.ofClaimed (claimed : ClaimedWatch) : WatchClaimMessage where
  tenantId := claimed.watch.tenantId
  watchId := claimed.watch.watchId
  query := claimed.watch.query
  sourceIds := claimed.watch.sourceIds
  cursor := claimed.watch.cursor
  leaseOwner := claimed.leaseOwner
  leaseExpiresEpochSeconds := claimed.leaseExpiresEpochSeconds

/-- How a scheduled invocation claims watches. -/
structure WatchClaimConfig where
  nowEpochSeconds : ℤ
  claimLimit : ℕ
  leaseSeconds : ℕ

/-- The most bytes that the Worker takes from a source. -/
def cloudMaxBytesPerSource : ℕ := 240 * 1024

/-- The limits of the engine in the Worker. -/
def cloudLimits : EngineLimits :=
  { EngineLimits.default with maxBytesPerSource := cloudMaxBytesPerSource }

/-- The webhooks of the tenants. -/
abbrev TenantWebhookConfig := String → Option WatchDeliveryConfig

namespace CloudWatch

/-- Who holds the watch that an invocation claims after `count` others. -/
def leaseOwner (nowEpochSeconds : ℤ) (nonce count : ℕ) : String :=
  "cloud:" ++ toString nowEpochSeconds ++ ":" ++ Text.hex nonce ++ ":" ++ toString count

/-- The claim of the next due watch of a tenant. -/
def claimRequest (tenantId : String) (config : WatchClaimConfig) (nonce count : ℕ) :
    ClaimDueWatch where
  tenantId := tenantId
  nowEpochSeconds := config.nowEpochSeconds
  leaseOwner := leaseOwner config.nowEpochSeconds nonce count
  leaseSeconds := config.leaseSeconds

/-- The identifier of the run of a message. -/
def runId (message : WatchClaimMessage) : String := message.watchId ++ ":" ++ message.leaseOwner

/-- The start of the run. -/
def startRequest (message : WatchClaimMessage) (nowEpochSeconds : ℤ) : StartWatchRun where
  tenantId := message.tenantId
  watchId := message.watchId
  runId := runId message
  idempotencyKey := message.leaseOwner
  leaseOwner := message.leaseOwner
  startedAtEpochSeconds := nowEpochSeconds

/-- The diagnostics of a search as the error of its run, if there are any. -/
def diagnosticsError (diagnostics : List EngineDiagnostic) : Option String :=
  if diagnostics.isEmpty then none
  else some (String.intercalate "; " (diagnostics.map fun diagnostic =>
    diagnostic.source.value ++ ":" ++ diagnostic.errorClass.debugName ++ ":" ++
      diagnostic.message))

/-- The completion of the run that the store returned. -/
def completeRequest [DefaultHasher] (message : WatchClaimMessage) (run : WatchRun)
    (outcome : SearchOutcome) (finishedAt : ℤ) (config : Option TenantWebhookConfig) :
    CompleteWatchRun where
  tenantId := message.tenantId
  watchId := message.watchId
  runId := run.runId
  leaseOwner := message.leaseOwner
  finishedAtEpochSeconds := finishedAt
  records := outcome.records
  nextCursor := message.cursor
  error := diagnosticsError outcome.diagnostics
  delivery := do
    let configs ← config
    let webhook ← configs message.tenantId
    some (webhook.deliveryForRun message.tenantId message.watchId run.runId)

end CloudWatch

end Comsat
