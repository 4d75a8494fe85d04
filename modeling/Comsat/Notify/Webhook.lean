import Comsat.Lib.Text
import Comsat.Store.Adapter
import Comsat.Types.Error

set_option relaxedAutoImplicit false
set_option autoImplicit false

/-!
# Webhook deliveries

A worker that claims a pending delivery, posts its payload to the configured webhook and
acknowledges the attempt.

## Main definitions

* `WatchDeliveryConfig.deliveryForRun` — the notification of a run.
* `webhookRequest` — the request of an attempt, refused beyond the limit of its body.
* `plannedRequest` — what a worker does with the delivery it has claimed.
* `deliverPendingWebhook` — one attempt, from the claim to the acknowledgement.

## Design

* The identifier of a delivery is a hash of the standard library, which is a parameter.
* Building a request is a matter of the HTTP library: what it accepts as a URI and as the value of
  a header is a parameter.
* The payload of a delivery is the JSON value that the store returns, so serializing it cannot fail.
-/

namespace Comsat

/-! ## Requests -/

/-- What the HTTP library accepts in a request. -/
class HttpLibrary where
  isUri : String → Bool
  isHeaderValue : String → Bool

/-- An HTTP library that knows the addresses of one host and takes printable ASCII in headers, to
evaluate definitions on concrete inputs. -/
@[reducible] def HttpLibrary.ofHost (host : String) : HttpLibrary where
  isUri value := ("https://" ++ host ++ "/").toList.isPrefixOf value.toList
  isHeaderValue value := value.toList.all fun c => 0x20 ≤ c.toNat && c.toNat ≤ 0x7E

/-- The webhook that is configured for a tenant. -/
structure WatchDeliveryConfig where
  url : String
  authSecret : Option String

/-- The hasher of the standard library, whose algorithm is not specified. -/
class DefaultHasher where
  /-- The hash of a sequence of texts. -/
  finish : List String → ℕ
  /-- A hash has 64 bits. -/
  finish_lt : ∀ texts, finish texts < 2 ^ 64

/-- A hasher that hashes every text alike, to evaluate definitions on concrete inputs. -/
@[reducible] def DefaultHasher.constant : DefaultHasher where
  finish _ := 0
  finish_lt _ := by decide

/-- The identifier of the delivery of a run. -/
def deliveryId [DefaultHasher] (tenantId watchId runId : String) : String :=
  "webhook:" ++ Text.paddedHex 16 (DefaultHasher.finish [tenantId, watchId, runId])

/-- The notification that a run of a watch queues. -/
def WatchDeliveryConfig.deliveryForRun [DefaultHasher] (config : WatchDeliveryConfig)
    (tenantId watchId runId : String) : WatchRunDelivery where
  deliveryId := Comsat.deliveryId tenantId watchId runId
  target := .obj [("type", .str "webhook"), ("url", .str config.url)]

/-- A request to a webhook. -/
structure WebhookRequest where
  method : String
  uri : String
  headers : List (String × String)
  body : Json

/-- How long a worker holds a delivery. -/
def deliveryLeaseSeconds : ℕ := 60

/-- The most bytes that the body of a request may take. -/
def maxWebhookBodyBytes : ℕ := 1024 * 1024

/-- The headers of a request; a configured secret authorizes it. -/
def webhookHeaders (config : WatchDeliveryConfig) (deliveryId : String) : List (String × String) :=
  [("content-type", "application/json"), ("user-agent", "comsat-webhook"),
    ("idempotency-key", deliveryId),
    ("x-comsat-retry-after-seconds", toString deliveryRetrySeconds)] ++
  match config.authSecret with
  | some secret => [("authorization", "Bearer " ++ secret)]
  | none => []

/-- The request that posts a payload. -/
def webhookRequest [HttpLibrary] (config : WatchDeliveryConfig) (deliveryId : String)
    (payload : Json) : StoreResult WebhookRequest :=
  if maxWebhookBodyBytes < payload.byteLength then
    .error (.validation "webhook payload exceeds 1 MiB")
  else
    let request : WebhookRequest := ⟨"POST", config.url, webhookHeaders config deliveryId, payload⟩
    if HttpLibrary.isUri request.uri &&
        request.headers.all fun header => HttpLibrary.isHeaderValue header.2 then .ok request
    else .error (.validation "invalid webhook request configuration")

/-- What came of sending a request. -/
inductive HttpOutcome where
  /-- The request failed. -/
  | failed (errorClass : ErrorClass)
  /-- A response with its status. -/
  | response (status : ℕ)

/-- What an outcome means for the delivery. -/
def HttpOutcome.result : HttpOutcome → Except String Unit
  | failed errorClass => .error ("webhook request failed (" ++ errorClass.debugName ++ ")")
  | response status =>
    if 200 ≤ status ∧ status < 300 then .ok ()
    else .error ("webhook returned HTTP " ++ toString status)

/-! ## Attempts -/

/-- The text of a store error. -/
def StoreError.toText : StoreError → String
  | validation message => "invalid persistence value: " ++ message
  | conflict message => "persistence conflict: " ++ message
  | notFound message => "not found: " ++ message
  | backend message => "persistence backend failed: " ++ message

/-- Who attempts a delivery, and when. -/
structure DeliveryAttempt where
  tenantId : String
  leaseOwner : String
  nowEpochSeconds : ℤ

/-- The claim of an attempt. -/
def DeliveryAttempt.claim (attempt : DeliveryAttempt) : ClaimPendingDelivery :=
  ⟨attempt.tenantId, attempt.nowEpochSeconds, attempt.leaseOwner, deliveryLeaseSeconds⟩

/-- The URL that a delivery was queued for. -/
def Delivery.targetUrl (delivery : Delivery) : Option String :=
  (delivery.target.get? "url").bind Json.asStr?

/-- What a worker does with the delivery it has claimed: the request it sends, or why it sends
none. -/
def plannedRequest [HttpLibrary] (config : WatchDeliveryConfig) (delivery : Delivery) :
    Except String WebhookRequest :=
  if maxDeliveryAttempts < delivery.attempts then .error "webhook retry limit exhausted"
  else if delivery.targetUrl ≠ some config.url then
    .error "configured webhook destination does not match queued delivery"
  else
    match webhookRequest config delivery.deliveryId delivery.payload.toJson with
    | .ok request => .ok request
    | .error e => .error e.toText

/-- The acknowledgement of an attempt. -/
def DeliveryAttempt.acknowledgement (attempt : DeliveryAttempt) (delivery : Delivery)
    (result : Except String Unit) (finishedAt : ℤ) : CompleteDelivery where
  tenantId := delivery.tenantId
  deliveryId := delivery.deliveryId
  leaseOwner := attempt.leaseOwner
  finishedAtEpochSeconds := finishedAt
  success := match result with
    | .ok _ => true
    | .error _ => false
  error := match result with
    | .ok _ => none
    | .error reason => some reason

/-- Attempts the next delivery of a tenant. -/
def deliverPendingWebhook [HttpLibrary] (adapter : Adapter) (db : Db)
    (send : WebhookRequest → HttpOutcome) (config : WatchDeliveryConfig)
    (attempt : DeliveryAttempt) (clock : ℤ) : Db × StoreResult (Option Delivery) :=
  match adapter.claimPendingDelivery db attempt.claim with
  | (db', .error e) => (db', .error e)
  | (db', .ok none) => (db', .ok none)
  | (db', .ok (some delivery)) =>
    let result := match plannedRequest config delivery with
      | .ok request => (send request).result
      | .error reason => .error reason
    (adapter.completeDelivery db' (attempt.acknowledgement delivery result clock)).map id
      fun completed => completed.map some

/-! ## What is posted -/

section Planned

variable [HttpLibrary] {config : WatchDeliveryConfig} {delivery : Delivery} {request : WebhookRequest}

/-- A request posts its payload to the configured URL, under the identifier of the delivery. -/
lemma webhookRequest_eq_ok {deliveryId : String} {payload : Json}
    (h : webhookRequest config deliveryId payload = .ok request) :
    request.method = "POST" ∧ request.uri = config.url ∧ request.body = payload ∧
      ("idempotency-key", deliveryId) ∈ request.headers := by
  unfold webhookRequest at h
  split at h
  · exact absurd h (by simp)
  · dsimp only at h
    split at h
    · obtain rfl := Except.ok.inj h
      exact ⟨rfl, rfl, rfl, by simp [webhookHeaders]⟩
    · exact absurd h (by simp)

/-- **What a worker posts**: the stored payload, to the stored URL, under the identifier of the
delivery, and only in one of the first attempts. -/
theorem plannedRequest_eq_ok (h : plannedRequest config delivery = .ok request) :
    delivery.attempts ≤ maxDeliveryAttempts ∧ delivery.targetUrl = some request.uri ∧
      request.body = delivery.payload.toJson ∧
      ("idempotency-key", delivery.deliveryId) ∈ request.headers := by
  unfold plannedRequest at h
  split at h
  · exact absurd h (by simp)
  · rename_i hattempts
    split at h
    · exact absurd h (by simp)
    · rename_i hurl
      split at h
      · rename_i hrequest
        obtain rfl := Except.ok.inj h
        obtain ⟨-, huri, hbody, hkey⟩ := webhookRequest_eq_ok hrequest
        rw [not_not] at hurl
        exact ⟨by omega, by rw [huri, hurl], hbody, hkey⟩
      · exact absurd h (by simp)

end Planned

end Comsat
