import Comsat.Types.Record

set_option relaxedAutoImplicit false
set_option autoImplicit false

/-!
# Requests and values of the store

The requests that a store accepts, the values it returns and the checks made before a store is
touched.

## Main definitions

* `StoreError`, `StoreResult` — the errors of a store.
* `CreateWatch`, `ClaimDueWatch`, `StartWatchRun`, `CompleteWatchRun`, … — the requests, each
  with its `validate`.
* `Watch`, `WatchRun`, `Delivery`, … — the values.

## Design

* Statuses are enumerations here and texts in the tables; `text` gives the text.
* Epoch seconds are integers, durations and counters natural numbers. The 64-bit addition of the
  program is `addI64`.
-/

namespace Comsat

/-- How often a delivery is attempted. -/
def maxDeliveryAttempts : ℕ := 3

/-- How long a failed delivery waits. -/
def deliveryRetrySeconds : ℤ := 300

/-- Addition of signed 64-bit integers, which wraps around. -/
def addI64 (a b : ℤ) : ℤ := Int.bmod (a + b) (2 ^ 64)

/-! ## Errors -/

/-- The error of a store operation. -/
inductive StoreError where
  /-- A value was refused before the store was touched. -/
  | validation (message : String)
  /-- The state of the store does not allow the operation. -/
  | conflict (message : String)
  /-- Something is missing. -/
  | notFound (message : String)
  /-- The database failed. -/
  | backend (message : String)
deriving DecidableEq, Repr

/-- The class of a store error. -/
inductive StoreErrorClass where
  | validation
  | conflict
  | notFound
  | backend
deriving DecidableEq, Repr

/-- The class of an error, without its message. -/
def StoreError.errorClass : StoreError → StoreErrorClass
  | validation _ => .validation
  | conflict _ => .conflict
  | notFound _ => .notFound
  | backend _ => .backend

/-- The result of a store operation. -/
abbrev StoreResult (α : Type) := Except StoreError α

/-- A refused value is a validation error with the same message. -/
def StoreResult.ofValidation {α : Type} : Except ValidationError α → StoreResult α
  | .ok a => .ok a
  | .error e => .error (.validation e.message)

/-! ## Checks -/

/-- ASCII letters and digits, hyphen, underscore, full stop and colon. -/
def isTokenChar (c : Char) : Bool :=
  (0x61 ≤ c.toNat && c.toNat ≤ 0x7A) || (0x41 ≤ c.toNat && c.toNat ≤ 0x5A) ||
    (0x30 ≤ c.toNat && c.toNat ≤ 0x39) || c == '-' || c == '_' || c == '.' || c == ':'

/-- A nonempty text of at most `maxLen` bytes over the token characters. -/
def validateBoundedToken (value : String) (maxLen : ℕ) (name : String) : StoreResult Unit :=
  if value ≠ "" ∧ value.utf8ByteSize ≤ maxLen ∧ value.toList.all isTokenChar then .ok ()
  else .error (.validation (name ++ " must be a bounded ASCII token"))

/-- A tenant. -/
def validateTenantId (value : String) : StoreResult Unit :=
  validateBoundedToken value 128 "tenant_id"

/-- An identifier that the store keeps. -/
def validateStorageId (value name : String) : StoreResult Unit :=
  validateBoundedToken value 160 name

/-- A JSON object. -/
def validateJsonObject (value : Json) (name : String) : StoreResult Unit :=
  if value.isObject then .ok () else .error (.validation (name ++ " must be a JSON object"))

/-- A duration of at least a second and at most a year. -/
def validateInterval (value : ℕ) : StoreResult Unit :=
  if 1 ≤ value ∧ value ≤ 31536000 then .ok ()
  else .error (.validation "interval_seconds must be between 1 and 31536000")

/-- A number of rows. -/
def validateLimit (limit : ℕ) (message : String) : StoreResult Unit :=
  if limit = 0 ∨ 1000 < limit then .error (.validation message) else .ok ()

/-- The conversion of an unsigned 64-bit integer to a signed one. -/
def i64FromU64 (value : ℕ) (name : String) : StoreResult ℤ :=
  if value < 2 ^ 63 then .ok value else .error (.validation (name ++ " is too large"))

/-! ## Sources -/

/-- Records that a source is configured for a tenant. -/
structure UpsertSource where
  tenantId : String
  sourceId : SourceId
  enabled : Bool
  observedAtEpochSeconds : ℤ

/-- The checks of a request. -/
def UpsertSource.validate (request : UpsertSource) : StoreResult Unit :=
  validateTenantId request.tenantId

/-! ## Watches -/

/-- A watch, and the row that keeps it. -/
structure Watch where
  tenantId : String
  watchId : String
  query : Query
  sourceIds : List SourceId
  /-- How long to wait between runs. -/
  intervalSeconds : ℕ
  cursor : Json
  enabled : Bool
  createdAtEpochSeconds : ℤ
  nextDueEpochSeconds : ℤ
  leaseOwner : Option String
  leaseExpiresEpochSeconds : Option ℤ

/-- Creates a watch. -/
structure CreateWatch where
  tenantId : String
  watchId : String
  query : Query
  sourceIds : List SourceId
  /-- How long to wait between runs. -/
  intervalSeconds : ℕ
  cursor : Json
  enabled : Bool
  createdAtEpochSeconds : ℤ
  /-- When it is first due, by default at once. -/
  firstDueEpochSeconds : Option ℤ

/-- The checks of a request. -/
def CreateWatch.validate [ExternalParsers] (request : CreateWatch) : StoreResult Unit := do
  validateTenantId request.tenantId
  validateStorageId request.watchId "watch_id"
  validateInterval request.intervalSeconds
  validateJsonObject request.cursor "cursor"
  StoreResult.ofValidation request.query.validate

/-- The watch that a request creates. -/
def CreateWatch.intoWatch (request : CreateWatch) : Watch where
  tenantId := request.tenantId
  watchId := request.watchId
  query := request.query
  sourceIds := request.sourceIds
  intervalSeconds := request.intervalSeconds
  cursor := request.cursor
  enabled := request.enabled
  createdAtEpochSeconds := request.createdAtEpochSeconds
  nextDueEpochSeconds := request.firstDueEpochSeconds.getD request.createdAtEpochSeconds
  leaseOwner := none
  leaseExpiresEpochSeconds := none

/-- Deletes a watch. -/
structure DeleteWatch where
  tenantId : String
  watchId : String

/-- The checks of a request. -/
def DeleteWatch.validate (request : DeleteWatch) : StoreResult Unit := do
  validateTenantId request.tenantId
  validateStorageId request.watchId "watch_id"

/-- Claims the next due watch of a tenant. -/
structure ClaimDueWatch where
  tenantId : String
  nowEpochSeconds : ℤ
  leaseOwner : String
  leaseSeconds : ℕ

/-- The checks of a request. -/
def ClaimDueWatch.validate (request : ClaimDueWatch) : StoreResult Unit := do
  validateTenantId request.tenantId
  validateStorageId request.leaseOwner "lease_owner"
  validateInterval request.leaseSeconds

/-- A watch under a lease. -/
structure ClaimedWatch where
  watch : Watch
  leaseOwner : String
  leaseExpiresEpochSeconds : ℤ

/-! ## Runs -/

/-- The status of a run. -/
inductive RunStatus where
  | running
  | succeeded
  | failed
deriving DecidableEq, Repr

/-- The text of a status. -/
def RunStatus.text : RunStatus → String
  | running => "running"
  | succeeded => "succeeded"
  | failed => "failed"

/-- Starts a run of a claimed watch. -/
structure StartWatchRun where
  tenantId : String
  watchId : String
  runId : String
  /-- The key under which a repeated start finds the same run. -/
  idempotencyKey : String
  leaseOwner : String
  startedAtEpochSeconds : ℤ

/-- The checks of a request. -/
def StartWatchRun.validate (request : StartWatchRun) : StoreResult Unit := do
  validateTenantId request.tenantId
  validateStorageId request.watchId "watch_id"
  validateStorageId request.runId "run_id"
  validateStorageId request.idempotencyKey "idempotency_key"
  validateStorageId request.leaseOwner "lease_owner"

/-- A run, and the row that keeps it. -/
structure WatchRun where
  tenantId : String
  watchId : String
  runId : String
  /-- The key under which a repeated start finds the same run. -/
  idempotencyKey : String
  /-- Who started the run. -/
  leaseOwner : String
  status : RunStatus
  startedAtEpochSeconds : ℤ
  finishedAtEpochSeconds : Option ℤ
  error : Option String
deriving DecidableEq

/-- The notification that a run queues. -/
structure WatchRunDelivery where
  deliveryId : String
  target : Json

/-- The checks of a notification. -/
def WatchRunDelivery.validate (delivery : WatchRunDelivery) : StoreResult Unit := do
  validateStorageId delivery.deliveryId "delivery_id"
  validateJsonObject delivery.target "target"

/-- Completes a run. -/
structure CompleteWatchRun where
  tenantId : String
  watchId : String
  runId : String
  leaseOwner : String
  finishedAtEpochSeconds : ℤ
  records : List Record
  nextCursor : Json
  error : Option String
  /-- The notification to queue. -/
  delivery : Option WatchRunDelivery

/-- The checks of a request. -/
def CompleteWatchRun.validate [ExternalParsers] (request : CompleteWatchRun) :
    StoreResult Unit := do
  validateTenantId request.tenantId
  validateStorageId request.watchId "watch_id"
  validateStorageId request.runId "run_id"
  validateStorageId request.leaseOwner "lease_owner"
  validateJsonObject request.nextCursor "next_cursor"
  for record in request.records do
    StoreResult.ofValidation record.validate
  match request.delivery with
  | some delivery => delivery.validate
  | none => pure ()

/-- The status that a completion gives to its run. -/
def CompleteWatchRun.status (request : CompleteWatchRun) : RunStatus :=
  if request.error.isSome then .failed else .succeeded

/-- What a completion did. -/
structure WatchRunOutcome where
  runId : String
  status : RunStatus
  recordsSeen : ℕ
  /-- How many of them are new to the tenant. -/
  recordsInserted : ℕ
  /-- How many of them are new to the watch. -/
  watchRecordsInserted : ℕ
deriving DecidableEq, Repr

/-! ## History -/

/-- Asks for the records observed so far. -/
structure HistoryRequest where
  tenantId : String
  /-- A watch, or all of them. -/
  watchId : Option String
  sinceEpochSeconds : Option ℤ
  limit : ℕ

/-- The checks of a request. -/
def HistoryRequest.validate (request : HistoryRequest) : StoreResult Unit := do
  validateTenantId request.tenantId
  match request.watchId with
  | some watchId => validateStorageId watchId "watch_id"
  | none => pure ()
  validateLimit request.limit "history limit must be between 1 and 1000"

/-- The earliest observation that a request asks for: by default the least 64-bit integer. -/
def HistoryRequest.since (request : HistoryRequest) : ℤ :=
  request.sinceEpochSeconds.getD (-2 ^ 63)

/-- A record with the times of its observation. -/
structure RecordObservation where
  record : Record
  watchId : Option String
  firstObservedEpochSeconds : ℤ
  lastObservedEpochSeconds : ℤ

/-! ## Deliveries -/

/-- The status of a delivery. -/
inductive DeliveryStatus where
  /-- Waiting for its next attempt. -/
  | pending
  /-- Leased by a worker. -/
  | delivering
  | succeeded
  /-- Given up. -/
  | failed
deriving DecidableEq, Repr

/-- The text of a status. -/
def DeliveryStatus.text : DeliveryStatus → String
  | pending => "pending"
  | delivering => "delivering"
  | succeeded => "succeeded"
  | failed => "failed"

/-- An integer of a JSON text: written by the serializer, or by the database for a real number. -/
inductive JsonInteger where
  | integer (value : ℤ)
  | real (value : ℤ)
deriving DecidableEq, Repr

/-- The integer. -/
def JsonInteger.value : JsonInteger → ℤ
  | integer value => value
  | real value => value

/-- The digits after the point, without the zeros at their end. -/
def fractionText (digits : List Char) : String :=
  match digits.rdropWhile (fun c => c = '0') with
  | [] => "0"
  | kept => String.ofList kept

/-- A real number as the database writes it: with fifteen digits, a point, and an exponent if it
has more digits before the point. Up to fifteen digits, which is more than an instant of the Worker's
clock has, the serializer prints the number that it reads from this text by the same text. -/
def realText (value : ℤ) : String :=
  let sign := if value < 0 then "-" else ""
  let exponent := Nat.log 10 value.natAbs
  if exponent < 15 then sign ++ toString value.natAbs ++ ".0"
  else
    let rounded := (value.natAbs + 5 * 10 ^ (exponent - 15)) / 10 ^ (exponent - 14)
    let carry := if rounded = 10 ^ 15 then 1 else 0
    let digits := (toString (rounded / 10 ^ carry)).toList
    sign ++ String.ofList (digits.take 1) ++ "." ++ fractionText (digits.drop 1) ++ "e+" ++
      toString (exponent + carry)

/-- The number as it stands in the text. -/
def JsonInteger.toJson : JsonInteger → Json
  | integer value => .int value
  | real value => .num (realText value)

example : realText 20 = "20.0" ∧ realText (-1500000000000000) = "-1.5e+15" := by decide

/-- The notification of the records that a run observed first. -/
structure DeliveryPayload where
  tenantId : String
  watchId : String
  runId : String
  observedAtEpochSeconds : JsonInteger
  records : List Record

/-- The payload as the serializer writes it. -/
def DeliveryPayload.toJson (payload : DeliveryPayload) : Json :=
  .obj [("type", .str "comsat.watch.records_observed"), ("tenant_id", .str payload.tenantId),
    ("watch_id", .str payload.watchId), ("run_id", .str payload.runId),
    ("observed_at_epoch_seconds", payload.observedAtEpochSeconds.toJson),
    ("records", .arr (payload.records.map Record.toJson))]

/-- A delivery, and the row that keeps it. -/
structure Delivery where
  tenantId : String
  deliveryId : String
  watchId : String
  runId : Option String
  status : DeliveryStatus
  target : Json
  payload : DeliveryPayload
  createdAtEpochSeconds : ℤ
  nextAttemptEpochSeconds : ℤ
  /-- How often it was claimed. -/
  attempts : ℕ
  leaseOwner : Option String
  leaseExpiresEpochSeconds : Option ℤ
  deliveredAtEpochSeconds : Option ℤ
  error : Option String

/-- Claims the next delivery of a tenant. -/
structure ClaimPendingDelivery where
  tenantId : String
  nowEpochSeconds : ℤ
  leaseOwner : String
  leaseSeconds : ℕ

/-- The checks of a request. -/
def ClaimPendingDelivery.validate (request : ClaimPendingDelivery) : StoreResult Unit := do
  validateTenantId request.tenantId
  validateStorageId request.leaseOwner "lease_owner"
  validateInterval request.leaseSeconds

/-- Acknowledges an attempt at a delivery. -/
structure CompleteDelivery where
  tenantId : String
  deliveryId : String
  leaseOwner : String
  finishedAtEpochSeconds : ℤ
  success : Bool
  error : Option String

/-- The checks of a request. -/
def CompleteDelivery.validate (request : CompleteDelivery) : StoreResult Unit := do
  validateTenantId request.tenantId
  validateStorageId request.deliveryId "delivery_id"
  validateStorageId request.leaseOwner "lease_owner"

/-- When a delivery may be attempted next after this attempt. -/
def CompleteDelivery.nextAttemptEpochSeconds (request : CompleteDelivery) : ℤ :=
  if request.success then request.finishedAtEpochSeconds
  else addI64 request.finishedAtEpochSeconds deliveryRetrySeconds

/-- When the delivery was delivered, if this attempt succeeded. -/
def CompleteDelivery.deliveredAtEpochSeconds (request : CompleteDelivery) : Option ℤ :=
  if request.success then some request.finishedAtEpochSeconds else none

/-- Lists deliveries. -/
structure ListDeliveries where
  tenantId : String
  /-- A status, or all of them. -/
  status : Option String
  limit : ℕ

/-- The text of some status. -/
def validateDeliveryStatus (value : String) : StoreResult Unit :=
  if value = "pending" ∨ value = "delivering" ∨ value = "succeeded" ∨ value = "failed" then .ok ()
  else .error (.validation "delivery status is invalid")

/-- The checks of a request. -/
def ListDeliveries.validate (request : ListDeliveries) : StoreResult Unit := do
  validateTenantId request.tenantId
  match request.status with
  | some status => validateDeliveryStatus status
  | none => pure ()
  validateLimit request.limit "delivery limit must be between 1 and 1000"

end Comsat
