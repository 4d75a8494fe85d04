import Comsat.Store.Schema

set_option relaxedAutoImplicit false
set_option autoImplicit false

/-!
# The SQLite adapter

The store operations as the SQLite adapter carries them out: a connection behind a mutex, each
operation one statement or one transaction.

## Main definitions

* `SqliteStore.claimDueWatch` — selects the next due watch and leases it.
* `SqliteStore.startWatchRun` — inserts a run under a lease, or finds the one of the same key.
* `SqliteStore.completeWatchRun` — checks lease and run, then upserts the records one by one,
  queues the notification and finishes run and watch.
* `SqliteStore.claimPendingDelivery`, `SqliteStore.completeDelivery` — the outbox.
-/

namespace Comsat.SqliteStore

/-! ## Rows -/

/-- The error of a column whose text cannot be parsed. -/
def jsonErr (message : String) : StoreError :=
  .backend ("Conversion error from type Text at index: 0, " ++ message)

/-- The watch of a row. -/
def watchFromRow (row : Watch) : StoreResult Watch := row.readBack.mapError jsonErr

/-- The observation of a row. -/
def observationFromRow (row : RecordObservation) : StoreResult RecordObservation :=
  row.readBack.mapError jsonErr

/-- The delivery of a row. -/
def deliveryFromRow (row : Delivery) : StoreResult Delivery := row.readBack.mapError jsonErr

/-! ## Sources and watches -/

/-- Records a source of a tenant. -/
def upsertSource (db : Db) (request : UpsertSource) : Db × StoreResult Unit :=
  transaction db do
    request.validate
    return ((), db.upsertSource
      ⟨request.tenantId, request.sourceId, request.enabled, request.observedAtEpochSeconds⟩)

/-- Creates a watch. -/
def createWatch [ExternalParsers] (db : Db) (request : CreateWatch) : Db × StoreResult Watch :=
  transaction db do
    request.validate
    let watch := request.intoWatch
    let _ ← i64FromU64 watch.intervalSeconds "interval_seconds"
    let db' ← db.insertWatch watch
    return (watch, db')

/-- Lists the watches of a tenant. -/
def listWatches (db : Db) (tenantId : String) : Db × StoreResult (List Watch) :=
  query db do
    validateTenantId tenantId
    (db.listWatches tenantId).mapM watchFromRow

/-- Deletes a watch. -/
def deleteWatch (db : Db) (request : DeleteWatch) : Db × StoreResult Bool :=
  transaction db do
    request.validate
    let changed := db.watches.countP fun w =>
      w.tenantId = request.tenantId && w.watchId = request.watchId
    return (decide (0 < changed), db.deleteWatch request.tenantId request.watchId)

/-- Claims the next due watch. It is read before it is leased. -/
def claimDueWatch (db : Db) (request : ClaimDueWatch) : Db × StoreResult (Option ClaimedWatch) :=
  transaction db do
    request.validate
    match db.dueWatch request.tenantId request.nowEpochSeconds with
    | none => return (none, db)
    | some row =>
      let watch ← watchFromRow row
      let leaseSeconds ← i64FromU64 request.leaseSeconds "lease_seconds"
      let leaseExpires := addI64 request.nowEpochSeconds leaseSeconds
      let claimed : Watch → Bool := fun w =>
        w.watchId = watch.watchId && w.isDue request.tenantId request.nowEpochSeconds
      let changed := db.watches.countP claimed
      let db' := { db with
        watches := Table.update claimed (fun w => w.withLease request.leaseOwner leaseExpires)
          db.watches }
      if changed = 0 then return (none, db')
      else return (some ⟨watch, request.leaseOwner, leaseExpires⟩, db')

/-! ## Runs -/

/-- The run of a start request. -/
def fetchWatchRun (db : Db) (request : StartWatchRun) : StoreResult WatchRun :=
  match db.loadRun request.tenantId request.watchId request.idempotencyKey with
  | some run => .ok run
  | none => .error (.conflict "watch is not currently claimed by this worker")

/-- Starts a run of a claimed watch, or finds the run that an earlier request with the same key
started. -/
def startWatchRun (db : Db) (request : StartWatchRun) : Db × StoreResult WatchRun :=
  checked db request.validate <|
    match db.insertRun ⟨request.tenantId, request.watchId, request.runId, request.idempotencyKey,
        request.leaseOwner, .running, request.startedAtEpochSeconds, none, none⟩ with
    | .ok db' => (db', fetchWatchRun db' request)
    | .error e => (db, .error e)

/-- The interval of the watch, if the worker holds its lease. -/
def watchIntervalUnderLease (db : Db) (request : CompleteWatchRun) : StoreResult ℤ :=
  match db.watches.find? fun w => w.isLeasedTo request.tenantId request.watchId request.leaseOwner
      request.finishedAtEpochSeconds with
  | some watch => .ok watch.intervalSeconds
  | none => .error (.conflict "watch lease is not held by this worker")

/-- Fails unless the run is running under the worker. -/
def ensureRunningRun (db : Db) (request : CompleteWatchRun) : StoreResult Unit :=
  if db.watchRuns.any fun r => r.isRunningUnder request.tenantId request.watchId request.runId
      request.leaseOwner then .ok ()
  else .error (.conflict "watch run is not running under this lease")

/-- Inserts or updates a record; `1` when it is new to the tenant. -/
def upsertRecord (db : Db) (request : CompleteWatchRun) (record : Record) : ℕ × Db :=
  let row := RecordRow.observed request.tenantId request.finishedAtEpochSeconds record
  (if Table.exists? RecordRow.key db.records row then 0 else 1,
    { db with records := Table.upsert RecordRow.key RecordRow.setContent db.records row })

/-- Inserts or updates a record of the watch; `1` when it is new to the watch. -/
def upsertWatchRecord (db : Db) (request : CompleteWatchRun) (record : Record) : ℕ × Db :=
  let row := WatchRecordRow.observed request.tenantId request.watchId
    request.finishedAtEpochSeconds record
  (if Table.exists? WatchRecordRow.key db.watchRecords row then 0 else 1,
    { db with
      watchRecords :=
        Table.upsert WatchRecordRow.key WatchRecordRow.setObserved db.watchRecords row })

/-- The accumulators of the loop over the records. -/
structure Completion where
  /-- The database so far. -/
  db : Db
  /-- How many records were new to the tenant. -/
  recordsInserted : ℕ
  /-- How many records were new to the watch. -/
  watchRecordsInserted : ℕ
  /-- The records that were new to the watch. -/
  newRecords : List Record

/-- One pass of the loop over the records. -/
def Completion.observe (request : CompleteWatchRun) (loop : Completion) (record : Record) :
    Completion :=
  let (recordInserted, db₁) := upsertRecord loop.db request record
  let (inserted, db₂) := upsertWatchRecord db₁ request record
  { db := db₂
    recordsInserted := loop.recordsInserted + recordInserted
    watchRecordsInserted := loop.watchRecordsInserted + inserted
    newRecords := if inserted = 1 then loop.newRecords ++ [record] else loop.newRecords }

/-- Queues the notification of the new records, if the request has one and there are some. -/
def insertRunDelivery (db : Db) (request : CompleteWatchRun) (records : List Record) : Db :=
  match request.delivery with
  | none => db
  | some delivery =>
    if records.isEmpty then db
    else { db with
      deliveries := Table.insertIgnore Delivery.key db.deliveries
        { tenantId := request.tenantId
          deliveryId := delivery.deliveryId
          watchId := request.watchId
          runId := some request.runId
          status := .pending
          target := delivery.target
          payload := ⟨request.tenantId, request.watchId, request.runId,
            .integer request.finishedAtEpochSeconds, records⟩
          createdAtEpochSeconds := request.finishedAtEpochSeconds
          nextAttemptEpochSeconds := request.finishedAtEpochSeconds
          attempts := 0
          leaseOwner := none
          leaseExpiresEpochSeconds := none
          deliveredAtEpochSeconds := none
          error := none } }

/-- Completes the run, ends the lease of the watch and schedules it. -/
def finishRunAndWatch (db : Db) (request : CompleteWatchRun) (status : RunStatus)
    (interval : ℤ) : Db :=
  { db with
    watchRuns := Table.update (fun r => r.key = (request.tenantId, request.watchId, request.runId))
      (fun r => r.finish status request.finishedAtEpochSeconds request.error) db.watchRuns
    watches := Table.update (fun w => w.key = (request.tenantId, request.watchId))
      (fun w => w.finish request.nextCursor (addI64 request.finishedAtEpochSeconds interval))
      db.watches }

/-- Completes a run: everything in one transaction. -/
def completeWatchRun [ExternalParsers] (db : Db) (request : CompleteWatchRun) :
    Db × StoreResult WatchRunOutcome :=
  transaction db do
    request.validate
    let interval ← watchIntervalUnderLease db request
    ensureRunningRun db request
    let loop := request.records.foldl (Completion.observe request) ⟨db, 0, 0, []⟩
    let db₁ := insertRunDelivery loop.db request loop.newRecords
    let db₂ := finishRunAndWatch db₁ request request.status interval
    return (⟨request.runId, request.status, request.records.length, loop.recordsInserted,
      loop.watchRecordsInserted⟩, db₂)

/-! ## History -/

/-- The records observed so far, of a watch or of the tenant. -/
def history (db : Db) (request : HistoryRequest) : Db × StoreResult (List RecordObservation) :=
  query db do
    request.validate
    match request.watchId with
    | some watchId =>
      (db.historyForWatch request.tenantId watchId request.since request.limit).mapM
        observationFromRow
    | none =>
      (db.historyForTenant request.tenantId request.since request.limit).mapM observationFromRow

/-! ## Deliveries -/

/-- The order in which a worker's deliveries are looked up: the last to expire first, one without
an expiry at the end. -/
def leaseOrder (delivery : Delivery) : ℕ ×ₗ ℤ ×ₗ String :=
  match delivery.leaseExpiresEpochSeconds with
  | some expires => toLex (0, toLex (-expires, delivery.deliveryId))
  | none => toLex (1, toLex (0, delivery.deliveryId))

/-- The row of the delivery that a worker has just claimed. -/
def claimedDeliveryRow (db : Db) (request : ClaimPendingDelivery) : Option Delivery :=
  (Table.orderBy leaseOrder (db.deliveries.filter fun d =>
    d.tenantId = request.tenantId && d.leaseOwner = some request.leaseOwner &&
      d.status = .delivering)).head?

/-- The delivery that a worker has just claimed. -/
def fetchClaimedDelivery (db : Db) (request : ClaimPendingDelivery) :
    StoreResult (Option Delivery) :=
  (claimedDeliveryRow db request).mapM deliveryFromRow

/-- Claims the next delivery. It is leased before it is read, in one transaction. -/
def claimPendingDelivery (db : Db) (request : ClaimPendingDelivery) :
    Db × StoreResult (Option Delivery) :=
  transaction db do
    request.validate
    let leaseSeconds ← i64FromU64 request.leaseSeconds "lease_seconds"
    let leaseExpires := addI64 request.nowEpochSeconds leaseSeconds
    let changed := db.deliveries.countP (db.isClaimed request.tenantId request.nowEpochSeconds)
    let db' := db.claimDelivery request.tenantId request.nowEpochSeconds request.leaseOwner
      leaseExpires
    if changed = 0 then return (none, db')
    else return (← fetchClaimedDelivery db' request, db')

/-- A delivery by its identifier. -/
def fetchDelivery (db : Db) (tenantId deliveryId : String) : StoreResult Delivery :=
  match db.deliveries.find? fun d => d.key = (tenantId, deliveryId) with
  | some row => deliveryFromRow row
  | none => .error (.conflict "delivery was not found")

/-- Acknowledges an attempt at a delivery, and reads it when that has committed. -/
def completeDelivery (db : Db) (request : CompleteDelivery) : Db × StoreResult Delivery :=
  checked db request.validate <|
    let leased : Delivery → Bool := fun d => d.isLeasedTo request.tenantId request.deliveryId
      request.leaseOwner request.finishedAtEpochSeconds
    let changed := db.deliveries.countP leased
    let db' := { db with
      deliveries := Table.update leased
        (fun d => d.finish request.success request.nextAttemptEpochSeconds
          request.deliveredAtEpochSeconds request.error) db.deliveries }
    if changed ≠ 1 then (db', .error (.conflict "delivery is not leased by this worker"))
    else (db', fetchDelivery db' request.tenantId request.deliveryId)

/-- Lists deliveries. -/
def listDeliveries (db : Db) (request : ListDeliveries) : Db × StoreResult (List Delivery) :=
  query db do
    request.validate
    (db.listDeliveries request.tenantId request.status request.limit).mapM deliveryFromRow

end Comsat.SqliteStore
