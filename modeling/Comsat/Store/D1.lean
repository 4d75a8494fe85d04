import Comsat.Lib.Double
import Comsat.Store.Schema

set_option relaxedAutoImplicit false
set_option autoImplicit false

/-!
# The D1 adapter

The store operations as the D1 adapter carries them out: single statements, and one batch of
statements for a completion, whose results are decoded afterwards.

## Main definitions

* `D1Store.int`, `D1Store.sqlAdd` — the integers that reach the database.
* `D1Store.batch` — a batch of statements, each with its own result.
* `D1Store.completeStatements`, `D1Store.completeOutcome` — the statements of a completion and
  the decoding of their results.

## Design

* An integer is bound as a JavaScript number, so every bound integer passes through
  `Double.ofInt`; stored integers are read back as they are stored. JSON text that the database
  writes keeps the real number.
* The statements over `json_each` take the records of the request, since the text that is bound
  is the one the serializer writes for them. `GROUP BY` keeps the first row of a group.
* No statement of the batch can fail, so a batch commits whatever its results are decoded to.
  The rows that a statement returns are decoded when it has committed. (The functions of the database
  for JSON texts refuse what nests more than 1000 deep, far deeper than anything that the program
  parses.)
-/

namespace Comsat.D1Store

/-! ## Values -/

/-- An integer as it is bound to a statement. -/
def int (value : ℤ) : ℤ := Double.ofInt value

/-- Addition in the database: of integers if the sum has 64 bits, else of doubles. -/
def sqlAdd (a b : ℤ) : ℤ :=
  if -2 ^ 63 ≤ a + b ∧ a + b < 2 ^ 63 then a + b else Double.ofInt (a + b)

/-- The most bytes that the records of a completion may take. -/
def maxRecordsJsonBytes : ℕ := 1048576

/-- A record as it is bound to the statements of a completion. -/
def bulkRecord (record : Record) : Json :=
  .obj [("source_id", .str record.source.value), ("record_id", .str record.id.value),
    ("kind", .str record.kind), ("url", .str record.url), ("title", .optStr record.title),
    ("text", .optStr record.text), ("author", .optStr record.author),
    ("created_at", .optStr record.createdAt), ("updated_at", .optStr record.updatedAt),
    ("metadata_json", .str record.metadata.compact)]

/-- The records of a completion as they are bound, refused beyond the limit. -/
def recordsJson (request : CompleteWatchRun) : StoreResult Json :=
  let json := Json.arr (request.records.map bulkRecord)
  if json.byteLength ≤ maxRecordsJsonBytes then .ok json
  else .error (.validation "serialized D1 completion records exceed 1048576 bytes")

/-! ## Rows -/

/-- The error of a column whose text cannot be parsed. -/
def jsonError (message : String) : StoreError := .backend message

/-- The watch of a row. -/
def intoWatch (row : Watch) : StoreResult Watch := row.readBack.mapError jsonError

/-- The observation of a row. -/
def intoObservation (row : RecordObservation) : StoreResult RecordObservation :=
  row.readBack.mapError jsonError

/-- The delivery of a row. -/
def intoDelivery (row : Delivery) : StoreResult Delivery := row.readBack.mapError jsonError

/-- The rows that a statement returned, decoded when it has committed: an error leaves what the
statement wrote. -/
def decoded {α : Type} (result : Db × StoreResult (StoreResult α)) : Db × StoreResult α :=
  (result.1, result.2 >>= id)

/-! ## Sources and watches -/

/-- Records a source of a tenant. -/
def upsertSource (db : Db) (request : UpsertSource) : Db × StoreResult Unit :=
  transaction db do
    request.validate
    return ((), db.upsertSource ⟨request.tenantId, request.sourceId, request.enabled,
      int request.observedAtEpochSeconds⟩)

/-- The row that is bound for a watch. -/
def watchValues (watch : Watch) : StoreResult Watch := do
  let interval ← i64FromU64 watch.intervalSeconds "interval_seconds"
  return { watch with
    intervalSeconds := (int interval).toNat
    createdAtEpochSeconds := int watch.createdAtEpochSeconds
    nextDueEpochSeconds := int watch.nextDueEpochSeconds }

/-- Creates a watch. -/
def createWatch [ExternalParsers] (db : Db) (request : CreateWatch) : Db × StoreResult Watch :=
  transaction db do
    request.validate
    let watch := request.intoWatch
    let db' ← db.insertWatch (← watchValues watch)
    return (watch, db')

/-- Lists the watches of a tenant. -/
def listWatches (db : Db) (tenantId : String) : Db × StoreResult (List Watch) :=
  query db do
    validateTenantId tenantId
    (db.listWatches tenantId).mapM intoWatch

/-- Deletes a watch. -/
def deleteWatch (db : Db) (request : DeleteWatch) : Db × StoreResult Bool :=
  transaction db do
    request.validate
    let changed := db.watches.countP fun w =>
      w.tenantId = request.tenantId && w.watchId = request.watchId
    return (decide (0 < changed), db.deleteWatch request.tenantId request.watchId)

/-- The claim of a returned row. -/
def claimedWatch (row : Watch) (leaseOwner : String) (leaseExpires : ℤ) :
    StoreResult ClaimedWatch := do
  let watch ← intoWatch row
  return ⟨watch, leaseOwner, leaseExpires⟩

/-- Claims the next due watch with one statement that returns the updated row. -/
def claimDueWatch (db : Db) (request : ClaimDueWatch) : Db × StoreResult (Option ClaimedWatch) :=
  decoded <| transaction db do
    request.validate
    let leaseSeconds ← i64FromU64 request.leaseSeconds "lease_seconds"
    let leaseExpires := addI64 request.nowEpochSeconds leaseSeconds
    let now := int request.nowEpochSeconds
    let claimed : Watch → Bool := fun w =>
      w.isDue request.tenantId now &&
        (db.dueWatch request.tenantId now).any fun due => due.watchId = w.watchId
    let returning := (db.watches.filter claimed).map fun w =>
      w.withLease request.leaseOwner (int leaseExpires)
    return (returning.head?.mapM fun row => claimedWatch row request.leaseOwner leaseExpires,
      { db with
        watches := Table.update claimed
          (fun w => w.withLease request.leaseOwner (int leaseExpires)) db.watches })

/-! ## Runs -/

/-- The run of a start request. -/
def loadRun (db : Db) (request : StartWatchRun) : StoreResult WatchRun :=
  match db.loadRun request.tenantId request.watchId request.idempotencyKey with
  | some run => .ok run
  | none => .error (.conflict "watch is not currently claimed by this worker")

/-- Starts a run of a claimed watch, or finds the run that an earlier request with the same key
started. -/
def startWatchRun (db : Db) (request : StartWatchRun) : Db × StoreResult WatchRun :=
  checked db request.validate <|
    match db.insertRun ⟨request.tenantId, request.watchId, request.runId, request.idempotencyKey,
        request.leaseOwner, .running, int request.startedAtEpochSeconds, none, none⟩ with
    | .ok db' => (db', loadRun db' request)
    | .error e => (db, .error e)

/-! ## The statements of a completion -/

/-- The result of a statement in a batch. -/
structure D1Result where
  /-- The intervals that a query returned. -/
  results : List ℤ
  /-- How many rows a statement changed. -/
  changes : ℕ

/-- A statement of a batch. -/
abbrev D1Statement := Db → Db × D1Result

/-- A batch: the statements one after the other, with their results. -/
def batch (statements : List D1Statement) (db : Db) : Db × List D1Result :=
  statements.foldl (fun (db, results) statement =>
    let (db', result) := statement db
    (db', results ++ [result])) (db, [])

/-- The rows of the watch joined with those of its run, under the lease of the worker. -/
def gateRows (db : Db) (request : CompleteWatchRun) : List ℤ :=
  (db.watches.filter fun w => w.isLeasedTo request.tenantId request.watchId request.leaseOwner
      (int request.finishedAtEpochSeconds)).flatMap fun w =>
    (db.watchRuns.filter fun r => r.isRunningUnder w.tenantId w.watchId request.runId
      request.leaseOwner).map fun _ => (w.intervalSeconds : ℤ)

/-- The condition of every statement that writes records: the gate has a row. -/
def isOpen (db : Db) (request : CompleteWatchRun) : Bool := !(gateRows db request).isEmpty

/-- The query that decides whether the worker may complete the run. -/
def completeGate (request : CompleteWatchRun) : D1Statement := fun db =>
  (db, ⟨gateRows db request, 0⟩)

/-- Inserts the records that are new to the tenant. -/
def insertRecords (request : CompleteWatchRun) : D1Statement := fun db =>
  let rows := if isOpen db request then
      request.records.map
        (RecordRow.observed request.tenantId (int request.finishedAtEpochSeconds))
    else []
  let records := Table.insertAllIgnore RecordRow.key db.records rows
  ({ db with records }, ⟨[], records.length - db.records.length⟩)

/-- The first record of the request with the identity of a row. -/
def incoming (request : CompleteWatchRun) (identity : SourceId × RecordId) : Option Record :=
  request.records.find? fun record => record.identity = identity

/-- Updates the records of the tenant that the request has: every column to that of the first
one with the identity. -/
def updateRecords (request : CompleteWatchRun) : D1Statement := fun db =>
  let updated : RecordRow → Bool := fun row =>
    row.tenantId = request.tenantId && (incoming request row.record.identity).isSome &&
      isOpen db request
  ({ db with
      records := Table.update updated (fun row =>
        match incoming request row.record.identity with
        | some record => row.setContent
            (RecordRow.observed request.tenantId (int request.finishedAtEpochSeconds) record)
        | none => row) db.records },
    ⟨[], db.records.countP updated⟩)

/-- The records of the request that are new to the watch: one of every identity, in the order of
the identities. -/
def newRecords (db : Db) (request : CompleteWatchRun) : List Record :=
  (Table.groupBy (fun record => identityOrder record.source record.id) request.records).filter
    fun record => !db.watchRecords.any fun row =>
      row.key = (request.tenantId, request.watchId, record.identity)

/-- Queues the notification of the records that are new to the watch, if there are some. -/
def insertRunDelivery (request : CompleteWatchRun) (delivery : WatchRunDelivery) : D1Statement :=
  fun db =>
    let finishedAt := int request.finishedAtEpochSeconds
    let records := if isOpen db request then newRecords db request else []
    let rows := if 0 < records.length then
        [{ tenantId := request.tenantId
           deliveryId := delivery.deliveryId
           watchId := request.watchId
           runId := some request.runId
           status := .pending
           target := delivery.target
           payload := ⟨request.tenantId, request.watchId, request.runId, .real finishedAt, records⟩
           createdAtEpochSeconds := finishedAt
           nextAttemptEpochSeconds := finishedAt
           attempts := 0
           leaseOwner := none
           leaseExpiresEpochSeconds := none
           deliveredAtEpochSeconds := none
           error := none }]
      else []
    let deliveries := Table.insertAllIgnore Delivery.key db.deliveries rows
    ({ db with deliveries }, ⟨[], deliveries.length - db.deliveries.length⟩)

/-- Inserts the records that are new to the watch. -/
def insertWatchRecords (request : CompleteWatchRun) : D1Statement := fun db =>
  let rows := if isOpen db request then
      request.records.map (WatchRecordRow.observed request.tenantId request.watchId
        (int request.finishedAtEpochSeconds))
    else []
  let watchRecords := Table.insertAllIgnore WatchRecordRow.key db.watchRecords rows
  ({ db with watchRecords }, ⟨[], watchRecords.length - db.watchRecords.length⟩)

/-- Updates the last observation of the records of the watch that the request has. -/
def updateWatchRecords (request : CompleteWatchRun) : D1Statement := fun db =>
  let updated : WatchRecordRow → Bool := fun row =>
    row.tenantId = request.tenantId && row.watchId = request.watchId &&
      (incoming request row.identity).isSome && isOpen db request
  ({ db with
      watchRecords := Table.update updated (fun row =>
        { row with lastObservedEpochSeconds := int request.finishedAtEpochSeconds })
        db.watchRecords },
    ⟨[], db.watchRecords.countP updated⟩)

/-- Completes the run. -/
def completeRun (request : CompleteWatchRun) : D1Statement := fun db =>
  let finishedAt := int request.finishedAtEpochSeconds
  let completed : WatchRun → Bool := fun r =>
    r.isRunningUnder request.tenantId request.watchId request.runId request.leaseOwner &&
      db.watches.any fun w =>
        w.isLeasedTo request.tenantId request.watchId request.leaseOwner finishedAt
  ({ db with
      watchRuns := Table.update completed
        (fun r => r.finish request.status finishedAt request.error) db.watchRuns },
    ⟨[], db.watchRuns.countP completed⟩)

/-- The run, finished under the owner at an instant. -/
def isFinishedUnder (run : WatchRun) (tenantId watchId runId owner : String) (at_ : ℤ) : Bool :=
  run.tenantId = tenantId && run.watchId = watchId && run.runId = runId &&
    run.leaseOwner = owner && (run.status = .succeeded || run.status = .failed) &&
    run.finishedAtEpochSeconds = some at_

/-- Ends the lease of the watch and schedules it, if the run is finished under the worker. -/
def completeWatch (request : CompleteWatchRun) : D1Statement := fun db =>
  let finishedAt := int request.finishedAtEpochSeconds
  let completed : Watch → Bool := fun w =>
    w.isLeasedTo request.tenantId request.watchId request.leaseOwner finishedAt &&
      db.watchRuns.any fun r => isFinishedUnder r request.tenantId request.watchId request.runId
        request.leaseOwner finishedAt
  ({ db with
      watches := Table.update completed
        (fun w => w.finish request.nextCursor (sqlAdd finishedAt w.intervalSeconds)) db.watches },
    ⟨[], db.watches.countP completed⟩)

/-- The statements that write records, with the notification if the request has one. -/
def recordStatements (request : CompleteWatchRun) : List D1Statement :=
  [insertRecords request, updateRecords request] ++
    (match request.delivery with
      | some delivery => [insertRunDelivery request delivery]
      | none => []) ++
    [insertWatchRecords request, updateWatchRecords request]

/-- The statements that finish run and watch. -/
def finishStatements (request : CompleteWatchRun) : List D1Statement :=
  [completeRun request, completeWatch request]

/-- The batch of a completion. -/
def completeStatements (request : CompleteWatchRun) : List D1Statement :=
  completeGate request :: (recordStatements request ++ finishStatements request)

/-! ## The results of a completion -/

/-- Fails unless the gate returned exactly one row, with a positive interval. -/
def ensureCompletionGate (result : Option D1Result) (request : CompleteWatchRun) :
    StoreResult Unit :=
  match result with
  | none => .error (.backend "D1 completion batch returned no gate")
  | some result =>
    match result.results with
    | [interval] => if 0 < interval then .ok () else closed
    | _ => closed
where
  closed : StoreResult Unit := .error (.conflict (
    if request.error.isSome then "watch run is not running under this lease"
    else "watch lease is not held by this worker"))

/-- How many rows a statement of the batch changed. -/
def changesAt (results : List D1Result) (index : ℕ) : StoreResult ℕ :=
  match results[index]? with
  | some result => .ok result.changes
  | none => .error (.backend "D1 completion batch was truncated")

/-- Fails unless a statement of the batch changed exactly one row. -/
def ensureChanged (result : Option D1Result) (message : String) : StoreResult Unit :=
  match result with
  | none => .error (.backend "D1 completion batch was truncated")
  | some result => if result.changes = 1 then .ok () else .error (.conflict message)

/-- What the results of the batch say about the completion. -/
def completeOutcome (request : CompleteWatchRun) (results : List D1Result) :
    StoreResult WatchRunOutcome := do
  ensureCompletionGate results[0]? request
  let recordsInserted ← changesAt results 1
  let deliveryOffset := if request.delivery.isSome then 1 else 0
  let watchRecordsInserted ← changesAt results (3 + deliveryOffset)
  ensureChanged results[5 + deliveryOffset]? "watch run is not running under this lease"
  ensureChanged results[6 + deliveryOffset]? "watch lease is not held by this worker"
  return ⟨request.runId, request.status, request.records.length, recordsInserted,
    watchRecordsInserted⟩

/-- Completes a run: the batch, and then the decoding of its results. -/
def completeWatchRun [ExternalParsers] (db : Db) (request : CompleteWatchRun) :
    Db × StoreResult WatchRunOutcome :=
  checked db request.validate <|
    checked db ((recordsJson request).map fun _ => ()) <|
      let (db', results) := batch (completeStatements request) db
      (db', completeOutcome request results)

/-! ## History -/

/-- The records observed so far, of a watch or of the tenant. -/
def history (db : Db) (request : HistoryRequest) : Db × StoreResult (List RecordObservation) :=
  query db do
    request.validate
    match request.watchId with
    | some watchId =>
      (db.historyForWatch request.tenantId watchId (int request.since)
        (int request.limit).toNat).mapM intoObservation
    | none =>
      (db.historyForTenant request.tenantId (int request.since) (int request.limit).toNat).mapM
        intoObservation

/-! ## Deliveries -/

/-- Claims the next delivery with one statement that returns the updated row. -/
def claimPendingDelivery (db : Db) (request : ClaimPendingDelivery) :
    Db × StoreResult (Option Delivery) :=
  decoded <| transaction db do
    request.validate
    let leaseSeconds ← i64FromU64 request.leaseSeconds "lease_seconds"
    let leaseExpires := addI64 request.nowEpochSeconds leaseSeconds
    let now := int request.nowEpochSeconds
    let returning := (db.deliveries.filter (db.isClaimed request.tenantId now)).map fun d =>
      d.withLease request.leaseOwner (int leaseExpires)
    return (returning.head?.mapM intoDelivery,
      db.claimDelivery request.tenantId now request.leaseOwner (int leaseExpires))

/-- Acknowledges an attempt at a delivery with one statement that returns the updated row. -/
def completeDelivery (db : Db) (request : CompleteDelivery) : Db × StoreResult Delivery :=
  checked db request.validate <|
    let leased : Delivery → Bool := fun d => d.isLeasedTo request.tenantId request.deliveryId
      request.leaseOwner (int request.finishedAtEpochSeconds)
    let finish : Delivery → Delivery := fun d =>
      d.finish request.success (int request.nextAttemptEpochSeconds)
        (request.deliveredAtEpochSeconds.map int) request.error
    let returning := (db.deliveries.filter leased).map finish
    ({ db with deliveries := Table.update leased finish db.deliveries },
      match returning.head? with
      | some row => intoDelivery row
      | none => .error (.conflict "delivery is not leased by this worker"))

/-- Lists deliveries. -/
def listDeliveries (db : Db) (request : ListDeliveries) : Db × StoreResult (List Delivery) :=
  query db do
    request.validate
    (db.listDeliveries request.tenantId request.status (int request.limit).toNat).mapM intoDelivery

end Comsat.D1Store
