import Comsat.Lib.Table
import Comsat.Store.Model
import Comsat.Types.JsonText
import Mathlib

set_option relaxedAutoImplicit false
set_option autoImplicit false

/-!
# Tables of the store

The tables that the migrations create, their keys, and the conditions and column updates that
the statements of both adapters share word for word.

## Main definitions

* `Db` — the tables of a database.
* `Watch.key`, `WatchRun.key`, `RecordRow.key`, … — the primary keys.
* `Watch.isDue`, `Watch.isLeasedTo`, `WatchRun.isRunningUnder`, `Delivery.isEligible` —
  conditions of the statements.
* `Watch.readBack`, `RecordObservation.readBack`, `Delivery.readBack` — a row as it is read.
* `Db.ofTenant` — the rows of one tenant.
* `transaction` — a transaction: a failed body leaves the database alone.

## Design

* A table is a list of rows in the order of insertion. Columns that hold JSON text hold the
  value, so a row of `watches` is a `Watch` and a row of `deliveries` a `Delivery`; whether it can
  be read back is decided when it is read.
* Foreign keys only act when a watch is deleted (`Db.deleteWatch`): every other statement that
  inserts a referencing row selects from, or has just written, the referenced one.
-/

namespace Comsat

/-! ## Rows -/

/-- A row of `sources`. -/
structure SourceRow where
  tenantId : String
  sourceId : SourceId
  enabled : Bool
  observedAtEpochSeconds : ℤ

/-- A row of `records`: the columns of a record with the tenant and the observations. -/
structure RecordRow where
  tenantId : String
  /-- The columns of the record. -/
  record : Record
  firstObservedEpochSeconds : ℤ
  lastObservedEpochSeconds : ℤ

/-- A row of `watch_records`. -/
structure WatchRecordRow where
  tenantId : String
  watchId : String
  sourceId : SourceId
  recordId : RecordId
  firstObservedEpochSeconds : ℤ
  lastObservedEpochSeconds : ℤ

/-! ## Keys -/

/-- The primary key of `sources`. -/
def SourceRow.key (row : SourceRow) : String × SourceId := (row.tenantId, row.sourceId)

/-- The primary key of `watches`. -/
def Watch.key (watch : Watch) : String × String := (watch.tenantId, watch.watchId)

/-- The primary key of `watch_runs`. -/
def WatchRun.key (run : WatchRun) : String × String × String :=
  (run.tenantId, run.watchId, run.runId)

/-- The second unique key of `watch_runs`. -/
def WatchRun.idempotency (run : WatchRun) : String × String × String :=
  (run.tenantId, run.watchId, run.idempotencyKey)

/-- The primary key of `records`. -/
def RecordRow.key (row : RecordRow) : String × SourceId × RecordId :=
  (row.tenantId, row.record.identity)

/-- The identity of the record of a row of `watch_records`. -/
def WatchRecordRow.identity (row : WatchRecordRow) : SourceId × RecordId :=
  (row.sourceId, row.recordId)

/-- The primary key of `watch_records`. -/
def WatchRecordRow.key (row : WatchRecordRow) : String × String × SourceId × RecordId :=
  (row.tenantId, row.watchId, row.identity)

/-- The primary key of `deliveries`. -/
def Delivery.key (delivery : Delivery) : String × String :=
  (delivery.tenantId, delivery.deliveryId)

/-- The order in which text is compared: by source and then by record. -/
def identityOrder (source : SourceId) (id : RecordId) : String ×ₗ String :=
  toLex (source.value, id.value)

/-! ## Columns -/

/-- Sets the columns of a source to those of another row. -/
def SourceRow.setObserved (row excluded : SourceRow) : SourceRow :=
  { row with
    enabled := excluded.enabled
    observedAtEpochSeconds := excluded.observedAtEpochSeconds }

/-- Setting the columns of a source leaves its key alone. -/
lemma SourceRow.key_setObserved (row excluded : SourceRow) :
    (row.setObserved excluded).key = row.key := rfl

/-- The row that a completion inserts for a record. -/
def RecordRow.observed (tenantId : String) (at_ : ℤ) (record : Record) : RecordRow :=
  ⟨tenantId, record, at_, at_⟩

/-- Sets the content columns of a row and its last observation to those of another one. -/
def RecordRow.setContent (row excluded : RecordRow) : RecordRow :=
  { row with
    record := { row.record with
      kind := excluded.record.kind
      url := excluded.record.url
      title := excluded.record.title
      text := excluded.record.text
      author := excluded.record.author
      createdAt := excluded.record.createdAt
      updatedAt := excluded.record.updatedAt
      metadata := excluded.record.metadata }
    lastObservedEpochSeconds := excluded.lastObservedEpochSeconds }

/-- The row that a completion inserts for a record of its watch. -/
def WatchRecordRow.observed (tenantId watchId : String) (at_ : ℤ) (record : Record) :
    WatchRecordRow :=
  ⟨tenantId, watchId, record.source, record.id, at_, at_⟩

/-- Sets the last observation of a row to that of another one. -/
def WatchRecordRow.setObserved (row excluded : WatchRecordRow) : WatchRecordRow :=
  { row with lastObservedEpochSeconds := excluded.lastObservedEpochSeconds }

/-- Setting the content of a row leaves its key alone. -/
lemma RecordRow.key_setContent (row excluded : RecordRow) :
    (row.setContent excluded).key = row.key := rfl

/-- Setting the last observation of a row leaves its key alone. -/
lemma WatchRecordRow.key_setObserved (row excluded : WatchRecordRow) :
    (row.setObserved excluded).key = row.key := rfl

/-- Puts a watch under a lease. -/
def Watch.withLease (watch : Watch) (owner : String) (expires : ℤ) : Watch :=
  { watch with leaseOwner := some owner, leaseExpiresEpochSeconds := some expires }

/-- Ends the lease of a watch and schedules it. -/
def Watch.finish (watch : Watch) (cursor : Json) (nextDue : ℤ) : Watch :=
  { watch with
    cursor
    nextDueEpochSeconds := nextDue
    leaseOwner := none
    leaseExpiresEpochSeconds := none }

/-- Completes a run. -/
def WatchRun.finish (run : WatchRun) (status : RunStatus) (at_ : ℤ) (error : Option String) :
    WatchRun :=
  { run with status, finishedAtEpochSeconds := some at_, error }

/-- Puts a delivery under a lease and counts the attempt. -/
def Delivery.withLease (delivery : Delivery) (owner : String) (expires : ℤ) : Delivery :=
  { delivery with
    status := .delivering
    attempts := delivery.attempts + 1
    leaseOwner := some owner
    leaseExpiresEpochSeconds := some expires
    error := none }

/-- Ends the lease of a delivery: it succeeded, it failed for good, or it waits. -/
def Delivery.finish (delivery : Delivery) (success : Bool) (nextAttempt : ℤ)
    (deliveredAt : Option ℤ) (error : Option String) : Delivery :=
  { delivery with
    status :=
      if success then .succeeded
      else if maxDeliveryAttempts ≤ delivery.attempts then .failed
      else .pending
    nextAttemptEpochSeconds := nextAttempt
    deliveredAtEpochSeconds := deliveredAt
    error
    leaseOwner := none
    leaseExpiresEpochSeconds := none }

/-! ## Reading rows -/

/-- A watch as it is read from its row: the cursor is parsed. -/
def Watch.readBack (row : Watch) : Except String Watch := do
  let cursor ← row.cursor.readBack
  return { row with cursor }

/-- An observation as it is read from its row: the metadata of the record is parsed. -/
def RecordObservation.readBack (row : RecordObservation) : Except String RecordObservation := do
  let metadata ← row.record.metadata.readBack
  return { row with record := { row.record with metadata } }

/-- A delivery as it is read from its row: target and payload are parsed. -/
def Delivery.readBack (row : Delivery) : Except String Delivery := do
  let target ← row.target.readBack
  let _ ← row.payload.toJson.readBack
  return { row with target }

/-- The cursor of the watch nests no deeper than the parser allows. -/
def Watch.IsReadable (row : Watch) : Prop := row.cursor.depth ≤ Json.nestingLimit

/-- The metadata of the record nests no deeper than the parser allows. -/
def RecordObservation.IsReadable (row : RecordObservation) : Prop :=
  row.record.metadata.depth ≤ Json.nestingLimit

/-- Neither target nor payload nests deeper than the parser allows. -/
def Delivery.IsReadable (row : Delivery) : Prop :=
  row.target.depth ≤ Json.nestingLimit ∧ row.payload.toJson.depth ≤ Json.nestingLimit

instance (row : Watch) : Decidable row.IsReadable := inferInstanceAs (Decidable (_ ≤ _))

instance (row : RecordObservation) : Decidable row.IsReadable := inferInstanceAs (Decidable (_ ≤ _))

instance (row : Delivery) : Decidable row.IsReadable := inferInstanceAs (Decidable (_ ∧ _))

/-- A written record nests one level deeper than its metadata. -/
lemma Record.depth_toJson (record : Record) :
    record.toJson.depth = record.metadata.depth + 1 := by
  have hoptional : ∀ value : Option String, (Json.optStr value).depth = 0 := by
    intro value
    cases value <;> rfl
  simp [toJson, Json.depth, Json.depthFields, hoptional]

/-- A payload can be parsed if the metadata of each record nests three levels less deeply than the
parser allows. -/
lemma DeliveryPayload.depth_toJson_le {payload : DeliveryPayload} :
    payload.toJson.depth ≤ Json.nestingLimit ↔
      ∀ record ∈ payload.records, record.metadata.depth + 3 ≤ Json.nestingLimit := by
  have hinstant : payload.observedAtEpochSeconds.toJson.depth = 0 := by
    cases payload.observedAtEpochSeconds <;> rfl
  have hdepth : payload.toJson.depth = Json.depthItems (payload.records.map Record.toJson) + 2 := by
    simp [toJson, Json.depth, Json.depthFields, hinstant]
  have hlimit : 2 ≤ Json.nestingLimit := by decide
  rw [hdepth, ← Nat.le_sub_iff_add_le hlimit, Json.depthItems_le_iff, List.forall_mem_map]
  refine forall₂_congr fun record _ => ?_
  rw [Nat.le_sub_iff_add_le hlimit, Record.depth_toJson]

/-- A readable watch is read as it is. -/
lemma Watch.readBack_of_readable {row : Watch} (h : row.IsReadable) : row.readBack = .ok row := by
  rw [readBack, Json.readBack_of_depth_le h]
  rfl

/-- A watch that is not readable is not read. -/
lemma Watch.readBack_of_not_readable {row : Watch} (h : ¬ row.IsReadable) :
    ∃ message, row.readBack = .error message := by
  obtain ⟨message, hmessage⟩ := Json.readBack_of_lt_depth (Nat.not_le.mp h)
  rw [readBack, hmessage]
  exact ⟨message, rfl⟩

/-- A readable observation is read as it is. -/
lemma RecordObservation.readBack_of_readable {row : RecordObservation} (h : row.IsReadable) :
    row.readBack = .ok row := by
  rw [readBack, Json.readBack_of_depth_le h]
  rfl

/-- An observation that is not readable is not read. -/
lemma RecordObservation.readBack_of_not_readable {row : RecordObservation}
    (h : ¬ row.IsReadable) : ∃ message, row.readBack = .error message := by
  obtain ⟨message, hmessage⟩ := Json.readBack_of_lt_depth (Nat.not_le.mp h)
  rw [readBack, hmessage]
  exact ⟨message, rfl⟩

/-- A readable delivery is read as it is. -/
lemma Delivery.readBack_of_readable {row : Delivery} (h : row.IsReadable) :
    row.readBack = .ok row := by
  rw [readBack, Json.readBack_of_depth_le h.1, Json.readBack_of_depth_le h.2]
  rfl

/-- A delivery that is not readable is not read. -/
lemma Delivery.readBack_of_not_readable {row : Delivery} (h : ¬ row.IsReadable) :
    ∃ message, row.readBack = .error message := by
  rw [readBack]
  by_cases htarget : row.target.depth ≤ Json.nestingLimit
  · obtain ⟨message, hmessage⟩ :=
      Json.readBack_of_lt_depth (Nat.not_le.mp fun hpayload => h ⟨htarget, hpayload⟩)
    rw [Json.readBack_of_depth_le htarget, hmessage]
    exact ⟨message, rfl⟩
  · obtain ⟨message, hmessage⟩ := Json.readBack_of_lt_depth (Nat.not_le.mp htarget)
    rw [hmessage]
    exact ⟨message, rfl⟩

/-! ## Conditions -/

/-- An instant that is there and not later than `now`; a missing one compares to nothing. -/
def isPast (instant : Option ℤ) (now : ℤ) : Bool := instant.any fun e => e ≤ now

/-- An instant that is there and later than `now`. -/
def isFuture (instant : Option ℤ) (now : ℤ) : Bool := instant.any fun e => now < e

/-- An enabled watch of the tenant that is due and not under an unexpired lease. -/
def Watch.isDue (watch : Watch) (tenantId : String) (now : ℤ) : Bool :=
  watch.tenantId = tenantId && watch.enabled && watch.nextDueEpochSeconds ≤ now &&
    (watch.leaseExpiresEpochSeconds.isNone || isPast watch.leaseExpiresEpochSeconds now)

/-- The watch, under an unexpired lease of the owner. -/
def Watch.isLeasedTo (watch : Watch) (tenantId watchId owner : String) (now : ℤ) : Bool :=
  watch.tenantId = tenantId && watch.watchId = watchId && watch.leaseOwner = some owner &&
    isFuture watch.leaseExpiresEpochSeconds now

/-- The run, running under the owner. -/
def WatchRun.isRunningUnder (run : WatchRun) (tenantId watchId runId owner : String) : Bool :=
  run.tenantId = tenantId && run.watchId = watchId && run.runId = runId &&
    run.leaseOwner = owner && run.status = .running

/-- A delivery of the tenant that may be attempted: it waits no longer, or its lease expired. -/
def Delivery.isEligible (delivery : Delivery) (tenantId : String) (now : ℤ) : Bool :=
  delivery.tenantId = tenantId &&
    (delivery.status = .pending && delivery.nextAttemptEpochSeconds ≤ now ||
      delivery.status = .delivering && isPast delivery.leaseExpiresEpochSeconds now)

/-- The delivery, under an unexpired lease of the owner. -/
def Delivery.isLeasedTo (delivery : Delivery) (tenantId deliveryId owner : String) (now : ℤ) :
    Bool :=
  delivery.tenantId = tenantId && delivery.deliveryId = deliveryId &&
    delivery.leaseOwner = some owner && delivery.status = .delivering &&
    isFuture delivery.leaseExpiresEpochSeconds now

/-! ## Orders of the queries -/

/-- The order in which due watches are claimed. -/
def Watch.dueOrder (watch : Watch) : ℤ ×ₗ ℤ ×ₗ String :=
  toLex (watch.nextDueEpochSeconds, toLex (watch.createdAtEpochSeconds, watch.watchId))

/-- The order in which watches are listed. -/
def Watch.listOrder (watch : Watch) : ℤ ×ₗ String :=
  toLex (watch.createdAtEpochSeconds, watch.watchId)

/-- The order in which deliveries are claimed. -/
def Delivery.attemptOrder (delivery : Delivery) : ℤ ×ₗ ℤ ×ₗ String :=
  toLex (delivery.nextAttemptEpochSeconds,
    toLex (delivery.createdAtEpochSeconds, delivery.deliveryId))

/-- The order in which deliveries are listed. -/
def Delivery.listOrder (delivery : Delivery) : ℤ ×ₗ String :=
  toLex (delivery.createdAtEpochSeconds, delivery.deliveryId)

/-- The order of a history: the latest observation first. -/
def RecordObservation.historyOrder (observation : RecordObservation) : ℤ ×ₗ String ×ₗ String :=
  toLex (-observation.lastObservedEpochSeconds,
    identityOrder observation.record.source observation.record.id)

/-! ## The database -/

/-- The tables of a database. -/
structure Db where
  sources : List SourceRow
  watches : List Watch
  watchRuns : List WatchRun
  records : List RecordRow
  watchRecords : List WatchRecordRow
  deliveries : List Delivery

namespace Db

/-- The database after the migrations. -/
def empty : Db := ⟨[], [], [], [], [], []⟩

/-- The rows of one tenant. -/
def ofTenant (tenantId : String) (db : Db) : Db where
  sources := db.sources.filter fun row => row.tenantId = tenantId
  watches := db.watches.filter fun row => row.tenantId = tenantId
  watchRuns := db.watchRuns.filter fun row => row.tenantId = tenantId
  records := db.records.filter fun row => row.tenantId = tenantId
  watchRecords := db.watchRecords.filter fun row => row.tenantId = tenantId
  deliveries := db.deliveries.filter fun row => row.tenantId = tenantId

/-- `INSERT ... ON CONFLICT DO UPDATE` of a source. -/
def upsertSource (db : Db) (row : SourceRow) : Db :=
  { db with
    sources := Table.upsert SourceRow.key SourceRow.setObserved db.sources row }

/-- A plain `INSERT` of a watch, which fails when its key is taken. -/
def insertWatch (db : Db) (watch : Watch) : StoreResult Db :=
  if Table.exists? Watch.key db.watches watch then
    .error (.backend "UNIQUE constraint failed: watches.tenant_id, watches.watch_id")
  else .ok { db with watches := db.watches ++ [watch] }

/-- Deletes a watch, and with it the rows that refer to it. -/
def deleteWatch (db : Db) (tenantId watchId : String) : Db :=
  { db with
    watches := Table.delete (fun row => row.tenantId = tenantId && row.watchId = watchId)
      db.watches
    watchRuns := Table.delete (fun row => row.tenantId = tenantId && row.watchId = watchId)
      db.watchRuns
    watchRecords := Table.delete (fun row => row.tenantId = tenantId && row.watchId = watchId)
      db.watchRecords
    deliveries := Table.delete (fun row => row.tenantId = tenantId && row.watchId = watchId)
      db.deliveries }

/-- The first watch that is due, in the order of claims. -/
def dueWatch (db : Db) (tenantId : String) (now : ℤ) : Option Watch :=
  (Table.orderBy Watch.dueOrder (db.watches.filter fun w => w.isDue tenantId now)).head?

/-- `INSERT INTO watch_runs ... SELECT ... WHERE EXISTS (lease) ON CONFLICT (idempotency key) DO
NOTHING`. A conflict on the idempotency key is looked for first; a conflict on the primary key
alone fails. -/
def insertRun (db : Db) (run : WatchRun) : StoreResult Db :=
  if db.watches.any fun w =>
      w.isLeasedTo run.tenantId run.watchId run.leaseOwner run.startedAtEpochSeconds then
    if Table.exists? WatchRun.idempotency db.watchRuns run then .ok db
    else if Table.exists? WatchRun.key db.watchRuns run then
      .error (.backend
        "UNIQUE constraint failed: watch_runs.tenant_id, watch_runs.watch_id, watch_runs.run_id")
    else .ok { db with watchRuns := db.watchRuns ++ [run] }
  else .ok db

/-- The run under an idempotency key. -/
def loadRun (db : Db) (tenantId watchId idempotencyKey : String) : Option WatchRun :=
  db.watchRuns.find? fun r => r.idempotency = (tenantId, watchId, idempotencyKey)

/-- The first delivery that may be attempted, in the order of claims. -/
def eligibleDelivery (db : Db) (tenantId : String) (now : ℤ) : Option Delivery :=
  (Table.orderBy Delivery.attemptOrder
    (db.deliveries.filter fun d => d.isEligible tenantId now)).head?

/-- Whether the claim of a delivery updates the row: it may be attempted, and it is the first one
that may. -/
def isClaimed (db : Db) (tenantId : String) (now : ℤ) (delivery : Delivery) : Bool :=
  delivery.isEligible tenantId now &&
    (db.eligibleDelivery tenantId now).any fun d => d.deliveryId = delivery.deliveryId

/-- Claims the first delivery that may be attempted. -/
def claimDelivery (db : Db) (tenantId : String) (now : ℤ) (owner : String) (expires : ℤ) : Db :=
  { db with
    deliveries := Table.update (db.isClaimed tenantId now) (fun d => d.withLease owner expires)
      db.deliveries }

/-- The watches of a tenant, in the order of their creation. -/
def listWatches (db : Db) (tenantId : String) : List Watch :=
  Table.orderBy Watch.listOrder (db.watches.filter fun w => w.tenantId = tenantId)

/-- The records of a tenant observed since some time, the latest first. -/
def historyForTenant (db : Db) (tenantId : String) (since : ℤ) (limit : ℕ) :
    List RecordObservation :=
  (Table.orderBy RecordObservation.historyOrder
    ((db.records.filter fun r => r.tenantId = tenantId && since ≤ r.lastObservedEpochSeconds).map
      fun r => ⟨r.record, none, r.firstObservedEpochSeconds, r.lastObservedEpochSeconds⟩)).take limit

/-- The records of a watch observed since some time, the latest first: the rows of
`watch_records` joined with those of `records`. -/
def historyForWatch (db : Db) (tenantId watchId : String) (since : ℤ) (limit : ℕ) :
    List RecordObservation :=
  (Table.orderBy RecordObservation.historyOrder
    ((db.watchRecords.filter fun wr => wr.tenantId = tenantId && wr.watchId = watchId &&
        since ≤ wr.lastObservedEpochSeconds).flatMap fun wr =>
      (db.records.filter fun r => r.key = (wr.tenantId, wr.identity)).map fun r =>
        ⟨r.record, some wr.watchId, wr.firstObservedEpochSeconds,
          wr.lastObservedEpochSeconds⟩)).take limit

/-- The deliveries of a tenant, in the order of their creation, of one status if one is given. -/
def listDeliveries (db : Db) (tenantId : String) (status : Option String) (limit : ℕ) :
    List Delivery :=
  (Table.orderBy Delivery.listOrder (db.deliveries.filter fun d =>
    d.tenantId = tenantId && status.all fun s => d.status.text = s)).take limit

end Db

/-! ## Transactions -/

/-- A transaction: when its body fails, the database is as before. -/
def transaction {α : Type} (db : Db) (body : StoreResult (α × Db)) : Db × StoreResult α :=
  match body with
  | .ok (a, db') => (db', .ok a)
  | .error e => (db, .error e)

/-- An operation that is refused before it touches the database. -/
def checked {α : Type} (db : Db) (check : StoreResult Unit) (body : Db × StoreResult α) :
    Db × StoreResult α :=
  match check with
  | .ok _ => body
  | .error e => (db, .error e)

/-- A query leaves the database alone. -/
def query {α : Type} (db : Db) (result : StoreResult α) : Db × StoreResult α := (db, result)

end Comsat
