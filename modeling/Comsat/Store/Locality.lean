import Comsat.Store.Integrity

set_option relaxedAutoImplicit false
set_option autoImplicit false

/-!
# Operations act within their tenant

The operations of a tenant read and write the rows of that tenant only: on these rows they answer
and act as they do on the whole database.

## Main definitions

* `ActsWithin` — an operation acts within a tenant.

## Main results

* `Adapter.step_actsWithin` — every operation of both adapters acts within its tenant.

## Design

* The operations are followed statement by statement, since their errors and counts are part of
  the reply.
-/

namespace Comsat

/-- An operation acts within a tenant: on the rows of the tenant it answers as on the whole
database, and leaves the rows that it leaves to the tenant there. -/
def ActsWithin {α : Type} (tenantId : String) (f : Db → Db × α) : Prop :=
  ∀ db : Db, f (db.ofTenant tenantId) = (f db).map (Db.ofTenant tenantId) id

/-! ## Queries among the rows of a tenant -/

namespace Db

variable (db : Db) (tenantId : String)

/-- Due watches are watches of the tenant. -/
lemma dueWatch_ofTenant (now : ℤ) :
    (db.ofTenant tenantId).dueWatch tenantId now = db.dueWatch tenantId now := by
  unfold dueWatch
  rw [show (db.ofTenant tenantId).watches = db.watches.filter fun w => w.tenantId = tenantId
    from rfl, Table.filter_filter_of_imp]
  intro w hw
  exact decide_eq_true (Watch.isDue_iff.mp hw).1

/-- Deliveries that may be attempted are deliveries of the tenant. -/
lemma eligibleDelivery_ofTenant (now : ℤ) :
    (db.ofTenant tenantId).eligibleDelivery tenantId now = db.eligibleDelivery tenantId now := by
  unfold eligibleDelivery
  rw [show (db.ofTenant tenantId).deliveries = db.deliveries.filter fun d => d.tenantId = tenantId
    from rfl, Table.filter_filter_of_imp]
  intro d hd
  exact decide_eq_true (Delivery.isEligible_iff.mp hd).1

/-- The claim of a delivery selects the same rows. -/
lemma isClaimed_ofTenant (now : ℤ) :
    (db.ofTenant tenantId).isClaimed tenantId now = db.isClaimed tenantId now := by
  funext d
  unfold isClaimed
  rw [eligibleDelivery_ofTenant]

/-- A claimed delivery is one of the tenant. -/
lemma tenantId_of_isClaimed {now : ℤ} {d : Delivery} (h : db.isClaimed tenantId now d = true) :
    d.tenantId = tenantId :=
  (Delivery.isEligible_iff.mp (Bool.and_eq_true_iff.mp h).1).1

/-- The run under an idempotency key is a run of the tenant. -/
lemma loadRun_ofTenant (watchId idempotencyKey : String) :
    (db.ofTenant tenantId).loadRun tenantId watchId idempotencyKey =
      db.loadRun tenantId watchId idempotencyKey := by
  refine Table.find?_filter_of_imp fun r hr => ?_
  exact decide_eq_true (congrArg Prod.fst (of_decide_eq_true hr))

/-- Listed watches are watches of the tenant. -/
lemma listWatches_ofTenant : (db.ofTenant tenantId).listWatches tenantId =
    db.listWatches tenantId := by
  unfold listWatches
  rw [show (db.ofTenant tenantId).watches = db.watches.filter fun w => w.tenantId = tenantId
    from rfl, Table.filter_filter_of_imp fun _ h => h]

/-- The history of a tenant is that of its records. -/
lemma historyForTenant_ofTenant (since : ℤ) (limit : ℕ) :
    (db.ofTenant tenantId).historyForTenant tenantId since limit =
      db.historyForTenant tenantId since limit := by
  unfold historyForTenant
  rw [show (db.ofTenant tenantId).records = db.records.filter fun r => r.tenantId = tenantId
    from rfl, Table.filter_filter_of_imp]
  intro r hr
  exact (Bool.and_eq_true_iff.mp hr).1

/-- The history of a watch is that of the records of the tenant. -/
lemma historyForWatch_ofTenant (watchId : String) (since : ℤ) (limit : ℕ) :
    (db.ofTenant tenantId).historyForWatch tenantId watchId since limit =
      db.historyForWatch tenantId watchId since limit := by
  unfold historyForWatch
  have hrows : (db.ofTenant tenantId).watchRecords.filter (fun wr => wr.tenantId = tenantId &&
        wr.watchId = watchId && since ≤ wr.lastObservedEpochSeconds) =
      db.watchRecords.filter fun wr => wr.tenantId = tenantId && wr.watchId = watchId &&
        since ≤ wr.lastObservedEpochSeconds := by
    refine Table.filter_filter_of_imp fun wr hwr => ?_
    exact (Bool.and_eq_true_iff.mp (Bool.and_eq_true_iff.mp hwr).1).1
  rw [hrows]
  congr 2
  refine List.flatMap_congr fun wr hwr => ?_
  have htenant : wr.tenantId = tenantId := of_decide_eq_true
    (Bool.and_eq_true_iff.mp (Bool.and_eq_true_iff.mp (List.mem_filter.mp hwr).2).1).1
  -- the joined rows are records of the tenant of the row they are joined with
  rw [show (db.ofTenant tenantId).records = db.records.filter fun r => r.tenantId = tenantId
    from rfl, Table.filter_filter_of_imp]
  intro r hr
  exact decide_eq_true ((congrArg Prod.fst (of_decide_eq_true hr)).trans htenant)

/-- Listed deliveries are deliveries of the tenant. -/
lemma listDeliveries_ofTenant (status : Option String) (limit : ℕ) :
    (db.ofTenant tenantId).listDeliveries tenantId status limit =
      db.listDeliveries tenantId status limit := by
  unfold listDeliveries
  rw [show (db.ofTenant tenantId).deliveries = db.deliveries.filter fun d => d.tenantId = tenantId
    from rfl, Table.filter_filter_of_imp]
  intro d hd
  exact (Bool.and_eq_true_iff.mp hd).1

end Db

/-! ## Writes among the rows of a tenant -/

/-- A row of `sources` with the key of another one belongs to the same tenant. -/
lemma SourceRow.tenant_of_key {tenantId : String} (a b : SourceRow) (h : a.key = b.key) :
    decide (a.tenantId = tenantId) = decide (b.tenantId = tenantId) := by
  rw [show a.tenantId = b.tenantId from congrArg Prod.fst h]

namespace Db

variable (db : Db) (tenantId : String)

/-- Recording a source of the tenant. -/
lemma upsertSource_ofTenant {row : SourceRow} (h : row.tenantId = tenantId) :
    (db.upsertSource row).ofTenant tenantId = (db.ofTenant tenantId).upsertSource row := by
  have hsources : (Table.upsert SourceRow.key SourceRow.setObserved db.sources row).filter
      (fun r => r.tenantId = tenantId) = Table.upsert SourceRow.key SourceRow.setObserved
        (db.sources.filter fun r => r.tenantId = tenantId) row :=
    Table.filter_upsert SourceRow.tenant_of_key (fun _ _ => rfl) (decide_eq_true h)
  simp only [upsertSource, ofTenant, hsources]

/-- Inserting a watch of the tenant. -/
lemma insertWatch_ofTenant {watch : Watch} (h : watch.tenantId = tenantId) :
    (db.ofTenant tenantId).insertWatch watch = (db.insertWatch watch).map (ofTenant tenantId) := by
  have hexists : Table.exists? Watch.key (db.ofTenant tenantId).watches watch =
      Table.exists? Watch.key db.watches watch := by
    refine Table.exists?_filter (fun a b hab => ?_) (decide_eq_true h)
    rw [show a.tenantId = b.tenantId from congrArg Prod.fst hab]
  unfold insertWatch
  rw [hexists]
  split
  · rfl
  · simp [ofTenant, Except.map, h]

/-- Deleting a watch. -/
lemma deleteWatch_ofTenant (tenantId' watchId : String) :
    (db.deleteWatch tenantId' watchId).ofTenant tenantId =
      (db.ofTenant tenantId).deleteWatch tenantId' watchId := by
  simp only [deleteWatch, ofTenant, Table.filter_delete]

/-- Updating watches. -/
lemma updateWatches_ofTenant (p : Watch → Bool) (f : Watch → Watch)
    (h : ∀ w, (f w).tenantId = w.tenantId) :
    ({ db with watches := Table.update p f db.watches } : Db).ofTenant tenantId =
      { db.ofTenant tenantId with
        watches := Table.update p f (db.ofTenant tenantId).watches } := by
  simp only [ofTenant]
  rw [Table.filter_update fun w _ => by rw [h]]

/-- Updating deliveries. -/
lemma updateDeliveries_ofTenant (p : Delivery → Bool) (f : Delivery → Delivery)
    (h : ∀ d, (f d).tenantId = d.tenantId) :
    ({ db with deliveries := Table.update p f db.deliveries } : Db).ofTenant tenantId =
      { db.ofTenant tenantId with
        deliveries := Table.update p f (db.ofTenant tenantId).deliveries } := by
  simp only [ofTenant]
  rw [Table.filter_update fun d _ => by rw [h]]

/-- Inserting a run of the tenant. -/
lemma insertRun_ofTenant {run : WatchRun} (h : run.tenantId = tenantId) :
    (db.ofTenant tenantId).insertRun run = (db.insertRun run).map (ofTenant tenantId) := by
  have hleased : ((db.ofTenant tenantId).watches.any fun w => w.isLeasedTo run.tenantId
        run.watchId run.leaseOwner run.startedAtEpochSeconds) =
      db.watches.any fun w => w.isLeasedTo run.tenantId run.watchId run.leaseOwner
        run.startedAtEpochSeconds := by
    refine Table.any_filter_of_imp fun w hw => decide_eq_true ?_
    exact (congrArg Prod.fst (Watch.isLeasedTo_iff.mp hw).1).trans h
  have hidempotency : Table.exists? WatchRun.idempotency (db.ofTenant tenantId).watchRuns run =
      Table.exists? WatchRun.idempotency db.watchRuns run := by
    refine Table.exists?_filter (fun a b hab => ?_) (decide_eq_true h)
    rw [show a.tenantId = b.tenantId from congrArg Prod.fst hab]
  have hkey : Table.exists? WatchRun.key (db.ofTenant tenantId).watchRuns run =
      Table.exists? WatchRun.key db.watchRuns run := by
    refine Table.exists?_filter (fun a b hab => ?_) (decide_eq_true h)
    rw [show a.tenantId = b.tenantId from congrArg Prod.fst hab]
  unfold insertRun
  rw [hleased, hidempotency, hkey]
  repeat' split
  · rfl
  · rfl
  · simp [ofTenant, Except.map, h]
  · rfl

end Db

/-! ## Operations -/

section Operations

variable {α : Type} {tenantId : String}

/-- A query whose result is that among the rows of the tenant. -/
lemma ActsWithin.query {f : Db → StoreResult α}
    (h : ∀ db : Db, f (db.ofTenant tenantId) = f db) :
    ActsWithin tenantId fun db => query db (f db) := by
  intro db
  simp only [Comsat.query, h]
  rfl

/-- A transaction whose body acts within the tenant. -/
lemma ActsWithin.transaction {f : Db → StoreResult (α × Db)}
    (h : ∀ db : Db, f (db.ofTenant tenantId) =
      (f db).map (Prod.map id (Db.ofTenant tenantId))) :
    ActsWithin tenantId fun db => transaction db (f db) := by
  intro db
  simp only [h]
  cases f db with
  | error e => rfl
  | ok result => rfl

/-- Statements that act within the tenant, whose rows are decoded afterwards. -/
lemma ActsWithin.decoded {f : Db → Db × StoreResult (StoreResult α)} (h : ActsWithin tenantId f) :
    ActsWithin tenantId fun db => D1Store.decoded (f db) := by
  intro db
  dsimp only
  rw [D1Store.decoded, h db]
  rfl

/-- A checked operation that acts within the tenant. -/
lemma ActsWithin.checked {check : StoreResult Unit} {f : Db → Db × StoreResult α}
    (h : ActsWithin tenantId f) : ActsWithin tenantId fun db => checked db check (f db) := by
  intro db
  cases check with
  | error e => rfl
  | ok _ => exact h db

end Operations

/-! ## Completions in the SQLite adapter -/

/-- A row of `records` with the key of another one belongs to the same tenant. -/
lemma RecordRow.tenant_of_key {tenantId : String} (a b : RecordRow) (h : a.key = b.key) :
    decide (a.tenantId = tenantId) = decide (b.tenantId = tenantId) := by
  rw [show a.tenantId = b.tenantId from congrArg Prod.fst h]

/-- A row of `watch_records` with the key of another one belongs to the same tenant. -/
lemma WatchRecordRow.tenant_of_key {tenantId : String} (a b : WatchRecordRow)
    (h : a.key = b.key) : decide (a.tenantId = tenantId) = decide (b.tenantId = tenantId) := by
  rw [show a.tenantId = b.tenantId from congrArg Prod.fst h]

/-- A delivery with the key of another one belongs to the same tenant. -/
lemma Delivery.tenant_of_key {tenantId : String} (a b : Delivery) (h : a.key = b.key) :
    decide (a.tenantId = tenantId) = decide (b.tenantId = tenantId) := by
  rw [show a.tenantId = b.tenantId from congrArg Prod.fst h]

/-- A watch under the lease of a completion belongs to its tenant. -/
private lemma CompleteWatchRun.tenant_of_isLeasedTo (request : CompleteWatchRun) (now : ℤ)
    (w : Watch)
    (h : w.isLeasedTo request.tenantId request.watchId request.leaseOwner now = true) :
    decide (w.tenantId = request.tenantId) = true :=
  decide_eq_true (congrArg Prod.fst (Watch.isLeasedTo_iff.mp h).1)

/-- A run that is running under the worker of a completion belongs to its tenant. -/
private lemma CompleteWatchRun.tenant_of_isRunningUnder (request : CompleteWatchRun)
    (r : WatchRun)
    (h : r.isRunningUnder request.tenantId request.watchId request.runId request.leaseOwner =
      true) : decide (r.tenantId = request.tenantId) = true :=
  decide_eq_true (congrArg Prod.fst (WatchRun.isRunningUnder_iff.mp h).1)

namespace SqliteStore

variable (db : Db) (request : CompleteWatchRun)

/-- Writing a record among the rows of the tenant. -/
private lemma upsertRecord_ofTenant (record : Record) :
    upsertRecord (db.ofTenant request.tenantId) request record =
      (upsertRecord db request record).map id (Db.ofTenant request.tenantId) := by
  have hrow : decide ((RecordRow.observed request.tenantId request.finishedAtEpochSeconds
      record).tenantId = request.tenantId) = true := decide_eq_true rfl
  have hexists : Table.exists? RecordRow.key (db.ofTenant request.tenantId).records
        (RecordRow.observed request.tenantId request.finishedAtEpochSeconds record) =
      Table.exists? RecordRow.key db.records
        (RecordRow.observed request.tenantId request.finishedAtEpochSeconds record) :=
    Table.exists?_filter RecordRow.tenant_of_key hrow
  have hupsert : (Table.upsert RecordRow.key RecordRow.setContent db.records (RecordRow.observed
        request.tenantId request.finishedAtEpochSeconds record)).filter
          (fun r => r.tenantId = request.tenantId) =
      Table.upsert RecordRow.key RecordRow.setContent
        (db.records.filter fun r => r.tenantId = request.tenantId)
        (RecordRow.observed request.tenantId request.finishedAtEpochSeconds record) :=
    Table.filter_upsert RecordRow.tenant_of_key (fun _ _ => rfl) hrow
  simp only [upsertRecord, hexists, Prod.map, id]
  simp only [Db.ofTenant, hupsert]

/-- Writing a record of the watch among the rows of the tenant. -/
private lemma upsertWatchRecord_ofTenant (record : Record) :
    upsertWatchRecord (db.ofTenant request.tenantId) request record =
      (upsertWatchRecord db request record).map id (Db.ofTenant request.tenantId) := by
  have hrow : decide ((WatchRecordRow.observed request.tenantId request.watchId
      request.finishedAtEpochSeconds record).tenantId = request.tenantId) = true :=
    decide_eq_true rfl
  have hexists : Table.exists? WatchRecordRow.key (db.ofTenant request.tenantId).watchRecords
        (WatchRecordRow.observed request.tenantId request.watchId
          request.finishedAtEpochSeconds record) =
      Table.exists? WatchRecordRow.key db.watchRecords (WatchRecordRow.observed request.tenantId
        request.watchId request.finishedAtEpochSeconds record) :=
    Table.exists?_filter WatchRecordRow.tenant_of_key hrow
  have hupsert : (Table.upsert WatchRecordRow.key WatchRecordRow.setObserved db.watchRecords
        (WatchRecordRow.observed request.tenantId request.watchId request.finishedAtEpochSeconds
          record)).filter (fun r => r.tenantId = request.tenantId) =
      Table.upsert WatchRecordRow.key WatchRecordRow.setObserved
        (db.watchRecords.filter fun r => r.tenantId = request.tenantId)
        (WatchRecordRow.observed request.tenantId request.watchId request.finishedAtEpochSeconds
          record) :=
    Table.filter_upsert WatchRecordRow.tenant_of_key (fun _ _ => rfl) hrow
  simp only [upsertWatchRecord, hexists, Prod.map, id]
  simp only [Db.ofTenant, hupsert]

/-- The accumulators of the loop, with the rows of a tenant. -/
private def Completion.ofTenant (tenantId : String) (loop : Completion) : Completion :=
  { loop with db := loop.db.ofTenant tenantId }

/-- The loop over the records, among the rows of the tenant. -/
private lemma foldl_observe_ofTenant (records : List Record) (loop : Completion) :
    records.foldl (Completion.observe request) (loop.ofTenant request.tenantId) =
      (records.foldl (Completion.observe request) loop).ofTenant request.tenantId := by
  refine List.foldl_hom _ fun loop record => ?_
  simp only [Completion.observe, Completion.ofTenant, upsertRecord_ofTenant, Prod.map, id,
    upsertWatchRecord_ofTenant]

/-- Queueing a notification, among the rows of the tenant. -/
private lemma insertRunDelivery_ofTenant (records : List Record) :
    insertRunDelivery (db.ofTenant request.tenantId) request records =
      (insertRunDelivery db request records).ofTenant request.tenantId := by
  unfold insertRunDelivery
  cases request.delivery with
  | none => rfl
  | some delivery =>
    by_cases h : records.isEmpty = true
    · simp only [h, ↓reduceIte]
    · simp only [h]
      simp only [Bool.false_eq_true, ↓reduceIte, Db.ofTenant]
      rw [Table.filter_insertIgnore Delivery.tenant_of_key]
      exact decide_eq_true rfl

/-- Finishing run and watch, among the rows of the tenant. -/
private lemma finishRunAndWatch_ofTenant (status : RunStatus) (interval : ℤ) :
    finishRunAndWatch (db.ofTenant request.tenantId) request status interval =
      (finishRunAndWatch db request status interval).ofTenant request.tenantId := by
  simp only [finishRunAndWatch, Db.ofTenant]
  rw [Table.filter_update, Table.filter_update]
  · intro w _; rfl
  · intro r _; rfl

/-- Completing a run acts within its tenant. -/
lemma completeWatchRun_actsWithin [ExternalParsers] (request : CompleteWatchRun) :
    ActsWithin request.tenantId fun db => completeWatchRun db request := by
  refine ActsWithin.transaction fun db => ?_
  have hinterval : watchIntervalUnderLease (db.ofTenant request.tenantId) request =
      watchIntervalUnderLease db request := by
    unfold watchIntervalUnderLease
    rw [show (db.ofTenant request.tenantId).watches =
      db.watches.filter fun w => w.tenantId = request.tenantId from rfl,
      Table.find?_filter_of_imp (request.tenant_of_isLeasedTo _)]
  have hrunning : ensureRunningRun (db.ofTenant request.tenantId) request =
      ensureRunningRun db request := by
    unfold ensureRunningRun
    rw [show (db.ofTenant request.tenantId).watchRuns =
      db.watchRuns.filter fun r => r.tenantId = request.tenantId from rfl,
      Table.any_filter_of_imp request.tenant_of_isRunningUnder]
  have hloop : request.records.foldl (Completion.observe request)
        ⟨db.ofTenant request.tenantId, 0, 0, []⟩ =
      (request.records.foldl (Completion.observe request) ⟨db, 0, 0, []⟩).ofTenant
        request.tenantId :=
    foldl_observe_ofTenant request request.records ⟨db, 0, 0, []⟩
  rw [hinterval, hrunning]
  cases request.validate with
  | error e => rfl
  | ok _ =>
    cases watchIntervalUnderLease db request with
    | error e => rfl
    | ok interval =>
      cases ensureRunningRun db request with
      | error e => rfl
      | ok _ =>
        simp only [StoreResult.ok_bind, hloop, Completion.ofTenant, insertRunDelivery_ofTenant,
          finishRunAndWatch_ofTenant]
        rfl

end SqliteStore

/-! ## Completions in the D1 adapter -/

namespace D1Store

variable (db : Db) (request : CompleteWatchRun)

/-- The gate, among the rows of the tenant. -/
private lemma gateRows_ofTenant :
    gateRows (db.ofTenant request.tenantId) request = gateRows db request := by
  unfold gateRows
  rw [show (db.ofTenant request.tenantId).watches =
    db.watches.filter fun w => w.tenantId = request.tenantId from rfl,
    Table.filter_filter_of_imp (request.tenant_of_isLeasedTo _)]
  refine List.flatMap_congr fun w hw => ?_
  have htenant : w.tenantId = request.tenantId :=
    of_decide_eq_true (request.tenant_of_isLeasedTo _ w (List.mem_filter.mp hw).2)
  rw [show (db.ofTenant request.tenantId).watchRuns =
    db.watchRuns.filter fun r => r.tenantId = request.tenantId from rfl,
    Table.filter_filter_of_imp]
  intro r hr
  exact decide_eq_true ((congrArg Prod.fst (WatchRun.isRunningUnder_iff.mp hr).1).trans htenant)

/-- The gate is open among the rows of the tenant as it is among all. -/
private lemma isOpen_ofTenant :
    isOpen (db.ofTenant request.tenantId) request = isOpen db request := by
  rw [isOpen, gateRows_ofTenant, isOpen]

/-- The query of the gate acts within the tenant. -/
private lemma completeGate_actsWithin : ActsWithin request.tenantId (completeGate request) := by
  intro db
  unfold completeGate
  rw [gateRows_ofTenant]
  rfl

/-- Inserting the records acts within the tenant. -/
private lemma insertRecords_actsWithin : ActsWithin request.tenantId (insertRecords request) := by
  intro db
  unfold insertRecords
  rw [isOpen_ofTenant]
  generalize hrows : (if isOpen db request then request.records.map
    (RecordRow.observed request.tenantId (int request.finishedAtEpochSeconds)) else []) = rows
  have htenant : ∀ row ∈ rows, decide (row.tenantId = request.tenantId) = true := by
    subst hrows
    intro row hrow
    split at hrow
    · obtain ⟨record, -, rfl⟩ := List.mem_map.mp hrow
      exact decide_eq_true rfl
    · exact absurd hrow (by simp)
  simp only [Prod.map, id, Db.ofTenant, Table.inserted_filter RecordRow.tenant_of_key htenant,
    Table.filter_insertAllIgnore RecordRow.tenant_of_key htenant]

/-- Updating the records acts within the tenant. -/
private lemma updateRecords_actsWithin : ActsWithin request.tenantId (updateRecords request) := by
  intro db
  unfold updateRecords
  rw [isOpen_ofTenant]
  have hcount : (db.ofTenant request.tenantId).records.countP (fun row =>
        row.tenantId = request.tenantId && (incoming request row.record.identity).isSome &&
          isOpen db request) =
      db.records.countP fun row => row.tenantId = request.tenantId &&
        (incoming request row.record.identity).isSome && isOpen db request :=
    Table.countP_filter_of_imp fun row hrow =>
      (Bool.and_eq_true_iff.mp (Bool.and_eq_true_iff.mp hrow).1).1
  simp only [hcount, Prod.map, id]
  simp only [Db.ofTenant]
  rw [Table.filter_update]
  intro row _
  cases incoming request row.record.identity <;> rfl

/-- The records that are new to the watch are looked up among the rows of the tenant. -/
private lemma newRecords_ofTenant :
    newRecords (db.ofTenant request.tenantId) request = newRecords db request := by
  unfold newRecords
  refine List.filter_congr fun record _ => ?_
  rw [show (db.ofTenant request.tenantId).watchRecords =
    db.watchRecords.filter fun r => r.tenantId = request.tenantId from rfl,
    Table.any_filter_of_imp]
  intro row hrow
  exact decide_eq_true (congrArg Prod.fst (of_decide_eq_true hrow))

/-- Queueing a notification acts within the tenant. -/
private lemma insertRunDelivery_actsWithin (delivery : WatchRunDelivery) :
    ActsWithin request.tenantId (insertRunDelivery request delivery) := by
  intro db
  unfold insertRunDelivery
  rw [isOpen_ofTenant, newRecords_ofTenant]
  dsimp only
  generalize (if isOpen db request then newRecords db request else []) = records
  generalize hrows : (if 0 < records.length then [_] else []) = rows
  have htenant : ∀ row ∈ rows, decide (row.tenantId = request.tenantId) = true := by
    subst hrows
    intro row hrow
    split at hrow
    · obtain rfl := List.mem_singleton.mp hrow
      exact decide_eq_true rfl
    · exact absurd hrow (by simp)
  simp only [Prod.map, id, Db.ofTenant, Table.inserted_filter Delivery.tenant_of_key htenant,
    Table.filter_insertAllIgnore Delivery.tenant_of_key htenant]

/-- Inserting the records of the watch acts within the tenant. -/
private lemma insertWatchRecords_actsWithin :
    ActsWithin request.tenantId (insertWatchRecords request) := by
  intro db
  unfold insertWatchRecords
  rw [isOpen_ofTenant]
  generalize hrows : (if isOpen db request then request.records.map (WatchRecordRow.observed
    request.tenantId request.watchId (int request.finishedAtEpochSeconds)) else []) = rows
  have htenant : ∀ row ∈ rows, decide (row.tenantId = request.tenantId) = true := by
    subst hrows
    intro row hrow
    split at hrow
    · obtain ⟨record, -, rfl⟩ := List.mem_map.mp hrow
      exact decide_eq_true rfl
    · exact absurd hrow (by simp)
  simp only [Prod.map, id, Db.ofTenant, Table.inserted_filter WatchRecordRow.tenant_of_key htenant,
    Table.filter_insertAllIgnore WatchRecordRow.tenant_of_key htenant]

/-- Updating the records of the watch acts within the tenant. -/
private lemma updateWatchRecords_actsWithin :
    ActsWithin request.tenantId (updateWatchRecords request) := by
  intro db
  unfold updateWatchRecords
  rw [isOpen_ofTenant]
  have hcount : (db.ofTenant request.tenantId).watchRecords.countP (fun row =>
        row.tenantId = request.tenantId && row.watchId = request.watchId &&
          (incoming request row.identity).isSome && isOpen db request) =
      db.watchRecords.countP fun row => row.tenantId = request.tenantId &&
        row.watchId = request.watchId && (incoming request row.identity).isSome &&
          isOpen db request :=
    Table.countP_filter_of_imp fun row hrow => (Bool.and_eq_true_iff.mp
      (Bool.and_eq_true_iff.mp (Bool.and_eq_true_iff.mp hrow).1).1).1
  simp only [hcount, Prod.map, id]
  simp only [Db.ofTenant]
  rw [Table.filter_update]
  intro row _
  rfl

/-- Completing the run acts within the tenant. -/
private lemma completeRun_actsWithin : ActsWithin request.tenantId (completeRun request) := by
  intro db
  have hlease : ((db.ofTenant request.tenantId).watches.any fun w => w.isLeasedTo request.tenantId
        request.watchId request.leaseOwner (int request.finishedAtEpochSeconds)) =
      db.watches.any fun w => w.isLeasedTo request.tenantId request.watchId request.leaseOwner
        (int request.finishedAtEpochSeconds) :=
    Table.any_filter_of_imp (request.tenant_of_isLeasedTo _)
  unfold completeRun
  dsimp only
  rw [hlease]
  have hcount : (db.ofTenant request.tenantId).watchRuns.countP (fun r =>
        r.isRunningUnder request.tenantId request.watchId request.runId request.leaseOwner &&
          db.watches.any fun w => w.isLeasedTo request.tenantId request.watchId
            request.leaseOwner (int request.finishedAtEpochSeconds)) =
      db.watchRuns.countP fun r =>
        r.isRunningUnder request.tenantId request.watchId request.runId request.leaseOwner &&
          db.watches.any fun w => w.isLeasedTo request.tenantId request.watchId
            request.leaseOwner (int request.finishedAtEpochSeconds) :=
    Table.countP_filter_of_imp fun r hr =>
      request.tenant_of_isRunningUnder r (Bool.and_eq_true_iff.mp hr).1
  simp only [hcount, Prod.map, id]
  simp only [Db.ofTenant]
  rw [Table.filter_update]
  intro r _
  rfl

/-- Ending the lease of the watch acts within the tenant. -/
private lemma completeWatch_actsWithin : ActsWithin request.tenantId (completeWatch request) := by
  intro db
  have hfinished : ((db.ofTenant request.tenantId).watchRuns.any fun r => isFinishedUnder r
        request.tenantId request.watchId request.runId request.leaseOwner
          (int request.finishedAtEpochSeconds)) =
      db.watchRuns.any fun r => isFinishedUnder r request.tenantId request.watchId request.runId
        request.leaseOwner (int request.finishedAtEpochSeconds) :=
    Table.any_filter_of_imp fun r hr =>
      decide_eq_true (congrArg Prod.fst (isFinishedUnder_iff.mp hr).1)
  unfold completeWatch
  dsimp only
  rw [hfinished]
  have hcount : (db.ofTenant request.tenantId).watches.countP (fun w =>
        w.isLeasedTo request.tenantId request.watchId request.leaseOwner
            (int request.finishedAtEpochSeconds) &&
          db.watchRuns.any fun r => isFinishedUnder r request.tenantId request.watchId
            request.runId request.leaseOwner (int request.finishedAtEpochSeconds)) =
      db.watches.countP fun w =>
        w.isLeasedTo request.tenantId request.watchId request.leaseOwner
            (int request.finishedAtEpochSeconds) &&
          db.watchRuns.any fun r => isFinishedUnder r request.tenantId request.watchId
            request.runId request.leaseOwner (int request.finishedAtEpochSeconds) :=
    Table.countP_filter_of_imp fun w hw =>
      request.tenant_of_isLeasedTo _ w (Bool.and_eq_true_iff.mp hw).1
  simp only [hcount, Prod.map, id]
  simp only [Db.ofTenant]
  rw [Table.filter_update]
  intro w _
  rfl

/-- A batch of statements that act within a tenant acts within it. -/
private lemma batch_actsWithin {tenantId : String} {statements : List D1Statement}
    (h : ∀ statement ∈ statements, ActsWithin tenantId statement) :
    ActsWithin tenantId (batch statements) := by
  induction statements with
  | nil => exact fun _ => rfl
  | cons statement statements ih =>
    intro db
    have hfirst := h statement (by simp) db
    have hothers := ih (fun s hs => h s (by simp [hs])) (statement db).1
    rw [batch_cons, batch_cons, hfirst]
    simp only [Prod.map, id] at hothers ⊢
    rw [hothers]

/-- Completing a run acts within its tenant. -/
lemma completeWatchRun_actsWithin [ExternalParsers] (request : CompleteWatchRun) :
    ActsWithin request.tenantId fun db => completeWatchRun db request := by
  refine ActsWithin.checked (ActsWithin.checked fun db => ?_)
  have hbatch : ActsWithin request.tenantId (batch (completeStatements request)) := by
    refine batch_actsWithin fun statement hstatement => ?_
    simp only [completeStatements, recordStatements, finishStatements, List.mem_cons,
      List.mem_append, List.not_mem_nil, or_false] at hstatement
    rcases hstatement with rfl | (((rfl | rfl) | hdelivery) | rfl | rfl) | rfl | rfl
    · exact completeGate_actsWithin request
    · exact insertRecords_actsWithin request
    · exact updateRecords_actsWithin request
    · cases hd : request.delivery with
      | none => simp [hd] at hdelivery
      | some delivery =>
        simp only [hd, List.mem_singleton] at hdelivery
        rw [hdelivery]
        exact insertRunDelivery_actsWithin request delivery
    · exact insertWatchRecords_actsWithin request
    · exact updateWatchRecords_actsWithin request
    · exact completeRun_actsWithin request
    · exact completeWatch_actsWithin request
  dsimp only
  rw [hbatch db]
  rfl

end D1Store

/-! ## The operations of both adapters -/

namespace Adapter

variable (adapter : Adapter)

/-- Recording a source acts within its tenant. -/
lemma upsertSource_actsWithin (request : UpsertSource) :
    ActsWithin request.tenantId fun db => adapter.upsertSource db request := by
  cases adapter
  all_goals
    refine ActsWithin.transaction fun db => ?_
    cases request.validate with
    | error e => rfl
    | ok _ =>
      exact congrArg (fun db' => Except.ok ((), db')) (db.upsertSource_ofTenant _ (by rfl)).symm

/-- Creating a watch acts within its tenant. -/
lemma createWatch_actsWithin [ExternalParsers] (request : CreateWatch) :
    ActsWithin request.tenantId fun db => adapter.createWatch db request := by
  -- what is left of either operation after the checks
  have hinsert : ∀ (watch : Watch), watch.tenantId = request.tenantId → ∀ db : Db,
      ((db.ofTenant request.tenantId).insertWatch watch >>= fun db' =>
          (pure (request.intoWatch, db') : StoreResult (Watch × Db))) =
        (db.insertWatch watch >>= fun db' => pure (request.intoWatch, db')).map
          (Prod.map id (Db.ofTenant request.tenantId)) := by
    intro watch htenant db
    rw [Db.insertWatch_ofTenant _ _ htenant]
    cases db.insertWatch watch <;> rfl
  cases adapter with
  | sqlite =>
    refine ActsWithin.transaction fun db => ?_
    cases request.validate with
    | error e => rfl
    | ok _ =>
      cases hi : i64FromU64 request.intoWatch.intervalSeconds "interval_seconds" with
      | error e => simp only [StoreResult.ok_bind, hi]; rfl
      | ok _ =>
        simp only [StoreResult.ok_bind, hi]
        exact hinsert _ rfl db
  | d1 =>
    refine ActsWithin.transaction fun db => ?_
    cases request.validate with
    | error e => rfl
    | ok _ =>
      cases hi : i64FromU64 request.intoWatch.intervalSeconds "interval_seconds" with
      | error e => simp only [StoreResult.ok_bind, D1Store.watchValues, hi]; rfl
      | ok _ =>
        simp only [StoreResult.ok_bind, StoreResult.pure_eq, D1Store.watchValues, hi]
        exact hinsert _ rfl db

/-- Listing watches acts within its tenant. -/
lemma listWatches_actsWithin (tenantId : String) :
    ActsWithin tenantId fun db => adapter.listWatches db tenantId := by
  cases adapter
  all_goals
    refine ActsWithin.query fun db => ?_
    rw [Db.listWatches_ofTenant]

/-- Deleting a watch acts within its tenant. -/
lemma deleteWatch_actsWithin (request : DeleteWatch) :
    ActsWithin request.tenantId fun db => adapter.deleteWatch db request := by
  have hcount : ∀ db : Db, (db.ofTenant request.tenantId).watches.countP (fun w =>
        w.tenantId = request.tenantId && w.watchId = request.watchId) =
      db.watches.countP fun w =>
        w.tenantId = request.tenantId && w.watchId = request.watchId := by
    intro db
    exact Table.countP_filter_of_imp fun w hw => (Bool.and_eq_true_iff.mp hw).1
  cases adapter
  all_goals
    refine ActsWithin.transaction fun db => ?_
    cases request.validate with
    | error e => rfl
    | ok _ =>
      simp only [StoreResult.ok_bind, StoreResult.pure_eq, Except.map, Prod.map, id, hcount,
        Db.deleteWatch_ofTenant]

/-- Claiming a watch acts within its tenant. -/
lemma claimDueWatch_actsWithin (request : ClaimDueWatch) :
    ActsWithin request.tenantId fun db => adapter.claimDueWatch db request := by
  cases adapter with
  | sqlite =>
    refine ActsWithin.transaction fun db => ?_
    cases request.validate with
    | error e => rfl
    | ok _ =>
      simp only [StoreResult.ok_bind, Db.dueWatch_ofTenant]
      cases db.dueWatch request.tenantId request.nowEpochSeconds with
      | none => rfl
      | some row =>
        cases hread : SqliteStore.watchFromRow row with
        | error e => simp [hread, Except.map]
        | ok watch =>
          cases i64FromU64 request.leaseSeconds "lease_seconds" with
          | error e => simp [hread, Except.map]
          | ok lease =>
            have hcount : (db.ofTenant request.tenantId).watches.countP (fun w =>
                  w.watchId = watch.watchId && w.isDue request.tenantId request.nowEpochSeconds) =
                db.watches.countP fun w =>
                  w.watchId = watch.watchId && w.isDue request.tenantId request.nowEpochSeconds :=
              Table.countP_filter_of_imp fun w hw =>
                decide_eq_true (Watch.isDue_iff.mp (Bool.and_eq_true_iff.mp hw).2).1
            have hupdate := db.updateWatches_ofTenant request.tenantId
              (fun w => w.watchId = watch.watchId &&
                w.isDue request.tenantId request.nowEpochSeconds)
              (fun w => w.withLease request.leaseOwner (addI64 request.nowEpochSeconds lease))
              fun _ => rfl
            simp only [StoreResult.ok_bind, hread, hcount]
            split
            · exact congrArg (fun db' => Except.ok (none, db')) hupdate.symm
            · exact congrArg (fun db' => Except.ok (some _, db')) hupdate.symm
  | d1 =>
    refine ActsWithin.decoded (ActsWithin.transaction fun db => ?_)
    cases request.validate with
    | error e => rfl
    | ok _ =>
      cases i64FromU64 request.leaseSeconds "lease_seconds" with
      | error e => rfl
      | ok lease =>
        have hfilter : (db.ofTenant request.tenantId).watches.filter (fun w =>
              w.isDue request.tenantId (D1Store.int request.nowEpochSeconds) &&
                (db.dueWatch request.tenantId (D1Store.int request.nowEpochSeconds)).any
                  fun due => due.watchId = w.watchId) =
            db.watches.filter fun w =>
              w.isDue request.tenantId (D1Store.int request.nowEpochSeconds) &&
                (db.dueWatch request.tenantId (D1Store.int request.nowEpochSeconds)).any
                  fun due => due.watchId = w.watchId :=
          Table.filter_filter_of_imp fun w hw =>
            decide_eq_true (Watch.isDue_iff.mp (Bool.and_eq_true_iff.mp hw).1).1
        simp only [StoreResult.ok_bind, StoreResult.pure_eq, Db.dueWatch_ofTenant, hfilter,
          Except.map, Prod.map, id]
        rw [db.updateWatches_ofTenant request.tenantId _ (fun w => w.withLease request.leaseOwner
          (D1Store.int (addI64 request.nowEpochSeconds lease))) fun _ => rfl]

/-- Starting a run acts within its tenant. -/
lemma startWatchRun_actsWithin (request : StartWatchRun) :
    ActsWithin request.tenantId fun db => adapter.startWatchRun db request := by
  cases adapter with
  | sqlite =>
    refine ActsWithin.checked fun db => ?_
    rw [db.insertRun_ofTenant request.tenantId]
    · cases db.insertRun _ with
      | error e => rfl
      | ok db' =>
        -- after the insertion the run is read back
        simp only [Except.map, SqliteStore.fetchWatchRun, Db.loadRun_ofTenant]
        rfl
    · rfl
  | d1 =>
    refine ActsWithin.checked fun db => ?_
    rw [db.insertRun_ofTenant request.tenantId]
    · cases db.insertRun _ with
      | error e => rfl
      | ok db' =>
        simp only [Except.map, D1Store.loadRun, Db.loadRun_ofTenant]
        rfl
    · rfl

/-- Claiming a delivery acts within its tenant. -/
lemma claimPendingDelivery_actsWithin (request : ClaimPendingDelivery) :
    ActsWithin request.tenantId fun db => adapter.claimPendingDelivery db request := by
  have hclaim : ∀ (db : Db) (now expires : ℤ),
      (db.ofTenant request.tenantId).claimDelivery request.tenantId now request.leaseOwner expires =
        (db.claimDelivery request.tenantId now request.leaseOwner expires).ofTenant
          request.tenantId := by
    intro db now expires
    unfold Db.claimDelivery
    rw [db.isClaimed_ofTenant, db.updateDeliveries_ofTenant request.tenantId _
      (fun d => d.withLease request.leaseOwner expires) fun _ => rfl]
  cases adapter with
  | sqlite =>
    refine ActsWithin.transaction fun db => ?_
    cases request.validate with
    | error e => rfl
    | ok _ =>
      cases i64FromU64 request.leaseSeconds "lease_seconds" with
      | error e => rfl
      | ok lease =>
        have hcount : (db.ofTenant request.tenantId).deliveries.countP
              (db.isClaimed request.tenantId request.nowEpochSeconds) =
            db.deliveries.countP (db.isClaimed request.tenantId request.nowEpochSeconds) :=
          Table.countP_filter_of_imp fun d hd => decide_eq_true (db.tenantId_of_isClaimed _ hd)
        have hfetch : ∀ db' : Db,
            SqliteStore.fetchClaimedDelivery (db'.ofTenant request.tenantId) request =
              SqliteStore.fetchClaimedDelivery db' request := by
          intro db'
          unfold SqliteStore.fetchClaimedDelivery SqliteStore.claimedDeliveryRow
          rw [show (db'.ofTenant request.tenantId).deliveries =
            db'.deliveries.filter fun d => d.tenantId = request.tenantId from rfl,
            Table.filter_filter_of_imp]
          intro d hd
          exact (Bool.and_eq_true_iff.mp (Bool.and_eq_true_iff.mp hd).1).1
        simp only [StoreResult.ok_bind, StoreResult.pure_eq, Db.isClaimed_ofTenant, hcount, hclaim,
          hfetch]
        split
        · rfl
        · cases SqliteStore.fetchClaimedDelivery (db.claimDelivery request.tenantId
            request.nowEpochSeconds request.leaseOwner (addI64 request.nowEpochSeconds lease))
              request <;> rfl
  | d1 =>
    refine ActsWithin.decoded (ActsWithin.transaction fun db => ?_)
    cases request.validate with
    | error e => rfl
    | ok _ =>
      cases i64FromU64 request.leaseSeconds "lease_seconds" with
      | error e => rfl
      | ok lease =>
        have hfilter : (db.ofTenant request.tenantId).deliveries.filter
              (db.isClaimed request.tenantId (D1Store.int request.nowEpochSeconds)) =
            db.deliveries.filter
              (db.isClaimed request.tenantId (D1Store.int request.nowEpochSeconds)) :=
          Table.filter_filter_of_imp fun d hd => decide_eq_true (db.tenantId_of_isClaimed _ hd)
        simp only [StoreResult.ok_bind, StoreResult.pure_eq, Db.isClaimed_ofTenant, hfilter, hclaim]
        rfl

/-- Acknowledging a delivery acts within its tenant. -/
lemma completeDelivery_actsWithin (request : CompleteDelivery) :
    ActsWithin request.tenantId fun db => adapter.completeDelivery db request := by
  have htenant : ∀ (now : ℤ) (d : Delivery), d.isLeasedTo request.tenantId request.deliveryId
      request.leaseOwner now = true → decide (d.tenantId = request.tenantId) = true :=
    fun now d hd => decide_eq_true (congrArg Prod.fst (Delivery.isLeasedTo_iff.mp hd).1)
  cases adapter with
  | sqlite =>
    refine ActsWithin.checked fun db => ?_
    have hcount : (db.ofTenant request.tenantId).deliveries.countP (fun d => d.isLeasedTo
          request.tenantId request.deliveryId request.leaseOwner request.finishedAtEpochSeconds) =
        db.deliveries.countP fun d => d.isLeasedTo request.tenantId request.deliveryId
          request.leaseOwner request.finishedAtEpochSeconds :=
      Table.countP_filter_of_imp (htenant _)
    have hfetch : ∀ db' : Db, SqliteStore.fetchDelivery (db'.ofTenant request.tenantId)
          request.tenantId request.deliveryId =
        SqliteStore.fetchDelivery db' request.tenantId request.deliveryId := by
      intro db'
      unfold SqliteStore.fetchDelivery
      rw [show (db'.ofTenant request.tenantId).deliveries =
        db'.deliveries.filter fun d => d.tenantId = request.tenantId from rfl,
        Table.find?_filter_of_imp]
      intro d hd
      exact decide_eq_true (congrArg Prod.fst (of_decide_eq_true hd))
    have hupdate := db.updateDeliveries_ofTenant request.tenantId
      (fun d => d.isLeasedTo request.tenantId request.deliveryId request.leaseOwner
        request.finishedAtEpochSeconds)
      (fun d => d.finish request.success request.nextAttemptEpochSeconds
        request.deliveredAtEpochSeconds request.error) fun _ => rfl
    dsimp only
    rw [hcount, ← hupdate, hfetch]
    split <;> rfl
  | d1 =>
    refine ActsWithin.checked fun db => ?_
    have hfilter : (db.ofTenant request.tenantId).deliveries.filter (fun d => d.isLeasedTo
          request.tenantId request.deliveryId request.leaseOwner
            (D1Store.int request.finishedAtEpochSeconds)) =
        db.deliveries.filter fun d => d.isLeasedTo request.tenantId request.deliveryId
          request.leaseOwner (D1Store.int request.finishedAtEpochSeconds) :=
      Table.filter_filter_of_imp (htenant _)
    have hupdate := db.updateDeliveries_ofTenant request.tenantId
      (fun d => d.isLeasedTo request.tenantId request.deliveryId request.leaseOwner
        (D1Store.int request.finishedAtEpochSeconds))
      (fun d => d.finish request.success (D1Store.int request.nextAttemptEpochSeconds)
        (request.deliveredAtEpochSeconds.map D1Store.int) request.error) fun _ => rfl
    dsimp only
    rw [hfilter, ← hupdate]
    rfl

/-- Reading a history acts within its tenant. -/
lemma history_actsWithin (request : HistoryRequest) :
    ActsWithin request.tenantId fun db => adapter.history db request := by
  cases adapter
  all_goals
    refine ActsWithin.query fun db => ?_
    cases request.watchId with
    | none => simp only [Db.historyForTenant_ofTenant]
    | some watchId => simp only [Db.historyForWatch_ofTenant]

/-- Listing deliveries acts within its tenant. -/
lemma listDeliveries_actsWithin (request : ListDeliveries) :
    ActsWithin request.tenantId fun db => adapter.listDeliveries db request := by
  cases adapter
  all_goals
    refine ActsWithin.query fun db => ?_
    simp only [Db.listDeliveries_ofTenant]

/-- Completing a run acts within its tenant. -/
lemma completeWatchRun_actsWithin [ExternalParsers] (request : CompleteWatchRun) :
    ActsWithin request.tenantId fun db => adapter.completeWatchRun db request := by
  cases adapter with
  | sqlite => exact SqliteStore.completeWatchRun_actsWithin request
  | d1 => exact D1Store.completeWatchRun_actsWithin request

/-- The result of an operation that acts within a tenant, under the constructor of its reply. -/
private lemma ActsWithin.reply {α β : Type} {tenantId : String} {f : Db → Db × α}
    (h : ActsWithin tenantId f) (reply : α → β) :
    ActsWithin tenantId fun db => (f db).map id reply := by
  intro db
  simp only [h db]
  rfl

/-- **Own operations**: every operation acts within its tenant. -/
theorem step_actsWithin [ExternalParsers] (op : StoreOp) :
    ActsWithin op.tenantId fun db => adapter.step db op := by
  cases op with
  | upsertSource request => exact ActsWithin.reply (adapter.upsertSource_actsWithin request) _
  | createWatch request => exact ActsWithin.reply (adapter.createWatch_actsWithin request) _
  | listWatches tenantId => exact ActsWithin.reply (adapter.listWatches_actsWithin tenantId) _
  | deleteWatch request => exact ActsWithin.reply (adapter.deleteWatch_actsWithin request) _
  | claimDueWatch request => exact ActsWithin.reply (adapter.claimDueWatch_actsWithin request) _
  | startWatchRun request => exact ActsWithin.reply (adapter.startWatchRun_actsWithin request) _
  | completeWatchRun request =>
    exact ActsWithin.reply (adapter.completeWatchRun_actsWithin request) _
  | history request => exact ActsWithin.reply (adapter.history_actsWithin request) _
  | claimPendingDelivery request =>
    exact ActsWithin.reply (adapter.claimPendingDelivery_actsWithin request) _
  | completeDelivery request =>
    exact ActsWithin.reply (adapter.completeDelivery_actsWithin request) _
  | listDeliveries request => exact ActsWithin.reply (adapter.listDeliveries_actsWithin request) _

end Adapter

end Comsat
