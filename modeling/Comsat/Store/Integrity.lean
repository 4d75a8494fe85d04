import Comsat.Store.Completion

set_option relaxedAutoImplicit false
set_option autoImplicit false

/-!
# Integrity of the tables

The step relation of a store in one inductive family, with one constructor for every way in which
an operation can act, and the integrity of the tables along every run.

## Main definitions

* `Adapter.Effect` — how an operation acts on a database, case by case.
* `Db.WellFormed` — unique keys, intervals in range, and references that exist.

## Main results

* `Adapter.step_effect` — every operation on a well-formed database acts in one of these ways.
* `Adapter.wellFormed_run` — every database that a run of a store reaches is well formed.

## Design

* Every later invariant is proved by cases on `Adapter.Effect`, and for whole runs by
  `Machine.run_induction`.
-/

namespace Comsat

/-! ## Well-formed databases -/

/-- A database whose keys are unique, whose intervals are in range and whose references exist. -/
structure Db.WellFormed (db : Db) : Prop extends Db.KeysUnique db where
  /-- Intervals lie between a second and a year. -/
  intervals : ∀ w ∈ db.watches, 1 ≤ w.intervalSeconds ∧ w.intervalSeconds ≤ 31536000
  /-- A run belongs to a watch. -/
  runWatches : ∀ r ∈ db.watchRuns, (r.tenantId, r.watchId) ∈ db.watches.map Watch.key
  /-- A record of a watch belongs to the watch. -/
  recordWatches : ∀ x ∈ db.watchRecords, (x.tenantId, x.watchId) ∈ db.watches.map Watch.key
  /-- A record of a watch is a record of the tenant. -/
  watchRecordRecords : ∀ x ∈ db.watchRecords, (x.tenantId, x.identity) ∈ db.records.map RecordRow.key
  /-- A delivery belongs to a watch. -/
  deliveryWatches : ∀ d ∈ db.deliveries, (d.tenantId, d.watchId) ∈ db.watches.map Watch.key

/-- The empty tables are well formed. -/
lemma Db.wellFormed_empty : Db.empty.WellFormed := by
  constructor <;> simp [Db.empty]
  constructor <;> simp

/-! ## What a step does -/

/-- A reply that reports a change: a watch created or claimed, a run completed, a delivery claimed
or acknowledged. -/
def StoreReply.Reports : StoreReply → Prop
  | .watchCreated (.ok _) => True
  | .watchDeleted (.ok _) => True
  | .watchClaimed (.ok (some _)) => True
  | .runCompleted (.ok _) => True
  | .deliveryClaimed (.ok (some _)) => True
  | .deliveryCompleted (.ok _) => True
  | _ => False

namespace Adapter

/-- How an operation acts on a database: the database after it, and its reply. -/
inductive Effect [ExternalParsers] (adapter : Adapter) (db : Db) :
    StoreOp → Db × StoreReply → Prop
  /-- It leaves the database alone and reports no change. -/
  | unchanged {op : StoreOp} {reply : StoreReply} (h : ¬ reply.Reports) :
      Effect adapter db op (db, reply)
  /-- It records a source. -/
  | source (request : UpsertSource) (row : SourceRow) (h : row.tenantId = request.tenantId) :
      Effect adapter db (.upsertSource request) (db.upsertSource row, .sourceUpserted (.ok ()))
  /-- It creates a watch under a new key. -/
  | created (request : CreateWatch) (hvalid : request.validate = .ok ())
      (hfree : request.intoWatch.key ∉ db.watches.map Watch.key) :
      Effect adapter db (.createWatch request)
        ({ db with watches := db.watches ++ [adapter.storedWatch request.intoWatch] },
          .watchCreated (.ok request.intoWatch))
  /-- It deletes a watch, if it is there. -/
  | deleted (request : DeleteWatch) (found : Bool) :
      Effect adapter db (.deleteWatch request)
        (db.deleteWatch request.tenantId request.watchId, .watchDeleted (.ok found))
  /-- It leases the first watch that is due, whether or not it can read it. -/
  | claimed (request : ClaimDueWatch) (due : Watch) (hvalid : request.validate = .ok ())
      (hdue : db.dueWatch request.tenantId (adapter.bind request.nowEpochSeconds) = some due)
      (hcommits : adapter.CommitsClaim due) :
      Effect adapter db (.claimDueWatch request)
        (adapter.leaseWatch db due request, .watchClaimed (adapter.claimReply due request))
  /-- It starts a run of a leased watch. -/
  | started (request : StartWatchRun)
      (hleased : ∃ w ∈ db.watches, w.isLeasedTo request.tenantId request.watchId
        request.leaseOwner (adapter.bind request.startedAtEpochSeconds) = true)
      (hidempotency : (adapter.startedRun request).idempotency ∉
        db.watchRuns.map WatchRun.idempotency)
      (hkey : (adapter.startedRun request).key ∉ db.watchRuns.map WatchRun.key) :
      Effect adapter db (.startWatchRun request)
        ({ db with watchRuns := db.watchRuns ++ [adapter.startedRun request] },
          .runStarted (.ok (adapter.startedRun request)))
  /-- It completes a run. -/
  | completed (request : CompleteWatchRun) (hvalid : request.validate = .ok ())
      (hcan : adapter.CanComplete db request) :
      Effect adapter db (.completeWatchRun request)
        (adapter.committed db request, .runCompleted (.ok (adapter.outcome db request)))
  /-- It ends the lease of a watch although it reports a conflict. -/
  | stale (request : CompleteWatchRun) (message : String) (hd1 : adapter = .d1)
      (hstale : D1Store.IsStaleFinish db request) :
      Effect adapter db (.completeWatchRun request)
        ({ db with watches := adapter.watchesAfter request db.watches },
          .runCompleted (.error (.conflict message)))
  /-- It leases the first delivery that may be attempted, whether or not it can read it. -/
  | deliveryLeased (request : ClaimPendingDelivery) (delivery : Delivery)
      (hvalid : request.validate = .ok ())
      (hdelivery : db.eligibleDelivery request.tenantId (adapter.bind request.nowEpochSeconds) =
        some delivery)
      (hcommits : adapter.CommitsDelivery db delivery request) :
      Effect adapter db (.claimPendingDelivery request)
        (adapter.leaseDelivery db delivery request,
          .deliveryClaimed (adapter.deliveryReply db delivery request))
  /-- It ends the lease of a delivery, whether or not it can read it. -/
  | deliveryFinished (request : CompleteDelivery) (delivery : Delivery)
      (hmem : delivery ∈ db.deliveries)
      (hleased : delivery.isLeasedTo request.tenantId request.deliveryId request.leaseOwner
        (adapter.bind request.finishedAtEpochSeconds) = true) :
      Effect adapter db (.completeDelivery request)
        ({ db with
            deliveries := Table.update (fun d => d.key = delivery.key)
              (adapter.finishedDelivery request) db.deliveries },
          .deliveryCompleted (adapter.readDelivery (adapter.finishedDelivery request delivery)))

/-- **What a step does**: on a well-formed database every operation acts in one of the ways of
`Effect`.

**Proof sketch.** The cases of each operation, one lemma each. -/
theorem step_effect [ExternalParsers] (adapter : Adapter) {db : Db} (hdb : db.WellFormed)
    (op : StoreOp) : adapter.Effect db op (adapter.step db op) := by
  cases op with
  | upsertSource request =>
    simp only [step, upsertSource_eq]
    cases request.validate with
    | error e => exact .unchanged id
    | ok _ => exact .source request _ rfl
  | createWatch request =>
    rcases adapter.createWatch_cases db request with ⟨e, h⟩ | ⟨hv, hfree, h⟩
    · simp only [step, h]
      exact .unchanged id
    · simp only [step, h]
      exact .created request hv hfree
  | listWatches tenantId =>
    cases adapter <;> exact .unchanged id
  | deleteWatch request =>
    rcases adapter.deleteWatch_cases db request with ⟨e, h⟩ | ⟨found, h⟩
    · simp only [step, h]
      exact .unchanged id
    · simp only [step, h]
      exact .deleted request found
  | claimDueWatch request =>
    rcases adapter.claimDueWatch_cases request hdb.watches with
      ⟨e, h⟩ | ⟨-, h⟩ | ⟨due, hdue, hv, hcommits, h⟩
    · simp only [step, h]
      exact .unchanged id
    · simp only [step, h]
      exact .unchanged id
    · simp only [step, h]
      exact .claimed request due hv hdue hcommits
  | startWatchRun request =>
    rcases adapter.startWatchRun_cases db request with
      ⟨e, h⟩ | ⟨run, -, -, h⟩ | ⟨hleased, hidempotency, hkey, h⟩
    · simp only [step, h]
      exact .unchanged id
    · simp only [step, h]
      exact .unchanged id
    · simp only [step, h]
      exact .started request hleased hidempotency hkey
  | completeWatchRun request =>
    rcases adapter.completeWatchRun_cases request hdb.toKeysUnique
      (fun w hw => (hdb.intervals w hw).1) with ⟨e, h⟩ | ⟨hv, hcan, h⟩ | ⟨hd1, -, hstale, message, h⟩
    · simp only [step, h]
      exact .unchanged id
    · simp only [step, h]
      exact .completed request hv hcan
    · simp only [step, h]
      exact .stale request message hd1 hstale
  | history request =>
    cases adapter <;> exact .unchanged id
  | claimPendingDelivery request =>
    rcases adapter.claimPendingDelivery_cases request hdb.deliveries with
      ⟨e, h⟩ | ⟨-, h⟩ | ⟨delivery, hdelivery, hv, hcommits, h⟩
    · simp only [step, h]
      exact .unchanged id
    · simp only [step, h]
      exact .unchanged id
    · simp only [step, h]
      exact .deliveryLeased request delivery hv hdelivery hcommits
  | completeDelivery request =>
    rcases adapter.completeDelivery_cases request hdb.deliveries with
      ⟨e, h⟩ | ⟨delivery, hmem, hleased, h⟩
    · simp only [step, h]
      exact .unchanged id
    · simp only [step, h]
      exact .deliveryFinished request delivery hmem hleased
  | listDeliveries request =>
    cases adapter <;> exact .unchanged id

/-! ## Well-formedness is kept -/

/-- Committing a completion keeps a database well formed.

**Proof sketch.** The keys of every table stay unique. What a completion inserts into
`watch_records` and `deliveries` refers to the watch whose lease it holds, and to the records it
inserts first. -/
lemma wellFormed_committed (adapter : Adapter) {db : Db} (hdb : db.WellFormed)
    {request : CompleteWatchRun} (hcan : adapter.CanComplete db request) :
    (adapter.committed db request).WellFormed where
  sources := hdb.sources
  watches := by simpa [committed] using hdb.watches
  watchRuns := by simpa [committed] using hdb.watchRuns
  idempotency := by simpa [committed] using hdb.idempotency
  records := adapter.nodup_recordsAfter hdb.records
  watchRecords := adapter.nodup_watchRecordsAfter hdb.watchRecords
  deliveries := adapter.nodup_deliveriesAfter hdb.deliveries
  intervals := by
    intro w hw
    rcases Table.mem_update.mp hw with ⟨hw, -⟩ | ⟨old, hold, -, rfl⟩
    · exact hdb.intervals w hw
    · exact hdb.intervals old hold
  runWatches := by
    intro r hr
    simp only [committed, map_key_watchesAfter]
    rcases Table.mem_update.mp hr with ⟨hr, -⟩ | ⟨old, hold, -, rfl⟩
    · exact hdb.runWatches r hr
    · exact hdb.runWatches old hold
  recordWatches := by
    intro x hx
    obtain ⟨⟨w, hw, hleased⟩, -⟩ := hcan
    simp only [committed, map_key_watchesAfter]
    rcases (adapter.mem_watchRecordsAfter).mp (List.mem_map_of_mem hx) with hold | hnew
    · obtain ⟨y, hy, hkey⟩ := List.mem_map.mp hold
      simp only [WatchRecordRow.key, Prod.mk.injEq] at hkey
      rw [← hkey.1, ← hkey.2.1]
      exact hdb.recordWatches y hy
    · obtain ⟨record, -, hkey⟩ := List.mem_map.mp hnew
      simp only [WatchRecordRow.key, Prod.mk.injEq] at hkey
      rw [← hkey.1, ← hkey.2.1, ← (Watch.isLeasedTo_iff.mp hleased).1]
      exact List.mem_map_of_mem hw
  watchRecordRecords := by
    intro x hx
    refine (adapter.mem_recordsAfter).mpr ?_
    rcases (adapter.mem_watchRecordsAfter).mp (List.mem_map_of_mem hx) with hold | hnew
    · obtain ⟨y, hy, hkey⟩ := List.mem_map.mp hold
      simp only [WatchRecordRow.key, Prod.mk.injEq] at hkey
      rw [← hkey.1, ← hkey.2.2]
      exact .inl (hdb.watchRecordRecords y hy)
    · obtain ⟨record, hrecord, hkey⟩ := List.mem_map.mp hnew
      simp only [WatchRecordRow.key, Prod.mk.injEq] at hkey
      rw [← hkey.1, ← hkey.2.2]
      exact .inr (List.mem_map_of_mem (f := fun r : Record => (request.tenantId, r.identity))
        hrecord)
  deliveryWatches := by
    intro d hd
    obtain ⟨⟨w, hw, hleased⟩, -⟩ := hcan
    simp only [committed, map_key_watchesAfter]
    rcases (adapter.mem_deliveriesAfter).mp hd with hd | ⟨delivery, -, -, -, rfl⟩
    · exact hdb.deliveryWatches d hd
    · change (request.tenantId, request.watchId) ∈ _
      rw [← (Watch.isLeasedTo_iff.mp hleased).1]
      exact List.mem_map_of_mem hw

/-- Deleting a watch keeps a database well formed: the cascade removes every row that refers to
it. -/
lemma wellFormed_deleteWatch {db : Db} (hdb : db.WellFormed) (tenantId watchId : String) :
    (db.deleteWatch tenantId watchId).WellFormed := by
  -- a watch that a kept row refers to is kept
  have hkept : ∀ t w, (t, w) ∈ db.watches.map Watch.key →
      (decide (t = tenantId) && decide (w = watchId)) = false →
        (t, w) ∈ (db.deleteWatch tenantId watchId).watches.map Watch.key := by
    intro t w hmem hnot
    obtain ⟨v, hv, hkey⟩ := List.mem_map.mp hmem
    refine List.mem_map.mpr ⟨v, Table.mem_delete.mpr ⟨hv, ?_⟩, hkey⟩
    simp only [Watch.key, Prod.mk.injEq] at hkey
    rwa [hkey.1, hkey.2]
  refine ⟨⟨hdb.sources, Table.nodup_delete hdb.watches, Table.nodup_delete hdb.watchRuns,
    Table.nodup_delete hdb.idempotency, hdb.records, Table.nodup_delete hdb.watchRecords,
    Table.nodup_delete hdb.deliveries⟩, ?_, ?_, ?_, ?_, ?_⟩
  · intro w hw
    exact hdb.intervals w (Table.mem_delete.mp hw).1
  · intro r hr
    obtain ⟨hr, hnot⟩ := Table.mem_delete.mp hr
    exact hkept _ _ (hdb.runWatches r hr) hnot
  · intro x hx
    obtain ⟨hx, hnot⟩ := Table.mem_delete.mp hx
    exact hkept _ _ (hdb.recordWatches x hx) hnot
  · intro x hx
    exact hdb.watchRecordRecords x (Table.mem_delete.mp hx).1
  · intro d hd
    obtain ⟨hd, hnot⟩ := Table.mem_delete.mp hd
    exact hkept _ _ (hdb.deliveryWatches d hd) hnot

/-- An update of the watches that leaves keys and intervals alone keeps a database well formed. -/
lemma wellFormed_updateWatches {db : Db} (hdb : db.WellFormed) {p : Watch → Bool}
    {f : Watch → Watch} (hkey : ∀ w, (f w).key = w.key)
    (hinterval : ∀ w, (f w).intervalSeconds = w.intervalSeconds) :
    Db.WellFormed { db with watches := Table.update p f db.watches } := by
  have hkeys : (Table.update p f db.watches).map Watch.key = db.watches.map Watch.key :=
    Table.map_update fun w _ _ => hkey w
  refine ⟨⟨hdb.sources, ?_, hdb.watchRuns, hdb.idempotency, hdb.records, hdb.watchRecords,
    hdb.deliveries⟩, ?_, ?_, ?_, hdb.watchRecordRecords, ?_⟩
  · rw [hkeys]
    exact hdb.watches
  · intro w hw
    rcases Table.mem_update.mp hw with ⟨hw, -⟩ | ⟨old, hold, -, rfl⟩
    · exact hdb.intervals w hw
    · rw [hinterval]
      exact hdb.intervals old hold
  · simpa only [hkeys] using hdb.runWatches
  · simpa only [hkeys] using hdb.recordWatches
  · simpa only [hkeys] using hdb.deliveryWatches

/-- An update of the deliveries that leaves keys and watches alone keeps a database well
formed. -/
lemma wellFormed_updateDeliveries {db : Db} (hdb : db.WellFormed) {p : Delivery → Bool}
    {f : Delivery → Delivery} (hkey : ∀ d, (f d).key = d.key)
    (hwatch : ∀ d, (f d).watchId = d.watchId) :
    Db.WellFormed { db with deliveries := Table.update p f db.deliveries } := by
  refine ⟨⟨hdb.sources, hdb.watches, hdb.watchRuns, hdb.idempotency, hdb.records,
    hdb.watchRecords, Table.nodup_update hdb.deliveries fun d _ _ => hkey d⟩, hdb.intervals,
    hdb.runWatches, hdb.recordWatches, hdb.watchRecordRecords, ?_⟩
  intro d hd
  rcases Table.mem_update.mp hd with ⟨hd, -⟩ | ⟨old, hold, -, rfl⟩
  · exact hdb.deliveryWatches d hd
  · have htenant : (f old).tenantId = old.tenantId := congrArg Prod.fst (hkey old)
    rw [htenant, hwatch]
    exact hdb.deliveryWatches old hold

/-- Every way of acting keeps a database well formed. -/
theorem Effect.wellFormed [ExternalParsers] {adapter : Adapter} {db : Db} {op : StoreOp}
    {result : Db × StoreReply} (heffect : adapter.Effect db op result) (hdb : db.WellFormed) :
    result.1.WellFormed := by
  cases heffect with
  | unchanged => exact hdb
  | source request row =>
    exact ⟨⟨Table.nodup_upsert SourceRow.key_setObserved hdb.sources, hdb.watches, hdb.watchRuns,
      hdb.idempotency, hdb.records, hdb.watchRecords, hdb.deliveries⟩, hdb.intervals,
      hdb.runWatches, hdb.recordWatches, hdb.watchRecordRecords, hdb.deliveryWatches⟩
  | created request hvalid hfree =>
    have hmap : ∀ k, k ∈ db.watches.map Watch.key →
        k ∈ (db.watches ++ [adapter.storedWatch request.intoWatch]).map Watch.key := fun k hk => by
      rw [List.map_append]
      exact List.mem_append_left _ hk
    refine ⟨⟨hdb.sources, Table.nodup_append_row hdb.watches hfree, hdb.watchRuns,
      hdb.idempotency, hdb.records, hdb.watchRecords, hdb.deliveries⟩, ?_,
      fun r hr => hmap _ (hdb.runWatches r hr), fun x hx => hmap _ (hdb.recordWatches x hx),
      hdb.watchRecordRecords, fun d hd => hmap _ (hdb.deliveryWatches d hd)⟩
    intro w hw
    rcases List.mem_append.mp hw with hw | hw
    · exact hdb.intervals w hw
    · obtain rfl := List.mem_singleton.mp hw
      exact CreateWatch.interval_of_validate hvalid
  | deleted request => exact wellFormed_deleteWatch hdb _ _
  | claimed request due =>
    exact wellFormed_updateWatches hdb (fun _ => rfl) fun _ => rfl
  | started request hleased hidempotency hkey =>
    refine ⟨⟨hdb.sources, hdb.watches, Table.nodup_append_row hdb.watchRuns hkey,
      Table.nodup_append_row hdb.idempotency hidempotency, hdb.records, hdb.watchRecords,
      hdb.deliveries⟩, hdb.intervals, ?_, hdb.recordWatches, hdb.watchRecordRecords,
      hdb.deliveryWatches⟩
    intro r hr
    rcases List.mem_append.mp hr with hr | hr
    · exact hdb.runWatches r hr
    · obtain rfl := List.mem_singleton.mp hr
      obtain ⟨w, hw, hw'⟩ := hleased
      change (request.tenantId, request.watchId) ∈ _
      rw [← (Watch.isLeasedTo_iff.mp hw').1]
      exact List.mem_map_of_mem hw
  | completed request hvalid hcan => exact adapter.wellFormed_committed hdb hcan
  | stale request => exact wellFormed_updateWatches hdb (fun _ => rfl) fun _ => rfl
  | deliveryLeased request delivery =>
    exact wellFormed_updateDeliveries hdb (fun _ => rfl) fun _ => rfl
  | deliveryFinished request delivery =>
    exact wellFormed_updateDeliveries hdb (fun _ => rfl) fun _ => rfl

/-- **Integrity**: every database that a run of a store reaches is well formed. -/
theorem wellFormed_run [ExternalParsers] (adapter : Adapter) (ops : List StoreOp) :
    (adapter.store.run ops).WellFormed :=
  adapter.store.run_induction (P := fun _ db => db.WellFormed) Db.wellFormed_empty
    (fun _ _ op hdb => (adapter.step_effect hdb op).wellFormed hdb) ops

end Adapter

end Comsat
