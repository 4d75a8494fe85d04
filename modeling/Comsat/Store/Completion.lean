import Comsat.Store.Effects

set_option relaxedAutoImplicit false
set_option autoImplicit false

/-!
# What a completion can do

The two adapters complete a run in different ways: one loops over the records inside a
transaction, the other sends a batch of statements and decodes their results. This file reduces
both to the same few tables: a completion fails and leaves the database alone, or commits, or,
in the D1 adapter only, fails after its last statement has ended the lease.

## Main definitions

* `Adapter.recordsAfter`, `Adapter.watchRecordsAfter`, `Adapter.newRecords`,
  `Adapter.deliveriesAfter` — the tables that a committed completion leaves.
* `Adapter.committed` — the database after a committed completion.
* `D1Store.IsStaleFinish` — the state in which only the last statement of the batch acts.
* `D1Store.RecordsFit` — the records of a request are within the limit of the batch.

## Main results

* `Adapter.completeWatchRun_cases` — the cases of a completion.
* `Adapter.nodup_newRecords`, `Adapter.mem_newRecords` — the records of a notification have
  distinct identities, those of the request that the watch does not have yet.
-/

namespace Comsat

/-- The row that a completion inserts for its notification of some records. -/
def CompleteWatchRun.deliveryRow (request : CompleteWatchRun) (at_ : JsonInteger)
    (delivery : WatchRunDelivery) (records : List Record) : Delivery where
  tenantId := request.tenantId
  deliveryId := delivery.deliveryId
  watchId := request.watchId
  runId := some request.runId
  status := .pending
  target := delivery.target
  payload := ⟨request.tenantId, request.watchId, request.runId, at_, records⟩
  createdAtEpochSeconds := at_.value
  nextAttemptEpochSeconds := at_.value
  attempts := 0
  leaseOwner := none
  leaseExpiresEpochSeconds := none
  deliveredAtEpochSeconds := none
  error := none

/-! ## The loop of the SQLite adapter -/

namespace SqliteStore

/-- The rows of `records` that a completion writes. -/
def recordRows (request : CompleteWatchRun) (records : List Record) : List RecordRow :=
  records.map (RecordRow.observed request.tenantId request.finishedAtEpochSeconds)

/-- The rows of `watch_records` that a completion writes. -/
def watchRecordRows (request : CompleteWatchRun) (records : List Record) : List WatchRecordRow :=
  records.map
    (WatchRecordRow.observed request.tenantId request.watchId request.finishedAtEpochSeconds)

/-- The records of a list that the loop finds new to the watch, when it starts with the given
rows of `watch_records`. -/
def newRecords (request : CompleteWatchRun) : List WatchRecordRow → List Record → List Record
  | _, [] => []
  | table, record :: records =>
    let row := WatchRecordRow.observed request.tenantId request.watchId
      request.finishedAtEpochSeconds record
    let table' := Table.upsert WatchRecordRow.key WatchRecordRow.setObserved table row
    if Table.exists? WatchRecordRow.key table row then newRecords request table' records
    else record :: newRecords request table' records

/-- The loop upserts the rows of the records into both tables, counts the new ones and collects
those that are new to the watch.

**Proof sketch.** Induction on the records: one pass upserts one row into each table. -/
lemma foldl_observe (request : CompleteWatchRun) (records : List Record) (loop : Completion) :
    ∃ recordsInserted watchRecordsInserted,
      records.foldl (Completion.observe request) loop =
        { db := { loop.db with
            records := (recordRows request records).foldl
              (Table.upsert RecordRow.key RecordRow.setContent) loop.db.records
            watchRecords := (watchRecordRows request records).foldl
              (Table.upsert WatchRecordRow.key WatchRecordRow.setObserved) loop.db.watchRecords }
          recordsInserted
          watchRecordsInserted
          newRecords := loop.newRecords ++ newRecords request loop.db.watchRecords records } ∧
      recordsInserted + loop.db.records.length = loop.recordsInserted +
        ((recordRows request records).foldl (Table.upsert RecordRow.key RecordRow.setContent)
          loop.db.records).length ∧
      watchRecordsInserted + loop.db.watchRecords.length = loop.watchRecordsInserted +
        ((watchRecordRows request records).foldl
          (Table.upsert WatchRecordRow.key WatchRecordRow.setObserved)
          loop.db.watchRecords).length := by
  induction records generalizing loop with
  | nil => exact ⟨loop.recordsInserted, loop.watchRecordsInserted, by simp [recordRows,
      watchRecordRows, newRecords]⟩
  | cons record records ih =>
    obtain ⟨m, n, hloop, hm, hn⟩ := ih (Completion.observe request loop record)
    refine ⟨m, n, ?_, ?_, ?_⟩
    · rw [List.foldl_cons, hloop]
      simp only [Completion.observe, upsertRecord, upsertWatchRecord, recordRows,
        watchRecordRows, List.map_cons, List.foldl_cons, newRecords]
      split <;> rename_i h <;> simp [h]
    · simp only [Completion.observe, upsertRecord, upsertWatchRecord, Table.length_upsert] at hm
      simp only [recordRows, List.map_cons, List.foldl_cons] at hm ⊢
      omega
    · simp only [Completion.observe, upsertRecord, upsertWatchRecord, Table.length_upsert] at hn
      simp only [watchRecordRows, List.map_cons, List.foldl_cons] at hn ⊢
      split at hn <;> rename_i h <;> simp only [h, ↓reduceIte, Bool.false_eq_true] at hn <;> omega

/-- The keys of `watch_records` after a row is upserted. -/
private lemma mem_map_upsert_watchRecord {request : CompleteWatchRun}
    {table : List WatchRecordRow} {record : Record} {k : String × String × SourceId × RecordId} :
    k ∈ (Table.upsert WatchRecordRow.key WatchRecordRow.setObserved table
        (WatchRecordRow.observed request.tenantId request.watchId request.finishedAtEpochSeconds
          record)).map WatchRecordRow.key ↔
      k ∈ table.map WatchRecordRow.key ∨
        k = (request.tenantId, request.watchId, record.identity) :=
  Table.mem_map_upsert WatchRecordRow.key_setObserved

/-- Whether the watch has a record. -/
private lemma exists?_watchRecord {request : CompleteWatchRun} {table : List WatchRecordRow}
    {record : Record} :
    Table.exists? WatchRecordRow.key table (WatchRecordRow.observed request.tenantId
        request.watchId request.finishedAtEpochSeconds record) = true ↔
      (request.tenantId, request.watchId, record.identity) ∈ table.map WatchRecordRow.key :=
  Table.exists?_iff

/-- The identities of the records that the loop finds new: those of the list that the watch does
not have. -/
lemma mem_newRecords {request : CompleteWatchRun} {table : List WatchRecordRow}
    {records : List Record} {identity : SourceId × RecordId} :
    identity ∈ (newRecords request table records).map Record.identity ↔
      identity ∈ records.map Record.identity ∧
        (request.tenantId, request.watchId, identity) ∉ table.map WatchRecordRow.key := by
  induction records generalizing table with
  | nil => simp [newRecords]
  | cons record records ih =>
    simp only [newRecords]
    by_cases h : (request.tenantId, request.watchId, record.identity) ∈
        table.map WatchRecordRow.key
    · rw [if_pos (exists?_watchRecord.mpr h), ih, mem_map_upsert_watchRecord, List.map_cons,
        List.mem_cons]
      constructor
      · rintro ⟨hmem, hnot⟩
        exact ⟨.inr hmem, fun hk => hnot (.inl hk)⟩
      · rintro ⟨rfl | hmem, hnot⟩
        · exact absurd h hnot
        · refine ⟨hmem, ?_⟩
          rintro (hk | hk)
          · exact hnot hk
          · exact hnot (hk ▸ h)
    · rw [if_neg (by rwa [exists?_watchRecord]), List.map_cons, List.mem_cons, ih,
        mem_map_upsert_watchRecord, List.map_cons, List.mem_cons]
      constructor
      · rintro (rfl | ⟨hmem, hnot⟩)
        · exact ⟨.inl rfl, h⟩
        · exact ⟨.inr hmem, fun hk => hnot (.inl hk)⟩
      · rintro ⟨hmem, hnot⟩
        by_cases hid : identity = record.identity
        · exact .inl hid
        · refine .inr ⟨hmem.resolve_left hid, ?_⟩
          rintro (hk | hk)
          · exact hnot hk
          · exact hid (by simpa using hk)

/-- The records that the loop finds new have distinct identities. -/
lemma nodup_newRecords {request : CompleteWatchRun} {table : List WatchRecordRow}
    {records : List Record} :
    ((newRecords request table records).map Record.identity).Nodup := by
  induction records generalizing table with
  | nil => simp [newRecords]
  | cons record records ih =>
    simp only [newRecords]
    split
    · exact ih
    · rw [List.map_cons, List.nodup_cons]
      refine ⟨fun hmem => ?_, ih⟩
      exact (mem_newRecords.mp hmem).2 (mem_map_upsert_watchRecord.mpr (.inr rfl))

/-- Records with distinct identities are new exactly when the watch does not have them. -/
lemma newRecords_eq_filter {request : CompleteWatchRun} {table : List WatchRecordRow}
    {records : List Record} (hn : (records.map Record.identity).Nodup) :
    newRecords request table records = records.filter fun record =>
      (request.tenantId, request.watchId, record.identity) ∉ table.map WatchRecordRow.key := by
  induction records generalizing table with
  | nil => rfl
  | cons record records ih =>
    rw [List.map_cons, List.nodup_cons] at hn
    have hrest : ∀ r ∈ records, (decide ((request.tenantId, request.watchId, r.identity) ∉
        (Table.upsert WatchRecordRow.key WatchRecordRow.setObserved table
          (WatchRecordRow.observed request.tenantId request.watchId
            request.finishedAtEpochSeconds record)).map WatchRecordRow.key)) =
        decide ((request.tenantId, request.watchId, r.identity) ∉
          table.map WatchRecordRow.key) := by
      intro r hr
      refine decide_eq_decide.mpr (not_congr ?_)
      rw [mem_map_upsert_watchRecord]
      refine or_iff_left fun hk => hn.1 ?_
      have hid : r.identity = record.identity := by simpa using hk
      exact hid ▸ List.mem_map_of_mem hr
    simp only [newRecords, ih hn.2, List.filter_congr hrest]
    by_cases h : (request.tenantId, request.watchId, record.identity) ∈
        table.map WatchRecordRow.key
    · rw [if_pos (exists?_watchRecord.mpr h), List.filter_cons_of_neg (by simpa using h)]
    · rw [if_neg (by rwa [exists?_watchRecord]), List.filter_cons_of_pos (by simpa using h)]

end SqliteStore

/-! ## The batch of the D1 adapter -/

namespace D1Store

/-- The table `records` after the update of an open completion. -/
def recordsUpdated (request : CompleteWatchRun) (table : List RecordRow) : List RecordRow :=
  Table.update
    (fun row => row.tenantId = request.tenantId && (incoming request row.record.identity).isSome)
    (fun row =>
      match incoming request row.record.identity with
      | some record => row.setContent
          (RecordRow.observed request.tenantId (int request.finishedAtEpochSeconds) record)
      | none => row) table

/-- The table `records` after the batch of an open completion. -/
def recordsAfter (request : CompleteWatchRun) (table : List RecordRow) : List RecordRow :=
  recordsUpdated request (Table.insertAllIgnore RecordRow.key table (request.records.map
    (RecordRow.observed request.tenantId (int request.finishedAtEpochSeconds))))

/-- The table `watch_records` after the update of an open completion. -/
def watchRecordsUpdated (request : CompleteWatchRun) (table : List WatchRecordRow) :
    List WatchRecordRow :=
  Table.update
    (fun row => row.tenantId = request.tenantId && row.watchId = request.watchId &&
      (incoming request row.identity).isSome)
    (fun row => { row with lastObservedEpochSeconds := int request.finishedAtEpochSeconds }) table

/-- The table `watch_records` after the batch of an open completion. -/
def watchRecordsAfter (request : CompleteWatchRun) (table : List WatchRecordRow) :
    List WatchRecordRow :=
  watchRecordsUpdated request (Table.insertAllIgnore WatchRecordRow.key table (request.records.map
    (WatchRecordRow.observed request.tenantId request.watchId
      (int request.finishedAtEpochSeconds))))

/-- The table `deliveries` after the batch of an open completion. -/
def deliveriesAfter (db : Db) (request : CompleteWatchRun) : List Delivery :=
  match request.delivery with
  | some delivery =>
    Table.insertAllIgnore Delivery.key db.deliveries
      (if 0 < (newRecords db request).length then
        [request.deliveryRow (.real (int request.finishedAtEpochSeconds)) delivery
          (newRecords db request)]
      else [])
  | none => db.deliveries

/-- A batch is its first statement and then the others. -/
lemma batch_cons (statement : D1Statement) (statements : List D1Statement) (db : Db) :
    batch (statement :: statements) db =
      ((batch statements (statement db).1).1,
        (statement db).2 :: (batch statements (statement db).1).2) := by
  have hacc : ∀ (statements : List D1Statement) (db : Db) (results : List D1Result),
      statements.foldl (fun (acc : Db × List D1Result) statement =>
        ((statement acc.1).1, acc.2 ++ [(statement acc.1).2])) (db, results) =
      ((batch statements db).1, results ++ (batch statements db).2) := by
    intro statements
    induction statements with
    | nil => simp [batch]
    | cons statement statements ih =>
      intro db results
      simp only [List.foldl_cons, batch, ih (statement db).1 (results ++ [(statement db).2]),
        ih (statement db).1 ([] ++ [(statement db).2])]
      simp
  rw [batch, List.foldl_cons]
  simp only [hacc statements (statement db).1 ([] ++ [(statement db).2])]
  rfl

/-- A batch in two parts. -/
lemma batch_append (first second : List D1Statement) (db : Db) :
    batch (first ++ second) db =
      ((batch second (batch first db).1).1, (batch first db).2 ++ (batch second (batch first db).1).2) := by
  induction first generalizing db with
  | nil => rfl
  | cons statement first ih => simp only [List.cons_append, batch_cons, ih]

/-- The empty batch. -/
@[simp] lemma batch_nil (db : Db) : batch [] db = (db, []) := rfl

section Statements

variable {db : Db} {request : CompleteWatchRun}

/-- The gate is open exactly under an unexpired lease of the watch, with a run that is running
under the worker. -/
lemma isOpen_iff : isOpen db request = true ↔
    (∃ w ∈ db.watches, w.isLeasedTo request.tenantId request.watchId request.leaseOwner
      (int request.finishedAtEpochSeconds) = true) ∧
    ∃ r ∈ db.watchRuns, r.isRunningUnder request.tenantId request.watchId request.runId
      request.leaseOwner = true := by
  have hkey : ∀ w : Watch, w.isLeasedTo request.tenantId request.watchId request.leaseOwner
      (int request.finishedAtEpochSeconds) = true →
        w.tenantId = request.tenantId ∧ w.watchId = request.watchId := fun w hw =>
    Prod.mk.inj (Watch.isLeasedTo_iff.mp hw).1
  rw [isOpen, Bool.not_eq_true', List.isEmpty_eq_false_iff_exists_mem]
  simp only [gateRows, List.mem_flatMap, List.mem_map, List.mem_filter]
  constructor
  · rintro ⟨_, w, ⟨hw, hleased⟩, r, ⟨hr, hrunning⟩, -⟩
    rw [(hkey w hleased).1, (hkey w hleased).2] at hrunning
    exact ⟨⟨w, hw, hleased⟩, r, hr, hrunning⟩
  · rintro ⟨⟨w, hw, hleased⟩, r, hr, hrunning⟩
    refine ⟨_, w, ⟨hw, hleased⟩, r, ⟨hr, ?_⟩, rfl⟩
    rwa [(hkey w hleased).1, (hkey w hleased).2]

/-- The statements that write records, when the gate is closed: they change nothing. -/
lemma recordStatements_closed (h : isOpen db request = false) :
    (batch (recordStatements request) db).1 = db := by
  have hinsert : insertRecords request db = (db, ⟨[], 0⟩) := by
    simp [insertRecords, h]
  have hupdate : (updateRecords request db).1 = db := by
    simp only [updateRecords, h, Bool.and_false]
    rw [Table.update_of_forall_not fun _ _ => rfl]
  have hwatchInsert : insertWatchRecords request db = (db, ⟨[], 0⟩) := by
    simp [insertWatchRecords, h]
  have hwatchUpdate : (updateWatchRecords request db).1 = db := by
    simp only [updateWatchRecords, h, Bool.and_false]
    rw [Table.update_of_forall_not fun _ _ => rfl]
  have hdelivery : ∀ delivery, insertRunDelivery request delivery db = (db, ⟨[], 0⟩) := fun _ => by
    simp [insertRunDelivery, h]
  simp only [recordStatements]
  cases request.delivery with
  | none => simp [batch_cons, hinsert, hupdate, hwatchInsert, hwatchUpdate]
  | some delivery => simp [batch_cons, hinsert, hupdate, hwatchInsert, hwatchUpdate, hdelivery]

/-- The statements that write records, when the gate is open, and the counts they return. -/
lemma recordStatements_open (h : isOpen db request = true) :
    (batch (recordStatements request) db).1 =
        { db with
          records := recordsAfter request db.records
          watchRecords := watchRecordsAfter request db.watchRecords
          deliveries := deliveriesAfter db request } ∧
      ∃ updated watchUpdated,
        (batch (recordStatements request) db).2 =
          [⟨[], (recordsAfter request db.records).length - db.records.length⟩, updated] ++
            (match request.delivery with
              | some _ => [⟨[], (deliveriesAfter db request).length - db.deliveries.length⟩]
              | none => []) ++
            [⟨[], (watchRecordsAfter request db.watchRecords).length -
              db.watchRecords.length⟩, watchUpdated] := by
  -- the gate stays open, since the statements leave watches and runs alone
  have hopen : ∀ records watchRecords deliveries,
      isOpen { db with records, watchRecords, deliveries } request = true := fun _ _ _ => h
  have hinsert : insertRecords request db =
      ({ db with
          records := Table.insertAllIgnore RecordRow.key db.records (request.records.map
            (RecordRow.observed request.tenantId (int request.finishedAtEpochSeconds))) },
        ⟨[], (recordsAfter request db.records).length - db.records.length⟩) := by
    simp only [insertRecords, h, ↓reduceIte, recordsAfter, recordsUpdated, Table.update,
      List.length_map]
  have hupdate : ∀ records, (updateRecords request { db with records }).1 =
      { db with records := recordsUpdated request records } := by
    intro records
    have hrows := hopen records db.watchRecords db.deliveries
    unfold updateRecords recordsUpdated
    refine congrArg (fun records => { db with records }) ?_
    refine Table.update_congr (fun row _ => ?_) fun _ _ _ => rfl
    exact (congrArg (_ && ·) hrows).trans (Bool.and_true _)
  have hdelivery : ∀ delivery records, request.delivery = some delivery →
      insertRunDelivery request delivery { db with records } =
        ({ db with records, deliveries := deliveriesAfter db request },
          ⟨[], (deliveriesAfter db request).length - db.deliveries.length⟩) := by
    intro delivery records hd
    simp only [insertRunDelivery, hopen records db.watchRecords db.deliveries, ↓reduceIte,
      deliveriesAfter, hd]
    rfl
  have hwatchInsert : ∀ records deliveries,
      insertWatchRecords request { db with records, deliveries } =
        ({ db with
            records
            deliveries
            watchRecords := Table.insertAllIgnore WatchRecordRow.key db.watchRecords
              (request.records.map (WatchRecordRow.observed request.tenantId request.watchId
                (int request.finishedAtEpochSeconds))) },
          ⟨[], (watchRecordsAfter request db.watchRecords).length - db.watchRecords.length⟩) := by
    intro records deliveries
    simp only [insertWatchRecords, hopen records db.watchRecords deliveries, ↓reduceIte,
      watchRecordsAfter, watchRecordsUpdated, Table.update, List.length_map]
  have hwatchUpdate : ∀ records watchRecords deliveries,
      (updateWatchRecords request { db with records, watchRecords, deliveries }).1 =
        { db with records, deliveries, watchRecords := watchRecordsUpdated request watchRecords } := by
    intro records watchRecords deliveries
    simp only [updateWatchRecords, watchRecordsUpdated, hopen records watchRecords deliveries,
      Bool.and_true]
  simp only [recordStatements]
  cases hd : request.delivery with
  | none =>
    have hdeliveries : deliveriesAfter db request = db.deliveries := by simp [deliveriesAfter, hd]
    refine ⟨?_, ?_⟩
    · simp only [List.append_nil, List.cons_append, List.nil_append, batch_cons, batch_nil,
        hinsert, hupdate, hwatchInsert, hwatchUpdate, hdeliveries]
      rfl
    · refine ⟨(updateRecords request (insertRecords request db).1).2,
        (updateWatchRecords request (insertWatchRecords request
          { db with records := recordsAfter request db.records }).1).2, ?_⟩
      simp only [List.append_nil, List.cons_append, List.nil_append, batch_cons, batch_nil,
        hinsert, hupdate, hwatchInsert, hwatchUpdate]
      rfl
  | some delivery =>
    refine ⟨?_, ?_⟩
    · simp only [List.cons_append, List.nil_append, batch_cons, batch_nil,
        hinsert, hupdate, hdelivery delivery _ hd, hwatchInsert, hwatchUpdate]
      rfl
    · refine ⟨(updateRecords request (insertRecords request db).1).2,
        (updateWatchRecords request (insertWatchRecords request
          { db with
            records := recordsAfter request db.records
            deliveries := deliveriesAfter db request }).1).2, ?_⟩
      simp only [List.cons_append, List.nil_append, batch_cons, batch_nil,
        hinsert, hupdate, hdelivery delivery _ hd, hwatchInsert, hwatchUpdate]
      rfl

/-- The state in which only the last statement of the batch acts: the worker holds the lease of the
watch, and the run is already finished under the worker at the very instant of the request. -/
def IsStaleFinish (db : Db) (request : CompleteWatchRun) : Prop :=
  (∃ w ∈ db.watches, w.isLeasedTo request.tenantId request.watchId request.leaseOwner
    (int request.finishedAtEpochSeconds) = true) ∧
  ∃ r ∈ db.watchRuns, isFinishedUnder r request.tenantId request.watchId request.runId
    request.leaseOwner (int request.finishedAtEpochSeconds) = true

/-- A finished run under the owner, condition by condition. -/
lemma isFinishedUnder_iff {run : WatchRun} {tenantId watchId runId owner : String} {at_ : ℤ} :
    isFinishedUnder run tenantId watchId runId owner at_ = true ↔
      run.key = (tenantId, watchId, runId) ∧ run.leaseOwner = owner ∧
        run.status ≠ .running ∧ run.finishedAtEpochSeconds = some at_ := by
  have hstatus : (run.status = .succeeded ∨ run.status = .failed) ↔ run.status ≠ .running := by
    cases run.status <;> simp
  simp only [isFinishedUnder, WatchRun.key, Bool.and_eq_true, Bool.or_eq_true, decide_eq_true_eq,
    hstatus, Prod.mk.injEq, and_assoc]

/-- The statements that finish run and watch, when the gate is closed: only the last one can act,
in a stale state.

**Proof sketch.** No run is completed, since a row that the statement selects would open the gate.
So the last statement sees the runs as they are. -/
lemma finishStatements_closed (h : isOpen db request = false) :
    (¬ IsStaleFinish db request → (batch (finishStatements request) db).1 = db) ∧
      ((db.watches.map Watch.key).Nodup → IsStaleFinish db request →
        (batch (finishStatements request) db).1 =
          { db with
            watches := Table.update (fun w => w.key = (request.tenantId, request.watchId))
              (fun w => w.finish request.nextCursor
                (sqlAdd (int request.finishedAtEpochSeconds) w.intervalSeconds)) db.watches }) := by
  have hrun : (completeRun request db).1 = db := by
    simp only [completeRun]
    rw [Table.update_of_forall_not]
    intro r hr
    rw [Bool.eq_false_iff]
    intro hr'
    rw [Bool.and_eq_true, List.any_eq_true] at hr'
    exact Bool.eq_false_iff.mp h (isOpen_iff.mpr ⟨hr'.2, r, hr, hr'.1⟩)
  simp only [finishStatements, batch_cons, batch_nil, hrun, completeWatch]
  constructor
  · intro hstale
    rw [Table.update_of_forall_not]
    intro w hw
    rw [Bool.eq_false_iff]
    intro hw'
    rw [Bool.and_eq_true, List.any_eq_true] at hw'
    exact hstale ⟨⟨w, hw, hw'.1⟩, hw'.2⟩
  · rintro hkeys ⟨⟨w, hw, hleased⟩, hfinished⟩
    rw [List.any_eq_true.mpr hfinished]
    simp only [Bool.and_true]
    rw [Table.update_congr (Watch.isLeasedTo_eq hkeys hw hleased) fun _ _ _ => rfl]

/-- The statements that finish run and watch, when the gate is open: each changes one row. -/
lemma finishStatements_open (hwatches : (db.watches.map Watch.key).Nodup)
    (hruns : (db.watchRuns.map WatchRun.key).Nodup) (h : isOpen db request = true) :
    batch (finishStatements request) db =
      ({ db with
          watchRuns := Table.update
            (fun r => r.key = (request.tenantId, request.watchId, request.runId))
            (fun r => r.finish request.status (int request.finishedAtEpochSeconds) request.error)
            db.watchRuns
          watches := Table.update (fun w => w.key = (request.tenantId, request.watchId))
            (fun w => w.finish request.nextCursor
              (sqlAdd (int request.finishedAtEpochSeconds) w.intervalSeconds)) db.watches },
        [⟨[], 1⟩, ⟨[], 1⟩]) := by
  obtain ⟨⟨w, hw, hleased⟩, r, hr, hrunning⟩ := isOpen_iff.mp h
  have hwkey := (Watch.isLeasedTo_iff.mp hleased).1
  have hwselect := Watch.isLeasedTo_eq hwatches hw hleased
  obtain ⟨hrkey, hrowner, hrstatus⟩ := WatchRun.isRunningUnder_iff.mp hrunning
  -- the run that is completed is the one with the key of the request
  have hrselect : ∀ q ∈ db.watchRuns, (q.isRunningUnder request.tenantId request.watchId
      request.runId request.leaseOwner && db.watches.any fun w => w.isLeasedTo request.tenantId
        request.watchId request.leaseOwner (int request.finishedAtEpochSeconds)) =
      decide (q.key = (request.tenantId, request.watchId, request.runId)) := by
    intro q hq
    rw [List.any_eq_true.mpr ⟨w, hw, hleased⟩, Bool.and_true,
      WatchRun.isRunningUnder_eq hruns hr hrunning q hq]
  have hrun : completeRun request db =
      ({ db with
          watchRuns := Table.update
            (fun r => r.key = (request.tenantId, request.watchId, request.runId))
            (fun r => r.finish request.status (int request.finishedAtEpochSeconds) request.error)
            db.watchRuns }, ⟨[], 1⟩) := by
    simp only [completeRun, Table.update_congr hrselect fun _ _ _ => rfl]
    rw [List.countP_congr fun q hq => by rw [hrselect q hq], ← hrkey, Table.countP_key_eq hruns hr]
  -- afterwards that run is finished under the worker at the instant of the request
  have hfinished : (Table.update
      (fun r => decide (r.key = (request.tenantId, request.watchId, request.runId)))
      (fun r => r.finish request.status (int request.finishedAtEpochSeconds) request.error)
      db.watchRuns).any (fun r => isFinishedUnder r request.tenantId request.watchId request.runId
        request.leaseOwner (int request.finishedAtEpochSeconds)) = true := by
    refine List.any_eq_true.mpr ⟨_, Table.mem_update.mpr (.inr ⟨r, hr, by simp [hrkey], rfl⟩), ?_⟩
    refine isFinishedUnder_iff.mpr ⟨hrkey, hrowner, ?_, rfl⟩
    simp only [WatchRun.finish, CompleteWatchRun.status]
    split <;> simp
  simp only [finishStatements, batch_cons, batch_nil, hrun, completeWatch, hfinished,
    Bool.and_true]
  rw [Table.update_congr hwselect fun _ _ _ => rfl,
    List.countP_congr fun v hv => by rw [hwselect v hv], ← hwkey, Table.countP_key_eq hwatches hw]

end Statements

end D1Store

/-! ## The tables after a committed completion -/

namespace Adapter

variable (adapter : Adapter)

/-- The table `records` after a committed completion. -/
def recordsAfter (request : CompleteWatchRun) (table : List RecordRow) : List RecordRow :=
  match adapter with
  | sqlite => (SqliteStore.recordRows request request.records).foldl
      (Table.upsert RecordRow.key RecordRow.setContent) table
  | d1 => D1Store.recordsAfter request table

/-- The table `watch_records` after a committed completion. -/
def watchRecordsAfter (request : CompleteWatchRun) (table : List WatchRecordRow) :
    List WatchRecordRow :=
  match adapter with
  | sqlite => (SqliteStore.watchRecordRows request request.records).foldl
      (Table.upsert WatchRecordRow.key WatchRecordRow.setObserved) table
  | d1 => D1Store.watchRecordsAfter request table

/-- The records that a completion finds new to its watch. -/
def newRecords (db : Db) (request : CompleteWatchRun) : List Record :=
  match adapter with
  | sqlite => SqliteStore.newRecords request db.watchRecords request.records
  | d1 => D1Store.newRecords db request

/-- The table `deliveries` after a committed completion. -/
def deliveriesAfter (db : Db) (request : CompleteWatchRun) : List Delivery :=
  match request.delivery with
  | some delivery =>
    if (adapter.newRecords db request).isEmpty then db.deliveries
    else Table.insertIgnore Delivery.key db.deliveries
      (request.deliveryRow (adapter.observedAt request.finishedAtEpochSeconds) delivery
        (adapter.newRecords db request))
  | none => db.deliveries

/-- The watches after a completion has ended the lease of its watch. -/
def watchesAfter (request : CompleteWatchRun) (table : List Watch) : List Watch :=
  Table.update (fun w => w.key = (request.tenantId, request.watchId))
    (fun w => w.finish request.nextCursor
      (adapter.nextDue request.finishedAtEpochSeconds w.intervalSeconds)) table

/-- The runs after a completion has finished its run. -/
def watchRunsAfter (request : CompleteWatchRun) (table : List WatchRun) : List WatchRun :=
  Table.update (fun r => r.key = (request.tenantId, request.watchId, request.runId))
    (fun r => r.finish request.status (adapter.bind request.finishedAtEpochSeconds) request.error)
    table

/-- The database after a committed completion. -/
def committed (db : Db) (request : CompleteWatchRun) : Db where
  sources := db.sources
  watches := adapter.watchesAfter request db.watches
  watchRuns := adapter.watchRunsAfter request db.watchRuns
  records := adapter.recordsAfter request db.records
  watchRecords := adapter.watchRecordsAfter request db.watchRecords
  deliveries := adapter.deliveriesAfter db request

/-- The result of a committed completion. -/
def outcome (db : Db) (request : CompleteWatchRun) : WatchRunOutcome where
  runId := request.runId
  status := request.status
  recordsSeen := request.records.length
  recordsInserted := (adapter.recordsAfter request db.records).length - db.records.length
  watchRecordsInserted :=
    (adapter.watchRecordsAfter request db.watchRecords).length - db.watchRecords.length

/-- The worker holds the unexpired lease of the watch, and the run is running under it. -/
def CanComplete (db : Db) (request : CompleteWatchRun) : Prop :=
  (∃ w ∈ db.watches, w.isLeasedTo request.tenantId request.watchId request.leaseOwner
    (adapter.bind request.finishedAtEpochSeconds) = true) ∧
  ∃ r ∈ db.watchRuns, r.isRunningUnder request.tenantId request.watchId request.runId
    request.leaseOwner = true

end Adapter

/-! ## The keys of these tables -/

namespace Adapter

variable (adapter : Adapter) {request : CompleteWatchRun}

/-- The updates of the batch leave the keys of `records` alone. -/
private lemma map_key_recordsUpdated (table : List RecordRow) :
    (D1Store.recordsUpdated request table).map RecordRow.key = table.map RecordRow.key := by
  refine Table.map_update fun row _ _ => ?_
  cases D1Store.incoming request row.record.identity <;> rfl

/-- The keys of `records` after a committed completion. -/
lemma mem_recordsAfter {table : List RecordRow} {k : String × SourceId × RecordId} :
    k ∈ (adapter.recordsAfter request table).map RecordRow.key ↔
      k ∈ table.map RecordRow.key ∨
        k ∈ request.records.map fun record => (request.tenantId, record.identity) := by
  cases adapter with
  | sqlite =>
    simp only [recordsAfter, Table.mem_map_upsertAll RecordRow.key_setContent,
      SqliteStore.recordRows, List.map_map]
    rfl
  | d1 =>
    simp only [recordsAfter, D1Store.recordsAfter, map_key_recordsUpdated,
      Table.mem_map_insertAllIgnore, List.map_map]
    rfl

/-- The keys of `records` stay unique. -/
lemma nodup_recordsAfter {table : List RecordRow} (hn : (table.map RecordRow.key).Nodup) :
    ((adapter.recordsAfter request table).map RecordRow.key).Nodup := by
  cases adapter with
  | sqlite => exact Table.nodup_upsertAll RecordRow.key_setContent hn
  | d1 =>
    rw [recordsAfter, D1Store.recordsAfter, map_key_recordsUpdated]
    exact Table.nodup_insertAllIgnore hn

/-- A committed completion touches only rows with the identity of one of its records. -/
lemma filter_recordsAfter {q : RecordRow → Bool}
    (hkey : ∀ a b : RecordRow, a.key = b.key → q a = q b)
    (hq : ∀ record ∈ request.records, ∀ row : RecordRow,
      row.key = (request.tenantId, record.identity) → q row = false) (table : List RecordRow) :
    (adapter.recordsAfter request table).filter q = table.filter q := by
  have hrows : ∀ at_, ∀ row ∈ request.records.map (RecordRow.observed request.tenantId at_),
      q row = false := by
    intro at_ row hrow
    obtain ⟨record, hrecord, rfl⟩ := List.mem_map.mp hrow
    exact hq record hrecord _ rfl
  cases adapter with
  | sqlite => exact Table.filter_upsertAll_of_not hkey (fun _ _ => hkey _ _ rfl) (hrows _)
  | d1 =>
    have hupdated : ∀ row : RecordRow, (decide (row.tenantId = request.tenantId) &&
        (D1Store.incoming request row.record.identity).isSome) = true → q row = false := by
      intro row hrow
      obtain ⟨htenant, hsome⟩ := Bool.and_eq_true_iff.mp hrow
      obtain ⟨record, hrecord⟩ := Option.isSome_iff_exists.mp hsome
      rw [D1Store.incoming] at hrecord
      have hidentity : record.identity = row.record.identity := by
        simpa using List.find?_some hrecord
      refine hq record (List.mem_of_find?_eq_some hrecord) row ?_
      rw [RecordRow.key, of_decide_eq_true htenant]
      exact congrArg (Prod.mk request.tenantId) hidentity.symm
    refine (Table.filter_update_of_disjoint hupdated fun row hrow => ?_).trans
      (Table.filter_insertAllIgnore_of_not (hrows _))
    rw [← hupdated row hrow]
    cases D1Store.incoming request row.record.identity with
    | none => rfl
    | some record => exact hkey _ _ rfl

/-- The updates of the batch leave the keys of `watch_records` alone. -/
private lemma map_key_watchRecordsUpdated (table : List WatchRecordRow) :
    (D1Store.watchRecordsUpdated request table).map WatchRecordRow.key =
      table.map WatchRecordRow.key :=
  Table.map_update fun _ _ _ => rfl

/-- The keys of `watch_records` after a committed completion. -/
lemma mem_watchRecordsAfter {table : List WatchRecordRow}
    {k : String × String × SourceId × RecordId} :
    k ∈ (adapter.watchRecordsAfter request table).map WatchRecordRow.key ↔
      k ∈ table.map WatchRecordRow.key ∨ k ∈ request.records.map fun record =>
        (request.tenantId, request.watchId, record.identity) := by
  cases adapter with
  | sqlite =>
    simp only [watchRecordsAfter, Table.mem_map_upsertAll WatchRecordRow.key_setObserved,
      SqliteStore.watchRecordRows, List.map_map]
    rfl
  | d1 =>
    simp only [watchRecordsAfter, D1Store.watchRecordsAfter, map_key_watchRecordsUpdated,
      Table.mem_map_insertAllIgnore, List.map_map]
    rfl

/-- The keys of `watch_records` stay unique. -/
lemma nodup_watchRecordsAfter {table : List WatchRecordRow}
    (hn : (table.map WatchRecordRow.key).Nodup) :
    ((adapter.watchRecordsAfter request table).map WatchRecordRow.key).Nodup := by
  cases adapter with
  | sqlite => exact Table.nodup_upsertAll WatchRecordRow.key_setObserved hn
  | d1 =>
    rw [watchRecordsAfter, D1Store.watchRecordsAfter, map_key_watchRecordsUpdated]
    exact Table.nodup_insertAllIgnore hn

/-- A delivery after a committed completion was there, or is the notification of the completion. -/
lemma mem_deliveriesAfter {db : Db} {d : Delivery} :
    d ∈ adapter.deliveriesAfter db request ↔ d ∈ db.deliveries ∨
      ∃ delivery, request.delivery = some delivery ∧ adapter.newRecords db request ≠ [] ∧
        (request.tenantId, delivery.deliveryId) ∉ db.deliveries.map Delivery.key ∧
        d = request.deliveryRow (adapter.observedAt request.finishedAtEpochSeconds) delivery
          (adapter.newRecords db request) := by
  rw [deliveriesAfter]
  cases request.delivery with
  | none => simp
  | some delivery =>
    by_cases h : (adapter.newRecords db request).isEmpty = true
    · simp [List.isEmpty_iff.mp h]
    · have hne : adapter.newRecords db request ≠ [] := fun hnil => h (List.isEmpty_iff.mpr hnil)
      simp only [h, Bool.false_eq_true, ↓reduceIte, Table.mem_insertIgnore, Option.some.injEq,
        exists_eq_left', hne, ne_eq, not_false_eq_true, true_and]
      refine or_congr_right ⟨fun ⟨hd, hkey⟩ => ⟨hkey, hd⟩, fun ⟨hkey, hd⟩ => ⟨hd, hkey⟩⟩

/-- The keys of the deliveries stay unique. -/
lemma nodup_deliveriesAfter {db : Db} (hn : (db.deliveries.map Delivery.key).Nodup) :
    ((adapter.deliveriesAfter db request).map Delivery.key).Nodup := by
  rw [deliveriesAfter]
  cases request.delivery with
  | none => exact hn
  | some delivery =>
    dsimp only
    split
    · exact hn
    · exact Table.nodup_insertIgnore hn

/-- Finishing a watch leaves the keys of the watches alone. -/
@[simp] lemma map_key_watchesAfter (table : List Watch) :
    (adapter.watchesAfter request table).map Watch.key = table.map Watch.key :=
  Table.map_update fun _ _ _ => rfl

/-- Finishing a run leaves the keys of the runs alone. -/
@[simp] lemma map_key_watchRunsAfter (table : List WatchRun) :
    (adapter.watchRunsAfter request table).map WatchRun.key = table.map WatchRun.key :=
  Table.map_update fun _ _ _ => rfl

/-- Finishing a run leaves the idempotency keys of the runs alone. -/
@[simp] lemma map_idempotency_watchRunsAfter (table : List WatchRun) :
    (adapter.watchRunsAfter request table).map WatchRun.idempotency =
      table.map WatchRun.idempotency :=
  Table.map_update fun _ _ _ => rfl

end Adapter

/-! ## The cases of a completion -/

/-- Queueing a notification writes the table of deliveries only. -/
private lemma SqliteStore.insertRunDelivery_eq (db : Db) (request : CompleteWatchRun)
    (records : List Record) :
    SqliteStore.insertRunDelivery db request records =
      { db with
        deliveries :=
          match request.delivery with
          | some delivery =>
            if records.isEmpty then db.deliveries
            else Table.insertIgnore Delivery.key db.deliveries
              (request.deliveryRow (.integer request.finishedAtEpochSeconds) delivery records)
          | none => db.deliveries } := by
  rw [SqliteStore.insertRunDelivery]
  cases request.delivery with
  | none => rfl
  | some delivery =>
    by_cases h : records.isEmpty = true
    · simp only [h, ↓reduceIte]
    · simp only [h]
      rfl

/-- A completion in the SQLite adapter that passes the checks of its request: it commits if the
worker can complete the run, and fails else. -/
lemma SqliteStore.completeWatchRun_eq [ExternalParsers] {db : Db} (request : CompleteWatchRun)
    (hkeys : (db.watches.map Watch.key).Nodup) (hv : request.validate = .ok ()) :
    (Adapter.sqlite.CanComplete db request ∧ SqliteStore.completeWatchRun db request =
      (Adapter.sqlite.committed db request, .ok (Adapter.sqlite.outcome db request))) ∨
    (¬ Adapter.sqlite.CanComplete db request ∧
      ∃ message, SqliteStore.completeWatchRun db request = (db, .error (.conflict message))) := by
  rw [SqliteStore.completeWatchRun, hv, StoreResult.ok_bind]
  cases hw : db.watches.find? fun w => w.isLeasedTo request.tenantId request.watchId
      request.leaseOwner request.finishedAtEpochSeconds with
  | none =>
    right
    refine ⟨?_, "watch lease is not held by this worker", ?_⟩
    · rintro ⟨⟨w, hmem, hleased⟩, -⟩
      exact List.find?_eq_none.mp hw w hmem hleased
    · rw [watchIntervalUnderLease, hw]
      rfl
  | some w =>
    have hmem := List.mem_of_find?_eq_some hw
    have hleased : w.isLeasedTo request.tenantId request.watchId request.leaseOwner
        request.finishedAtEpochSeconds = true := by
      have h := List.find?_some hw
      exact h
    by_cases hr : (db.watchRuns.any fun r => r.isRunningUnder request.tenantId request.watchId
        request.runId request.leaseOwner) = true
    · left
      refine ⟨⟨⟨w, hmem, hleased⟩, List.any_eq_true.mp hr⟩, ?_⟩
      obtain ⟨m, n, hloop, hm, hn⟩ := foldl_observe request request.records ⟨db, 0, 0, []⟩
      rw [watchIntervalUnderLease, hw, ensureRunningRun, if_pos hr, StoreResult.ok_bind,
        StoreResult.ok_bind, hloop]
      -- the interval of the leased watch is that of the row the last statement updates
      have hwatches : Table.update (fun v => decide (v.key = (request.tenantId, request.watchId)))
          (fun v => v.finish request.nextCursor
            (addI64 request.finishedAtEpochSeconds w.intervalSeconds)) db.watches =
          Adapter.sqlite.watchesAfter request db.watches := by
        refine Table.update_congr (fun _ _ => rfl) fun v hv hk => ?_
        obtain rfl := Table.eq_of_key_eq hkeys hv hmem
          ((of_decide_eq_true hk).trans (Watch.isLeasedTo_iff.mp hleased).1.symm)
        rfl
      have hdb : finishRunAndWatch (insertRunDelivery
          { db with
            records := (recordRows request request.records).foldl
              (Table.upsert RecordRow.key RecordRow.setContent) db.records
            watchRecords := (watchRecordRows request request.records).foldl
              (Table.upsert WatchRecordRow.key WatchRecordRow.setObserved) db.watchRecords }
          request (newRecords request db.watchRecords request.records)) request request.status
            w.intervalSeconds = Adapter.sqlite.committed db request := by
        rw [insertRunDelivery_eq]
        simp only [Adapter.committed, ← hwatches, finishRunAndWatch]
        rfl
      simp only [List.nil_append, hdb, StoreResult.pure_eq, transaction_ok, Adapter.outcome,
        Adapter.recordsAfter, Adapter.watchRecordsAfter]
      have hm' : m = ((recordRows request request.records).foldl
          (Table.upsert RecordRow.key RecordRow.setContent) db.records).length -
            db.records.length := by
        simp only [Nat.zero_add] at hm
        omega
      have hn' : n = ((watchRecordRows request request.records).foldl
          (Table.upsert WatchRecordRow.key WatchRecordRow.setObserved) db.watchRecords).length -
            db.watchRecords.length := by
        simp only [Nat.zero_add] at hn
        omega
      rw [hm', hn']
    · right
      refine ⟨fun h => hr (List.any_eq_true.mpr h.2),
        "watch run is not running under this lease", ?_⟩
      rw [watchIntervalUnderLease, hw, ensureRunningRun, if_neg hr]
      rfl

/-- The records that the batch finds new to the watch. -/
private lemma D1Store.deliveriesAfter_eq (db : Db) (request : CompleteWatchRun) :
    D1Store.deliveriesAfter db request = Adapter.d1.deliveriesAfter db request := by
  simp only [D1Store.deliveriesAfter, Adapter.deliveriesAfter, Adapter.newRecords]
  cases request.delivery with
  | none => rfl
  | some delivery =>
    by_cases h : (D1Store.newRecords db request).isEmpty = true
    · have hlength : ¬ 0 < (D1Store.newRecords db request).length := by
        simp [List.isEmpty_iff.mp h]
      simp only [h, hlength, ↓reduceIte, Table.insertAllIgnore_nil]
    · have hlength : 0 < (D1Store.newRecords db request).length := by
        rwa [List.length_pos_iff, Ne, ← List.isEmpty_iff]
      simp only [h, hlength, ↓reduceIte]
      rfl

/-- The batch of an open completion: it commits, and its results say so.

**Proof sketch.** The gate returns the one interval of the leased watch, since the run has a
unique key; the two last statements change one row each. The counts of the insertions are at
places 1 and 3, or 4 when a notification comes between. -/
lemma D1Store.batch_open {db : Db} (request : CompleteWatchRun)
    (hkeys : db.KeysUnique) (hinterval : ∀ w ∈ db.watches, 1 ≤ w.intervalSeconds)
    (h : D1Store.isOpen db request = true) :
    D1Store.batch (D1Store.completeStatements request) db =
        (Adapter.d1.committed db request,
          (D1Store.batch (D1Store.completeStatements request) db).2) ∧
      D1Store.completeOutcome request
          (D1Store.batch (D1Store.completeStatements request) db).2 =
        .ok (Adapter.d1.outcome db request) := by
  obtain ⟨hdb, updated, watchUpdated, hresults⟩ := recordStatements_open h
  have hfinish : batch (finishStatements request) (batch (recordStatements request) db).1 = _ :=
    finishStatements_open (by rw [hdb]; exact hkeys.watches) (by rw [hdb]; exact hkeys.watchRuns)
      (by rw [hdb]; exact h)
  -- the gate has one row: the watch under the lease with its one running run
  have hgate : ∃ interval : ℤ, 0 < interval ∧ gateRows db request = [interval] := by
    obtain ⟨⟨w, hw, hleased⟩, r, hr, hrunning⟩ := isOpen_iff.mp h
    have hwkey := (Watch.isLeasedTo_iff.mp hleased).1
    have hrkey := (WatchRun.isRunningUnder_iff.mp hrunning).1
    obtain ⟨htenant, hwatch⟩ := Prod.mk.inj hwkey
    refine ⟨w.intervalSeconds, by exact_mod_cast hinterval w hw, ?_⟩
    rw [gateRows, List.filter_congr (Watch.isLeasedTo_eq hkeys.watches hw hleased), ← hwkey,
      Table.filter_key_eq hkeys.watches hw, List.flatMap_singleton, htenant, hwatch,
      List.filter_congr (WatchRun.isRunningUnder_eq hkeys.watchRuns hr hrunning), ← hrkey,
      Table.filter_key_eq hkeys.watchRuns hr, List.map_singleton]
  obtain ⟨interval, hpos, hgate⟩ := hgate
  have hbatch : batch (completeStatements request) db = (Adapter.d1.committed db request,
      ⟨[interval], 0⟩ :: ((batch (recordStatements request) db).2 ++ [⟨[], 1⟩, ⟨[], 1⟩])) := by
    rw [completeStatements, batch_cons]
    simp only [completeGate, hgate, batch_append, hfinish]
    simp only [hdb, D1Store.deliveriesAfter_eq]
    rfl
  rw [hbatch]
  refine ⟨rfl, ?_⟩
  rw [hresults]
  simp only [completeOutcome, ensureCompletionGate, changesAt, ensureChanged]
  cases request.delivery with
  | none => simp [hpos, Adapter.outcome, Adapter.recordsAfter, Adapter.watchRecordsAfter]
  | some delivery => simp [hpos, Adapter.outcome, Adapter.recordsAfter, Adapter.watchRecordsAfter]

/-- The batch of a closed completion: its results are decoded to a conflict, and it changes nothing
except in a stale state, where it ends the lease. -/
lemma D1Store.batch_closed {db : Db} (request : CompleteWatchRun)
    (h : D1Store.isOpen db request = false) :
    (∃ message, D1Store.completeOutcome request
      (D1Store.batch (D1Store.completeStatements request) db).2 = .error (.conflict message)) ∧
    (¬ D1Store.IsStaleFinish db request →
      (D1Store.batch (D1Store.completeStatements request) db).1 = db) ∧
    ((db.watches.map Watch.key).Nodup → D1Store.IsStaleFinish db request →
      (D1Store.batch (D1Store.completeStatements request) db).1 =
        { db with watches := Adapter.d1.watchesAfter request db.watches }) := by
  have hgate : gateRows db request = [] := by
    rwa [isOpen, Bool.not_eq_false', List.isEmpty_iff] at h
  have hrecords := recordStatements_closed h
  obtain ⟨hsame, hstale⟩ := finishStatements_closed h
  have hbatch : (batch (completeStatements request) db).1 =
      (batch (finishStatements request) db).1 := by
    rw [completeStatements, batch_cons, batch_append]
    simp only [completeGate, hrecords]
  have hhead : (batch (completeStatements request) db).2[0]? = some ⟨[], 0⟩ := by
    rw [completeStatements, batch_cons]
    simp only [completeGate, hgate, List.getElem?_cons_zero]
  refine ⟨⟨if request.error.isSome then "watch run is not running under this lease"
    else "watch lease is not held by this worker", ?_⟩, fun hnot => hbatch.trans (hsame hnot),
    fun hkeys hs => ?_⟩
  · simp only [completeOutcome, hhead, ensureCompletionGate]
    rfl
  · rw [hbatch, hstale hkeys hs]
    rfl

namespace D1Store

/-- The records of a request are within the limit of the batch. -/
def RecordsFit (request : CompleteWatchRun) : Prop :=
  (Json.arr (request.records.map bulkRecord)).byteLength ≤ maxRecordsJsonBytes

/-- A completion whose records fit reaches the batch. -/
lemma completeWatchRun_of_fit [ExternalParsers] {db : Db} {request : CompleteWatchRun}
    (hv : request.validate = .ok ()) (hfit : RecordsFit request) :
    completeWatchRun db request =
      ((batch (completeStatements request) db).1,
        completeOutcome request (batch (completeStatements request) db).2) := by
  have hjson : recordsJson request = .ok (Json.arr (request.records.map bulkRecord)) := by
    unfold recordsJson
    exact if_pos hfit
  unfold completeWatchRun
  rw [hv, checked_ok, hjson]
  rfl

/-- A completion in the D1 adapter that passes the checks of its request and does not meet a stale
state: it commits if the worker can complete the run, and fails else. -/
lemma completeWatchRun_eq [ExternalParsers] {db : Db} (request : CompleteWatchRun)
    (hkeys : db.KeysUnique) (hinterval : ∀ w ∈ db.watches, 1 ≤ w.intervalSeconds)
    (hv : request.validate = .ok ()) (hfit : RecordsFit request)
    (hstale : ¬ IsStaleFinish db request) :
    (Adapter.d1.CanComplete db request ∧ completeWatchRun db request =
      (Adapter.d1.committed db request, .ok (Adapter.d1.outcome db request))) ∨
    (¬ Adapter.d1.CanComplete db request ∧
      ∃ message, completeWatchRun db request = (db, .error (.conflict message))) := by
  rw [completeWatchRun_of_fit hv hfit]
  cases hopen : isOpen db request with
  | true =>
    obtain ⟨hdb, houtcome⟩ := batch_open request hkeys hinterval hopen
    exact .inl ⟨isOpen_iff.mp hopen, by rw [houtcome, hdb]⟩
  | false =>
    obtain ⟨⟨message, hmessage⟩, hsame, -⟩ := batch_closed request hopen
    refine .inr ⟨fun hcan => ?_, message, by rw [hmessage, hsame hstale]⟩
    rw [isOpen_iff.mpr hcan] at hopen
    exact absurd hopen (by simp)

end D1Store

/-- **The cases of a completion**: it fails and leaves the database alone; it commits, by a worker
that can complete the run; or, in the D1 adapter and a stale state only, it fails with a conflict
after its last statement has ended the lease of the watch. -/
theorem Adapter.completeWatchRun_cases [ExternalParsers] (adapter : Adapter) {db : Db}
    (request : CompleteWatchRun) (hkeys : db.KeysUnique)
    (hinterval : ∀ w ∈ db.watches, 1 ≤ w.intervalSeconds) :
    (∃ e, adapter.completeWatchRun db request = (db, .error e)) ∨
      (request.validate = .ok () ∧ adapter.CanComplete db request ∧
        adapter.completeWatchRun db request =
          (adapter.committed db request, .ok (adapter.outcome db request))) ∨
      (adapter = d1 ∧ request.validate = .ok () ∧ D1Store.IsStaleFinish db request ∧
        ∃ message, adapter.completeWatchRun db request =
          ({ db with watches := adapter.watchesAfter request db.watches },
            .error (.conflict message))) := by
  cases hv : request.validate with
  | error e =>
    left
    exact ⟨e, by cases adapter <;> simp [completeWatchRun, SqliteStore.completeWatchRun,
      D1Store.completeWatchRun, hv]⟩
  | ok _ =>
    cases adapter with
    | sqlite =>
      rcases SqliteStore.completeWatchRun_eq request hkeys.watches hv with
        ⟨hcan, h⟩ | ⟨-, message, h⟩
      · exact .inr (.inl ⟨rfl, hcan, h⟩)
      · exact .inl ⟨_, h⟩
    | d1 =>
      simp only [completeWatchRun, D1Store.completeWatchRun, hv, checked_ok]
      cases hjson : D1Store.recordsJson request with
      | error e => exact .inl ⟨e, rfl⟩
      | ok json =>
        cases hopen : D1Store.isOpen db request with
        | true =>
          obtain ⟨hdb, houtcome⟩ := D1Store.batch_open request hkeys hinterval hopen
          refine .inr (.inl ⟨trivial, D1Store.isOpen_iff.mp hopen, ?_⟩)
          simp only [Except.map, checked_ok, houtcome]
          rw [hdb]
        | false =>
          obtain ⟨⟨message, hmessage⟩, hsame, hstale⟩ := D1Store.batch_closed request hopen
          by_cases hs : D1Store.IsStaleFinish db request
          · refine .inr (.inr ⟨trivial, trivial, hs, message, ?_⟩)
            simp only [Except.map, checked_ok, hmessage, hstale hkeys.watches hs]
          · refine .inl ⟨.conflict message, ?_⟩
            simp only [Except.map, checked_ok, hmessage, hsame hs]

/-! ## New records -/

/-- The order of identities tells them apart. -/
lemma identityOrder_inj {a b : Record} :
    identityOrder a.source a.id = identityOrder b.source b.id ↔ a.identity = b.identity := by
  simp only [identityOrder, Record.identity, EmbeddingLike.apply_eq_iff_eq, Prod.mk.injEq]
  exact and_congr ⟨fun h => SourceId.ext_value h, fun h => h ▸ rfl⟩
    ⟨fun h => RecordId.ext_value h, fun h => h ▸ rfl⟩

/-- The groups of the records of a request have the identities of the records. -/
lemma mem_map_identity_groupBy {records : List Record} {identity : SourceId × RecordId} :
    identity ∈ (Table.groupBy (fun r : Record => identityOrder r.source r.id) records).map
        Record.identity ↔ identity ∈ records.map Record.identity := by
  simp only [List.mem_map]
  constructor
  · rintro ⟨r, hr, rfl⟩
    exact ⟨r, Table.mem_of_mem_groupBy hr, rfl⟩
  · rintro ⟨r, hr, rfl⟩
    obtain ⟨g, hg, hgr⟩ := List.mem_map.mp (Table.mem_map_groupBy.mpr
      (List.mem_map_of_mem (f := fun r : Record => identityOrder r.source r.id) hr))
    exact ⟨g, hg, identityOrder_inj.mp hgr⟩

/-- The groups of the records of a request have distinct identities. -/
lemma nodup_map_identity_groupBy {records : List Record} :
    ((Table.groupBy (fun r : Record => identityOrder r.source r.id) records).map
      Record.identity).Nodup := by
  refine List.Nodup.of_map (fun i => identityOrder i.1 i.2) ?_
  rw [List.map_map]
  exact Table.nodup_groupBy

namespace Adapter

variable (adapter : Adapter) {db : Db} {request : CompleteWatchRun}

/-- **New records**: a completion finds exactly those identities new that the request has and the
watch does not. -/
theorem mem_newRecords {identity : SourceId × RecordId} :
    identity ∈ (adapter.newRecords db request).map Record.identity ↔
      identity ∈ request.records.map Record.identity ∧
        (request.tenantId, request.watchId, identity) ∉
          db.watchRecords.map WatchRecordRow.key := by
  cases adapter with
  | sqlite => exact SqliteStore.mem_newRecords
  | d1 =>
    refine Iff.trans ?_ (and_congr_left fun _ => mem_map_identity_groupBy)
    simp only [newRecords, D1Store.newRecords, List.mem_map, List.mem_filter,
      Bool.not_eq_true', List.any_eq_false, decide_eq_true_eq]
    constructor
    · rintro ⟨r, ⟨hr, hnot⟩, rfl⟩
      exact ⟨⟨r, hr, rfl⟩, fun ⟨row, hrow, hkey⟩ => hnot row hrow hkey⟩
    · rintro ⟨⟨r, hr, rfl⟩, hnot⟩
      exact ⟨r, ⟨hr, fun row hrow hkey => hnot ⟨row, hrow, hkey⟩⟩, rfl⟩

/-- The records that a completion finds new have distinct identities. -/
theorem nodup_newRecords : ((adapter.newRecords db request).map Record.identity).Nodup := by
  cases adapter with
  | sqlite => exact SqliteStore.nodup_newRecords
  | d1 =>
    exact nodup_map_identity_groupBy.sublist (List.filter_sublist.map Record.identity)

end Adapter

end Comsat
