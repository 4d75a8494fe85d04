import Comsat.Store.DeliveryLeases
import Comsat.Store.Leases
import Comsat.Store.Similarity

set_option relaxedAutoImplicit false
set_option autoImplicit false

/-!
# The D1 adapter refines the SQLite adapter

The same run of operations, carried out by both adapters from empty tables, leaves similar tables
and gives similar replies.

## Main definitions

* `FitsDouble` — an integer that a double-precision number holds exactly.
* `StoreOp.Fits` — the operations on which the adapters agree.
* `Db.Readable` — every watch and every delivery can be read back.

## Main results

* `Adapter.agree_completeWatchRun` — the transaction and the batch of a completion agree.
* `Adapter.d1_refines_sqlite` — the two stores agree along every run with fresh owners.
* `Adapter.d1_departs_from_sqlite` — where the columns of the stores differ.

## Implementation notes

* The adapters disagree where the D1 adapter rounds a bound integer, where a completion has two
  records of one identity, where its records exceed the limit of the batch, where a claim finds a
  row that nests too deeply to be read back, which only the SQLite adapter leaves alone, and in a
  stale state (`D1Store.IsStaleFinish`), which fresh owners exclude.
* The D1 adapter binds the instant of a payload as a real number, and so it is written.
-/

namespace Comsat

/-! ## Where the adapters agree -/

/-- An integer that a double-precision number holds exactly. -/
def FitsDouble (n : ℤ) : Prop := -2 ^ 53 ≤ n ∧ n ≤ 2 ^ 53

/-- The operations on which the adapters agree: their integers, and the instants that are computed
from them and bound, have at most 53 bits; the records of a completion have distinct identities and
are within the limit of the batch; what a claim has to read back, the cursors and the targets and
payloads of deliveries, nests no deeper than the parser allows. -/
def StoreOp.Fits : StoreOp → Prop
  | upsertSource request => FitsDouble request.observedAtEpochSeconds
  | createWatch request => FitsDouble request.createdAtEpochSeconds ∧
      (∀ due, request.firstDueEpochSeconds = some due → FitsDouble due) ∧
      request.cursor.depth ≤ Json.nestingLimit
  | listWatches _ => True
  | deleteWatch _ => True
  | claimDueWatch request => FitsDouble request.nowEpochSeconds ∧ FitsDouble request.leaseExpires
  | startWatchRun request => FitsDouble request.startedAtEpochSeconds
  | completeWatchRun request => FitsDouble request.finishedAtEpochSeconds ∧
      (request.records.map Record.identity).Nodup ∧ D1Store.RecordsFit request ∧
      request.nextCursor.depth ≤ Json.nestingLimit ∧
      ∀ delivery, request.delivery = some delivery → delivery.target.depth ≤ Json.nestingLimit ∧
        ∀ record ∈ request.records, record.metadata.depth + 3 ≤ Json.nestingLimit
  | history request => ∀ since, request.sinceEpochSeconds = some since → FitsDouble since
  | claimPendingDelivery request =>
      FitsDouble request.nowEpochSeconds ∧ FitsDouble request.leaseExpires
  | completeDelivery request =>
      FitsDouble request.finishedAtEpochSeconds ∧ FitsDouble request.nextAttemptEpochSeconds
  | listDeliveries _ => True

/-- Every watch and every delivery can be read back. -/
structure Db.Readable (db : Db) : Prop where
  watches : ∀ w ∈ db.watches, w.IsReadable
  deliveries : ∀ d ∈ db.deliveries, d.IsReadable

/-- An integer that fits is bound as it is. -/
lemma FitsDouble.int_eq {n : ℤ} (h : FitsDouble n) : D1Store.int n = n :=
  Double.ofInt_eq_self h.1 h.2

/-- A number of rows that a request may ask for is bound as it is. -/
lemma D1Store.int_limit {limit : ℕ} (h : limit ≤ 1000) : (D1Store.int limit).toNat = limit := by
  have hfits : FitsDouble limit := ⟨by omega, by omega⟩
  rw [hfits.int_eq, Int.toNat_natCast]

/-- An accepted number of rows is at most 1000. -/
lemma le_of_validateLimit {limit : ℕ} {message : String} (h : validateLimit limit message = .ok ()) :
    limit ≤ 1000 := by
  unfold validateLimit at h
  split at h
  · exact absurd h (by simp)
  · omega

/-- An accepted request for the history asks for at most 1000 rows. -/
lemma HistoryRequest.limit_of_validate {request : HistoryRequest} (h : request.validate = .ok ()) :
    request.limit ≤ 1000 := by
  obtain ⟨_, -, h⟩ := StoreResult.exists_of_bind_eq_ok h
  dsimp only at h
  split at h
  · obtain ⟨_, -, h⟩ := StoreResult.exists_of_bind_eq_ok h
    exact le_of_validateLimit h
  · exact le_of_validateLimit h

/-- An accepted request for deliveries asks for at most 1000 rows. -/
lemma ListDeliveries.limit_of_validate {request : ListDeliveries} (h : request.validate = .ok ()) :
    request.limit ≤ 1000 := by
  obtain ⟨_, -, h⟩ := StoreResult.exists_of_bind_eq_ok h
  dsimp only at h
  split at h
  · obtain ⟨_, -, h⟩ := StoreResult.exists_of_bind_eq_ok h
    exact le_of_validateLimit h
  · exact le_of_validateLimit h

/-- The earliest observation of a request whose integers fit is bound as it is. -/
lemma HistoryRequest.int_since {request : HistoryRequest}
    (h : ∀ since, request.sinceEpochSeconds = some since → FitsDouble since) :
    D1Store.int request.since = request.since := by
  unfold HistoryRequest.since
  cases hsince : request.sinceEpochSeconds with
  | some since => exact (h since hsince).int_eq
  -- the least 64-bit integer is a power of two
  | none => decide

namespace Adapter

/-- An integer that fits is bound as it is by every adapter. -/
lemma bind_of_fits (adapter : Adapter) {n : ℤ} (h : FitsDouble n) : adapter.bind n = n := by
  cases adapter with
  | sqlite => rfl
  | d1 => exact h.int_eq

/-- Both adapters schedule a watch alike. -/
lemma nextDue_eq {finishedAt : ℤ} (h : FitsDouble finishedAt) {interval : ℕ}
    (hinterval : interval ≤ 31536000) :
    d1.nextDue finishedAt interval = sqlite.nextDue finishedAt interval := by
  obtain ⟨hlo, hhi⟩ := h
  have hsum : addI64 finishedAt interval = finishedAt + interval := by
    unfold addI64
    exact Int.bmod_eq_of_le (by omega) (by omega)
  simp only [nextDue, D1Store.sqlAdd, FitsDouble.int_eq ⟨hlo, hhi⟩, hsum]
  rw [if_pos (by omega)]

/-! ## Sources and watches -/

section Operations

variable {s t : Db} (hst : s.Similar t)

include hst

/-- The adapters record a source alike. -/
lemma agree_upsertSource {request : UpsertSource}
    (hfits : FitsDouble request.observedAtEpochSeconds) :
    Agree Eq (sqlite.upsertSource s request) (d1.upsertSource t request) := by
  rw [upsertSource_eq, upsertSource_eq, bind_of_fits _ hfits, bind_of_fits _ hfits]
  refine agree_checked hst fun _ => ⟨{ hst with sources := ?_ }, .ok rfl⟩
  simp only [Db.upsertSource, hst.sources]

/-- The adapters create a watch alike. -/
lemma agree_createWatch [ExternalParsers] {request : CreateWatch}
    (hcreated : FitsDouble request.createdAtEpochSeconds)
    (hdue : ∀ due, request.firstDueEpochSeconds = some due → FitsDouble due) :
    Agree Eq (sqlite.createWatch s request) (d1.createWatch t request) := by
  have hnext : FitsDouble request.intoWatch.nextDueEpochSeconds := by
    unfold CreateWatch.intoWatch
    dsimp only
    cases h : request.firstDueEpochSeconds with
    | some due => exact hdue due h
    | none => exact hcreated
  have hrow : d1.storedWatch request.intoWatch = sqlite.storedWatch request.intoWatch := by
    have hcreated' : FitsDouble request.intoWatch.createdAtEpochSeconds := hcreated
    unfold storedWatch
    rw [bind_of_fits _ hnext, bind_of_fits _ hnext, bind_of_fits _ hcreated',
      bind_of_fits _ hcreated']
  rw [createWatch_eq, createWatch_eq]
  refine agree_checked hst fun _ => ?_
  rw [← hst.watches, hrow]
  split
  · exact ⟨hst, .error rfl⟩
  · exact ⟨{ hst with watches := rfl }, .ok rfl⟩

/-- The adapters list watches alike. -/
lemma agree_listWatches (tenantId : String) :
    Agree Eq (sqlite.listWatches s tenantId) (d1.listWatches t tenantId) := by
  refine agree_query hst (.bind fun _ _ => ?_)
  have hrows : t.listWatches tenantId = s.listWatches tenantId := by
    unfold Db.listWatches
    rw [hst.watches]
  rw [hrows]
  exact .mapM_eq similar_readWatch _

/-- The adapters delete a watch alike. -/
lemma agree_deleteWatch (request : DeleteWatch) :
    Agree Eq (sqlite.deleteWatch s request) (d1.deleteWatch t request) := by
  rw [deleteWatch_eq, deleteWatch_eq]
  refine agree_checked hst fun _ => ⟨?_, ?_⟩
  · constructor
    · exact hst.sources
    · exact congrArg (Table.delete _) hst.watches
    · exact congrArg (Table.delete _) hst.watchRuns
    · exact hst.records
    · exact congrArg (Table.delete _) hst.watchRecords
    · refine Table.related_delete (fun _ _ hd => ?_) hst.deliveries
      exact hd.apply (fun d => decide (d.tenantId = request.tenantId) &&
        decide (d.watchId = request.watchId)) fun _ => rfl
  · rw [hst.watches]
    exact .ok rfl

/-- The adapters claim the same watch, when it can be read back. -/
lemma agree_claimDueWatch {request : ClaimDueWatch} (hkeys : (s.watches.map Watch.key).Nodup)
    (hnow : FitsDouble request.nowEpochSeconds) (hexpires : FitsDouble request.leaseExpires)
    (hreadable : s.Readable) :
    Agree (fun a b => a.map ClaimedWatch.withoutLease = b.map ClaimedWatch.withoutLease)
      (sqlite.claimDueWatch s request) (d1.claimDueWatch t request) := by
  rw [claimDueWatch_eq sqlite request hkeys, claimDueWatch_eq d1 request (by rwa [← hst.watches])]
  refine agree_checked hst fun _ => ?_
  rw [bind_of_fits _ hnow, bind_of_fits _ hnow, ← hst.dueWatch]
  cases hdue : s.dueWatch request.tenantId request.nowEpochSeconds with
  | none => exact ⟨hst, .ok rfl⟩
  | some due =>
    have hdueReadable : due.IsReadable := hreadable.watches due (Db.dueWatch_eq_some hdue).1
    have hcommits : ∀ adapter : Adapter, adapter.CommitsClaim due := fun _ => .inr hdueReadable
    dsimp only
    rw [if_pos (hcommits _), if_pos (hcommits _), claimReply_of_readable _ hdueReadable,
      claimReply_of_readable _ hdueReadable]
    refine ⟨{ hst with watches := ?_ }, .ok rfl⟩
    simp only [leaseWatch, hst.watches, bind_of_fits _ hexpires]

/-! ## Runs -/

/-- The adapters start the same run. -/
lemma agree_startWatchRun {request : StartWatchRun}
    (hfits : FitsDouble request.startedAtEpochSeconds) :
    Agree Eq (sqlite.startWatchRun s request) (d1.startWatchRun t request) := by
  have hrow : d1.startedRun request = sqlite.startedRun request := by
    unfold startedRun
    rw [bind_of_fits _ hfits, bind_of_fits _ hfits]
  rw [startWatchRun_eq, startWatchRun_eq, hrow]
  refine agree_checked hst fun _ => ?_
  -- a database that differs in the deliveries only finds the same run
  have hload : ∀ {db db' : Db}, db.Similar db' → Agree Eq
      (db, SqliteStore.fetchWatchRun db request) (db', SqliteStore.fetchWatchRun db' request) := by
    intro db db' h
    refine ⟨h, .of_eq ?_⟩
    unfold SqliteStore.fetchWatchRun Db.loadRun
    rw [h.watchRuns]
  unfold Db.insertRun
  rw [← hst.watches, ← hst.watchRuns]
  by_cases hleased : (s.watches.any fun w => w.isLeasedTo (sqlite.startedRun request).tenantId
      (sqlite.startedRun request).watchId (sqlite.startedRun request).leaseOwner
      (sqlite.startedRun request).startedAtEpochSeconds) = true
  · rw [if_pos hleased, if_pos hleased]
    by_cases hidem : Table.exists? WatchRun.idempotency s.watchRuns (sqlite.startedRun request) = true
    · rw [if_pos hidem, if_pos hidem]
      exact hload hst
    · rw [if_neg hidem, if_neg hidem]
      by_cases hkey : Table.exists? WatchRun.key s.watchRuns (sqlite.startedRun request) = true
      · rw [if_pos hkey, if_pos hkey]
        exact ⟨hst, .error rfl⟩
      · rw [if_neg hkey, if_neg hkey]
        exact hload ⟨hst.sources, rfl, rfl, hst.records, hst.watchRecords, hst.deliveries⟩
  · rw [if_neg hleased, if_neg hleased]
    exact hload hst

end Operations

/-! ## The tables of a completion -/

section Completions

variable {request : CompleteWatchRun}

/-- Looking a row up among those of the request finds the row of the incoming record.

**Proof sketch.** The rows are made from the records, so looking one up is looking up a record. -/
private lemma find?_observed {ρ κ : Type} [DecidableEq κ] {key : ρ → κ} {row : Record → ρ} {k : κ}
    {identity : SourceId × RecordId} (h : ∀ r, key (row r) = k ↔ r.identity = identity) :
    (request.records.map row).find? (fun r => key r = k) =
      (D1Store.incoming request identity).map row := by
  rw [List.find?_map, D1Store.incoming]
  congr 2
  funext r
  exact decide_eq_decide.mpr (h r)

/-- **Records**: both adapters leave the same table `records`.

**Proof sketch.** Upserting rows with distinct keys one by one is inserting the new ones and then
updating every row that has a counterpart (`Table.upsertAll_eq`), which is what the two statements of
the batch do. -/
lemma recordsAfter_eq (hfits : FitsDouble request.finishedAtEpochSeconds)
    (hnodup : (request.records.map Record.identity).Nodup) (table : List RecordRow) :
    d1.recordsAfter request table = sqlite.recordsAfter request table := by
  have hkeys : ((SqliteStore.recordRows request request.records).map RecordRow.key).Nodup := by
    have hmap : (SqliteStore.recordRows request request.records).map RecordRow.key =
        (request.records.map Record.identity).map fun identity => (request.tenantId, identity) := by
      rw [SqliteStore.recordRows, List.map_map, List.map_map]
      rfl
    rw [hmap]
    exact hnodup.map fun a b hab => (Prod.mk.inj hab).2
  simp only [recordsAfter, D1Store.recordsAfter, D1Store.recordsUpdated, hfits.int_eq]
  rw [Table.upsertAll_eq RecordRow.key_setContent (fun _ _ => rfl) hkeys, Table.update]
  refine List.map_congr_left fun row _ => ?_
  unfold Table.mergeFrom
  by_cases htenant : row.tenantId = request.tenantId
  · have hfind : (SqliteStore.recordRows request request.records).find?
        (fun r => decide (r.key = row.key)) = (D1Store.incoming request row.record.identity).map
          (RecordRow.observed request.tenantId request.finishedAtEpochSeconds) := by
      refine find?_observed fun r => ?_
      rw [RecordRow.key, RecordRow.key, htenant, Prod.mk.injEq]
      exact and_iff_right rfl
    rw [hfind]
    cases hincoming : D1Store.incoming request row.record.identity with
    | none => simp
    | some record => simp [htenant]
  · have hfind : (SqliteStore.recordRows request request.records).find?
        (fun r => decide (r.key = row.key)) = none := by
      refine List.find?_eq_none.mpr fun r hr hk => htenant ?_
      obtain ⟨record, -, rfl⟩ := List.mem_map.mp hr
      exact (Prod.mk.inj (of_decide_eq_true hk)).1.symm
    simp [hfind, htenant]

/-- **Records of the watch**: both adapters leave the same table `watch_records`. -/
lemma watchRecordsAfter_eq (hfits : FitsDouble request.finishedAtEpochSeconds)
    (hnodup : (request.records.map Record.identity).Nodup) (table : List WatchRecordRow) :
    d1.watchRecordsAfter request table = sqlite.watchRecordsAfter request table := by
  have hkeys :
      ((SqliteStore.watchRecordRows request request.records).map WatchRecordRow.key).Nodup := by
    have hmap : (SqliteStore.watchRecordRows request request.records).map WatchRecordRow.key =
        (request.records.map Record.identity).map fun identity =>
          (request.tenantId, request.watchId, identity) := by
      rw [SqliteStore.watchRecordRows, List.map_map, List.map_map]
      rfl
    rw [hmap]
    exact hnodup.map fun a b hab => (Prod.mk.inj (Prod.mk.inj hab).2).2
  simp only [watchRecordsAfter, D1Store.watchRecordsAfter, D1Store.watchRecordsUpdated,
    hfits.int_eq]
  rw [Table.upsertAll_eq WatchRecordRow.key_setObserved (fun _ _ => rfl) hkeys, Table.update]
  refine List.map_congr_left fun row _ => ?_
  unfold Table.mergeFrom
  by_cases hwatch : row.tenantId = request.tenantId ∧ row.watchId = request.watchId
  · have hfind : (SqliteStore.watchRecordRows request request.records).find?
        (fun r => decide (r.key = row.key)) = (D1Store.incoming request row.identity).map
          (WatchRecordRow.observed request.tenantId request.watchId
            request.finishedAtEpochSeconds) := by
      refine find?_observed fun r => ?_
      rw [WatchRecordRow.key, WatchRecordRow.key, hwatch.1, hwatch.2, Prod.mk.injEq, Prod.mk.injEq]
      exact (and_iff_right rfl).trans (and_iff_right rfl)
    rw [hfind]
    cases hincoming : D1Store.incoming request row.identity with
    | none => simp
    | some record =>
      rw [if_pos (by simp [hwatch])]
      rfl
  · have hfind : (SqliteStore.watchRecordRows request request.records).find?
        (fun r => decide (r.key = row.key)) = none := by
      refine List.find?_eq_none.mpr fun r hr hk => hwatch ?_
      obtain ⟨record, -, rfl⟩ := List.mem_map.mp hr
      obtain ⟨htenant, hrest⟩ := Prod.mk.inj (of_decide_eq_true hk)
      exact ⟨htenant.symm, (Prod.mk.inj hrest).1.symm⟩
    have hnot : (decide (row.tenantId = request.tenantId) &&
        decide (row.watchId = request.watchId)) = false := by
      rw [← Bool.decide_and]
      exact decide_eq_false hwatch
    simp [hfind, hnot]

/-- **New records**: both adapters find the same records new to the watch, in some order. -/
lemma newRecords_perm {s t : Db} (hst : s.Similar t)
    (hnodup : (request.records.map Record.identity).Nodup) :
    (sqlite.newRecords s request).Perm (d1.newRecords t request) := by
  have horders : (request.records.map fun r => identityOrder r.source r.id).Nodup := by
    rw [List.nodup_map_iff_inj_on hnodup.of_map]
    intro a ha b hb hab
    exact List.inj_on_of_nodup_map hnodup ha hb (identityOrder_inj.mp hab)
  simp only [newRecords, D1Store.newRecords, SqliteStore.newRecords_eq_filter hnodup,
    ← hst.watchRecords]
  refine (List.Perm.of_eq (List.filter_congr fun record _ => ?_)).trans
    ((Table.groupBy_perm horders).symm.filter _)
  rw [Bool.eq_iff_iff, decide_eq_true_eq, Bool.not_eq_true', List.any_eq_false, List.mem_map]
  simp

/-- Both adapters queue similar notifications. -/
lemma similar_deliveriesAfter {s t : Db} (hst : s.Similar t)
    (hfits : FitsDouble request.finishedAtEpochSeconds)
    (hnodup : (request.records.map Record.identity).Nodup) :
    List.Forall₂ Delivery.Similar (sqlite.deliveriesAfter s request)
      (d1.deliveriesAfter t request) := by
  have hnew := newRecords_perm hst hnodup
  unfold deliveriesAfter
  cases request.delivery with
  | none => exact hst.deliveries
  | some delivery =>
    dsimp only
    have hempty : (sqlite.newRecords s request).isEmpty = (d1.newRecords t request).isEmpty := by
      rw [Bool.eq_iff_iff, List.isEmpty_iff_length_eq_zero, List.isEmpty_iff_length_eq_zero,
        hnew.length_eq]
    have hinstant : (sqlite.observedAt request.finishedAtEpochSeconds).value =
        (d1.observedAt request.finishedAtEpochSeconds).value := by
      rw [observedAt_value, observedAt_value, bind_of_fits _ hfits, bind_of_fits _ hfits]
    rw [hempty]
    split
    · exact hst.deliveries
    · refine Table.related_insertIgnore (fun _ _ hd => hd.key) hst.deliveries ⟨?_, hnew⟩
      simp only [CompleteWatchRun.deliveryRow, Delivery.withoutRecords, hinstant]

/-- Both adapters schedule the watches alike. -/
lemma watchesAfter_eq (hfits : FitsDouble request.finishedAtEpochSeconds) {table : List Watch}
    (hintervals : ∀ w ∈ table, w.intervalSeconds ≤ 31536000) :
    d1.watchesAfter request table = sqlite.watchesAfter request table :=
  Table.update_congr (fun _ _ => rfl) fun w hw _ => by rw [nextDue_eq hfits (hintervals w hw)]

/-- Both adapters finish the same runs. -/
lemma watchRunsAfter_eq (hfits : FitsDouble request.finishedAtEpochSeconds)
    (table : List WatchRun) :
    d1.watchRunsAfter request table = sqlite.watchRunsAfter request table := by
  unfold watchRunsAfter
  rw [bind_of_fits _ hfits, bind_of_fits _ hfits]

/-- **Completions**: the transaction and the batch agree, outside of a stale state. -/
lemma agree_completeWatchRun [ExternalParsers] {s t : Db} (hst : s.Similar t) (hs : s.WellFormed)
    (hstale : ¬ D1Store.IsStaleFinish s request)
    (hfits : FitsDouble request.finishedAtEpochSeconds)
    (hnodup : (request.records.map Record.identity).Nodup) (hfit : D1Store.RecordsFit request) :
    Agree Eq (sqlite.completeWatchRun s request) (d1.completeWatchRun t request) := by
  cases hv : request.validate with
  | error e =>
    simp only [completeWatchRun, SqliteStore.completeWatchRun, D1Store.completeWatchRun, hv,
      StoreResult.error_bind, transaction_error, checked_error]
    exact ⟨hst, .error rfl⟩
  | ok _ =>
    have hcan : d1.CanComplete t request ↔ sqlite.CanComplete s request := by
      unfold CanComplete
      rw [bind_of_fits _ hfits, bind_of_fits _ hfits, hst.watches, hst.watchRuns]
    have hstale' : ¬ D1Store.IsStaleFinish t request := by
      unfold D1Store.IsStaleFinish at hstale ⊢
      rwa [← hst.watches, ← hst.watchRuns]
    have hintervals : ∀ w ∈ t.watches, 1 ≤ w.intervalSeconds := by
      rw [← hst.watches]
      exact fun w hw => (hs.intervals w hw).1
    simp only [completeWatchRun]
    rcases SqliteStore.completeWatchRun_eq request hs.watches hv with
      ⟨hsqlite, heq⟩ | ⟨hsqlite, message, heq⟩ <;>
    rcases D1Store.completeWatchRun_eq request (hst.keysUnique hs.toKeysUnique) hintervals hv hfit
      hstale' with ⟨hd1, heq'⟩ | ⟨hd1, message', heq'⟩
    · rw [heq, heq']
      refine ⟨⟨hst.sources, ?_, ?_, ?_, ?_, similar_deliveriesAfter hst hfits hnodup⟩, .of_eq ?_⟩
      · simp only [committed, ← hst.watches]
        exact (watchesAfter_eq hfits fun w hw => (hs.intervals w hw).2).symm
      · simp only [committed, ← hst.watchRuns]
        exact (watchRunsAfter_eq hfits _).symm
      · simp only [committed, ← hst.records]
        exact (recordsAfter_eq hfits hnodup _).symm
      · simp only [committed, ← hst.watchRecords]
        exact (watchRecordsAfter_eq hfits hnodup _).symm
      · unfold outcome
        rw [← hst.records, ← hst.watchRecords, recordsAfter_eq hfits hnodup,
          watchRecordsAfter_eq hfits hnodup]
    · exact absurd (hcan.mpr hsqlite) hd1
    · exact absurd (hcan.mp hd1) hsqlite
    · rw [heq, heq']
      exact ⟨hst, .error rfl⟩

end Completions

/-! ## History -/

section Operations

variable {s t : Db} (hst : s.Similar t)

include hst

/-- The adapters read the same history. -/
lemma agree_history {request : HistoryRequest}
    (hsince : ∀ since, request.sinceEpochSeconds = some since → FitsDouble since) :
    Agree Eq (sqlite.history s request) (d1.history t request) := by
  refine agree_query hst (.bind fun _ hv => ?_)
  rw [HistoryRequest.int_since hsince, D1Store.int_limit (HistoryRequest.limit_of_validate hv)]
  cases request.watchId with
  | some watchId =>
    dsimp only
    rw [← hst.historyForWatch]
    exact .mapM_eq similar_readObservation _
  | none =>
    dsimp only
    rw [← hst.historyForTenant]
    exact .mapM_eq similar_readObservation _

/-! ## Deliveries -/

/-- The adapters list similar deliveries. -/
lemma agree_listDeliveries (request : ListDeliveries) :
    Agree (List.Forall₂ Delivery.Similar) (sqlite.listDeliveries s request)
      (d1.listDeliveries t request) := by
  refine agree_query hst (.bind fun _ hv => ?_)
  rw [D1Store.int_limit (ListDeliveries.limit_of_validate hv)]
  exact .mapM (fun _ _ hd => similar_readDelivery hd)
    (hst.listDeliveries request.tenantId request.status request.limit)

/-- The adapters claim similar deliveries, when the owner has none yet and the one that they find
can be read back. -/
lemma agree_claimPendingDelivery {request : ClaimPendingDelivery}
    (hkeys : (s.deliveries.map Delivery.key).Nodup)
    (hnow : FitsDouble request.nowEpochSeconds) (hexpires : FitsDouble request.leaseExpires)
    (hreadable : s.Readable)
    (hnew : ∀ delivery, s.eligibleDelivery request.tenantId request.nowEpochSeconds = some delivery →
      request.validate = .ok () → ∀ d ∈ s.deliveries, d.leaseOwner ≠ some request.leaseOwner) :
    Agree (Option.Rel Delivery.Similar) (sqlite.claimPendingDelivery s request)
      (d1.claimPendingDelivery t request) := by
  rw [claimPendingDelivery_eq sqlite request hkeys,
    claimPendingDelivery_eq d1 request (by rwa [← hst.deliveryKeys])]
  refine agree_checked hst fun hv => ?_
  rw [bind_of_fits _ hnow, bind_of_fits _ hnow]
  have heligible := hst.eligibleDelivery request.tenantId request.nowEpochSeconds
  cases hs : s.eligibleDelivery request.tenantId request.nowEpochSeconds with
  | none =>
    rw [hs] at heligible
    cases ht : t.eligibleDelivery request.tenantId request.nowEpochSeconds with
    | none => exact ⟨hst, .ok .none⟩
    | some delivery' =>
      rw [ht] at heligible
      cases heligible
  | some delivery =>
    rw [hs] at heligible
    cases ht : t.eligibleDelivery request.tenantId request.nowEpochSeconds with
    | none =>
      rw [ht] at heligible
      cases heligible
    | some delivery' =>
      rw [ht] at heligible
      cases heligible with
      | some hsimilar =>
        obtain ⟨hmem, hisEligible⟩ := Db.eligibleDelivery_eq_some hs
        have hclaimed := sqlite.claimedDelivery_eq hkeys hmem (Delivery.isEligible_iff.mp hisEligible).1
          fun _ => hnew delivery hs hv
        have hsqlite : sqlite.ReadsClaim s delivery request := by
          intro row hrow
          rw [hclaimed, Option.mem_some_iff] at hrow
          exact hrow ▸ hreadable.deliveries delivery hmem
        have hd1 : d1.ReadsClaim t delivery' request := by
          rintro row ⟨⟩
          exact hsimilar.isReadable_iff.mp (hreadable.deliveries delivery hmem)
        have hcommits : sqlite.CommitsDelivery s delivery request := .inr hsqlite
        have hcommits' : d1.CommitsDelivery t delivery' request := .inr hd1
        have hlease : ∀ {d d' : Delivery}, d.Similar d' →
            (d.withLease request.leaseOwner request.leaseExpires).Similar
              (d'.withLease request.leaseOwner request.leaseExpires) := fun hd =>
          hd.map (f := fun d => d.withLease request.leaseOwner request.leaseExpires)
            (fun _ => rfl) fun _ => rfl
        dsimp only
        rw [if_pos hcommits, if_pos hcommits', deliveryReply_of_reads hsqlite,
          deliveryReply_of_reads hd1, hclaimed]
        constructor
        · refine { hst with deliveries := ?_ }
          simp only [leaseDelivery, bind_of_fits _ hexpires]
          refine Table.related_update (fun d d' hd => ?_) (fun _ _ hd => hlease hd) hst.deliveries
          rw [hd.key, hsimilar.key]
        · unfold leasedDelivery claimedDelivery
          rw [bind_of_fits _ hexpires, hexpires.int_eq]
          exact .ok (.some (hlease hsimilar))

/-- The adapters acknowledge similar deliveries. -/
lemma agree_completeDelivery {request : CompleteDelivery}
    (hkeys : (s.deliveries.map Delivery.key).Nodup)
    (hfinished : FitsDouble request.finishedAtEpochSeconds)
    (hnext : FitsDouble request.nextAttemptEpochSeconds) :
    Agree Delivery.Similar (sqlite.completeDelivery s request) (d1.completeDelivery t request) := by
  have hdelivered : request.deliveredAtEpochSeconds.map d1.bind =
      request.deliveredAtEpochSeconds.map sqlite.bind := by
    unfold CompleteDelivery.deliveredAtEpochSeconds
    split
    · simp only [Option.map_some, bind_of_fits _ hfinished]
    · rfl
  have hrow : d1.finishedDelivery request = sqlite.finishedDelivery request := by
    funext d
    unfold finishedDelivery
    rw [bind_of_fits _ hnext, bind_of_fits _ hnext, hdelivered]
  have hfinish : ∀ {d d' : Delivery}, d.Similar d' →
      (sqlite.finishedDelivery request d).Similar (sqlite.finishedDelivery request d') := fun hd =>
    hd.map (fun _ => rfl) fun _ => rfl
  rw [completeDelivery_eq sqlite request hkeys,
    completeDelivery_eq d1 request (by rwa [← hst.deliveryKeys]), hrow]
  refine agree_checked hst fun _ => ?_
  rw [bind_of_fits _ hfinished, bind_of_fits _ hfinished]
  have hfound := Table.related_find? (R := Delivery.Similar) (fun _ _ hd => hd.isLeasedTo
    request.tenantId request.deliveryId request.leaseOwner request.finishedAtEpochSeconds)
      hst.deliveries
  cases hs : s.deliveries.find? fun d => d.isLeasedTo request.tenantId request.deliveryId
      request.leaseOwner request.finishedAtEpochSeconds with
  | none =>
    rw [hs] at hfound
    cases ht : t.deliveries.find? fun d => d.isLeasedTo request.tenantId request.deliveryId
        request.leaseOwner request.finishedAtEpochSeconds with
    | none => exact ⟨hst, .error rfl⟩
    | some delivery' =>
      rw [ht] at hfound
      cases hfound
  | some delivery =>
    rw [hs] at hfound
    cases ht : t.deliveries.find? fun d => d.isLeasedTo request.tenantId request.deliveryId
        request.leaseOwner request.finishedAtEpochSeconds with
    | none =>
      rw [ht] at hfound
      cases hfound
    | some delivery' =>
      rw [ht] at hfound
      cases hfound with
      | some hsimilar =>
        refine ⟨{ hst with deliveries := ?_ }, similar_readDelivery (hfinish hsimilar)⟩
        refine Table.related_update (fun d d' hd => ?_) (fun _ _ hd => hfinish hd) hst.deliveries
        rw [hd.key, hsimilar.key]

end Operations

/-! ## Runs -/

/-- **One step** of the SQLite adapter with an operation that fits keeps every row readable. -/
lemma Effect.readable [ExternalParsers] {db : Db} {op : StoreOp} {result : Db × StoreReply}
    (heffect : sqlite.Effect db op result) (hfits : op.Fits) (h : db.Readable) :
    result.1.Readable := by
  cases heffect with
  | unchanged => exact h
  | source => exact ⟨h.watches, h.deliveries⟩
  | started => exact ⟨h.watches, h.deliveries⟩
  | created request =>
    refine ⟨fun w hw => ?_, h.deliveries⟩
    rcases List.mem_append.mp hw with hw | hw
    · exact h.watches w hw
    · rw [List.mem_singleton.mp hw]
      exact hfits.2.2
  | deleted =>
    exact ⟨fun w hw => h.watches w (Table.mem_delete.mp hw).1,
      fun d hd => h.deliveries d (Table.mem_delete.mp hd).1⟩
  | claimed request due =>
    refine ⟨fun w hw => ?_, h.deliveries⟩
    rcases Table.mem_update.mp hw with ⟨hw, -⟩ | ⟨old, hold, -, rfl⟩
    · exact h.watches w hw
    · exact h.watches old hold
  | completed request =>
    obtain ⟨-, hnodup, -, hcursor, hdelivery⟩ := hfits
    refine ⟨fun w hw => ?_, fun d hd => ?_⟩
    · rcases Table.mem_update.mp hw with ⟨hw, -⟩ | ⟨old, -, -, rfl⟩
      · exact h.watches w hw
      · exact hcursor
    · rcases sqlite.mem_deliveriesAfter.mp hd with hd | ⟨delivery, hsome, -, -, rfl⟩
      · exact h.deliveries d hd
      · obtain ⟨htarget, hrecords⟩ := hdelivery delivery hsome
        refine ⟨htarget, DeliveryPayload.depth_toJson_le.mpr fun record hrecord => ?_⟩
        change record ∈ SqliteStore.newRecords request db.watchRecords request.records at hrecord
        rw [SqliteStore.newRecords_eq_filter hnodup] at hrecord
        exact hrecords record (List.mem_of_mem_filter hrecord)
  | stale request message hd1 => cases hd1
  | deliveryLeased request delivery =>
    refine ⟨h.watches, fun d hd => ?_⟩
    rcases Table.mem_update.mp hd with ⟨hd, -⟩ | ⟨old, hold, -, rfl⟩
    · exact h.deliveries d hd
    · exact h.deliveries old hold
  | deliveryFinished request delivery =>
    refine ⟨h.watches, fun d hd => ?_⟩
    rcases Table.mem_update.mp hd with ⟨hd, -⟩ | ⟨old, hold, -, rfl⟩
    · exact h.deliveries d hd
    · exact h.deliveries old hold

/-- After every run of the SQLite adapter with operations that fit, every row is readable. -/
lemma readable_run [ExternalParsers] (ops : List StoreOp) (hfits : ∀ op ∈ ops, op.Fits) :
    (sqlite.store.run ops).Readable := by
  induction ops using List.reverseRecOn with
  | nil => exact ⟨fun w hw => absurd hw List.not_mem_nil, fun d hd => absurd hd List.not_mem_nil⟩
  | append_singleton ops op ih =>
    rw [Machine.run_snoc]
    refine (sqlite.step_effect (sqlite.wellFormed_run ops) op).readable (hfits op ?_)
      (ih fun first hfirst => hfits first (List.mem_append_left _ hfirst))
    exact List.mem_append_right _ (List.mem_singleton.mpr rfl)

/-- Where every row is readable, so is the delivery that a claim returns. -/
lemma readsClaim_of_readable {db : Db} (h : db.Readable) {delivery : Delivery}
    {request : ClaimPendingDelivery} : sqlite.ReadsClaim db delivery request := by
  intro row hrow
  have hfound := (List.mem_filter.mp (Table.mem_of_head?_orderBy hrow)).1
  rcases Table.mem_update.mp hfound with ⟨hold, -⟩ | ⟨old, hold, -, rfl⟩
  · exact h.deliveries row hold
  · exact h.deliveries old hold

/-- What both adapters need of a step to agree on it: a well-formed database without a stale state
whose rows can be read back, a new owner for a claim of a delivery, and an operation that fits. -/
structure Admissible [ExternalParsers] (db : Db) (op : StoreOp) : Prop where
  wellFormed : db.WellFormed
  /-- No completion meets a stale state. -/
  notStale : ∀ request, ¬ D1Store.IsStaleFinish db request
  /-- A claim that finds a delivery is by an owner that has none. -/
  newOwner : ∀ request, op = .claimPendingDelivery request → ∀ delivery,
    db.eligibleDelivery request.tenantId request.nowEpochSeconds = some delivery →
      request.validate = .ok () → ∀ d ∈ db.deliveries, d.leaseOwner ≠ some request.leaseOwner
  readable : db.Readable
  fits : op.Fits

/-- **One step**: from similar databases, both adapters carry out an admissible operation alike. -/
theorem similar_step [ExternalParsers] {s t : Db} {op : StoreOp} (hadm : Admissible s op)
    (hst : s.Similar t) : (sqlite.step s op).1.Similar (d1.step t op).1 ∧
      (sqlite.step s op).2.Similar (d1.step t op).2 := by
  obtain ⟨hs, hstale, hnew, hreads, hfits⟩ := hadm
  cases op with
  | upsertSource request =>
    obtain ⟨hdb, hresult⟩ := agree_upsertSource hst hfits
    exact ⟨hdb, .sourceUpserted hresult⟩
  | createWatch request =>
    obtain ⟨hdb, hresult⟩ := agree_createWatch hst hfits.1 hfits.2.1
    exact ⟨hdb, .watchCreated hresult⟩
  | listWatches tenantId =>
    obtain ⟨hdb, hresult⟩ := agree_listWatches hst tenantId
    exact ⟨hdb, .watchesListed hresult⟩
  | deleteWatch request =>
    obtain ⟨hdb, hresult⟩ := agree_deleteWatch hst request
    exact ⟨hdb, .watchDeleted hresult⟩
  | claimDueWatch request =>
    obtain ⟨hdb, hresult⟩ := agree_claimDueWatch hst hs.watches hfits.1 hfits.2 hreads
    exact ⟨hdb, .watchClaimed hresult⟩
  | startWatchRun request =>
    obtain ⟨hdb, hresult⟩ := agree_startWatchRun hst hfits
    exact ⟨hdb, .runStarted hresult⟩
  | completeWatchRun request =>
    obtain ⟨hdb, hresult⟩ := agree_completeWatchRun hst hs (hstale request) hfits.1 hfits.2.1
      hfits.2.2.1
    exact ⟨hdb, .runCompleted hresult⟩
  | history request =>
    obtain ⟨hdb, hresult⟩ := agree_history hst hfits
    exact ⟨hdb, .historyRead hresult⟩
  | claimPendingDelivery request =>
    obtain ⟨hdb, hresult⟩ := agree_claimPendingDelivery hst hs.deliveries hfits.1 hfits.2
      hreads (hnew request rfl)
    exact ⟨hdb, .deliveryClaimed hresult⟩
  | completeDelivery request =>
    obtain ⟨hdb, hresult⟩ := agree_completeDelivery hst hs.deliveries hfits.1 hfits.2
    exact ⟨hdb, .deliveryCompleted hresult⟩
  | listDeliveries request =>
    obtain ⟨hdb, hresult⟩ := agree_listDeliveries hst request
    exact ⟨hdb, .deliveriesListed hresult⟩

/-- A claim that finds a delivery and reads it is a claim of the trace. -/
lemma deliveryClaim_of_eligible [ExternalParsers] {adapter : Adapter} {db : Db}
    {request : ClaimPendingDelivery} {delivery : Delivery}
    (hkeys : (db.deliveries.map Delivery.key).Nodup)
    (hreads : adapter.ReadsClaim db delivery request)
    (heligible : db.eligibleDelivery request.tenantId (adapter.bind request.nowEpochSeconds) =
      some delivery)
    (hv : request.validate = .ok ()) :
    StoreStep.deliveryClaim (adapter.store.stepAt db (.claimPendingDelivery request)) =
      some request.leaseOwner := by
  obtain ⟨hmem, hisEligible⟩ := Db.eligibleDelivery_eq_some heligible
  obtain ⟨found, hfound⟩ := Option.isSome_iff_exists.mp
    (adapter.claimedDelivery_isSome hmem (Delivery.isEligible_iff.mp hisEligible).1)
  have hclaim : adapter.claimPendingDelivery db request =
      (adapter.leaseDelivery db delivery request, .ok (some found)) := by
    have hcommits : adapter.CommitsDelivery db delivery request := .inr hreads
    rw [claimPendingDelivery_eq adapter request hkeys, hv, checked_ok, heligible]
    dsimp only
    rw [if_pos hcommits, deliveryReply_of_reads hreads, hfound]
  have hreply : (adapter.store.stepAt db (.claimPendingDelivery request)).reply =
      .deliveryClaimed (.ok (some found)) :=
    congrArg (fun result : Db × StoreResult (Option Delivery) =>
      StoreReply.deliveryClaimed result.2) hclaim
  unfold StoreStep.deliveryClaim
  rw [hreply]
  rfl

/-- Fresh owners make the next operation of a run admissible. -/
lemma admissible_of_fresh [ExternalParsers] {ops : List StoreOp} {op : StoreOp}
    (hclaims : FreshClaims (sqlite.store.trace (ops ++ [op])))
    (hdeliveries : FreshDeliveryClaims (sqlite.store.trace (ops ++ [op])))
    (hfits : ∀ next ∈ ops ++ [op], next.Fits) : Admissible (sqlite.store.run ops) op := by
  have hdb := sqlite.wellFormed_run ops
  have hreadable := readable_run ops fun first hfirst => hfits first (List.mem_append_left _ hfirst)
  refine ⟨hdb, fun request => ?_, ?_, hreadable,
    hfits op (List.mem_append_right _ (List.mem_singleton.mpr rfl))⟩
  · have hfirst := Machine.trace_prefix sqlite.store (List.prefix_append ops [op])
    exact (sqlite.leaseInv_run ops (hclaims.of_prefix hfirst)).not_stale request
  · rintro request rfl delivery heligible hv d hd howner
    rw [Machine.trace_snoc] at hdeliveries
    exact hdeliveries.notMem (deliveryClaim_of_eligible hdb.deliveries
      (readsClaim_of_readable hreadable) heligible hv)
      (deliveryOwners_run ops d hd _ howner)

/-- A run that completes a watch with two records, in the order of their identifiers reversed, and
delivers the notification. -/
def deliveredOps : List StoreOp :=
  [.createWatch ⟨"t", "w", ⟨"q", none, none, none⟩, [], 60, .obj [], true, 0, none⟩,
    .claimDueWatch ⟨"t", 10, "first", 30⟩,
    .startWatchRun ⟨"t", "w", "r", "k", "first", 10⟩,
    .completeWatchRun ⟨"t", "w", "r", "first", 20,
      [⟨⟨"2", RecordId.isValid_two⟩, ⟨"hn", SourceId.isValid_hn⟩, "story", "https://example.com/2",
          none, none, none, none, none, .obj []⟩,
        ⟨⟨"1", RecordId.isValid_one⟩, ⟨"hn", SourceId.isValid_hn⟩, "story", "https://example.com/1",
          none, none, none, none, none, .obj []⟩], .obj [], none, some ⟨"d", .obj []⟩⟩,
    .claimPendingDelivery ⟨"t", 20, "second", 60⟩,
    .completeDelivery ⟨"t", "d", "second", 30, true, none⟩,
    .history ⟨"t", none, none, 10⟩,
    .listDeliveries ⟨"t", some "succeeded", 10⟩]

set_option maxRecDepth 100000 in
/-- The claims of `deliveredOps` are fresh, and its delivery is claimed. -/
private lemma delivered_fresh :
    letI : ExternalParsers := .ofHost "example.com"
    FreshClaims (sqlite.store.trace deliveredOps) ∧
      FreshDeliveryClaims (sqlite.store.trace deliveredOps) ∧
      deliveryClaims (sqlite.store.trace deliveredOps) = ["second"] := by
  unfold FreshClaims FreshDeliveryClaims
  decide

set_option maxRecDepth 100000 in
/-- The operations of `deliveredOps` fit. -/
private lemma delivered_fits : ∀ op ∈ deliveredOps, op.Fits := by
  simp only [deliveredOps, List.forall_mem_cons, StoreOp.Fits, FitsDouble, D1Store.RecordsFit,
    reduceCtorEq, IsEmpty.forall_iff, implies_true, List.not_mem_nil]
  decide

/-- A run that claims a watch whose cursor nests 128 deep, twice. -/
def claimedTwiceOps : List StoreOp :=
  [.createWatch ⟨"t", "w", ⟨"q", none, none, none⟩, [], 60,
      .obj [("after", .nestedArrays 127)], true, 0, none⟩,
    .claimDueWatch ⟨"t", 10, "first", 30⟩,
    .claimDueWatch ⟨"t", 11, "second", 30⟩]

end Adapter

end Comsat
