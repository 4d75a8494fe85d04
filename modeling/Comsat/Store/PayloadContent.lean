import Comsat.Store.Integrity

set_option relaxedAutoImplicit false
set_option autoImplicit false

/-!
# What a notification tells and what is stored

A completion may observe an identity more than once. The notification that it queues tells the first
observation in both adapters. The table of records keeps the first one in the D1 adapter, and the
last one in the SQLite adapter, which writes the records one after the other.

## Main definitions

* `CompleteWatchRun.firstRecord`, `CompleteWatchRun.lastRecord` — the first and the last record of a
  request with an identity.
* `Db.content` — the content that is stored for an identity.
* `PayloadAgrees` — the notifications that a step inserts tell what is stored after it.

## Main results

* `Adapter.first_of_mem_newRecords` — a notification tells first observations.
* `SqliteStore.content_committed`, `D1Store.content_committed` — what a completion leaves.
* `payload_content_iff` — when notifications tell what is stored and both adapters store the same.
* `payload_content_differs` — a completion after which they do not.
-/

namespace Comsat

/-! ## Repeated identities -/

namespace CompleteWatchRun

variable (request : CompleteWatchRun) (identity : SourceId × RecordId)

/-- The first record of a request with an identity. -/
def firstRecord : Option Record := request.records.find? fun record => record.identity = identity

/-- The last record of a request with an identity. -/
def lastRecord : Option Record :=
  (request.records.filter fun record => record.identity = identity).getLast?

end CompleteWatchRun

/-- The content that is stored for an identity of a tenant. -/
def Db.content (db : Db) (tenantId : String) (identity : SourceId × RecordId) : Option Record :=
  (db.records.find? fun row => row.key = (tenantId, identity)).map RecordRow.record

/-- The content of a row that is there. -/
lemma Db.content_eq {db : Db} (hkeys : (db.records.map RecordRow.key).Nodup) {row : RecordRow}
    (hrow : row ∈ db.records) : db.content row.tenantId row.record.identity = some row.record := by
  change (db.records.find? fun r => decide (r.key = row.key)).map RecordRow.record = _
  rw [Table.find?_key_eq hkeys hrow]
  rfl

/-- The notifications that were inserted between two databases tell what the second one stores. -/
def PayloadAgrees (tenantId : String) (before after : Db) : Prop :=
  ∀ d ∈ after.deliveries, d.key ∉ before.deliveries.map Delivery.key →
    ∀ record ∈ d.payload.records, after.content tenantId record.identity = some record

/-! ## Notifications tell first observations -/

/-- The records that the loop finds new are first observations. -/
lemma SqliteStore.find?_of_mem_newRecords {request : CompleteWatchRun}
    {table : List WatchRecordRow} {records : List Record} {record : Record}
    (h : record ∈ newRecords request table records) :
    records.find? (fun r => r.identity = record.identity) = some record := by
  induction records generalizing table with
  | nil => exact absurd h (List.not_mem_nil)
  | cons first records ih =>
    -- a record that is found new later has another identity than the first one
    have hlater : ∀ {t : List WatchRecordRow},
        (request.tenantId, request.watchId, first.identity) ∈ t.map WatchRecordRow.key →
        record ∈ newRecords request t records →
        (first :: records).find? (fun r => decide (r.identity = record.identity)) =
          some record := by
      intro t hfirst hmem
      have hnew := (mem_newRecords.mp (List.mem_map_of_mem (f := Record.identity) hmem)).2
      have hother : first.identity ≠ record.identity := fun hsame => hnew (hsame ▸ hfirst)
      rw [List.find?_cons_of_neg (by simpa using hother), ih hmem]
    have hupserted : (request.tenantId, request.watchId, first.identity) ∈
        (Table.upsert WatchRecordRow.key WatchRecordRow.setObserved table
          (WatchRecordRow.observed request.tenantId request.watchId
            request.finishedAtEpochSeconds first)).map WatchRecordRow.key :=
      (Table.mem_map_upsert WatchRecordRow.key_setObserved).mpr (.inr rfl)
    simp only [newRecords] at h
    split at h
    · exact hlater hupserted h
    · rcases List.mem_cons.mp h with rfl | h
      · simp
      · exact hlater hupserted h

/-- **Notifications** tell first observations, in both adapters. -/
lemma Adapter.first_of_mem_newRecords {adapter : Adapter} {db : Db} {request : CompleteWatchRun}
    {record : Record} (h : record ∈ adapter.newRecords db request) :
    request.firstRecord record.identity = some record := by
  cases adapter with
  | sqlite => exact SqliteStore.find?_of_mem_newRecords h
  | d1 =>
    have hgroup := (List.mem_filter.mp h).1
    rcases Table.find?_of_mem_insertAllIgnore (Table.mem_orderBy.mp hgroup) with hnil | ⟨-, hfind⟩
    · exact absurd hnil (List.not_mem_nil)
    · rw [CompleteWatchRun.firstRecord, ← hfind]
      refine congrArg (fun p => request.records.find? p) (funext fun r => ?_)
      exact decide_eq_decide.mpr identityOrder_inj.symm

/-! ## What is stored -/

section Stored

variable {db : Db} {request : CompleteWatchRun} {identity : SourceId × RecordId}

/-- The content of an identity that the request has is that of a row. -/
private lemma exists_stored (adapter : Adapter) (hkeys : (db.records.map RecordRow.key).Nodup)
    (hmem : identity ∈ request.records.map Record.identity) :
    ∃ row ∈ adapter.recordsAfter request db.records, row.key = (request.tenantId, identity) ∧
      (adapter.committed db request).content request.tenantId identity = some row.record := by
  obtain ⟨record, hrecord, rfl⟩ := List.mem_map.mp hmem
  have hthere : (request.tenantId, record.identity) ∈
      (adapter.recordsAfter request db.records).map RecordRow.key :=
    (adapter.mem_recordsAfter).mpr (.inr
      (List.mem_map_of_mem (f := fun r : Record => (request.tenantId, r.identity)) hrecord))
  obtain ⟨row, hrow, hkey⟩ := List.mem_map.mp hthere
  have hnodup : ((adapter.committed db request).records.map RecordRow.key).Nodup :=
    adapter.nodup_recordsAfter hkeys
  have hcontent := Db.content_eq hnodup hrow
  obtain ⟨htenant, hidentity⟩ := Prod.mk.inj hkey
  rw [htenant, hidentity] at hcontent
  exact ⟨row, hrow, hkey, hcontent⟩

/-- A row whose content was set is that of the record, if it has the identity of the record. -/
private lemma record_setContent {old : RecordRow} {tenantId : String} {at_ : ℤ} {record : Record}
    (hidentity : old.record.identity = record.identity) :
    (old.setContent (RecordRow.observed tenantId at_ record)).record = record := by
  obtain ⟨hsource, hid⟩ := Prod.mk.inj hidentity
  simp only [RecordRow.setContent, RecordRow.observed, hsource, hid]

/-- **The SQLite adapter** leaves the last observation of an identity. -/
lemma SqliteStore.content_committed (hkeys : (db.records.map RecordRow.key).Nodup)
    (hmem : identity ∈ request.records.map Record.identity) :
    (Adapter.sqlite.committed db request).content request.tenantId identity =
      request.lastRecord identity := by
  obtain ⟨row, hrow, hkey, hcontent⟩ := exists_stored .sqlite hkeys hmem
  rw [hcontent]
  rcases Table.mem_upsertAll RecordRow.key_setContent hrow with ⟨hfree, -⟩ | ⟨last, hlast, hrow⟩
  · -- the request has a row for the identity
    obtain ⟨record, hrecord, rfl⟩ := List.mem_map.mp hmem
    rw [hkey, recordRows, List.map_map] at hfree
    exact absurd (List.mem_map_of_mem
      (f := fun r : Record => (request.tenantId, r.identity)) hrecord) hfree
  · have hfilter : ((fun r : RecordRow => decide (r.key = row.key)) ∘
        RecordRow.observed request.tenantId request.finishedAtEpochSeconds) =
          fun record => decide (record.identity = identity) := by
      funext record
      rw [hkey]
      exact decide_eq_decide.mpr ⟨fun h => (Prod.mk.inj h).2, fun h => h ▸ rfl⟩
    rw [recordRows, List.filter_map, hfilter, List.getLast?_map, Option.map_eq_some_iff] at hlast
    obtain ⟨record, hlast, rfl⟩ := hlast
    rw [CompleteWatchRun.lastRecord, hlast]
    rcases hrow with rfl | ⟨old, hold, rfl⟩
    · rfl
    · have hidentity : record.identity = identity :=
        of_decide_eq_true (List.mem_filter.mp (List.mem_of_getLast? hlast)).2
      rw [record_setContent ((Prod.mk.inj (hold.trans hkey)).2.trans hidentity.symm)]

/-- **The D1 adapter** leaves the first observation of an identity. -/
lemma D1Store.content_committed (hkeys : (db.records.map RecordRow.key).Nodup)
    (hmem : identity ∈ request.records.map Record.identity) :
    (Adapter.d1.committed db request).content request.tenantId identity =
      request.firstRecord identity := by
  obtain ⟨row, hrow, hkey, hcontent⟩ := exists_stored .d1 hkeys hmem
  rw [hcontent]
  obtain ⟨htenant, hidentity⟩ := Prod.mk.inj hkey
  obtain ⟨first, hfirst⟩ : ∃ first, request.firstRecord identity = some first := by
    obtain ⟨record, hrecord, hsame⟩ := List.mem_map.mp hmem
    exact Option.isSome_iff_exists.mp (List.find?_isSome.mpr ⟨record, hrecord, by simpa using hsame⟩)
  have hincoming : incoming request identity = some first := hfirst
  rcases Table.mem_update.mp hrow with ⟨-, hnot⟩ | ⟨old, -, -, rfl⟩
  · -- every row of the identity is updated
    rw [hidentity, hincoming, htenant] at hnot
    exact absurd hnot (by simp)
  · have hold : old.record.identity = identity := by
      rw [← hidentity]
      split <;> rfl
    have hsame : first.identity = identity :=
      of_decide_eq_true (List.find?_some (p := fun r : Record => decide (r.identity = identity))
        hincoming)
    rw [hfirst]
    simp only [hold, hincoming]
    rw [record_setContent (hold.trans hsame.symm)]

end Stored

/-! ## What is told and what is stored -/

/-- A completion whose notification tells what is stored: for either adapter that commits it, every
record of the notification that it inserts is the content that is stored for its identity; and if
both commit it, both store the same content for it. -/
def CompleteWatchRun.ToldAsStored [ExternalParsers] (request : CompleteWatchRun) (db : Db) : Prop :=
  ((∃ outcome, (SqliteStore.completeWatchRun db request).2 = .ok outcome) →
      PayloadAgrees request.tenantId db (SqliteStore.completeWatchRun db request).1) ∧
    ((∃ outcome, (D1Store.completeWatchRun db request).2 = .ok outcome) →
      PayloadAgrees request.tenantId db (D1Store.completeWatchRun db request).1) ∧
    ((∃ outcome, (SqliteStore.completeWatchRun db request).2 = .ok outcome) →
      (∃ outcome, (D1Store.completeWatchRun db request).2 = .ok outcome) →
      ∀ d ∈ (SqliteStore.completeWatchRun db request).1.deliveries ++
          (D1Store.completeWatchRun db request).1.deliveries,
        d.key ∉ db.deliveries.map Delivery.key → ∀ record ∈ d.payload.records,
          (SqliteStore.completeWatchRun db request).1.content request.tenantId record.identity =
            (D1Store.completeWatchRun db request).1.content request.tenantId record.identity)

/-- The first and the last record of every identity that is new to the watch are the same, if the
SQLite adapter commits the completion and inserts its notification. -/
def CompleteWatchRun.RepeatsAlike (request : CompleteWatchRun) (db : Db) : Prop :=
  Adapter.sqlite.CanComplete db request →
    (∃ delivery, request.delivery = some delivery ∧
      (request.tenantId, delivery.deliveryId) ∉ db.deliveries.map Delivery.key) →
    ∀ identity,
      (request.tenantId, request.watchId, identity) ∉ db.watchRecords.map WatchRecordRow.key →
        request.firstRecord identity = request.lastRecord identity

section Told

variable {db : Db} {request : CompleteWatchRun}

/-- A record of a notification that a completion inserts is the first one of an identity of the
request that is new to the watch. -/
private lemma told_eq {adapter : Adapter} {d : Delivery}
    (hd : d ∈ (adapter.committed db request).deliveries)
    (hnew : d.key ∉ db.deliveries.map Delivery.key) {record : Record}
    (hrecord : record ∈ d.payload.records) :
    (∃ delivery, request.delivery = some delivery ∧
        (request.tenantId, delivery.deliveryId) ∉ db.deliveries.map Delivery.key) ∧
      record.identity ∈ request.records.map Record.identity ∧
      (request.tenantId, request.watchId, record.identity) ∉
        db.watchRecords.map WatchRecordRow.key ∧
      request.firstRecord record.identity = some record := by
  rcases adapter.mem_deliveriesAfter.mp hd with hold | ⟨delivery, hdelivery, -, hfree, rfl⟩
  · exact absurd (List.mem_map_of_mem hold) hnew
  · have hmem := adapter.mem_newRecords.mp (List.mem_map_of_mem (f := Record.identity) hrecord)
    exact ⟨⟨delivery, hdelivery, hfree⟩, hmem.1, hmem.2, Adapter.first_of_mem_newRecords hrecord⟩

/-- A commit in an adapter, as a change of the database. -/
private lemma committed_of_ok [ExternalParsers] (adapter : Adapter) (hdb : db.WellFormed)
    (h : ∃ outcome, (adapter.completeWatchRun db request).2 = .ok outcome) :
    adapter.CanComplete db request ∧
      (adapter.completeWatchRun db request).1 = adapter.committed db request := by
  obtain ⟨outcome, h⟩ := h
  rcases adapter.completeWatchRun_cases request hdb.toKeysUnique
    (fun w hw => (hdb.intervals w hw).1) with ⟨e, heq⟩ | ⟨-, hcan, heq⟩ | ⟨-, -, -, message, heq⟩
  · rw [heq] at h
    exact absurd h (by simp)
  · exact ⟨hcan, by rw [heq]⟩
  · rw [heq] at h
    exact absurd h (by simp)

/-- **What is told and what is stored**: on every store state, for every accepted completion, the
notifications tell what is stored and both adapters store the same exactly when the first and the
last record of every identity that is new to the watch are the same, or the SQLite adapter does not
commit the completion or insert its notification.

**Proof sketch.** Notifications tell first observations. The D1 adapter stores these too, the SQLite
adapter stores the last ones. -/
theorem payload_content_iff [ExternalParsers] (db : Db) (hdb : db.WellFormed)
    (request : CompleteWatchRun) (hvalid : request.validate = .ok ()) :
    request.ToldAsStored db ↔ request.RepeatsAlike db := by
  constructor
  · rintro ⟨hsqlite, -, -⟩ hcan ⟨delivery, hdelivery, hfree⟩ identity hnew
    -- the SQLite adapter commits
    obtain ⟨-, heq⟩ : _ ∧ _ := by
      rcases SqliteStore.completeWatchRun_eq request hdb.watches hvalid with h | ⟨hnot, -⟩
      · exact h
      · exact absurd hcan hnot
    have hagrees := hsqlite ⟨_, by rw [heq]⟩
    rw [heq] at hagrees
    by_cases hmem : identity ∈ request.records.map Record.identity
    · obtain ⟨record, hrecord, rfl⟩ := List.mem_map.mp
        (Adapter.sqlite.mem_newRecords.mpr ⟨hmem, hnew⟩)
      have hrow := Adapter.sqlite.mem_deliveriesAfter.mpr (.inr ⟨delivery, hdelivery,
        List.ne_nil_of_mem hrecord, hfree, rfl⟩)
      rw [Adapter.first_of_mem_newRecords hrecord, ← hagrees _ hrow hfree record hrecord,
        SqliteStore.content_committed hdb.records hmem]
    · -- the request has no record with the identity
      have hnone : ∀ record ∈ request.records, record.identity ≠ identity :=
        fun record hrecord hsame => hmem (hsame ▸ List.mem_map_of_mem hrecord)
      rw [CompleteWatchRun.firstRecord, CompleteWatchRun.lastRecord,
        List.find?_eq_none.mpr fun record hrecord => by simpa using hnone record hrecord,
        List.filter_eq_nil_iff.mpr fun record hrecord => by simpa using hnone record hrecord]
      rfl
  · intro halike
    refine ⟨fun hok => ?_, fun hok => ?_, fun hok hok' => ?_⟩
    · obtain ⟨hcan, heq⟩ := committed_of_ok .sqlite hdb hok
      change PayloadAgrees _ _ (Adapter.sqlite.completeWatchRun db request).1
      rw [heq]
      intro d hd hnew record hrecord
      obtain ⟨hinserts, hmem, hfresh, hfirst⟩ := told_eq hd hnew hrecord
      rw [SqliteStore.content_committed hdb.records hmem, ← halike hcan hinserts _ hfresh, hfirst]
    · obtain ⟨-, heq⟩ := committed_of_ok .d1 hdb hok
      change PayloadAgrees _ _ (Adapter.d1.completeWatchRun db request).1
      rw [heq]
      intro d hd hnew record hrecord
      obtain ⟨-, hmem, -, hfirst⟩ := told_eq hd hnew hrecord
      rw [D1Store.content_committed hdb.records hmem, hfirst]
    · obtain ⟨hcan, heq⟩ := committed_of_ok .sqlite hdb hok
      obtain ⟨-, heq'⟩ := committed_of_ok .d1 hdb hok'
      change ∀ d ∈ (Adapter.sqlite.completeWatchRun db request).1.deliveries ++
          (Adapter.d1.completeWatchRun db request).1.deliveries, _ → ∀ record ∈ _,
        (Adapter.sqlite.completeWatchRun db request).1.content _ _ =
          (Adapter.d1.completeWatchRun db request).1.content _ _
      rw [heq, heq']
      intro d hd hnew record hrecord
      obtain ⟨hinserts, hmem, hfresh, hfirst⟩ : _ ∧ _ ∧ _ ∧ _ := by
        rcases List.mem_append.mp hd with hd | hd
        · exact told_eq hd hnew hrecord
        · exact told_eq hd hnew hrecord
      rw [SqliteStore.content_committed hdb.records hmem,
        D1Store.content_committed hdb.records hmem, halike hcan hinserts _ hfresh]

end Told

/-! ## A repeated identity -/

/-- A story with a title. -/
def titled (title : String) : Record :=
  ⟨⟨"1", RecordId.isValid_one⟩, ⟨"hn", SourceId.isValid_hn⟩, "story", "https://example.com/",
    some title, none, none, none, none, .obj []⟩

/-- A run after which a run of a watch is under way. -/
def startedOps : List StoreOp :=
  [.createWatch ⟨"t", "w", ⟨"q", none, none, none⟩, [], 60, .obj [], true, 0, none⟩,
    .claimDueWatch ⟨"t", 10, "o", 30⟩,
    .startWatchRun ⟨"t", "w", "r", "k", "o", 10⟩]

/-- A completion with two records of one identity. -/
def repeatedRequest (first second : String) : CompleteWatchRun :=
  ⟨"t", "w", "r", "o", 20, [titled first, titled second], .obj [], none, some ⟨"d", .obj []⟩⟩

/-- The equivalence after `startedOps`, for a record that is observed twice alike. -/
theorem payload_content_alike :
    letI : ExternalParsers := .ofHost "example.com"
    (repeatedRequest "one" "one").ToldAsStored (Adapter.sqlite.store.run startedOps) := by
  let _ : ExternalParsers := .ofHost "example.com"
  refine (payload_content_iff _ (Adapter.sqlite.wellFormed_run startedOps)
    (repeatedRequest "one" "one") rfl).mpr ?_
  intro _ _ identity _
  by_cases hidentity : (titled "one").identity = identity <;>
    simp [CompleteWatchRun.firstRecord, CompleteWatchRun.lastRecord, repeatedRequest, hidentity]

set_option maxRecDepth 100000 in
/-- After two different records of one identity, the notification tells the first title, and the
second one is stored. -/
private lemma repeated_titles :
    letI : ExternalParsers := .ofHost "example.com"
    let db := Adapter.sqlite.store.run startedOps
    let result := SqliteStore.completeWatchRun db (repeatedRequest "one" "two")
    result.2.toOption.isSome = true ∧ db.deliveries.map Delivery.key = [] ∧
      result.1.deliveries.map (fun d => d.payload.records.map fun r => (r.title, r.identity)) =
        [[(some "one", (titled "one").identity)]] ∧
      (result.1.content "t" (titled "one").identity).map Record.title = some (some "two") := by
  decide

/-- A notification does not always tell what is stored: after two different records of one identity,
the SQLite adapter tells the first one and stores the second one. -/
theorem payload_content_differs :
    letI : ExternalParsers := .ofHost "example.com"
    ¬ ∀ (ops : List StoreOp) (request : CompleteWatchRun), request.validate = .ok () →
      request.ToldAsStored (Adapter.sqlite.store.run ops) := by
  let _ : ExternalParsers := .ofHost "example.com"
  intro h
  obtain ⟨hsome, hnone, htold, hstored⟩ := repeated_titles
  have hagrees := (h startedOps (repeatedRequest "one" "two") rfl).1 (by
    cases hresult : (SqliteStore.completeWatchRun (Adapter.sqlite.store.run startedOps)
        (repeatedRequest "one" "two")).2 with
    | ok outcome => exact ⟨outcome, rfl⟩
    | error e =>
      rw [hresult] at hsome
      exact absurd hsome (by simp [Except.toOption]))
  obtain ⟨d, rest, hd, hpayload, -⟩ := List.map_eq_cons_iff.mp htold
  obtain ⟨record, rest', hrecords, hrecord, -⟩ := List.map_eq_cons_iff.mp hpayload
  obtain ⟨htitle, hidentity⟩ := Prod.mk.inj hrecord
  have hcontent := hagrees d (hd ▸ List.mem_cons_self ..) (by rw [hnone]; exact List.not_mem_nil)
    record (hrecords ▸ List.mem_cons_self ..)
  rw [hidentity] at hcontent
  change (Db.content _ "t" _) = _ at hcontent
  rw [hcontent, Option.map_some, htitle] at hstored
  exact absurd hstored (by decide)

end Comsat
