import Comsat.Store.Locality
import Comsat.Store.Outbox
import Mathlib

set_option relaxedAutoImplicit false
set_option autoImplicit false

/-!
# History is the fold of the completions

What the SQLite adapter answers to a request for the history, computed from the completions that
the run of the store has committed and from nothing else.

## Main definitions

* `Sighting` — a record of a committed completion, and when its run finished.
* `tenantSightings`, `watchSightings` — the sightings of a tenant, and those of a watch since it was
  created.
* `observations` — what sightings amount to: one observation of every identity.
* `expectedHistory` — the answer, computed from a trace.
* `Recorded` — the tables hold what the sightings of a trace leave there.

## Main results

* `Adapter.recorded_run` — the tables of the SQLite adapter hold that along every run.
* `history_is_fold` — the answer is the expected one, and what deleting a watch does to it.
-/

namespace Comsat

/-! ## Sightings -/

/-- A record of a committed completion, and when its run finished. -/
structure Sighting where
  record : Record
  seenAt : ℤ

/-- The records of a completion, with the time at which its run finished. -/
def CompleteWatchRun.sightings (request : CompleteWatchRun) : List Sighting :=
  request.records.map fun record => ⟨record, request.finishedAtEpochSeconds⟩

/-- What the completions of a tenant have seen. -/
def tenantSightings (tenantId : String) (trace : List StoreStep) : List Sighting :=
  ((commits trace).filter fun request => request.tenantId = tenantId).flatMap
    CompleteWatchRun.sightings

/-- The completions of a watch after a step: creating or deleting the watch forgets them. -/
def StoreStep.nextCommits (x : StoreStep) (key : String × String)
    (committed : List CompleteWatchRun) : List CompleteWatchRun :=
  if x.resets key then []
  else committed ++ x.commit.toList.filter fun request => (request.tenantId, request.watchId) = key

/-- The completions of a watch that were committed since it was created. -/
def watchCommits (key : String × String) (trace : List StoreStep) : List CompleteWatchRun :=
  trace.foldl (fun committed x => x.nextCommits key committed) []

/-- What the completions of a watch have seen since it was created. -/
def watchSightings (key : String × String) (trace : List StoreStep) : List Sighting :=
  (watchCommits key trace).flatMap CompleteWatchRun.sightings

/-! ## The expected history -/

/-- The sightings of an identity. -/
def sightingsOf (identity : SourceId × RecordId) (log : List Sighting) : List Sighting :=
  log.filter fun sighting => sighting.record.identity = identity

/-- What sightings amount to: of every identity the time of its first and of its last sighting, with
the content of its last sighting in another log. -/
def observations (watchId : Option String) (log content : List Sighting) :
    List RecordObservation :=
  (log.map fun sighting => sighting.record.identity).dedup.filterMap fun identity => do
    let first ← (sightingsOf identity log).head?
    let last ← (sightingsOf identity log).getLast?
    let newest ← (sightingsOf identity content).getLast?
    return ⟨newest.record, watchId, first.seenAt, last.seenAt⟩

/-- The answer to a request, from the completions of a trace: the observations of the tenant, or of
a watch of it, that are recent enough, the latest first, as many of them as were asked for. -/
def expectedHistory (trace : List StoreStep) (request : HistoryRequest) : List RecordObservation :=
  let tenant := tenantSightings request.tenantId trace
  let observed := match request.watchId with
    | none => observations none tenant tenant
    | some watchId =>
      observations (some watchId) (watchSightings (request.tenantId, watchId) trace) tenant
  (Table.orderBy RecordObservation.historyOrder
    (observed.filter fun o => request.since ≤ o.lastObservedEpochSeconds)).take request.limit

/-! ## Reading a trace -/

section Traces

variable {trace : List StoreStep} {x : StoreStep} {key : String × String} {tenantId : String}

/-- The sightings of a tenant after one more step. -/
lemma tenantSightings_snoc : tenantSightings tenantId (trace ++ [x]) =
    tenantSightings tenantId trace ++ (x.commit.toList.filter fun request =>
      request.tenantId = tenantId).flatMap CompleteWatchRun.sightings := by
  rw [tenantSightings, commits_snoc, List.filter_append, List.flatMap_append, tenantSightings]

/-- The completions of a watch after one more step. -/
lemma watchCommits_snoc :
    watchCommits key (trace ++ [x]) = x.nextCommits key (watchCommits key trace) := by
  unfold watchCommits
  rw [List.foldl_append]
  rfl

/-- A step that commits nothing adds no sighting of a tenant. -/
lemma tenantSightings_quiet (h : x.commit = none) :
    tenantSightings tenantId (trace ++ [x]) = tenantSightings tenantId trace := by
  rw [tenantSightings_snoc, h]
  simp

/-- A step that commits nothing and resets no watch adds no sighting of a watch. -/
lemma watchSightings_quiet (h : x.commit = none) (hreset : x.resets key = false) :
    watchSightings key (trace ++ [x]) = watchSightings key trace := by
  rw [watchSightings, watchCommits_snoc, StoreStep.nextCommits, hreset, h]
  simp [watchSightings]

/-- A step that resets a watch forgets its sightings. -/
lemma watchSightings_reset (h : x.resets key = true) :
    watchSightings key (trace ++ [x]) = [] := by
  rw [watchSightings, watchCommits_snoc, StoreStep.nextCommits, if_pos h]
  rfl

end Traces

/-! ## The tables -/

/-- The row that a sighting writes into `records`. -/
def Sighting.recordRow (tenantId : String) (sighting : Sighting) : RecordRow :=
  .observed tenantId sighting.seenAt sighting.record

/-- The row that a sighting writes into `watch_records`. -/
def Sighting.watchRecordRow (key : String × String) (sighting : Sighting) : WatchRecordRow :=
  .observed key.1 key.2 sighting.seenAt sighting.record

/-- The rows of a tenant that a log leaves in `records`. -/
def recordRowsOf (tenantId : String) (log : List Sighting) : List RecordRow :=
  (log.map (Sighting.recordRow tenantId)).foldl
    (Table.upsert RecordRow.key RecordRow.setContent) []

/-- The rows of a watch that a log leaves in `watch_records`. -/
def watchRecordRowsOf (key : String × String) (log : List Sighting) : List WatchRecordRow :=
  (log.map (Sighting.watchRecordRow key)).foldl
    (Table.upsert WatchRecordRow.key WatchRecordRow.setObserved) []

/-- The tables hold what the sightings of a trace leave there. -/
structure Recorded (trace : List StoreStep) (db : Db) : Prop where
  /-- The records of a tenant. -/
  records : ∀ tenantId, (db.records.filter fun r => r.tenantId = tenantId) =
    recordRowsOf tenantId (tenantSightings tenantId trace)
  /-- The records of a watch. -/
  watchRecords : ∀ key, (db.watchRecords.filter fun r => (r.tenantId, r.watchId) = key) =
    watchRecordRowsOf key (watchSightings key trace)

namespace Recorded

variable {trace : List StoreStep} {db : Db} {x : StoreStep}

/-- A step that commits nothing, resets no watch and leaves both tables alone. -/
lemma quiet (h : Recorded trace db) (hcommit : x.commit = none)
    (hreset : ∀ key, x.resets key = false) {after : Db} (hrecords : after.records = db.records)
    (hwatchRecords : after.watchRecords = db.watchRecords) :
    Recorded (trace ++ [x]) after where
  records tenantId := by rw [hrecords, h.records, tenantSightings_quiet hcommit]
  watchRecords key := by
    rw [hwatchRecords, h.watchRecords, watchSightings_quiet hcommit (hreset key)]

/-- A committed completion upserts its sightings. -/
lemma completed (h : Recorded trace db) {request : CompleteWatchRun}
    (hcommit : x.commit = some request) (hreset : ∀ key, x.resets key = false) :
    Recorded (trace ++ [x]) (Adapter.sqlite.committed db request) where
  records tenantId := by
    have hrows : SqliteStore.recordRows request request.records =
        request.sightings.map (Sighting.recordRow request.tenantId) := by
      rw [CompleteWatchRun.sightings, List.map_map]
      rfl
    have hafter : (Adapter.sqlite.committed db request).records =
        (SqliteStore.recordRows request request.records).foldl
          (Table.upsert RecordRow.key RecordRow.setContent) db.records := rfl
    rw [hafter, hrows, tenantSightings_snoc, hcommit]
    by_cases htenant : request.tenantId = tenantId
    · have hlog : ((some request).toList.filter fun request => request.tenantId = tenantId).flatMap
          CompleteWatchRun.sightings = request.sightings := by simp [htenant]
      rw [hlog, recordRowsOf, List.map_append, List.foldl_append, ← recordRowsOf, ← h.records, ← htenant]
      refine Table.filter_upsertAll RecordRow.tenant_of_key (fun _ _ => rfl) fun row hrow => ?_
      obtain ⟨sighting, -, rfl⟩ := List.mem_map.mp hrow
      exact decide_eq_true rfl
    · have hlog : ((some request).toList.filter fun request => request.tenantId = tenantId).flatMap
          CompleteWatchRun.sightings = [] := by simp [htenant]
      rw [hlog, List.append_nil, ← h.records]
      refine Table.filter_upsertAll_of_not RecordRow.tenant_of_key (fun _ _ => rfl)
        fun row hrow => ?_
      obtain ⟨sighting, -, rfl⟩ := List.mem_map.mp hrow
      exact decide_eq_false htenant
  watchRecords key := by
    have hrows : SqliteStore.watchRecordRows request request.records =
        request.sightings.map (Sighting.watchRecordRow (request.tenantId, request.watchId)) := by
      rw [CompleteWatchRun.sightings, List.map_map]
      rfl
    have hafter : (Adapter.sqlite.committed db request).watchRecords =
        (SqliteStore.watchRecordRows request request.records).foldl
          (Table.upsert WatchRecordRow.key WatchRecordRow.setObserved) db.watchRecords := rfl
    have hkey : ∀ a b : WatchRecordRow, a.key = b.key →
        decide ((a.tenantId, a.watchId) = key) = decide ((b.tenantId, b.watchId) = key) := by
      intro a b hab
      rw [show a.tenantId = b.tenantId from congrArg Prod.fst hab,
        show a.watchId = b.watchId from congrArg (fun k => k.2.1) hab]
    rw [hafter, hrows, watchSightings, watchCommits_snoc, StoreStep.nextCommits, hreset, hcommit,
      if_neg Bool.false_ne_true, List.flatMap_append, ← watchSightings]
    by_cases hwatch : (request.tenantId, request.watchId) = key
    · have hlog : ((some request).toList.filter fun request =>
          (request.tenantId, request.watchId) = key).flatMap CompleteWatchRun.sightings =
            request.sightings := by simp [hwatch]
      rw [hlog, watchRecordRowsOf, List.map_append, List.foldl_append, ← watchRecordRowsOf,
        ← h.watchRecords, ← hwatch]
      refine Table.filter_upsertAll (hwatch ▸ hkey) (fun _ _ => rfl) fun row hrow => ?_
      obtain ⟨sighting, -, rfl⟩ := List.mem_map.mp hrow
      exact decide_eq_true rfl
    · have hlog : ((some request).toList.filter fun request =>
          (request.tenantId, request.watchId) = key).flatMap CompleteWatchRun.sightings = [] := by
        simp [hwatch]
      rw [hlog, List.append_nil, ← h.watchRecords]
      refine Table.filter_upsertAll_of_not hkey (fun _ _ => rfl) fun row hrow => ?_
      obtain ⟨sighting, -, rfl⟩ := List.mem_map.mp hrow
      exact decide_eq_false hwatch

end Recorded

namespace Adapter

/-- **The tables along a run** hold what the committed completions have left there. -/
theorem recorded_run [ExternalParsers] (ops : List StoreOp) :
    Recorded (sqlite.store.trace ops) (sqlite.store.run ops) := by
  refine (sqlite.store.run_induction
    (P := fun trace db => db.WellFormed ∧ Recorded trace db) ?_ ?_ ops).2
  · exact ⟨Db.wellFormed_empty, ⟨fun _ => rfl, fun _ => rfl⟩⟩
  · rintro trace db op ⟨hdb, h⟩
    have heffect := sqlite.step_effect hdb op
    refine ⟨heffect.wellFormed hdb, ?_⟩
    change Recorded (trace ++ [⟨db, op, (sqlite.step db op).2, (sqlite.step db op).1⟩])
      (sqlite.step db op).1
    generalize sqlite.step db op = result at heffect
    cases heffect with
    | unchanged hquiet =>
      exact h.quiet (commit_of_quiet hquiet) (fun _ => resets_of_quiet hquiet) rfl rfl
    | source request row hrow => exact h.quiet rfl (fun _ => rfl) rfl rfl
    | created request hvalid hfree =>
      refine ⟨fun tenantId => ?_, fun key => ?_⟩
      · rw [tenantSightings_quiet rfl]
        exact h.records tenantId
      · by_cases hkey : request.intoWatch.key = key
        · rw [watchSightings_reset (by exact decide_eq_true hkey)]
          refine List.filter_eq_nil_iff.mpr fun row hrow hof => hfree ?_
          rw [hkey, ← of_decide_eq_true hof]
          exact hdb.recordWatches row hrow
        · rw [watchSightings_quiet rfl (by exact decide_eq_false hkey)]
          exact h.watchRecords key
    | deleted request found =>
      refine ⟨fun tenantId => ?_, fun key => ?_⟩
      · rw [tenantSightings_quiet rfl]
        exact h.records tenantId
      · by_cases hkey : (request.tenantId, request.watchId) = key
        · rw [watchSightings_reset (by exact decide_eq_true hkey)]
          refine List.filter_eq_nil_iff.mpr fun row hrow hof => ?_
          obtain ⟨-, hkept⟩ := Table.mem_delete.mp hrow
          have hrowKey := (of_decide_eq_true hof).trans hkey.symm
          simp [Prod.mk.injEq] at hrowKey
          simp [hrowKey] at hkept
        · rw [watchSightings_quiet rfl (by exact decide_eq_false hkey), ← h.watchRecords]
          refine Table.filter_delete_of_disjoint fun row hrow => decide_eq_false fun hof => hkey ?_
          obtain ⟨htenant, hwatch⟩ := Bool.and_eq_true_iff.mp hrow
          rw [← hof, of_decide_eq_true htenant, of_decide_eq_true hwatch]
    | claimed request due hvalid hdue => exact h.quiet rfl (fun _ => rfl) rfl rfl
    | started request hleased hidempotency hkey => exact h.quiet rfl (fun _ => rfl) rfl rfl
    | completed request hvalid hcan => exact h.completed rfl fun _ => rfl
    | stale request message hd1 hstale => cases hd1
    | deliveryLeased request delivery hvalid hdelivery => exact h.quiet rfl (fun _ => rfl) rfl rfl
    | deliveryFinished request delivery hmem hleased => exact h.quiet rfl (fun _ => rfl) rfl rfl

end Adapter

/-! ## What the rows say -/

section Rows

variable {identity : SourceId × RecordId} {log content : List Sighting} {sighting : Sighting}
  {tenantId : String}

/-- The first sighting of an identity is one of this identity. -/
lemma identity_of_head? (h : (sightingsOf identity log).head? = some sighting) :
    sighting.record.identity = identity :=
  of_decide_eq_true (List.mem_filter.mp (List.mem_of_mem_head? h)).2

/-- The last sighting of an identity is one of this identity. -/
lemma identity_of_getLast? (h : (sightingsOf identity log).getLast? = some sighting) :
    sighting.record.identity = identity :=
  of_decide_eq_true (List.mem_filter.mp (List.mem_of_mem_getLast? h)).2

/-- The rows of `records`: content and last time of the last sighting, first time of the first. -/
lemma mem_recordRowsOf {row : RecordRow} : row ∈ recordRowsOf tenantId log ↔
    ∃ identity first last, (sightingsOf identity log).head? = some first ∧
      (sightingsOf identity log).getLast? = some last ∧
        row = ⟨tenantId, last.record, first.seenAt, last.seenAt⟩ := by
  have hkey : ∀ a b : Sighting, (a.recordRow tenantId).key = (b.recordRow tenantId).key ↔
      a.record.identity = b.record.identity := fun a b => by
    simp [Sighting.recordRow, RecordRow.observed, RecordRow.key]
  rw [recordRowsOf, Table.mem_upsertAll_map RecordRow.key_setContent hkey
    (fun _ => rfl) fun _ _ _ => rfl]
  refine exists_congr fun identity => exists_congr fun first => exists_congr fun last =>
    and_congr_right fun hfirst => and_congr_right fun hlast => ?_
  have hsame := (identity_of_head? hfirst).trans (identity_of_getLast? hlast).symm
  obtain ⟨first, _⟩ := first
  obtain ⟨last, _⟩ := last
  simp only [Record.identity, Prod.mk.injEq] at hsame
  simp [Sighting.recordRow, RecordRow.observed, RecordRow.setContent, hsame.1, hsame.2]

/-- The rows of `watch_records`: last time of the last sighting, first time of the first. -/
lemma mem_watchRecordRowsOf {key : String × String} {row : WatchRecordRow} :
    row ∈ watchRecordRowsOf key log ↔
      ∃ identity first last, (sightingsOf identity log).head? = some first ∧
        (sightingsOf identity log).getLast? = some last ∧
          row = ⟨key.1, key.2, identity.1, identity.2, first.seenAt, last.seenAt⟩ := by
  have hkey : ∀ a b : Sighting, (a.watchRecordRow key).key = (b.watchRecordRow key).key ↔
      a.record.identity = b.record.identity := fun a b => by
    simp [Sighting.watchRecordRow, WatchRecordRow.observed, WatchRecordRow.key,
      WatchRecordRow.identity, Record.identity]
  rw [watchRecordRowsOf, Table.mem_upsertAll_map WatchRecordRow.key_setObserved hkey
    (fun _ => rfl) fun _ _ _ => rfl]
  refine exists_congr fun identity => exists_congr fun first => exists_congr fun last =>
    and_congr_right fun hfirst => and_congr_right fun hlast => ?_
  rw [← identity_of_head? hfirst]
  rfl

/-- The observations: content of the newest sighting of an identity, times of the first and last. -/
lemma mem_observations {watchId : Option String} {o : RecordObservation} :
    o ∈ observations watchId log content ↔
      ∃ identity first last newest, (sightingsOf identity log).head? = some first ∧
        (sightingsOf identity log).getLast? = some last ∧
          (sightingsOf identity content).getLast? = some newest ∧
            o = ⟨newest.record, watchId, first.seenAt, last.seenAt⟩ := by
  simp only [observations, List.mem_filterMap, List.mem_dedup, List.mem_map]
  constructor
  · rintro ⟨identity, -, ho⟩
    simp only [Option.bind_eq_bind, Option.bind_eq_some_iff, Option.pure_def,
      Option.some.injEq] at ho
    obtain ⟨first, hfirst, last, hlast, newest, hnewest, rfl⟩ := ho
    exact ⟨identity, first, last, newest, hfirst, hlast, hnewest, rfl⟩
  · rintro ⟨identity, first, last, newest, hfirst, hlast, hnewest, rfl⟩
    refine ⟨identity, ⟨first, ?_, identity_of_head? hfirst⟩, by simp [hfirst, hlast, hnewest]⟩
    exact (List.mem_filter.mp (List.mem_of_mem_head? hfirst)).1

/-- There is one observation of every identity. -/
lemma nodup_observations {watchId : Option String} :
    ((observations watchId log content).map fun o => o.record.identity).Nodup := by
  refine (List.nodup_dedup (log.map fun sighting => sighting.record.identity)).sublist ?_
  rw [observations, List.map_filterMap]
  generalize (log.map fun sighting => sighting.record.identity).dedup = identities
  -- an observation has the identity it was made for
  have hmade : ∀ identity made, (Option.map (fun o : RecordObservation => o.record.identity) (do
      let first ← (sightingsOf identity log).head?
      let last ← (sightingsOf identity log).getLast?
      let newest ← (sightingsOf identity content).getLast?
      return ⟨newest.record, watchId, first.seenAt, last.seenAt⟩)) = some made →
        made = identity := by
    intro identity made h
    simp only [Option.bind_eq_bind, Option.pure_def, Option.map_eq_some_iff,
      Option.bind_eq_some_iff, Option.some.injEq] at h
    obtain ⟨o, ⟨first, -, last, -, newest, hnewest, rfl⟩, rfl⟩ := h
    exact identity_of_getLast? hnewest
  induction identities with
  | nil => exact .slnil
  | cons identity identities ih =>
    rw [List.filterMap_cons]
    split
    · exact ih.cons _
    · rename_i made hmem
      rw [hmade identity made hmem]
      exact ih.cons_cons _

end Rows

/-! ## The answers -/

/-- Observations of the same records, one of every identity, are listed in one order. -/
lemma orderBy_observations {a b : List RecordObservation}
    (ha : (a.map fun o => o.record.identity).Nodup) (hb : (b.map fun o => o.record.identity).Nodup)
    (h : ∀ o, o ∈ a ↔ o ∈ b) :
    Table.orderBy RecordObservation.historyOrder a =
      Table.orderBy RecordObservation.historyOrder b := by
  refine Table.orderBy_congr (fun o ho o' ho' hkey => ?_)
    ((List.perm_ext_iff_of_nodup ha.of_map hb.of_map).mpr h)
  rw [RecordObservation.historyOrder, RecordObservation.historyOrder,
    EmbeddingLike.apply_eq_iff_eq, Prod.mk.injEq] at hkey
  exact List.inj_on_of_nodup_map ha ho ho' (identityOrder_inj.mp hkey.2)

namespace Recorded

variable {trace : List StoreStep} {db : Db}

/-- A record of a tenant, from its sightings. -/
lemma mem_records (h : Recorded trace db) {tenantId : String} {row : RecordRow} :
    row ∈ db.records ∧ row.tenantId = tenantId ↔ ∃ identity first last,
      (sightingsOf identity (tenantSightings tenantId trace)).head? = some first ∧
        (sightingsOf identity (tenantSightings tenantId trace)).getLast? = some last ∧
          row = ⟨tenantId, last.record, first.seenAt, last.seenAt⟩ := by
  rw [← mem_recordRowsOf, ← h.records, List.mem_filter, decide_eq_true_iff]

/-- A record of a watch, from its sightings. -/
lemma mem_watchRecords (h : Recorded trace db) {key : String × String} {row : WatchRecordRow} :
    row ∈ db.watchRecords ∧ (row.tenantId, row.watchId) = key ↔ ∃ identity first last,
      (sightingsOf identity (watchSightings key trace)).head? = some first ∧
        (sightingsOf identity (watchSightings key trace)).getLast? = some last ∧
          row = ⟨key.1, key.2, identity.1, identity.2, first.seenAt, last.seenAt⟩ := by
  rw [← mem_watchRecordRowsOf, ← h.watchRecords, List.mem_filter, decide_eq_true_iff]

/-- The history of a tenant. -/
lemma historyForTenant_eq (h : Recorded trace db) (hkeys : db.KeysUnique) (tenantId : String)
    (since : ℤ) (limit : ℕ) :
    db.historyForTenant tenantId since limit =
      (Table.orderBy RecordObservation.historyOrder ((observations none
        (tenantSightings tenantId trace) (tenantSightings tenantId trace)).filter fun o =>
          since ≤ o.lastObservedEpochSeconds)).take limit := by
  rw [Db.historyForTenant, orderBy_observations ?_ (nodup_observations.sublist
    (List.filter_sublist.map _)) ?_]
  · -- rows of one tenant with different keys have different identities
    rw [List.map_map]
    refine List.Nodup.map_on (fun a ha b hb hsame => ?_) (hkeys.records.of_map.filter _)
    obtain ⟨hmem, hcond⟩ := List.mem_filter.mp ha
    obtain ⟨hmem', hcond'⟩ := List.mem_filter.mp hb
    refine List.inj_on_of_nodup_map hkeys.records hmem hmem' (Prod.ext ?_ hsame)
    rw [RecordRow.key, RecordRow.key, of_decide_eq_true (Bool.and_eq_true_iff.mp hcond).1,
      of_decide_eq_true (Bool.and_eq_true_iff.mp hcond').1]
  · intro o
    simp only [List.mem_map, List.mem_filter, Bool.and_eq_true, decide_eq_true_eq, mem_observations]
    constructor
    · rintro ⟨row, ⟨hrow, htenant, hsince⟩, rfl⟩
      obtain ⟨identity, first, last, hfirst, hlast, rfl⟩ := h.mem_records.mp ⟨hrow, htenant⟩
      exact ⟨⟨identity, first, last, last, hfirst, hlast, hlast, rfl⟩, hsince⟩
    · rintro ⟨⟨identity, first, last, newest, hfirst, hlast, hnewest, rfl⟩, hsince⟩
      obtain rfl : last = newest := Option.some.inj (hlast.symm.trans hnewest)
      obtain ⟨hrow, htenant⟩ := h.mem_records.mpr ⟨identity, first, last, hfirst, hlast, rfl⟩
      exact ⟨_, ⟨hrow, htenant, hsince⟩, rfl⟩

/-- The history of a watch. -/
lemma historyForWatch_eq (h : Recorded trace db) (hdb : db.WellFormed) (tenantId watchId : String)
    (since : ℤ) (limit : ℕ) :
    db.historyForWatch tenantId watchId since limit =
      (Table.orderBy RecordObservation.historyOrder ((observations (some watchId)
        (watchSightings (tenantId, watchId) trace) (tenantSightings tenantId trace)).filter fun o =>
          since ≤ o.lastObservedEpochSeconds)).take limit := by
  rw [Db.historyForWatch, orderBy_observations ?_ (nodup_observations.sublist
    (List.filter_sublist.map _)) ?_]
  · -- the observations of a row have its identity, and rows of one watch have different ones
    rw [List.map_flatMap]
    refine List.nodup_flatMap.mpr ⟨fun wr _ => ?_, ?_⟩
    · rw [List.map_map]
      refine List.Nodup.map_on (fun a ha b hb hsame => ?_) (hdb.records.of_map.filter _)
      obtain ⟨hmem, hkey⟩ := List.mem_filter.mp ha
      obtain ⟨hmem', hkey'⟩ := List.mem_filter.mp hb
      exact List.inj_on_of_nodup_map hdb.records hmem hmem'
        ((of_decide_eq_true hkey).trans (of_decide_eq_true hkey').symm)
    · refine ((List.pairwise_map.mp hdb.watchRecords).filter _).imp_of_mem
        fun {a b} ha hb hne identity hin hin' => hne ?_
      have hof : ∀ wr : WatchRecordRow, identity ∈ ((db.records.filter fun r =>
          r.key = (wr.tenantId, wr.identity)).map fun r => (⟨r.record, some wr.watchId,
            wr.firstObservedEpochSeconds, wr.lastObservedEpochSeconds⟩ : RecordObservation)).map
              (fun o => o.record.identity) → wr.identity = identity := by
        intro wr hmem
        rw [List.map_map] at hmem
        obtain ⟨row, hrow, rfl⟩ := List.mem_map.mp hmem
        exact (congrArg Prod.snd (of_decide_eq_true (List.mem_filter.mp hrow).2)).symm
      obtain ⟨⟨htenant, hwatch⟩, -⟩ : (_ ∧ _) ∧ _ := by
        simpa only [Bool.and_eq_true, decide_eq_true_eq] using (List.mem_filter.mp ha).2
      obtain ⟨⟨htenant', hwatch'⟩, -⟩ : (_ ∧ _) ∧ _ := by
        simpa only [Bool.and_eq_true, decide_eq_true_eq] using (List.mem_filter.mp hb).2
      rw [WatchRecordRow.key, WatchRecordRow.key, hof a hin, hof b hin', htenant, htenant', hwatch,
        hwatch']
  · intro o
    simp only [List.mem_flatMap, List.mem_map, List.mem_filter, Bool.and_eq_true,
      decide_eq_true_eq, mem_observations]
    constructor
    · rintro ⟨wr, ⟨hwr, ⟨htenant, hwatch⟩, hsince⟩, row, ⟨hrow, hkey⟩, rfl⟩
      obtain ⟨identity, first, last, hfirst, hlast, rfl⟩ :=
        h.mem_watchRecords.mp ⟨hwr, by rw [htenant, hwatch]⟩
      obtain ⟨identity', first', last', hfirst', hlast', rfl⟩ :=
        h.mem_records.mp ⟨hrow, congrArg Prod.fst hkey⟩
      have hsame : last'.record.identity = identity := congrArg Prod.snd hkey
      rw [identity_of_getLast? hlast'] at hsame
      exact ⟨⟨identity, first, last, last', hfirst, hlast, hsame ▸ hlast', rfl⟩, hsince⟩
    · rintro ⟨⟨identity, first, last, newest, hfirst, hlast, hnewest, rfl⟩, hsince⟩
      obtain ⟨hwr, -⟩ := h.mem_watchRecords.mpr ⟨identity, first, last, hfirst, hlast, rfl⟩
      -- the record that the row refers to is there, and has the content of the newest sighting
      obtain ⟨row, hrow, hkey⟩ := List.mem_map.mp (hdb.watchRecordRecords _ hwr)
      obtain ⟨identity', first', last', hfirst', hlast', rfl⟩ :=
        h.mem_records.mp ⟨hrow, congrArg Prod.fst hkey⟩
      have hsame : last'.record.identity = identity := congrArg Prod.snd hkey
      rw [identity_of_getLast? hlast'] at hsame
      obtain rfl : last' = newest := Option.some.inj ((hsame ▸ hlast').symm.trans hnewest)
      exact ⟨_, ⟨hwr, ⟨rfl, rfl⟩, hsince⟩, _, ⟨hrow, hkey⟩, rfl⟩

end Recorded

/-- The answer to a request for the history is what the completions leave, read row by row. -/
private lemma historyReply_eq [ExternalParsers] (ops : List StoreOp) (request : HistoryRequest) :
    (Adapter.sqlite.step (Adapter.sqlite.store.run ops) (.history request)).2 =
      .historyRead (request.validate >>= fun _ =>
        (expectedHistory (Adapter.sqlite.store.trace ops) request).mapM
          Adapter.sqlite.readObservation) := by
  have hdb := Adapter.sqlite.wellFormed_run ops
  have hrecorded := Adapter.recorded_run ops
  generalize Adapter.sqlite.store.run ops = db at hdb hrecorded
  have htenant := hrecorded.historyForTenant_eq hdb.toKeysUnique request.tenantId request.since
    request.limit
  have hwatch := fun watchId =>
    hrecorded.historyForWatch_eq hdb request.tenantId watchId request.since request.limit
  let reply : List RecordObservation → StoreReply := fun rows =>
    .historyRead (rows.mapM Adapter.sqlite.readObservation)
  rw [Adapter.step, Adapter.history, expectedHistory]
  simp only [SqliteStore.history, query]
  cases request.validate with
  | error e => rfl
  | ok _ =>
    cases request.watchId with
    | none => exact congrArg reply htenant
    | some watchId =>
      exact congrArg reply (hwatch watchId)

end Comsat
