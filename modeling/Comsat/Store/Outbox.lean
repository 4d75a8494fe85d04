import Comsat.Store.Leases

set_option relaxedAutoImplicit false
set_option autoImplicit false

/-!
# The outbox notifies every record once

Which records the notifications of a watch have carried since the watch was created, and why none
of them is notified twice and none is lost.

## Main definitions

* `payloads`, `notified` — the payloads that a trace has queued for a watch since it was created,
  and the identities in them.
* `inserter` — the completion that inserted the row of an identity into `watch_records`.
* `DistinctDeliveryIds` — runs that queue notifications use different delivery identifiers.
* `OutboxInv` — the invariant.

## Main results

* `Adapter.outbox_exactly_once` — in both stores, every run notifies no identity of a watch twice,
  and notifies it exactly if the completion that inserted it queued a notification.

## Implementation notes

* Deleting a watch deletes its deliveries and its rows of `watch_records`, so both folds over the
  trace forget what they had when the watch is deleted.
-/

namespace Comsat

/-! ## Reading a trace -/

/-- The deliveries of a watch. -/
def Db.deliveriesOf (db : Db) (key : String × String) : List Delivery :=
  db.deliveries.filter fun d => (d.tenantId, d.watchId) = key

/-- Whether a step creates or deletes a watch. -/
def StoreStep.resets (x : StoreStep) (key : String × String) : Bool :=
  match x.input, x.reply with
  | .createWatch _, .watchCreated (.ok watch) => watch.key = key
  | .deleteWatch request, .watchDeleted (.ok _) => (request.tenantId, request.watchId) = key
  | _, _ => false

/-- The payloads that a step queues for a watch: those of the deliveries that were not there
before. -/
def StoreStep.newPayloads (x : StoreStep) (key : String × String) : List DeliveryPayload :=
  ((x.after.deliveriesOf key).filter fun d =>
    !x.before.deliveries.any fun e => e.key = d.key).map Delivery.payload

/-- The payloads of a watch after a step. -/
def StoreStep.nextPayloads (x : StoreStep) (key : String × String)
    (queued : List DeliveryPayload) : List DeliveryPayload :=
  if x.resets key then [] else queued ++ x.newPayloads key

/-- The payloads that a trace has queued for a watch since the watch was created. -/
def payloads (key : String × String) (trace : List StoreStep) : List DeliveryPayload :=
  trace.foldl (fun queued x => x.nextPayloads key queued) []

/-- The identities in the payloads of a watch, as often as they are there. -/
def notified (key : String × String) (trace : List StoreStep) : List (SourceId × RecordId) :=
  (payloads key trace).flatMap fun payload => payload.records.map Record.identity

/-- The completion that inserted the row of an identity, after a step. -/
def StoreStep.nextInserter (x : StoreStep) (key : String × String)
    (identity : SourceId × RecordId) (last : Option CompleteWatchRun) : Option CompleteWatchRun :=
  if (key.1, key.2, identity) ∉ x.after.watchRecords.map WatchRecordRow.key then none
  else if (key.1, key.2, identity) ∈ x.before.watchRecords.map WatchRecordRow.key then last
  else
    match x.input with
    | .completeWatchRun request => some request
    | _ => none

/-- The completion that inserted the row of an identity of a watch that is there. -/
def inserter (key : String × String) (identity : SourceId × RecordId) (trace : List StoreStep) :
    Option CompleteWatchRun :=
  trace.foldl (fun last x => x.nextInserter key identity last) none

/-- Two completions that queue notifications of a tenant under the same delivery identifier are of
the same run. -/
def DistinctDeliveryIds (ops : List StoreOp) : Prop :=
  ∀ request request' : CompleteWatchRun, ∀ delivery delivery' : WatchRunDelivery,
    .completeWatchRun request ∈ ops → .completeWatchRun request' ∈ ops →
    request.delivery = some delivery → request'.delivery = some delivery' →
    request.tenantId = request'.tenantId → delivery.deliveryId = delivery'.deliveryId →
    request.watchId = request'.watchId ∧ request.runId = request'.runId

section Traces

variable {trace : List StoreStep} {x : StoreStep} {key : String × String}
  {identity : SourceId × RecordId}

/-- The payloads after one more step. -/
lemma payloads_snoc : payloads key (trace ++ [x]) = x.nextPayloads key (payloads key trace) := by
  unfold payloads
  rw [List.foldl_append]
  rfl

/-- The inserter after one more step. -/
lemma inserter_snoc :
    inserter key identity (trace ++ [x]) =
      x.nextInserter key identity (inserter key identity trace) := by
  unfold inserter
  rw [List.foldl_append]
  rfl

/-- A step that reports no change resets no watch. -/
lemma resets_of_quiet {before after : Db} {op : StoreOp} {reply : StoreReply}
    (h : ¬ reply.Reports) : StoreStep.resets ⟨before, op, reply, after⟩ key = false := by
  unfold StoreStep.resets
  split
  · rename_i hreply
    obtain rfl : reply = _ := hreply
    exact absurd trivial h
  · rename_i hreply
    obtain rfl : reply = _ := hreply
    exact absurd trivial h
  · rfl

/-- Delivery identifiers that are distinct in a longer run are distinct in a shorter one. -/
lemma DistinctDeliveryIds.of_append {ops ops' : List StoreOp}
    (h : DistinctDeliveryIds (ops ++ ops')) : DistinctDeliveryIds ops := by
  intro request request' delivery delivery' hmem hmem'
  exact h request request' delivery delivery' (List.mem_append_left _ hmem)
    (List.mem_append_left _ hmem')

/-- A step that adds no key to the deliveries queues nothing. -/
lemma newPayloads_of_keys
    (h : ∀ d ∈ x.after.deliveries, d.key ∈ x.before.deliveries.map Delivery.key) :
    x.newPayloads key = [] := by
  unfold StoreStep.newPayloads
  rw [List.map_eq_nil_iff, List.filter_eq_nil_iff]
  intro d hd
  obtain ⟨e, he, hkey⟩ := List.mem_map.mp (h d (List.mem_filter.mp hd).1)
  simp only [Bool.not_eq_true', Bool.not_eq_false, List.any_eq_true, decide_eq_true_eq]
  exact ⟨e, he, hkey⟩

end Traces

/-! ## The invariant -/

/-- What ties the deliveries and the rows of `watch_records` to the trace. -/
structure OutboxInv (trace : List StoreStep) (db : Db) : Prop where
  /-- The deliveries of a watch carry the payloads that were queued for it. -/
  payloads : ∀ key, payloads key trace = (db.deliveriesOf key).map Delivery.payload
  /-- A delivery belongs to a run that is not running any more. -/
  runs : ∀ d ∈ db.deliveries, ∃ r ∈ db.watchRuns, r.tenantId = d.tenantId ∧
    r.watchId = d.watchId ∧ d.runId = some r.runId ∧ r.status ≠ .running
  /-- A delivery was queued by a completion of its run. -/
  queued : ∀ d ∈ db.deliveries, ∃ request delivery,
    .completeWatchRun request ∈ trace.map Machine.Step.input ∧
    request.delivery = some delivery ∧ request.tenantId = d.tenantId ∧
    delivery.deliveryId = d.deliveryId ∧ request.watchId = d.watchId ∧
    d.runId = some request.runId
  /-- No identity is notified twice. -/
  once : ∀ key, (notified key trace).Nodup
  /-- An identity has a row if some completion has inserted it. -/
  rows : ∀ key identity, (key.1, key.2, identity) ∈ db.watchRecords.map WatchRecordRow.key ↔
    (inserter key identity trace).isSome
  /-- The inserter of an identity is a completion of the watch that succeeded, with a record of the
  identity. -/
  inserted : ∀ key identity request, inserter key identity trace = some request →
    request ∈ commits trace ∧ (request.tenantId, request.watchId) = key ∧
      identity ∈ request.records.map Record.identity
  /-- An identity is notified if its inserter has queued a notification. -/
  notified : ∀ key identity, identity ∈ notified key trace ↔
    ∃ request, inserter key identity trace = some request ∧ request.delivery.isSome

namespace OutboxInv

variable {trace : List StoreStep} {db : Db}

/-- The invariant holds of the empty tables. -/
lemma init : OutboxInv [] Db.empty := by
  constructor <;> simp [Db.empty, Comsat.payloads, Comsat.notified, inserter, Db.deliveriesOf]

/-- Queueing a notification for a run that is running, under an identifier that no other run uses,
finds the identifier free. -/
lemma deliveryId_free (h : OutboxInv trace db) (hkeys : (db.watchRuns.map WatchRun.key).Nodup)
    {request : CompleteWatchRun} {delivery : WatchRunDelivery}
    (hdelivery : request.delivery = some delivery)
    (hdistinct : DistinctDeliveryIds
      (trace.map Machine.Step.input ++ [.completeWatchRun request]))
    (hrunning : ∃ r ∈ db.watchRuns, r.isRunningUnder request.tenantId request.watchId
      request.runId request.leaseOwner = true) :
    (request.tenantId, delivery.deliveryId) ∉ db.deliveries.map Delivery.key := by
  intro hmem
  obtain ⟨d, hd, hkey⟩ := List.mem_map.mp hmem
  simp only [Delivery.key, Prod.mk.injEq] at hkey
  -- the earlier delivery was queued by a completion of the same run
  obtain ⟨earlier, delivery', hearlier, hdelivery', htenant, hid, hwatch, hrunId⟩ := h.queued d hd
  obtain ⟨hsameWatch, hsameRun⟩ := hdistinct earlier request delivery' delivery
    (List.mem_append_left _ hearlier) (by simp) hdelivery' hdelivery
    (htenant.trans hkey.1) (hid.trans hkey.2)
  -- which is not running any more
  obtain ⟨r, hr, hrtenant, hrwatch, hrrun, hstatus⟩ := h.runs d hd
  obtain ⟨q, hq, hq'⟩ := hrunning
  obtain ⟨hqkey, -, hqstatus⟩ := WatchRun.isRunningUnder_iff.mp hq'
  have hrun : r.runId = request.runId := by
    rw [hrrun] at hrunId
    exact (Option.some.inj hrunId).trans hsameRun
  have hrkey : r.key = (request.tenantId, request.watchId, request.runId) := by
    rw [WatchRun.key, hrtenant, hkey.1, hrwatch, ← hwatch, hsameWatch, hrun]
  obtain rfl := Table.eq_of_key_eq hkeys hr hq (hrkey.trans hqkey.symm)
  exact hstatus hqstatus

end OutboxInv

/-! ## Deliveries and their notices -/

/-- What the outbox knows of a delivery: its key, its watch, its run and its payload. -/
def Delivery.notice (d : Delivery) :
    (String × String) × String × Option String × DeliveryPayload :=
  (d.key, d.watchId, d.runId, d.payload)

/-- Deliveries with the same notices carry the same payloads of a watch. -/
lemma payloads_congr {db db' : Db}
    (h : db'.deliveries.map Delivery.notice = db.deliveries.map Delivery.notice)
    (key : String × String) :
    (db'.deliveriesOf key).map Delivery.payload = (db.deliveriesOf key).map Delivery.payload := by
  have hnotices : ∀ db : Db, (db.deliveriesOf key).map Delivery.payload =
      ((db.deliveries.map Delivery.notice).filter fun n => (n.1.1, n.2.1) = key).map
        fun n => n.2.2.2 := by
    intro db
    rw [List.filter_map, List.map_map]
    rfl
  rw [hnotices, hnotices, h]

/-- Every delivery has a counterpart among deliveries with the same notices. -/
lemma exists_of_notices {deliveries deliveries' : List Delivery}
    (h : deliveries'.map Delivery.notice = deliveries.map Delivery.notice) {d' : Delivery}
    (hd' : d' ∈ deliveries') : ∃ d ∈ deliveries, d.notice = d'.notice := by
  have hmem : d'.notice ∈ deliveries'.map Delivery.notice := List.mem_map_of_mem hd'
  rw [h] at hmem
  exact List.mem_map.mp hmem

section Inserter

variable {x : StoreStep} {key : String × String} {identity : SourceId × RecordId}
  {last : Option CompleteWatchRun}

/-- An identity whose row is not there has no inserter. -/
lemma nextInserter_of_notMem
    (h : (key.1, key.2, identity) ∉ x.after.watchRecords.map WatchRecordRow.key) :
    x.nextInserter key identity last = none := by
  rw [StoreStep.nextInserter, if_pos h]

/-- An identity whose row stays keeps its inserter. -/
lemma nextInserter_of_mem
    (h : (key.1, key.2, identity) ∈ x.after.watchRecords.map WatchRecordRow.key)
    (h' : (key.1, key.2, identity) ∈ x.before.watchRecords.map WatchRecordRow.key) :
    x.nextInserter key identity last = last := by
  rw [StoreStep.nextInserter, if_neg (not_not.mpr h), if_pos h']

/-- An identity whose row a completion inserts has that completion as its inserter. -/
lemma nextInserter_of_insert {request : CompleteWatchRun}
    (hinput : x.input = .completeWatchRun request)
    (h : (key.1, key.2, identity) ∈ x.after.watchRecords.map WatchRecordRow.key)
    (h' : (key.1, key.2, identity) ∉ x.before.watchRecords.map WatchRecordRow.key) :
    x.nextInserter key identity last = some request := by
  rw [StoreStep.nextInserter, if_neg (not_not.mpr h), if_neg h', hinput]

end Inserter

namespace OutboxInv

variable {trace : List StoreStep} {db db' : Db} {op : StoreOp} {reply : StoreReply}

/-- A step that inserts no row of `watch_records` and queues nothing keeps the second half of the
invariant: an identity keeps its inserter as long as its row is there. -/
private lemma inserter_of_no_insert
    (hrows : ∀ k, k ∈ db'.watchRecords.map WatchRecordRow.key →
      k ∈ db.watchRecords.map WatchRecordRow.key)
    (key : String × String) (identity : SourceId × RecordId) :
    inserter key identity (trace ++ [⟨db, op, reply, db'⟩]) =
      if (key.1, key.2, identity) ∈ db'.watchRecords.map WatchRecordRow.key then
        inserter key identity trace
      else none := by
  rw [inserter_snoc]
  split
  · rename_i hmem
    exact nextInserter_of_mem hmem (hrows _ hmem)
  · rename_i hmem
    exact nextInserter_of_notMem hmem

/-- A step that leaves the notices of the deliveries and the rows of `watch_records` alone keeps
the invariant, if it resets only watches without deliveries. -/
lemma of_quiet (h : OutboxInv trace db)
    (hreset : ∀ key, StoreStep.resets ⟨db, op, reply, db'⟩ key = true → db.deliveriesOf key = [])
    (hdeliveries : db'.deliveries.map Delivery.notice = db.deliveries.map Delivery.notice)
    (hwatchRecords : db'.watchRecords = db.watchRecords)
    (hruns : ∀ r ∈ db.watchRuns, r ∈ db'.watchRuns) :
    OutboxInv (trace ++ [⟨db, op, reply, db'⟩]) db' := by
  have hpayloads : ∀ key, Comsat.payloads key (trace ++ [⟨db, op, reply, db'⟩]) =
      Comsat.payloads key trace := by
    intro key
    rw [payloads_snoc, StoreStep.nextPayloads]
    split
    · rename_i hkey
      rw [h.payloads, hreset key hkey, List.map_nil]
    · rw [newPayloads_of_keys, List.append_nil]
      intro d hd
      obtain ⟨e, he, hnotice⟩ := exists_of_notices hdeliveries hd
      exact List.mem_map.mpr ⟨e, he, congrArg Prod.fst hnotice⟩
  have hnotified : ∀ key, Comsat.notified key (trace ++ [⟨db, op, reply, db'⟩]) =
      Comsat.notified key trace := fun key => by
    rw [Comsat.notified, hpayloads, Comsat.notified]
  have hinserter : ∀ key identity,
      inserter key identity (trace ++ [⟨db, op, reply, db'⟩]) = inserter key identity trace := by
    intro key identity
    rw [inserter_of_no_insert fun k hk => by rwa [hwatchRecords] at hk, hwatchRecords]
    split
    · rfl
    · rename_i hmem
      rw [h.rows, Option.not_isSome_iff_eq_none] at hmem
      exact hmem.symm
  constructor
  · intro key
    rw [hpayloads, h.payloads, payloads_congr hdeliveries]
  · intro d' hd'
    obtain ⟨d, hd, hnotice⟩ := exists_of_notices hdeliveries hd'
    simp only [Delivery.notice, Delivery.key, Prod.mk.injEq] at hnotice
    obtain ⟨r, hr, htenant, hwatch, hrun, hstatus⟩ := h.runs d hd
    exact ⟨r, hruns r hr, htenant.trans hnotice.1.1, hwatch.trans hnotice.2.1,
      hnotice.2.2.1.symm.trans hrun, hstatus⟩
  · intro d' hd'
    obtain ⟨d, hd, hnotice⟩ := exists_of_notices hdeliveries hd'
    simp only [Delivery.notice, Delivery.key, Prod.mk.injEq] at hnotice
    obtain ⟨request, delivery, hmem, hdelivery, htenant, hid, hwatch, hrun⟩ := h.queued d hd
    refine ⟨request, delivery, ?_, hdelivery, htenant.trans hnotice.1.1, hid.trans hnotice.1.2,
      hwatch.trans hnotice.2.1, hnotice.2.2.1.symm.trans hrun⟩
    rw [List.map_append]
    exact List.mem_append_left _ hmem
  · intro key
    rw [hnotified]
    exact h.once key
  · intro key identity
    rw [hwatchRecords, hinserter]
    exact h.rows key identity
  · intro key identity request
    rw [hinserter, commits_snoc]
    intro hins
    obtain ⟨hcommit, hof⟩ := h.inserted key identity request hins
    exact ⟨List.mem_append_left _ hcommit, hof⟩
  · intro key identity
    rw [hnotified, hinserter]
    exact h.notified key identity

/-- Deleting a watch keeps the invariant: the deliveries of the watch and its rows of
`watch_records` go together, and those of the other watches stay. -/
lemma deleted (h : OutboxInv trace db) {request : DeleteWatch} {found : Bool} :
    OutboxInv (trace ++ [⟨db, .deleteWatch request, .watchDeleted (.ok found),
      db.deleteWatch request.tenantId request.watchId⟩])
      (db.deleteWatch request.tenantId request.watchId) := by
  have hkept : ∀ key, (request.tenantId, request.watchId) ≠ key →
      (db.deleteWatch request.tenantId request.watchId).deliveriesOf key = db.deliveriesOf key := by
    intro key hne
    refine Table.filter_delete_of_disjoint fun d hd => decide_eq_false fun hkey => hne ?_
    rw [Bool.and_eq_true_iff, decide_eq_true_eq, decide_eq_true_eq] at hd
    rw [← hkey, hd.1, hd.2]
  have hgone : (db.deleteWatch request.tenantId request.watchId).deliveriesOf
      (request.tenantId, request.watchId) = [] := by
    refine List.filter_eq_nil_iff.mpr fun d hd => ?_
    have hnot := (Table.mem_delete.mp hd).2
    simpa using hnot
  have hpayloads : ∀ key, Comsat.payloads key (trace ++ [⟨db, .deleteWatch request,
      .watchDeleted (.ok found), db.deleteWatch request.tenantId request.watchId⟩]) =
        if (request.tenantId, request.watchId) = key then [] else Comsat.payloads key trace := by
    intro key
    rw [payloads_snoc, StoreStep.nextPayloads, newPayloads_of_keys, List.append_nil]
    · simp only [StoreStep.resets, decide_eq_true_eq]
    · exact fun d hd => List.mem_map_of_mem (Table.mem_delete.mp hd).1
  have hrows : ∀ k, k ∈ (db.deleteWatch request.tenantId request.watchId).watchRecords.map
      WatchRecordRow.key ↔ k ∈ db.watchRecords.map WatchRecordRow.key ∧
        (request.tenantId, request.watchId) ≠ (k.1, k.2.1) := by
    intro k
    simp only [Db.deleteWatch, List.mem_map, Table.mem_delete]
    constructor
    · rintro ⟨row, ⟨hrow, hnot⟩, rfl⟩
      refine ⟨⟨row, hrow, rfl⟩, fun hkey => ?_⟩
      simp only [WatchRecordRow.key, Prod.mk.injEq] at hkey
      simp [← hkey.1, ← hkey.2] at hnot
    · rintro ⟨⟨row, hrow, rfl⟩, hne⟩
      refine ⟨row, ⟨hrow, ?_⟩, rfl⟩
      rw [Bool.and_eq_false_iff, decide_eq_false_iff_not, decide_eq_false_iff_not]
      by_contra hall
      rw [not_or, not_not, not_not] at hall
      exact hne (by simp [WatchRecordRow.key, hall.1, hall.2])
  have hinserter : ∀ key identity, inserter key identity (trace ++ [⟨db, .deleteWatch request,
      .watchDeleted (.ok found), db.deleteWatch request.tenantId request.watchId⟩]) =
        if (request.tenantId, request.watchId) = key then none
        else inserter key identity trace := by
    intro key identity
    rw [inserter_of_no_insert fun k hk => ((hrows k).mp hk).1]
    by_cases hkey : (request.tenantId, request.watchId) = key
    · rw [if_pos hkey, if_neg]
      exact fun hmem => ((hrows _).mp hmem).2 hkey
    · rw [if_neg hkey]
      split
      · rfl
      · rename_i hmem
        have hnot : (key.1, key.2, identity) ∉ db.watchRecords.map WatchRecordRow.key :=
          fun hold => hmem ((hrows _).mpr ⟨hold, hkey⟩)
        rw [h.rows, Option.not_isSome_iff_eq_none] at hnot
        exact hnot.symm
  have hnotified : ∀ key, Comsat.notified key (trace ++ [⟨db, .deleteWatch request,
      .watchDeleted (.ok found), db.deleteWatch request.tenantId request.watchId⟩]) =
        if (request.tenantId, request.watchId) = key then [] else Comsat.notified key trace := by
    intro key
    rw [Comsat.notified, hpayloads]
    split <;> rfl
  constructor
  · intro key
    rw [hpayloads]
    split
    · rename_i hkey
      rw [← hkey, hgone, List.map_nil]
    · rename_i hkey
      rw [hkept key hkey]
      exact h.payloads key
  · intro d hd
    obtain ⟨hmem, hnot⟩ := Table.mem_delete.mp hd
    obtain ⟨r, hr, htenant, hwatch, hrest⟩ := h.runs d hmem
    refine ⟨r, Table.mem_delete.mpr ⟨hr, ?_⟩, htenant, hwatch, hrest⟩
    rwa [htenant, hwatch]
  · intro d hd
    obtain ⟨request', delivery, hmem, hrest⟩ := h.queued d (Table.mem_delete.mp hd).1
    refine ⟨request', delivery, ?_, hrest⟩
    rw [List.map_append]
    exact List.mem_append_left _ hmem
  · intro key
    rw [hnotified]
    split
    · exact List.nodup_nil
    · exact h.once key
  · intro key identity
    rw [hrows, hinserter]
    split
    · rename_i hkey
      simp [hkey]
    · rename_i hkey
      rw [h.rows, and_iff_left hkey]
  · intro key identity request'
    rw [hinserter, commits_snoc]
    split
    · exact fun hnone => absurd hnone (by simp)
    · intro hins
      obtain ⟨hcommit, hof⟩ := h.inserted key identity request' hins
      exact ⟨List.mem_append_left _ hcommit, hof⟩
  · intro key identity
    rw [hnotified, hinserter]
    split
    · simp
    · exact h.notified key identity

end OutboxInv

/-! ## Completions -/

/-- The deliveries that a committed completion adds. -/
def Adapter.addedDeliveries (adapter : Adapter) (db : Db) (request : CompleteWatchRun) :
    List Delivery :=
  match request.delivery with
  | some delivery =>
    if (adapter.newRecords db request).isEmpty then []
    else [request.deliveryRow (adapter.observedAt request.finishedAtEpochSeconds) delivery
      (adapter.newRecords db request)]
  | none => []

section Added

variable {adapter : Adapter} {db : Db} {request : CompleteWatchRun}

/-- An added delivery is the notification of the completion. -/
lemma mem_addedDeliveries {d : Delivery} : d ∈ adapter.addedDeliveries db request ↔
    ∃ delivery, request.delivery = some delivery ∧ adapter.newRecords db request ≠ [] ∧
      d = request.deliveryRow (adapter.observedAt request.finishedAtEpochSeconds) delivery
        (adapter.newRecords db request) := by
  unfold Adapter.addedDeliveries
  cases request.delivery with
  | none => simp
  | some delivery => by_cases h : adapter.newRecords db request = [] <;> simp [h]

/-- The added deliveries notify the records that are new to the watch, if the completion queues a
notification. -/
lemma identities_addedDeliveries :
    ((adapter.addedDeliveries db request).map Delivery.payload).flatMap
        (fun payload => payload.records.map Record.identity) =
      if request.delivery.isSome then (adapter.newRecords db request).map Record.identity
      else [] := by
  unfold Adapter.addedDeliveries
  cases request.delivery with
  | none => rfl
  | some delivery =>
    by_cases h : adapter.newRecords db request = []
    · simp [h]
    · simp [h, CompleteWatchRun.deliveryRow]

/-- Under a free identifier, a committed completion appends the added deliveries. -/
lemma deliveriesAfter_eq_append (hfree : ∀ delivery, request.delivery = some delivery →
    (request.tenantId, delivery.deliveryId) ∉ db.deliveries.map Delivery.key) :
    adapter.deliveriesAfter db request =
      db.deliveries ++ adapter.addedDeliveries db request := by
  unfold Adapter.deliveriesAfter Adapter.addedDeliveries
  cases hdelivery : request.delivery with
  | none => exact (List.append_nil _).symm
  | some delivery =>
    dsimp only
    split
    · exact (List.append_nil _).symm
    · exact Table.insertIgnore_of_notMem (hfree delivery hdelivery)

/-- The added deliveries belong to the watch of the completion. -/
lemma filter_addedDeliveries (key : String × String) :
    (adapter.addedDeliveries db request).filter (fun d => (d.tenantId, d.watchId) = key) =
      if (request.tenantId, request.watchId) = key then adapter.addedDeliveries db request
      else [] := by
  split
  · rename_i hkey
    refine List.filter_eq_self.mpr fun d hd => ?_
    obtain ⟨delivery, -, -, rfl⟩ := mem_addedDeliveries.mp hd
    exact decide_eq_true hkey
  · rename_i hkey
    refine List.filter_eq_nil_iff.mpr fun d hd => ?_
    obtain ⟨delivery, -, -, rfl⟩ := mem_addedDeliveries.mp hd
    exact fun h => hkey (of_decide_eq_true h)

/-- Under a free identifier, the payloads that a committed completion queues are those of the added
deliveries. -/
lemma newPayloads_committed {op : StoreOp} {reply : StoreReply}
    (hfree : ∀ delivery, request.delivery = some delivery →
      (request.tenantId, delivery.deliveryId) ∉ db.deliveries.map Delivery.key)
    (key : String × String) :
    StoreStep.newPayloads ⟨db, op, reply, adapter.committed db request⟩ key =
      if (request.tenantId, request.watchId) = key then
        (adapter.addedDeliveries db request).map Delivery.payload
      else [] := by
  have hold : (db.deliveriesOf key).filter
      (fun d => !db.deliveries.any fun e => e.key = d.key) = [] := by
    refine List.filter_eq_nil_iff.mpr fun d hd => ?_
    simp only [Bool.not_eq_true', Bool.not_eq_false, List.any_eq_true, decide_eq_true_eq]
    exact ⟨d, (List.mem_filter.mp hd).1, rfl⟩
  have hnew : (adapter.addedDeliveries db request).filter
      (fun d => !db.deliveries.any fun e => e.key = d.key) =
        adapter.addedDeliveries db request := by
    refine List.filter_eq_self.mpr fun d hd => ?_
    obtain ⟨delivery, hdelivery, -, rfl⟩ := mem_addedDeliveries.mp hd
    simp only [Bool.not_eq_true', List.any_eq_false, decide_eq_true_eq]
    exact fun e he hkey => hfree delivery hdelivery (List.mem_map.mpr ⟨e, he, hkey⟩)
  have hof : (adapter.committed db request).deliveriesOf key = db.deliveriesOf key ++
      if (request.tenantId, request.watchId) = key then adapter.addedDeliveries db request
      else [] := by
    rw [← filter_addedDeliveries key, Db.deliveriesOf, Adapter.committed,
      deliveriesAfter_eq_append hfree, List.filter_append]
    rfl
  unfold StoreStep.newPayloads
  rw [hof, List.filter_append, hold, List.nil_append]
  split
  · rw [hnew]
  · rfl

end Added

section Completed

variable {adapter : Adapter} {trace : List StoreStep} {db : Db} {request : CompleteWatchRun}

/-- The step of a committed completion. -/
def Adapter.completedStep (adapter : Adapter) (db : Db) (request : CompleteWatchRun) : StoreStep :=
  ⟨db, .completeWatchRun request, .runCompleted (.ok (adapter.outcome db request)),
    adapter.committed db request⟩

/-- The payloads of a watch after a committed completion. -/
lemma payloads_completed (hfree : ∀ delivery, request.delivery = some delivery →
      (request.tenantId, delivery.deliveryId) ∉ db.deliveries.map Delivery.key)
    (key : String × String) :
    payloads key (trace ++ [adapter.completedStep db request]) = payloads key trace ++
      if (request.tenantId, request.watchId) = key then
        (adapter.addedDeliveries db request).map Delivery.payload
      else [] := by
  rw [payloads_snoc, StoreStep.nextPayloads, Adapter.completedStep, newPayloads_committed hfree]
  rfl

/-- The identities that are notified after a committed completion. -/
lemma notified_completed (hfree : ∀ delivery, request.delivery = some delivery →
      (request.tenantId, delivery.deliveryId) ∉ db.deliveries.map Delivery.key)
    (key : String × String) :
    notified key (trace ++ [adapter.completedStep db request]) = notified key trace ++
      if (request.tenantId, request.watchId) = key ∧ request.delivery.isSome then
        (adapter.newRecords db request).map Record.identity
      else [] := by
  rw [notified, payloads_completed hfree, List.flatMap_append, notified]
  by_cases hkey : (request.tenantId, request.watchId) = key
  · simp only [hkey, ↓reduceIte, true_and, identities_addedDeliveries]
  · simp only [hkey, ↓reduceIte, false_and, List.flatMap_nil]

/-- The rows of `watch_records` after a committed completion. -/
lemma mem_watchRecords_committed {key : String × String} {identity : SourceId × RecordId} :
    (key.1, key.2, identity) ∈
        (adapter.committed db request).watchRecords.map WatchRecordRow.key ↔
      (key.1, key.2, identity) ∈ db.watchRecords.map WatchRecordRow.key ∨
        (request.tenantId, request.watchId) = key ∧
          identity ∈ request.records.map Record.identity := by
  refine adapter.mem_watchRecordsAfter.trans (or_congr_right ?_)
  constructor
  · intro hmem
    obtain ⟨record, hrecord, hkey⟩ := List.mem_map.mp hmem
    simp only [Prod.mk.injEq] at hkey
    obtain ⟨htenant, hwatch, rfl⟩ := hkey
    exact ⟨Prod.ext htenant hwatch, List.mem_map_of_mem hrecord⟩
  · rintro ⟨rfl, hmem⟩
    obtain ⟨record, hrecord, rfl⟩ := List.mem_map.mp hmem
    exact List.mem_map.mpr ⟨record, hrecord, rfl⟩

/-- The inserter of an identity after a committed completion: the completion, if the identity is
new to its watch. -/
lemma inserter_completed (h : OutboxInv trace db) (key : String × String)
    (identity : SourceId × RecordId) :
    inserter key identity (trace ++ [adapter.completedStep db request]) =
      if (request.tenantId, request.watchId) = key ∧
          identity ∈ (adapter.newRecords db request).map Record.identity then some request
      else inserter key identity trace := by
  rw [inserter_snoc]
  by_cases hold : (key.1, key.2, identity) ∈ db.watchRecords.map WatchRecordRow.key
  · rw [nextInserter_of_mem (mem_watchRecords_committed.mpr (.inl hold)) hold, if_neg]
    rintro ⟨rfl, hmem⟩
    exact (adapter.mem_newRecords.mp hmem).2 hold
  · by_cases hins : (request.tenantId, request.watchId) = key ∧
        identity ∈ request.records.map Record.identity
    · obtain ⟨rfl, hrecord⟩ := hins
      have hmem : identity ∈ (adapter.newRecords db request).map Record.identity :=
        adapter.mem_newRecords.mpr ⟨hrecord, hold⟩
      have hafter : (request.tenantId, request.watchId, identity) ∈
          (adapter.committed db request).watchRecords.map WatchRecordRow.key :=
        mem_watchRecords_committed.mpr (.inr ⟨rfl, hrecord⟩)
      rw [if_pos ⟨rfl, hmem⟩]
      exact nextInserter_of_insert rfl hafter hold
    · rw [nextInserter_of_notMem fun hmem => (mem_watchRecords_committed.mp hmem).elim hold hins,
        if_neg]
      · rw [h.rows, Option.not_isSome_iff_eq_none] at hold
        exact hold.symm
      · rintro ⟨rfl, hmem⟩
        exact hins ⟨rfl, (adapter.mem_newRecords.mp hmem).1⟩

/-- Completing a run keeps the invariant.

**Proof sketch.** The new payload carries the identities that the watch has no row of, once each.
An identity that was notified before has a row, so it is not among them; and the completion becomes
the inserter of exactly these identities. -/
lemma OutboxInv.completed (h : OutboxInv trace db) (hkeys : (db.watchRuns.map WatchRun.key).Nodup)
    (hcan : adapter.CanComplete db request)
    (hdistinct : DistinctDeliveryIds
      (trace.map Machine.Step.input ++ [.completeWatchRun request])) :
    OutboxInv (trace ++ [adapter.completedStep db request]) (adapter.committed db request) := by
  have hfree : ∀ delivery, request.delivery = some delivery →
      (request.tenantId, delivery.deliveryId) ∉ db.deliveries.map Delivery.key :=
    fun delivery hdelivery => h.deliveryId_free hkeys hdelivery hdistinct hcan.2
  have hdeliveries : (adapter.committed db request).deliveries =
      db.deliveries ++ adapter.addedDeliveries db request := deliveriesAfter_eq_append hfree
  have hcommits : commits (trace ++ [adapter.completedStep db request]) =
      commits trace ++ [request] := by
    rw [commits_snoc]
    rfl
  constructor
  · intro key
    rw [payloads_completed hfree, h.payloads, Db.deliveriesOf, Db.deliveriesOf, hdeliveries,
      List.filter_append, filter_addedDeliveries, List.map_append]
    split <;> rfl
  · intro d hd
    rw [hdeliveries] at hd
    rcases List.mem_append.mp hd with hd | hd
    · -- a run of an earlier delivery is not running, so the completion leaves it alone
      obtain ⟨r, hr, htenant, hwatch, hrun, hstatus⟩ := h.runs d hd
      refine ⟨r, Table.mem_update.mpr (.inl ⟨hr, decide_eq_false fun hkey => ?_⟩), htenant, hwatch,
        hrun, hstatus⟩
      obtain ⟨-, q, hq, hrunning⟩ := hcan
      obtain ⟨hqkey, -, hqstatus⟩ := WatchRun.isRunningUnder_iff.mp hrunning
      obtain rfl := Table.eq_of_key_eq hkeys hr hq (hkey.trans hqkey.symm)
      exact hstatus hqstatus
    · obtain ⟨delivery, -, -, rfl⟩ := mem_addedDeliveries.mp hd
      obtain ⟨-, r, hr, hrunning⟩ := hcan
      have hkey := (WatchRun.isRunningUnder_iff.mp hrunning).1
      refine ⟨_, Table.mem_update.mpr (.inr ⟨r, hr, decide_eq_true hkey, rfl⟩), ?_⟩
      simp only [WatchRun.key, Prod.mk.injEq] at hkey
      obtain ⟨htenant, hwatch, hrun⟩ := hkey
      refine ⟨htenant, hwatch, congrArg some hrun.symm, ?_⟩
      change request.status ≠ .running
      unfold CompleteWatchRun.status
      split <;> simp
  · intro d hd
    rw [hdeliveries] at hd
    rw [List.map_append]
    rcases List.mem_append.mp hd with hd | hd
    · obtain ⟨request', delivery, hmem, hrest⟩ := h.queued d hd
      exact ⟨request', delivery, List.mem_append_left _ hmem, hrest⟩
    · obtain ⟨delivery, hdelivery, -, rfl⟩ := mem_addedDeliveries.mp hd
      exact ⟨request, delivery, List.mem_append_right _ (by simp [Adapter.completedStep]),
        hdelivery, rfl, rfl, rfl, rfl⟩
  · intro key
    rw [notified_completed hfree]
    split
    · rename_i hkey
      obtain ⟨rfl, -⟩ := hkey
      refine List.nodup_append.mpr ⟨h.once _, adapter.nodup_newRecords, ?_⟩
      rintro identity hold _ hmem rfl
      obtain ⟨request', hins, -⟩ := (h.notified _ identity).mp hold
      refine (adapter.mem_newRecords.mp hmem).2
        ((h.rows (request.tenantId, request.watchId) identity).mpr ?_)
      rw [hins]
      rfl
    · rw [List.append_nil]
      exact h.once key
  · intro key identity
    rw [mem_watchRecords_committed, inserter_completed h, h.rows]
    split
    · rename_i hmem
      obtain ⟨rfl, hmem⟩ := hmem
      simp [(adapter.mem_newRecords.mp hmem).1]
    · rename_i hnot
      refine or_iff_left_of_imp ?_
      rintro ⟨rfl, hrecord⟩
      by_contra hnone
      rw [← h.rows] at hnone
      exact hnot ⟨rfl, adapter.mem_newRecords.mpr ⟨hrecord, hnone⟩⟩
  · intro key identity request'
    rw [inserter_completed h, hcommits]
    split
    · rename_i hmem
      obtain ⟨rfl, hmem⟩ := hmem
      rintro hrequest
      obtain rfl := Option.some.inj hrequest
      exact ⟨by simp, rfl, (adapter.mem_newRecords.mp hmem).1⟩
    · intro hins
      obtain ⟨hcommit, hof⟩ := h.inserted key identity request' hins
      exact ⟨List.mem_append_left _ hcommit, hof⟩
  · intro key identity
    rw [notified_completed hfree, inserter_completed h, List.mem_append]
    by_cases hmem : (request.tenantId, request.watchId) = key ∧
        identity ∈ (adapter.newRecords db request).map Record.identity
    · -- a new identity was not notified before
      obtain ⟨rfl, hnew⟩ := hmem
      have hnot : identity ∉ Comsat.notified (request.tenantId, request.watchId) trace := by
        intro hold
        obtain ⟨request', hins, -⟩ := (h.notified _ identity).mp hold
        refine (adapter.mem_newRecords.mp hnew).2
          ((h.rows (request.tenantId, request.watchId) identity).mpr ?_)
        rw [hins]
        rfl
      by_cases hsome : request.delivery.isSome <;> simp [hnot, hnew, hsome]
    · have hnot : identity ∉ (if (request.tenantId, request.watchId) = key ∧
          request.delivery.isSome then (adapter.newRecords db request).map Record.identity
          else []) := by
        split
        · rename_i hkey
          exact fun hnew => hmem ⟨hkey.1, hnew⟩
        · exact List.not_mem_nil
      rw [if_neg hmem, or_iff_left hnot]
      exact h.notified key identity

end Completed

/-! ## Runs -/

/-- **One step** on a well-formed database keeps the invariant, as long as runs use different
delivery identifiers.

**Proof sketch.** By cases on what the step does: only a deletion and a completion change notices
or rows of `watch_records`, and a watch that is created has no deliveries yet. -/
theorem OutboxInv.step [ExternalParsers] {adapter : Adapter} {trace : List StoreStep} {db : Db}
    (h : OutboxInv trace db) (hdb : db.WellFormed) {op : StoreOp} {result : Db × StoreReply}
    (heffect : adapter.Effect db op result)
    (hdistinct : DistinctDeliveryIds (trace.map Machine.Step.input ++ [op])) :
    OutboxInv (trace ++ [⟨db, op, result.2, result.1⟩]) result.1 := by
  have hquiet : ∀ key, false = true → db.deliveriesOf key = [] := fun _ h => absurd h (by simp)
  cases heffect with
  | unchanged hreply =>
    refine h.of_quiet (fun key hreset => ?_) rfl rfl fun _ hr => hr
    rw [resets_of_quiet hreply] at hreset
    exact hquiet key hreset
  | source => exact h.of_quiet hquiet rfl rfl fun _ hr => hr
  | created request hvalid hfree =>
    refine h.of_quiet (fun key hreset => ?_) rfl rfl fun _ hr => hr
    -- a delivery of the watch would refer to it before it is there
    refine List.filter_eq_nil_iff.mpr fun d hd hof => hfree ?_
    rw [of_decide_eq_true hreset, ← of_decide_eq_true hof]
    exact hdb.deliveryWatches d hd
  | deleted => exact h.deleted
  | claimed => exact h.of_quiet hquiet rfl rfl fun _ hr => hr
  | started => exact h.of_quiet hquiet rfl rfl fun _ hr => List.mem_append_left _ hr
  | completed request hvalid hcan => exact h.completed hdb.watchRuns hcan hdistinct
  | stale => exact h.of_quiet hquiet rfl rfl fun _ hr => hr
  | deliveryLeased =>
    exact h.of_quiet hquiet (Table.map_update fun _ _ _ => rfl) rfl fun _ hr => hr
  | deliveryFinished =>
    exact h.of_quiet hquiet (Table.map_update fun _ _ _ => rfl) rfl fun _ hr => hr

namespace Adapter

/-- The invariant of the outbox holds along every run whose runs use different delivery
identifiers. -/
theorem outboxInv_run [ExternalParsers] (adapter : Adapter) (ops : List StoreOp)
    (hdistinct : DistinctDeliveryIds ops) :
    OutboxInv (adapter.store.trace ops) (adapter.store.run ops) := by
  have hrun : (adapter.store.run ops).WellFormed ∧
      (DistinctDeliveryIds ((adapter.store.trace ops).map Machine.Step.input) →
        OutboxInv (adapter.store.trace ops) (adapter.store.run ops)) := by
    refine adapter.store.run_induction (P := fun trace db => db.WellFormed ∧
      (DistinctDeliveryIds (trace.map Machine.Step.input) → OutboxInv trace db))
      ⟨Db.wellFormed_empty, fun _ => .init⟩ ?_ ops
    rintro trace db op ⟨hdb, hinv⟩
    have heffect := adapter.step_effect hdb op
    refine ⟨heffect.wellFormed hdb, fun hdistinct => ?_⟩
    rw [List.map_append] at hdistinct
    exact (hinv hdistinct.of_append).step hdb heffect hdistinct
  refine hrun.2 ?_
  rwa [Machine.map_input_trace]

/-- A completion that fails leaves the database alone, under leases that are those of the claims. -/
lemma completion_failed [ExternalParsers] {adapter : Adapter} {trace : List StoreStep} {db : Db}
    (hdb : db.WellFormed) (hinv : LeaseInv adapter trace db) {request : CompleteWatchRun}
    {e : StoreError}
    (h : (adapter.step db (.completeWatchRun request)).2 = .runCompleted (.error e)) :
    (adapter.step db (.completeWatchRun request)).1 = db := by
  rcases adapter.completeWatchRun_cases request hdb.toKeysUnique
    (fun w hw => (hdb.intervals w hw).1) with ⟨e', heq⟩ | ⟨-, -, heq⟩ | ⟨-, -, hstale, -⟩
  · simp only [step, heq]
    rfl
  · simp only [step, heq, Prod.map] at h
    exact absurd h (by simp)
  · exact absurd hstale (hinv.not_stale request)

/-- A completion by an owner that has completed before fails. -/
lemma completion_retried [ExternalParsers] {adapter : Adapter} {trace : List StoreStep} {db : Db}
    (hdb : db.WellFormed) (hinv : LeaseInv adapter trace db) {request earlier : CompleteWatchRun}
    (hearlier : earlier ∈ commits trace) (howner : earlier.leaseOwner = request.leaseOwner) :
    ∃ e, (adapter.step db (.completeWatchRun request)).2 = .runCompleted (.error e) := by
  rcases adapter.completeWatchRun_cases request hdb.toKeysUnique
    (fun w hw => (hdb.intervals w hw).1) with
    ⟨e, heq⟩ | ⟨-, ⟨⟨w, hw, hleased⟩, -⟩, -⟩ | ⟨-, -, hstale, -⟩
  · refine ⟨e, ?_⟩
    simp only [step, heq]
    rfl
  · refine absurd (Watch.isLeasedTo_iff.mp hleased).2.1 ?_
    rw [← howner]
    exact hinv.spent earlier hearlier w hw
  · exact absurd hstale (hinv.not_stale request)

/-- **Exactly once**: in both stores, after every run in which claims are fresh and runs use
different delivery identifiers,

* no identity is twice in the payloads that were queued for a watch since it was created;
* these payloads are those of the deliveries of the watch;
* an identity is in them if and only if the committed completion that inserted its row queued a
  notification;
* a completion that fails leaves the database alone, and one that is retried fails.

**Proof sketch.** The invariant of the outbox for the first three, that of the leases for the
last one. -/
theorem outbox_exactly_once [ExternalParsers] (adapter : Adapter) (ops : List StoreOp)
    (hfresh : FreshClaims (adapter.store.trace ops)) (hdistinct : DistinctDeliveryIds ops) :
    (∀ key, (notified key (adapter.store.trace ops)).Nodup) ∧
    (∀ key, payloads key (adapter.store.trace ops) =
      ((adapter.store.run ops).deliveriesOf key).map Delivery.payload) ∧
    (∀ key identity, identity ∈ notified key (adapter.store.trace ops) ↔
      ∃ request ∈ commits (adapter.store.trace ops), request.delivery.isSome ∧
        inserter key identity (adapter.store.trace ops) = some request) ∧
    (∀ request e, (adapter.step (adapter.store.run ops) (.completeWatchRun request)).2 =
        .runCompleted (.error e) →
      (adapter.step (adapter.store.run ops) (.completeWatchRun request)).1 =
        adapter.store.run ops) ∧
    ∀ request, ∀ earlier ∈ commits (adapter.store.trace ops),
      earlier.leaseOwner = request.leaseOwner →
        ∃ e, (adapter.step (adapter.store.run ops) (.completeWatchRun request)).2 =
          .runCompleted (.error e) := by
  have hdb := adapter.wellFormed_run ops
  have hlease := adapter.leaseInv_run ops hfresh
  have houtbox := adapter.outboxInv_run ops hdistinct
  refine ⟨houtbox.once, houtbox.payloads, fun key identity => ?_,
    fun request e h => completion_failed hdb hlease h,
    fun request earlier hearlier howner => completion_retried hdb hlease hearlier howner⟩
  rw [houtbox.notified]
  constructor
  · rintro ⟨request, hins, hsome⟩
    exact ⟨request, (houtbox.inserted key identity request hins).1, hsome, hins⟩
  · rintro ⟨request, -, hsome, hins⟩
    exact ⟨request, hins, hsome⟩

/-- A story of a source. -/
def story (id : RecordId) : Record :=
  ⟨id, ⟨"hn", SourceId.isValid_hn⟩, "story", "https://example.com/", none, none, none, none,
    none, .obj []⟩

/-- A run of two completions of one watch, where the second one observes the first story again. -/
def twoRunsOps : List StoreOp :=
  [.createWatch ⟨"t", "w", ⟨"q", none, none, none⟩, [], 60, .obj [], true, 0, none⟩,
    .claimDueWatch ⟨"t", 10, "first", 30⟩,
    .startWatchRun ⟨"t", "w", "r", "k", "first", 10⟩,
    .completeWatchRun ⟨"t", "w", "r", "first", 20, [story ⟨"1", RecordId.isValid_one⟩], .obj [],
      none, some ⟨"d", .obj []⟩⟩,
    .claimDueWatch ⟨"t", 90, "second", 30⟩,
    .startWatchRun ⟨"t", "w", "s", "l", "second", 90⟩,
    .completeWatchRun ⟨"t", "w", "s", "second", 100,
      [story ⟨"1", RecordId.isValid_one⟩, story ⟨"2", RecordId.isValid_two⟩], .obj [], none,
      some ⟨"e", .obj []⟩⟩]

/-- The completions of `twoRunsOps` use different delivery identifiers. -/
private lemma twoRuns_distinct : DistinctDeliveryIds twoRunsOps := by
  intro request request' delivery delivery' hmem hmem' hdelivery hdelivery' _ hid
  simp only [twoRunsOps, List.mem_cons, reduceCtorEq, StoreOp.completeWatchRun.injEq,
    List.not_mem_nil, or_false, false_or] at hmem hmem'
  rcases hmem with rfl | rfl <;> rcases hmem' with rfl | rfl <;>
    obtain rfl := Option.some.inj hdelivery <;> obtain rfl := Option.some.inj hdelivery' <;>
    first
      | exact ⟨rfl, rfl⟩
      | exact absurd hid (by decide)

set_option maxRecDepth 100000 in
/-- The claims of `twoRunsOps` are fresh. -/
private lemma twoRuns_fresh (adapter : Adapter) :
    letI : ExternalParsers := .ofHost "example.com"
    FreshClaims (adapter.store.trace twoRunsOps) := by
  unfold FreshClaims
  cases adapter <;> decide +kernel

/-- Exactly once at `twoRunsOps`: in both stores no identity is notified twice, although a story is
observed twice. -/
theorem outbox_exactly_once_twoRuns :
    letI : ExternalParsers := .ofHost "example.com"
    (notified ("t", "w") (sqlite.store.trace twoRunsOps)).Nodup ∧
      (notified ("t", "w") (d1.store.trace twoRunsOps)).Nodup := by
  let _ : ExternalParsers := .ofHost "example.com"
  have honce : ∀ adapter : Adapter,
      (notified ("t", "w") (adapter.store.trace twoRunsOps)).Nodup := fun adapter =>
    (outbox_exactly_once adapter twoRunsOps (twoRuns_fresh adapter) twoRuns_distinct).1
      ("t", "w")
  exact ⟨honce sqlite, honce d1⟩

end Adapter

end Comsat
