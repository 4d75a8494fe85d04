import Comsat.Store.Locality

set_option relaxedAutoImplicit false
set_option autoImplicit false

/-!
# Tenants do not interfere

The operations of a tenant leave the rows of every other tenant alone. So the operations of the
other tenants can be deleted from a run without changing a reply to the tenant.

## Main results

* `Adapter.Effect.ofTenant_eq` — an operation leaves the rows of every other tenant alone.
* `Adapter.tenant_noninterference` — noninterference, for both stores.
-/

namespace Comsat

/-! ## Foreign writes -/

/-- A row with the key of a row of another tenant is not a row of the tenant. -/
private lemma foreign_of_key {tenantId tenantId' : String} (hne : tenantId' ≠ tenantId)
    {κ : Type} {a : String × κ} {k : κ} (hab : a = (tenantId', k)) :
    decide (a.1 = tenantId) = false :=
  decide_eq_false fun ha => hne ((congrArg Prod.fst hab).symm.trans ha)

namespace Db

variable (db : Db) {tenantId : String}

/-- Updating watches of other tenants leaves the rows of the tenant alone. -/
private lemma ofTenant_updateWatches {p : Watch → Bool} {f : Watch → Watch}
    (hp : ∀ w, p w = true → w.tenantId ≠ tenantId) (hf : ∀ w, (f w).tenantId = w.tenantId) :
    ({ db with watches := Table.update p f db.watches } : Db).ofTenant tenantId =
      db.ofTenant tenantId := by
  have hwatches : (Table.update p f db.watches).filter (fun w => w.tenantId = tenantId) =
      db.watches.filter fun w => w.tenantId = tenantId :=
    Table.filter_update_of_disjoint (fun w hw => decide_eq_false (hp w hw))
      fun w hw => decide_eq_false (hf w ▸ hp w hw)
  simp only [ofTenant, hwatches]

/-- Updating deliveries of other tenants leaves the rows of the tenant alone. -/
private lemma ofTenant_updateDeliveries {p : Delivery → Bool} {f : Delivery → Delivery}
    (hp : ∀ d, p d = true → d.tenantId ≠ tenantId) (hf : ∀ d, (f d).tenantId = d.tenantId) :
    ({ db with deliveries := Table.update p f db.deliveries } : Db).ofTenant tenantId =
      db.ofTenant tenantId := by
  have hdeliveries : (Table.update p f db.deliveries).filter (fun d => d.tenantId = tenantId) =
      db.deliveries.filter fun d => d.tenantId = tenantId :=
    Table.filter_update_of_disjoint (fun d hd => decide_eq_false (hp d hd))
      fun d hd => decide_eq_false (hf d ▸ hp d hd)
  simp only [ofTenant, hdeliveries]

/-- Deleting a watch of another tenant leaves the rows of the tenant alone. -/
private lemma ofTenant_deleteWatch {tenantId' : String} (hne : tenantId' ≠ tenantId)
    (watchId : String) :
    (db.deleteWatch tenantId' watchId).ofTenant tenantId = db.ofTenant tenantId := by
  have hforeign : ∀ t w, (decide (t = tenantId') && decide (w = watchId)) = true →
      decide (t = tenantId) = false := by
    intro t w h
    rw [of_decide_eq_true (Bool.and_eq_true_iff.mp h).1]
    exact decide_eq_false hne
  simp only [deleteWatch, ofTenant]
  rw [Table.filter_delete_of_disjoint, Table.filter_delete_of_disjoint,
    Table.filter_delete_of_disjoint, Table.filter_delete_of_disjoint]
  all_goals exact fun _ => hforeign _ _

end Db

namespace Adapter

/-- A completion leaves the rows of other tenants alone. -/
private lemma ofTenant_committed (adapter : Adapter) {tenantId : String} (db : Db) {request : CompleteWatchRun}
    (hne : request.tenantId ≠ tenantId) :
    (adapter.committed db request).ofTenant tenantId = db.ofTenant tenantId := by
  have hrow : decide (request.tenantId = tenantId) = false := decide_eq_false hne
  have hwatches : (adapter.watchesAfter request db.watches).filter
      (fun w => w.tenantId = tenantId) = db.watches.filter fun w => w.tenantId = tenantId :=
    Table.filter_update_of_disjoint
      (fun _ hw => foreign_of_key hne (of_decide_eq_true hw))
      fun _ hw => foreign_of_key hne (of_decide_eq_true hw)
  have hruns : (adapter.watchRunsAfter request db.watchRuns).filter
      (fun r => r.tenantId = tenantId) = db.watchRuns.filter fun r => r.tenantId = tenantId :=
    Table.filter_update_of_disjoint
      (fun _ hr => foreign_of_key hne (of_decide_eq_true hr))
      fun _ hr => foreign_of_key hne (of_decide_eq_true hr)
  have hdeliveries : (adapter.deliveriesAfter db request).filter
      (fun d => d.tenantId = tenantId) = db.deliveries.filter fun d => d.tenantId = tenantId := by
    unfold deliveriesAfter
    cases request.delivery with
    | none => rfl
    | some delivery =>
      dsimp only
      split
      · rfl
      · exact Table.filter_insertIgnore_of_not hrow
  have hrecords : (adapter.recordsAfter request db.records).filter
      (fun r => r.tenantId = tenantId) = db.records.filter fun r => r.tenantId = tenantId := by
    refine adapter.filter_recordsAfter RecordRow.tenant_of_key (fun _ _ row hkey => ?_) _
    rw [show row.tenantId = request.tenantId from congrArg Prod.fst hkey]
    exact hrow
  have hwatchRecords : (adapter.watchRecordsAfter request db.watchRecords).filter
      (fun r => r.tenantId = tenantId) =
        db.watchRecords.filter fun r => r.tenantId = tenantId := by
    cases adapter with
    | sqlite =>
      refine Table.filter_upsertAll_of_not WatchRecordRow.tenant_of_key (fun _ _ => rfl)
        fun row hmem => ?_
      obtain ⟨record, -, rfl⟩ := List.mem_map.mp hmem
      exact hrow
    | d1 =>
      have hupdated : ∀ row : WatchRecordRow, (decide (row.tenantId = request.tenantId) &&
          decide (row.watchId = request.watchId) &&
            (D1Store.incoming request row.identity).isSome) = true →
              decide (row.tenantId = tenantId) = false := by
        intro row hrow'
        rw [of_decide_eq_true (Bool.and_eq_true_iff.mp (Bool.and_eq_true_iff.mp hrow').1).1]
        exact hrow
      refine (Table.filter_update_of_disjoint hupdated ?_).trans ?_
      · exact fun row hrow' => hupdated row hrow'
      refine Table.filter_insertAllIgnore_of_not fun row hmem => ?_
      obtain ⟨record, -, rfl⟩ := List.mem_map.mp hmem
      exact hrow
  simp only [committed, Db.ofTenant, hwatches, hruns, hdeliveries, hrecords, hwatchRecords]

/-- **Foreign operations**: every operation leaves the rows of every other tenant alone.

**Proof sketch.** By cases on what the operation does. The rows that it writes have the tenant of
its request: they are inserted with it, or selected by a condition that asks for it. -/
theorem Effect.ofTenant_eq [ExternalParsers] {adapter : Adapter} {db : Db} {op : StoreOp}
    {result : Db × StoreReply} (heffect : adapter.Effect db op result) {tenantId : String}
    (hne : op.tenantId ≠ tenantId) : result.1.ofTenant tenantId = db.ofTenant tenantId := by
  cases heffect with
  | unchanged => rfl
  | source request row hrow =>
    have hother : decide (row.tenantId = tenantId) = false := by
      rw [hrow]
      exact decide_eq_false hne
    have hsources : (Table.upsert SourceRow.key SourceRow.setObserved db.sources row).filter
        (fun r => r.tenantId = tenantId) = db.sources.filter fun r => r.tenantId = tenantId :=
      Table.filter_upsert_of_not SourceRow.tenant_of_key (fun _ _ => rfl) hother
    simp only [Db.upsertSource, Db.ofTenant, hsources]
  | created request =>
    have hother : decide ((adapter.storedWatch request.intoWatch).tenantId = tenantId) = false :=
      decide_eq_false hne
    simp [Db.ofTenant, hother]
  | deleted request found => exact db.ofTenant_deleteWatch hne _
  | claimed request due hvalid hdue =>
    have hdueTenant := (Watch.isDue_iff.mp (Db.dueWatch_eq_some hdue).2).1
    refine db.ofTenant_updateWatches (fun w hw => ?_) fun _ => rfl
    rw [show w.tenantId = due.tenantId from congrArg Prod.fst (of_decide_eq_true hw), hdueTenant]
    exact hne
  | started request =>
    have hother : decide ((adapter.startedRun request).tenantId = tenantId) = false :=
      decide_eq_false hne
    simp [Db.ofTenant, hother]
  | completed request => exact adapter.ofTenant_committed db hne
  | stale request =>
    refine db.ofTenant_updateWatches (fun w hw => ?_) fun _ => rfl
    rw [show w.tenantId = request.tenantId from congrArg Prod.fst (of_decide_eq_true hw)]
    exact hne
  | deliveryLeased request delivery hvalid hdelivery =>
    have htenant := (Delivery.isEligible_iff.mp (Db.eligibleDelivery_eq_some hdelivery).2).1
    refine db.ofTenant_updateDeliveries (fun d hd => ?_) fun _ => rfl
    rw [show d.tenantId = delivery.tenantId from congrArg Prod.fst (of_decide_eq_true hd), htenant]
    exact hne
  | deliveryFinished request delivery hmem hleased =>
    have htenant : delivery.tenantId = request.tenantId :=
      congrArg Prod.fst (Delivery.isLeasedTo_iff.mp hleased).1
    refine db.ofTenant_updateDeliveries (fun d hd => ?_) fun _ => rfl
    rw [show d.tenantId = delivery.tenantId from congrArg Prod.fst (of_decide_eq_true hd), htenant]
    exact hne

/-- **Noninterference**: for both stores, every run of operations of any tenants and every tenant,
deleting the operations of all other tenants from the run leaves the replies to the operations of
the tenant unchanged.

**Proof sketch.** Unwinding, with the rows of the tenant as the view. Own operations act within the
tenant, so states with the same rows of the tenant give the same reply; foreign operations leave
these rows alone. -/
theorem tenant_noninterference [ExternalParsers] (adapter : Adapter) (tenantId : String)
    (ops : List StoreOp) :
    ((adapter.store.trace ops).filter fun x => x.input.tenantId = tenantId).map
        Machine.Step.reply =
      adapter.store.replies (ops.filter fun op => op.tenantId = tenantId) := by
  refine adapter.store.noninterference Db.WellFormed (Db.ofTenant tenantId)
    (fun op => op.tenantId = tenantId) Db.wellFormed_empty ?_ ?_ ?_ ops
  · intro db op hdb
    exact (adapter.step_effect hdb op).wellFormed hdb
  · intro db op hdb hforeign
    exact (adapter.step_effect hdb op).ofTenant_eq (of_decide_eq_false hforeign)
  · intro db db' op _ _ hown hview
    obtain rfl := of_decide_eq_true hown
    have hleft := adapter.step_actsWithin op db
    have hright := adapter.step_actsWithin op db'
    dsimp only at hleft hright
    rw [hview, hright] at hleft
    exact ⟨(congrArg Prod.snd hleft).symm, (congrArg Prod.fst hleft).symm⟩

end Adapter

end Comsat
