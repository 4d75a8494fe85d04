import Comsat.Store.Integrity

set_option relaxedAutoImplicit false
set_option autoImplicit false

/-!
# Leases of deliveries along a run

Which workers have claimed deliveries in a run, and what a claim returns when its owner is new.

## Main definitions

* `deliveryClaims` — the owners of the successful claims of deliveries of a trace.
* `FreshDeliveryClaims` — no two successful claims of deliveries have the same owner.

## Main results

* `Adapter.deliveryOwners_run` — after every run of the SQLite adapter, the owner of a delivery has
  claimed one.
* `Adapter.claimedDelivery_eq` — a claim by a new owner finds the row that it leased.

## Design

* The D1 adapter returns the row that it has leased whoever else holds leases, so owners matter in
  the SQLite adapter only, where a claim that fails leases nothing.
-/

namespace Comsat

/-! ## Reading a trace -/

/-- The owner of a step that claimed a delivery. -/
def StoreStep.deliveryClaim (x : StoreStep) : Option String :=
  match x.input, x.reply with
  | .claimPendingDelivery request, .deliveryClaimed (.ok (some _)) => some request.leaseOwner
  | _, _ => none

/-- The owners of the successful claims of deliveries. -/
def deliveryClaims (trace : List StoreStep) : List String :=
  trace.filterMap StoreStep.deliveryClaim

/-- Every successful claim of a delivery has an owner that no other one has. -/
def FreshDeliveryClaims (trace : List StoreStep) : Prop := (deliveryClaims trace).Nodup

section Traces

variable {trace : List StoreStep} {x : StoreStep}

/-- The claims after one more step. -/
lemma deliveryClaims_snoc :
    deliveryClaims (trace ++ [x]) = deliveryClaims trace ++ x.deliveryClaim.toList := by
  unfold deliveryClaims
  rw [List.filterMap_append]
  cases h : x.deliveryClaim <;> simp [h]

/-- Claims that are fresh are fresh among the first steps. -/
lemma FreshDeliveryClaims.of_prefix {first : List StoreStep} (h : FreshDeliveryClaims trace)
    (hfirst : first <+: trace) : FreshDeliveryClaims first :=
  h.sublist (hfirst.sublist.filterMap _)

/-- A fresh claim has an owner that has not claimed before. -/
lemma FreshDeliveryClaims.notMem (h : FreshDeliveryClaims (trace ++ [x])) {owner : String}
    (hx : x.deliveryClaim = some owner) : owner ∉ deliveryClaims trace := by
  unfold FreshDeliveryClaims at h
  rw [deliveryClaims_snoc, hx] at h
  intro hmem
  exact (List.nodup_append.mp h).2.2 owner hmem owner (by simp) rfl

end Traces

/-! ## What a claim returns -/

namespace Adapter

/-- The row that a claim leaves. -/
def leasedDelivery (adapter : Adapter) (delivery : Delivery) (request : ClaimPendingDelivery) :
    Delivery :=
  delivery.withLease request.leaseOwner (adapter.bind request.leaseExpires)

section Claims

variable (adapter : Adapter) {db : Db} {delivery : Delivery} {request : ClaimPendingDelivery}

/-- The leased row is in the table. -/
lemma leasedDelivery_mem (hmem : delivery ∈ db.deliveries) :
    adapter.leasedDelivery delivery request ∈ (adapter.leaseDelivery db delivery request).deliveries :=
  Table.mem_update.mpr (.inr ⟨delivery, hmem, decide_eq_true rfl, rfl⟩)

/-- The leased row is among those that the claim looks up. -/
private lemma leasedDelivery_lookup (hmem : delivery ∈ db.deliveries)
    (htenant : delivery.tenantId = request.tenantId) :
    adapter.leasedDelivery delivery request ∈
      (adapter.leaseDelivery db delivery request).deliveries.filter fun d =>
        d.tenantId = request.tenantId && d.leaseOwner = some request.leaseOwner &&
          d.status = .delivering := by
  refine List.mem_filter.mpr ⟨adapter.leasedDelivery_mem hmem, ?_⟩
  simp [leasedDelivery, Delivery.withLease, htenant]

/-- A claim that leases a delivery finds one. -/
lemma claimedDelivery_isSome (hmem : delivery ∈ db.deliveries)
    (htenant : delivery.tenantId = request.tenantId) :
    (adapter.claimedDelivery (adapter.leaseDelivery db delivery request) delivery
      request).isSome := by
  cases adapter with
  | d1 => rfl
  | sqlite =>
    have hlookup := sqlite.leasedDelivery_lookup hmem htenant
    rw [Option.isSome_iff_ne_none, claimedDelivery, SqliteStore.claimedDeliveryRow, Ne,
      Table.head?_orderBy_eq_none]
    exact List.ne_nil_of_mem hlookup

/-- **A claim by a new owner** finds the row that it leased.

**Proof sketch.** The SQLite adapter looks up the deliveries of the owner: if it had none, only the
leased row is one. -/
theorem claimedDelivery_eq (hkeys : (db.deliveries.map Delivery.key).Nodup) (hmem : delivery ∈ db.deliveries)
    (htenant : delivery.tenantId = request.tenantId)
    (hnew : adapter = .sqlite → ∀ d ∈ db.deliveries, d.leaseOwner ≠ some request.leaseOwner) :
    adapter.claimedDelivery (adapter.leaseDelivery db delivery request) delivery request =
      some (adapter.leasedDelivery delivery request) := by
  cases hclaimed : adapter.claimedDelivery (adapter.leaseDelivery db delivery request) delivery
      request with
  | none =>
    have hsome := adapter.claimedDelivery_isSome hmem htenant
    rw [hclaimed] at hsome
    exact absurd hsome (by simp)
  | some found =>
    cases adapter with
    | d1 => exact hclaimed.symm
    | sqlite =>
      have hfound := List.mem_filter.mp (Table.mem_of_head?_orderBy hclaimed)
      simp only [Bool.and_eq_true, decide_eq_true_eq] at hfound
      obtain ⟨hrow, ⟨-, howner⟩, -⟩ := hfound
      rcases Table.mem_update.mp hrow with ⟨hold, -⟩ | ⟨old, hold, hkey, rfl⟩
      · exact absurd howner (hnew rfl found hold)
      · obtain rfl := Table.eq_of_key_eq hkeys hold hmem (of_decide_eq_true hkey)
        rfl

end Claims

/-! ## Runs -/

/-- **One step** keeps it true that the owner of a delivery has claimed one. -/
lemma Effect.deliveryOwners [ExternalParsers] {trace : List StoreStep} {db : Db} {op : StoreOp}
    {result : Db × StoreReply} (heffect : sqlite.Effect db op result)
    (h : ∀ d ∈ db.deliveries, ∀ owner, d.leaseOwner = some owner → owner ∈ deliveryClaims trace) :
    ∀ d ∈ result.1.deliveries, ∀ owner, d.leaseOwner = some owner →
      owner ∈ deliveryClaims (trace ++ [⟨db, op, result.2, result.1⟩]) := by
  -- it suffices to look at rows whose owner is new
  have hmono : ∀ {owner : String} {x : StoreStep}, owner ∈ deliveryClaims trace →
      owner ∈ deliveryClaims (trace ++ [x]) := by
    intro owner x hmem
    rw [deliveryClaims_snoc]
    exact List.mem_append_left _ hmem
  cases heffect with
  | unchanged => exact fun d hd owner howner => hmono (h d hd owner howner)
  | source => exact fun d hd owner howner => hmono (h d hd owner howner)
  | created => exact fun d hd owner howner => hmono (h d hd owner howner)
  | deleted =>
    exact fun d hd owner howner => hmono (h d (Table.mem_delete.mp hd).1 owner howner)
  | claimed => exact fun d hd owner howner => hmono (h d hd owner howner)
  | started => exact fun d hd owner howner => hmono (h d hd owner howner)
  | completed request =>
    intro d hd owner howner
    rcases sqlite.mem_deliveriesAfter.mp hd with hd | ⟨delivery, -, -, -, rfl⟩
    · exact hmono (h d hd owner howner)
    · exact absurd howner (by simp [CompleteWatchRun.deliveryRow])
  | stale => exact fun d hd owner howner => hmono (h d hd owner howner)
  | deliveryLeased request delivery hvalid hdelivery hcommits =>
    intro d hd owner howner
    rcases Table.mem_update.mp hd with ⟨hd, -⟩ | ⟨old, -, -, rfl⟩
    · exact hmono (h d hd owner howner)
    · obtain ⟨hmem, heligible⟩ := Db.eligibleDelivery_eq_some hdelivery
      obtain ⟨found, hfound⟩ := Option.isSome_iff_exists.mp
        (sqlite.claimedDelivery_isSome hmem (Delivery.isEligible_iff.mp heligible).1)
      have hreads : sqlite.ReadsClaim db delivery request := hcommits.resolve_left (by decide)
      obtain rfl : request.leaseOwner = owner := Option.some.inj howner
      rw [deliveryClaims_snoc, deliveryReply_of_reads hreads, hfound]
      exact List.mem_append_right _ (by simp [StoreStep.deliveryClaim])
  | deliveryFinished request delivery =>
    intro d hd owner howner
    rcases Table.mem_update.mp hd with ⟨hd, -⟩ | ⟨old, -, -, rfl⟩
    · exact hmono (h d hd owner howner)
    · exact absurd howner (by simp [finishedDelivery, Delivery.finish])

/-- **Owners of deliveries**: after every run of the SQLite adapter, the owner of a delivery has
claimed one. -/
theorem deliveryOwners_run [ExternalParsers] (ops : List StoreOp) :
    ∀ d ∈ (sqlite.store.run ops).deliveries, ∀ owner, d.leaseOwner = some owner →
      owner ∈ deliveryClaims (sqlite.store.trace ops) := by
  have hrun : (sqlite.store.run ops).WellFormed ∧ ∀ d ∈ (sqlite.store.run ops).deliveries,
      ∀ owner, d.leaseOwner = some owner → owner ∈ deliveryClaims (sqlite.store.trace ops) := by
    refine sqlite.store.run_induction (P := fun trace db => db.WellFormed ∧ ∀ d ∈ db.deliveries,
      ∀ owner, d.leaseOwner = some owner → owner ∈ deliveryClaims trace)
      ⟨Db.wellFormed_empty, by simp [store, Db.empty]⟩ ?_ ops
    rintro trace db op ⟨hdb, hinv⟩
    have heffect := sqlite.step_effect hdb op
    exact ⟨heffect.wellFormed hdb, heffect.deliveryOwners hinv⟩
  exact hrun.2

end Adapter

end Comsat
