import Comsat.Store.DeliveryLeases
import Comsat.Store.Leases

set_option relaxedAutoImplicit false
set_option autoImplicit false

/-!
# Lives of deliveries along a run

A row of the deliveries lives from the completion that inserts it to the deletion of its watch, and
its key may be used again afterwards. Within one life the row keeps its target and its payload, its
attempts only grow, and it does not change any more once it is finished.

## Main definitions

* `births` — the rows that a trace has inserted under a key.
* `Delivery.ContinuesFrom` — what one step may do to a row.

## Main results

* `Adapter.Effect.continues` — a step continues the rows of the deliveries or inserts new ones.
* `Adapter.births_run` — along every run, a row has the target and the payload it was inserted with.
* `Adapter.births_commit` — rows are inserted by completions only, with the notification requested.
* `Adapter.finished_stays`, `Adapter.claim_not_finished` — a finished row stays as it is until its
  watch is deleted, and it is not claimed.
-/

namespace Comsat

/-! ## Reading a trace -/

/-- The row that a step inserts under a key. -/
def StoreStep.birth (x : StoreStep) (key : String × String) : Option Delivery :=
  if key ∈ x.before.deliveries.map Delivery.key then none
  else x.after.deliveries.find? fun d => d.key = key

/-- The rows that a trace has inserted under a key, each at the beginning of a life. -/
def births (key : String × String) (trace : List StoreStep) : List Delivery :=
  trace.filterMap fun x => x.birth key

/-- The births after one more step. -/
lemma births_snoc {key : String × String} {trace : List StoreStep} {x : StoreStep} :
    births key (trace ++ [x]) = births key trace ++ (x.birth key).toList := by
  unfold births
  rw [List.filterMap_append]
  cases h : x.birth key <;> simp [h]

/-! ## What one step does to a row -/

/-- A delivery that is not attempted any more. -/
def Delivery.isFinished (delivery : Delivery) : Bool :=
  delivery.status = .succeeded || delivery.status = .failed

/-- A delivery that may be attempted is not finished. -/
lemma Delivery.not_isFinished_of_isEligible {delivery : Delivery} {tenantId : String} {now : ℤ}
    (h : delivery.isEligible tenantId now = true) : delivery.isFinished = false := by
  rcases (Delivery.isEligible_iff.mp h).2 with ⟨hstatus, -⟩ | ⟨hstatus, -⟩ <;>
    simp [isFinished, hstatus]

/-- The same delivery later in its life. -/
structure Delivery.ContinuesFrom (new old : Delivery) : Prop where
  key : new.key = old.key
  target : new.target = old.target
  payload : new.payload = old.payload
  /-- Attempts only grow. -/
  attempts : old.attempts ≤ new.attempts
  /-- A finished delivery does not change. -/
  finished : old.isFinished = true → new = old

/-- A delivery continues from itself. -/
lemma Delivery.ContinuesFrom.refl (delivery : Delivery) : delivery.ContinuesFrom delivery :=
  ⟨rfl, rfl, rfl, le_refl _, fun _ => rfl⟩

namespace Adapter

section Steps

variable [ExternalParsers] {adapter : Adapter} {db : Db} {op : StoreOp} {result : Db × StoreReply}

/-- **One step**: every delivery after it continues from one before it, or has a new key. -/
lemma Effect.continues (heffect : adapter.Effect db op result)
    (hkeys : (db.deliveries.map Delivery.key).Nodup) :
    ∀ d ∈ result.1.deliveries, (∃ old ∈ db.deliveries, d.ContinuesFrom old) ∨
      d.key ∉ db.deliveries.map Delivery.key := by
  cases heffect with
  | unchanged => exact fun d hd => .inl ⟨d, hd, .refl d⟩
  | source => exact fun d hd => .inl ⟨d, hd, .refl d⟩
  | created => exact fun d hd => .inl ⟨d, hd, .refl d⟩
  | deleted => exact fun d hd => .inl ⟨d, (Table.mem_delete.mp hd).1, .refl d⟩
  | claimed => exact fun d hd => .inl ⟨d, hd, .refl d⟩
  | started => exact fun d hd => .inl ⟨d, hd, .refl d⟩
  | completed request =>
    intro d hd
    rcases adapter.mem_deliveriesAfter.mp hd with hd | ⟨delivery, -, -, hnew, rfl⟩
    · exact .inl ⟨d, hd, .refl d⟩
    · exact .inr hnew
  | stale => exact fun d hd => .inl ⟨d, hd, .refl d⟩
  | deliveryLeased request delivery hvalid hdelivery =>
    intro d hd
    obtain ⟨hmem, heligible⟩ := Db.eligibleDelivery_eq_some hdelivery
    rcases Table.mem_update.mp hd with ⟨hd, -⟩ | ⟨old, hold, hkey, rfl⟩
    · exact .inl ⟨d, hd, .refl d⟩
    · obtain rfl := Table.eq_of_key_eq hkeys hold hmem (of_decide_eq_true hkey)
      refine .inl ⟨old, hold, rfl, rfl, rfl, Nat.le_succ _, fun hfinished => ?_⟩
      rw [Delivery.not_isFinished_of_isEligible heligible] at hfinished
      exact absurd hfinished (by simp)
  | deliveryFinished request delivery hmem hleased =>
    intro d hd
    rcases Table.mem_update.mp hd with ⟨hd, -⟩ | ⟨old, hold, hkey, rfl⟩
    · exact .inl ⟨d, hd, .refl d⟩
    · obtain rfl := Table.eq_of_key_eq hkeys hold hmem (of_decide_eq_true hkey)
      refine .inl ⟨old, hold, rfl, rfl, rfl, le_refl _, fun hfinished => ?_⟩
      have hstatus := (Delivery.isLeasedTo_iff.mp hleased).2.2.1
      simp [Delivery.isFinished, hstatus] at hfinished

/-- A step that inserts a row is a completion that succeeds; the row is its notification. -/
lemma Effect.birth_commit {key : String × String} {row : Delivery}
    (heffect : adapter.Effect db op result)
    (hbirth : StoreStep.birth ⟨db, op, result.2, result.1⟩ key = some row) :
    ∃ request delivery records, StoreStep.commit ⟨db, op, result.2, result.1⟩ = some request ∧
      request.delivery = some delivery ∧
      row = request.deliveryRow (adapter.observedAt request.finishedAtEpochSeconds) delivery records := by
  unfold StoreStep.birth at hbirth
  split at hbirth
  · exact absurd hbirth (by simp)
  · rename_i hfree
    have hrow := List.mem_of_find?_eq_some hbirth
    have hkey : row.key = key := of_decide_eq_true (List.find?_some hbirth :)
    -- the row is not one of those before the step
    have hnot : ∀ old ∈ db.deliveries, old.key ≠ row.key := fun old hold hsame =>
      hfree (hkey ▸ hsame ▸ List.mem_map_of_mem hold)
    cases heffect with
    | completed request =>
      rcases adapter.mem_deliveriesAfter.mp hrow with hold | ⟨delivery, hdelivery, -, -, rfl⟩
      · exact absurd rfl (hnot row hold)
      · exact ⟨request, delivery, _, rfl, hdelivery, rfl⟩
    | deleted => exact absurd rfl (hnot row (Table.mem_delete.mp hrow).1)
    | deliveryLeased request delivery =>
      rcases Table.mem_update.mp hrow with ⟨hold, -⟩ | ⟨old, hold, -, rfl⟩
      · exact absurd rfl (hnot row hold)
      · exact absurd rfl (hnot old hold)
    | deliveryFinished request delivery =>
      rcases Table.mem_update.mp hrow with ⟨hold, -⟩ | ⟨old, hold, -, rfl⟩
      · exact absurd rfl (hnot row hold)
      · exact absurd rfl (hnot old hold)
    | _ => exact absurd rfl (hnot row hrow)

end Steps

/-! ## Runs -/

variable [ExternalParsers] (adapter : Adapter) (ops : List StoreOp)

/-- **Births**: along every run, a row has the target and the payload of the row that was inserted
last under its key. -/
theorem births_run : ∀ d ∈ (adapter.store.run ops).deliveries,
    ∃ row, (births d.key (adapter.store.trace ops)).getLast? = some row ∧ row.key = d.key ∧
      d.target = row.target ∧ d.payload = row.payload := by
  have hrun : (adapter.store.run ops).WellFormed ∧ ∀ d ∈ (adapter.store.run ops).deliveries,
      ∃ row, (births d.key (adapter.store.trace ops)).getLast? = some row ∧ row.key = d.key ∧
        d.target = row.target ∧ d.payload = row.payload := by
    refine adapter.store.run_induction (P := fun trace db => db.WellFormed ∧ ∀ d ∈ db.deliveries,
      ∃ row, (births d.key trace).getLast? = some row ∧ row.key = d.key ∧
        d.target = row.target ∧ d.payload = row.payload)
      ⟨Db.wellFormed_empty, by simp [store, Db.empty]⟩ ?_ ops
    rintro trace db op ⟨hdb, hinv⟩
    have heffect := adapter.step_effect hdb op
    have hdb' := heffect.wellFormed hdb
    refine ⟨hdb', fun d hd => ?_⟩
    rw [births_snoc]
    rcases heffect.continues hdb.deliveries d hd with ⟨old, hold, hcontinues⟩ | hnew
    · -- the row was there: nothing is inserted under its key
      have hbirth : StoreStep.birth (adapter.store.stepAt db op) d.key = none := by
        unfold StoreStep.birth
        rw [hcontinues.key]
        exact if_pos (List.mem_map_of_mem hold)
      obtain ⟨row, hrow, hkey, htarget, hpayload⟩ := hinv old hold
      refine ⟨row, ?_, hkey.trans hcontinues.key.symm, hcontinues.target.trans htarget,
        hcontinues.payload.trans hpayload⟩
      rw [hbirth, hcontinues.key, Option.toList_none, List.append_nil, hrow]
    · have hbirth : StoreStep.birth (adapter.store.stepAt db op) d.key = some d := by
        unfold StoreStep.birth
        exact (if_neg hnew).trans (Table.find?_key_eq hdb'.deliveries hd)
      refine ⟨d, ?_, rfl, rfl, rfl⟩
      rw [hbirth, Option.toList_some, List.getLast?_concat]
  exact hrun.2

/-- **Insertions**: along every run, a row was inserted by a completion that succeeded, as the
notification that it requested. -/
theorem births_commit {key : String × String} {row : Delivery}
    (hrow : row ∈ births key (adapter.store.trace ops)) :
    ∃ request ∈ commits (adapter.store.trace ops), ∃ delivery records,
      request.delivery = some delivery ∧
        row = request.deliveryRow (adapter.observedAt request.finishedAtEpochSeconds) delivery records := by
  induction ops using List.reverseRecOn with
  | nil => simp [births] at hrow
  | append_singleton ops op ih =>
    rw [Machine.trace_snoc] at hrow ⊢
    rw [births_snoc, List.mem_append, Option.mem_toList] at hrow
    rw [commits_snoc]
    rcases hrow with hrow | hrow
    · obtain ⟨request, hrequest, rest⟩ := ih hrow
      exact ⟨request, List.mem_append_left _ hrequest, rest⟩
    · have hdb := adapter.wellFormed_run ops
      obtain ⟨request, delivery, records, hcommit, hdelivery, heq⟩ :=
        (adapter.step_effect hdb op).birth_commit hrow
      refine ⟨request, List.mem_append_right _ ?_, delivery, records, hdelivery, heq⟩
      exact Option.mem_toList.mpr hcommit

/-- **Finished deliveries stay**: after every run, every operation leaves a finished delivery as it
is, or deletes it. -/
theorem finished_stays {d : Delivery} (hd : d ∈ (adapter.store.run ops).deliveries)
    (hfinished : d.isFinished = true) (op : StoreOp) :
    d ∈ (adapter.step (adapter.store.run ops) op).1.deliveries ∨
      d.key ∉ (adapter.step (adapter.store.run ops) op).1.deliveries.map Delivery.key := by
  have hdb := adapter.wellFormed_run ops
  rw [or_iff_not_imp_right, not_not]
  intro hkey
  obtain ⟨new, hnew, hsame⟩ := List.mem_map.mp hkey
  rcases (adapter.step_effect hdb op).continues hdb.deliveries new hnew with
    ⟨old, hold, hcontinues⟩ | hfree
  · obtain rfl := Table.eq_of_key_eq hdb.deliveries hold hd (hcontinues.key.symm.trans hsame)
    rwa [hcontinues.finished hfinished] at hnew
  · exact absurd (hsame ▸ List.mem_map_of_mem hd) hfree

/-- **Finished deliveries are not claimed**: after every run, a claim returns no delivery whose row
was finished. -/
theorem claim_not_finished {request : ClaimPendingDelivery} {claimed : Delivery}
    (hclaim : (adapter.step (adapter.store.run ops) (.claimPendingDelivery request)).2 =
      .deliveryClaimed (.ok (some claimed))) :
    ∀ d ∈ (adapter.store.run ops).deliveries, d.key = claimed.key → d.isFinished = false := by
  have hdb := adapter.wellFormed_run ops
  generalize adapter.store.run ops = db at hdb hclaim ⊢
  intro d hd hkey
  rcases adapter.claimPendingDelivery_cases request hdb.deliveries with
    ⟨e, heq⟩ | ⟨-, heq⟩ | ⟨delivery, hdelivery, -, -, heq⟩
  · simp only [step, heq] at hclaim
    exact absurd hclaim (by simp)
  · simp only [step, heq] at hclaim
    exact absurd hclaim (by simp)
  · obtain ⟨hmem, heligible⟩ := Db.eligibleDelivery_eq_some hdelivery
    simp only [step, heq] at hclaim
    have hclaimed : adapter.claimedDelivery (adapter.leaseDelivery db delivery request) delivery
        request = some claimed := by
      refine claimedDelivery_of_reply ?_
      simpa using hclaim
    by_cases hleased : d.key = delivery.key
    · obtain rfl := Table.eq_of_key_eq hdb.deliveries hd hmem hleased
      exact Delivery.not_isFinished_of_isEligible heligible
    · cases adapter with
      | d1 =>
        obtain rfl := Option.some.inj hclaimed
        exact absurd hkey hleased
      | sqlite =>
        -- the row that is looked up is under a lease, so it was not finished before
        have hfound := List.mem_filter.mp (Table.mem_of_head?_orderBy hclaimed)
        simp only [Bool.and_eq_true, decide_eq_true_eq] at hfound
        obtain ⟨hrow, -, hstatus⟩ := hfound
        rcases Table.mem_update.mp hrow with ⟨hold, -⟩ | ⟨old, -, hold, rfl⟩
        · obtain rfl := Table.eq_of_key_eq hdb.deliveries hd hold hkey
          simp [Delivery.isFinished, hstatus]
        · exact absurd (hkey.trans (of_decide_eq_true hold)) hleased

end Adapter

end Comsat
