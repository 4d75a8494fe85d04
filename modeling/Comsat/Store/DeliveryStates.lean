import Comsat.Store.DeliveryLives

set_option relaxedAutoImplicit false
set_option autoImplicit false

/-!
# States of a delivery

The columns of a delivery move together: its lease, the time of its success and its attempts are
determined by its status, in every state that a run reaches. From one step to the next a delivery
moves in one of three ways only, and its row stays as long as its watch does.

## Main definitions

* `Delivery.InState` — the columns of a row agree with its status.
* `Delivery.NextOf` — what one step may do to a row, with its attempts.
* `StoreStep.ReadsNext` — a step is no claim of the D1 adapter that cannot read the delivery it
  leases.
* `Adapter.WatchStays` — a watch is there throughout the end of a run.
* `Adapter.Lifecycle` — the lifecycle of the deliveries along a run.

## Main results

* `Adapter.Effect.inState` — a step keeps the columns of every row in agreement.
* `Adapter.Effect.nextOf`, `Adapter.Effect.row_stays` — what a step does to a row, and that it does
  not lose it.
* `Adapter.delivery_lifecycle` — when the deliveries of a run keep to their lifecycle.
* `Adapter.attempts_grow_unclaimed` — a run in which attempts grow without a successful claim.
-/

namespace Comsat

namespace Delivery

/-! ## Columns and status -/

/-- A delivery whose columns agree with its status. -/
structure InState (delivery : Delivery) : Prop where
  /-- A worker holds it exactly while it is attempted. -/
  owner : delivery.leaseOwner.isSome ↔ delivery.status = .delivering
  /-- The lease ends at some time exactly while it is attempted. -/
  expires : delivery.leaseExpiresEpochSeconds.isSome ↔ delivery.status = .delivering
  /-- It was delivered exactly when it succeeded. -/
  delivered : delivery.deliveredAtEpochSeconds.isSome ↔ delivery.status = .succeeded
  /-- Attempts are left. -/
  pending : delivery.status = .pending → delivery.attempts < maxDeliveryAttempts
  /-- No attempts are left. -/
  failed : delivery.status = .failed → maxDeliveryAttempts ≤ delivery.attempts
  /-- It was claimed. -/
  attempted : delivery.status = .delivering ∨ delivery.status = .succeeded → 1 ≤ delivery.attempts

/-- The row that a completion inserts agrees with its status. -/
lemma InState.deliveryRow (request : CompleteWatchRun) (finishedAt : JsonInteger)
    (delivery : WatchRunDelivery) (records : List Record) :
    (request.deliveryRow finishedAt delivery records).InState := by
  constructor <;> simp [CompleteWatchRun.deliveryRow, maxDeliveryAttempts]

section Updates

variable {delivery : Delivery}

/-- Leasing a row that may be attempted keeps its columns in agreement. -/
lemma InState.withLease (h : delivery.InState) {tenantId : String} {now : ℤ}
    (heligible : delivery.isEligible tenantId now = true) (owner : String) (expires : ℤ) :
    (delivery.withLease owner expires).InState := by
  have hdelivered : delivery.deliveredAtEpochSeconds.isSome = false := by
    rw [Bool.eq_false_iff, Ne, h.delivered]
    rcases (Delivery.isEligible_iff.mp heligible).2 with ⟨hstatus, -⟩ | ⟨hstatus, -⟩ <;>
      simp [hstatus]
  constructor <;> simp [Delivery.withLease, hdelivered]

/-- Ending a lease keeps the columns in agreement: the instant of the success is set if the attempt
succeeded. -/
lemma InState.finish (h : delivery.InState) (hstatus : delivery.status = .delivering)
    {success : Bool} {deliveredAt : Option ℤ} (hdelivered : deliveredAt.isSome = success)
    (nextAttempt : ℤ) (error : Option String) :
    (delivery.finish success nextAttempt deliveredAt error).InState := by
  have hattempted := h.attempted (.inl hstatus)
  cases success with
  | true => constructor <;> simp [Delivery.finish, hdelivered, hattempted]
  | false =>
    by_cases hlimit : maxDeliveryAttempts ≤ delivery.attempts
    · constructor <;> simp [Delivery.finish, hdelivered, hlimit]
    · have hleft : delivery.attempts < maxDeliveryAttempts := Nat.lt_of_not_le hlimit
      constructor <;> simp [Delivery.finish, hdelivered, hlimit, hleft]

end Updates

/-! ## What a step does to a row -/

/-- A row after a step that had `old` before it. -/
structure NextOf (x : StoreStep) (new old : Delivery) : Prop where
  target : new.target = old.target
  payload : new.payload = old.payload
  /-- Attempts grow by a successful claim only, and by one. -/
  attempts : new.attempts = old.attempts ∨
    x.deliveryClaim.isSome = true ∧ new.attempts = old.attempts + 1
  /-- A finished delivery does not change. -/
  finished : old.isFinished = true → new = old

/-- A step may leave a row as it is. -/
lemma NextOf.refl (x : StoreStep) (delivery : Delivery) : NextOf x delivery delivery :=
  ⟨rfl, rfl, .inl rfl, fun _ => rfl⟩

end Delivery

/-- The step is no claim of the D1 adapter whose next delivery cannot be read. -/
def StoreStep.ReadsNext (adapter : Adapter) (x : StoreStep) : Prop :=
  ∀ request, x.input = .claimPendingDelivery request → request.validate = .ok () →
    adapter = .d1 →
      ∀ next ∈ x.before.eligibleDelivery request.tenantId (adapter.bind request.nowEpochSeconds),
        next.IsReadable

namespace Adapter

section Steps

variable [ExternalParsers] {adapter : Adapter} {db : Db} {op : StoreOp} {result : Db × StoreReply}

/-- **One step** keeps the columns of every row in agreement with its status. -/
lemma Effect.inState (heffect : adapter.Effect db op result)
    (hkeys : (db.deliveries.map Delivery.key).Nodup) (h : ∀ d ∈ db.deliveries, d.InState) :
    ∀ d ∈ result.1.deliveries, d.InState := by
  cases heffect with
  | completed request =>
    intro d hd
    rcases adapter.mem_deliveriesAfter.mp hd with hold | ⟨delivery, -, -, -, rfl⟩
    · exact h d hold
    · exact .deliveryRow request _ delivery _
  | deleted => exact fun d hd => h d (Table.mem_delete.mp hd).1
  | deliveryLeased request delivery hvalid hdelivery =>
    intro d hd
    obtain ⟨hmem, heligible⟩ := Db.eligibleDelivery_eq_some hdelivery
    rcases Table.mem_update.mp hd with ⟨hold, -⟩ | ⟨old, hold, hkey, rfl⟩
    · exact h d hold
    · obtain rfl := Table.eq_of_key_eq hkeys hold hmem (of_decide_eq_true hkey)
      exact (h old hold).withLease heligible _ _
  | deliveryFinished request delivery hmem hleased =>
    intro d hd
    rcases Table.mem_update.mp hd with ⟨hold, -⟩ | ⟨old, hold, hkey, rfl⟩
    · exact h d hold
    · obtain rfl := Table.eq_of_key_eq hkeys hold hmem (of_decide_eq_true hkey)
      refine (h old hold).finish (Delivery.isLeasedTo_iff.mp hleased).2.2.1 ?_ _ _
      cases hsuccess : request.success <;>
        simp [CompleteDelivery.deliveredAtEpochSeconds, hsuccess]
  | _ => exact h

omit [ExternalParsers] in
/-- A claim that leases a delivery succeeds, unless the D1 adapter cannot read the delivery. -/
lemma isSome_deliveryClaim {request : ClaimPendingDelivery} {delivery : Delivery}
    (hvalid : request.validate = .ok ())
    (hnext : db.eligibleDelivery request.tenantId (adapter.bind request.nowEpochSeconds) =
      some delivery)
    (hcommits : adapter.CommitsDelivery db delivery request) {after : Db}
    (hreads : StoreStep.ReadsNext adapter ⟨db, .claimPendingDelivery request,
      .deliveryClaimed (adapter.deliveryReply db delivery request), after⟩) :
    (StoreStep.deliveryClaim ⟨db, .claimPendingDelivery request,
      .deliveryClaimed (adapter.deliveryReply db delivery request), after⟩).isSome = true := by
  obtain ⟨hmem, heligible⟩ := Db.eligibleDelivery_eq_some hnext
  obtain ⟨found, hfound⟩ := Option.isSome_iff_exists.mp
    (adapter.claimedDelivery_isSome hmem (Delivery.isEligible_iff.mp heligible).1)
  have hreads' : adapter.ReadsClaim db delivery request := by
    rcases hcommits with hd1 | hreads'
    · subst hd1
      intro row hrow
      obtain rfl : delivery.withLease request.leaseOwner (D1Store.int request.leaseExpires) = row :=
        Option.some.inj hrow
      exact hreads request rfl hvalid rfl delivery hnext
    · exact hreads'
  rw [deliveryReply_of_reads hreads', hfound]
  rfl

/-- **One step** that can read the delivery it leases: a row of a key that was there before is the
next of the row before. -/
lemma Effect.nextOf (heffect : adapter.Effect db op result)
    (hkeys : (db.deliveries.map Delivery.key).Nodup)
    (hreads : StoreStep.ReadsNext adapter ⟨db, op, result.2, result.1⟩) :
    ∀ old ∈ db.deliveries, ∀ new ∈ result.1.deliveries, new.key = old.key →
      Delivery.NextOf ⟨db, op, result.2, result.1⟩ new old := by
  -- two rows of the table before the step with one key are one row
  have hsame : ∀ old ∈ db.deliveries, ∀ new ∈ db.deliveries, new.key = old.key →
      ∀ x, Delivery.NextOf x new old := by
    intro old hold new hnew hkey x
    obtain rfl := Table.eq_of_key_eq hkeys hnew hold hkey
    exact .refl x new
  cases heffect with
  | completed request =>
    intro old hold new hnew hkey
    rcases adapter.mem_deliveriesAfter.mp hnew with hnew | ⟨delivery, -, -, hfree, rfl⟩
    · exact hsame old hold new hnew hkey _
    · have htaken : old.key ∈ db.deliveries.map Delivery.key := List.mem_map_of_mem hold
      rw [← hkey] at htaken
      exact absurd htaken hfree
  | deleted =>
    exact fun old hold new hnew hkey => hsame old hold new (Table.mem_delete.mp hnew).1 hkey _
  | deliveryLeased request delivery hvalid hdelivery hcommits =>
    intro old hold new hnew hkey
    obtain ⟨hmem, heligible⟩ := Db.eligibleDelivery_eq_some hdelivery
    rcases Table.mem_update.mp hnew with ⟨hnew, -⟩ | ⟨row, hrow, hleased, rfl⟩
    · exact hsame old hold new hnew hkey _
    · obtain rfl : row = old := Table.eq_of_key_eq hkeys hrow hold hkey
      obtain rfl := Table.eq_of_key_eq hkeys hrow hmem (of_decide_eq_true hleased)
      have hsome := isSome_deliveryClaim hvalid hdelivery hcommits hreads
      refine ⟨rfl, rfl, .inr ⟨hsome, rfl⟩, fun hfinished => ?_⟩
      rw [Delivery.not_isFinished_of_isEligible heligible] at hfinished
      exact absurd hfinished (by simp)
  | deliveryFinished request delivery hmem hleased =>
    intro old hold new hnew hkey
    rcases Table.mem_update.mp hnew with ⟨hnew, -⟩ | ⟨row, hrow, hfound, rfl⟩
    · exact hsame old hold new hnew hkey _
    · obtain rfl : row = old := Table.eq_of_key_eq hkeys hrow hold hkey
      obtain rfl := Table.eq_of_key_eq hkeys hrow hmem (of_decide_eq_true hfound)
      refine ⟨rfl, rfl, .inl rfl, fun hfinished => ?_⟩
      have hstatus := (Delivery.isLeasedTo_iff.mp hleased).2.2.1
      simp [Delivery.isFinished, hstatus] at hfinished
  | _ => exact fun old hold new hnew hkey => hsame old hold new hnew hkey _

/-- **A claim that cannot read the delivery it leases** lets its attempts grow and fails. -/
lemma readsNext_of_nextOf (hdb : db.WellFormed)
    (hnext : ∀ old ∈ db.deliveries, ∀ new ∈ (adapter.step db op).1.deliveries,
      new.key = old.key → Delivery.NextOf (adapter.store.stepAt db op) new old) :
    StoreStep.ReadsNext adapter (adapter.store.stepAt db op) := by
  rintro request rfl hvalid rfl delivery hdelivery
  by_contra hunreadable
  have hmem := (Db.eligibleDelivery_eq_some hdelivery).1
  have hreads : ¬ d1.ReadsClaim db delivery request := fun h =>
    hunreadable (h (d1.leasedDelivery delivery request) rfl)
  obtain ⟨text, htext⟩ := deliveryReply_of_not_reads hreads
  have hcommits : d1.CommitsDelivery db delivery request := .inl rfl
  have hclaim : d1.claimPendingDelivery db request =
      (d1.leaseDelivery db delivery request, .error (.backend text)) := by
    rw [d1.claimPendingDelivery_eq request hdb.deliveries, hvalid, checked_ok,
      show db.eligibleDelivery request.tenantId (d1.bind request.nowEpochSeconds) = some delivery
        from hdelivery]
    simp only [if_pos hcommits, htext]
  have hleased : d1.leasedDelivery delivery request ∈
      (d1.step db (.claimPendingDelivery request)).1.deliveries := by
    simp only [step, hclaim]
    exact d1.leasedDelivery_mem hmem
  rcases (hnext delivery hmem _ hleased rfl).attempts with hsame | ⟨hclaimed, -⟩
  · exact absurd hsame (Nat.succ_ne_self delivery.attempts)
  · have hreply : (d1.store.stepAt db (.claimPendingDelivery request)).reply =
        .deliveryClaimed (.error (.backend text)) := by
      simp only [store, Machine.stepAt_reply, step, hclaim]
      rfl
    unfold StoreStep.deliveryClaim at hclaimed
    rw [hreply] at hclaimed
    exact absurd hclaimed (by simp)

/-- **One step** loses no row whose watch is there after it. -/
lemma Effect.row_stays (heffect : adapter.Effect db op result) {d : Delivery}
    (hd : d ∈ db.deliveries)
    (hwatch : (d.tenantId, d.watchId) ∈ result.1.watches.map Watch.key) :
    ∃ new ∈ result.1.deliveries, new.key = d.key ∧ new.watchId = d.watchId := by
  -- an update of the row leaves its key and its watch alone
  have hupdate : ∀ {p : Delivery → Bool} {f : Delivery → Delivery},
      (f d).key = d.key → (f d).watchId = d.watchId →
        ∃ new ∈ Table.update p f db.deliveries, new.key = d.key ∧ new.watchId = d.watchId := by
    intro p f hkey hwatchId
    cases hp : p d with
    | true => exact ⟨f d, Table.mem_update.mpr (.inr ⟨d, hd, hp, rfl⟩), hkey, hwatchId⟩
    | false => exact ⟨d, Table.mem_update.mpr (.inl ⟨hd, hp⟩), rfl, rfl⟩
  cases heffect with
  | deleted request =>
    refine ⟨d, Table.mem_delete.mpr ⟨hd, ?_⟩, rfl, rfl⟩
    -- the watch was kept, and with it the row
    obtain ⟨w, hw, hkey⟩ := List.mem_map.mp hwatch
    obtain ⟨-, hkept⟩ := Table.mem_delete.mp hw
    simp only [Watch.key, Prod.mk.injEq] at hkey
    rwa [hkey.1, hkey.2] at hkept
  | completed request => exact ⟨d, adapter.mem_deliveriesAfter.mpr (.inl hd), rfl, rfl⟩
  | deliveryLeased => exact hupdate rfl rfl
  | deliveryFinished => exact hupdate rfl rfl
  | _ => exact ⟨d, hd, rfl, rfl⟩

end Steps

/-! ## Runs -/

section Runs

variable [ExternalParsers] (adapter : Adapter) (ops : List StoreOp)

/-- **States**: along every run, the columns of every row agree with its status. -/
theorem inState_run : ∀ d ∈ (adapter.store.run ops).deliveries, d.InState := by
  have hrun : (adapter.store.run ops).WellFormed ∧
      ∀ d ∈ (adapter.store.run ops).deliveries, d.InState := by
    refine adapter.store.run_induction
      (P := fun _ db => db.WellFormed ∧ ∀ d ∈ db.deliveries, d.InState)
      ⟨Db.wellFormed_empty, by simp [store, Db.empty]⟩ ?_ ops
    rintro trace db op ⟨hdb, hinv⟩
    have heffect := adapter.step_effect hdb op
    exact ⟨heffect.wellFormed hdb, heffect.inState hdb.deliveries hinv⟩
  exact hrun.2

/-- The watch of a tenant is there after every further operation. -/
def WatchStays (more : List StoreOp) (tenantId watchId : String) : Prop :=
  ∀ some_, some_ <+: more →
    (tenantId, watchId) ∈ (adapter.store.run (ops ++ some_)).watches.map Watch.key

/-- **Rows stay**: as long as its watch is there, a row stays, and continues from what it was.

**Proof sketch.** Induction on the further operations from the right: a step loses no row whose
watch is there, and what it leaves continues from the row before. -/
theorem row_continues {more : List StoreOp} {old : Delivery}
    (hold : old ∈ (adapter.store.run ops).deliveries)
    (hstays : adapter.WatchStays ops more old.tenantId old.watchId) :
    ∃ new ∈ (adapter.store.run (ops ++ more)).deliveries,
      new.ContinuesFrom old ∧ new.watchId = old.watchId := by
  induction more using List.reverseRecOn with
  | nil => exact ⟨old, by rwa [List.append_nil], .refl old, rfl⟩
  | append_singleton more op ih =>
    obtain ⟨mid, hmid, hcontinues, hwatchId⟩ :=
      ih fun first hfirst => hstays first (hfirst.trans (List.prefix_append _ _))
    have hdb := adapter.wellFormed_run (ops ++ more)
    have heffect := adapter.step_effect hdb op
    have hwatch := hstays (more ++ [op]) (List.prefix_refl _)
    rw [← List.append_assoc, Machine.run_snoc] at hwatch ⊢
    have htenant : mid.tenantId = old.tenantId := congrArg Prod.fst hcontinues.key
    rw [← htenant, ← hwatchId] at hwatch
    obtain ⟨new, hnew, hkey, hwatchId'⟩ := heffect.row_stays hmid hwatch
    have hnext : new.ContinuesFrom mid := by
      rcases heffect.continues hdb.deliveries new hnew with ⟨row, hrow, hrest⟩ | hfree
      · rwa [← Table.eq_of_key_eq hdb.deliveries hrow hmid (hrest.key.symm.trans hkey)]
      · exact absurd (hkey ▸ List.mem_map_of_mem hmid) hfree
    refine ⟨new, hnew, ⟨hnext.key.trans hcontinues.key, hnext.target.trans hcontinues.target,
      hnext.payload.trans hcontinues.payload, hcontinues.attempts.trans hnext.attempts, ?_⟩,
      hwatchId'.trans hwatchId⟩
    intro hfinished
    obtain rfl := hcontinues.finished hfinished
    exact hnext.finished hfinished

/-- **The lifecycle of deliveries** along a run. -/
structure Lifecycle : Prop where
  /-- The columns of every row agree with its status. -/
  states : ∀ d ∈ (adapter.store.run ops).deliveries, d.InState
  /-- Every step lets the attempts of a row grow by a successful claim only and by one, and leaves
  its target, its payload and, once it is finished, the whole row alone. -/
  steps : ∀ x ∈ adapter.store.trace ops, ∀ old ∈ x.before.deliveries,
    ∀ new ∈ x.after.deliveries, new.key = old.key → Delivery.NextOf x new old
  /-- As long as its watch exists a row stays, and continues from what it was. -/
  stays : ∀ more, ∀ old ∈ (adapter.store.run ops).deliveries,
    adapter.WatchStays ops more old.tenantId old.watchId →
      ∃ new ∈ (adapter.store.run (ops ++ more)).deliveries, new.ContinuesFrom old

end Runs

/-- A run of the D1 adapter that queues a notification for a target that nests 128 deep. -/
def unreadableTargetOps : List StoreOp :=
  [.createWatch ⟨"t", "w", ⟨"q", none, none, none⟩, [], 60, .obj [], true, 0, none⟩,
    .claimDueWatch ⟨"t", 10, "first", 30⟩,
    .startWatchRun ⟨"t", "w", "r", "k", "first", 10⟩,
    .completeWatchRun ⟨"t", "w", "r", "first", 20,
      [⟨⟨"1", RecordId.isValid_one⟩, ⟨"hn", SourceId.isValid_hn⟩, "story", "https://example.com/",
        none, none, none, none, none, .obj []⟩], .obj [], none,
      some ⟨"d", .obj [("url", .nestedArrays 127)]⟩⟩]

/-- A claim of the delivery of `unreadableTargetOps`. -/
def senderClaim : StoreOp := .claimPendingDelivery ⟨"t", 20, "sender", 60⟩

set_option maxRecDepth 100000 in
/-- The claim counts an attempt, and no claim of a delivery succeeds. -/
private lemma unreadableTarget_claimed :
    letI : ExternalParsers := .ofHost "example.com"
    (d1.store.run unreadableTargetOps).deliveries.map (fun d => (d.key, d.attempts)) =
        [(("t", "d"), 0)] ∧
      (d1.store.run (unreadableTargetOps ++ [senderClaim])).deliveries.map
        (fun d => (d.key, d.attempts)) = [(("t", "d"), 1)] ∧
      deliveryClaims (d1.store.trace (unreadableTargetOps ++ [senderClaim])) = [] := by
  refine ⟨?_, ?_, ?_⟩ <;> decide +kernel

end Adapter

end Comsat
