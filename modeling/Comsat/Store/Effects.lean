import Comsat.Store.Adapter

set_option relaxedAutoImplicit false
set_option autoImplicit false

/-!
# What an operation can do

One lemma for every operation that writes: every case of its result and of the database after
it, for both adapters. Everything that is proved about runs is derived from these lemmas and from
those of `Comsat.Store.Completion`.

## Main definitions

* `Adapter.storedWatch` — the row that an adapter stores for a watch.
* `Db.KeysUnique` — every table has unique keys.

## Main results

* `Adapter.createWatch_cases`, `Adapter.deleteWatch_cases`, `Adapter.claimDueWatch_cases`,
  `Adapter.startWatchRun_cases`, `Adapter.claimPendingDelivery_cases`,
  `Adapter.completeDelivery_cases` — the cases of the operations.
-/

namespace Comsat

/-! ## Transactions -/

section Transactions

variable {α : Type} {db : Db}

/-- A transaction that commits. -/
@[simp] lemma transaction_ok (a : α) (db' : Db) :
    transaction db (.ok (a, db')) = (db', .ok a) := rfl

/-- A transaction that rolls back. -/
@[simp] lemma transaction_error (e : StoreError) :
    transaction db (.error e : StoreResult (α × Db)) = (db, .error e) := rfl

/-- A request that passes its checks. -/
@[simp] lemma checked_ok (u : Unit) (body : Db × StoreResult α) :
    checked db (.ok u) body = body := rfl

/-- A request that is refused. -/
@[simp] lemma checked_error (e : StoreError) (body : Db × StoreResult α) :
    checked db (.error e) body = (db, .error e) := rfl

/-- What a statement returned, decoded. -/
@[simp] lemma D1Store.decoded_ok (result : StoreResult α) :
    D1Store.decoded (db, .ok result) = (db, result) := rfl

/-- A statement that fails returns nothing to decode. -/
@[simp] lemma D1Store.decoded_error (e : StoreError) :
    D1Store.decoded (db, (.error e : StoreResult (StoreResult α))) = (db, .error e) := rfl

/-- A failed step ends a computation. -/
@[simp] lemma StoreResult.error_bind {β : Type} (e : StoreError) (f : α → StoreResult β) :
    ((.error e : StoreResult α) >>= f) = .error e := rfl

/-- A step that succeeds hands on its value. -/
@[simp] lemma StoreResult.ok_bind {β : Type} (a : α) (f : α → StoreResult β) :
    ((.ok a : StoreResult α) >>= f) = f a := rfl

/-- Returning a value succeeds. -/
@[simp] lemma StoreResult.pure_eq (a : α) : (pure a : StoreResult α) = .ok a := rfl

/-- Values that are each handed on are handed on. -/
lemma StoreResult.mapM_of_ok {f : α → StoreResult α} {xs : List α} (h : ∀ x ∈ xs, f x = .ok x) :
    xs.mapM f = .ok xs := by
  induction xs with
  | nil => rfl
  | cons x xs ih =>
    rw [List.mapM_cons, h x List.mem_cons_self, ih fun y hy => h y (List.mem_cons_of_mem x hy)]
    rfl

/-- Where every value is handed on or fails in the backend, a value that fails ends the whole.

**Proof sketch.** Induction on the values: the first that fails ends it. -/
lemma StoreResult.mapM_of_error {f : α → StoreResult α} {p : α → Prop}
    (hok : ∀ x, p x → f x = .ok x)
    (herror : ∀ x, ¬ p x → ∃ text, f x = .error (.backend text)) {xs : List α}
    (h : ∃ x ∈ xs, ¬ p x) : ∃ text, xs.mapM f = .error (.backend text) := by
  induction xs with
  | nil =>
    obtain ⟨x, hx, -⟩ := h
    exact absurd hx List.not_mem_nil
  | cons x xs ih =>
    rw [List.mapM_cons]
    by_cases hx : p x
    · obtain ⟨y, hy, hnot⟩ := h
      have hrest : ∃ y ∈ xs, ¬ p y := by
        rcases List.mem_cons.mp hy with rfl | hy
        · exact absurd hx hnot
        · exact ⟨y, hy, hnot⟩
      obtain ⟨text, htext⟩ := ih hrest
      rw [hok x hx, htext]
      exact ⟨text, rfl⟩
    · obtain ⟨text, htext⟩ := herror x hx
      rw [htext]
      exact ⟨text, rfl⟩

end Transactions

/-! ## Checks -/

/-- An accepted duration lies between a second and a year. -/
lemma validateInterval_eq_ok {value : ℕ} :
    validateInterval value = .ok () ↔ 1 ≤ value ∧ value ≤ 31536000 := by
  rw [validateInterval]
  split <;> simp_all

/-- A duration of at most a year is a signed 64-bit integer. -/
lemma i64FromU64_of_le {value : ℕ} (name : String) (h : value ≤ 31536000) :
    i64FromU64 value name = .ok value := by
  rw [i64FromU64, if_pos (by omega)]

/-- A computation that succeeds has a first step that does. -/
lemma StoreResult.exists_of_bind_eq_ok {α β : Type} {x : StoreResult α} {f : α → StoreResult β}
    {b : β} (h : (x >>= f) = .ok b) : ∃ a, x = .ok a ∧ f a = .ok b := by
  cases x with
  | error e => cases h
  | ok a => exact ⟨a, rfl, h⟩

/-- An accepted request to create a watch has an interval between a second and a year. -/
lemma CreateWatch.interval_of_validate [ExternalParsers] {request : CreateWatch}
    (h : request.validate = .ok ()) :
    1 ≤ request.intervalSeconds ∧ request.intervalSeconds ≤ 31536000 := by
  obtain ⟨_, -, h⟩ := StoreResult.exists_of_bind_eq_ok h
  obtain ⟨_, -, h⟩ := StoreResult.exists_of_bind_eq_ok h
  obtain ⟨_, hinterval, -⟩ := StoreResult.exists_of_bind_eq_ok h
  exact validateInterval_eq_ok.mp hinterval

/-- An accepted claim of a watch has a lease between a second and a year. -/
lemma ClaimDueWatch.lease_of_validate {request : ClaimDueWatch} (h : request.validate = .ok ()) :
    1 ≤ request.leaseSeconds ∧ request.leaseSeconds ≤ 31536000 := by
  obtain ⟨_, -, h⟩ := StoreResult.exists_of_bind_eq_ok h
  obtain ⟨_, -, h⟩ := StoreResult.exists_of_bind_eq_ok h
  exact validateInterval_eq_ok.mp h

/-- An accepted claim of a delivery has a lease between a second and a year. -/
lemma ClaimPendingDelivery.lease_of_validate {request : ClaimPendingDelivery}
    (h : request.validate = .ok ()) :
    1 ≤ request.leaseSeconds ∧ request.leaseSeconds ≤ 31536000 := by
  obtain ⟨_, -, h⟩ := StoreResult.exists_of_bind_eq_ok h
  obtain ⟨_, -, h⟩ := StoreResult.exists_of_bind_eq_ok h
  exact validateInterval_eq_ok.mp h

/-! ## Unique keys -/

/-- Every table has unique keys. -/
structure Db.KeysUnique (db : Db) : Prop where
  /-- Of the sources. -/
  sources : (db.sources.map SourceRow.key).Nodup
  /-- Of the watches. -/
  watches : (db.watches.map Watch.key).Nodup
  /-- Of the runs. -/
  watchRuns : (db.watchRuns.map WatchRun.key).Nodup
  /-- The idempotency keys of the runs. -/
  idempotency : (db.watchRuns.map WatchRun.idempotency).Nodup
  /-- Of the records. -/
  records : (db.records.map RecordRow.key).Nodup
  /-- Of the records of the watches. -/
  watchRecords : (db.watchRecords.map WatchRecordRow.key).Nodup
  /-- Of the deliveries. -/
  deliveries : (db.deliveries.map Delivery.key).Nodup

/-- Each of the conditions of a due watch. -/
lemma Watch.isDue_iff {watch : Watch} {tenantId : String} {now : ℤ} :
    watch.isDue tenantId now = true ↔ watch.tenantId = tenantId ∧ watch.enabled = true ∧
      watch.nextDueEpochSeconds ≤ now ∧ (watch.leaseExpiresEpochSeconds = none ∨
        isPast watch.leaseExpiresEpochSeconds now = true) := by
  simp [isDue, and_assoc]

/-- Each of the conditions of a leased watch. -/
lemma Watch.isLeasedTo_iff {watch : Watch} {tenantId watchId owner : String} {now : ℤ} :
    watch.isLeasedTo tenantId watchId owner now = true ↔ watch.key = (tenantId, watchId) ∧
      watch.leaseOwner = some owner ∧
      ∃ expires, watch.leaseExpiresEpochSeconds = some expires ∧ now < expires := by
  simp [isLeasedTo, isFuture, key, Option.any_eq_true, and_assoc]

/-- Each of the conditions of a run under an owner. -/
lemma WatchRun.isRunningUnder_iff {run : WatchRun} {tenantId watchId runId owner : String} :
    run.isRunningUnder tenantId watchId runId owner = true ↔
      run.key = (tenantId, watchId, runId) ∧ run.leaseOwner = owner ∧ run.status = .running := by
  simp [isRunningUnder, key, and_assoc]

/-- Once a watch is leased, the lease selects the rows with its key. -/
lemma Watch.isLeasedTo_eq {watches : List Watch} {tenantId watchId owner : String} {now : ℤ}
    (hkeys : (watches.map Watch.key).Nodup) {w : Watch} (hw : w ∈ watches)
    (hleased : w.isLeasedTo tenantId watchId owner now = true) :
    ∀ v ∈ watches, v.isLeasedTo tenantId watchId owner now =
      decide (v.key = (tenantId, watchId)) := by
  intro v hv
  have hkey := (Watch.isLeasedTo_iff.mp hleased).1
  by_cases hk : v.key = (tenantId, watchId)
  · obtain rfl := Table.eq_of_key_eq hkeys hv hw (hk.trans hkey.symm)
    simp [hleased, hk]
  · rw [decide_eq_false hk, Bool.eq_false_iff]
    exact fun h => hk (Watch.isLeasedTo_iff.mp h).1

/-- Once a run is running under an owner, the condition selects the rows with its key. -/
lemma WatchRun.isRunningUnder_eq {runs : List WatchRun} {tenantId watchId runId owner : String}
    (hkeys : (runs.map WatchRun.key).Nodup) {r : WatchRun} (hr : r ∈ runs)
    (hrunning : r.isRunningUnder tenantId watchId runId owner = true) :
    ∀ q ∈ runs, q.isRunningUnder tenantId watchId runId owner =
      decide (q.key = (tenantId, watchId, runId)) := by
  intro q hq
  have hkey := (WatchRun.isRunningUnder_iff.mp hrunning).1
  by_cases hk : q.key = (tenantId, watchId, runId)
  · obtain rfl := Table.eq_of_key_eq hkeys hq hr (hk.trans hkey.symm)
    simp [hrunning, hk]
  · rw [decide_eq_false hk, Bool.eq_false_iff]
    exact fun h => hk (WatchRun.isRunningUnder_iff.mp h).1

/-- Each of the conditions of a delivery that may be attempted. -/
lemma Delivery.isEligible_iff {delivery : Delivery} {tenantId : String} {now : ℤ} :
    delivery.isEligible tenantId now = true ↔ delivery.tenantId = tenantId ∧
      (delivery.status = .pending ∧ delivery.nextAttemptEpochSeconds ≤ now ∨
        delivery.status = .delivering ∧
          isPast delivery.leaseExpiresEpochSeconds now = true) := by
  simp [isEligible]

/-- Each of the conditions of a leased delivery. -/
lemma Delivery.isLeasedTo_iff {delivery : Delivery} {tenantId deliveryId owner : String}
    {now : ℤ} :
    delivery.isLeasedTo tenantId deliveryId owner now = true ↔
      delivery.key = (tenantId, deliveryId) ∧ delivery.leaseOwner = some owner ∧
      delivery.status = .delivering ∧
      ∃ expires, delivery.leaseExpiresEpochSeconds = some expires ∧ now < expires := by
  simp [isLeasedTo, isFuture, key, Option.any_eq_true, and_assoc]

namespace Adapter

/-! ## Reading rows -/

/-- The error of a column whose text cannot be parsed. -/
def readError : Adapter → String → StoreError
  | sqlite => SqliteStore.jsonErr
  | d1 => D1Store.jsonError

/-- The watch that an adapter reads from a row. -/
def readWatch (adapter : Adapter) (row : Watch) : StoreResult Watch :=
  row.readBack.mapError adapter.readError

/-- The observation that an adapter reads from a row. -/
def readObservation (adapter : Adapter) (row : RecordObservation) :
    StoreResult RecordObservation := row.readBack.mapError adapter.readError

/-- The delivery that an adapter reads from a row. -/
def readDelivery (adapter : Adapter) (row : Delivery) : StoreResult Delivery :=
  row.readBack.mapError adapter.readError

/-- An error of reading a row is one of the backend. -/
lemma readError_eq (adapter : Adapter) (message : String) :
    ∃ text, adapter.readError message = .backend text := by
  cases adapter <;> exact ⟨_, rfl⟩

/-- A readable watch is read as it is. -/
lemma readWatch_of_readable (adapter : Adapter) {row : Watch} (h : row.IsReadable) :
    adapter.readWatch row = .ok row := by
  rw [readWatch, Watch.readBack_of_readable h]
  rfl

/-- A watch that is not readable is not read. -/
lemma readWatch_of_not_readable (adapter : Adapter) {row : Watch} (h : ¬ row.IsReadable) :
    ∃ text, adapter.readWatch row = .error (.backend text) := by
  obtain ⟨message, hmessage⟩ := Watch.readBack_of_not_readable h
  obtain ⟨text, htext⟩ := adapter.readError_eq message
  exact ⟨text, by rw [readWatch, hmessage, ← htext]; rfl⟩

/-- A readable observation is read as it is. -/
lemma readObservation_of_readable (adapter : Adapter) {row : RecordObservation}
    (h : row.IsReadable) : adapter.readObservation row = .ok row := by
  rw [readObservation, RecordObservation.readBack_of_readable h]
  rfl

/-- An observation that is not readable is not read. -/
lemma readObservation_of_not_readable (adapter : Adapter) {row : RecordObservation}
    (h : ¬ row.IsReadable) : ∃ text, adapter.readObservation row = .error (.backend text) := by
  obtain ⟨message, hmessage⟩ := RecordObservation.readBack_of_not_readable h
  obtain ⟨text, htext⟩ := adapter.readError_eq message
  exact ⟨text, by rw [readObservation, hmessage, ← htext]; rfl⟩

/-- A readable delivery is read as it is. -/
lemma readDelivery_of_readable (adapter : Adapter) {row : Delivery} (h : row.IsReadable) :
    adapter.readDelivery row = .ok row := by
  rw [readDelivery, Delivery.readBack_of_readable h]
  rfl

/-- A delivery that is not readable is not read. -/
lemma readDelivery_of_not_readable (adapter : Adapter) {row : Delivery} (h : ¬ row.IsReadable) :
    ∃ text, adapter.readDelivery row = .error (.backend text) := by
  obtain ⟨message, hmessage⟩ := Delivery.readBack_of_not_readable h
  obtain ⟨text, htext⟩ := adapter.readError_eq message
  exact ⟨text, by rw [readDelivery, hmessage, ← htext]; rfl⟩

/-- What an optional delivery is read as is the delivery. -/
lemma mapM_readDelivery_eq_some (adapter : Adapter) {row : Option Delivery} {read : Delivery}
    (h : row.mapM adapter.readDelivery = .ok (some read)) : row = some read := by
  cases row with
  | none => cases h
  | some row =>
    rw [Option.mapM_some] at h
    by_cases hreadable : row.IsReadable
    · rw [adapter.readDelivery_of_readable hreadable] at h
      exact Except.ok.inj h
    · obtain ⟨text, htext⟩ := adapter.readDelivery_of_not_readable hreadable
      rw [htext] at h
      cases h

/-! ## Creating and deleting watches -/

/-- The row that an adapter stores for a watch. -/
def storedWatch (adapter : Adapter) (watch : Watch) : Watch :=
  { watch with
    createdAtEpochSeconds := adapter.bind watch.createdAtEpochSeconds
    nextDueEpochSeconds := adapter.bind watch.nextDueEpochSeconds }

/-- A stored watch has the key of the watch. -/
@[simp] lemma storedWatch_key (adapter : Adapter) (watch : Watch) :
    (adapter.storedWatch watch).key = watch.key := rfl

/-- A stored watch has the lease of the watch. -/
@[simp] lemma storedWatch_leaseOwner (adapter : Adapter) (watch : Watch) :
    (adapter.storedWatch watch).leaseOwner = watch.leaseOwner := rfl

/-- The row that the D1 adapter binds for a watch with an accepted interval. -/
lemma watchValues_eq {watch : Watch} (h : watch.intervalSeconds ≤ 31536000) :
    D1Store.watchValues watch = .ok (d1.storedWatch watch) := by
  have hint : (D1Store.int watch.intervalSeconds).toNat = watch.intervalSeconds := by
    rw [D1Store.int, Double.ofInt_eq_self (by omega) (by omega), Int.toNat_natCast]
  simp only [D1Store.watchValues, i64FromU64_of_le _ h, StoreResult.ok_bind, hint,
    StoreResult.pure_eq]
  rfl

/-- Recording a source, after the checks. -/
theorem upsertSource_eq (adapter : Adapter) (db : Db) (request : UpsertSource) :
    adapter.upsertSource db request = checked db request.validate
      (db.upsertSource ⟨request.tenantId, request.sourceId, request.enabled,
        adapter.bind request.observedAtEpochSeconds⟩, .ok ()) := by
  cases adapter
  all_goals
    simp only [upsertSource, SqliteStore.upsertSource, D1Store.upsertSource]
    cases request.validate <;> rfl

/-- Creating a watch, after the checks: it fails if the key is taken, and appends the watch else. -/
theorem createWatch_eq [ExternalParsers] (adapter : Adapter) (db : Db) (request : CreateWatch) :
    adapter.createWatch db request = checked db request.validate
      (if request.intoWatch.key ∈ db.watches.map Watch.key then
        (db, .error (.backend "UNIQUE constraint failed: watches.tenant_id, watches.watch_id"))
      else
        ({ db with watches := db.watches ++ [adapter.storedWatch request.intoWatch] },
          .ok request.intoWatch)) := by
  cases hv : request.validate with
  | error e =>
    cases adapter <;> simp [createWatch, SqliteStore.createWatch, D1Store.createWatch, hv]
  | ok _ =>
    have hle : request.intoWatch.intervalSeconds ≤ 31536000 :=
      (CreateWatch.interval_of_validate hv).2
    rw [checked_ok]
    by_cases hk : request.intoWatch.key ∈ db.watches.map Watch.key
    · rw [if_pos hk]
      have hexists : ∀ w : Watch, w.key = request.intoWatch.key →
          Table.exists? Watch.key db.watches w = true := fun w hw =>
        Table.exists?_iff.mpr (hw ▸ hk)
      cases adapter
      · simp [createWatch, SqliteStore.createWatch, hv, i64FromU64_of_le _ hle, Db.insertWatch,
          hexists _ rfl]
      · simp [createWatch, D1Store.createWatch, hv, watchValues_eq hle, Db.insertWatch,
          hexists _ (storedWatch_key d1 _)]
    · rw [if_neg hk]
      have hfree : ∀ w : Watch, w.key = request.intoWatch.key →
          Table.exists? Watch.key db.watches w = false := fun w hw =>
        Table.exists?_eq_false.mpr (hw ▸ hk)
      cases adapter
      · simp only [createWatch, SqliteStore.createWatch, hv, i64FromU64_of_le _ hle,
          Db.insertWatch, hfree _ rfl, StoreResult.ok_bind, StoreResult.pure_eq, transaction_ok,
          Bool.false_eq_true, ↓reduceIte]
        rfl
      · simp only [createWatch, D1Store.createWatch, hv, watchValues_eq hle, Db.insertWatch,
          hfree _ (storedWatch_key d1 _), StoreResult.ok_bind, StoreResult.pure_eq,
          transaction_ok, Bool.false_eq_true, ↓reduceIte]

/-- Creating a watch fails and leaves the database alone, or appends the watch under a new key. -/
theorem createWatch_cases [ExternalParsers] (adapter : Adapter) (db : Db)
    (request : CreateWatch) :
    (∃ e, adapter.createWatch db request = (db, .error e)) ∨
      request.validate = .ok () ∧ request.intoWatch.key ∉ db.watches.map Watch.key ∧
        adapter.createWatch db request =
          ({ db with watches := db.watches ++ [adapter.storedWatch request.intoWatch] },
            .ok request.intoWatch) := by
  rw [createWatch_eq]
  cases hv : request.validate with
  | error e => exact .inl ⟨e, rfl⟩
  | ok _ =>
    rw [checked_ok]
    split
    · exact .inl ⟨_, rfl⟩
    · rename_i hk
      exact .inr ⟨rfl, hk, rfl⟩

/-- Deleting a watch, after the checks. -/
theorem deleteWatch_eq (adapter : Adapter) (db : Db) (request : DeleteWatch) :
    adapter.deleteWatch db request = checked db request.validate
      (db.deleteWatch request.tenantId request.watchId,
        .ok (decide (0 < db.watches.countP fun w =>
          w.tenantId = request.tenantId && w.watchId = request.watchId))) := by
  cases adapter
  all_goals
    simp only [deleteWatch, SqliteStore.deleteWatch, D1Store.deleteWatch]
    cases request.validate <;> rfl

/-- Deleting a watch fails and leaves the database alone, or deletes it with all that refers to
it. -/
theorem deleteWatch_cases (adapter : Adapter) (db : Db) (request : DeleteWatch) :
    (∃ e, adapter.deleteWatch db request = (db, .error e)) ∨
      ∃ found, adapter.deleteWatch db request =
        (db.deleteWatch request.tenantId request.watchId, .ok found) := by
  rw [deleteWatch_eq]
  cases request.validate with
  | error e => exact .inl ⟨e, rfl⟩
  | ok _ => exact .inr ⟨_, rfl⟩

/-! ## Claiming watches -/

end Adapter

/-- When the lease of a claim of a watch expires. -/
def ClaimDueWatch.leaseExpires (request : ClaimDueWatch) : ℤ :=
  addI64 request.nowEpochSeconds request.leaseSeconds

/-- When the lease of a claim of a delivery expires. -/
def ClaimPendingDelivery.leaseExpires (request : ClaimPendingDelivery) : ℤ :=
  addI64 request.nowEpochSeconds request.leaseSeconds

/-- A watch that is found due is a row and is due. -/
lemma Db.dueWatch_eq_some {db : Db} {tenantId : String} {now : ℤ} {due : Watch}
    (h : db.dueWatch tenantId now = some due) :
    due ∈ db.watches ∧ due.isDue tenantId now = true :=
  List.mem_filter.mp (Table.mem_of_head?_orderBy h)

/-- A delivery that is found eligible is a row and is eligible. -/
lemma Db.eligibleDelivery_eq_some {db : Db} {tenantId : String} {now : ℤ} {delivery : Delivery}
    (h : db.eligibleDelivery tenantId now = some delivery) :
    delivery ∈ db.deliveries ∧ delivery.isEligible tenantId now = true :=
  List.mem_filter.mp (Table.mem_of_head?_orderBy h)

namespace Adapter

/-- The watch that a claim returns: the row before the claim, or the row after it. -/
def claimedWatch (adapter : Adapter) (due : Watch) (owner : String) (expires : ℤ) : Watch :=
  match adapter with
  | sqlite => due
  | d1 => due.withLease owner (D1Store.int expires)

/-- A claim returns the watch it claimed. -/
@[simp] lemma claimedWatch_key (adapter : Adapter) (due : Watch) (owner : String) (expires : ℤ) :
    (adapter.claimedWatch due owner expires).key = due.key := by
  cases adapter <;> rfl

/-- The database after a watch is leased. -/
def leaseWatch (adapter : Adapter) (db : Db) (due : Watch) (request : ClaimDueWatch) : Db :=
  { db with
    watches := Table.update (fun w => w.key = due.key)
      (fun w => w.withLease request.leaseOwner (adapter.bind request.leaseExpires)) db.watches }

/-- A claim of a watch commits: the D1 adapter reads the row when it has leased it, the SQLite
adapter before. -/
def CommitsClaim (adapter : Adapter) (due : Watch) : Prop := adapter = .d1 ∨ due.IsReadable

instance (adapter : Adapter) (due : Watch) : Decidable (adapter.CommitsClaim due) :=
  inferInstanceAs (Decidable (_ ∨ _))

/-- What a claim that finds a watch due replies. -/
def claimReply (adapter : Adapter) (due : Watch) (request : ClaimDueWatch) :
    StoreResult (Option ClaimedWatch) :=
  (adapter.readWatch due).map fun _ =>
    some ⟨adapter.claimedWatch due request.leaseOwner request.leaseExpires, request.leaseOwner,
      request.leaseExpires⟩

/-- A claim of a readable watch returns it. -/
lemma claimReply_of_readable (adapter : Adapter) {due : Watch} (h : due.IsReadable)
    (request : ClaimDueWatch) : adapter.claimReply due request =
      .ok (some ⟨adapter.claimedWatch due request.leaseOwner request.leaseExpires,
        request.leaseOwner, request.leaseExpires⟩) := by
  rw [claimReply, adapter.readWatch_of_readable h]
  rfl

/-- A claim of a watch that is not readable fails. -/
lemma claimReply_of_not_readable (adapter : Adapter) {due : Watch} (h : ¬ due.IsReadable)
    (request : ClaimDueWatch) : ∃ text, adapter.claimReply due request = .error (.backend text) := by
  obtain ⟨text, htext⟩ := adapter.readWatch_of_not_readable h
  exact ⟨text, by rw [claimReply, htext]; rfl⟩

/-- What a claim that succeeds returns. -/
lemma eq_of_claimReply {adapter : Adapter} {due : Watch} {request : ClaimDueWatch}
    {claim : ClaimedWatch} (h : adapter.claimReply due request = .ok (some claim)) :
    claim = ⟨adapter.claimedWatch due request.leaseOwner request.leaseExpires, request.leaseOwner,
      request.leaseExpires⟩ := by
  by_cases hreadable : due.IsReadable
  · rw [adapter.claimReply_of_readable hreadable] at h
    exact (Option.some.inj (Except.ok.inj h)).symm
  · obtain ⟨text, htext⟩ := adapter.claimReply_of_not_readable hreadable request
    rw [htext] at h
    cases h

/-- The D1 adapter replies to a claim with the leased row that it reads. -/
private lemma d1_claimReply (due : Watch) (request : ClaimDueWatch) :
    d1.claimReply due request =
      (some (due.withLease request.leaseOwner (D1Store.int request.leaseExpires))).mapM
        fun row => D1Store.claimedWatch row request.leaseOwner request.leaseExpires := by
  simp only [claimReply, readWatch, Watch.readBack, Option.mapM_some, D1Store.claimedWatch,
    D1Store.intoWatch]
  cases hread : due.cursor.readBack with
  | error message =>
    have hleased : (due.withLease request.leaseOwner
        (D1Store.int request.leaseExpires)).cursor.readBack = .error message := hread
    rw [hleased]
    rfl
  | ok cursor =>
    have hleased : (due.withLease request.leaseOwner
        (D1Store.int request.leaseExpires)).cursor.readBack = .ok cursor := hread
    obtain rfl := (Json.eq_of_readBack hread).1
    rw [hleased]
    rfl

/-- The rows that the claim of a watch updates are those with its key: it is due itself, and every due
watch of the tenant with its identifier has its key. -/
private lemma isDue_eq {db : Db} {tenantId : String} {now : ℤ} {due : Watch}
    (hkeys : (db.watches.map Watch.key).Nodup) (h : db.dueWatch tenantId now = some due) :
    ∀ w ∈ db.watches, (decide (w.watchId = due.watchId) && w.isDue tenantId now) =
      decide (w.key = due.key) := by
  intro w hw
  obtain ⟨hmem, hisDue⟩ := Db.dueWatch_eq_some h
  have htenant := (Watch.isDue_iff.mp hisDue).1
  by_cases hk : w.key = due.key
  · obtain rfl := Table.eq_of_key_eq hkeys hw hmem hk
    simp [hisDue]
  · rw [decide_eq_false hk, Bool.and_eq_false_iff, or_iff_not_imp_left]
    intro hid
    rw [Bool.not_eq_false, decide_eq_true_eq] at hid
    refine Bool.eq_false_iff.mpr fun hisDue' => hk ?_
    rw [Watch.key, Watch.key, hid, htenant, (Watch.isDue_iff.mp hisDue').1]

/-- The SQLite adapter reads the watch that it has found, and then leases it. -/
private lemma sqlite_claimDueWatch {db : Db} {request : ClaimDueWatch} {due : Watch}
    (hkeys : (db.watches.map Watch.key).Nodup) (hv : request.validate = .ok ())
    (hdue : db.dueWatch request.tenantId request.nowEpochSeconds = some due) :
    SqliteStore.claimDueWatch db request =
      (if sqlite.CommitsClaim due then sqlite.leaseWatch db due request else db,
        sqlite.claimReply due request) := by
  have hlease := i64FromU64_of_le "lease_seconds" (ClaimDueWatch.lease_of_validate hv).2
  have hmem := (Db.dueWatch_eq_some hdue).1
  have hselect := isDue_eq hkeys hdue
  have hpos : db.watches.countP (fun w => decide (w.watchId = due.watchId) &&
      w.isDue request.tenantId request.nowEpochSeconds) ≠ 0 := by
    rw [Ne, List.countP_eq_zero]
    intro hall
    exact hall due hmem (by rw [hselect due hmem]; simp)
  have hread : SqliteStore.watchFromRow due = sqlite.readWatch due := rfl
  by_cases hreadable : due.IsReadable
  · have hcommits : sqlite.CommitsClaim due := .inr hreadable
    rw [if_pos hcommits, claimReply_of_readable _ hreadable]
    simp only [SqliteStore.claimDueWatch, hv, hdue, hlease, hread,
      sqlite.readWatch_of_readable hreadable, StoreResult.ok_bind, StoreResult.pure_eq, hpos,
      ↓reduceIte, transaction_ok, leaseWatch, Table.update_congr hselect fun _ _ _ => rfl]
    rfl
  · obtain ⟨text, htext⟩ := sqlite.readWatch_of_not_readable hreadable
    have hcommits : ¬ sqlite.CommitsClaim due := by
      rintro (h | h)
      · cases h
      · exact hreadable h
    rw [if_neg hcommits, claimReply, htext]
    simp only [SqliteStore.claimDueWatch, hv, hdue, hread, htext, StoreResult.ok_bind,
      StoreResult.error_bind, transaction_error]
    rfl

/-- The D1 adapter leases the watch that it has found, and then reads it. -/
private lemma d1_claimDueWatch {db : Db} {request : ClaimDueWatch} {due : Watch}
    (hkeys : (db.watches.map Watch.key).Nodup) (hv : request.validate = .ok ())
    (hdue : db.dueWatch request.tenantId (D1Store.int request.nowEpochSeconds) = some due) :
    D1Store.claimDueWatch db request =
      (d1.leaseWatch db due request, d1.claimReply due request) := by
  have hlease := i64FromU64_of_le "lease_seconds" (ClaimDueWatch.lease_of_validate hv).2
  have hselect : ∀ w ∈ db.watches, (w.isDue request.tenantId
      (D1Store.int request.nowEpochSeconds) && decide (due.watchId = w.watchId)) =
        decide (w.key = due.key) := by
    intro w hw
    rw [← isDue_eq hkeys hdue w hw, Bool.and_comm]
    congr 1
    exact decide_eq_decide.mpr eq_comm
  have hfilter : db.watches.filter (fun w => w.isDue request.tenantId
      (D1Store.int request.nowEpochSeconds) && decide (due.watchId = w.watchId)) = [due] := by
    rw [List.filter_congr hselect, Table.filter_key_eq hkeys (Db.dueWatch_eq_some hdue).1]
  rw [d1_claimReply]
  simp only [D1Store.claimDueWatch, hv, hdue, hlease, StoreResult.ok_bind, StoreResult.pure_eq,
    transaction_ok, leaseWatch, Option.any_some, Table.update_congr hselect fun _ _ _ => rfl, hfilter,
    D1Store.decoded_ok]
  rfl

/-- Claiming a watch, after the checks: it finds no due watch, or leases the first one.

**Proof sketch.** With unique keys, the rows that the update statements select are those with the
key of the watch that was found (`isDue_eq`). -/
theorem claimDueWatch_eq (adapter : Adapter) {db : Db} (request : ClaimDueWatch)
    (hkeys : (db.watches.map Watch.key).Nodup) :
    adapter.claimDueWatch db request = checked db request.validate
      (match db.dueWatch request.tenantId (adapter.bind request.nowEpochSeconds) with
        | none => (db, .ok none)
        | some due => (if adapter.CommitsClaim due then adapter.leaseWatch db due request else db,
          adapter.claimReply due request)) := by
  cases hv : request.validate with
  | error e =>
    cases adapter <;> simp [claimDueWatch, SqliteStore.claimDueWatch, D1Store.claimDueWatch, hv]
  | ok _ =>
    rw [checked_ok]
    cases hdue : db.dueWatch request.tenantId (adapter.bind request.nowEpochSeconds) with
    | none =>
      cases adapter with
      | sqlite =>
        change db.dueWatch request.tenantId request.nowEpochSeconds = none at hdue
        simp [claimDueWatch, SqliteStore.claimDueWatch, hv, hdue]
      | d1 =>
        change db.dueWatch request.tenantId (D1Store.int request.nowEpochSeconds) = none at hdue
        have hlease := i64FromU64_of_le "lease_seconds" (ClaimDueWatch.lease_of_validate hv).2
        have hnone : ∀ w ∈ db.watches, (w.isDue request.tenantId
            (D1Store.int request.nowEpochSeconds) && false) = false := fun w _ =>
          Bool.and_false _
        simp only [claimDueWatch, D1Store.claimDueWatch, hv, hlease, StoreResult.ok_bind,
          StoreResult.pure_eq, transaction_ok, D1Store.decoded_ok, hdue, Option.any_none,
          Table.update_of_forall_not hnone]
        simp
    | some due =>
      cases adapter with
      | sqlite => exact sqlite_claimDueWatch hkeys hv hdue
      | d1 =>
        have hcommits : d1.CommitsClaim due := .inl rfl
        dsimp only
        rw [if_pos hcommits]
        exact d1_claimDueWatch hkeys hv hdue

/-- Claiming a watch fails and leaves the database alone, finds no due watch, or leases the first
due watch. -/
theorem claimDueWatch_cases (adapter : Adapter) {db : Db} (request : ClaimDueWatch)
    (hkeys : (db.watches.map Watch.key).Nodup) :
    (∃ e, adapter.claimDueWatch db request = (db, .error e)) ∨
      (db.dueWatch request.tenantId (adapter.bind request.nowEpochSeconds) = none ∧
        adapter.claimDueWatch db request = (db, .ok none)) ∨
      ∃ due, db.dueWatch request.tenantId (adapter.bind request.nowEpochSeconds) = some due ∧
        request.validate = .ok () ∧ adapter.CommitsClaim due ∧
        adapter.claimDueWatch db request =
          (adapter.leaseWatch db due request, adapter.claimReply due request) := by
  rw [claimDueWatch_eq adapter request hkeys]
  cases hv : request.validate with
  | error e => exact .inl ⟨e, rfl⟩
  | ok _ =>
    cases hdue : db.dueWatch request.tenantId (adapter.bind request.nowEpochSeconds) with
    | none => exact .inr (.inl ⟨rfl, rfl⟩)
    | some due =>
      by_cases hcommits : adapter.CommitsClaim due
      · exact .inr (.inr ⟨due, rfl, rfl, hcommits, by simp only [checked_ok, if_pos hcommits]⟩)
      · obtain ⟨text, htext⟩ :=
          adapter.claimReply_of_not_readable (fun h => hcommits (.inr h)) request
        exact .inl ⟨_, by simp only [checked_ok, if_neg hcommits, htext]; rfl⟩

/-! ## Starting runs -/

/-- The row that an adapter inserts for a run. -/
def startedRun (adapter : Adapter) (request : StartWatchRun) : WatchRun :=
  ⟨request.tenantId, request.watchId, request.runId, request.idempotencyKey, request.leaseOwner,
    .running, adapter.bind request.startedAtEpochSeconds, none, none⟩

/-- Both adapters start a run by the same two statements. -/
theorem startWatchRun_eq (adapter : Adapter) (db : Db) (request : StartWatchRun) :
    adapter.startWatchRun db request = checked db request.validate
      (match db.insertRun (adapter.startedRun request) with
        | .ok db' => (db', match db'.loadRun request.tenantId request.watchId
              request.idempotencyKey with
            | some run => .ok run
            | none => .error (.conflict "watch is not currently claimed by this worker"))
        | .error e => (db, .error e)) := by
  cases adapter <;> rfl

/-- Starting a run leaves the database alone, with an error or with the run of the same key, or
inserts a new run under an unexpired lease. -/
theorem startWatchRun_cases (adapter : Adapter) (db : Db) (request : StartWatchRun) :
    (∃ e, adapter.startWatchRun db request = (db, .error e)) ∨
      (∃ run ∈ db.watchRuns,
        db.loadRun request.tenantId request.watchId request.idempotencyKey = some run ∧
        adapter.startWatchRun db request = (db, .ok run)) ∨
      (∃ w ∈ db.watches, w.isLeasedTo request.tenantId request.watchId request.leaseOwner
          (adapter.bind request.startedAtEpochSeconds) = true) ∧
        (adapter.startedRun request).idempotency ∉ db.watchRuns.map WatchRun.idempotency ∧
        (adapter.startedRun request).key ∉ db.watchRuns.map WatchRun.key ∧
        adapter.startWatchRun db request =
          ({ db with watchRuns := db.watchRuns ++ [adapter.startedRun request] },
            .ok (adapter.startedRun request)) := by
  rw [startWatchRun_eq]
  cases hv : request.validate with
  | error e => exact .inl ⟨e, rfl⟩
  | ok _ =>
    rw [checked_ok, Db.insertRun]
    -- what a start that inserts nothing finds
    have hfound : ∀ b : StoreResult WatchRun, b = (match db.loadRun request.tenantId
        request.watchId request.idempotencyKey with
          | some run => .ok run
          | none => .error (.conflict "watch is not currently claimed by this worker")) →
        (∃ e, (db, b) = (db, .error e)) ∨ ∃ run ∈ db.watchRuns,
          db.loadRun request.tenantId request.watchId request.idempotencyKey = some run ∧
          (db, b) = (db, .ok run) := by
      rintro b rfl
      cases hrun : db.loadRun request.tenantId request.watchId request.idempotencyKey with
      | none => exact .inl ⟨_, rfl⟩
      | some run => exact .inr ⟨run, List.mem_of_find?_eq_some hrun, rfl, rfl⟩
    by_cases hleased : (db.watches.any fun w => w.isLeasedTo (adapter.startedRun request).tenantId
        (adapter.startedRun request).watchId (adapter.startedRun request).leaseOwner
        (adapter.startedRun request).startedAtEpochSeconds) = true
    · rw [if_pos hleased]
      by_cases hidem : (adapter.startedRun request).idempotency ∈
          db.watchRuns.map WatchRun.idempotency
      · rw [if_pos (Table.exists?_iff.mpr hidem)]
        exact (hfound _ rfl).imp_right .inl
      · rw [if_neg (by rwa [Table.exists?_iff])]
        by_cases hkey : (adapter.startedRun request).key ∈ db.watchRuns.map WatchRun.key
        · rw [if_pos (Table.exists?_iff.mpr hkey)]
          exact .inl ⟨_, rfl⟩
        · rw [if_neg (by rwa [Table.exists?_iff])]
          right; right
          refine ⟨List.any_eq_true.mp hleased, hidem, hkey, ?_⟩
          have hold : db.watchRuns.find? (fun r => decide (r.idempotency =
              (request.tenantId, request.watchId, request.idempotencyKey))) = none := by
            refine List.find?_eq_none.mpr fun r hr hk => hidem ?_
            rw [show (adapter.startedRun request).idempotency = r.idempotency from
              (of_decide_eq_true hk).symm]
            exact List.mem_map_of_mem hr
          have hnew : Db.loadRun { db with watchRuns := db.watchRuns ++ [adapter.startedRun request] }
              request.tenantId request.watchId request.idempotencyKey =
                some (adapter.startedRun request) := by
            rw [Db.loadRun, List.find?_append, hold, Option.none_or, List.find?_cons_of_pos]
            simp [startedRun, WatchRun.idempotency]
          simp only [hnew]
    · rw [if_neg hleased]
      exact (hfound _ rfl).imp_right .inl

/-! ## Deliveries -/

/-- The database after a delivery is leased. -/
def leaseDelivery (adapter : Adapter) (db : Db) (delivery : Delivery)
    (request : ClaimPendingDelivery) : Db :=
  { db with
    deliveries := Table.update (fun d => d.key = delivery.key)
      (fun d => d.withLease request.leaseOwner (adapter.bind request.leaseExpires))
      db.deliveries }

/-- The row that a claim returns: what the worker's lease finds, or the updated row. -/
def claimedDelivery (adapter : Adapter) (db' : Db) (delivery : Delivery)
    (request : ClaimPendingDelivery) : Option Delivery :=
  match adapter with
  | sqlite => SqliteStore.claimedDeliveryRow db' request
  | d1 => some (delivery.withLease request.leaseOwner (D1Store.int request.leaseExpires))

/-- The row that the claim of a delivery returns can be read. -/
def ReadsClaim (adapter : Adapter) (db : Db) (delivery : Delivery)
    (request : ClaimPendingDelivery) : Prop :=
  ∀ row ∈ adapter.claimedDelivery (adapter.leaseDelivery db delivery request) delivery request,
    row.IsReadable

/-- A claim of a delivery commits: the D1 adapter reads the row afterwards, the SQLite adapter
before. -/
def CommitsDelivery (adapter : Adapter) (db : Db) (delivery : Delivery)
    (request : ClaimPendingDelivery) : Prop :=
  adapter = .d1 ∨ adapter.ReadsClaim db delivery request

instance (adapter : Adapter) (db : Db) (delivery : Delivery) (request : ClaimPendingDelivery) :
    Decidable (adapter.ReadsClaim db delivery request) :=
  inferInstanceAs (Decidable (∀ row ∈ adapter.claimedDelivery _ delivery request, _))

instance (adapter : Adapter) (db : Db) (delivery : Delivery) (request : ClaimPendingDelivery) :
    Decidable (adapter.CommitsDelivery db delivery request) :=
  inferInstanceAs (Decidable (_ ∨ _))

/-- What a claim that finds a delivery replies. -/
def deliveryReply (adapter : Adapter) (db : Db) (delivery : Delivery)
    (request : ClaimPendingDelivery) : StoreResult (Option Delivery) :=
  (adapter.claimedDelivery (adapter.leaseDelivery db delivery request) delivery request).mapM
    adapter.readDelivery

/-- A claim that can read the row it returns succeeds. -/
lemma deliveryReply_of_reads {adapter : Adapter} {db : Db} {delivery : Delivery}
    {request : ClaimPendingDelivery} (h : adapter.ReadsClaim db delivery request) :
    adapter.deliveryReply db delivery request =
      .ok (adapter.claimedDelivery (adapter.leaseDelivery db delivery request) delivery request) := by
  unfold ReadsClaim at h
  unfold deliveryReply
  cases hrow : adapter.claimedDelivery (adapter.leaseDelivery db delivery request) delivery
    request with
  | none => rfl
  | some row =>
    rw [hrow] at h
    rw [Option.mapM_some, adapter.readDelivery_of_readable (h row rfl)]
    rfl

/-- A claim that cannot read the row it returns fails. -/
lemma deliveryReply_of_not_reads {adapter : Adapter} {db : Db} {delivery : Delivery}
    {request : ClaimPendingDelivery} (h : ¬ adapter.ReadsClaim db delivery request) :
    ∃ text, adapter.deliveryReply db delivery request = .error (.backend text) := by
  unfold ReadsClaim at h
  unfold deliveryReply
  cases hrow : adapter.claimedDelivery (adapter.leaseDelivery db delivery request) delivery
    request with
  | none => exact absurd (fun row hmem => absurd (hrow ▸ hmem) (Option.not_mem_none row)) h
  | some row =>
    have hnot : ¬ row.IsReadable := by
      intro hreadable
      refine h fun row' hmem => ?_
      rw [hrow, Option.mem_some_iff] at hmem
      exact hmem ▸ hreadable
    obtain ⟨text, htext⟩ := adapter.readDelivery_of_not_readable hnot
    rw [Option.mapM_some, htext]
    exact ⟨text, rfl⟩

/-- What a claim that succeeds replies is the row that it returns. -/
lemma claimedDelivery_of_reply {adapter : Adapter} {db : Db} {delivery : Delivery}
    {request : ClaimPendingDelivery} {claimed : Option Delivery}
    (h : adapter.deliveryReply db delivery request = .ok claimed) :
    adapter.claimedDelivery (adapter.leaseDelivery db delivery request) delivery request =
      claimed := by
  by_cases hreads : adapter.ReadsClaim db delivery request
  · rw [deliveryReply_of_reads hreads] at h
    exact Except.ok.inj h
  · obtain ⟨text, htext⟩ := deliveryReply_of_not_reads hreads
    rw [htext] at h
    cases h

/-- The rows that the claim of a delivery updates are those with its key. -/
private lemma isClaimed_eq {db : Db} {tenantId : String} {now : ℤ} {delivery : Delivery}
    (hkeys : (db.deliveries.map Delivery.key).Nodup)
    (h : db.eligibleDelivery tenantId now = some delivery) :
    ∀ d ∈ db.deliveries, db.isClaimed tenantId now d = decide (d.key = delivery.key) := by
  intro d hd
  obtain ⟨hmem, heligible⟩ := Db.eligibleDelivery_eq_some h
  have htenant := (Delivery.isEligible_iff.mp heligible).1
  rw [Db.isClaimed, h, Option.any_some]
  by_cases hk : d.key = delivery.key
  · obtain rfl := Table.eq_of_key_eq hkeys hd hmem hk
    simp [heligible]
  · rw [decide_eq_false hk, Bool.and_eq_false_iff, or_iff_not_imp_left]
    intro heligible'
    rw [Bool.not_eq_false] at heligible'
    refine decide_eq_false fun hid => hk ?_
    rw [Delivery.key, Delivery.key, hid, htenant, (Delivery.isEligible_iff.mp heligible').1]

/-- The SQLite adapter leases the delivery that it has found, and rolls back if it cannot read the row
that it returns. -/
private lemma sqlite_claimPendingDelivery {db : Db} {request : ClaimPendingDelivery}
    {delivery : Delivery} (hkeys : (db.deliveries.map Delivery.key).Nodup)
    (hv : request.validate = .ok ())
    (hd : db.eligibleDelivery request.tenantId request.nowEpochSeconds = some delivery) :
    SqliteStore.claimPendingDelivery db request =
      (if sqlite.CommitsDelivery db delivery request then sqlite.leaseDelivery db delivery request
        else db, sqlite.deliveryReply db delivery request) := by
  have hlease := i64FromU64_of_le "lease_seconds" (ClaimPendingDelivery.lease_of_validate hv).2
  have hmem := (Db.eligibleDelivery_eq_some hd).1
  have hselect := isClaimed_eq hkeys hd
  have hpos : db.deliveries.countP
      (db.isClaimed request.tenantId request.nowEpochSeconds) ≠ 0 := by
    rw [Ne, List.countP_eq_zero]
    intro hall
    exact hall delivery hmem (by rw [hselect delivery hmem]; simp)
  have hfetch : SqliteStore.fetchClaimedDelivery (sqlite.leaseDelivery db delivery request)
      request = sqlite.deliveryReply db delivery request := rfl
  have hclaim : SqliteStore.claimPendingDelivery db request = transaction db
      (sqlite.deliveryReply db delivery request >>= fun claimed =>
        .ok (claimed, sqlite.leaseDelivery db delivery request)) := by
    rw [← hfetch]
    simp only [SqliteStore.claimPendingDelivery, hv, hlease, StoreResult.ok_bind,
      StoreResult.pure_eq, hpos, ↓reduceIte, Db.claimDelivery,
      Table.update_congr hselect fun _ _ _ => rfl]
    rfl
  rw [hclaim]
  by_cases hreads : sqlite.ReadsClaim db delivery request
  · have hcommits : sqlite.CommitsDelivery db delivery request := .inr hreads
    rw [if_pos hcommits, deliveryReply_of_reads hreads]
    rfl
  · have hcommits : ¬ sqlite.CommitsDelivery db delivery request := by
      rintro (h | h)
      · cases h
      · exact hreads h
    obtain ⟨text, htext⟩ := deliveryReply_of_not_reads hreads
    rw [if_neg hcommits, htext]
    rfl

/-- The D1 adapter leases the delivery that it has found, and then reads it. -/
private lemma d1_claimPendingDelivery {db : Db} {request : ClaimPendingDelivery}
    {delivery : Delivery} (hkeys : (db.deliveries.map Delivery.key).Nodup)
    (hv : request.validate = .ok ())
    (hd : db.eligibleDelivery request.tenantId (D1Store.int request.nowEpochSeconds) =
      some delivery) :
    D1Store.claimPendingDelivery db request =
      (d1.leaseDelivery db delivery request, d1.deliveryReply db delivery request) := by
  have hlease := i64FromU64_of_le "lease_seconds" (ClaimPendingDelivery.lease_of_validate hv).2
  have hselect := isClaimed_eq hkeys hd
  have hfilter : db.deliveries.filter
      (db.isClaimed request.tenantId (D1Store.int request.nowEpochSeconds)) = [delivery] := by
    rw [List.filter_congr hselect, Table.filter_key_eq hkeys (Db.eligibleDelivery_eq_some hd).1]
  simp only [D1Store.claimPendingDelivery, hv, hlease, StoreResult.ok_bind, StoreResult.pure_eq,
    transaction_ok, hfilter, Db.claimDelivery, Table.update_congr hselect fun _ _ _ => rfl,
    D1Store.decoded_ok]
  rfl

/-- Claiming a delivery, after the checks: it finds none that may be attempted, or leases the first
one. -/
theorem claimPendingDelivery_eq (adapter : Adapter) {db : Db} (request : ClaimPendingDelivery)
    (hkeys : (db.deliveries.map Delivery.key).Nodup) :
    adapter.claimPendingDelivery db request = checked db request.validate
      (match db.eligibleDelivery request.tenantId (adapter.bind request.nowEpochSeconds) with
        | none => (db, .ok none)
        | some delivery =>
          (if adapter.CommitsDelivery db delivery request then
            adapter.leaseDelivery db delivery request
          else db, adapter.deliveryReply db delivery request)) := by
  cases hv : request.validate with
  | error e =>
    cases adapter <;> simp [claimPendingDelivery, SqliteStore.claimPendingDelivery,
      D1Store.claimPendingDelivery, hv]
  | ok _ =>
    rw [checked_ok]
    cases hd : db.eligibleDelivery request.tenantId (adapter.bind request.nowEpochSeconds) with
    | none =>
      have hlease := i64FromU64_of_le "lease_seconds" (ClaimPendingDelivery.lease_of_validate hv).2
      have hnone : ∀ d ∈ db.deliveries,
          db.isClaimed request.tenantId (adapter.bind request.nowEpochSeconds) d = false := by
        intro d _
        rw [Db.isClaimed, hd, Option.any_none, Bool.and_false]
      cases adapter with
      | sqlite =>
        change ∀ d ∈ db.deliveries, db.isClaimed request.tenantId request.nowEpochSeconds d = false
          at hnone
        have hzero : db.deliveries.countP
            (db.isClaimed request.tenantId request.nowEpochSeconds) = 0 :=
          List.countP_eq_zero.mpr fun d hd => by simp [hnone d hd]
        simp [claimPendingDelivery, SqliteStore.claimPendingDelivery, hv, hlease, hzero,
          Db.claimDelivery, Table.update_of_forall_not hnone]
      | d1 =>
        change ∀ d ∈ db.deliveries,
          db.isClaimed request.tenantId (D1Store.int request.nowEpochSeconds) d = false at hnone
        have hnil : db.deliveries.filter
            (db.isClaimed request.tenantId (D1Store.int request.nowEpochSeconds)) = [] :=
          List.filter_eq_nil_iff.mpr fun d hd => by simp [hnone d hd]
        simp [claimPendingDelivery, D1Store.claimPendingDelivery, hv, hlease, hnil,
          Db.claimDelivery, Table.update_of_forall_not hnone]
    | some delivery =>
      cases adapter with
      | sqlite => exact sqlite_claimPendingDelivery hkeys hv hd
      | d1 =>
        have hcommits : d1.CommitsDelivery db delivery request := .inl rfl
        dsimp only
        rw [if_pos hcommits]
        exact d1_claimPendingDelivery hkeys hv hd

/-- Claiming a delivery fails and leaves the database alone, finds none that may be attempted, or
leases the first one. -/
theorem claimPendingDelivery_cases (adapter : Adapter) {db : Db} (request : ClaimPendingDelivery)
    (hkeys : (db.deliveries.map Delivery.key).Nodup) :
    (∃ e, adapter.claimPendingDelivery db request = (db, .error e)) ∨
      (db.eligibleDelivery request.tenantId (adapter.bind request.nowEpochSeconds) = none ∧
        adapter.claimPendingDelivery db request = (db, .ok none)) ∨
      ∃ delivery, db.eligibleDelivery request.tenantId (adapter.bind request.nowEpochSeconds) =
          some delivery ∧ request.validate = .ok () ∧
        adapter.CommitsDelivery db delivery request ∧
        adapter.claimPendingDelivery db request = (adapter.leaseDelivery db delivery request,
          adapter.deliveryReply db delivery request) := by
  rw [claimPendingDelivery_eq adapter request hkeys]
  cases hv : request.validate with
  | error e => exact .inl ⟨e, rfl⟩
  | ok _ =>
    cases hd : db.eligibleDelivery request.tenantId (adapter.bind request.nowEpochSeconds) with
    | none => exact .inr (.inl ⟨rfl, rfl⟩)
    | some delivery =>
      by_cases hcommits : adapter.CommitsDelivery db delivery request
      · exact .inr (.inr ⟨delivery, rfl, rfl, hcommits, by simp only [checked_ok, if_pos hcommits]⟩)
      · obtain ⟨text, htext⟩ := deliveryReply_of_not_reads fun h => hcommits (.inr h)
        exact .inl ⟨_, by simp only [checked_ok, if_neg hcommits, htext]; rfl⟩

/-- The row that an adapter leaves for an acknowledged delivery. -/
def finishedDelivery (adapter : Adapter) (request : CompleteDelivery) (delivery : Delivery) :
    Delivery :=
  delivery.finish request.success (adapter.bind request.nextAttemptEpochSeconds)
    (request.deliveredAtEpochSeconds.map adapter.bind) request.error

/-- An acknowledged delivery keeps its key. -/
@[simp] lemma finishedDelivery_key (adapter : Adapter) (request : CompleteDelivery)
    (delivery : Delivery) : (adapter.finishedDelivery request delivery).key = delivery.key := rfl

/-- The rows that an acknowledgement updates are those with the key of the delivery. -/
private lemma isLeasedTo_eq {db : Db} {tenantId deliveryId owner : String} {now : ℤ}
    {delivery : Delivery} (hkeys : (db.deliveries.map Delivery.key).Nodup)
    (hmem : delivery ∈ db.deliveries)
    (hleased : delivery.isLeasedTo tenantId deliveryId owner now = true) :
    ∀ d ∈ db.deliveries, d.isLeasedTo tenantId deliveryId owner now =
      decide (d.key = delivery.key) := by
  intro d hd
  by_cases hk : d.key = delivery.key
  · obtain rfl := Table.eq_of_key_eq hkeys hd hmem hk
    simp [hleased]
  · rw [decide_eq_false hk, Bool.eq_false_iff]
    exact fun hleased' => hk ((Delivery.isLeasedTo_iff.mp hleased').1.trans
      (Delivery.isLeasedTo_iff.mp hleased).1.symm)

/-- The SQLite adapter ends the lease that the worker holds, and looks the delivery up. -/
private lemma sqlite_completeDelivery {db : Db} {request : CompleteDelivery} {delivery : Delivery}
    (hkeys : (db.deliveries.map Delivery.key).Nodup) (hv : request.validate = .ok ())
    (hmem : delivery ∈ db.deliveries)
    (hleased : delivery.isLeasedTo request.tenantId request.deliveryId request.leaseOwner
      request.finishedAtEpochSeconds = true) :
    SqliteStore.completeDelivery db request =
      ({ db with
          deliveries := Table.update (fun d => d.key = delivery.key)
            (sqlite.finishedDelivery request) db.deliveries },
        sqlite.readDelivery (sqlite.finishedDelivery request delivery)) := by
  have hselect := isLeasedTo_eq hkeys hmem hleased
  have hone : db.deliveries.countP (fun d => d.isLeasedTo request.tenantId
      request.deliveryId request.leaseOwner request.finishedAtEpochSeconds) = 1 := by
    rw [List.countP_congr fun d hdmem => by rw [hselect d hdmem], Table.countP_key_eq hkeys hmem]
  have hupdate : Table.update (fun d => d.isLeasedTo request.tenantId request.deliveryId
      request.leaseOwner request.finishedAtEpochSeconds)
        (fun d => d.finish request.success request.nextAttemptEpochSeconds
          request.deliveredAtEpochSeconds request.error) db.deliveries =
      Table.update (fun d => decide (d.key = delivery.key))
        (sqlite.finishedDelivery request) db.deliveries :=
    Table.update_congr hselect fun d _ _ => by simp [finishedDelivery, bind]
  have hfind : (Table.update (fun d => decide (d.key = delivery.key))
      (sqlite.finishedDelivery request) db.deliveries).find?
        (fun d => d.key = (request.tenantId, request.deliveryId)) =
          some (sqlite.finishedDelivery request delivery) := by
    rw [← (Delivery.isLeasedTo_iff.mp hleased).1, ← finishedDelivery_key sqlite request delivery]
    exact Table.find?_key_eq (Table.nodup_update hkeys fun _ _ _ => rfl)
      (Table.mem_update.mpr (.inr ⟨delivery, hmem, by simp, rfl⟩))
  simp only [SqliteStore.completeDelivery, hv, hone, ne_eq, not_true_eq_false, ↓reduceIte,
    SqliteStore.fetchDelivery, hupdate, hfind]
  rfl

/-- The D1 adapter ends the lease that the worker holds, and reads the row that this returns. -/
private lemma d1_completeDelivery {db : Db} {request : CompleteDelivery} {delivery : Delivery}
    (hkeys : (db.deliveries.map Delivery.key).Nodup) (hv : request.validate = .ok ())
    (hmem : delivery ∈ db.deliveries)
    (hleased : delivery.isLeasedTo request.tenantId request.deliveryId request.leaseOwner
      (D1Store.int request.finishedAtEpochSeconds) = true) :
    D1Store.completeDelivery db request =
      ({ db with
          deliveries := Table.update (fun d => d.key = delivery.key)
            (d1.finishedDelivery request) db.deliveries },
        d1.readDelivery (d1.finishedDelivery request delivery)) := by
  have hselect := isLeasedTo_eq hkeys hmem hleased
  have hfilter : db.deliveries.filter (fun d => d.isLeasedTo request.tenantId
      request.deliveryId request.leaseOwner
        (D1Store.int request.finishedAtEpochSeconds)) = [delivery] := by
    rw [List.filter_congr hselect, Table.filter_key_eq hkeys hmem]
  have hupdate : Table.update (fun d => d.isLeasedTo request.tenantId request.deliveryId
      request.leaseOwner (D1Store.int request.finishedAtEpochSeconds))
        (d1.finishedDelivery request) db.deliveries =
      Table.update (fun d => decide (d.key = delivery.key))
        (d1.finishedDelivery request) db.deliveries :=
    Table.update_congr hselect fun _ _ _ => rfl
  rw [← hupdate]
  simp only [D1Store.completeDelivery, hv, hfilter]
  rfl

/-- Acknowledging a delivery, after the checks: it fails if the worker does not hold the lease of
the delivery, and ends the lease else. -/
theorem completeDelivery_eq (adapter : Adapter) {db : Db} (request : CompleteDelivery)
    (hkeys : (db.deliveries.map Delivery.key).Nodup) :
    adapter.completeDelivery db request = checked db request.validate
      (match db.deliveries.find? fun d => d.isLeasedTo request.tenantId request.deliveryId
          request.leaseOwner (adapter.bind request.finishedAtEpochSeconds) with
        | none => (db, .error (.conflict "delivery is not leased by this worker"))
        | some delivery =>
          ({ db with
              deliveries := Table.update (fun d => d.key = delivery.key)
                (adapter.finishedDelivery request) db.deliveries },
            adapter.readDelivery (adapter.finishedDelivery request delivery))) := by
  cases hv : request.validate with
  | error e =>
    cases adapter <;> simp [completeDelivery, SqliteStore.completeDelivery,
      D1Store.completeDelivery, hv]
  | ok _ =>
    rw [checked_ok]
    cases hfound : db.deliveries.find? fun d => d.isLeasedTo request.tenantId request.deliveryId
        request.leaseOwner (adapter.bind request.finishedAtEpochSeconds) with
    | some delivery =>
      have hmem := List.mem_of_find?_eq_some hfound
      have hleased : delivery.isLeasedTo request.tenantId request.deliveryId request.leaseOwner
          (adapter.bind request.finishedAtEpochSeconds) = true := by
        have h := List.find?_some hfound
        exact h
      cases adapter with
      | sqlite => exact sqlite_completeDelivery hkeys hv hmem hleased
      | d1 => exact d1_completeDelivery hkeys hv hmem hleased
    | none =>
      have hnone : ∀ d ∈ db.deliveries, d.isLeasedTo request.tenantId request.deliveryId
          request.leaseOwner (adapter.bind request.finishedAtEpochSeconds) = false := by
        intro d hdmem
        exact Bool.eq_false_iff.mpr (List.find?_eq_none.mp hfound d hdmem)
      cases adapter with
      | sqlite =>
        change ∀ d ∈ db.deliveries, d.isLeasedTo request.tenantId request.deliveryId
          request.leaseOwner request.finishedAtEpochSeconds = false at hnone
        have hzero : db.deliveries.countP (fun d => d.isLeasedTo request.tenantId
            request.deliveryId request.leaseOwner request.finishedAtEpochSeconds) = 0 :=
          List.countP_eq_zero.mpr fun d hd => by simp [hnone d hd]
        simp [completeDelivery, SqliteStore.completeDelivery, hv, hzero,
          Table.update_of_forall_not hnone]
      | d1 =>
        change ∀ d ∈ db.deliveries, d.isLeasedTo request.tenantId request.deliveryId
          request.leaseOwner (D1Store.int request.finishedAtEpochSeconds) = false at hnone
        have hnil : db.deliveries.filter (fun d => d.isLeasedTo request.tenantId
            request.deliveryId request.leaseOwner
              (D1Store.int request.finishedAtEpochSeconds)) = [] :=
          List.filter_eq_nil_iff.mpr fun d hd => by simp [hnone d hd]
        simp [completeDelivery, D1Store.completeDelivery, hv, hnil,
          Table.update_of_forall_not hnone]

/-- Acknowledging a delivery fails and leaves the database alone, or ends the lease that the
worker holds. -/
theorem completeDelivery_cases (adapter : Adapter) {db : Db} (request : CompleteDelivery)
    (hkeys : (db.deliveries.map Delivery.key).Nodup) :
    (∃ e, adapter.completeDelivery db request = (db, .error e)) ∨
      ∃ delivery ∈ db.deliveries,
        delivery.isLeasedTo request.tenantId request.deliveryId request.leaseOwner
          (adapter.bind request.finishedAtEpochSeconds) = true ∧
        adapter.completeDelivery db request =
          ({ db with
              deliveries := Table.update (fun d => d.key = delivery.key)
                (adapter.finishedDelivery request) db.deliveries },
            adapter.readDelivery (adapter.finishedDelivery request delivery)) := by
  rw [completeDelivery_eq adapter request hkeys]
  cases request.validate with
  | error e => exact .inl ⟨e, rfl⟩
  | ok _ =>
    rw [checked_ok]
    cases hfound : db.deliveries.find? fun d => d.isLeasedTo request.tenantId request.deliveryId
        request.leaseOwner (adapter.bind request.finishedAtEpochSeconds) with
    | none => exact .inl ⟨_, rfl⟩
    | some delivery =>
      exact .inr ⟨delivery, List.mem_of_find?_eq_some hfound, by
        have h := List.find?_some hfound
        exact h, rfl⟩

end Adapter

end Comsat
