import Comsat.Store.Integrity

set_option relaxedAutoImplicit false
set_option autoImplicit false

/-!
# Similar databases and replies

When two stores count as the same: their tables are equal row by row, except that the records in
the payload of a delivery may stand in another order and its instant may be written as a real
number, and their replies report the same.

## Main definitions

* `Delivery.Similar`, `Db.Similar` — deliveries and databases that agree up to that.
* `SimilarResult`, `StoreReply.Similar` — results that agree, or fail with the same class.
* `Agree` — similar databases with similar results.

## Main results

* `Db.Similar.eligibleDelivery` — the next delivery to attempt is the same in similar databases.
* `Db.Similar.keysUnique` — similar databases have the same keys.
-/

namespace Comsat

/-! ## Deliveries -/

/-- A delivery without the records of its payload, whose instant is written as an integer. -/
def Delivery.withoutRecords (delivery : Delivery) : Delivery :=
  { delivery with
    payload := { delivery.payload with
      observedAtEpochSeconds := .integer delivery.payload.observedAtEpochSeconds.value
      records := [] } }

/-- The same delivery, up to the order of the records in its payload and to how the instant of the
payload is written. -/
structure Delivery.Similar (delivery delivery' : Delivery) : Prop where
  /-- Everything but the records is the same. -/
  columns : delivery.withoutRecords = delivery'.withoutRecords
  /-- The records are the same in some order. -/
  records : delivery.payload.records.Perm delivery'.payload.records

namespace Delivery.Similar

variable {d d' : Delivery}

/-- A delivery is similar to itself. -/
lemma refl (d : Delivery) : Delivery.Similar d d := ⟨rfl, List.Perm.refl _⟩

/-- What does not look at the records of the payload is the same for similar deliveries. -/
lemma apply {β : Type*} (h : d.Similar d') (f : Delivery → β)
    (hf : ∀ d : Delivery, f d.withoutRecords = f d) : f d = f d' := by
  rw [← hf d, h.columns, hf d']

/-- An update that leaves the payload alone keeps deliveries similar. -/
lemma map (h : d.Similar d') {f : Delivery → Delivery}
    (hf : ∀ d : Delivery, (f d).withoutRecords = f d.withoutRecords)
    (hrecords : ∀ d : Delivery, (f d).payload.records = d.payload.records) :
    (f d).Similar (f d') := by
  refine ⟨?_, ?_⟩
  · rw [hf, hf, h.columns]
  · rw [hrecords, hrecords]
    exact h.records

/-- Similar deliveries can both be read back, or neither. -/
lemma isReadable_iff (h : d.Similar d') : d.IsReadable ↔ d'.IsReadable := by
  have htarget : d.target = d'.target := h.apply Delivery.target fun _ => rfl
  unfold Delivery.IsReadable
  rw [htarget, DeliveryPayload.depth_toJson_le, DeliveryPayload.depth_toJson_le]
  refine and_congr_right fun _ => forall_congr' fun record => ?_
  rw [h.records.mem_iff]

/-- Similar deliveries have the same key. -/
lemma key (h : d.Similar d') : d.key = d'.key := h.apply Delivery.key fun _ => rfl

/-- Similar deliveries may be attempted at the same time. -/
lemma isEligible (h : d.Similar d') (tenantId : String) (now : ℤ) :
    d.isEligible tenantId now = d'.isEligible tenantId now :=
  h.apply (fun d => d.isEligible tenantId now) fun _ => rfl

/-- Similar deliveries are leased to the same worker. -/
lemma isLeasedTo (h : d.Similar d') (tenantId deliveryId owner : String) (now : ℤ) :
    d.isLeasedTo tenantId deliveryId owner now = d'.isLeasedTo tenantId deliveryId owner now :=
  h.apply (fun d => d.isLeasedTo tenantId deliveryId owner now) fun _ => rfl

end Delivery.Similar

/-! ## Databases -/

/-- The same tables, where the deliveries are similar. -/
structure Db.Similar (db db' : Db) : Prop where
  sources : db.sources = db'.sources
  watches : db.watches = db'.watches
  watchRuns : db.watchRuns = db'.watchRuns
  records : db.records = db'.records
  watchRecords : db.watchRecords = db'.watchRecords
  /-- The deliveries are similar row by row. -/
  deliveries : List.Forall₂ Delivery.Similar db.deliveries db'.deliveries

namespace Db.Similar

variable {s t : Db}

/-- A database is similar to itself. -/
lemma refl (db : Db) : Db.Similar db db :=
  ⟨rfl, rfl, rfl, rfl, rfl, List.forall₂_same.mpr fun d _ => .refl d⟩

/-- Similar databases have deliveries with the same keys. -/
lemma deliveryKeys (h : s.Similar t) :
    s.deliveries.map Delivery.key = t.deliveries.map Delivery.key :=
  Table.map_eq_of_related (fun _ _ hd => hd.key) h.deliveries

/-- Unique keys are unique in similar databases. -/
lemma keysUnique (h : s.Similar t) (hs : s.KeysUnique) : t.KeysUnique where
  sources := by rw [← h.sources]; exact hs.sources
  watches := by rw [← h.watches]; exact hs.watches
  watchRuns := by rw [← h.watchRuns]; exact hs.watchRuns
  idempotency := by rw [← h.watchRuns]; exact hs.idempotency
  records := by rw [← h.records]; exact hs.records
  watchRecords := by rw [← h.watchRecords]; exact hs.watchRecords
  deliveries := by rw [← h.deliveryKeys]; exact hs.deliveries

/-- The next watch that is due is the same. -/
lemma dueWatch (h : s.Similar t) (tenantId : String) (now : ℤ) :
    s.dueWatch tenantId now = t.dueWatch tenantId now := by
  unfold Db.dueWatch
  rw [h.watches]

/-- The next delivery to attempt is the same. -/
lemma eligibleDelivery (h : s.Similar t) (tenantId : String) (now : ℤ) :
    Option.Rel Delivery.Similar (s.eligibleDelivery tenantId now)
      (t.eligibleDelivery tenantId now) := by
  refine Table.related_head? (Table.related_orderBy (fun _ _ hd => ?_) (Table.related_filter
    (fun _ _ hd => hd.isEligible tenantId now) h.deliveries))
  exact hd.apply Delivery.attemptOrder fun _ => rfl

/-- The history of a watch is the same. -/
lemma historyForWatch (h : s.Similar t) (tenantId watchId : String) (since : ℤ) (limit : ℕ) :
    s.historyForWatch tenantId watchId since limit =
      t.historyForWatch tenantId watchId since limit := by
  unfold Db.historyForWatch
  rw [h.records, h.watchRecords]

/-- The history of a tenant is the same. -/
lemma historyForTenant (h : s.Similar t) (tenantId : String) (since : ℤ) (limit : ℕ) :
    s.historyForTenant tenantId since limit = t.historyForTenant tenantId since limit := by
  unfold Db.historyForTenant
  rw [h.records]

/-- The deliveries of a list are similar. -/
lemma listDeliveries (h : s.Similar t) (tenantId : String) (status : Option String) (limit : ℕ) :
    List.Forall₂ Delivery.Similar (s.listDeliveries tenantId status limit)
      (t.listDeliveries tenantId status limit) := by
  refine List.forall₂_take limit (Table.related_orderBy (fun _ _ hd => ?_) (Table.related_filter
    (fun _ _ hd => ?_) h.deliveries))
  · exact hd.apply Delivery.listOrder fun _ => rfl
  · exact hd.apply (fun d => decide (d.tenantId = tenantId) &&
      status.all fun s => decide (d.status.text = s)) fun _ => rfl

end Db.Similar

/-! ## Replies -/

/-- A claimed watch without the lease columns of its row. -/
def ClaimedWatch.withoutLease (claim : ClaimedWatch) : ClaimedWatch :=
  { claim with
    watch := { claim.watch with leaseOwner := none, leaseExpiresEpochSeconds := none } }

/-- Related values, or errors of the same class. -/
inductive SimilarResult {α β : Type} (R : α → β → Prop) : StoreResult α → StoreResult β → Prop where
  | ok {a : α} {b : β} (h : R a b) : SimilarResult R (.ok a) (.ok b)
  | error {e e' : StoreError} (h : e.errorClass = e'.errorClass) :
    SimilarResult R (.error e) (.error e')

/-- Replies that report the same, where the row in a claimed watch may have other lease columns and
the deliveries are similar. -/
inductive StoreReply.Similar : StoreReply → StoreReply → Prop where
  | sourceUpserted {x y : StoreResult Unit} (h : SimilarResult Eq x y) :
    Similar (.sourceUpserted x) (.sourceUpserted y)
  | watchCreated {x y : StoreResult Watch} (h : SimilarResult Eq x y) :
    Similar (.watchCreated x) (.watchCreated y)
  | watchesListed {x y : StoreResult (List Watch)} (h : SimilarResult Eq x y) :
    Similar (.watchesListed x) (.watchesListed y)
  | watchDeleted {x y : StoreResult Bool} (h : SimilarResult Eq x y) :
    Similar (.watchDeleted x) (.watchDeleted y)
  | watchClaimed {x y : StoreResult (Option ClaimedWatch)}
    (h : SimilarResult (fun a b => a.map ClaimedWatch.withoutLease =
      b.map ClaimedWatch.withoutLease) x y) :
    Similar (.watchClaimed x) (.watchClaimed y)
  | runStarted {x y : StoreResult WatchRun} (h : SimilarResult Eq x y) :
    Similar (.runStarted x) (.runStarted y)
  | runCompleted {x y : StoreResult WatchRunOutcome} (h : SimilarResult Eq x y) :
    Similar (.runCompleted x) (.runCompleted y)
  | historyRead {x y : StoreResult (List RecordObservation)} (h : SimilarResult Eq x y) :
    Similar (.historyRead x) (.historyRead y)
  | deliveryClaimed {x y : StoreResult (Option Delivery)}
    (h : SimilarResult (Option.Rel Delivery.Similar) x y) :
    Similar (.deliveryClaimed x) (.deliveryClaimed y)
  | deliveryCompleted {x y : StoreResult Delivery} (h : SimilarResult Delivery.Similar x y) :
    Similar (.deliveryCompleted x) (.deliveryCompleted y)
  | deliveriesListed {x y : StoreResult (List Delivery)}
    (h : SimilarResult (List.Forall₂ Delivery.Similar) x y) :
    Similar (.deliveriesListed x) (.deliveriesListed y)

/-! ## Agreement -/

section Agreement

variable {α β : Type} {R : α → β → Prop}

/-- Similar databases with similar results. -/
def Agree (R : α → β → Prop) (x : Db × StoreResult α) (y : Db × StoreResult β) : Prop :=
  x.1.Similar y.1 ∧ SimilarResult R x.2 y.2

/-- Operations behind the same checks agree if they agree on accepted requests. -/
lemma agree_checked {s t : Db} {check : StoreResult Unit} {x : Db × StoreResult α}
    {y : Db × StoreResult β} (h : s.Similar t) (hxy : check = .ok () → Agree R x y) :
    Agree R (checked s check x) (checked t check y) := by
  cases check with
  | ok => exact hxy rfl
  | error e => exact ⟨h, .error rfl⟩

/-- Queries agree if their results do. -/
lemma agree_query {s t : Db} {x : StoreResult α} {y : StoreResult β} (h : s.Similar t)
    (hxy : SimilarResult R x y) : Agree R (query s x) (query t y) := ⟨h, hxy⟩

/-- Equal results are similar. -/
lemma SimilarResult.of_eq {x y : StoreResult α} (h : x = y) : SimilarResult Eq x y := by
  subst h
  cases x with
  | ok a => exact .ok rfl
  | error e => exact .error rfl

/-- Results that begin with the same check are similar if they are after it. -/
lemma SimilarResult.bind {γ : Type} {check : StoreResult γ} {f : γ → StoreResult α}
    {g : γ → StoreResult β} (h : ∀ a, check = .ok a → SimilarResult R (f a) (g a)) :
    SimilarResult R (check >>= f) (check >>= g) := by
  cases check with
  | ok a => exact h a rfl
  | error e => exact .error rfl

/-- Similar results of one function each are similar when it is run over related lists.

**Proof sketch.** Induction on the lists: the first element that fails fails in both. -/
lemma SimilarResult.mapM {γ δ : Type} {S : γ → δ → Prop} {f : α → StoreResult γ}
    {g : β → StoreResult δ} (hfg : ∀ a b, R a b → SimilarResult S (f a) (g b)) {xs : List α}
    {ys : List β} (h : List.Forall₂ R xs ys) :
    SimilarResult (List.Forall₂ S) (xs.mapM f) (ys.mapM g) := by
  induction h with
  | nil => exact .ok .nil
  | @cons a b xs ys hab _ ih =>
    rw [List.mapM_cons, List.mapM_cons]
    have hfirst := hfg a b hab
    generalize f a = first, g b = first' at hfirst ⊢
    generalize xs.mapM f = rest, ys.mapM g = rest' at ih ⊢
    cases hfirst with
    | error h => exact .error h
    | ok hvalue =>
      cases ih with
      | error h => exact .error h
      | ok hvalues => exact .ok (.cons hvalue hvalues)

/-- Results of the same function are similar when it is run over the same list by both adapters. -/
lemma SimilarResult.mapM_eq {γ : Type} {f g : α → StoreResult γ}
    (hfg : ∀ a, SimilarResult Eq (f a) (g a)) (xs : List α) :
    SimilarResult Eq (xs.mapM f) (xs.mapM g) := by
  have hsame : ∀ a b, a = b → SimilarResult Eq (f a) (g b) := by
    rintro a _ rfl
    exact hfg a
  have hmapM := SimilarResult.mapM hsame (List.forall₂_same.mpr fun x (_ : x ∈ xs) => Eq.refl x)
  rwa [List.forall₂_eq_eq_eq] at hmapM

end Agreement

/-! ## Reading rows -/

namespace Adapter

/-- Both adapters read a watch, or fail alike. -/
lemma similar_readWatch (row : Watch) :
    SimilarResult Eq (sqlite.readWatch row) (d1.readWatch row) := by
  by_cases h : row.IsReadable
  · rw [readWatch_of_readable _ h, readWatch_of_readable _ h]
    exact .ok rfl
  · obtain ⟨text, htext⟩ := sqlite.readWatch_of_not_readable h
    obtain ⟨text', htext'⟩ := d1.readWatch_of_not_readable h
    rw [htext, htext']
    exact .error rfl

/-- Both adapters read an observation, or fail alike. -/
lemma similar_readObservation (row : RecordObservation) :
    SimilarResult Eq (sqlite.readObservation row) (d1.readObservation row) := by
  by_cases h : row.IsReadable
  · rw [readObservation_of_readable _ h, readObservation_of_readable _ h]
    exact .ok rfl
  · obtain ⟨text, htext⟩ := sqlite.readObservation_of_not_readable h
    obtain ⟨text', htext'⟩ := d1.readObservation_of_not_readable h
    rw [htext, htext']
    exact .error rfl

/-- The adapters read similar deliveries, or fail alike. -/
lemma similar_readDelivery {d d' : Delivery} (hd : d.Similar d') :
    SimilarResult Delivery.Similar (sqlite.readDelivery d) (d1.readDelivery d') := by
  by_cases h : d.IsReadable
  · rw [readDelivery_of_readable _ h, readDelivery_of_readable _ (hd.isReadable_iff.mp h)]
    exact .ok hd
  · obtain ⟨text, htext⟩ := sqlite.readDelivery_of_not_readable h
    obtain ⟨text', htext'⟩ := d1.readDelivery_of_not_readable (mt hd.isReadable_iff.mpr h)
    rw [htext, htext']
    exact .error rfl

end Adapter

end Comsat
