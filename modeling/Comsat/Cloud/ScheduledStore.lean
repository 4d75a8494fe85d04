import Comsat.Cloud.Isolation
import Comsat.Store.Tenancy

set_option relaxedAutoImplicit false
set_option autoImplicit false

/-!
# Scheduled invocations over a store

The operations of an invocation act on the rows of the tenant that they are for, so a store with
its failures comes down to what it answers to each tenant.

## Main definitions

* `Fault` — a failure of an operation.
* `WorkerEnvironment` — the queue, the webhooks and the failures around an invocation.
* `Surroundings.ofStore` — the surroundings of an invocation over a store.
* `WorkerEnvironment.answers` — what each tenant is answered.

## Main results

* `scheduled_ofStore` — an invocation over a store does what it does when it gets these answers.
* `tenants_isolated_iff` — it isolates the tenants exactly when no failure cuts anything off.

## Design

* Whatever a claim changes, a delivery does not read: deliveries are looked at without the
  watches.
-/

namespace Comsat

/-! ## The surroundings -/

/-- A failure of an operation of a store, which may have been carried out nevertheless. -/
structure Fault where
  error : StoreError
  carriedOut : Bool

/-- An operation with a failure, if there is one. -/
def Fault.apply {α : Type} (fault : Option Fault) (f : Db → Db × StoreResult α) (db : Db) :
    Db × StoreResult α :=
  match fault with
  | none => f db
  | some fault => (if fault.carriedOut then (f db).1 else db, .error fault.error)

/-- The queue, the webhooks and the failures around an invocation. -/
structure WorkerEnvironment where
  config : WatchClaimConfig
  /-- The random numbers of the claims of a tenant. -/
  nonce : String → ℕ → ℕ
  /-- The failures of the claims of a tenant. -/
  claimFault : String → ℕ → Option Fault
  /-- The failures of the queue. -/
  sendFault : String → ℕ → Option StoreError
  webhooks : TenantWebhookConfig
  deliveryLeaseOwner : String → String
  claimDeliveryFault : String → Option Fault
  completeDeliveryFault : String → Option Fault
  /-- What comes of the request to the webhook of a tenant. -/
  post : String → WebhookRequest → HttpOutcome
  /-- When it has come. -/
  clock : String → ℤ

namespace WorkerEnvironment

variable [HttpLibrary] (environment : WorkerEnvironment) (adapter : Adapter)

/-- A claim for a tenant. -/
def claim (tenantId : String) (count : ℕ) : Db → Db × StoreResult (Option ClaimedWatch) :=
  Fault.apply (environment.claimFault tenantId count) fun db => adapter.claimDueWatch db
    (CloudWatch.claimRequest tenantId environment.config (environment.nonce tenantId count) count)

/-- What the queue says to a message. -/
def sent (tenantId : String) (count : ℕ) : StoreResult Unit :=
  match environment.sendFault tenantId count with
  | none => .ok ()
  | some error => .error error

/-- The attempt at a delivery of a tenant. -/
def deliveryAttempt (tenantId : String) : DeliveryAttempt :=
  ⟨tenantId, environment.deliveryLeaseOwner tenantId, environment.config.nowEpochSeconds⟩

/-- The result of the attempt at a delivery. -/
def attemptResult (tenantId : String) (config : WatchDeliveryConfig) (delivery : Delivery) :
    Except String Unit :=
  match plannedRequest config delivery with
  | .ok request => (environment.post tenantId request).result
  | .error reason => .error reason

/-- Acknowledging the attempt at a delivery. -/
def acknowledge (tenantId : String) (config : WatchDeliveryConfig) (delivery : Delivery) :
    Db → Db × StoreResult (Option Delivery) := fun db =>
  (Fault.apply (environment.completeDeliveryFault tenantId) (fun db => adapter.completeDelivery db
      ((environment.deliveryAttempt tenantId).acknowledgement delivery
        (environment.attemptResult tenantId config delivery) (environment.clock tenantId))) db).map
    id fun completed => completed.map some

/-- Attempting the next delivery of a tenant that has a webhook. -/
def deliverOne (tenantId : String) (db : Db) : Db × StoreResult (Option Delivery) :=
  match environment.webhooks tenantId with
  | none => (db, .ok none)
  | some config =>
    match Fault.apply (environment.claimDeliveryFault tenantId)
        (fun db => adapter.claimPendingDelivery db (environment.deliveryAttempt tenantId).claim)
        db with
    | (db', .error error) => (db', .error error)
    | (db', .ok none) => (db', .ok none)
    | (db', .ok (some delivery)) => environment.acknowledge adapter tenantId config delivery db'

/-- Without failures of the store this is what attempting a delivery is elsewhere. -/
lemma deliverOne_eq {tenantId : String} {config : WatchDeliveryConfig}
    (hwebhook : environment.webhooks tenantId = some config)
    (hclaim : environment.claimDeliveryFault tenantId = none)
    (hcomplete : environment.completeDeliveryFault tenantId = none) (db : Db) :
    environment.deliverOne adapter tenantId db =
      deliverPendingWebhook adapter db (environment.post tenantId) config
        (environment.deliveryAttempt tenantId) (environment.clock tenantId) := by
  rw [deliverOne, hwebhook, deliverPendingWebhook, hclaim]
  simp only [Fault.apply]
  rcases adapter.claimPendingDelivery db (environment.deliveryAttempt tenantId).claim with
    ⟨db', e | found⟩
  · rfl
  · cases found with
    | none => rfl
    | some delivery =>
      dsimp only [acknowledge]
      rw [hcomplete]
      exact Prod.ext rfl rfl

end WorkerEnvironment

/-- The surroundings of an invocation over a store. -/
def Surroundings.ofStore [HttpLibrary] (adapter : Adapter) (environment : WorkerEnvironment) :
    Surroundings Db where
  claim := environment.claim adapter
  send tenantId count _ db := (db, environment.sent tenantId count)
  deliver := environment.deliverOne adapter

namespace WorkerEnvironment

variable [HttpLibrary] (environment : WorkerEnvironment) (adapter : Adapter)

/-- The store after the first claims for a tenant, when nobody else is served. -/
def afterClaims (tenantId : String) (db : Db) : ℕ → Db
  | 0 => db
  | count + 1 => (environment.claim adapter tenantId count (afterClaims tenantId db count)).1

/-- What each tenant is answered when nobody else is served. -/
def answers (db : Db) (tenantId : String) : TenantAnswers where
  claim count := (environment.claim adapter tenantId count
    (environment.afterClaims adapter tenantId db count)).2
  send := environment.sent tenantId
  delivery := (environment.deliverOne adapter tenantId db).2

end WorkerEnvironment

/-! ## Views -/

/-- The database without its watches. -/
def Db.withoutWatches (db : Db) : Db := { db with watches := [] }

/-- What the deliveries of a tenant depend on. -/
def Db.deliveryView (tenantId : String) (db : Db) : Db := (db.ofTenant tenantId).withoutWatches

/-- An operation acts on a view of the database. -/
def ActsOn {α : Type} (view : Db → Db) (f : Db → Db × α) : Prop :=
  ∀ db : Db, f (view db) = (f db).map view id

section

variable {view : Db → Db} {α : Type} {f : Db → Db × α} {db db' : Db}

/-- Databases with the same view get the same reply, and have the same view afterwards. -/
lemma ActsOn.congr (h : ActsOn view f) (heq : view db = view db') :
    (f db).2 = (f db').2 ∧ view (f db).1 = view (f db').1 := by
  have hleft := h db
  rw [heq, h db'] at hleft
  exact ⟨(congrArg Prod.snd hleft).symm, (congrArg Prod.fst hleft).symm⟩

/-- An operation that may fail acts on what it acts on otherwise. -/
lemma ActsOn.fault {f : Db → Db × StoreResult α} (h : ActsOn view f) (fault : Option Fault) :
    ActsOn view (Fault.apply fault f) := by
  intro db
  cases fault with
  | none => exact h db
  | some fault =>
    simp only [Fault.apply]
    cases fault.carriedOut with
    | false => rfl
    | true => simp [h db]

/-- An operation that may fail leaves alone what it leaves alone otherwise. -/
lemma Fault.apply_of_eq {β : Type} {f : Db → Db × StoreResult α} (observe : Db → β)
    (h : observe (f db).1 = observe db) (fault : Option Fault) :
    observe (Fault.apply fault f db).1 = observe db := by
  cases fault with
  | none => exact h
  | some fault =>
    simp only [Fault.apply]
    cases fault.carriedOut with
    | false => rfl
    | true => exact h

/-- An operation that may fail keeps what it keeps otherwise. -/
lemma Fault.apply_keeps {P : Db → Prop} {f : Db → Db × StoreResult α} (hdb : P db)
    (h : P (f db).1) (fault : Option Fault) : P (Fault.apply fault f db).1 := by
  cases fault with
  | none => exact h
  | some fault =>
    simp only [Fault.apply]
    cases fault.carriedOut with
    | false => exact hdb
    | true => exact h

/-- What succeeds has not failed. -/
lemma Fault.apply_eq_ok {f : Db → Db × StoreResult α} {fault : Option Fault} {a : α}
    (h : (Fault.apply fault f db).2 = .ok a) : Fault.apply fault f db = f db := by
  cases fault with
  | none => rfl
  | some fault => exact absurd h (by simp [Fault.apply])

end

namespace Adapter

variable (adapter : Adapter)

/-- Claiming a delivery does not read the watches. -/
lemma claimPendingDelivery_withoutWatches (request : ClaimPendingDelivery) :
    ActsOn Db.withoutWatches fun db => adapter.claimPendingDelivery db request := by
  intro db
  cases adapter with
  | sqlite =>
    simp only [claimPendingDelivery, SqliteStore.claimPendingDelivery]
    cases request.validate with
    | error e => rfl
    | ok u =>
      cases i64FromU64 request.leaseSeconds "lease_seconds" with
      | error e => rfl
      | ok seconds =>
        simp only [StoreResult.ok_bind]
        have hclaimed : db.withoutWatches.isClaimed request.tenantId request.nowEpochSeconds =
          db.isClaimed request.tenantId request.nowEpochSeconds := rfl
        rw [hclaimed]
        have hdeliveries : db.withoutWatches.deliveries = db.deliveries := rfl
        rw [hdeliveries]
        split
        · rfl
        · -- the row is looked up among the deliveries only
          have hfetch : SqliteStore.fetchClaimedDelivery (db.withoutWatches.claimDelivery
              request.tenantId request.nowEpochSeconds request.leaseOwner
                (addI64 request.nowEpochSeconds seconds)) request =
              SqliteStore.fetchClaimedDelivery (db.claimDelivery request.tenantId
                request.nowEpochSeconds request.leaseOwner
                  (addI64 request.nowEpochSeconds seconds)) request := rfl
          rw [hfetch]
          cases SqliteStore.fetchClaimedDelivery (db.claimDelivery request.tenantId
            request.nowEpochSeconds request.leaseOwner
              (addI64 request.nowEpochSeconds seconds)) request <;> rfl
  | d1 =>
    simp only [claimPendingDelivery, D1Store.claimPendingDelivery]
    cases request.validate with
    | error e => rfl
    | ok u =>
      cases i64FromU64 request.leaseSeconds "lease_seconds" with
      | error e => rfl
      | ok seconds => rfl

/-- Acknowledging a delivery does not read the watches. -/
lemma completeDelivery_withoutWatches (request : CompleteDelivery) :
    ActsOn Db.withoutWatches fun db => adapter.completeDelivery db request := by
  intro db
  cases adapter with
  | sqlite =>
    simp only [completeDelivery, SqliteStore.completeDelivery]
    cases request.validate with
    | error e => rfl
    | ok u =>
      rw [checked_ok, checked_ok]
      have hdeliveries : db.withoutWatches.deliveries = db.deliveries := rfl
      rw [hdeliveries]
      split
      · rfl
      · rfl
  | d1 =>
    simp only [completeDelivery, D1Store.completeDelivery]
    cases request.validate with
    | error e => rfl
    | ok u => rfl

/-- A claimed delivery is one of the tenant. -/
lemma tenantId_of_claimPendingDelivery {db : Db} {request : ClaimPendingDelivery}
    {delivery : Delivery} (h : (adapter.claimPendingDelivery db request).2 = .ok (some delivery)) :
    delivery.tenantId = request.tenantId := by
  cases adapter with
  | sqlite =>
    simp only [claimPendingDelivery, SqliteStore.claimPendingDelivery] at h
    cases hvalid : request.validate with
    | error e => simp [hvalid, transaction] at h
    | ok u =>
      cases hlease : i64FromU64 request.leaseSeconds "lease_seconds" with
      | error e => simp [hvalid, hlease, transaction] at h
      | ok seconds =>
        simp only [hvalid, hlease, StoreResult.ok_bind] at h
        split at h
        · simp [transaction, StoreResult.pure_eq] at h
        · -- what is read is the row that was looked up
          have hread : SqliteStore.fetchClaimedDelivery (db.claimDelivery request.tenantId
              request.nowEpochSeconds request.leaseOwner
                (addI64 request.nowEpochSeconds seconds)) request = .ok (some delivery) := by
            revert h
            cases SqliteStore.fetchClaimedDelivery (db.claimDelivery request.tenantId
              request.nowEpochSeconds request.leaseOwner
                (addI64 request.nowEpochSeconds seconds)) request with
            | error e => exact fun h => by cases h
            | ok found => exact fun h => h
          have hfound := sqlite.mapM_readDelivery_eq_some hread
          have hmem := Table.mem_orderBy.mp (List.mem_of_head? hfound)
          simp only [List.mem_filter, Bool.and_eq_true, decide_eq_true_eq] at hmem
          exact hmem.2.1.1
  | d1 =>
    simp only [claimPendingDelivery, D1Store.claimPendingDelivery] at h
    cases hvalid : request.validate with
    | error e => simp [hvalid, transaction] at h
    | ok u =>
      cases hlease : i64FromU64 request.leaseSeconds "lease_seconds" with
      | error e => simp [hvalid, hlease, transaction] at h
      | ok seconds =>
        simp only [hvalid, hlease, StoreResult.ok_bind, transaction, StoreResult.pure_eq,
          D1Store.decoded_ok] at h
        have hfound := d1.mapM_readDelivery_eq_some h
        obtain ⟨row, hrow, rfl⟩ := List.mem_map.mp (List.mem_of_head? hfound)
        have hclaimed := (List.mem_filter.mp hrow).2
        rw [Db.isClaimed, Bool.and_eq_true] at hclaimed
        exact (Delivery.isEligible_iff.mp hclaimed.1).1

/-- An operation for a tenant acts on what the deliveries of the tenant depend on, if it does not
read the watches. -/
lemma actsOn_deliveryView {α : Type} {tenantId : String} {f : Db → Db × α}
    (hwithin : ActsWithin tenantId f) (hwithout : ActsOn Db.withoutWatches f) :
    ActsOn (Db.deliveryView tenantId) f := by
  intro db
  have h := hwithout (db.ofTenant tenantId)
  rw [hwithin db] at h
  exact h

variable [ExternalParsers]

/-- A claim of a watch keeps the database well formed and leaves the rows of the other tenants
alone, and everything but the watches. -/
lemma claimDueWatch_frame {db : Db} (hdb : db.WellFormed) (request : ClaimDueWatch) :
    (adapter.claimDueWatch db request).1.WellFormed ∧
      (∀ tenantId, tenantId ≠ request.tenantId →
        (adapter.claimDueWatch db request).1.ofTenant tenantId = db.ofTenant tenantId) ∧
      (adapter.claimDueWatch db request).1.withoutWatches = db.withoutWatches := by
  have heffect := adapter.step_effect hdb (.claimDueWatch request)
  refine ⟨heffect.wellFormed hdb, fun tenantId hne => heffect.ofTenant_eq hne.symm, ?_⟩
  rcases adapter.claimDueWatch_cases request hdb.watches with
    ⟨e, h⟩ | ⟨-, h⟩ | ⟨due, -, -, -, h⟩ <;> rw [h]
  rfl

/-- An operation on deliveries keeps the database well formed and leaves the rows of the other
tenants alone. -/
lemma claimPendingDelivery_frame {db : Db} (hdb : db.WellFormed) (request : ClaimPendingDelivery) :
    (adapter.claimPendingDelivery db request).1.WellFormed ∧
      ∀ tenantId, tenantId ≠ request.tenantId →
        (adapter.claimPendingDelivery db request).1.ofTenant tenantId = db.ofTenant tenantId :=
  have heffect := adapter.step_effect hdb (.claimPendingDelivery request)
  ⟨heffect.wellFormed hdb, fun _ hne => heffect.ofTenant_eq hne.symm⟩

/-- Acknowledging a delivery keeps the database well formed and leaves the rows of the other
tenants alone. -/
lemma completeDelivery_frame {db : Db} (hdb : db.WellFormed) (request : CompleteDelivery) :
    (adapter.completeDelivery db request).1.WellFormed ∧
      ∀ tenantId, tenantId ≠ request.tenantId →
        (adapter.completeDelivery db request).1.ofTenant tenantId = db.ofTenant tenantId :=
  have heffect := adapter.step_effect hdb (.completeDelivery request)
  ⟨heffect.wellFormed hdb, fun _ hne => heffect.ofTenant_eq hne.symm⟩

end Adapter

/-! ## Serving tenants -/

namespace WorkerEnvironment

/-- A claim acts within its tenant. -/
lemma claim_actsWithin (environment : WorkerEnvironment) (adapter : Adapter) (tenantId : String)
    (count : ℕ) :
    ActsWithin tenantId (environment.claim adapter tenantId count) := by
  have hwithin : ActsOn (Db.ofTenant tenantId) fun db => adapter.claimDueWatch db
      (CloudWatch.claimRequest tenantId environment.config (environment.nonce tenantId count)
        count) := adapter.claimDueWatch_actsWithin _
  exact hwithin.fault _

variable (environment : WorkerEnvironment) (adapter : Adapter) {db : Db}

section

variable [ExternalParsers]

/-- A claim keeps the database well formed and leaves the rows of the other tenants alone, and
everything but the watches. -/
lemma claim_frame (hdb : db.WellFormed) (tenantId : String) (count : ℕ) :
    (environment.claim adapter tenantId count db).1.WellFormed ∧
      (∀ other, other ≠ tenantId →
        (environment.claim adapter tenantId count db).1.ofTenant other = db.ofTenant other) ∧
      ∀ other, (environment.claim adapter tenantId count db).1.deliveryView other =
        db.deliveryView other := by
  obtain ⟨hwf, hforeign, hwithout⟩ := adapter.claimDueWatch_frame hdb
    (CloudWatch.claimRequest tenantId environment.config (environment.nonce tenantId count) count)
  refine ⟨Fault.apply_keeps hdb hwf _, fun other hne => ?_, fun other => ?_⟩
  · exact Fault.apply_of_eq (f := fun db => adapter.claimDueWatch db _) (Db.ofTenant other)
      (hforeign other hne) _
  · have hview := congrArg (Db.ofTenant other) hwithout
    exact Fault.apply_of_eq (f := fun db => adapter.claimDueWatch db _) (Db.deliveryView other)
      hview _

end

variable [HttpLibrary]

/-- Attempting a delivery acts on what the deliveries of the tenant depend on. -/
lemma deliverOne_actsOn (tenantId : String) :
    ActsOn (Db.deliveryView tenantId) (environment.deliverOne adapter tenantId) := by
  intro db
  rw [deliverOne, deliverOne]
  cases environment.webhooks tenantId with
  | none => rfl
  | some config =>
    have hclaim : ActsOn (Db.deliveryView tenantId) (Fault.apply
        (environment.claimDeliveryFault tenantId) fun db => adapter.claimPendingDelivery db
          (environment.deliveryAttempt tenantId).claim) :=
      (Adapter.actsOn_deliveryView (adapter.claimPendingDelivery_actsWithin _)
        (adapter.claimPendingDelivery_withoutWatches _)).fault _
    dsimp only
    rw [hclaim db]
    rcases hresult : Fault.apply (environment.claimDeliveryFault tenantId) (fun db =>
      adapter.claimPendingDelivery db (environment.deliveryAttempt tenantId).claim) db with
      ⟨db', e | found⟩
    · rfl
    · cases found with
      | none => rfl
      | some delivery =>
        have htenant : delivery.tenantId = tenantId := by
          have hok := Fault.apply_eq_ok (a := some delivery) (by rw [hresult])
          rw [hok] at hresult
          exact adapter.tenantId_of_claimPendingDelivery (congrArg Prod.snd hresult)
        have hcomplete : ActsOn (Db.deliveryView tenantId)
            (Fault.apply (environment.completeDeliveryFault tenantId) fun db =>
              adapter.completeDelivery db ((environment.deliveryAttempt tenantId).acknowledgement
                delivery (environment.attemptResult tenantId config delivery)
                (environment.clock tenantId))) := by
          refine (Adapter.actsOn_deliveryView ?_ (adapter.completeDelivery_withoutWatches _)).fault _
          have hwithin := adapter.completeDelivery_actsWithin
            ((environment.deliveryAttempt tenantId).acknowledgement delivery
              (environment.attemptResult tenantId config delivery) (environment.clock tenantId))
          have hkept : ((environment.deliveryAttempt tenantId).acknowledgement delivery
              (environment.attemptResult tenantId config delivery)
              (environment.clock tenantId)).tenantId = tenantId := htenant
          rwa [hkept] at hwithin
        simp only [acknowledge, Prod.map, id_eq]
        rw [hcomplete db']
        rfl

/-- Attempting a delivery keeps the database well formed and leaves the rows of the other tenants
alone. -/
lemma deliverOne_frame [ExternalParsers] (hdb : db.WellFormed) (tenantId : String) :
    (environment.deliverOne adapter tenantId db).1.WellFormed ∧
      ∀ other, other ≠ tenantId →
        (environment.deliverOne adapter tenantId db).1.ofTenant other = db.ofTenant other := by
  rw [deliverOne]
  cases environment.webhooks tenantId with
  | none => exact ⟨hdb, fun _ _ => rfl⟩
  | some config =>
    obtain ⟨hwf, hforeign⟩ := adapter.claimPendingDelivery_frame hdb
      (environment.deliveryAttempt tenantId).claim
    have hwf' : (Fault.apply (environment.claimDeliveryFault tenantId) (fun db =>
        adapter.claimPendingDelivery db (environment.deliveryAttempt tenantId).claim)
        db).1.WellFormed := Fault.apply_keeps hdb hwf _
    have hforeign' : ∀ other, other ≠ tenantId → (Fault.apply
        (environment.claimDeliveryFault tenantId) (fun db => adapter.claimPendingDelivery db
          (environment.deliveryAttempt tenantId).claim) db).1.ofTenant other = db.ofTenant other :=
      fun other hne => Fault.apply_of_eq (Db.ofTenant other) (hforeign other hne) _
    dsimp only
    rcases hresult : Fault.apply (environment.claimDeliveryFault tenantId) (fun db =>
      adapter.claimPendingDelivery db (environment.deliveryAttempt tenantId).claim) db with
      ⟨db', e | found⟩
    · rw [hresult] at hwf' hforeign'
      exact ⟨hwf', hforeign'⟩
    · cases found with
      | none =>
        rw [hresult] at hwf' hforeign'
        exact ⟨hwf', hforeign'⟩
      | some delivery =>
        have htenant : delivery.tenantId = tenantId := by
          have hok := Fault.apply_eq_ok (a := some delivery) (by rw [hresult])
          rw [hok] at hresult
          exact adapter.tenantId_of_claimPendingDelivery (congrArg Prod.snd hresult)
        rw [hresult] at hwf' hforeign'
        obtain ⟨hwf'', hforeign''⟩ := adapter.completeDelivery_frame hwf'
          ((environment.deliveryAttempt tenantId).acknowledgement delivery
            (environment.attemptResult tenantId config delivery) (environment.clock tenantId))
        have hkeeps : (environment.acknowledge adapter tenantId config delivery db').1.WellFormed :=
          Fault.apply_keeps (f := fun db => adapter.completeDelivery db _) hwf' hwf'' _
        refine ⟨hkeeps, fun other hne => ?_⟩
        have hkept : other ≠ delivery.tenantId := htenant ▸ hne
        have hrows : (environment.acknowledge adapter tenantId config delivery db').1.ofTenant other =
            db'.ofTenant other :=
          Fault.apply_of_eq (f := fun db => adapter.completeDelivery db _) (Db.ofTenant other)
            (hforeign'' other hkept) _
        exact hrows.trans (hforeign' other hne)

end WorkerEnvironment

/-! ## Invocations over a store -/

section

variable [HttpLibrary] [ExternalParsers] (environment : WorkerEnvironment) (adapter : Adapter)
  {db : Db}

/-- Claiming for a tenant over a store is the turn that its answers give. -/
lemma enqueueDueWatches_ofStore (tenantId : String) (remaining : ℕ) :
    ∀ (count : ℕ) (s : Db), s.WellFormed →
      s.ofTenant tenantId = (environment.afterClaims adapter tenantId db count).ofTenant tenantId →
        (enqueueDueWatches (.ofStore adapter environment) tenantId remaining count s).2 =
            (environment.answers adapter db tenantId).turn remaining count ∧
          (enqueueDueWatches (.ofStore adapter environment) tenantId remaining count
            s).1.WellFormed ∧
          (∀ other, other ≠ tenantId → (enqueueDueWatches (.ofStore adapter environment) tenantId
            remaining count s).1.ofTenant other = s.ofTenant other) ∧
          ∀ other, (enqueueDueWatches (.ofStore adapter environment) tenantId remaining count
            s).1.deliveryView other = s.deliveryView other := by
  induction remaining with
  | zero => exact fun count s hs _ => ⟨rfl, hs, fun _ _ => rfl, fun _ => rfl⟩
  | succ remaining ih =>
    intro count s hs hview
    obtain ⟨hwf, hforeign, hdeliveries⟩ :=
      environment.claim_frame adapter hs tenantId count
    have hclaim : ActsOn (Db.ofTenant tenantId) (environment.claim adapter tenantId count) :=
      environment.claim_actsWithin adapter tenantId count
    obtain ⟨hreply, hnext⟩ := hclaim.congr hview
    rw [enqueueDueWatches, TenantAnswers.turn]
    have hanswer : (environment.answers adapter db tenantId).claim count =
        (environment.claim adapter tenantId count s).2 := hreply.symm
    rw [hanswer]
    simp only [Surroundings.ofStore]
    rcases hresult : environment.claim adapter tenantId count s with ⟨s', e | found⟩
    · rw [hresult] at hwf hforeign hdeliveries
      exact ⟨rfl, hwf, hforeign, hdeliveries⟩
    · rw [hresult] at hwf hforeign hdeliveries hnext
      cases found with
      | none => exact ⟨rfl, hwf, hforeign, hdeliveries⟩
      | some claimed =>
        dsimp only
        have hsent : (environment.answers adapter db tenantId).send count =
          environment.sent tenantId count := rfl
        rw [hsent]
        cases environment.sent tenantId count with
        | error e => exact ⟨rfl, hwf, hforeign, hdeliveries⟩
        | ok u =>
          obtain ⟨hturn, hwf', hforeign', hdeliveries'⟩ := ih (count + 1) s' hwf hnext
          simp only [Surroundings.ofStore] at hturn hwf' hforeign' hdeliveries'
          dsimp only
          refine ⟨by rw [hturn], hwf', fun other hne => ?_, fun other => ?_⟩
          · exact (hforeign' other hne).trans (hforeign other hne)
          · exact (hdeliveries' other).trans (hdeliveries other)

/-- Claiming for the tenants over a store is the round that the answers give. -/
lemma enqueueDueWatchesForTenants_ofStore (limit : ℕ) (order : List String)
    (hnodup : order.Nodup) :
    ∀ (total : ℕ) (s : Db), s.WellFormed →
      (∀ tenantId ∈ order, s.ofTenant tenantId = db.ofTenant tenantId) →
        (enqueueDueWatchesForTenants (.ofStore adapter environment) limit total order s).2 =
            (enqueueDueWatchesForTenants (.ofAnswers (environment.answers adapter db)) limit total
              order ()).2 ∧
          (enqueueDueWatchesForTenants (.ofStore adapter environment) limit total order
            s).1.WellFormed ∧
          ∀ other, (enqueueDueWatchesForTenants (.ofStore adapter environment) limit total order
            s).1.deliveryView other = s.deliveryView other := by
  induction order with
  | nil => exact fun _ s hs _ => ⟨rfl, hs, fun _ => rfl⟩
  | cons tenantId rest ih =>
    intro total s hs hview
    obtain ⟨hnot, hrest⟩ := List.nodup_cons.mp hnodup
    rw [enqueueDueWatchesForTenants, enqueueDueWatchesForTenants]
    by_cases htotal : limit ≤ total
    · rw [if_pos htotal, if_pos htotal]
      exact ⟨rfl, hs, fun _ => rfl⟩
    · rw [if_neg htotal, if_neg htotal, enqueueDueWatches_ofAnswers]
      obtain ⟨hturn, hwf, hforeign, hdeliveries⟩ :=
        enqueueDueWatches_ofStore environment adapter tenantId (limit - total) 0 s hs
          (hview tenantId (List.mem_cons_self ..))
      dsimp only
      rw [hturn]
      cases ((environment.answers adapter db tenantId).turn (limit - total) 0).error with
      | some e => exact ⟨rfl, hwf, hdeliveries⟩
      | none =>
        obtain ⟨hturns, hwf', hdeliveries'⟩ := ih hrest
          (total + ((environment.answers adapter db tenantId).turn (limit - total)
            0).enqueued.length) _ hwf fun other hother => by
            have hne : other ≠ tenantId := fun heq => hnot (heq ▸ hother)
            rw [hforeign other hne, hview other (List.mem_cons_of_mem _ hother)]
        dsimp only
        exact ⟨by rw [hturns], hwf', fun other => (hdeliveries' other).trans (hdeliveries other)⟩

/-- The deliveries over a store are those that the answers give. -/
lemma deliverScheduled_ofStore (order : List String) (hnodup : order.Nodup) :
    ∀ s : Db, s.WellFormed →
      (∀ tenantId ∈ order, s.deliveryView tenantId = db.deliveryView tenantId) →
        (deliverScheduled (.ofStore adapter environment) order s).2 =
          (deliverScheduled (.ofAnswers (environment.answers adapter db)) order ()).2 := by
  induction order with
  | nil => exact fun _ _ _ => rfl
  | cons tenantId rest ih =>
    intro s hs hview
    obtain ⟨hnot, hrest⟩ := List.nodup_cons.mp hnodup
    obtain ⟨hwf, hforeign⟩ := environment.deliverOne_frame adapter hs tenantId
    obtain ⟨hreply, -⟩ := (environment.deliverOne_actsOn adapter tenantId).congr
      (hview tenantId (List.mem_cons_self ..))
    rw [deliverScheduled, deliverScheduled]
    simp only [Surroundings.ofStore, Surroundings.ofAnswers]
    have hanswer : (environment.answers adapter db tenantId).delivery =
        (environment.deliverOne adapter tenantId s).2 := hreply.symm
    rw [hanswer]
    rcases hresult : environment.deliverOne adapter tenantId s with ⟨s', e | delivery⟩
    · rfl
    · rw [hresult] at hwf hforeign
      dsimp only
      have hdeliveries := ih hrest s' hwf fun other hother => by
        have hne : other ≠ tenantId := fun heq => hnot (heq ▸ hother)
        rw [← hview other (List.mem_cons_of_mem _ hother)]
        exact congrArg Db.withoutWatches (hforeign other hne)
      simp only [Surroundings.ofStore, Surroundings.ofAnswers] at hdeliveries
      rw [hdeliveries]

/-- **Invocations over a store**: an invocation over a store does what it does when each tenant
gets the answers that it gets when nobody else is served.

**Proof sketch.** The operations for a tenant act within the tenant and leave the others alone;
claims leave alone what deliveries depend on. -/
theorem scheduled_ofStore (invocation : ScheduledInvocation) (hdb : db.WellFormed) :
    (scheduled invocation (.ofStore adapter environment) db).2 =
      invocation.run (environment.answers adapter db) := by
  obtain ⟨hturns, hwf, hdeliveries⟩ :=
    enqueueDueWatchesForTenants_ofStore environment adapter invocation.claimLimit
      invocation.claimOrder invocation.claimOrder_nodup 0 db hdb fun _ _ => rfl
  rw [ScheduledInvocation.run, scheduled, scheduled]
  dsimp only
  rw [hturns]
  split
  · rfl
  · dsimp only
    rw [deliverScheduled_ofStore environment adapter invocation.deliveryOrder
      invocation.deliveryOrder_nodup _ hwf fun tenantId _ => hdeliveries tenantId]

/-- **Isolation over a store**: after every run of a store and with any failures around it, an
invocation does what each tenant is answered, and it isolates the tenants exactly when no failure
cuts anything off. -/
theorem tenants_isolated_iff (ops : List StoreOp) (invocation : ScheduledInvocation) :
    (scheduled invocation (.ofStore adapter environment) (adapter.store.run ops)).2 =
        invocation.run (environment.answers adapter (adapter.store.run ops)) ∧
      (invocation.Isolated (environment.answers adapter (adapter.store.run ops)) ↔
        invocation.NothingCutOff (environment.answers adapter (adapter.store.run ops))) :=
  ⟨scheduled_ofStore environment adapter invocation (adapter.wellFormed_run ops),
    invocation.isolated_iff _⟩

end

/-! ## A failure that cuts a tenant off -/

/-- An invocation for two tenants. -/
def twoTenants : ScheduledInvocation where
  tenantIds := ["a", "b"]
  tenantIds_nodup := by decide
  configured := none
  configured_nodup := by simp
  nowEpochSeconds := 10
  claimLimit := 2

/-- An environment in which the store does not answer to the first tenant. -/
def silentForFirst : WorkerEnvironment where
  config := ⟨10, 2, 60⟩
  nonce _ _ := 0
  claimFault tenantId _ :=
    if tenantId = "a" then some ⟨.backend "database is unavailable", false⟩ else none
  sendFault _ _ := none
  webhooks _ := none
  deliveryLeaseOwner _ := "cloud-delivery"
  claimDeliveryFault _ := none
  completeDeliveryFault _ := none
  post _ _ := .response 200
  clock _ := 10

/-- The second tenant has a due watch. -/
def dueForSecond : List StoreOp :=
  [.createWatch ⟨"b", "w", ⟨"q", none, none, none⟩, [], 60, .obj [], true, 0, none⟩]

/-- The watch of the second tenant is claimed when the tenant is spared, and not otherwise. -/
private lemma claimed_silentForFirst :
    letI : ExternalParsers := .ofHost "example.com"
    letI : HttpLibrary := .ofHost "example.com"
    let answers := silentForFirst.answers .d1 (Adapter.d1.store.run dueForSecond)
    ((twoTenants.run answers).turnOf "b").claimed.length = 0 ∧
      ((twoTenants.run (twoTenants.sparing answers "b")).turnOf "b").claimed.length = 1 := by
  decide

/-- Tenants are not isolated: the watch of the second tenant of `twoTenants` is not claimed because
the store does not answer to the first. -/
theorem tenants_not_isolated :
    letI : ExternalParsers := .ofHost "example.com"
    letI : HttpLibrary := .ofHost "example.com"
    ¬ twoTenants.Isolated (silentForFirst.answers .d1 (Adapter.d1.store.run dueForSecond)) := by
  let _ : ExternalParsers := .ofHost "example.com"
  let _ : HttpLibrary := .ofHost "example.com"
  intro hisolated
  obtain ⟨hwithout, hspared⟩ := claimed_silentForFirst
  have hsame := (hisolated "b" _ (twoTenants.spared_sparing _ "b")).1
  rw [hsame, hspared] at hwithout
  exact absurd hwithout (by decide)

end Comsat
