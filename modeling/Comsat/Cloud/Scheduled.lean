import Comsat.Cloud.WatchQueue
import Comsat.Lib.SharedBudget
import Mathlib

set_option relaxedAutoImplicit false
set_option autoImplicit false

/-!
# A scheduled invocation of the Worker

An invocation claims due watches for some of the tenants, in rotation and on one budget, and puts
them on the queue; then it attempts a delivery for some of the tenants that have a webhook.

## Main definitions

* `scheduledTenantsOn` — the tenants that have their turn, with the words of a machine.
* `Surroundings` — the store, the queue and the webhooks as an invocation meets them.
* `enqueueDueWatches`, `enqueueDueWatchesForTenants` — claiming for one tenant, and for all.
* `deliverScheduled` — the deliveries.
* `scheduled` — the invocation.
* `TenantAnswers`, `Surroundings.ofAnswers` — surroundings that are given by what they answer to
  each tenant.

## Design

* The loops are generic in the surroundings, as those of the program are in the store.
* Logging is left out.
-/

namespace Comsat

/-- The tenants that have their turn, on a machine whose words hold the numbers below `word`: the
first of them moves on with every window of five minutes. -/
def scheduledTenantsOn (word : ℕ) (tenants : List String) (now : ℤ) (limit : ℕ) : List String :=
  let window := (max now 0 / 300).toNat
  let window := if window < word then window else 0
  (tenants.rotate (window % tenants.length)).take (min limit tenants.length)

/-- The tenants that have their turn in the Worker, whose words have 32 bits. -/
def scheduledTenants (tenants : List String) (now : ℤ) (limit : ℕ) : List String :=
  scheduledTenantsOn (2 ^ 32) tenants now limit

/-- No tenant has its turn twice. -/
lemma nodup_scheduledTenantsOn {tenants : List String} (h : tenants.Nodup) (word : ℕ) (now : ℤ)
    (limit : ℕ) : (scheduledTenantsOn word tenants now limit).Nodup :=
  (List.nodup_rotate.mpr h).sublist (List.take_sublist _ _)

/-- No tenant has its turn twice in the Worker. -/
lemma nodup_scheduledTenants {tenants : List String} (h : tenants.Nodup) (now : ℤ) (limit : ℕ) :
    (scheduledTenants tenants now limit).Nodup := nodup_scheduledTenantsOn h _ now limit

/-- The store, the queue and the webhooks as an invocation meets them: what the next claim for a
tenant, sending the message about a claimed watch and the attempt at a delivery come to. The number
tells how many watches the tenant has enqueued before. -/
structure Surroundings (σ : Type) where
  claim : String → ℕ → σ → σ × StoreResult (Option ClaimedWatch)
  send : String → ℕ → WatchClaimMessage → σ → σ × StoreResult Unit
  deliver : String → σ → σ × StoreResult (Option Delivery)

/-- What came of claiming for a tenant. -/
structure TenantTurn where
  claimed : List ClaimedWatch
  enqueued : List WatchClaimMessage
  error : Option StoreError

/-- Nothing was claimed. -/
def TenantTurn.idle : TenantTurn := ⟨[], [], none⟩

/-- The messages of a turn count towards the budget, and its error ends the round. -/
instance : SharedBudget.Outcome TenantTurn where
  used turn := turn.enqueued.length
  failed turn := turn.error.isSome

section

variable {σ : Type} (surroundings : Surroundings σ)

/-- Claims watches of a tenant and enqueues them, as long as there are any and `remaining` is left
of the budget. -/
def enqueueDueWatches (tenantId : String) : ℕ → ℕ → σ → σ × TenantTurn
  | 0, _, s => (s, .idle)
  | remaining + 1, count, s =>
    match surroundings.claim tenantId count s with
    | (s, .error error) => (s, ⟨[], [], some error⟩)
    | (s, .ok none) => (s, .idle)
    | (s, .ok (some claimed)) =>
      let message := WatchClaimMessage.ofClaimed claimed
      match surroundings.send tenantId count message s with
      | (s, .error error) => (s, ⟨[claimed], [], some error⟩)
      | (s, .ok ()) =>
        let (s, rest) := enqueueDueWatches tenantId remaining (count + 1) s
        (s, ⟨claimed :: rest.claimed, message :: rest.enqueued, rest.error⟩)

/-- Claims watches for one tenant after another; an error ends the round. -/
def enqueueDueWatchesForTenants (claimLimit : ℕ) :
    ℕ → List String → σ → σ × List (String × TenantTurn)
  | _, [], s => (s, [])
  | total, tenantId :: rest, s =>
    if claimLimit ≤ total then (s, [])
    else
      let (s, turn) := enqueueDueWatches surroundings tenantId (claimLimit - total) 0 s
      match turn.error with
      | some _ => (s, [(tenantId, turn)])
      | none =>
        let (s, turns) :=
          enqueueDueWatchesForTenants claimLimit (total + turn.enqueued.length) rest s
        (s, (tenantId, turn) :: turns)

/-- Attempts a delivery for one tenant after another; an error ends the round. -/
def deliverScheduled : List String → σ → σ × List (String × StoreResult (Option Delivery))
  | [], s => (s, [])
  | tenantId :: rest, s =>
    match surroundings.deliver tenantId s with
    | (s, .error error) => (s, [(tenantId, .error error)])
    | (s, .ok delivery) =>
      let (s, deliveries) := deliverScheduled rest s
      (s, (tenantId, .ok delivery) :: deliveries)

end

/-- How many tenants have a delivery attempted. -/
def notificationTenantLimit : ℕ := 4

/-- What an invocation is scheduled with. -/
structure ScheduledInvocation where
  /-- The tenants. -/
  tenantIds : List String
  tenantIds_nodup : tenantIds.Nodup
  /-- The tenants that have a webhook, if webhooks are configured at all. -/
  configured : Option (List String)
  configured_nodup : ∀ tenants ∈ configured, tenants.Nodup
  nowEpochSeconds : ℤ
  claimLimit : ℕ

namespace ScheduledInvocation

variable (invocation : ScheduledInvocation)

/-- The tenants for which watches are claimed, in order. -/
def claimOrder : List String :=
  scheduledTenants invocation.tenantIds invocation.nowEpochSeconds invocation.claimLimit

/-- The tenants for which a delivery is attempted, in order. -/
def deliveryOrder : List String :=
  match invocation.configured with
  | none => []
  | some tenants =>
    scheduledTenants tenants invocation.nowEpochSeconds notificationTenantLimit

/-- No tenant has two turns. -/
lemma claimOrder_nodup : invocation.claimOrder.Nodup :=
  nodup_scheduledTenants invocation.tenantIds_nodup _ _

/-- No tenant has two deliveries attempted. -/
lemma deliveryOrder_nodup : invocation.deliveryOrder.Nodup := by
  rw [deliveryOrder]
  cases h : invocation.configured with
  | none => exact List.nodup_nil
  | some tenants => exact nodup_scheduledTenants (invocation.configured_nodup tenants h) _ _

end ScheduledInvocation

/-- What an invocation did: the turns, and the deliveries. -/
structure ScheduledRun where
  turns : List (String × TenantTurn)
  deliveries : List (String × StoreResult (Option Delivery))

/-- What an invocation did for a tenant. -/
def ScheduledRun.turnOf (run : ScheduledRun) (tenantId : String) : TenantTurn :=
  (SharedBudget.resultOf tenantId run.turns).getD .idle

/-- Whether an invocation has attempted a delivery of a tenant. -/
def ScheduledRun.Attempted (run : ScheduledRun) (tenantId : String) : Prop :=
  ∃ result, (tenantId, result) ∈ run.deliveries ∧ result ≠ .ok none

/-- The invocation. Deliveries are attempted only when no claim has failed. -/
def scheduled {σ : Type} (invocation : ScheduledInvocation) (surroundings : Surroundings σ)
    (s : σ) : σ × ScheduledRun :=
  let (s, turns) := enqueueDueWatchesForTenants surroundings invocation.claimLimit 0
    invocation.claimOrder s
  if turns.any fun entry => entry.2.error.isSome then (s, ⟨turns, []⟩)
  else
    let (s, deliveries) := deliverScheduled surroundings invocation.deliveryOrder s
    (s, ⟨turns, deliveries⟩)

/-! ## Answers -/

/-- What the store, the queue and the webhook answer to the operations for a tenant. -/
structure TenantAnswers where
  /-- To the claim after so many watches were enqueued. -/
  claim : ℕ → StoreResult (Option ClaimedWatch)
  /-- To the message about the watch claimed then. -/
  send : ℕ → StoreResult Unit
  /-- To the attempt at a delivery. -/
  delivery : StoreResult (Option Delivery)

/-- Surroundings that are given by their answers. -/
def Surroundings.ofAnswers (answers : String → TenantAnswers) : Surroundings Unit where
  claim tenantId count _ := ((), (answers tenantId).claim count)
  send tenantId count _ _ := ((), (answers tenantId).send count)
  deliver tenantId _ := ((), (answers tenantId).delivery)

end Comsat
