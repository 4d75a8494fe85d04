import Comsat.Lib.Machine
import Comsat.Store.D1
import Comsat.Store.Sqlite

set_option relaxedAutoImplicit false
set_option autoImplicit false

/-!
# Stores as machines

Both adapters implement the same operations. A store is a machine: its states are databases, its
inputs operations, and it starts with the empty tables.

## Main definitions

* `StoreOp`, `StoreReply` — the operations of a store and their results.
* `Adapter`, `Adapter.step` — an adapter, and how it carries out an operation.
* `Adapter.store` — the store of an adapter as a `Machine`.
* `StoreStep` — a recorded step of a store.

## Implementation notes

* An operation is atomic: the SQLite adapter holds its mutex, a D1 batch is a transaction.
  Workers that interleave, stop or repeat a message are runs of the machine.
-/

namespace Comsat

/-- An operation of a store. -/
inductive StoreOp where
  | upsertSource (request : UpsertSource)
  | createWatch (request : CreateWatch)
  | listWatches (tenantId : String)
  | deleteWatch (request : DeleteWatch)
  | claimDueWatch (request : ClaimDueWatch)
  | startWatchRun (request : StartWatchRun)
  | completeWatchRun (request : CompleteWatchRun)
  | history (request : HistoryRequest)
  | claimPendingDelivery (request : ClaimPendingDelivery)
  | completeDelivery (request : CompleteDelivery)
  | listDeliveries (request : ListDeliveries)

/-- The tenant an operation is issued for. -/
def StoreOp.tenantId : StoreOp → String
  | upsertSource request => request.tenantId
  | createWatch request => request.tenantId
  | listWatches tenantId => tenantId
  | deleteWatch request => request.tenantId
  | claimDueWatch request => request.tenantId
  | startWatchRun request => request.tenantId
  | completeWatchRun request => request.tenantId
  | history request => request.tenantId
  | claimPendingDelivery request => request.tenantId
  | completeDelivery request => request.tenantId
  | listDeliveries request => request.tenantId

/-- The result of an operation. -/
inductive StoreReply where
  | sourceUpserted (result : StoreResult Unit)
  | watchCreated (result : StoreResult Watch)
  | watchesListed (result : StoreResult (List Watch))
  | watchDeleted (result : StoreResult Bool)
  | watchClaimed (result : StoreResult (Option ClaimedWatch))
  | runStarted (result : StoreResult WatchRun)
  | runCompleted (result : StoreResult WatchRunOutcome)
  | historyRead (result : StoreResult (List RecordObservation))
  | deliveryClaimed (result : StoreResult (Option Delivery))
  | deliveryCompleted (result : StoreResult Delivery)
  | deliveriesListed (result : StoreResult (List Delivery))

/-- The adapters. -/
inductive Adapter where
  | sqlite
  | d1
deriving DecidableEq, Repr

namespace Adapter

/-- The integer that an adapter stores or compares for an integer of a request. -/
def bind : Adapter → ℤ → ℤ
  | sqlite => id
  | d1 => D1Store.int

/-- An instant as an adapter writes it into a payload. -/
def observedAt : Adapter → ℤ → JsonInteger
  | sqlite => .integer
  | d1 => fun instant => .real (D1Store.int instant)

/-- The instant of a payload is the stored one. -/
@[simp] lemma observedAt_value (adapter : Adapter) (instant : ℤ) :
    (adapter.observedAt instant).value = adapter.bind instant := by
  cases adapter <;> rfl

/-- When a watch is due after a run that finished at an instant. -/
def nextDue : Adapter → ℤ → ℤ → ℤ
  | sqlite => addI64
  | d1 => fun finishedAt interval => D1Store.sqlAdd (D1Store.int finishedAt) interval

section Operations

variable (adapter : Adapter) (db : Db)

/-- Records a source of a tenant. -/
def upsertSource (request : UpsertSource) : Db × StoreResult Unit :=
  match adapter with
  | sqlite => SqliteStore.upsertSource db request
  | d1 => D1Store.upsertSource db request

/-- Creates a watch. -/
def createWatch [ExternalParsers] (request : CreateWatch) : Db × StoreResult Watch :=
  match adapter with
  | sqlite => SqliteStore.createWatch db request
  | d1 => D1Store.createWatch db request

/-- Lists the watches of a tenant. -/
def listWatches (tenantId : String) : Db × StoreResult (List Watch) :=
  match adapter with
  | sqlite => SqliteStore.listWatches db tenantId
  | d1 => D1Store.listWatches db tenantId

/-- Deletes a watch. -/
def deleteWatch (request : DeleteWatch) : Db × StoreResult Bool :=
  match adapter with
  | sqlite => SqliteStore.deleteWatch db request
  | d1 => D1Store.deleteWatch db request

/-- Claims the next due watch. -/
def claimDueWatch (request : ClaimDueWatch) : Db × StoreResult (Option ClaimedWatch) :=
  match adapter with
  | sqlite => SqliteStore.claimDueWatch db request
  | d1 => D1Store.claimDueWatch db request

/-- Starts a run. -/
def startWatchRun (request : StartWatchRun) : Db × StoreResult WatchRun :=
  match adapter with
  | sqlite => SqliteStore.startWatchRun db request
  | d1 => D1Store.startWatchRun db request

/-- Completes a run. -/
def completeWatchRun [ExternalParsers] (request : CompleteWatchRun) :
    Db × StoreResult WatchRunOutcome :=
  match adapter with
  | sqlite => SqliteStore.completeWatchRun db request
  | d1 => D1Store.completeWatchRun db request

/-- Reads the history. -/
def history (request : HistoryRequest) : Db × StoreResult (List RecordObservation) :=
  match adapter with
  | sqlite => SqliteStore.history db request
  | d1 => D1Store.history db request

/-- Claims the next delivery. -/
def claimPendingDelivery (request : ClaimPendingDelivery) : Db × StoreResult (Option Delivery) :=
  match adapter with
  | sqlite => SqliteStore.claimPendingDelivery db request
  | d1 => D1Store.claimPendingDelivery db request

/-- Acknowledges an attempt at a delivery. -/
def completeDelivery (request : CompleteDelivery) : Db × StoreResult Delivery :=
  match adapter with
  | sqlite => SqliteStore.completeDelivery db request
  | d1 => D1Store.completeDelivery db request

/-- Lists deliveries. -/
def listDeliveries (request : ListDeliveries) : Db × StoreResult (List Delivery) :=
  match adapter with
  | sqlite => SqliteStore.listDeliveries db request
  | d1 => D1Store.listDeliveries db request

end Operations

/-- Carries out an operation. -/
def step [ExternalParsers] (adapter : Adapter) (db : Db) : StoreOp → Db × StoreReply
  | .upsertSource request => (adapter.upsertSource db request).map id .sourceUpserted
  | .createWatch request => (adapter.createWatch db request).map id .watchCreated
  | .listWatches tenantId => (adapter.listWatches db tenantId).map id .watchesListed
  | .deleteWatch request => (adapter.deleteWatch db request).map id .watchDeleted
  | .claimDueWatch request => (adapter.claimDueWatch db request).map id .watchClaimed
  | .startWatchRun request => (adapter.startWatchRun db request).map id .runStarted
  | .completeWatchRun request => (adapter.completeWatchRun db request).map id .runCompleted
  | .history request => (adapter.history db request).map id .historyRead
  | .claimPendingDelivery request =>
    (adapter.claimPendingDelivery db request).map id .deliveryClaimed
  | .completeDelivery request => (adapter.completeDelivery db request).map id .deliveryCompleted
  | .listDeliveries request => (adapter.listDeliveries db request).map id .deliveriesListed

/-- The store of an adapter. -/
def store [ExternalParsers] (adapter : Adapter) : Machine Db StoreOp StoreReply :=
  ⟨Db.empty, adapter.step⟩

end Adapter

/-- A recorded step of a store. -/
abbrev StoreStep := Machine.Step Db StoreOp StoreReply

end Comsat
