import Comsat.App.WatchRunner
import Comsat.Cloud.WatchQueue
import Comsat.Engine.Collected

set_option relaxedAutoImplicit false
set_option autoImplicit false

/-!
# Executed runs

A run of a watch, from the search of its sources to the request that completes it, as a native
process and the Worker execute it.

## Main definitions

* `NativeRun`, `WorkerRun` — what an execution depends on.
* `NativeRun.outcome`, `WorkerRun.outcome` — what its search came to.
* `NativeRun.request`, `WorkerRun.request` — the completion it asks for.

## Design

* The tools of the sources, the timing of their events and the clock are parameters. A clock shows a
  signed integer of 64 bits.
* The search may stop at any moment: what it came to after some polls is an outcome, too.
-/

namespace Comsat

/-- A signed integer of 64 bits. -/
def IsI64 (value : ℤ) : Prop := -2 ^ 63 ≤ value ∧ value < 2 ^ 63

/-- A run that a native process executes. -/
structure NativeRun where
  app : ComsatApp
  /-- The watch that was claimed. -/
  claim : ClaimedWatch
  catalog : SourceCatalog
  polls : List (List Round)
  finishedAt : ℤ
  /-- The clock shows an integer of 64 bits. -/
  clock : IsI64 finishedAt

/-- A run that the Worker executes. -/
structure WorkerRun where
  message : WatchClaimMessage
  /-- The run that was started. -/
  run : WatchRun
  catalog : SourceCatalog
  polls : List (List Round)
  webhooks : Option TenantWebhookConfig
  finishedAt : ℤ
  /-- The clock shows an integer of 64 bits. -/
  clock : IsI64 finishedAt

section

variable [ExternalParsers]

/-- What the search of a native run came to. -/
def NativeRun.outcome (run : NativeRun) : SearchOutcome :=
  SearchDriver.collected run.catalog ⟨run.claim.watch.query, run.claim.watch.sourceIds, false⟩
    .default run.polls

/-- The completion of a native run. -/
def NativeRun.request [DefaultHasher] (run : NativeRun) : CompleteWatchRun :=
  run.app.completeRequest run.claim run.outcome run.finishedAt

/-- What the search of a run of the Worker came to. -/
def WorkerRun.outcome (run : WorkerRun) : SearchOutcome :=
  SearchDriver.collected run.catalog ⟨run.message.query, run.message.sourceIds, false⟩ cloudLimits
    run.polls

/-- The completion of a run of the Worker. -/
def WorkerRun.request [DefaultHasher] (run : WorkerRun) : CompleteWatchRun :=
  CloudWatch.completeRequest run.message run.run run.outcome run.finishedAt run.webhooks

end

end Comsat
