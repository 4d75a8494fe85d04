import Comsat.Cloud.WatchQueue
import Comsat.Store.WatchLives
import Mathlib

set_option relaxedAutoImplicit false
set_option autoImplicit false

/-!
# The queue of the Worker

Scheduled invocations claim watches and put a message for each of them on a queue; workers receive
the messages and run the watches. The queue delivers a message at least once: in any order, any
number of times, to any worker. D1 may not be reached or may not answer, a worker may stop anywhere,
and watches are created and deleted meanwhile.

## Main definitions

* `QueuePhase`, `QueueSystem` — what a worker is doing, and all of them with the store and the queue.
* `processed` — what the queue is told about a message.
* `watchQueue` — the machine whose steps are those of the invocations, of the workers and of
  everybody else.
* `QueueInv` — the invariant.

## Main results

* `queueInv_run` — the invariant holds along every run.
* `watch_queue_once` — what a message stands for takes effect at most once, and about the watch as
  it is; it is given up only when it is done or refused; and it is done while its lease lasts.

## Design

* The store is kept as the operations that it has carried out.
* What comes of the notifications after a run is an argument: they are other operations of the
  store.
-/

namespace Comsat

/-! ## The workers -/

/-- An operation fails on its way to D1, or on its way back. -/
structure Outage where
  carriedOut : Bool
  message : String

/-- What is seen of the result of an operation. -/
def seen {α : Type} (outage : Option Outage) (result : StoreResult α) : StoreResult α :=
  match outage with
  | none => result
  | some outage => .error (.backend outage.message)

/-- What the store has carried out after one more operation. -/
def carriedOut (ops : List StoreOp) (outage : Option Outage) (op : StoreOp) : List StoreOp :=
  match outage with
  | none => ops ++ [op]
  | some outage => if outage.carriedOut then ops ++ [op] else ops

/-- Whether a message that failed is delivered again. -/
def shouldRetry : StoreError → Bool
  | .backend _ => true
  | .conflict _ => false
  | .notFound _ => false
  | .validation _ => false

/-- What the queue is told about a message. -/
structure Settlement where
  message : WatchClaimMessage
  result : StoreResult Unit
  retried : Bool

/-- What the queue is told after a message was processed and its tenant notified. -/
def processed (message : WatchClaimMessage) (result notified : StoreResult Unit) : Settlement where
  message
  result
  retried := match result, notified with
    | .error error, _ => shouldRetry error
    | .ok (), .error error => shouldRetry error
    | .ok (), .ok () => false

/-- What a worker is doing. -/
inductive QueuePhase where
  | idle
  /-- It has received a message. -/
  | received (message : WatchClaimMessage)
  /-- It has started a run of the watch, and searches. -/
  | searching (message : WatchClaimMessage) (run : WatchRun)

/-- The store, the messages that were put on the queue, and the workers. -/
structure QueueSystem (ι : Type) where
  ops : List StoreOp
  sent : List WatchClaimMessage
  workers : ι → QueuePhase

/-- A step of an invocation, of a worker, or of somebody else. -/
inductive QueueStep (ι : Type) where
  /-- An operation that is not about claims and runs. -/
  | other (op : StoreOp)
  /-- A scheduled invocation claims a watch, and puts it on the queue if that can be reached. -/
  | claim (tenantId : String) (config : WatchClaimConfig) (nonce count : ℕ)
    (outage : Option Outage) (queued : Bool)
  /-- A worker receives some message; what it was doing before is given up. -/
  | receive (worker : ι) (message : ℕ)
  /-- It starts a run of the watch. -/
  | start (worker : ι) (now : ℤ) (outage : Option Outage) (notified : StoreResult Unit)
  /-- Its search has ended, and it completes the run. -/
  | complete (worker : ι) (outcome : SearchOutcome) (finishedAt : ℤ)
    (webhooks : Option TenantWebhookConfig) (outage : Option Outage) (notified : StoreResult Unit)

/-- The operation is about claims and runs. -/
def StoreOp.isQueued : StoreOp → Bool
  | claimDueWatch _ => true
  | startWatchRun _ => true
  | completeWatchRun _ => true
  | _ => false

namespace QueueSystem

variable {ι : Type} [ExternalParsers]

/-- The tables of the store. -/
def db (system : QueueSystem ι) : Db := Adapter.d1.store.run system.ops

/-- What the store has done. -/
def trace (system : QueueSystem ι) : List StoreStep := Adapter.d1.store.trace system.ops

variable [DecidableEq ι]

omit [ExternalParsers] in
/-- A worker moves on. -/
def update (system : QueueSystem ι) (ops : List StoreOp) (i : ι) (phase : QueuePhase) :
    QueueSystem ι :=
  { system with ops, workers := Function.update system.workers i phase }

variable [DefaultHasher]

/-- A step of the system, and what the queue is told in it. -/
def step (system : QueueSystem ι) : QueueStep ι → QueueSystem ι × Option Settlement
  | .other op =>
    if op.isQueued then (system, none) else ({ system with ops := system.ops ++ [op] }, none)
  | .claim tenantId config nonce count outage queued =>
    let request := CloudWatch.claimRequest tenantId config nonce count
    let sent := match seen outage (Adapter.d1.claimDueWatch system.db request).2 with
      | .ok (some claimed) =>
        if queued then system.sent ++ [.ofClaimed claimed] else system.sent
      | _ => system.sent
    ({ system with ops := carriedOut system.ops outage (.claimDueWatch request), sent }, none)
  | .receive i n =>
    match system.sent[n]? with
    | some message => (system.update system.ops i (.received message), none)
    | none => (system, none)
  | .start i now outage notified =>
    match system.workers i with
    | .received message =>
      let request := CloudWatch.startRequest message now
      let ops := carriedOut system.ops outage (.startWatchRun request)
      match seen outage (Adapter.d1.startWatchRun system.db request).2 with
      | .ok run =>
        if run.status = .running then (system.update ops i (.searching message run), none)
        else (system.update ops i .idle, some (processed message (.ok ()) notified))
      | .error error => (system.update ops i .idle, some (processed message (.error error) notified))
    | _ => (system, none)
  | .complete i outcome finishedAt webhooks outage notified =>
    match system.workers i with
    | .searching message run =>
      let request := CloudWatch.completeRequest message run outcome finishedAt webhooks
      let result := (seen outage (Adapter.d1.completeWatchRun system.db request).2).map fun _ => ()
      (system.update (carriedOut system.ops outage (.completeWatchRun request)) i .idle,
        some (processed message result notified))
    | _ => (system, none)

end QueueSystem

/-- The system on an empty store, before anything was put on the queue. -/
def watchQueue (ι : Type) [DecidableEq ι] [ExternalParsers] [DefaultHasher] :
    Machine (QueueSystem ι) (QueueStep ι) (Option Settlement) where
  init := ⟨[], [], fun _ => .idle⟩
  step := QueueSystem.step

/-! ## The invariant -/

namespace WatchClaimMessage

/-- A completion is that of the run of a message. -/
def Answered (message : WatchClaimMessage) (request : CompleteWatchRun) : Prop :=
  request.tenantId = message.tenantId ∧ request.watchId = message.watchId ∧
    request.runId = CloudWatch.runId message ∧ request.leaseOwner = message.leaseOwner ∧
      request.nextCursor = message.cursor

/-- A watch is leased for a message, and is what the message says. -/
def Describes (message : WatchClaimMessage) (w : Watch) : Prop :=
  w.key = (message.tenantId, message.watchId) ∧ w.query = message.query ∧
    w.sourceIds = message.sourceIds ∧ w.cursor = message.cursor ∧
      w.leaseOwner = some message.leaseOwner

/-- While its watch is leased for it, the run of a message is running. -/
def Running (message : WatchClaimMessage) (db : Db) : Prop :=
  ∀ w ∈ db.watches, w.leaseOwner = some message.leaseOwner → ∃ r ∈ db.watchRuns,
    r.isRunningUnder message.tenantId message.watchId (CloudWatch.runId message)
      message.leaseOwner = true

end WatchClaimMessage

section

variable {ι : Type} [ExternalParsers]

/-- The invariant of the system. -/
structure QueueInv (system : QueueSystem ι) : Prop where
  /-- A message is about a claim. -/
  sent : ∀ message ∈ system.sent, ∃ claim ∈ watchClaims system.trace, message = .ofClaimed claim
  /-- A run is named after its watch and its owner, and so is its key. -/
  runs : ∀ r ∈ system.db.watchRuns, r.runId = r.watchId ++ ":" ++ r.leaseOwner ∧
    r.idempotencyKey = r.leaseOwner
  /-- The owner of a run has claimed its watch. -/
  claimed : ∀ r ∈ system.db.watchRuns, ∃ claim ∈ watchClaims system.trace,
    claim.leaseOwner = r.leaseOwner ∧ claim.watch.key = (r.tenantId, r.watchId)
  /-- The owner of a running run has completed nothing. -/
  running : ∀ r ∈ system.db.watchRuns, r.status = .running →
    ∀ request ∈ commits system.trace, request.leaseOwner ≠ r.leaseOwner
  /-- A completion is that of a message that describes the watch at that moment. -/
  answered : ∀ x ∈ system.trace, ∀ request, x.commit = some request →
    ∃ message ∈ system.sent, message.Answered request ∧ ∃ w ∈ x.before.watches, message.Describes w
  /-- What a worker has received was sent. -/
  received : ∀ i message, system.workers i = .received message → message ∈ system.sent
  /-- The run that a worker searches for is that of its message. -/
  searching : ∀ i message run, system.workers i = .searching message run →
    message ∈ system.sent ∧ run.runId = CloudWatch.runId message ∧ message.Running system.db

namespace QueueInv

variable {system : QueueSystem ι}

/-! ### What it says about messages and leases -/

/-- The watch that is leased for a message is the one that it describes. -/
lemma describes (h : QueueInv system) (hfresh : FreshClaims system.trace)
    {message : WatchClaimMessage} (hmessage : message ∈ system.sent) {w : Watch}
    (hw : w ∈ system.db.watches) (howner : w.leaseOwner = some message.leaseOwner) :
    message.Describes w := by
  obtain ⟨claim, hclaim, rfl⟩ := h.sent message hmessage
  obtain ⟨hwatches, -⟩ := Adapter.d1.lives_run system.ops fun _ => hfresh
  obtain ⟨other, hother, hsame, rfl⟩ :=
    hwatches.exists_claim (Adapter.d1.wellFormed_run system.ops) hw howner
  obtain rfl := hfresh.eq_of_owner hother hclaim hsame
  exact ⟨rfl, rfl, rfl, rfl, rfl⟩

/-- The owner of a lease has claimed its watch. -/
lemma claim_of_leased (hfresh : FreshClaims system.trace) {w : Watch}
    (hw : w ∈ system.db.watches) {tenantId watchId owner : String} {now : ℤ}
    (hleased : w.isLeasedTo tenantId watchId owner now = true) :
    ∃ claim ∈ watchClaims system.trace, claim.leaseOwner = owner ∧
      claim.watch.key = (tenantId, watchId) := by
  obtain ⟨hkey, howner, -⟩ := Watch.isLeasedTo_iff.mp hleased
  obtain ⟨hwatches, -⟩ := Adapter.d1.lives_run system.ops fun _ => hfresh
  obtain ⟨claim, hclaim, hsame, rfl⟩ :=
    hwatches.exists_claim (Adapter.d1.wellFormed_run system.ops) hw howner
  exact ⟨claim, hclaim, hsame, hkey⟩

/-- The run of a message that has been finished was completed. -/
lemma committed_of_finished (h : QueueInv system) (hfresh : FreshClaims system.trace)
    {r : WatchRun} (hr : r ∈ system.db.watchRuns) (hstatus : r.status ≠ .running) :
    ∃ request ∈ commits system.trace, request.leaseOwner = r.leaseOwner := by
  obtain ⟨-, hruns⟩ := Adapter.d1.lives_run system.ops fun _ => hfresh
  have hrow := (hruns.rows r.idempotency).symm.trans
    (Table.find?_key_eq (Adapter.d1.wellFormed_run system.ops).idempotency hr)
  obtain ⟨first, -, rfl⟩ := Option.map_eq_some_iff.mp hrow
  cases hdone : completionOf first.key (Adapter.d1.store.trace system.ops) with
  | none =>
    rw [hdone] at hstatus
    exact absurd rfl hstatus
  | some request =>
    obtain ⟨x, hx, hfinished⟩ := Machine.exists_of_lastWrite _ hdone
    have hcommit : x.commit = some request ∧
        (request.tenantId, request.watchId, request.runId) = first.key := by
      unfold StoreStep.finishedRun at hfinished
      split at hfinished
      · rename_i hinput hreply
        split at hfinished
        · next hkey =>
          obtain rfl := Option.some.inj (Option.some.inj hfinished)
          rw [StoreStep.commit, hinput, hreply]
          exact ⟨rfl, hkey⟩
        · cases hfinished
      · split at hfinished <;> cases hfinished
      · cases hfinished
    refine ⟨request, List.mem_filterMap.mpr ⟨x, hx, hcommit.1⟩, ?_⟩
    obtain ⟨message, -, ⟨-, hwatch, hrun, howner, -⟩, -⟩ := h.answered x hx request hcommit.1
    -- the identifier of the run tells its owner
    have hid := (h.runs _ hr).1
    rw [hdone] at hid
    have hkey := hcommit.2
    simp only [WatchRun.key, Prod.mk.injEq] at hkey
    obtain ⟨-, hsameWatch, hsameRun⟩ := hkey
    have hids : first.watchId ++ ":" ++ message.leaseOwner =
        first.watchId ++ ":" ++ first.leaseOwner := by
      rw [← hsameWatch, hwatch]
      refine Eq.trans ?_ ((hrun.symm.trans hsameRun).trans (hid.trans ?_))
      · rfl
      · rw [← hwatch, hsameWatch]
        rfl
    exact howner.trans ((String.append_right_inj _).mp hids)

/-! ### The steps -/

/-- The run of a message keeps running while the watch stays leased for the message.

**Proof sketch.** By cases on what the operation does. A lease for the message is the one that was
there, since its owner claims once; so its watch was not deleted, and no run of it completed. -/
lemma running_step (h : QueueInv system) (op : StoreOp)
    (hfresh : FreshClaims (Adapter.d1.store.trace (system.ops ++ [op])))
    {message : WatchClaimMessage} (hmessage : message ∈ system.sent)
    (hrunning : message.Running system.db) :
    message.Running (Adapter.d1.step system.db op).1 := by
  rw [Machine.trace_snoc] at hfresh
  have hbefore : FreshClaims system.trace := hfresh.of_prefix (List.prefix_append _ _)
  have hdb : system.db.WellFormed := Adapter.d1.wellFormed_run system.ops
  have hkey : ∀ w ∈ system.db.watches, w.leaseOwner = some message.leaseOwner →
      w.key = (message.tenantId, message.watchId) := fun w hw howner =>
    (h.describes hbefore hmessage hw howner).1
  have heffect := Adapter.d1.step_effect hdb op
  change FreshClaims (system.trace ++ [⟨system.db, op, (Adapter.d1.step system.db op).2,
    (Adapter.d1.step system.db op).1⟩]) at hfresh
  generalize Adapter.d1.step system.db op = result at heffect hfresh
  cases heffect with
  | unchanged hreply => exact hrunning
  | source request row => exact hrunning
  | deliveryLeased request delivery => exact hrunning
  | deliveryFinished request delivery => exact hrunning
  | stale request message hd1 hstale =>
    exact absurd hstale ((Adapter.d1.leaseInv_run system.ops hbefore).not_stale request)
  | created request hvalid hfree =>
    intro w hw howner
    rcases List.mem_append.mp hw with hw | hw
    · exact hrunning w hw howner
    · rw [List.mem_singleton.mp hw] at howner
      cases howner
  | deleted request found =>
    intro w hw howner
    obtain ⟨hw, hkept⟩ := Table.mem_delete.mp hw
    obtain ⟨r, hr, hrun⟩ := hrunning w hw howner
    refine ⟨r, Table.mem_delete.mpr ⟨hr, ?_⟩, hrun⟩
    -- the run is one of the watch, which is still there
    have hw' := hkey w hw howner
    have hr' := (WatchRun.isRunningUnder_iff.mp hrun).1
    simp only [Watch.key, WatchRun.key, Prod.mk.injEq] at hw' hr'
    rw [hr'.1, hr'.2.1, ← hw'.1, ← hw'.2]
    exact hkept
  | claimed request due hvalid hdue =>
    intro w hw howner
    rcases Table.mem_update.mp hw with ⟨hw, -⟩ | ⟨old, -, -, rfl⟩
    · exact hrunning w hw howner
    · rcases Adapter.d1.watchClaim_claimStep request hdb.watches (Db.dueWatch_eq_some hdue).1 with
        ⟨new, hnew, -, hnewOwner, -⟩ | ⟨-, hsame⟩
      · -- the owner of a new lease is new
        obtain ⟨claim, hclaim, rfl⟩ := h.sent message hmessage
        unfold FreshClaims at hfresh
        rw [watchClaims_snoc, List.map_append, List.nodup_append] at hfresh
        refine absurd (Option.some.inj howner).symm
          (hfresh.2.2 _ (List.mem_map_of_mem hclaim) _ ?_)
        simp [hnew, hnewOwner]
      · dsimp only at hw ⊢
        rw [hsame] at hw ⊢
        exact hrunning _ hw howner
  | started request hleased hidempotency hfree =>
    intro w hw howner
    obtain ⟨r, hr, hrun⟩ := hrunning w hw howner
    exact ⟨r, List.mem_append_left _ hr, hrun⟩
  | completed request hvalid hcan =>
    intro w hw howner
    rcases Table.mem_update.mp hw with ⟨hw, hne⟩ | ⟨old, -, -, rfl⟩
    · obtain ⟨r, hr, hrun⟩ := hrunning w hw howner
      refine ⟨r, Table.mem_update.mpr (.inl ⟨hr, ?_⟩), hrun⟩
      have hw' := hkey w hw howner
      have hr' := (WatchRun.isRunningUnder_iff.mp hrun).1
      have hne := of_decide_eq_false hne
      refine decide_eq_false fun hsame => hne ?_
      simp only [WatchRun.key, Prod.mk.injEq] at hr' hsame
      rw [hw', ← hr'.1, ← hr'.2.1, hsame.1, hsame.2.1]
    · cases howner

/-- An operation of the store keeps the invariant, if it starts a run under its name or completes
the run of a message. -/
lemma op (h : QueueInv system) (op : StoreOp)
    (hfresh : FreshClaims (Adapter.d1.store.trace (system.ops ++ [op])))
    (hstart : ∀ request, op = .startWatchRun request →
      request.runId = request.watchId ++ ":" ++ request.leaseOwner ∧
        request.idempotencyKey = request.leaseOwner)
    (hcomplete : ∀ request, op = .completeWatchRun request →
      ∃ message ∈ system.sent, message.Answered request) :
    QueueInv { system with ops := system.ops ++ [op] } := by
  have hafter := hfresh
  rw [Machine.trace_snoc] at hfresh
  have hbefore : FreshClaims system.trace := hfresh.of_prefix (List.prefix_append _ _)
  have hdb : system.db.WellFormed := Adapter.d1.wellFormed_run system.ops
  have htrace : QueueSystem.trace { system with ops := system.ops ++ [op] } =
      system.trace ++ [⟨system.db, op, (Adapter.d1.step system.db op).2,
        (Adapter.d1.step system.db op).1⟩] := Adapter.d1.store.trace_snoc system.ops op
  have hrun : QueueSystem.db { system with ops := system.ops ++ [op] } =
      (Adapter.d1.step system.db op).1 := Adapter.d1.store.run_snoc system.ops op
  have heffect := Adapter.d1.step_effect hdb op
  have hclaims : ∀ claim ∈ watchClaims system.trace,
      claim ∈ watchClaims (QueueSystem.trace { system with ops := system.ops ++ [op] }) := by
    intro claim hclaim
    rw [htrace, watchClaims_snoc]
    exact List.mem_append_left _ hclaim
  refine ⟨fun message hmessage => ?_, fun r hr => ?_, fun r hr => ?_,
    fun r hr hstatus request hrequest => ?_, fun x hx request hcommit => ?_, h.received,
    fun i message run hphase => ?_⟩
  · obtain ⟨claim, hclaim, hmessage⟩ := h.sent message hmessage
    exact ⟨claim, hclaims claim hclaim, hmessage⟩
  · rw [hrun] at hr
    generalize Adapter.d1.step system.db op = result at heffect hr
    cases heffect with
    | deleted request found => exact h.runs r (Table.mem_delete.mp hr).1
    | started request hleased hidempotency hfree =>
      rcases List.mem_append.mp hr with hr | hr
      · exact h.runs r hr
      · rw [List.mem_singleton.mp hr]
        exact hstart request rfl
    | completed request hvalid hcan =>
      rcases Table.mem_update.mp hr with ⟨hr, -⟩ | ⟨old, hold, -, rfl⟩
      · exact h.runs r hr
      · exact h.runs old hold
    | _ => exact h.runs r hr
  · have hold : ∀ r ∈ system.db.watchRuns, ∃ claim ∈ watchClaims
        (QueueSystem.trace { system with ops := system.ops ++ [op] }),
          claim.leaseOwner = r.leaseOwner ∧ claim.watch.key = (r.tenantId, r.watchId) := by
      intro r hr
      obtain ⟨claim, hclaim, hof⟩ := h.claimed r hr
      exact ⟨claim, hclaims claim hclaim, hof⟩
    rw [hrun] at hr
    generalize Adapter.d1.step system.db op = result at heffect hr
    cases heffect with
    | deleted request found => exact hold r (Table.mem_delete.mp hr).1
    | started request hleased hidempotency hfree =>
      rcases List.mem_append.mp hr with hr | hr
      · exact hold r hr
      · obtain rfl := List.mem_singleton.mp hr
        obtain ⟨w, hw, hleased⟩ := hleased
        obtain ⟨claim, hclaim, howner, hkey⟩ := claim_of_leased hbefore hw hleased
        exact ⟨claim, hclaims claim hclaim, howner, hkey⟩
    | completed request hvalid hcan =>
      rcases Table.mem_update.mp hr with ⟨hr, -⟩ | ⟨old, hmem, -, rfl⟩
      · exact hold r hr
      · exact hold old hmem
    | _ => exact hold r hr
  · rw [hrun] at hr
    rw [htrace, commits_snoc] at hrequest
    generalize Adapter.d1.step system.db op = result at heffect hr hrequest
    cases heffect with
    | unchanged hreply =>
      rw [commit_of_quiet hreply, Option.toList_none, List.append_nil] at hrequest
      exact h.running r hr hstatus request hrequest
    | deleted other found =>
      have hrequest : request ∈ commits system.trace := by simpa [StoreStep.commit] using hrequest
      exact h.running r (Table.mem_delete.mp hr).1 hstatus request hrequest
    | started other hleased hidempotency hfree =>
      have hrequest : request ∈ commits system.trace := by simpa [StoreStep.commit] using hrequest
      rcases List.mem_append.mp hr with hr | hr
      · exact h.running r hr hstatus request hrequest
      · obtain rfl := List.mem_singleton.mp hr
        obtain ⟨w, hw, hleased⟩ := hleased
        obtain ⟨-, howner, -⟩ := Watch.isLeasedTo_iff.mp hleased
        have hspent := (Adapter.d1.leaseInv_run system.ops hbefore).spent request hrequest w hw
        exact fun hsame => hspent (howner.trans (congrArg some hsame.symm))
    | completed other hvalid hcan =>
      obtain ⟨message, hmessage, -, hwatch, hid, howner, -⟩ := hcomplete other rfl
      obtain ⟨⟨w, hw, hleased⟩, -⟩ := hcan
      rw [StoreStep.commit, Option.toList_some] at hrequest
      rcases Table.mem_update.mp hr with ⟨hmem, hne⟩ | ⟨old, -, -, rfl⟩
      · rcases List.mem_append.mp hrequest with hrequest | hrequest
        · exact h.running r hmem hstatus request hrequest
        · -- a run of the same owner is the one that was completed
          obtain rfl := List.mem_singleton.mp hrequest
          intro hsame
          obtain ⟨claim, hclaim, hclaimOwner, hclaimKey⟩ := claim_of_leased hbefore hw hleased
          obtain ⟨claim', hclaim', hclaimOwner', hclaimKey'⟩ := h.claimed r hmem
          obtain rfl := hbefore.eq_of_owner hclaim hclaim'
            ((hclaimOwner.trans hsame).trans hclaimOwner'.symm)
          have hkey := hclaimKey'.symm.trans hclaimKey
          simp only [Prod.mk.injEq] at hkey
          refine of_decide_eq_false hne ?_
          rw [WatchRun.key, (h.runs r hmem).1, hkey.1, hkey.2, ← hsame, howner, hwatch, hid]
          rfl
      · have hstatus : other.status = .running := hstatus
        rw [CompleteWatchRun.status] at hstatus
        split at hstatus <;> cases hstatus
    | stale other message hd1 hstale =>
      exact absurd hstale ((Adapter.d1.leaseInv_run system.ops hbefore).not_stale other)
    | _ =>
      refine h.running r hr hstatus request ?_
      simpa [StoreStep.commit] using hrequest
  · rw [htrace] at hx
    rcases List.mem_append.mp hx with hx | hx
    · exact h.answered x hx request hcommit
    · obtain rfl := List.mem_singleton.mp hx
      generalize Adapter.d1.step system.db op = result at heffect hcommit
      cases heffect with
      | completed other hvalid hcan =>
        obtain rfl : other = request := Option.some.inj hcommit
        obtain ⟨message, hmessage, hanswered⟩ := hcomplete other rfl
        obtain ⟨⟨w, hw, hleased⟩, -⟩ := hcan
        obtain ⟨-, howner, -⟩ := Watch.isLeasedTo_iff.mp hleased
        rw [hanswered.2.2.2.1] at howner
        exact ⟨message, hmessage, hanswered, w, hw, h.describes hbefore hmessage hw howner⟩
      | unchanged hreply =>
        rw [commit_of_quiet hreply] at hcommit
        cases hcommit
      | _ => cases hcommit
  · obtain ⟨hmessage, hid, hrunning⟩ := h.searching i message run hphase
    rw [hrun]
    exact ⟨hmessage, hid, h.running_step op hafter hmessage hrunning⟩

/-- The same with an outage on the way. -/
lemma outage (h : QueueInv system) (outage : Option Outage) (op : StoreOp)
    (hfresh : FreshClaims (Adapter.d1.store.trace (carriedOut system.ops outage op)))
    (hstart : ∀ request, op = .startWatchRun request →
      request.runId = request.watchId ++ ":" ++ request.leaseOwner ∧
        request.idempotencyKey = request.leaseOwner)
    (hcomplete : ∀ request, op = .completeWatchRun request →
      ∃ message ∈ system.sent, message.Answered request) :
    QueueInv { system with ops := carriedOut system.ops outage op } := by
  cases outage with
  | none => exact h.op op hfresh hstart hcomplete
  | some outage =>
    rw [carriedOut] at hfresh ⊢
    split at hfresh
    · next hdone =>
      rw [if_pos hdone]
      exact h.op op hfresh hstart hcomplete
    · next hnot =>
      rw [if_neg hnot]
      exact h

/-- A worker moves on. -/
lemma moved [DecidableEq ι] (h : QueueInv system) (i : ι) {phase : QueuePhase}
    (hreceived : ∀ message, phase = .received message → message ∈ system.sent)
    (hsearching : ∀ message run, phase = .searching message run → message ∈ system.sent ∧
      run.runId = CloudWatch.runId message ∧ message.Running system.db) :
    QueueInv (system.update system.ops i phase) where
  sent := h.sent
  runs := h.runs
  claimed := h.claimed
  running := h.running
  answered := h.answered
  received j message hj := by
    rw [QueueSystem.update] at hj
    dsimp only at hj
    by_cases hsame : j = i
    · subst hsame
      rw [Function.update_self] at hj
      exact hreceived message hj
    · rw [Function.update_of_ne hsame] at hj
      exact h.received j message hj
  searching j message run hj := by
    rw [QueueSystem.update] at hj
    dsimp only at hj
    by_cases hsame : j = i
    · subst hsame
      rw [Function.update_self] at hj
      exact hsearching message run hj
    · rw [Function.update_of_ne hsame] at hj
      exact h.searching j message run hj

/-- A worker has done with its message. -/
lemma rests [DecidableEq ι] (h : QueueInv system) (i : ι) :
    QueueInv (system.update system.ops i .idle) :=
  h.moved i (fun _ hphase => by cases hphase) fun _ _ hphase => by cases hphase

/-- A message about a claim is put on the queue. -/
lemma sends (h : QueueInv system) {claimed : ClaimedWatch}
    (hclaimed : claimed ∈ watchClaims system.trace) :
    QueueInv { system with sent := system.sent ++ [.ofClaimed claimed] } where
  sent message hmessage := by
    rcases List.mem_append.mp hmessage with hmessage | hmessage
    · exact h.sent message hmessage
    · exact ⟨claimed, hclaimed, List.mem_singleton.mp hmessage⟩
  runs := h.runs
  claimed := h.claimed
  running := h.running
  answered x hx request hcommit := by
    obtain ⟨message, hmessage, hrest⟩ := h.answered x hx request hcommit
    exact ⟨message, List.mem_append_left _ hmessage, hrest⟩
  received i message hphase := List.mem_append_left _ (h.received i message hphase)
  searching i message run hphase := by
    obtain ⟨hmessage, hrest⟩ := h.searching i message run hphase
    exact ⟨List.mem_append_left _ hmessage, hrest⟩

/-- The run that the store hands out for a message is named after it, and is there. -/
lemma startedRun {message : WatchClaimMessage} {now : ℤ} {run : WatchRun}
    (hops : QueueInv { system with
      ops := system.ops ++ [.startWatchRun (CloudWatch.startRequest message now)] })
    (hrun : (Adapter.d1.startWatchRun system.db (CloudWatch.startRequest message now)).2 =
      .ok run) :
    run ∈ (Adapter.d1.startWatchRun system.db (CloudWatch.startRequest message now)).1.watchRuns ∧
      run.key = (message.tenantId, message.watchId, CloudWatch.runId message) ∧
      run.leaseOwner = message.leaseOwner := by
  have hmem : run ∈ (Adapter.d1.startWatchRun system.db
        (CloudWatch.startRequest message now)).1.watchRuns ∧
      run.idempotency = (message.tenantId, message.watchId, message.leaseOwner) := by
    rcases Adapter.d1.startWatchRun_cases system.db (CloudWatch.startRequest message now) with
      ⟨e, hcase⟩ | ⟨found, hfound, hload, hcase⟩ | ⟨-, -, -, hcase⟩
    · rw [hcase] at hrun
      cases hrun
    · rw [hcase] at hrun ⊢
      obtain rfl : found = run := Except.ok.inj hrun
      exact ⟨hfound, of_decide_eq_true
        (List.find?_some (p := fun r : WatchRun => r.idempotency = _) hload)⟩
    · rw [hcase] at hrun ⊢
      obtain rfl : _ = run := Except.ok.inj hrun
      exact ⟨by simp, rfl⟩
  obtain ⟨hmem, hkey⟩ := hmem
  have hdb : QueueSystem.db { system with
      ops := system.ops ++ [.startWatchRun (CloudWatch.startRequest message now)] } =
        (Adapter.d1.startWatchRun system.db (CloudWatch.startRequest message now)).1 :=
    Adapter.d1.store.run_snoc system.ops _
  obtain ⟨hid, hidempotency⟩ := hops.runs run (by rw [hdb]; exact hmem)
  simp only [WatchRun.idempotency, Prod.mk.injEq] at hkey
  obtain ⟨htenant, hwatch, howner⟩ := hkey
  have hsame : run.leaseOwner = message.leaseOwner := hidempotency.symm.trans howner
  refine ⟨hmem, ?_, hsame⟩
  rw [WatchRun.key, hid, htenant, hwatch, hsame]
  rfl

/-- **One step** of the system keeps the invariant, as long as claims are fresh.

**Proof sketch.** By cases on the step: each asks the store for one operation at most, and moves one
worker on. -/
theorem step [DecidableEq ι] [DefaultHasher] (h : QueueInv system) (next : QueueStep ι)
    (hfresh : FreshClaims (system.step next).1.trace) : QueueInv (system.step next).1 := by
  cases next with
  | other op =>
    rw [QueueSystem.step] at hfresh ⊢
    split
    · exact h
    · next hop =>
      rw [if_neg hop] at hfresh
      exact h.op op hfresh (fun request hrequest => absurd (by rw [hrequest]; rfl) hop)
        fun request hrequest => absurd (by rw [hrequest]; rfl) hop
  | claim tenantId config nonce count outage queued =>
    have hops := h.outage outage
      (.claimDueWatch (CloudWatch.claimRequest tenantId config nonce count)) hfresh
      (fun _ hrequest => by cases hrequest) fun _ hrequest => by cases hrequest
    rw [QueueSystem.step]
    dsimp only
    split
    · next claimed hclaimed =>
      split
      · refine hops.sends ?_
        cases outage with
        | some outage => cases hclaimed
        | none =>
          -- the claim is what the step reports
          have hreply : (Adapter.d1.claimDueWatch system.db
            (CloudWatch.claimRequest tenantId config nonce count)).2 = .ok (some claimed) := hclaimed
          rw [QueueSystem.trace, carriedOut, Machine.trace_snoc, watchClaims_snoc]
          refine List.mem_append_right _ ?_
          have hstep : (Adapter.d1.store.stepAt (Adapter.d1.store.run system.ops)
              (.claimDueWatch (CloudWatch.claimRequest tenantId config nonce count))).reply =
                .watchClaimed (.ok (some claimed)) := congrArg StoreReply.watchClaimed hreply
          rw [StoreStep.watchClaim, hstep]
          simp
      · exact hops
    · exact hops
  | receive i n =>
    rw [QueueSystem.step]
    split
    · next message hmessage =>
      refine h.moved i (fun other hother => ?_) fun _ _ hphase => by cases hphase
      rw [← QueuePhase.received.inj hother]
      exact List.mem_of_getElem? hmessage
    · exact h
  | start i now outage notified =>
    rw [QueueSystem.step] at hfresh ⊢
    split
    · next message hphase =>
      have hmessage := h.received i message hphase
      rw [hphase] at hfresh
      dsimp only at hfresh ⊢
      have hops : QueueInv ⟨carriedOut system.ops outage
          (.startWatchRun (CloudWatch.startRequest message now)), system.sent, system.workers⟩ := by
        refine h.outage outage _ ?_ (fun request hrequest => ?_) fun _ hrequest => by cases hrequest
        · split at hfresh
          · split at hfresh <;> exact hfresh
          · exact hfresh
        · rw [← StoreOp.startWatchRun.inj hrequest]
          exact ⟨rfl, rfl⟩
      split
      · next run hrun =>
        split
        · next hstatus =>
          refine hops.moved i (fun _ hother => by cases hother) fun other run' hother => ?_
          obtain ⟨rfl, rfl⟩ := QueuePhase.searching.inj hother
          cases outage with
          | some outage => cases hrun
          | none =>
            obtain ⟨hmem, hkey, howner⟩ := startedRun hops hrun
            have hdb : QueueSystem.db { system with
                ops := system.ops ++ [.startWatchRun (CloudWatch.startRequest message now)] } =
                  (Adapter.d1.startWatchRun system.db
                    (CloudWatch.startRequest message now)).1 :=
              Adapter.d1.store.run_snoc system.ops _
            refine ⟨hmessage, congrArg (fun key => key.2.2) hkey, fun _ _ _ => ⟨run, ?_, ?_⟩⟩
            · exact hdb ▸ hmem
            · exact WatchRun.isRunningUnder_iff.mpr ⟨hkey, howner, hstatus⟩
        · exact hops.rests i
      · exact hops.rests i
    · exact h
  | complete i outcome finishedAt webhooks outage notified =>
    rw [QueueSystem.step] at hfresh ⊢
    split
    · next message run hphase =>
      obtain ⟨hmessage, hid, -⟩ := h.searching i message run hphase
      rw [hphase] at hfresh
      refine QueueInv.rests (h.outage outage _ hfresh (fun _ hrequest => by cases hrequest)
        fun request hrequest => ⟨message, hmessage, ?_⟩) i
      rw [← StoreOp.completeWatchRun.inj hrequest]
      exact ⟨rfl, rfl, hid, rfl, rfl⟩
    · exact h

end QueueInv

/-! ## Runs -/

/-- The store has carried out more after a step. -/
lemma ops_step [DecidableEq ι] [DefaultHasher] (system : QueueSystem ι) (next : QueueStep ι) :
    system.ops <+: (system.step next).1.ops := by
  have hcarried : ∀ outage op, system.ops <+: carriedOut system.ops outage op := fun outage op => by
    cases outage with
    | none => exact List.prefix_append _ _
    | some outage =>
      rw [carriedOut]
      split
      · exact List.prefix_append _ _
      · exact List.prefix_rfl
  cases next with
  | other op =>
    rw [QueueSystem.step]
    split
    · exact List.prefix_rfl
    · exact List.prefix_append _ _
  | claim tenantId config nonce count outage queued => exact hcarried _ _
  | receive i n =>
    rw [QueueSystem.step]
    split <;> exact List.prefix_rfl
  | start i now outage notified =>
    rw [QueueSystem.step]
    split
    · dsimp only
      split
      · split <;> exact hcarried _ _
      · exact hcarried _ _
    · exact List.prefix_rfl
  | complete i outcome finishedAt webhooks outage notified =>
    rw [QueueSystem.step]
    split
    · exact hcarried _ _
    · exact List.prefix_rfl

/-- **The invariant along a run** of the system with fresh claims. -/
theorem queueInv_run [DecidableEq ι] [DefaultHasher] (steps : List (QueueStep ι))
    (hfresh : FreshClaims ((watchQueue ι).run steps).trace) :
    QueueInv ((watchQueue ι).run steps) := by
  induction steps using List.reverseRecOn with
  | nil =>
    refine ⟨fun _ h => ?_, fun _ h => ?_, fun _ h => ?_, fun _ h => ?_, fun _ h => ?_,
      fun _ _ h => ?_, fun _ _ _ h => ?_⟩
    all_goals cases h
  | append_singleton steps next ih =>
    rw [Machine.run_snoc] at hfresh ⊢
    refine (ih (hfresh.of_prefix ?_)).step next hfresh
    exact Adapter.d1.store.trace_prefix (ops_step _ next)

omit [ExternalParsers] in
/-- A message is acknowledged although it failed only if it was refused. -/
lemma refused_of_not_retried {message : WatchClaimMessage} {result notified : StoreResult Unit}
    (h : (processed message result notified).retried = false) :
    result = .ok () ∨ ∃ error, result = .error error ∧ shouldRetry error = false := by
  cases result with
  | ok _ => exact .inl rfl
  | error error => exact .inr ⟨error, rfl, h⟩

omit [ExternalParsers] in
/-- An owner completes at most once. -/
lemma LeaseInv.countP_commits_le {adapter : Adapter} {trace : List StoreStep} {db : Db}
    (h : LeaseInv adapter trace db) (owner : String) :
    (commits trace).countP (fun request => request.leaseOwner = owner) ≤ 1 := by
  have hcount : (commits trace).countP (fun request => request.leaseOwner = owner) =
      ((commits trace).map CompleteWatchRun.leaseOwner).count owner := by
    rw [List.count, List.countP_map]
    congr 1
  rw [hcount]
  exact List.nodup_iff_count_le_one.mp h.once owner

/-- A completion that succeeds is committed. -/
lemma mem_commits_of_completed {ops : List StoreOp} {request : CompleteWatchRun}
    {outcome : WatchRunOutcome}
    (h : (Adapter.d1.completeWatchRun (Adapter.d1.store.run ops) request).2 = .ok outcome) :
    request ∈ commits (Adapter.d1.store.trace (ops ++ [.completeWatchRun request])) := by
  rw [Machine.trace_snoc, commits_snoc]
  refine List.mem_append_right _ ?_
  have hreply : (Adapter.d1.store.stepAt (Adapter.d1.store.run ops)
      (.completeWatchRun request)).reply = .runCompleted (.ok outcome) :=
    congrArg StoreReply.runCompleted h
  rw [StoreStep.commit, hreply]
  simp

namespace QueueInv

variable {system : QueueSystem ι}

/-- A run that the store hands out for a message that was completed is finished. -/
lemma finished_of_committed (h : QueueInv system) (hfresh : FreshClaims system.trace)
    {message : WatchClaimMessage} {now : ℤ} {run : WatchRun}
    (hdone : ∃ request ∈ commits system.trace, request.leaseOwner = message.leaseOwner)
    (hrun : (Adapter.d1.startWatchRun system.db (CloudWatch.startRequest message now)).2 =
      .ok run) : run.status ≠ .running := by
  obtain ⟨request, hrequest, howner⟩ := hdone
  rcases Adapter.d1.startWatchRun_cases system.db (CloudWatch.startRequest message now) with
    ⟨e, hcase⟩ | ⟨found, hfound, hload, hcase⟩ | ⟨⟨w, hw, hleased⟩, -, -, hcase⟩
  · rw [hcase] at hrun
    cases hrun
  · rw [hcase] at hrun
    obtain rfl : found = run := Except.ok.inj hrun
    intro hstatus
    refine h.running found hfound hstatus request hrequest (howner.trans ?_)
    have hkey : found.idempotency = (message.tenantId, message.watchId, message.leaseOwner) :=
      of_decide_eq_true (List.find?_some (p := fun r : WatchRun => r.idempotency = _) hload)
    exact (congrArg (fun key => key.2.2) hkey).symm.trans (h.runs found hfound).2
  · -- the owner of a completion holds no lease
    have hspent := (Adapter.d1.leaseInv_run system.ops hfresh).spent request hrequest w hw
    exact absurd ((Watch.isLeasedTo_iff.mp hleased).2.1.trans (congrArg some howner.symm)) hspent

/-- The store hands out a running run for a message whose watch is leased for it. -/
lemma exists_started (h : QueueInv system) (hfresh : FreshClaims system.trace)
    {message : WatchClaimMessage} {now : ℤ}
    (hleased : ∃ w ∈ system.db.watches, w.isLeasedTo message.tenantId message.watchId
      message.leaseOwner (D1Store.int now) = true)
    (hvalid : (CloudWatch.startRequest message now).validate = .ok ()) :
    ∃ run, (Adapter.d1.startWatchRun system.db (CloudWatch.startRequest message now)).2 =
      .ok run ∧ run.status = .running := by
  set request := CloudWatch.startRequest message now with hrequest
  have hinsert : system.db.watches.any (fun w => w.isLeasedTo
      (Adapter.d1.startedRun request).tenantId (Adapter.d1.startedRun request).watchId
      (Adapter.d1.startedRun request).leaseOwner
      (Adapter.d1.startedRun request).startedAtEpochSeconds) = true := List.any_eq_true.mpr hleased
  cases hload : system.db.loadRun request.tenantId request.watchId request.idempotencyKey with
  | some run =>
    rw [Adapter.d1.startWatchRun_of_loadRun hload, hvalid]
    refine ⟨run, rfl, ?_⟩
    by_contra hstatus
    -- the owner of a finished run has completed it, and holds no lease
    have hmem : run ∈ system.db.watchRuns := List.mem_of_find?_eq_some hload
    obtain ⟨completion, hcompletion, howner⟩ := h.committed_of_finished hfresh hmem hstatus
    obtain ⟨w, hw, hleased⟩ := hleased
    have hkey : run.idempotency = (message.tenantId, message.watchId, message.leaseOwner) :=
      of_decide_eq_true (List.find?_some (p := fun r : WatchRun => r.idempotency = _) hload)
    have hsame : completion.leaseOwner = message.leaseOwner :=
      (howner.trans (h.runs run hmem).2.symm).trans (congrArg (fun key => key.2.2) hkey)
    have hspent := (Adapter.d1.leaseInv_run system.ops hfresh).spent completion hcompletion w hw
    exact hspent ((Watch.isLeasedTo_iff.mp hleased).2.1.trans (congrArg some hsame.symm))
  | none =>
    have hfree : ∀ r ∈ system.db.watchRuns,
        r.idempotency ≠ (message.tenantId, message.watchId, message.leaseOwner) :=
      fun r hr hkey => List.find?_eq_none.mp hload r hr (decide_eq_true hkey)
    have hidempotency : Table.exists? WatchRun.idempotency system.db.watchRuns
        (Adapter.d1.startedRun request) = false := by
      refine Table.exists?_eq_false.mpr fun hmem => ?_
      obtain ⟨r, hr, hkey⟩ := List.mem_map.mp hmem
      exact hfree r hr hkey
    have hkey : Table.exists? WatchRun.key system.db.watchRuns (Adapter.d1.startedRun request) =
        false := by
      refine Table.exists?_eq_false.mpr fun hmem => ?_
      obtain ⟨r, hr, hkey⟩ := List.mem_map.mp hmem
      -- a run of this name has the same owner, and thus the same key
      obtain ⟨hid, hsame⟩ := h.runs r hr
      simp only [WatchRun.key, Prod.mk.injEq] at hkey
      obtain ⟨htenant, hwatch, hrun⟩ := hkey
      rw [hid, hwatch] at hrun
      have howner : r.leaseOwner = message.leaseOwner := (String.append_right_inj _).mp hrun
      refine hfree r hr ?_
      rw [WatchRun.idempotency, htenant, hwatch, hsame, howner]
      rfl
    refine ⟨Adapter.d1.startedRun request, ?_, rfl⟩
    have hinserted : system.db.insertRun (Adapter.d1.startedRun request) = .ok
        { system.db with watchRuns := system.db.watchRuns ++ [Adapter.d1.startedRun request] } := by
      rw [Db.insertRun, if_pos hinsert, hidempotency, hkey]
      rfl
    rcases Adapter.d1.startWatchRun_cases system.db request with
      ⟨e, hcase⟩ | ⟨found, hfound, hfoundLoad, -⟩ | ⟨-, -, -, hcase⟩
    · -- nothing is refused here
      rw [Adapter.startWatchRun_eq, hvalid, checked_ok, hinserted] at hcase
      have hloaded : Db.loadRun { system.db with
          watchRuns := system.db.watchRuns ++ [Adapter.d1.startedRun request] } request.tenantId
            request.watchId request.idempotencyKey = some (Adapter.d1.startedRun request) := by
        have hnone : system.db.watchRuns.find? (fun r => r.idempotency = (request.tenantId,
          request.watchId, request.idempotencyKey)) = none := hload
        rw [Db.loadRun, List.find?_append, hnone, Option.none_or]
        simp [Adapter.startedRun, WatchRun.idempotency]
      simp only [hloaded] at hcase
      cases congrArg Prod.snd hcase
    · rw [hload] at hfoundLoad
      cases hfoundLoad
    · rw [hcase]

/-- A finished run that the store hands out for a message was there, and has the owner of the
message. -/
lemma found_of_finished (h : QueueInv system) {message : WatchClaimMessage} {now : ℤ}
    {run : WatchRun}
    (hrun : (Adapter.d1.startWatchRun system.db (CloudWatch.startRequest message now)).2 =
      .ok run) (hstatus : run.status ≠ .running) :
    run ∈ system.db.watchRuns ∧ run.leaseOwner = message.leaseOwner := by
  rcases Adapter.d1.startWatchRun_cases system.db (CloudWatch.startRequest message now) with
    ⟨e, hcase⟩ | ⟨found, hfound, hload, hcase⟩ | ⟨-, -, -, hcase⟩
  · rw [hcase] at hrun
    cases hrun
  · rw [hcase] at hrun
    obtain rfl : found = run := Except.ok.inj hrun
    have hkey : found.idempotency = (message.tenantId, message.watchId, message.leaseOwner) :=
      of_decide_eq_true (List.find?_some (p := fun r : WatchRun => r.idempotency = _) hload)
    exact ⟨hfound, (h.runs found hfound).2.symm.trans (congrArg (fun key => key.2.2) hkey)⟩
  · rw [hcase] at hrun
    obtain rfl : _ = run := Except.ok.inj hrun
    exact absurd rfl hstatus

/-- What the queue is told to be done is committed. -/
lemma committed_of_done [DecidableEq ι] [DefaultHasher] (h : QueueInv system)
    (hfresh : FreshClaims system.trace) {next : QueueStep ι} {settlement : Settlement}
    (hsettled : (system.step next).2 = some settlement) (hdone : settlement.result = .ok ()) :
    ∃ request ∈ commits (system.step next).1.trace,
      request.leaseOwner = settlement.message.leaseOwner := by
  cases next with
  | other op =>
    rw [QueueSystem.step] at hsettled
    split at hsettled <;> cases hsettled
  | claim tenantId config nonce count outage queued => cases hsettled
  | receive i n =>
    rw [QueueSystem.step] at hsettled
    split at hsettled <;> cases hsettled
  | start i now outage notified =>
    have hkept := Adapter.d1.store.trace_prefix
      (ops_step system (.start i now outage notified))
    rw [QueueSystem.step] at hsettled
    split at hsettled
    · next message hphase =>
      dsimp only at hsettled
      split at hsettled
      · next run hrun =>
        split at hsettled
        · cases hsettled
        · next hstatus =>
          obtain rfl := Option.some.inj hsettled
          cases outage with
          | some outage => cases hrun
          | none =>
            -- the store has handed out a run that was finished before
            obtain ⟨hmem, howner⟩ := h.found_of_finished hrun hstatus
            obtain ⟨request, hrequest, hsame⟩ := h.committed_of_finished hfresh hmem hstatus
            exact ⟨request, (hkept.sublist.filterMap _).subset hrequest, hsame.trans howner⟩
      · obtain rfl := Option.some.inj hsettled
        cases hdone
    · cases hsettled
  | complete i outcome finishedAt webhooks outage notified =>
    rw [QueueSystem.step] at hsettled ⊢
    split at hsettled
    · next message run hphase =>
      obtain rfl := Option.some.inj hsettled
      dsimp only [processed] at hdone
      cases outage with
      | some outage => cases hdone
      | none =>
        refine ⟨CloudWatch.completeRequest message run outcome finishedAt webhooks, ?_, rfl⟩
        cases hresult : (Adapter.d1.completeWatchRun system.db
            (CloudWatch.completeRequest message run outcome finishedAt webhooks)).2 with
        | error e =>
          rw [seen, hresult] at hdone
          cases hdone
        | ok completed => exact mem_commits_of_completed hresult
    · cases hsettled

end QueueInv

/-- What the queue is told comes from processing a message. -/
lemma exists_processed [DecidableEq ι] [DefaultHasher] {system : QueueSystem ι}
    {next : QueueStep ι} {settlement : Settlement}
    (h : (system.step next).2 = some settlement) :
    ∃ message result notified, settlement = processed message result notified := by
  cases next with
  | other op =>
    rw [QueueSystem.step] at h
    split at h <;> cases h
  | claim tenantId config nonce count outage queued => cases h
  | receive i n =>
    rw [QueueSystem.step] at h
    split at h <;> cases h
  | start i now outage notified =>
    rw [QueueSystem.step] at h
    split at h
    · dsimp only at h
      split at h
      · split at h
        · cases h
        · exact ⟨_, _, notified, (Option.some.inj h).symm⟩
      · exact ⟨_, _, notified, (Option.some.inj h).symm⟩
    · cases h
  | complete i outcome finishedAt webhooks outage notified =>
    rw [QueueSystem.step] at h
    split at h
    · exact ⟨_, _, notified, (Option.some.inj h).symm⟩
    · cases h

/-- **A message takes effect once.** In every run of the Worker with fresh claims, however its queue
delivers the messages, whatever fails on the way to D1 or back, wherever workers stop and whatever
else happens to the store:

* what is committed is the run of a message, at a moment when the watch is leased for the message
  and has the query, the sources and the cursor that the message says;
* at most one completion is committed for a message;
* a worker that receives a message whose completion is committed does not search;
* the queue is told that a message is done only if its completion is committed, and told to give it
  up only if it is done or refused;
* a worker that receives a message, or has searched for it, while the watch is leased for it, starts
  its run, and commits its completion, if D1 answers and accepts the request.

**Proof sketch.** The invariant says that the runs and the completions are those of the messages, and
that a run is running as long as its watch is leased for its message. A finished run was completed,
and its owner holds no lease. -/
theorem watch_queue_once [DecidableEq ι] [DefaultHasher] (steps : List (QueueStep ι))
    (hfresh : FreshClaims ((watchQueue ι).run steps).trace) :
    let system := (watchQueue ι).run steps
    (∀ x ∈ system.trace, ∀ request, x.commit = some request → ∃ message ∈ system.sent,
      message.Answered request ∧ ∃ w ∈ x.before.watches, message.Describes w) ∧
    (∀ message ∈ system.sent, (commits system.trace).countP
      (fun request => request.leaseOwner = message.leaseOwner) ≤ 1) ∧
    (∀ i message, system.workers i = .received message →
      (∃ request ∈ commits system.trace, request.leaseOwner = message.leaseOwner) →
        ∀ now outage notified,
          (system.step (.start i now outage notified)).1.workers i = .idle) ∧
    (∀ next settlement, (system.step next).2 = some settlement →
      (settlement.result = .ok () → ∃ request ∈ commits (system.step next).1.trace,
        request.leaseOwner = settlement.message.leaseOwner) ∧
      (settlement.retried = false → settlement.result = .ok () ∨
        ∃ error, settlement.result = .error error ∧ shouldRetry error = false)) ∧
    (∀ i message now, system.workers i = .received message →
      (∃ w ∈ system.db.watches, w.isLeasedTo message.tenantId message.watchId message.leaseOwner
        (D1Store.int now) = true) →
      (CloudWatch.startRequest message now).validate = .ok () → ∀ notified, ∃ run,
        (system.step (.start i now none notified)).1.workers i = .searching message run) ∧
    ∀ i message run outcome finishedAt webhooks, system.workers i = .searching message run →
      (∃ w ∈ system.db.watches, w.isLeasedTo message.tenantId message.watchId message.leaseOwner
        (D1Store.int finishedAt) = true) →
      let request := CloudWatch.completeRequest message run outcome finishedAt webhooks
      request.validate = .ok () → D1Store.RecordsFit request → ∀ notified, request ∈ commits
        (system.step (.complete i outcome finishedAt webhooks none notified)).1.trace := by
  intro system
  have h : QueueInv system := queueInv_run steps hfresh
  have hleases : LeaseInv .d1 system.trace system.db := Adapter.d1.leaseInv_run system.ops hfresh
  have hdb : system.db.WellFormed := Adapter.d1.wellFormed_run system.ops
  refine ⟨h.answered, fun message hmessage => ?_, fun i message hphase hdone now outage notified => ?_,
    fun next settlement hsettled => ?_, fun i message now hphase hleased hvalid notified => ?_,
    fun i message run outcome finishedAt webhooks hphase hleased => ?_⟩
  · exact hleases.countP_commits_le message.leaseOwner
  · rw [QueueSystem.step, hphase]
    dsimp only
    split
    · next run hrun =>
      cases outage with
      | some outage => cases hrun
      | none =>
        rw [if_neg (h.finished_of_committed hfresh hdone hrun)]
        exact Function.update_self ..
    · exact Function.update_self ..
  · refine ⟨h.committed_of_done hfresh hsettled, fun hretried => ?_⟩
    obtain ⟨message, result, notified, rfl⟩ := exists_processed hsettled
    exact refused_of_not_retried hretried
  · obtain ⟨run, hrun, hstatus⟩ := h.exists_started hfresh hleased hvalid
    refine ⟨run, ?_⟩
    rw [QueueSystem.step, hphase]
    simp only [seen, hrun, hstatus, ↓reduceIte]
    exact Function.update_self ..
  · intro request hvalid hfits notified
    obtain ⟨-, hid, hrunning⟩ := h.searching i message run hphase
    obtain ⟨w, hw, hlease⟩ := hleased
    obtain ⟨r, hr, hrun⟩ := hrunning w hw (Watch.isLeasedTo_iff.mp hlease).2.1
    have hcan : Adapter.d1.CanComplete system.db request := by
      refine ⟨⟨w, hw, hlease⟩, r, hr, ?_⟩
      rw [show request.runId = CloudWatch.runId message from hid]
      exact hrun
    rcases D1Store.completeWatchRun_eq request hdb.toKeysUnique (fun w hw => (hdb.intervals w hw).1)
      hvalid hfits (hleases.not_stale request) with ⟨-, hcase⟩ | ⟨hnot, -⟩
    · rw [QueueSystem.step, hphase]
      exact mem_commits_of_completed (congrArg Prod.snd hcase)
    · exact absurd hcan hnot

end

/-- A worker completes the run of a message, but D1 does not answer; so the queue delivers the
message to a second worker. -/
def redeliveredSteps : List (QueueStep Bool) :=
  [.other (.createWatch ⟨"t", "w", ⟨"q", none, none, none⟩, [], 60, .obj [], true, 0, none⟩),
    .claim "t" ⟨10, 12, 300⟩ 7 0 none true, .receive true 0, .start true 11 none (.ok ()),
    .complete true ⟨[], []⟩ 20 none (some ⟨true, "no answer"⟩) (.ok ()), .receive false 0]

/-- The claims of `redeliveredSteps` are fresh, and the second worker has received a message whose
completion is committed. -/
private lemma redelivered_received :
    letI : ExternalParsers := .ofHost "example.com"
    letI : DefaultHasher := .constant
    FreshClaims ((watchQueue Bool).run redeliveredSteps).trace ∧
      (match ((watchQueue Bool).run redeliveredSteps).workers false with
        | .received message => (commits ((watchQueue Bool).run redeliveredSteps).trace).any
          fun request => request.leaseOwner = message.leaseOwner
        | _ => false) = true := by
  unfold FreshClaims
  decide +kernel

/-- The second worker of `redeliveredSteps` does not search. -/
theorem watch_queue_once_redelivered :
    letI : ExternalParsers := .ofHost "example.com"
    letI : DefaultHasher := .constant
    (((watchQueue Bool).step ((watchQueue Bool).run redeliveredSteps)
      (.start false 30 none (.ok ()))).1.workers false) = .idle := by
  let _ : ExternalParsers := .ofHost "example.com"
  let _ : DefaultHasher := .constant
  obtain ⟨hfresh, hreceived⟩ := redelivered_received
  split at hreceived
  · rename_i message hphase
    obtain ⟨request, hrequest, howner⟩ := List.any_eq_true.mp hreceived
    obtain ⟨-, -, hidle, -⟩ := watch_queue_once redeliveredSteps hfresh
    exact hidle false message hphase ⟨request, hrequest, of_decide_eq_true howner⟩ 30 none (.ok ())
  · cases hreceived

end Comsat
