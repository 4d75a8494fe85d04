import Comsat.Lib.Persistent
import Comsat.Store.Fencing

set_option relaxedAutoImplicit false
set_option autoImplicit false

/-!
# The lives of watches and runs

What a run of a store leaves in the tables of its watches and of their runs, computed from the
operations that have succeeded, and from the claims that have leased a watch.

## Main definitions

* `WatchEvent`, `watchEvents` — what happens to a watch in a trace.
* `expectedWatch` — the row of a watch after these events: as it was created, scheduled by its last
  completion, and under its open claim.
* `expectedRun` — the row of the run under an idempotency key: as it was started, and finished.

## Main results

* `Adapter.watches_and_runs_law` — the rows of both tables are the expected ones, in both adapters.

## Design

* An event closes the claim that was open before, be it a claim itself.
* A claim of the D1 adapter that cannot read the watch it has leased is a claim of that watch.
-/

namespace Comsat

/-! ## Watches -/

/-- What happens to a watch. -/
inductive WatchEvent where
  | created (watch : Watch)
  | deleted
  | claimed (claim : ClaimedWatch)
  | completed (request : CompleteWatchRun)

/-- What happens in a step, and to which watch. -/
def StoreStep.watchEvent (x : StoreStep) : Option ((String × String) × WatchEvent) :=
  match x.input, x.reply with
  | .createWatch _, .watchCreated (.ok watch) => some (watch.key, .created watch)
  | .deleteWatch request, .watchDeleted (.ok _) =>
    some ((request.tenantId, request.watchId), .deleted)
  | .completeWatchRun request, .runCompleted (.ok _) =>
    some ((request.tenantId, request.watchId), .completed request)
  | _, _ => x.watchClaim.map fun claim => (claim.watch.key, .claimed claim)

/-- What happens to a watch in a step. -/
def StoreStep.eventOf (x : StoreStep) (key : String × String) : Option WatchEvent :=
  x.watchEvent.bind fun event => if event.1 = key then some event.2 else none

/-- What happens to a watch in a trace. -/
def watchEvents (key : String × String) (trace : List StoreStep) : List WatchEvent :=
  trace.filterMap fun x => x.eventOf key

namespace WatchEvent

/-- The watch that is there after an event. -/
def creation : WatchEvent → Option (Option Watch)
  | created watch => some (some watch)
  | deleted => some none
  | _ => none

/-- The last completion since the watch is there. -/
def completion : WatchEvent → Option (Option CompleteWatchRun)
  | created _ => some none
  | completed request => some (some request)
  | _ => none

/-- The claim that is open after an event. -/
def openClaim : WatchEvent → Option (Option ClaimedWatch)
  | claimed claim => some (some claim)
  | _ => some none

end WatchEvent

/-- The claim of a watch that is neither completed nor followed by another one. -/
def openClaim (events : List WatchEvent) : Option ClaimedWatch :=
  Machine.lastWrite WatchEvent.openClaim events

namespace Adapter

variable (adapter : Adapter)

/-- A watch as its last completion has scheduled it. -/
def scheduled (watch : Watch) : Option CompleteWatchRun → Watch
  | none => adapter.storedWatch watch
  | some request => (adapter.storedWatch watch).finish request.nextCursor
    (adapter.nextDue request.finishedAtEpochSeconds watch.intervalSeconds)

/-- A watch under its open claim. -/
def leased (watch : Watch) : Option ClaimedWatch → Watch
  | none => watch
  | some claim =>
    watch.withLease claim.leaseOwner (adapter.bind claim.leaseExpiresEpochSeconds)

/-- The row of a watch after some events. -/
def expectedWatch (events : List WatchEvent) : Option Watch :=
  (Machine.lastWrite WatchEvent.creation events).map fun watch =>
    adapter.leased (adapter.scheduled watch (Machine.lastWrite WatchEvent.completion events))
      (openClaim events)

end Adapter

/-! ## Runs -/

/-- A run as it was started. -/
def WatchRun.opened (run : WatchRun) : WatchRun :=
  { run with status := .running, finishedAtEpochSeconds := none, error := none }

/-- The run that a step has found or started under an idempotency key; deleting the watch erases
it. -/
def StoreStep.startedRun (key : String × String × String) (x : StoreStep) :
    Option (Option WatchRun) :=
  match x.input, x.reply with
  | .startWatchRun _, .runStarted (.ok run) => if run.idempotency = key then some (some run) else none
  | .deleteWatch request, .watchDeleted (.ok _) =>
    if (request.tenantId, request.watchId) = (key.1, key.2.1) then some none else none
  | _, _ => none

/-- The completion of a run in a step; deleting the watch erases it. -/
def StoreStep.finishedRun (key : String × String × String) (x : StoreStep) :
    Option (Option CompleteWatchRun) :=
  match x.input, x.reply with
  | .completeWatchRun request, .runCompleted (.ok _) =>
    if (request.tenantId, request.watchId, request.runId) = key then some (some request) else none
  | .deleteWatch request, .watchDeleted (.ok _) =>
    if (request.tenantId, request.watchId) = (key.1, key.2.1) then some none else none
  | _, _ => none

/-- The completion of a run in a trace. -/
def completionOf (key : String × String × String) (trace : List StoreStep) :
    Option CompleteWatchRun :=
  Machine.lastWrite (StoreStep.finishedRun key) trace

namespace Adapter

variable (adapter : Adapter)

/-- A run as a completion has finished it. -/
def finished (run : WatchRun) : Option CompleteWatchRun → WatchRun
  | none => run.opened
  | some request => run.opened.finish request.status
    (adapter.bind request.finishedAtEpochSeconds) request.error

/-- The row of the run under an idempotency key after a trace. -/
def expectedRun (key : String × String × String) (trace : List StoreStep) : Option WatchRun :=
  (Machine.lastWrite (StoreStep.startedRun key) trace).map fun run =>
    adapter.finished run (completionOf run.key trace)

end Adapter

/-! ## One more step -/

section Snoc

variable {trace : List StoreStep} {x : StoreStep}

/-- The events after one more step. -/
lemma watchEvents_snoc {key : String × String} :
    watchEvents key (trace ++ [x]) = watchEvents key trace ++ (x.eventOf key).toList := by
  rw [watchEvents, List.filterMap_append]
  cases h : x.eventOf key <;> simp [watchEvents, h]

/-- A step that changes nothing and reports no change is no event. -/
lemma eventOf_of_quiet {db : Db} {op : StoreOp} {reply : StoreReply} (h : ¬ reply.Reports)
    {key : String × String} : StoreStep.eventOf ⟨db, op, reply, db⟩ key = none := by
  have hevent : StoreStep.watchEvent ⟨db, op, reply, db⟩ = none := by
    unfold StoreStep.watchEvent
    rw [watchClaim_of_quiet h]
    split
    all_goals first
      | rfl
      | rename_i hreply
        obtain rfl : reply = _ := hreply
        exact absurd trivial h
  rw [StoreStep.eventOf, hevent, Option.bind_none]

/-- A step that reports no change completes no run. -/
lemma finishedRun_of_quiet {before after : Db} {op : StoreOp} {reply : StoreReply}
    (h : ¬ reply.Reports) {key : String × String × String} :
    StoreStep.finishedRun key ⟨before, op, reply, after⟩ = none := by
  unfold StoreStep.finishedRun
  split
  all_goals first
    | rfl
    | rename_i hreply
      obtain rfl : reply = _ := hreply
      exact absurd trivial h

/-- The open claim of a watch is a claim of the trace. -/
lemma mem_of_openClaim {key : String × String} {claim : ClaimedWatch}
    (h : openClaim (watchEvents key trace) = some claim) : claim ∈ watchClaims trace := by
  obtain ⟨event, hevent, hclaimed⟩ := Machine.exists_of_lastWrite _ h
  obtain ⟨x, hx, hxevent⟩ := List.mem_filterMap.mp hevent
  refine List.mem_filterMap.mpr ⟨x, hx, ?_⟩
  cases event with
  | claimed other =>
    obtain rfl : other = claim := Option.some.inj (Option.some.inj hclaimed)
    obtain ⟨⟨_, _⟩, hfound, hsame⟩ := Option.bind_eq_some_iff.mp hxevent
    obtain rfl : _ = WatchEvent.claimed other := by
      dsimp only at hsame
      split at hsame
      · exact Option.some.inj hsame
      · cases hsame
    unfold StoreStep.watchEvent at hfound
    split at hfound
    · cases hfound
    · cases hfound
    · cases hfound
    · obtain ⟨found, hclaim, hevent⟩ := Option.map_eq_some_iff.mp hfound
      obtain rfl := WatchEvent.claimed.inj (congrArg Prod.snd hevent)
      exact hclaim
  | _ => cases hclaimed

/-- What was started under a key has the key. -/
lemma idempotency_of_startedRun {key : String × String × String} {run : WatchRun}
    (h : Machine.lastWrite (StoreStep.startedRun key) trace = some run) :
    run.idempotency = key := by
  obtain ⟨x, -, hx⟩ := Machine.exists_of_lastWrite _ h
  unfold StoreStep.startedRun at hx
  split at hx
  · split at hx
    · next hkey => exact Option.some.inj (Option.some.inj hx) ▸ hkey
    · cases hx
  · split at hx <;> cases hx
  · cases hx

end Snoc

namespace Adapter

variable {adapter : Adapter} {events : List WatchEvent}

/-- A watch that is created. -/
@[simp] lemma expectedWatch_created (watch : Watch) :
    adapter.expectedWatch (events ++ [.created watch]) = some (adapter.storedWatch watch) := by
  simp [expectedWatch, openClaim, WatchEvent.creation, WatchEvent.completion, WatchEvent.openClaim,
    scheduled, leased]

/-- A watch that is deleted. -/
@[simp] lemma expectedWatch_deleted : adapter.expectedWatch (events ++ [.deleted]) = none := by
  simp [expectedWatch, WatchEvent.creation]

/-- A watch that is claimed. -/
@[simp] lemma expectedWatch_claimed (claim : ClaimedWatch) :
    adapter.expectedWatch (events ++ [.claimed claim]) =
      (adapter.expectedWatch events).map fun watch => adapter.leased watch claim := by
  simp only [expectedWatch, openClaim, Machine.lastWrite_snoc, WatchEvent.creation,
    WatchEvent.completion, WatchEvent.openClaim, Option.getD_none, Option.getD_some,
    Option.map_map]
  refine congrArg (fun f => Option.map f _) (funext fun watch => ?_)
  cases Machine.lastWrite WatchEvent.openClaim events <;> rfl

/-- A watch whose run is completed. -/
@[simp] lemma expectedWatch_completed (request : CompleteWatchRun) :
    adapter.expectedWatch (events ++ [.completed request]) =
      (adapter.expectedWatch events).map fun watch => watch.finish request.nextCursor
        (adapter.nextDue request.finishedAtEpochSeconds watch.intervalSeconds) := by
  simp only [expectedWatch, openClaim, Machine.lastWrite_snoc, WatchEvent.creation,
    WatchEvent.completion, WatchEvent.openClaim, Option.getD_none, Option.getD_some,
    Option.map_map]
  refine congrArg (fun f => Option.map f _) (funext fun watch => ?_)
  cases Machine.lastWrite WatchEvent.openClaim events <;>
    cases Machine.lastWrite WatchEvent.completion events <;> rfl

/-! ## Watches along a run -/

/-- The rows of the watches are the expected ones. -/
structure WatchLives (adapter : Adapter) (trace : List StoreStep) (db : Db) : Prop where
  /-- A row is the expected one. -/
  rows : ∀ key, db.watches.find? (fun w => w.key = key) =
    adapter.expectedWatch (watchEvents key trace)
  /-- A watch under an open claim is what the claim has returned. -/
  claims : ∀ key claim, openClaim (watchEvents key trace) = some claim →
    adapter.expectedWatch (watchEvents key trace) = some (adapter.leased claim.watch claim)
  /-- A watch without an open claim is not leased. -/
  free : ∀ key, openClaim (watchEvents key trace) = none →
    ∀ watch ∈ adapter.expectedWatch (watchEvents key trace), watch.leaseOwner = none

namespace WatchLives

variable {trace : List StoreStep} {db : Db}

/-- The rows of the empty tables. -/
lemma init : WatchLives adapter [] Db.empty where
  rows _ := rfl
  claims key claim h := by cases h
  free key _ watch h := by cases h

/-- A step that leaves the watches alone. -/
lemma of_none (h : WatchLives adapter trace db) {x : StoreStep} {db' : Db}
    (hx : ∀ key, x.eventOf key = none) (hwatches : db'.watches = db.watches) :
    WatchLives adapter (trace ++ [x]) db' := by
  have hevents : ∀ key, watchEvents key (trace ++ [x]) = watchEvents key trace := fun key => by
    rw [watchEvents_snoc, hx, Option.toList_none, List.append_nil]
  refine ⟨fun key => ?_, fun key claim => ?_, fun key => ?_⟩
  · rw [hevents, hwatches]
    exact h.rows key
  · rw [hevents]
    exact h.claims key claim
  · rw [hevents]
    exact h.free key

/-- An event of one watch: its row is the expected one after the event, and the other rows are as
before. -/
lemma of_event (h : WatchLives adapter trace db) {x : StoreStep} {db' : Db}
    {key : String × String} {event : WatchEvent} (hx : x.watchEvent = some (key, event))
    (hrow : db'.watches.find? (fun w => w.key = key) =
      adapter.expectedWatch (watchEvents key trace ++ [event]))
    (hothers : ∀ other, key ≠ other → db'.watches.find? (fun w => w.key = other) =
      db.watches.find? fun w => w.key = other)
    (hclaims : ∀ claim, event = .claimed claim →
      adapter.expectedWatch (watchEvents key trace ++ [event]) =
        some (adapter.leased claim.watch claim))
    (hfree : (∀ claim, event ≠ .claimed claim) →
      ∀ watch ∈ adapter.expectedWatch (watchEvents key trace ++ [event]), watch.leaseOwner = none) :
    WatchLives adapter (trace ++ [x]) db' := by
  have hsame : watchEvents key (trace ++ [x]) = watchEvents key trace ++ [event] := by
    rw [watchEvents_snoc, StoreStep.eventOf, hx]
    simp
  have hother : ∀ other, key ≠ other → watchEvents other (trace ++ [x]) = watchEvents other trace :=
    fun other hne => by
      rw [watchEvents_snoc, StoreStep.eventOf, hx]
      simp [hne]
  refine ⟨fun other => ?_, fun other claim hclaim => ?_, fun other hopen => ?_⟩
  · by_cases hkey : key = other
    · subst hkey
      rw [hsame, hrow]
    · rw [hother other hkey, hothers other hkey]
      exact h.rows other
  · by_cases hkey : key = other
    · subst hkey
      rw [hsame] at hclaim ⊢
      refine hclaims claim ?_
      cases event with
      | claimed c =>
        simp only [openClaim, Machine.lastWrite_snoc, WatchEvent.openClaim, Option.getD_some,
          Option.some.injEq] at hclaim
        rw [hclaim]
      | _ => simp [openClaim, WatchEvent.openClaim] at hclaim
    · rw [hother other hkey] at hclaim ⊢
      exact h.claims other claim hclaim
  · by_cases hkey : key = other
    · subst hkey
      rw [hsame] at hopen ⊢
      refine hfree fun claim hclaim => ?_
      simp [hclaim, openClaim, WatchEvent.openClaim] at hopen
    · rw [hother other hkey] at hopen ⊢
      exact h.free other hopen

/-- Looking for a watch after the one under a key is updated. -/
lemma find?_update_watch (key : String × String) (watches : List Watch) {f : Watch → Watch}
    (hf : ∀ w, (f w).key = w.key) (other : String × String) :
    (Table.update (fun w => w.key = key) f watches).find? (fun w => w.key = other) =
      if key = other then (watches.find? fun w => w.key = other).map f
      else watches.find? fun w => w.key = other := by
  refine Table.find?_update (fun w => by rw [hf]) fun w _ hw => ?_
  rw [of_decide_eq_true hw, decide_eq_true_eq]
  exact eq_comm

/-- **One step** keeps the rows of the watches the expected ones.

**Proof sketch.** By cases on what the step does: the operations on watches are their events, and a
stale completion does not occur. -/
theorem step [ExternalParsers] (h : WatchLives adapter trace db) (hdb : db.WellFormed)
    (hstale : adapter = .d1 → ∀ request, ¬ D1Store.IsStaleFinish db request) {op : StoreOp}
    {result : Db × StoreReply} (heffect : adapter.Effect db op result) :
    WatchLives adapter (trace ++ [⟨db, op, result.2, result.1⟩]) result.1 := by
  cases heffect with
  | unchanged hreply => exact h.of_none (fun key => eventOf_of_quiet hreply) rfl
  | source request row => exact h.of_none (fun _ => rfl) rfl
  | started request hleased => exact h.of_none (fun _ => rfl) rfl
  | deliveryLeased request delivery => exact h.of_none (fun _ => rfl) rfl
  | deliveryFinished request delivery => exact h.of_none (fun _ => rfl) rfl
  | stale request message hd1 hrequest => exact absurd hrequest (hstale hd1 request)
  | created request hvalid hfree =>
    refine h.of_event rfl ?_ (fun other hne => ?_) (fun claim hclaim => by cases hclaim) ?_
    · rw [expectedWatch_created, List.find?_append]
      have hnone : db.watches.find? (fun w => w.key = request.intoWatch.key) = none :=
        List.find?_eq_none.mpr fun w hw hkey =>
          hfree (of_decide_eq_true hkey ▸ List.mem_map_of_mem hw)
      rw [hnone, Option.none_or]
      simp
    · rw [List.find?_append]
      simp [hne]
    · rintro - watch hwatch
      rw [expectedWatch_created] at hwatch
      rw [← Option.some.inj hwatch]
      rfl
  | deleted request found =>
    refine h.of_event rfl ?_ (fun other hne => ?_) (fun claim hclaim => by cases hclaim) ?_
    · rw [expectedWatch_deleted]
      refine (Table.find?_delete (d := True) fun w hw => ?_).trans (if_pos trivial)
      have hkey := of_decide_eq_true hw
      simp only [Watch.key, Prod.mk.injEq] at hkey
      simp [hkey.1, hkey.2]
    · refine (Table.find?_delete (d := False) fun w hw => ?_).trans (if_neg id)
      have hkey : w.key = other := of_decide_eq_true hw
      rw [← hkey] at hne
      simp only [Watch.key, ne_eq, Prod.mk.injEq, not_and] at hne
      simp only [Bool.and_eq_true, decide_eq_true_eq, iff_false, not_and]
      exact fun htenant hwatch => hne htenant.symm hwatch.symm
    · rintro - watch hwatch
      rw [expectedWatch_deleted] at hwatch
      cases hwatch
  | claimed request due hvalid hdue =>
    have hmem : due ∈ db.watches := (Db.dueWatch_eq_some hdue).1
    rcases adapter.watchClaim_claimStep request hdb.watches hmem with
      ⟨claim, hclaim, hkey, howner, hexpires, hlease⟩ | ⟨hclaim, hsame⟩
    case inr =>
      refine h.of_none (fun key => ?_) (by rw [hsame])
      have hevent : (adapter.claimStep db due request).watchEvent = none := by
        rw [StoreStep.watchEvent, hclaim]
        rfl
      rw [StoreStep.eventOf, hevent, Option.bind_none]
    have hfind : adapter.expectedWatch (watchEvents due.key trace) = some due :=
      (h.rows due.key).symm.trans (Table.find?_key_eq hdb.watches hmem)
    have hleased : ∀ watch, adapter.leased watch (some claim) =
        watch.withLease request.leaseOwner (adapter.bind request.leaseExpires) := fun watch => by
      rw [← howner, ← hexpires]
      rfl
    have hevent : adapter.expectedWatch (watchEvents due.key trace ++ [.claimed claim]) =
        some (due.withLease request.leaseOwner (adapter.bind request.leaseExpires)) := by
      rw [expectedWatch_claimed, hfind, Option.map_some, hleased]
    have hupdate := find?_update_watch due.key db.watches
      (f := fun w => w.withLease request.leaseOwner (adapter.bind request.leaseExpires))
      fun _ => rfl
    have hx : (adapter.claimStep db due request).watchEvent = some (due.key, .claimed claim) := by
      rw [StoreStep.watchEvent, hclaim, ← hkey]
      rfl
    refine h.of_event hx ?_ (fun other hne => ?_) (fun other hother => ?_)
      fun hnot => absurd rfl (hnot _)
    · refine (hupdate due.key).trans ?_
      rw [if_pos rfl, hevent, h.rows, hfind, Option.map_some]
    · exact (hupdate other).trans (if_neg hne)
    · obtain rfl := WatchEvent.claimed.inj hother
      rw [hevent, hleased, hlease]
  | completed request hvalid hcan =>
    have hupdate := find?_update_watch (request.tenantId, request.watchId) db.watches
      (f := fun w => w.finish request.nextCursor
        (adapter.nextDue request.finishedAtEpochSeconds w.intervalSeconds)) fun _ => rfl
    refine h.of_event rfl ?_ (fun other hne => ?_) (fun claim hclaim => by cases hclaim) ?_
    · refine (hupdate _).trans ?_
      rw [if_pos rfl, expectedWatch_completed, h.rows]
    · exact (hupdate other).trans (if_neg hne)
    · rintro - watch hwatch
      rw [expectedWatch_completed] at hwatch
      obtain ⟨before, -, rfl⟩ := Option.map_eq_some_iff.mp hwatch
      rfl

/-- A watch under a lease is what its open claim has returned. -/
lemma exists_claim (h : WatchLives adapter trace db) (hdb : db.WellFormed) {w : Watch}
    (hw : w ∈ db.watches) {owner : String} (howner : w.leaseOwner = some owner) :
    ∃ claim ∈ watchClaims trace, claim.leaseOwner = owner ∧
      w = adapter.leased claim.watch claim := by
  have hrow := (h.rows w.key).symm.trans (Table.find?_key_eq hdb.watches hw)
  cases hopen : openClaim (watchEvents w.key trace) with
  | none =>
    have hnone := h.free w.key hopen w hrow
    rw [howner] at hnone
    cases hnone
  | some claim =>
    obtain rfl : adapter.leased claim.watch claim = w :=
      Option.some.inj ((h.claims w.key claim hopen).symm.trans hrow)
    exact ⟨claim, mem_of_openClaim hopen, Option.some.inj howner, rfl⟩

end WatchLives

/-! ## Runs along a run -/

/-- The rows of the runs are the expected ones. -/
structure RunLives (adapter : Adapter) (trace : List StoreStep) (db : Db) : Prop where
  /-- A row is the expected one. -/
  rows : ∀ key, db.watchRuns.find? (fun r => r.idempotency = key) = adapter.expectedRun key trace
  /-- A completed run is there. -/
  completed : ∀ key, (completionOf key trace).isSome = true → key ∈ db.watchRuns.map WatchRun.key

namespace RunLives

variable {trace : List StoreStep} {db : Db}

/-- The rows of the empty tables. -/
lemma init : RunLives adapter [] Db.empty where
  rows _ := rfl
  completed key h := by cases h

/-- A step that leaves the runs alone. -/
lemma of_none (h : RunLives adapter trace db) {x : StoreStep} {db' : Db}
    (hstarted : ∀ key, x.startedRun key = none) (hfinished : ∀ key, x.finishedRun key = none)
    (hruns : db'.watchRuns = db.watchRuns) : RunLives adapter (trace ++ [x]) db' := by
  have hcompletion : ∀ key, completionOf key (trace ++ [x]) = completionOf key trace := fun key =>
    Machine.lastWrite_of_none _ (hfinished key)
  refine ⟨fun key => ?_, fun key => ?_⟩
  · rw [hruns, h.rows, expectedRun, expectedRun, Machine.lastWrite_of_none _ (hstarted key)]
    exact congrArg (fun f => Option.map f _) (funext fun run => by rw [hcompletion])
  · rw [hcompletion, hruns]
    exact h.completed key

/-- A start of a run: it finds the run of an earlier start, or inserts a new one. -/
lemma started (h : RunLives adapter trace db) {request : StartWatchRun} {run : WatchRun} {db' : Db}
    (hrun : (db.watchRuns.find? (fun r => r.idempotency = run.idempotency) = some run ∧
        db' = db) ∨
      (run.opened = run ∧ run.idempotency ∉ db.watchRuns.map WatchRun.idempotency ∧
        run.key ∉ db.watchRuns.map WatchRun.key ∧
        db' = { db with watchRuns := db.watchRuns ++ [run] })) :
    RunLives adapter (trace ++ [⟨db, .startWatchRun request, .runStarted (.ok run), db'⟩]) db' := by
  set x : StoreStep := ⟨db, .startWatchRun request, .runStarted (.ok run), db'⟩ with hx
  have hcompletion : ∀ key, completionOf key (trace ++ [x]) = completionOf key trace := fun key =>
    Machine.lastWrite_of_none _ rfl
  have hself : Machine.lastWrite (StoreStep.startedRun run.idempotency) (trace ++ [x]) =
      some run := by
    rw [Machine.lastWrite_snoc, hx, StoreStep.startedRun]
    simp
  have hother : ∀ key, run.idempotency ≠ key →
      Machine.lastWrite (StoreStep.startedRun key) (trace ++ [x]) =
        Machine.lastWrite (StoreStep.startedRun key) trace := fun key hne => by
    refine Machine.lastWrite_of_none _ ?_
    rw [hx, StoreStep.startedRun]
    simp [hne]
  rcases hrun with ⟨hfound, rfl⟩ | ⟨hopened, hidempotency, hfree, rfl⟩
  · refine ⟨fun key => ?_, fun key => ?_⟩
    · by_cases hsame : run.idempotency = key
      · subst hsame
        rw [hfound, expectedRun, hself, Option.map_some, hcompletion]
        -- the run that was found is the expected one, so it is finished as that is
        have hexpected := (h.rows _).symm.trans hfound
        rw [expectedRun] at hexpected
        obtain ⟨first, -, hfirst⟩ := Option.map_eq_some_iff.mp hexpected
        have hsameKey : run.key = first.key := by
          rw [← hfirst]
          cases completionOf first.key trace <;> rfl
        rw [hsameKey, ← hfirst]
        cases completionOf first.key trace <;> rfl
      · rw [h.rows, expectedRun, expectedRun, hother key hsame]
        exact congrArg (fun f => Option.map f _) (funext fun run => by rw [hcompletion])
    · rw [hcompletion]
      exact h.completed key
  · refine ⟨fun key => ?_, fun key hdone => ?_⟩
    · rw [List.find?_append]
      by_cases hsame : run.idempotency = key
      · subst hsame
        have hnone : db.watchRuns.find? (fun r => r.idempotency = run.idempotency) = none :=
          List.find?_eq_none.mpr fun r hr hfound =>
            hidempotency (of_decide_eq_true hfound ▸ List.mem_map_of_mem hr)
        have hopen : completionOf run.key trace = none := by
          by_contra hsome
          exact hfree (h.completed run.key (Option.isSome_iff_ne_none.mpr hsome))
        rw [hnone, Option.none_or, expectedRun, hself, Option.map_some, hcompletion, hopen]
        simp [finished, hopened]
      · rw [h.rows, expectedRun, expectedRun, hother key hsame]
        have hlast : [run].find? (fun r => r.idempotency = key) = none := by simp [hsame]
        rw [hlast, Option.or_none]
        exact congrArg (fun f => Option.map f _) (funext fun run => by rw [hcompletion])
    · rw [hcompletion] at hdone
      rw [List.map_append]
      exact List.mem_append_left _ (h.completed key hdone)

/-- Deleting a watch deletes its runs. -/
lemma deleted (h : RunLives adapter trace db) (request : DeleteWatch) (found : Bool) :
    RunLives adapter (trace ++ [⟨db, .deleteWatch request, .watchDeleted (.ok found),
      db.deleteWatch request.tenantId request.watchId⟩])
      (db.deleteWatch request.tenantId request.watchId) := by
  set x : StoreStep := ⟨db, .deleteWatch request, .watchDeleted (.ok found),
    db.deleteWatch request.tenantId request.watchId⟩
  have hcompletion : ∀ key, completionOf key (trace ++ [x]) =
      if (request.tenantId, request.watchId) = (key.1, key.2.1) then none
      else completionOf key trace := fun key => by
    rw [completionOf, Machine.lastWrite_snoc]
    change (if (request.tenantId, request.watchId) = (key.1, key.2.1) then some none
      else none).getD _ = _
    split <;> rfl
  have hstarted : ∀ key, Machine.lastWrite (StoreStep.startedRun key) (trace ++ [x]) =
      if (request.tenantId, request.watchId) = (key.1, key.2.1) then none
      else Machine.lastWrite (StoreStep.startedRun key) trace := fun key => by
    rw [Machine.lastWrite_snoc]
    change (if (request.tenantId, request.watchId) = (key.1, key.2.1) then some none
      else none).getD _ = _
    split <;> rfl
  refine ⟨fun key => ?_, fun key hdone => ?_⟩
  · have hfind : (db.deleteWatch request.tenantId request.watchId).watchRuns.find?
        (fun r => r.idempotency = key) =
          if (request.tenantId, request.watchId) = (key.1, key.2.1) then none
          else db.watchRuns.find? fun r => r.idempotency = key := by
      refine Table.find?_delete fun r hr => ?_
      rw [← of_decide_eq_true hr]
      simp only [WatchRun.idempotency, Prod.mk.injEq, Bool.and_eq_true, decide_eq_true_eq]
      exact and_congr eq_comm eq_comm
    rw [hfind, expectedRun, hstarted]
    split
    · rfl
    · next hkept =>
      rw [h.rows, expectedRun]
      refine Option.map_congr fun run hrun => ?_
      have hkey := idempotency_of_startedRun hrun
      rw [hcompletion, if_neg]
      rw [← hkey] at hkept
      exact hkept
  · rw [hcompletion] at hdone
    split at hdone
    · cases hdone
    · next hkept =>
      obtain ⟨r, hr, rfl⟩ := List.mem_map.mp (h.completed key hdone)
      refine List.mem_map_of_mem (Table.mem_delete.mpr ⟨hr, ?_⟩)
      simp only [WatchRun.key, Prod.mk.injEq, not_and] at hkept
      simp only [Bool.and_eq_false_iff, decide_eq_false_iff_not]
      by_cases htenant : r.tenantId = request.tenantId
      · exact .inr fun hwatch => hkept htenant.symm hwatch.symm
      · exact .inl htenant

/-- Completing a run finishes it. -/
lemma committed [ExternalParsers] (h : RunLives adapter trace db) (hdb : db.WellFormed)
    {request : CompleteWatchRun} (hcan : adapter.CanComplete db request) (outcome : WatchRunOutcome) :
    RunLives adapter (trace ++ [⟨db, .completeWatchRun request, .runCompleted (.ok outcome),
      adapter.committed db request⟩]) (adapter.committed db request) := by
  set x : StoreStep := ⟨db, .completeWatchRun request, .runCompleted (.ok outcome),
    adapter.committed db request⟩
  obtain ⟨-, open_, hopen, hrunning⟩ := hcan
  have hopenKey := (WatchRun.isRunningUnder_iff.mp hrunning).1
  have hcompletion : ∀ key, completionOf key (trace ++ [x]) =
      if (request.tenantId, request.watchId, request.runId) = key then some request
      else completionOf key trace := fun key => by
    rw [completionOf, Machine.lastWrite_snoc]
    change (if (request.tenantId, request.watchId, request.runId) = key then some (some request)
      else none).getD _ = _
    split <;> rfl
  have hfinish : ∀ run : WatchRun, adapter.finished run (some request) =
      (adapter.finished run (completionOf run.key trace)).finish request.status
        (adapter.bind request.finishedAtEpochSeconds) request.error := fun run => by
    cases completionOf run.key trace <;> rfl
  refine ⟨fun key => ?_, fun key hdone => ?_⟩
  · rw [expectedRun, Machine.lastWrite_of_none _ (by rfl)]
    have hrow := h.rows key
    rw [expectedRun] at hrow
    cases hstarted : Machine.lastWrite (StoreStep.startedRun key) trace with
    | none =>
      rw [hstarted, Option.map_none] at hrow
      have hnone : ∀ r ∈ db.watchRuns, ¬ decide (r.idempotency = key) = true :=
        List.find?_eq_none.mp hrow
      rw [Option.map_none, List.find?_eq_none]
      intro r hr hkey
      rcases Table.mem_update.mp hr with ⟨hr, -⟩ | ⟨old, hold, -, rfl⟩
      · exact hnone r hr hkey
      · exact hnone old hold hkey
    | some run =>
      rw [hstarted, Option.map_some] at hrow
      have hrunKey : (adapter.finished run (completionOf run.key trace)).key = run.key := by
        cases completionOf run.key trace <;> rfl
      have hupdate : (adapter.watchRunsAfter request db.watchRuns).find?
          (fun r => r.idempotency = key) =
            if (request.tenantId, request.watchId, request.runId) = run.key then
              (db.watchRuns.find? fun r => r.idempotency = key).map fun r =>
                r.finish request.status (adapter.bind request.finishedAtEpochSeconds) request.error
            else db.watchRuns.find? fun r => r.idempotency = key := by
        refine Table.find?_update (f := fun r : WatchRun => r.finish request.status
          (adapter.bind request.finishedAtEpochSeconds) request.error) (fun r => rfl)
          fun r hr hkey => ?_
        -- there is one row under an idempotency key
        have hsame : r = adapter.finished run (completionOf run.key trace) := by
          have hfind := Table.find?_key_eq hdb.idempotency hr
          rw [of_decide_eq_true hkey, hrow] at hfind
          exact (Option.some.inj hfind).symm
        rw [hsame, hrunKey, decide_eq_true_eq]
        exact eq_comm
      refine hupdate.trans ?_
      rw [hrow, Option.map_some, Option.map_some, hcompletion]
      split
      · exact congrArg some (hfinish run).symm
      · rfl
  · have hkeys : (adapter.committed db request).watchRuns.map WatchRun.key =
        db.watchRuns.map WatchRun.key := Table.map_update fun _ _ _ => rfl
    rw [hkeys]
    rw [hcompletion] at hdone
    split at hdone
    · next hkey => exact hkey ▸ hopenKey ▸ List.mem_map_of_mem hopen
    · exact h.completed key hdone

/-- **One step** keeps the rows of the runs the expected ones.

**Proof sketch.** By cases on what the step does. What a start returns without inserting a run is
the run that it has found. -/
theorem step [ExternalParsers] (h : RunLives adapter trace db) (hdb : db.WellFormed)
    (hstale : adapter = .d1 → ∀ request, ¬ D1Store.IsStaleFinish db request) (op : StoreOp) :
    RunLives adapter (trace ++ [adapter.store.stepAt db op]) (adapter.step db op).1 := by
  by_cases hop : ∃ request, op = .startWatchRun request
  · obtain ⟨request, rfl⟩ := hop
    have hcases := adapter.startWatchRun_cases db request
    change RunLives adapter (trace ++ [⟨db, .startWatchRun request,
      .runStarted (adapter.startWatchRun db request).2, (adapter.startWatchRun db request).1⟩])
        (adapter.startWatchRun db request).1
    rcases hcases with ⟨e, hcase⟩ | ⟨run, -, hload, hcase⟩ | ⟨-, hidempotency, hkey, hcase⟩
    · rw [hcase]
      exact h.of_none (fun _ => rfl) (fun _ => rfl) rfl
    · rw [hcase]
      have hkey : run.idempotency =
          (request.tenantId, request.watchId, request.idempotencyKey) :=
        of_decide_eq_true (List.find?_some (p := fun r : WatchRun => r.idempotency = _) hload)
      exact h.started (.inl ⟨hkey ▸ hload, rfl⟩)
    · rw [hcase]
      exact h.started (.inr ⟨rfl, hidempotency, hkey, rfl⟩)
  · have heffect := adapter.step_effect hdb op
    change RunLives adapter (trace ++ [⟨db, op, (adapter.step db op).2, (adapter.step db op).1⟩])
      (adapter.step db op).1
    generalize adapter.step db op = result at heffect
    cases heffect with
    | unchanged hreply =>
      refine h.of_none (fun key => ?_) (fun key => finishedRun_of_quiet hreply) rfl
      unfold StoreStep.startedRun
      split
      · rename_i hinput _
        exact absurd ⟨_, hinput⟩ hop
      · rename_i hdeleted
        obtain rfl : _ = _ := hdeleted
        exact absurd trivial hreply
      · rfl
    | source request row => exact h.of_none (fun _ => rfl) (fun _ => rfl) rfl
    | created request hvalid hfree => exact h.of_none (fun _ => rfl) (fun _ => rfl) rfl
    | deleted request found => exact h.deleted request found
    | claimed request due hvalid hdue => exact h.of_none (fun _ => rfl) (fun _ => rfl) rfl
    | started request hleased => exact absurd ⟨_, rfl⟩ hop
    | completed request hvalid hcan => exact h.committed hdb hcan _
    | stale request message hd1 hrequest => exact absurd hrequest (hstale hd1 request)
    | deliveryLeased request delivery => exact h.of_none (fun _ => rfl) (fun _ => rfl) rfl
    | deliveryFinished request delivery => exact h.of_none (fun _ => rfl) (fun _ => rfl) rfl

end RunLives

/-! ## The law -/

section

variable [ExternalParsers] (adapter : Adapter) (ops : List StoreOp)

/-- The rows of both tables along a run. -/
lemma lives_run (hfresh : adapter = .d1 → FreshClaims (adapter.store.trace ops)) :
    WatchLives adapter (adapter.store.trace ops) (adapter.store.run ops) ∧
      RunLives adapter (adapter.store.trace ops) (adapter.store.run ops) := by
  induction ops using List.reverseRecOn with
  | nil => exact ⟨.init, .init⟩
  | append_singleton ops op ih =>
    rw [Machine.trace_snoc] at hfresh ⊢
    rw [Machine.run_snoc]
    have hbefore : adapter = .d1 → FreshClaims (adapter.store.trace ops) := fun hd1 =>
      FreshClaims.of_prefix (hfresh hd1) (List.prefix_append _ _)
    obtain ⟨hwatches, hruns⟩ := ih hbefore
    have hdb := adapter.wellFormed_run ops
    have heffect := adapter.step_effect hdb op
    have hstale : adapter = .d1 → ∀ request,
        ¬ D1Store.IsStaleFinish (adapter.store.run ops) request := fun hd1 =>
      (adapter.leaseInv_run ops (hbefore hd1)).not_stale
    exact ⟨hwatches.step hdb hstale heffect, hruns.step hdb hstale op⟩

omit [ExternalParsers] in
/-- A start that finds a run returns it, and changes nothing. -/
lemma startWatchRun_of_loadRun {db : Db} {request : StartWatchRun} {run : WatchRun}
    (h : db.loadRun request.tenantId request.watchId request.idempotencyKey = some run) :
    adapter.startWatchRun db request = (db, request.validate.map fun _ => run) := by
  rw [startWatchRun_eq]
  cases request.validate with
  | error e => rfl
  | ok _ =>
    have hexists : Table.exists? WatchRun.idempotency db.watchRuns (adapter.startedRun request) =
        true := by
      refine Table.exists?_iff.mpr (List.mem_map.mpr ⟨run, List.mem_of_find?_eq_some h, ?_⟩)
      exact of_decide_eq_true (List.find?_some (p := fun r : WatchRun => r.idempotency = _) h)
    have hinsert : db.insertRun (adapter.startedRun request) = .ok db := by
      rw [Db.insertRun, if_pos hexists]
      split <;> rfl
    rw [checked_ok, hinsert]
    simp only [h]
    rfl

end

set_option maxRecDepth 100000 in
/-- The claims of `handedOverOps` are fresh in D1, and the run of the second worker has succeeded. -/
private lemma handedOver_runs :
    letI : ExternalParsers := .ofHost "example.com"
    FreshClaims (d1.store.trace handedOverOps) ∧
      (d1.expectedRun ("t", "w", "l") (d1.store.trace handedOverOps)).map WatchRun.status =
        some .succeeded := by
  unfold FreshClaims
  decide

end Adapter

end Comsat
