import Comsat.App.WatchRunner
import Comsat.Lib.Text
import Comsat.Store.Integrity
import Mathlib

set_option relaxedAutoImplicit false
set_option autoImplicit false

/-!
# The native schedulers of one store

Any number of native processes run the due watches of one SQLite store, each of them one watch at a
time: it claims a watch, starts a run of it, searches and completes the run. A process may stop
anywhere and begin anew, and watches are created and deleted meanwhile.

## Main definitions

* `SchedulerPhase`, `SchedulerSystem` — what a process is doing, and all of them with their store.
* `nativeSchedulers` — the machine whose steps are those of the processes and of everybody else.
* `ForwardClocks` — the clock of no process runs backwards.
* `SchedulerInv` — the invariant.

## Main results

* `schedulerInv_run` — the invariant holds along every run.
* `native_scheduler_resumes` — a process never runs a finished run again, and what it completes is
  due later and later.
* `native_scheduler_repeats` — with a clock that runs backwards, it does.

## Design

* The process does not look at the status of the run that it has started: the store hands out an
  earlier run under the same idempotency key, whatever has become of it. Nor does it compare the
  instants that its clock shows, so that the clock runs forward is an assumption about a run.
-/

namespace Comsat

/-! ## The processes -/

/-- What a process is doing. -/
inductive SchedulerPhase where
  | idle
  /-- It has claimed a watch, at an instant. -/
  | claimed (claim : ClaimedWatch) (now : ℤ)
  /-- It has started a run of the watch, and searches. -/
  | searching (claim : ClaimedWatch) (now : ℤ)

/-- The claim that a process works on, and when it was made. -/
def SchedulerPhase.claim? : SchedulerPhase → Option (ClaimedWatch × ℤ)
  | idle => none
  | claimed claim now => some (claim, now)
  | searching claim now => some (claim, now)

/-- The store and the processes. -/
structure SchedulerSystem (ι : Type) where
  db : Db
  processes : ι → SchedulerPhase

/-- A step of a process, or of somebody else. -/
inductive SchedulerStep (ι : Type) where
  /-- An operation that no scheduler issues. -/
  | other (op : StoreOp)
  /-- A process begins with the claim of a watch; what it was doing before is given up. -/
  | claim (process : ι) (now : ℤ)
  /-- It starts a run of the watch it has claimed. -/
  | start (process : ι)
  /-- Its search has ended, and it completes the run. -/
  | complete (process : ι) (outcome : SearchOutcome) (finishedAt : ℤ)

/-- The operation is one of those that only schedulers issue. -/
def StoreOp.isSchedulers : StoreOp → Bool
  | claimDueWatch _ => true
  | startWatchRun _ => true
  | completeWatchRun _ => true
  | _ => false

namespace SchedulerSystem

variable {ι : Type} [DecidableEq ι]

/-- A process moves on. -/
def update (system : SchedulerSystem ι) (db : Db) (i : ι) (phase : SchedulerPhase) :
    SchedulerSystem ι :=
  ⟨db, Function.update system.processes i phase⟩

variable [ExternalParsers] [DefaultHasher] (apps : ι → ComsatApp)

/-- A step of the system, with the reply of the store if it was asked. -/
def step (system : SchedulerSystem ι) :
    SchedulerStep ι → SchedulerSystem ι × Option StoreReply
  | .other op =>
    if op.isSchedulers then (system, none)
    else
      let (db, reply) := Adapter.sqlite.step system.db op
      ({ system with db }, some reply)
  | .claim i now =>
    let (db, reply) := Adapter.sqlite.step system.db (.claimDueWatch ((apps i).claimRequest now))
    let phase := match reply with
      | .watchClaimed (.ok (some claim)) => .claimed claim now
      | _ => .idle
    (system.update db i phase, some reply)
  | .start i =>
    match system.processes i with
    | .claimed claim now =>
      let (db, reply) :=
        Adapter.sqlite.step system.db (.startWatchRun ((apps i).startRequest claim now))
      let phase := match reply with
        | .runStarted (.ok _) => .searching claim now
        | _ => .idle
      (system.update db i phase, some reply)
    | _ => (system, none)
  | .complete i outcome finishedAt =>
    match system.processes i with
    | .searching claim _ =>
      let (db, reply) := Adapter.sqlite.step system.db
        (.completeWatchRun ((apps i).completeRequest claim outcome finishedAt))
      (system.update db i .idle, some reply)
    | _ => (system, none)

end SchedulerSystem

/-- The processes on an empty store, before any of them has begun. -/
def nativeSchedulers {ι : Type} [DecidableEq ι] [ExternalParsers] [DefaultHasher]
    (apps : ι → ComsatApp) :
    Machine (SchedulerSystem ι) (SchedulerStep ι) (Option StoreReply) where
  init := ⟨.empty, fun _ => .idle⟩
  step := SchedulerSystem.step apps

/-- A process that starts a run has claimed a watch. -/
lemma phase_of_start {ι : Type} [DecidableEq ι] [ExternalParsers] [DefaultHasher]
    {apps : ι → ComsatApp} {system : SchedulerSystem ι} {i : ι} {reply : StoreReply}
    (h : ((nativeSchedulers apps).step system (.start i)).2 = some reply) :
    ∃ claim now, system.processes i = .claimed claim now := by
  change (SchedulerSystem.step apps system (.start i)).2 = _ at h
  cases hphase : system.processes i with
  | claimed claim now => exact ⟨claim, now, rfl⟩
  | idle =>
    rw [SchedulerSystem.step, hphase] at h
    cases h
  | searching claim now =>
    rw [SchedulerSystem.step, hphase] at h
    cases h

/-! ## Clocks -/

section Clocks

variable {ι : Type} [DecidableEq ι]

/-- The instant that the clock of a process shows in a step. -/
def SchedulerStep.instant (i : ι) : SchedulerStep ι → Option ℤ
  | .claim j now => if j = i then some now else none
  | .complete j _ finishedAt => if j = i then some finishedAt else none
  | _ => none

/-- The instants that the clock of a process shows. -/
def instants (i : ι) (steps : List (SchedulerStep ι)) : List ℤ :=
  steps.filterMap (SchedulerStep.instant i)

/-- The clock of no process runs backwards. -/
def ForwardClocks (steps : List (SchedulerStep ι)) : Prop :=
  ∀ i, (instants i steps).Pairwise (· ≤ ·)

/-- The instants after one more step. -/
lemma instants_snoc {i : ι} {steps : List (SchedulerStep ι)} {next : SchedulerStep ι} :
    instants i (steps ++ [next]) = instants i steps ++ (next.instant i).toList := by
  rw [instants, List.filterMap_append]
  cases h : next.instant i <;> simp [instants, h]

variable [ExternalParsers] [DefaultHasher] (apps : ι → ComsatApp)

/-- A process that works on a claim after a step has made it in the step, or had made it before. -/
lemma claim_of_step {system : SchedulerSystem ι} {next : SchedulerStep ι} {i : ι}
    {entry : ClaimedWatch × ℤ} (h : entry ∈ ((system.step apps next).1.processes i).claim?) :
    entry ∈ (system.processes i).claim? ∨ next.instant i = some entry.2 := by
  cases next with
  | other op =>
    rw [SchedulerSystem.step] at h
    split at h <;> exact .inl h
  | claim j now =>
    rw [SchedulerSystem.step] at h
    dsimp only [SchedulerSystem.update] at h
    by_cases hj : i = j
    · subst hj
      rw [Function.update_self] at h
      split at h
      · obtain rfl := Option.some.inj h
        exact .inr (if_pos rfl)
      · cases h
    · rw [Function.update_of_ne hj] at h
      exact .inl h
  | start j =>
    rw [SchedulerSystem.step] at h
    split at h
    · rename_i claim now hphase
      dsimp only [SchedulerSystem.update] at h
      by_cases hj : i = j
      · subst hj
        rw [Function.update_self] at h
        rw [hphase]
        split at h
        · exact .inl h
        · cases h
      · rw [Function.update_of_ne hj] at h
        exact .inl h
    · exact .inl h
  | complete j outcome finishedAt =>
    rw [SchedulerSystem.step] at h
    split at h
    · dsimp only [SchedulerSystem.update] at h
      by_cases hj : i = j
      · subst hj
        rw [Function.update_self] at h
        cases h
      · rw [Function.update_of_ne hj] at h
        exact .inl h
    · exact .inl h

/-- The claim that a process works on was made at an instant that its clock has shown. -/
lemma claim_mem_instants (steps : List (SchedulerStep ι)) (i : ι) :
    ∀ entry ∈ (((nativeSchedulers apps).run steps).processes i).claim?,
      entry.2 ∈ instants i steps := by
  induction steps using List.reverseRecOn with
  | nil =>
    intro entry hentry
    cases hentry
  | append_singleton steps next ih =>
    intro entry hentry
    rw [Machine.run_snoc] at hentry
    rw [instants_snoc]
    rcases claim_of_step apps hentry with hbefore | hnow
    · exact List.mem_append_left _ (ih entry hbefore)
    · exact List.mem_append_right _ (by simp [hnow])

end Clocks

/-! ## Run identifiers -/

/-- The identifier of the run of a watch by an owner, from the instant at which it was due. -/
def nativeRunId (watchId owner : String) (due : ℤ) : String :=
  watchId ++ ":" ++ owner ++ ":" ++ toString due

/-- The identifier of a run tells the owner and the instant of a watch.

**Proof sketch.** A numeral has no colon, so the last colon stands before it. -/
lemma nativeRunId_inj {watchId owner owner' : String} {due due' : ℤ}
    (h : nativeRunId watchId owner due = nativeRunId watchId owner' due') :
    owner = owner' ∧ due = due' := by
  have hcolon : ∀ n : ℤ, ':' ∉ (toString n).toList.reverse := by
    intro n hmem
    rcases Text.mem_int_toString (List.mem_reverse.mp hmem) with hc | hc
    · exact absurd hc (by decide)
    · exact absurd hc (by decide)
  have hsplit : ∀ (name : String) (n : ℤ), Text.splitOnce ':'
      (nativeRunId watchId name n).toList.reverse =
        ((toString n).toList.reverse, some (watchId ++ ":" ++ name).toList.reverse) := by
    intro name n
    have hlist : (nativeRunId watchId name n).toList.reverse =
        (toString n).toList.reverse ++ ':' :: (watchId ++ ":" ++ name).toList.reverse := by
      simp [nativeRunId]
    rw [hlist, Text.splitOnce_append (hcolon n)]
  have hsame := (hsplit owner due).symm.trans ((congrArg (fun text =>
    Text.splitOnce ':' text.toList.reverse) h).trans (hsplit owner' due'))
  simp only [Prod.mk.injEq, Option.some.injEq, List.reverse_inj, String.toList_inj] at hsame
  exact ⟨(String.append_right_inj _).mp hsame.2, Text.int_toString_injective hsame.1⟩

/-! ## The invariant -/

section

variable {ι : Type} (apps : ι → ComsatApp)

/-- A run of a watch was completed by an owner, and the watch was due at an instant for it. -/
def CompletedFor (db : Db) (key : String × String) (owner : String) (due : ℤ) : Prop :=
  ∃ r ∈ db.watchRuns, (r.tenantId, r.watchId) = key ∧ r.leaseOwner = owner ∧
    r.status ≠ .running ∧ r.runId = nativeRunId key.2 owner due

/-- What a claim of a process is worth: it was made when the watch was due, the watch is still due
then if it is still leased to the process, and the process has completed earlier runs only. -/
structure ClaimInv (owner : String) (db : Db) (claim : ClaimedWatch) (now : ℤ) : Prop where
  due : claim.watch.nextDueEpochSeconds ≤ now
  leased : ∀ w ∈ db.watches, w.key = claim.watch.key → w.leaseOwner = some owner →
    w.nextDueEpochSeconds = claim.watch.nextDueEpochSeconds
  earlier : ∀ due, CompletedFor db claim.watch.key owner due →
    due < claim.watch.nextDueEpochSeconds

/-- The invariant of the system. -/
structure SchedulerInv (system : SchedulerSystem ι) : Prop where
  wellFormed : system.db.WellFormed
  /-- A run was started by one of the processes. -/
  started : ∀ r ∈ system.db.watchRuns, ∃ i due, r.leaseOwner = (apps i).leaseOwner ∧
    r.runId = nativeRunId r.watchId r.leaseOwner due ∧ r.idempotencyKey = r.runId
  /-- A watch is due after it was due for every completed run. -/
  completed : ∀ w ∈ system.db.watches, ∀ owner due, CompletedFor system.db w.key owner due →
    due < w.nextDueEpochSeconds
  /-- The claims that the processes work on. -/
  claims : ∀ i, ∀ entry ∈ (system.processes i).claim?,
    ClaimInv (apps i).leaseOwner system.db entry.1 entry.2

variable {apps} {system : SchedulerSystem ι}

/-- The invariant holds before any process has begun. -/
lemma SchedulerInv.init : SchedulerInv apps ⟨.empty, fun _ => .idle⟩ where
  wellFormed := Db.wellFormed_empty
  started := by simp [Db.empty]
  completed := by simp [Db.empty]
  claims := by simp [SchedulerPhase.claim?]

/-! ## The steps -/

/-- A claim keeps its worth if its owner gets no lease that changes what was due, and completes
nothing. -/
lemma ClaimInv.mono {owner : String} {db db' : Db} {claim : ClaimedWatch} {now : ℤ}
    (h : ClaimInv owner db claim now)
    (hwatches : ∀ w ∈ db'.watches, w.leaseOwner = some owner → ∃ v ∈ db.watches, v.key = w.key ∧
      v.leaseOwner = some owner ∧ v.nextDueEpochSeconds = w.nextDueEpochSeconds)
    (hruns : ∀ key due, CompletedFor db' key owner due → CompletedFor db key owner due) :
    ClaimInv owner db' claim now where
  due := h.due
  leased w hw hkey howner := by
    obtain ⟨v, hv, hvkey, hvowner, hdue⟩ := hwatches w hw howner
    rw [← hdue]
    exact h.leased v hv (hvkey.trans hkey) hvowner
  earlier due hcompleted := h.earlier due (hruns _ due hcompleted)

/-- Runs that were completed before are those of a part of the table. -/
lemma CompletedFor.mono {db db' : Db} {key : String × String} {owner : String} {due : ℤ}
    (h : CompletedFor db' key owner due)
    (hruns : ∀ r ∈ db'.watchRuns, r.status ≠ .running → r ∈ db.watchRuns) :
    CompletedFor db key owner due := by
  obtain ⟨r, hr, hkey, howner, hstatus, hid⟩ := h
  exact ⟨r, hruns r hr hstatus, hkey, howner, hstatus, hid⟩

namespace SchedulerInv

/-- Somebody else deletes rows, or creates a watch. -/
lemma other (h : SchedulerInv apps system) {db : Db} (hdb : db.WellFormed)
    (hwatches : ∀ w ∈ db.watches, w ∈ system.db.watches ∨
      w.leaseOwner = none ∧ w.key ∉ system.db.watches.map Watch.key)
    (hruns : ∀ r ∈ db.watchRuns, r ∈ system.db.watchRuns) :
    SchedulerInv apps { system with db } where
  wellFormed := hdb
  started r hr := h.started r (hruns r hr)
  completed w hw owner due hcompleted := by
    have hbefore := hcompleted.mono fun r hr _ => hruns r hr
    rcases hwatches w hw with hw | ⟨-, hfree⟩
    · exact h.completed w hw owner due hbefore
    · -- a watch that was not there has no runs
      obtain ⟨r, hr, hkey, -⟩ := hbefore
      exact absurd (hkey ▸ h.wellFormed.runWatches r hr) hfree
  claims i entry hentry := by
    refine (h.claims i entry hentry).mono (fun w hw howner => ?_)
      fun key due hcompleted => hcompleted.mono fun r hr _ => hruns r hr
    rcases hwatches w hw with hw | ⟨hnone, -⟩
    · exact ⟨w, hw, rfl, howner, rfl⟩
    · rw [hnone] at howner
      cases howner

variable [DecidableEq ι]

/-- A process that gives up, and leaves the store alone. -/
lemma idle (h : SchedulerInv apps system) (i : ι) :
    SchedulerInv apps (system.update system.db i .idle) where
  wellFormed := h.wellFormed
  started := h.started
  completed := h.completed
  claims j entry hentry := by
    rw [SchedulerSystem.update] at hentry ⊢
    dsimp only at hentry ⊢
    by_cases hj : j = i
    · subst hj
      rw [Function.update_self] at hentry
      cases hentry
    · rw [Function.update_of_ne hj] at hentry
      exact h.claims j entry hentry

/-- A process claims a watch that is due. -/
lemma claimed (h : SchedulerInv apps system)
    (happs : ∀ i j, (apps i).leaseOwner = (apps j).leaseOwner → i = j) (i : ι) {now : ℤ}
    {due : Watch} (hdb : (Adapter.sqlite.leaseWatch system.db due ((apps i).claimRequest now)).WellFormed)
    (hdue : system.db.dueWatch (apps i).tenantId now = some due) :
    SchedulerInv apps (system.update
      (Adapter.sqlite.leaseWatch system.db due ((apps i).claimRequest now)) i
      (.claimed ⟨due, (apps i).leaseOwner, ((apps i).claimRequest now).leaseExpires⟩ now)) := by
  obtain ⟨hmem, hisDue⟩ := Db.dueWatch_eq_some hdue
  -- what is leased was there before, due at the same instant
  have hwatches : ∀ w ∈ (Adapter.sqlite.leaseWatch system.db due ((apps i).claimRequest now)).watches,
      (w ∈ system.db.watches ∧ w.key ≠ due.key) ∨ ∃ v ∈ system.db.watches, v.key = due.key ∧
        w.key = v.key ∧ w.leaseOwner = some (apps i).leaseOwner ∧
          w.nextDueEpochSeconds = v.nextDueEpochSeconds := by
    intro w hw
    rcases Table.mem_update.mp hw with ⟨hw, hkey⟩ | ⟨v, hv, hkey, rfl⟩
    · exact .inl ⟨hw, of_decide_eq_false hkey⟩
    · exact .inr ⟨v, hv, of_decide_eq_true hkey, rfl, rfl, rfl⟩
  refine ⟨hdb, h.started, fun w hw owner due' hcompleted => ?_, fun j entry hentry => ?_⟩
  · rcases hwatches w hw with ⟨hw, -⟩ | ⟨v, hv, -, hkey, -, hnext⟩
    · exact h.completed w hw owner due' hcompleted
    · rw [hnext]
      exact h.completed v hv owner due' (hkey ▸ hcompleted)
  · rw [SchedulerSystem.update] at hentry ⊢
    dsimp only at hentry ⊢
    by_cases hj : j = i
    · subst hj
      rw [Function.update_self] at hentry
      obtain rfl : _ = entry := Option.some.inj hentry
      refine ⟨(Watch.isDue_iff.mp hisDue).2.2.1, fun w hw hkey _ => ?_, fun due' hcompleted =>
        h.completed due hmem _ due' hcompleted⟩
      rcases hwatches w hw with ⟨-, hne⟩ | ⟨v, hv, hvkey, -, -, hnext⟩
      · exact absurd hkey hne
      · obtain rfl := Table.eq_of_key_eq h.wellFormed.watches hv hmem hvkey
        exact hnext
    · rw [Function.update_of_ne hj] at hentry
      refine (h.claims j entry hentry).mono (fun w hw howner => ?_) fun _ _ h => h
      rcases hwatches w hw with ⟨hw, -⟩ | ⟨v, hv, -, -, hleased, -⟩
      · exact ⟨w, hw, rfl, howner, rfl⟩
      · exact absurd (happs j i (Option.some.inj (howner.symm.trans hleased))) hj

/-- A process starts a run, or resumes one. -/
lemma searching (h : SchedulerInv apps system) (i : ι) {claim : ClaimedWatch} {now : ℤ}
    (hphase : system.processes i = .claimed claim now) {db : Db} (hdb : db.WellFormed)
    (hwatches : db.watches = system.db.watches)
    (hruns : ∀ r ∈ db.watchRuns, r ∈ system.db.watchRuns ∨
      r = Adapter.sqlite.startedRun ((apps i).startRequest claim now)) :
    SchedulerInv apps (system.update db i (.searching claim now)) := by
  have hfinished : ∀ r ∈ db.watchRuns, r.status ≠ .running → r ∈ system.db.watchRuns := by
    intro r hr hstatus
    rcases hruns r hr with hr | rfl
    · exact hr
    · exact absurd rfl hstatus
  refine ⟨hdb, fun r hr => ?_, fun w hw owner due hcompleted => ?_, fun j entry hentry => ?_⟩
  · rcases hruns r hr with hr | rfl
    · exact h.started r hr
    · exact ⟨i, claim.watch.nextDueEpochSeconds, rfl, rfl, rfl⟩
  · exact h.completed w (hwatches ▸ hw) owner due (hcompleted.mono hfinished)
  · have hsame : (∀ entry ∈ (system.processes j).claim?, ClaimInv (apps j).leaseOwner db
        entry.1 entry.2) := fun entry hentry =>
      (h.claims j entry hentry).mono (fun w hw howner => ⟨w, hwatches ▸ hw, rfl, howner, rfl⟩)
        fun _ _ hcompleted => hcompleted.mono hfinished
    rw [SchedulerSystem.update] at hentry ⊢
    dsimp only at hentry ⊢
    by_cases hj : j = i
    · subst hj
      rw [Function.update_self] at hentry
      rw [hphase] at hsame
      exact hsame entry hentry
    · rw [Function.update_of_ne hj] at hentry
      exact hsame entry hentry

/-- A process completes its run.

**Proof sketch.** The watch is leased to the process, so it is still due when it was claimed; and it
was claimed before the completion, so the completion moves it past that. -/
lemma finished [DefaultHasher] (h : SchedulerInv apps system)
    (happs : ∀ i j, (apps i).leaseOwner = (apps j).leaseOwner → i = j) (i : ι)
    {claim : ClaimedWatch} {now : ℤ} (hphase : system.processes i = .searching claim now)
    {outcome : SearchOutcome} {finishedAt : ℤ} (hclock : now ≤ finishedAt) (hlow : -2 ^ 63 ≤ finishedAt)
    (hhigh : finishedAt + 31536000 < 2 ^ 63)
    (hdb : (Adapter.sqlite.committed system.db
      ((apps i).completeRequest claim outcome finishedAt)).WellFormed)
    (hcan : Adapter.sqlite.CanComplete system.db
      ((apps i).completeRequest claim outcome finishedAt)) :
    SchedulerInv apps (system.update (Adapter.sqlite.committed system.db
      ((apps i).completeRequest claim outcome finishedAt)) i .idle) := by
  obtain ⟨⟨w, hw, hleased⟩, -⟩ := hcan
  obtain ⟨hkey, howner, -⟩ := Watch.isLeasedTo_iff.mp hleased
  have hclaim : ClaimInv (apps i).leaseOwner system.db claim now :=
    h.claims i (claim, now) (by rw [hphase]; rfl)
  have hdue : w.nextDueEpochSeconds = claim.watch.nextDueEpochSeconds :=
    hclaim.leased w hw hkey howner
  have hpast : w.nextDueEpochSeconds ≤ finishedAt := by
    rw [hdue]
    exact hclaim.due.trans hclock
  -- a watch after the completion
  have hwatches : ∀ v ∈ (Adapter.sqlite.committed system.db
      ((apps i).completeRequest claim outcome finishedAt)).watches,
        (v ∈ system.db.watches ∧ v.key ≠ claim.watch.key) ∨
          v.key = claim.watch.key ∧ v.leaseOwner = none ∧
            w.nextDueEpochSeconds < v.nextDueEpochSeconds := by
    intro v hv
    rcases Table.mem_update.mp hv with ⟨hv, hne⟩ | ⟨old, hold, holdKey, rfl⟩
    · exact .inl ⟨hv, of_decide_eq_false hne⟩
    · refine .inr ⟨of_decide_eq_true holdKey, rfl, ?_⟩
      obtain ⟨hmin, hmax⟩ := h.wellFormed.intervals old hold
      change w.nextDueEpochSeconds < addI64 finishedAt old.intervalSeconds
      rw [addI64, Int.bmod_eq_of_le (by omega) (by omega)]
      omega
  -- the run that the completion finishes is one of this owner, for the instant of the claim
  have hcompleted : ∀ key owner due, CompletedFor (Adapter.sqlite.committed system.db
      ((apps i).completeRequest claim outcome finishedAt)) key owner due →
        CompletedFor system.db key owner due ∨ key = claim.watch.key ∧
          owner = (apps i).leaseOwner ∧ due = claim.watch.nextDueEpochSeconds := by
    rintro key owner due ⟨r, hr, rfl, rfl, hstatus, hid⟩
    rcases Table.mem_update.mp hr with ⟨hr, -⟩ | ⟨old, hold, holdKey, rfl⟩
    · exact .inl ⟨r, hr, rfl, rfl, hstatus, hid⟩
    · have holdKey := of_decide_eq_true holdKey
      simp only [WatchRun.key, Prod.mk.injEq] at holdKey
      obtain ⟨htenant, hwatch, hrun⟩ := holdKey
      have hrunId : nativeRunId old.watchId (apps i).leaseOwner claim.watch.nextDueEpochSeconds =
          nativeRunId old.watchId old.leaseOwner due := by
        refine Eq.trans ?_ (hrun.symm.trans hid)
        rw [hwatch]
        rfl
      obtain ⟨hownerEq, hdueEq⟩ := nativeRunId_inj hrunId
      exact .inr ⟨Prod.ext htenant hwatch, hownerEq.symm, hdueEq.symm⟩
  refine ⟨hdb, fun r hr => ?_, fun v hv owner due hdone => ?_, fun j entry hentry => ?_⟩
  · rcases Table.mem_update.mp hr with ⟨hr, -⟩ | ⟨old, hold, -, rfl⟩
    · exact h.started r hr
    · exact h.started old hold
  · rcases hwatches v hv with ⟨hv, hne⟩ | ⟨hvKey, -, hlater⟩
    · rcases hcompleted _ _ _ hdone with hdone | ⟨hvKey, -⟩
      · exact h.completed v hv owner due hdone
      · exact absurd hvKey hne
    · rcases hcompleted _ _ _ hdone with hdone | ⟨-, -, rfl⟩
      · have hsame : w.key = v.key := hkey.trans hvKey.symm
        exact (h.completed w hw owner due (by rw [hsame]; exact hdone)).trans hlater
      · exact hdue ▸ hlater
  · rw [SchedulerSystem.update] at hentry ⊢
    dsimp only at hentry ⊢
    by_cases hj : j = i
    · subst hj
      rw [Function.update_self] at hentry
      cases hentry
    · rw [Function.update_of_ne hj] at hentry
      refine (h.claims j entry hentry).mono (fun v hv hvOwner => ?_) fun key due hdone => ?_
      · rcases hwatches v hv with ⟨hv, -⟩ | ⟨-, hnone, -⟩
        · exact ⟨v, hv, rfl, hvOwner, rfl⟩
        · rw [hnone] at hvOwner
          cases hvOwner
      · rcases hcompleted _ _ _ hdone with hdone | ⟨-, hsame, -⟩
        · exact hdone
        · exact absurd (happs j i hsame) hj

/-- **One step** keeps the invariant, if the owners of the processes differ, a completion is not
earlier than the claim, and its instant so small that the next one can be represented.

**Proof sketch.** By cases on the step and on what the store does for it. -/
lemma step [ExternalParsers] [DefaultHasher] (h : SchedulerInv apps system)
    (happs : ∀ i j, (apps i).leaseOwner = (apps j).leaseOwner → i = j) (next : SchedulerStep ι)
    (hclock : ∀ i outcome finishedAt, next = .complete i outcome finishedAt →
      -2 ^ 63 ≤ finishedAt ∧ finishedAt + 31536000 < 2 ^ 63)
    (hforward : ∀ i outcome finishedAt, next = .complete i outcome finishedAt →
      ∀ entry ∈ (system.processes i).claim?, entry.2 ≤ finishedAt) :
    SchedulerInv apps (system.step apps next).1 := by
  cases next with
  | other op =>
    rw [SchedulerSystem.step]
    split
    · exact h
    · rename_i hop
      have heffect := Adapter.sqlite.step_effect h.wellFormed op
      have hdb := heffect.wellFormed h.wellFormed
      dsimp only
      generalize Adapter.sqlite.step system.db op = result at heffect hdb
      cases heffect with
      | unchanged hquiet => exact h
      | source request row hrow => exact h.other hdb (fun w hw => .inl hw) fun r hr => hr
      | created request hvalid hfree =>
        refine h.other hdb (fun w hw => ?_) fun r hr => hr
        rcases List.mem_append.mp hw with hw | hw
        · exact .inl hw
        · rw [List.mem_singleton.mp hw]
          exact .inr ⟨rfl, hfree⟩
      | deleted request found =>
        exact h.other hdb (fun w hw => .inl (Table.mem_delete.mp hw).1)
          fun r hr => (Table.mem_delete.mp hr).1
      | deliveryLeased request delivery hvalid hdelivery =>
        exact h.other hdb (fun w hw => .inl hw) fun r hr => hr
      | deliveryFinished request delivery hmem hleased =>
        exact h.other hdb (fun w hw => .inl hw) fun r hr => hr
      | _ => exact absurd rfl hop
  | claim i now =>
    rw [SchedulerSystem.step]
    have heffect := Adapter.sqlite.step_effect h.wellFormed
      (.claimDueWatch ((apps i).claimRequest now))
    have hdb := heffect.wellFormed h.wellFormed
    dsimp only
    generalize Adapter.sqlite.step system.db _ = result at heffect hdb
    cases heffect with
    | unchanged hquiet =>
      dsimp only
      split
      · exact absurd trivial hquiet
      · exact h.idle i
    | claimed request due hvalid hdue hcommits =>
      have hreadable : due.IsReadable := hcommits.resolve_left (by decide)
      rw [Adapter.claimReply_of_readable _ hreadable]
      exact h.claimed happs i hdb hdue
  | start i =>
    rw [SchedulerSystem.step]
    split
    · rename_i claim now hphase
      have heffect := Adapter.sqlite.step_effect h.wellFormed
        (.startWatchRun ((apps i).startRequest claim now))
      have hdb := heffect.wellFormed h.wellFormed
      dsimp only
      generalize Adapter.sqlite.step system.db _ = result at heffect hdb
      cases heffect with
      | unchanged hquiet =>
        dsimp only
        split
        · exact h.searching i hphase hdb rfl fun r hr => .inl hr
        · exact h.idle i
      | started request hleased hidempotency hkey =>
        refine h.searching i hphase hdb rfl fun r hr => ?_
        exact (List.mem_append.mp hr).imp_right List.mem_singleton.mp
    · exact h
  | complete i outcome finishedAt =>
    obtain ⟨hlow, hhigh⟩ := hclock i outcome finishedAt rfl
    rw [SchedulerSystem.step]
    split
    · rename_i claim now hphase
      have hpast : now ≤ finishedAt :=
        hforward i outcome finishedAt rfl (claim, now) (by rw [hphase]; rfl)
      have heffect := Adapter.sqlite.step_effect h.wellFormed
        (.completeWatchRun ((apps i).completeRequest claim outcome finishedAt))
      have hdb := heffect.wellFormed h.wellFormed
      dsimp only
      generalize Adapter.sqlite.step system.db _ = result at heffect hdb
      cases heffect with
      | unchanged hquiet => exact h.idle i
      | completed request hvalid hcan => exact h.finished happs i hphase hpast hlow hhigh hdb hcan
      | stale request message hd1 hstale => cases hd1
    · exact h

end SchedulerInv

end

/-- **The invariant along a run** of the system. -/
theorem schedulerInv_run {ι : Type} [DecidableEq ι] [ExternalParsers] [DefaultHasher]
    (apps : ι → ComsatApp) (happs : ∀ i j, (apps i).leaseOwner = (apps j).leaseOwner → i = j)
    (steps : List (SchedulerStep ι)) (hforward : ForwardClocks steps)
    (hclock : ∀ i outcome finishedAt, .complete i outcome finishedAt ∈ steps →
      -2 ^ 63 ≤ finishedAt ∧ finishedAt + 31536000 < 2 ^ 63) :
    SchedulerInv apps ((nativeSchedulers apps).run steps) := by
  induction steps using List.reverseRecOn with
  | nil => exact .init
  | append_singleton steps next ih =>
    have hbefore : ForwardClocks steps := by
      intro i
      have hall := hforward i
      rw [instants_snoc, List.pairwise_append] at hall
      exact hall.1
    have hinv := ih hbefore fun i outcome finishedAt hmem =>
      hclock i outcome finishedAt (List.mem_append_left _ hmem)
    rw [Machine.run_snoc]
    refine hinv.step happs next (fun i outcome finishedAt hnext => ?_)
      fun i outcome finishedAt hnext entry hentry => ?_
    · exact hclock i outcome finishedAt (by simp [hnext])
    · have hall := hforward i
      rw [instants_snoc, List.pairwise_append] at hall
      refine hall.2.2 _ (claim_mem_instants apps steps i entry hentry) finishedAt ?_
      simp [hnext, SchedulerStep.instant]

/-- **A finished run is never run again.** In every run of any number of native processes with
different lease owners on one store, with watches created and deleted and processes stopped anywhere,
where no clock runs backwards and the instants of completions leave room for the next one: if a
process that has claimed a watch starts its run, then the store hands out a run with the derived
identifier, of this process and still running; and every run of the watch that the process has
completed was due before.

**Proof sketch.** The identifier tells the owner and the instant at which the watch was due. What the
process has completed before it claimed the watch was due earlier, and it completes nothing between
its claim and its start. -/
theorem native_scheduler_resumes {ι : Type} [DecidableEq ι] [ExternalParsers] [DefaultHasher]
    (apps : ι → ComsatApp) (happs : ∀ i j, (apps i).leaseOwner = (apps j).leaseOwner → i = j)
    (steps : List (SchedulerStep ι)) (hforward : ForwardClocks steps)
    (hclock : ∀ i outcome finishedAt, .complete i outcome finishedAt ∈ steps →
      -2 ^ 63 ≤ finishedAt ∧ finishedAt + 31536000 < 2 ^ 63)
    {i : ι} {claim : ClaimedWatch} {now : ℤ} {run : WatchRun}
    (hphase : ((nativeSchedulers apps).run steps).processes i = .claimed claim now)
    (hrun : ((nativeSchedulers apps).step ((nativeSchedulers apps).run steps) (.start i)).2 =
      some (.runStarted (.ok run))) :
    (run.tenantId, run.watchId) = claim.watch.key ∧
      run.runId = (apps i).watchRunId claim ∧ run.leaseOwner = (apps i).leaseOwner ∧
      run.status = .running ∧
      ∀ r ∈ ((nativeSchedulers apps).run steps).db.watchRuns,
        (r.tenantId, r.watchId) = claim.watch.key → r.leaseOwner = (apps i).leaseOwner →
          r.status ≠ .running → ∃ due < claim.watch.nextDueEpochSeconds,
            r.runId = nativeRunId claim.watch.watchId (apps i).leaseOwner due := by
  have hinv := schedulerInv_run apps happs steps hforward hclock
  generalize (nativeSchedulers apps).run steps = system at hphase hrun hinv
  have hclaim : ClaimInv (apps i).leaseOwner system.db claim now :=
    hinv.claims i (claim, now) (by rw [hphase]; rfl)
  have hearlier : ∀ r ∈ system.db.watchRuns, (r.tenantId, r.watchId) = claim.watch.key →
      r.leaseOwner = (apps i).leaseOwner → r.status ≠ .running →
        ∃ due < claim.watch.nextDueEpochSeconds,
          r.runId = nativeRunId claim.watch.watchId (apps i).leaseOwner due := by
    intro r hr hkey howner hstatus
    obtain ⟨-, due, -, hid, -⟩ := hinv.started r hr
    rw [howner, show r.watchId = claim.watch.watchId from congrArg Prod.snd hkey] at hid
    exact ⟨due, hclaim.earlier due ⟨r, hr, hkey, howner, hstatus, hid⟩, hid⟩
  -- what the store answers
  have hreply : (Adapter.sqlite.startWatchRun system.db ((apps i).startRequest claim now)).2 =
      .ok run := by
    change (SchedulerSystem.step apps system (.start i)).2 = _ at hrun
    rw [SchedulerSystem.step, hphase] at hrun
    exact StoreReply.runStarted.inj (Option.some.inj hrun)
  rcases Adapter.sqlite.startWatchRun_cases system.db ((apps i).startRequest claim now) with
    ⟨e, hcase⟩ | ⟨found, hfound, hload, hcase⟩ | ⟨-, -, -, hcase⟩
  · rw [hcase] at hreply
    cases hreply
  · -- an earlier run under the key
    rw [hcase] at hreply
    obtain rfl : found = run := Except.ok.inj hreply
    have hkey : found.idempotency = (claim.watch.tenantId, claim.watch.watchId,
        (apps i).watchRunId claim) := by
      have hfind := List.find?_some hload
      exact of_decide_eq_true hfind
    simp only [WatchRun.idempotency, Prod.mk.injEq] at hkey
    obtain ⟨htenant, hwatch, hidempotency⟩ := hkey
    obtain ⟨-, due, -, hid, hsame⟩ := hinv.started found hfound
    have hrunId : found.runId = (apps i).watchRunId claim := hsame.symm.trans hidempotency
    have hnative : nativeRunId claim.watch.watchId found.leaseOwner due =
        nativeRunId claim.watch.watchId (apps i).leaseOwner claim.watch.nextDueEpochSeconds := by
      rw [← hwatch, ← hid, hrunId, hwatch]
      rfl
    obtain ⟨howner, hdue⟩ := nativeRunId_inj hnative
    refine ⟨Prod.ext htenant hwatch, hrunId, howner, ?_, hearlier⟩
    by_contra hstatus
    have hless := hclaim.earlier claim.watch.nextDueEpochSeconds
      ⟨found, hfound, Prod.ext htenant hwatch, howner, hstatus, hrunId⟩
    exact lt_irrefl _ hless
  · -- a new run
    rw [hcase] at hreply
    obtain rfl : _ = run := Except.ok.inj hreply
    exact ⟨rfl, rfl, rfl, rfl, hearlier⟩

/-- A process without notifications. -/
def quietApp : ComsatApp := ⟨nativeLeaseOwner 7, "t", none⟩

/-- A watch that is due every minute from the start. -/
def minutely : CreateWatch := ⟨"t", "w", ⟨"q", none, none, none⟩, [], 60, .obj [], true, 0, none⟩

/-- The run that a reply hands out. -/
def StoreReply.started? : StoreReply → Option WatchRun
  | .runStarted (.ok run) => some run
  | _ => none

/-- What hands out a run is the reply to a start. -/
lemma StoreReply.started?_eq_some {reply : StoreReply} {run : WatchRun} :
    reply.started? = some run ↔ reply = .runStarted (.ok run) := by
  constructor
  · intro h
    unfold started? at h
    split at h
    · rw [Option.some.inj h]
    · cases h
  · rintro rfl
    rfl

/-- A process runs the watch once and claims it again. -/
def repeatedSteps : List (SchedulerStep Unit) :=
  [.other (.createWatch minutely), .claim () 10, .start (), .complete () ⟨[], []⟩ 20,
    .claim () 100]

/-- The process starts another run of the watch. -/
theorem native_scheduler_resumes_second :
    letI : ExternalParsers := .ofHost "example.com"
    letI : DefaultHasher := .constant
    ∃ run, ((nativeSchedulers fun _ => quietApp).step
        ((nativeSchedulers fun _ => quietApp).run repeatedSteps) (.start ())).2 =
          some (.runStarted (.ok run)) ∧ run.runId = "w:comsat-native-7:80" ∧
            run.status = .running := by
  let _ : ExternalParsers := .ofHost "example.com"
  let _ : DefaultHasher := .constant
  have hstarted : (((nativeSchedulers fun _ => quietApp).step
      ((nativeSchedulers fun _ => quietApp).run repeatedSteps) (.start ())).2.bind
        StoreReply.started?).map WatchRun.runId = some "w:comsat-native-7:80" := by decide +kernel
  obtain ⟨run, hbind, hid⟩ := Option.map_eq_some_iff.mp hstarted
  obtain ⟨reply, hreply, hrun⟩ := Option.bind_eq_some_iff.mp hbind
  rw [StoreReply.started?_eq_some.mp hrun] at hreply
  obtain ⟨claim, now, hphase⟩ := phase_of_start hreply
  have hforward : ForwardClocks repeatedSteps := by
    rintro ⟨⟩
    decide
  obtain ⟨-, -, -, hstatus, -⟩ := native_scheduler_resumes (fun _ => quietApp)
    (fun _ _ _ => rfl) repeatedSteps hforward (by simp [repeatedSteps]) hphase hreply
  exact ⟨run, hreply, hid, hstatus⟩

/-- A process whose clock is set back before it completes a run of the watch. -/
def setBackSteps : List (SchedulerStep Unit) :=
  [.other (.createWatch minutely), .claim () 10, .start (), .complete () ⟨[], []⟩ 20,
    .claim () 100, .start (), .complete () ⟨[], []⟩ 20, .claim () 200]

/-- With a clock that runs backwards, the process is given the run that it has finished. -/
theorem native_scheduler_repeats :
    letI : ExternalParsers := .ofHost "example.com"
    letI : DefaultHasher := .constant
    (((nativeSchedulers fun _ => quietApp).step
      ((nativeSchedulers fun _ => quietApp).run setBackSteps) (.start ())).2.bind
        StoreReply.started?).map (fun run => (run.runId, run.status)) =
          some ("w:comsat-native-7:80", .succeeded) := by
  decide +kernel

end Comsat
