import Comsat.Store.Integrity

set_option relaxedAutoImplicit false
set_option autoImplicit false

/-!
# Leases along a run

What a run of a store has done to the leases of its watches, read off its trace, and the invariant
that ties the lease columns, the runs and the completions to the claims of the trace.

## Main definitions

* `watchClaims`, `lastClaim`, `commits` — the claims of a trace that leased a watch, the last one of
  a watch since it was created, and the completions that succeeded.
* `FreshClaims` — no two claims that leased a watch have the same owner.
* `LeaseInv` — the invariant.

## Main results

* `Adapter.leaseInv_run` — the invariant holds along every run with fresh claims.
* `LeaseInv.not_stale` — under it, no completion of the D1 adapter meets a stale state.

## Design

* A claim of the D1 adapter that fails to read the row it has leased leaves the watch under the
  lease of its owner. It counts as a claim, and what it leased is read off the lease columns.
-/

namespace Comsat

/-! ## Reading a trace -/

/-- The watch has the lease of a row of some table. -/
def Watch.hasLeaseIn (watch : Watch) (table : List Watch) : Bool :=
  table.any fun row => row.key = watch.key && row.leaseOwner = watch.leaseOwner &&
    row.leaseExpiresEpochSeconds = watch.leaseExpiresEpochSeconds

/-- What a claim that failed has leased: the watch that is under another lease than before. -/
def StoreStep.keptLease (x : StoreStep) (request : ClaimDueWatch) : Option ClaimedWatch :=
  (x.after.watches.find? fun w => !w.hasLeaseIn x.before.watches).map fun w =>
    ⟨w, request.leaseOwner, request.leaseExpires⟩

/-- The claim of a step that leased a watch: the claim it returned, or what it leased although it
failed. -/
def StoreStep.watchClaim (x : StoreStep) : Option ClaimedWatch :=
  match x.input, x.reply with
  | _, .watchClaimed (.ok claim) => claim
  | .claimDueWatch request, .watchClaimed (.error _) => x.keptLease request
  | _, _ => none

/-- The completion of a step that completed a run. -/
def StoreStep.commit (x : StoreStep) : Option CompleteWatchRun :=
  match x.input, x.reply with
  | .completeWatchRun request, .runCompleted (.ok _) => some request
  | _, _ => none

/-- The last claim of a watch after a step: creating or deleting the watch forgets it. -/
def StoreStep.nextClaim (x : StoreStep) (key : String × String) (last : Option ClaimedWatch) :
    Option ClaimedWatch :=
  match x.input, x.reply with
  | .createWatch _, .watchCreated (.ok watch) => if watch.key = key then none else last
  | .deleteWatch request, .watchDeleted (.ok _) =>
    if (request.tenantId, request.watchId) = key then none else last
  | _, _ =>
    match x.watchClaim with
    | some claim => if claim.watch.key = key then some claim else last
    | none => last

/-- The claims of a trace that leased a watch. -/
def watchClaims (trace : List StoreStep) : List ClaimedWatch := trace.filterMap StoreStep.watchClaim

/-- The completions of a trace that succeeded. -/
def commits (trace : List StoreStep) : List CompleteWatchRun := trace.filterMap StoreStep.commit

/-- The last claim that leased a watch since the watch was created. -/
def lastClaim (key : String × String) (trace : List StoreStep) : Option ClaimedWatch :=
  trace.foldl (fun last x => x.nextClaim key last) none

/-- Every claim that leased a watch has an owner that no other one has. -/
def FreshClaims (trace : List StoreStep) : Prop :=
  ((watchClaims trace).map ClaimedWatch.leaseOwner).Nodup

section Traces

variable {trace : List StoreStep} {x : StoreStep}

/-- The claims after one more step. -/
lemma watchClaims_snoc : watchClaims (trace ++ [x]) = watchClaims trace ++ x.watchClaim.toList := by
  unfold watchClaims
  rw [List.filterMap_append]
  cases h : x.watchClaim <;> simp [h]

/-- The completions after one more step. -/
lemma commits_snoc : commits (trace ++ [x]) = commits trace ++ x.commit.toList := by
  unfold commits
  rw [List.filterMap_append]
  cases h : x.commit <;> simp [h]

/-- The last claim after one more step. -/
lemma lastClaim_snoc {key : String × String} :
    lastClaim key (trace ++ [x]) = x.nextClaim key (lastClaim key trace) := by
  unfold lastClaim
  rw [List.foldl_append]
  rfl

/-- Claims that are fresh are fresh among the first steps. -/
lemma FreshClaims.of_prefix {first : List StoreStep} (h : FreshClaims trace)
    (hfirst : first <+: trace) : FreshClaims first :=
  h.sublist ((hfirst.sublist.filterMap _).map _)

/-- The last claim of a watch after a step is the one before it, or the claim of the step. -/
lemma StoreStep.nextClaim_eq_some {key : String × String} {last : Option ClaimedWatch}
    {claim : ClaimedWatch} (h : x.nextClaim key last = some claim) :
    last = some claim ∨ x.watchClaim = some claim ∧ claim.watch.key = key := by
  unfold nextClaim at h
  split at h
  · split at h
    · exact absurd h (by simp)
    · exact .inl h
  · split at h
    · exact absurd h (by simp)
    · exact .inl h
  · split at h
    · rename_i hclaim
      split at h
      · rename_i hkey
        obtain rfl := Option.some.inj h
        exact .inr ⟨hclaim, hkey⟩
      · exact .inl h
    · exact .inl h

/-- The last claim of a watch is a claim of the trace, of that watch. -/
lemma mem_of_lastClaim {key : String × String} {claim : ClaimedWatch}
    (h : lastClaim key trace = some claim) :
    claim ∈ watchClaims trace ∧ claim.watch.key = key := by
  induction trace using List.reverseRecOn with
  | nil => exact absurd h (by simp [lastClaim])
  | append_singleton trace x ih =>
    rw [lastClaim_snoc] at h
    rw [watchClaims_snoc]
    rcases StoreStep.nextClaim_eq_some h with hlast | ⟨hx, hkey⟩
    · exact ⟨List.mem_append_left _ (ih hlast).1, (ih hlast).2⟩
    · exact ⟨List.mem_append_right _ (by simp [hx]), hkey⟩

/-- A step that leaves the database alone has leased nothing. -/
lemma keptLease_of_unchanged {db : Db} {op : StoreOp} {reply : StoreReply}
    (request : ClaimDueWatch) : StoreStep.keptLease ⟨db, op, reply, db⟩ request = none := by
  rw [StoreStep.keptLease, Option.map_eq_none_iff, List.find?_eq_none]
  intro w hw
  simp only [Bool.not_eq_true', Bool.not_eq_false, Watch.hasLeaseIn, List.any_eq_true]
  exact ⟨w, hw, by simp⟩

/-- A step that leaves the database alone and reports no change claims nothing. -/
lemma watchClaim_of_quiet {db : Db} {op : StoreOp} {reply : StoreReply}
    (h : ¬ reply.Reports) : StoreStep.watchClaim ⟨db, op, reply, db⟩ = none := by
  unfold StoreStep.watchClaim
  split
  · rename_i claim hreply
    cases claim with
    | none => rfl
    | some claim =>
      obtain rfl : reply = _ := hreply
      exact absurd trivial h
  · exact keptLease_of_unchanged _
  · rfl

/-- A step that reports no change completes nothing. -/
lemma commit_of_quiet {before after : Db} {op : StoreOp} {reply : StoreReply}
    (h : ¬ reply.Reports) : StoreStep.commit ⟨before, op, reply, after⟩ = none := by
  unfold StoreStep.commit
  split
  · rename_i hreply
    obtain rfl : reply = _ := hreply
    exact absurd trivial h
  · rfl

/-- A step that leaves the database alone and reports no change leaves the last claims alone. -/
lemma nextClaim_of_quiet {db : Db} {op : StoreOp} {reply : StoreReply}
    (h : ¬ reply.Reports) {key : String × String} {last : Option ClaimedWatch} :
    StoreStep.nextClaim ⟨db, op, reply, db⟩ key last = last := by
  unfold StoreStep.nextClaim
  rw [watchClaim_of_quiet h]
  split
  all_goals first
    | rfl
    | rename_i hreply
      obtain rfl : reply = _ := hreply
      exact absurd trivial h

/-- Fresh claims of the same owner are the same claim. -/
lemma FreshClaims.eq_of_owner (h : FreshClaims trace) {c d : ClaimedWatch}
    (hc : c ∈ watchClaims trace) (hd : d ∈ watchClaims trace)
    (howner : c.leaseOwner = d.leaseOwner) : c = d :=
  List.inj_on_of_nodup_map h hc hd howner

end Traces

/-! ## Claims that find a watch -/

/-- The step of a claim that leases a watch. -/
abbrev Adapter.claimStep (adapter : Adapter) (db : Db) (due : Watch) (request : ClaimDueWatch) :
    StoreStep :=
  ⟨db, .claimDueWatch request, .watchClaimed (adapter.claimReply due request),
    adapter.leaseWatch db due request⟩

/-- **What a claim leases**: the watch it found, for its owner until the end of its lease; if the
watch was under that very lease before, a claim that fails changes nothing.

**Proof sketch.** A claim that succeeds returns what it leased. After one that fails, the watch that
was found is the only one whose lease can differ from the lease of its row before. -/
lemma Adapter.watchClaim_claimStep (adapter : Adapter) {db : Db} {due : Watch}
    (request : ClaimDueWatch) (hkeys : (db.watches.map Watch.key).Nodup) (hmem : due ∈ db.watches) :
    (∃ claim, (adapter.claimStep db due request).watchClaim = some claim ∧
      claim.watch.key = due.key ∧ claim.leaseOwner = request.leaseOwner ∧
      claim.leaseExpiresEpochSeconds = request.leaseExpires ∧
      ∀ owner expires, claim.watch.withLease owner expires = due.withLease owner expires) ∨
    ((adapter.claimStep db due request).watchClaim = none ∧
      adapter.leaseWatch db due request = db) := by
  by_cases hreadable : due.IsReadable
  · refine .inl ⟨⟨adapter.claimedWatch due request.leaseOwner request.leaseExpires,
      request.leaseOwner, request.leaseExpires⟩, ?_, adapter.claimedWatch_key _ _ _, rfl, rfl, ?_⟩
    · rw [claimStep, adapter.claimReply_of_readable hreadable]
      rfl
    · intro owner expires
      cases adapter <;> rfl
  obtain ⟨text, hreply⟩ := adapter.claimReply_of_not_readable hreadable request
  have hclaim : (adapter.claimStep db due request).watchClaim =
      (adapter.claimStep db due request).keptLease request := by
    rw [claimStep, hreply]
    rfl
  rw [hclaim]
  cases hfound : (adapter.leaseWatch db due request).watches.find?
      fun w => !w.hasLeaseIn db.watches with
  | some w =>
    obtain rfl : due.withLease request.leaseOwner (adapter.bind request.leaseExpires) = w := by
      rcases Table.mem_update.mp (List.mem_of_find?_eq_some hfound) with
        ⟨hold, -⟩ | ⟨old, hold, hkey, rfl⟩
      · have hnew := List.find?_some hfound
        rw [Bool.not_eq_true', Watch.hasLeaseIn, List.any_eq_false] at hnew
        exact absurd (by simp) (hnew w hold)
      · rw [Table.eq_of_key_eq hkeys hold hmem (of_decide_eq_true hkey)]
    refine .inl ⟨⟨due.withLease request.leaseOwner (adapter.bind request.leaseExpires),
      request.leaseOwner, request.leaseExpires⟩, ?_, rfl, rfl, rfl, fun _ _ => rfl⟩
    rw [StoreStep.keptLease, hfound]
    rfl
  | none =>
    refine .inr ⟨by rw [StoreStep.keptLease, hfound]; rfl, ?_⟩
    -- the row was under the lease that the claim wrote
    have hsame : due.withLease request.leaseOwner (adapter.bind request.leaseExpires) = due := by
      have hafter : due.withLease request.leaseOwner (adapter.bind request.leaseExpires) ∈
          (adapter.leaseWatch db due request).watches :=
        Table.mem_update.mpr (.inr ⟨due, hmem, by simp, rfl⟩)
      have hlease := List.find?_eq_none.mp hfound _ hafter
      rw [Bool.not_eq_true', Bool.not_eq_false, Watch.hasLeaseIn, List.any_eq_true] at hlease
      obtain ⟨row, hrow, hcolumns⟩ := hlease
      simp only [Bool.and_eq_true, decide_eq_true_eq] at hcolumns
      obtain ⟨⟨hkey, howner⟩, hexpires⟩ := hcolumns
      obtain rfl := Table.eq_of_key_eq hkeys hrow hmem hkey
      change row.leaseOwner = some request.leaseOwner at howner
      change row.leaseExpiresEpochSeconds = some (adapter.bind request.leaseExpires) at hexpires
      rw [Watch.withLease, ← howner, ← hexpires]
    rw [leaseWatch, Table.update_of_fixed]
    intro row hrow hkey
    rwa [Table.eq_of_key_eq hkeys hrow hmem (of_decide_eq_true hkey)]

/-! ## The invariant -/

/-- What ties the lease columns, the runs and the completions of a trace to its claims. -/
structure LeaseInv (adapter : Adapter) (trace : List StoreStep) (db : Db) : Prop where
  /-- A leased watch was last claimed by the owner of its lease, until the instant it stores. -/
  leased : ∀ w ∈ db.watches, ∀ owner, w.leaseOwner = some owner →
    ∃ claim, lastClaim w.key trace = some claim ∧ claim.leaseOwner = owner ∧
      w.leaseExpiresEpochSeconds = some (adapter.bind claim.leaseExpiresEpochSeconds)
  /-- The owner of a run has claimed. -/
  runOwner : ∀ r ∈ db.watchRuns, ∃ claim ∈ watchClaims trace, claim.leaseOwner = r.leaseOwner
  /-- The owner of a finished run holds no lease. -/
  finished : ∀ r ∈ db.watchRuns, r.status ≠ .running →
    ∀ w ∈ db.watches, w.leaseOwner ≠ some r.leaseOwner
  /-- The owner of a completion has claimed its watch. -/
  committed : ∀ request ∈ commits trace, ∃ claim ∈ watchClaims trace,
    claim.leaseOwner = request.leaseOwner ∧
      claim.watch.key = (request.tenantId, request.watchId)
  /-- The owner of a completion holds no lease. -/
  spent : ∀ request ∈ commits trace, ∀ w ∈ db.watches, w.leaseOwner ≠ some request.leaseOwner
  /-- An owner completes once. -/
  once : ((commits trace).map CompleteWatchRun.leaseOwner).Nodup

namespace LeaseInv

variable {adapter : Adapter} {trace : List StoreStep} {db : Db}

/-- The invariant holds of the empty tables. -/
lemma init : LeaseInv adapter [] Db.empty := by
  constructor <;> simp [Db.empty, commits]

/-- Two watches under the lease of one owner are the same row.

**Proof sketch.** Both were last claimed by that owner, and fresh claims of one owner are one
claim, of one watch. -/
lemma eq_of_owner (h : LeaseInv adapter trace db) (hfresh : FreshClaims trace)
    (hkeys : (db.watches.map Watch.key).Nodup) {v w : Watch} (hv : v ∈ db.watches)
    (hw : w ∈ db.watches) {owner : String} (hvo : v.leaseOwner = some owner)
    (hwo : w.leaseOwner = some owner) : v = w := by
  obtain ⟨c, hc, hco, -⟩ := h.leased v hv owner hvo
  obtain ⟨d, hd, hdo, -⟩ := h.leased w hw owner hwo
  obtain ⟨hcmem, hckey⟩ := mem_of_lastClaim hc
  obtain ⟨hdmem, hdkey⟩ := mem_of_lastClaim hd
  obtain rfl := hfresh.eq_of_owner hcmem hdmem (hco.trans hdo.symm)
  exact Table.eq_of_key_eq hkeys hv hw (hckey.symm.trans hdkey)

/-- Under the invariant no completion meets a stale state: the owner of a finished run holds no
lease. -/
lemma not_stale (h : LeaseInv adapter trace db) (request : CompleteWatchRun) :
    ¬ D1Store.IsStaleFinish db request := by
  rintro ⟨⟨w, hw, hleased⟩, r, hr, hfinished⟩
  obtain ⟨-, hrowner, hstatus, -⟩ := D1Store.isFinishedUnder_iff.mp hfinished
  refine h.finished r hr hstatus w hw ?_
  rw [hrowner]
  exact (Watch.isLeasedTo_iff.mp hleased).2.1

/-- A step that neither touches watches and runs nor reports a claim or a completion keeps the
invariant. -/
lemma of_quiet (h : LeaseInv adapter trace db) {x : StoreStep} {db' : Db}
    (hclaim : x.watchClaim = none) (hcommit : x.commit = none)
    (hnext : ∀ key last, x.nextClaim key last = last) (hwatches : db'.watches = db.watches)
    (hruns : db'.watchRuns = db.watchRuns) : LeaseInv adapter (trace ++ [x]) db' := by
  have hclaims : watchClaims (trace ++ [x]) = watchClaims trace := by
    rw [watchClaims_snoc, hclaim, Option.toList_none, List.append_nil]
  have hcommits : commits (trace ++ [x]) = commits trace := by
    rw [commits_snoc, hcommit, Option.toList_none, List.append_nil]
  have hlast : ∀ key, lastClaim key (trace ++ [x]) = lastClaim key trace := fun key => by
    rw [lastClaim_snoc, hnext]
  constructor
  · simpa only [hwatches, hlast] using h.leased
  · simpa only [hruns, hclaims] using h.runOwner
  · simpa only [hruns, hwatches] using h.finished
  · simpa only [hcommits, hclaims] using h.committed
  · simpa only [hcommits, hwatches] using h.spent
  · simpa only [hcommits] using h.once

/-! ## One lemma for every step that touches watches or runs -/

/-- Creating a watch keeps the invariant: its key is new, and it is not leased. -/
lemma created (h : LeaseInv adapter trace db) {request : CreateWatch}
    (hfree : request.intoWatch.key ∉ db.watches.map Watch.key) :
    LeaseInv adapter
      (trace ++ [⟨db, .createWatch request, .watchCreated (.ok request.intoWatch),
        { db with watches := db.watches ++ [adapter.storedWatch request.intoWatch] }⟩])
      { db with watches := db.watches ++ [adapter.storedWatch request.intoWatch] } := by
  have hold : ∀ w ∈ db.watches ++ [adapter.storedWatch request.intoWatch], ∀ owner,
      w.leaseOwner = some owner → w ∈ db.watches := by
    intro w hw owner howner
    rcases List.mem_append.mp hw with hw | hw
    · exact hw
    · obtain rfl := List.mem_singleton.mp hw
      exact absurd howner (by simp [CreateWatch.intoWatch])
  constructor
  · intro w hw owner howner
    have hmem := hold w hw owner howner
    have hne : request.intoWatch.key ≠ w.key := fun hk =>
      hfree (hk ▸ List.mem_map_of_mem hmem)
    obtain ⟨claim, hlast, hclaim⟩ := h.leased w hmem owner howner
    refine ⟨claim, ?_, hclaim⟩
    rw [lastClaim_snoc, StoreStep.nextClaim]
    simpa [hne] using hlast
  · simpa [watchClaims_snoc, StoreStep.watchClaim] using h.runOwner
  · intro r hr hstatus w hw howner
    exact h.finished r hr hstatus w (hold w hw _ howner) howner
  · simpa [commits_snoc, watchClaims_snoc, StoreStep.commit, StoreStep.watchClaim]
      using h.committed
  · intro request' hcommit w hw howner
    rw [commits_snoc, StoreStep.commit, Option.toList_none, List.append_nil] at hcommit
    exact h.spent request' hcommit w (hold w hw _ howner) howner
  · simpa [commits_snoc, StoreStep.commit] using h.once

/-- Deleting a watch keeps the invariant: it removes rows, and forgets the claim of that watch
only. -/
lemma deleted (h : LeaseInv adapter trace db) {request : DeleteWatch} {found : Bool} :
    LeaseInv adapter
      (trace ++ [⟨db, .deleteWatch request, .watchDeleted (.ok found),
        db.deleteWatch request.tenantId request.watchId⟩])
      (db.deleteWatch request.tenantId request.watchId) := by
  constructor
  · intro w hw owner howner
    obtain ⟨hmem, hkept⟩ := Table.mem_delete.mp hw
    have hne : (request.tenantId, request.watchId) ≠ w.key := by
      rintro hk
      simp only [Watch.key, Prod.mk.injEq] at hk
      simp [hk.1, hk.2] at hkept
    obtain ⟨claim, hlast, hclaim⟩ := h.leased w hmem owner howner
    refine ⟨claim, ?_, hclaim⟩
    rw [lastClaim_snoc, StoreStep.nextClaim]
    simpa [hne] using hlast
  · intro r hr
    simpa [watchClaims_snoc, StoreStep.watchClaim] using h.runOwner r (Table.mem_delete.mp hr).1
  · intro r hr hstatus w hw
    exact h.finished r (Table.mem_delete.mp hr).1 hstatus w (Table.mem_delete.mp hw).1
  · simpa [commits_snoc, watchClaims_snoc, StoreStep.commit, StoreStep.watchClaim]
      using h.committed
  · intro request' hcommit w hw
    rw [commits_snoc, StoreStep.commit, Option.toList_none, List.append_nil] at hcommit
    exact h.spent request' hcommit w (Table.mem_delete.mp hw).1
  · simpa [commits_snoc, StoreStep.commit] using h.once

/-- Claiming a watch keeps the invariant.

**Proof sketch.** The claimed watch is under the lease of the new claim, and every other watch is
as before. The owner is new, so it is neither the owner of a run nor that of a completion. -/
lemma claimed (h : LeaseInv adapter trace db) (hkeys : (db.watches.map Watch.key).Nodup)
    {request : ClaimDueWatch} {due : Watch} (hmem : due ∈ db.watches)
    (hfresh : FreshClaims (trace ++ [adapter.claimStep db due request])) :
    LeaseInv adapter (trace ++ [adapter.claimStep db due request])
      (adapter.leaseWatch db due request) := by
  rcases adapter.watchClaim_claimStep request hkeys hmem with
    ⟨new, hclaim, hnewKey, hnewOwner, hnewExpires, -⟩ | ⟨hclaim, hsame⟩
  case inr =>
    refine h.of_quiet hclaim rfl (fun key last => ?_) (by rw [hsame]) (by rw [hsame])
    rw [StoreStep.nextClaim, hclaim]
  have hnew : ∀ claim ∈ watchClaims trace, claim.leaseOwner ≠ request.leaseOwner := by
    unfold FreshClaims at hfresh
    rw [watchClaims_snoc, List.map_append, List.nodup_append] at hfresh
    intro claim hold
    exact hfresh.2.2 _ (List.mem_map_of_mem hold) _ (by simp [hclaim, hnewOwner])
  -- a leased watch is the claimed one, or it was there
  have hrows : ∀ w ∈ (adapter.leaseWatch db due request).watches, ∀ owner,
      w.leaseOwner = some owner →
        (w ∈ db.watches ∧ due.key ≠ w.key) ∨
        (due.key = w.key ∧ owner = request.leaseOwner ∧
          w.leaseExpiresEpochSeconds = some (adapter.bind request.leaseExpires)) := by
    intro w hw owner howner
    rcases Table.mem_update.mp hw with ⟨hmem, hne⟩ | ⟨old, -, hkey, rfl⟩
    · exact .inl ⟨hmem, fun hk => of_decide_eq_false hne hk.symm⟩
    · exact .inr ⟨(of_decide_eq_true hkey).symm, (Option.some.inj howner).symm, rfl⟩
  constructor
  · intro w hw owner howner
    simp only [lastClaim_snoc, StoreStep.nextClaim, hclaim, hnewKey]
    rcases hrows w hw owner howner with ⟨hmem, hne⟩ | ⟨hkey, rfl, hexpires⟩
    · rw [if_neg hne]
      exact h.leased w hmem owner howner
    · rw [if_pos hkey]
      exact ⟨new, rfl, hnewOwner, hnewExpires ▸ hexpires⟩
  · intro r hr
    obtain ⟨claim, hclaim, howner⟩ := h.runOwner r hr
    rw [watchClaims_snoc]
    exact ⟨claim, List.mem_append_left _ hclaim, howner⟩
  · intro r hr hstatus w hw howner
    rcases hrows w hw _ howner with ⟨hmem, -⟩ | ⟨-, hsame, -⟩
    · exact h.finished r hr hstatus w hmem howner
    · obtain ⟨claim, hclaim, hr'⟩ := h.runOwner r hr
      exact hnew claim hclaim (hr'.trans hsame)
  · intro request' hcommit
    rw [commits_snoc, StoreStep.commit, Option.toList_none, List.append_nil] at hcommit
    obtain ⟨claim, hclaim, hof⟩ := h.committed request' hcommit
    rw [watchClaims_snoc]
    exact ⟨claim, List.mem_append_left _ hclaim, hof⟩
  · intro request' hcommit w hw howner
    rw [commits_snoc, StoreStep.commit, Option.toList_none, List.append_nil] at hcommit
    rcases hrows w hw _ howner with ⟨hmem, -⟩ | ⟨-, hsame, -⟩
    · exact h.spent request' hcommit w hmem howner
    · obtain ⟨claim, hclaim, hof, -⟩ := h.committed request' hcommit
      exact hnew claim hclaim (hof.trans hsame)
  · simpa [commits_snoc, StoreStep.commit] using h.once

/-- Starting a run keeps the invariant: its owner holds a lease, hence has claimed. -/
lemma started (h : LeaseInv adapter trace db) {request : StartWatchRun}
    (hleased : ∃ w ∈ db.watches, w.isLeasedTo request.tenantId request.watchId
      request.leaseOwner (adapter.bind request.startedAtEpochSeconds) = true) :
    LeaseInv adapter
      (trace ++ [⟨db, .startWatchRun request, .runStarted (.ok (adapter.startedRun request)),
        { db with watchRuns := db.watchRuns ++ [adapter.startedRun request] }⟩])
      { db with watchRuns := db.watchRuns ++ [adapter.startedRun request] } := by
  constructor
  · intro w hw owner howner
    rw [lastClaim_snoc, StoreStep.nextClaim]
    exact h.leased w hw owner howner
  · intro r hr
    rw [watchClaims_snoc, StoreStep.watchClaim, Option.toList_none, List.append_nil]
    rcases List.mem_append.mp hr with hr | hr
    · exact h.runOwner r hr
    · obtain rfl := List.mem_singleton.mp hr
      obtain ⟨w, hw, hw'⟩ := hleased
      obtain ⟨claim, hlast, howner, -⟩ := h.leased w hw _ (Watch.isLeasedTo_iff.mp hw').2.1
      exact ⟨claim, (mem_of_lastClaim hlast).1, howner⟩
  · intro r hr hstatus
    rcases List.mem_append.mp hr with hr | hr
    · exact h.finished r hr hstatus
    · obtain rfl := List.mem_singleton.mp hr
      exact absurd rfl hstatus
  · simpa [commits_snoc, watchClaims_snoc, StoreStep.commit, StoreStep.watchClaim]
      using h.committed
  · simpa [commits_snoc, StoreStep.commit] using h.spent
  · simpa [commits_snoc, StoreStep.commit] using h.once

/-- Completing a run keeps the invariant.

**Proof sketch.** Only one watch is under the lease of the owner, and the completion ends that
lease. So the owner holds no lease after it; and since it held one before, it had not completed
anything. -/
lemma completed (h : LeaseInv adapter trace db) (hfresh : FreshClaims trace)
    (hkeys : db.KeysUnique) {request : CompleteWatchRun} (hcan : adapter.CanComplete db request) :
    LeaseInv adapter
      (trace ++ [⟨db, .completeWatchRun request, .runCompleted (.ok (adapter.outcome db request)),
        adapter.committed db request⟩])
      (adapter.committed db request) := by
  obtain ⟨⟨leasedWatch, hleasedMem, hleased⟩, run, hrunMem, hrunning⟩ := hcan
  obtain ⟨hleasedKey, hleasedOwner, -⟩ := Watch.isLeasedTo_iff.mp hleased
  obtain ⟨hrunKey, hrunOwner, -⟩ := WatchRun.isRunningUnder_iff.mp hrunning
  obtain ⟨claim, hlast, hclaimOwner, -⟩ := h.leased leasedWatch hleasedMem _ hleasedOwner
  obtain ⟨hclaim, hclaimKey⟩ := mem_of_lastClaim hlast
  -- a watch that is leased after the completion is another one, and was leased before it
  have hrows : ∀ w ∈ (adapter.committed db request).watches, ∀ owner,
      w.leaseOwner = some owner → w ∈ db.watches ∧ w.key ≠ (request.tenantId, request.watchId) := by
    intro w hw owner howner
    rcases Table.mem_update.mp hw with ⟨hmem, hne⟩ | ⟨old, -, -, rfl⟩
    · exact ⟨hmem, of_decide_eq_false hne⟩
    · exact absurd howner (by simp [Watch.finish])
  -- the owner holds no lease after the completion
  have hspent : ∀ w ∈ (adapter.committed db request).watches,
      w.leaseOwner ≠ some request.leaseOwner := by
    intro w hw howner
    obtain ⟨hmem, hne⟩ := hrows w hw _ howner
    obtain rfl := h.eq_of_owner hfresh hkeys.watches hmem hleasedMem howner hleasedOwner
    exact hne hleasedKey
  have hclaims : watchClaims (trace ++ [⟨db, .completeWatchRun request,
      .runCompleted (.ok (adapter.outcome db request)), adapter.committed db request⟩]) =
        watchClaims trace := by
    rw [watchClaims_snoc, StoreStep.watchClaim, Option.toList_none, List.append_nil]
  have hcommits : commits (trace ++ [⟨db, .completeWatchRun request,
      .runCompleted (.ok (adapter.outcome db request)), adapter.committed db request⟩]) =
        commits trace ++ [request] := by
    rw [commits_snoc, StoreStep.commit, Option.toList_some]
  constructor
  · intro w hw owner howner
    rw [lastClaim_snoc, StoreStep.nextClaim]
    exact h.leased w (hrows w hw owner howner).1 owner howner
  · intro r hr
    rw [hclaims]
    rcases Table.mem_update.mp hr with ⟨hr, -⟩ | ⟨old, hold, -, rfl⟩
    · exact h.runOwner r hr
    · exact h.runOwner old hold
  · intro r hr hstatus w hw howner
    rcases Table.mem_update.mp hr with ⟨hr, -⟩ | ⟨old, hold, hkey, rfl⟩
    · exact h.finished r hr hstatus w (hrows w hw _ howner).1 howner
    · obtain rfl := Table.eq_of_key_eq hkeys.watchRuns hold hrunMem
        ((of_decide_eq_true hkey).trans hrunKey.symm)
      exact hspent w hw (howner.trans (congrArg some hrunOwner))
  · intro request' hcommit
    rw [hcommits] at hcommit
    rw [hclaims]
    rcases List.mem_append.mp hcommit with hcommit | hcommit
    · exact h.committed request' hcommit
    · obtain rfl := List.mem_singleton.mp hcommit
      exact ⟨claim, hclaim, hclaimOwner, hclaimKey.trans hleasedKey⟩
  · intro request' hcommit w hw howner
    rw [hcommits] at hcommit
    rcases List.mem_append.mp hcommit with hcommit | hcommit
    · exact h.spent request' hcommit w (hrows w hw _ howner).1 howner
    · obtain rfl := List.mem_singleton.mp hcommit
      exact hspent w hw howner
  · rw [hcommits, List.map_append, List.map_singleton, List.nodup_append]
    refine ⟨h.once, List.nodup_singleton _, ?_⟩
    rintro owner hmem owner' howner' rfl
    obtain ⟨request', hcommit, rfl⟩ := List.mem_map.mp hmem
    have hsame := List.mem_singleton.mp howner'
    exact h.spent request' hcommit leasedWatch hleasedMem (hsame ▸ hleasedOwner)

/-- **One step** on a well-formed database keeps the invariant, as long as claims are fresh.

**Proof sketch.** By cases on what the step does. A stale completion does not occur, by
`LeaseInv.not_stale`. -/
theorem step [ExternalParsers] (h : LeaseInv adapter trace db) (hdb : db.WellFormed)
    {op : StoreOp} {result : Db × StoreReply} (heffect : adapter.Effect db op result)
    (hfresh : FreshClaims (trace ++ [⟨db, op, result.2, result.1⟩])) :
    LeaseInv adapter (trace ++ [⟨db, op, result.2, result.1⟩]) result.1 := by
  have hbefore := hfresh.of_prefix (List.prefix_append _ _)
  cases heffect with
  | unchanged hreply =>
    exact h.of_quiet (watchClaim_of_quiet hreply) (commit_of_quiet hreply)
      (fun _ _ => nextClaim_of_quiet hreply) rfl rfl
  | source request row => exact h.of_quiet rfl rfl (fun _ _ => rfl) rfl rfl
  | created request hvalid hfree => exact h.created hfree
  | deleted request found => exact h.deleted
  | claimed request due hvalid hdue =>
    exact h.claimed hdb.watches (Db.dueWatch_eq_some hdue).1 hfresh
  | started request hleased => exact h.started hleased
  | completed request hvalid hcan => exact h.completed hbefore hdb.toKeysUnique hcan
  | stale request message hd1 hstale => exact absurd hstale (h.not_stale request)
  | deliveryLeased request delivery => exact h.of_quiet rfl rfl (fun _ _ => rfl) rfl rfl
  | deliveryFinished request delivery => exact h.of_quiet rfl rfl (fun _ _ => rfl) rfl rfl

end LeaseInv

/-! ## Runs -/

/-- **Leases along a run**: after every run with fresh claims, the leases are those of the last
claims, a finished run's owner holds no lease, and an owner completes once. -/
theorem Adapter.leaseInv_run [ExternalParsers] (adapter : Adapter) (ops : List StoreOp)
    (hfresh : FreshClaims (adapter.store.trace ops)) :
    LeaseInv adapter (adapter.store.trace ops) (adapter.store.run ops) := by
  have hrun : (adapter.store.run ops).WellFormed ∧ (FreshClaims (adapter.store.trace ops) →
      LeaseInv adapter (adapter.store.trace ops) (adapter.store.run ops)) := by
    refine adapter.store.run_induction
      (P := fun trace db => db.WellFormed ∧ (FreshClaims trace → LeaseInv adapter trace db))
      ⟨Db.wellFormed_empty, fun _ => .init⟩ ?_ ops
    rintro trace db op ⟨hdb, hinv⟩
    have heffect := adapter.step_effect hdb op
    exact ⟨heffect.wellFormed hdb, fun hfresh =>
      (hinv (hfresh.of_prefix (List.prefix_append _ _))).step hdb heffect hfresh⟩
  exact hrun.2 hfresh

end Comsat
