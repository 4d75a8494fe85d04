import Comsat.Cloud.ScheduledStore
import Comsat.Lib.Rotation

set_option relaxedAutoImplicit false
set_option autoImplicit false

/-!
# A pass over the tenants

The tenants have their turns in rotation, and a pass claims due watches for them while other
parties use the store.

## Main definitions

* `ClaimPass` — a pass, and what other parties have the store do meanwhile.
* `PassState` — the store, the watches that have ceased to be, and what was claimed and sent.
* `StoreOp.ConcurrentWith` — what other parties may do: completions finish at the instant of the
  pass or later, and claims are those of other passes.

## Main results

* `HeldAt.step` — a watch that cannot be claimed at an instant stays so.
* `tenant_rotation_fair` — the rotation is fair, and a pass keeps to its budget and sends at most one
  message for a watch as long as the watch exists.

## Design

* A watch that is deleted and created again is another one: its incarnation is how often it has
  ceased to be before.
-/

namespace Comsat

/-! ## Rotation -/

/-- The tenants that have their turn are the first after as many steps as there were windows. -/
lemma scheduledTenantsOn_eq_turn {word : ℕ} {now : ℤ} (hnow : 0 ≤ now) (hword : now / 300 < word)
    (tenants : List String) (limit : ℕ) :
    scheduledTenantsOn word tenants now limit =
      Rotation.turn tenants (now / 300).toNat (min limit tenants.length) := by
  have hmax : max now 0 = now := max_eq_left hnow
  have hlt : (now / 300).toNat < word := by omega
  rw [scheduledTenantsOn, hmax, if_pos hlt, List.rotate_mod, Rotation.turn]

/-- As many tenants have their turn as there are, up to the limit. -/
lemma length_scheduledTenantsOn (word : ℕ) (tenants : List String) (now : ℤ) (limit : ℕ) :
    (scheduledTenantsOn word tenants now limit).length = min limit tenants.length := by
  rw [scheduledTenantsOn, List.length_take, List.length_rotate, Nat.min_assoc, Nat.min_self]

/-- **Fairness**: over as many windows as there are tenants, each tenant has its turn in as many of
them as there are turns in one, and is the first in one. -/
lemma card_scheduledTenantsOn {word : ℕ} {tenants : List String} (htenants : tenants.Nodup)
    {limit : ℕ} (hlimit : 1 ≤ limit) {first : ℕ} {times : ℕ → ℤ}
    (htimes : ∀ k < tenants.length, times k / 300 = first + k ∧ first + k < word) {tenant : String}
    (htenant : tenant ∈ tenants) :
    ((Finset.range tenants.length).filter fun k =>
        tenant ∈ scheduledTenantsOn word tenants (times k) limit).card = min limit tenants.length ∧
      ((Finset.range tenants.length).filter fun k =>
        (scheduledTenantsOn word tenants (times k) limit).head? = some tenant).card = 1 := by
  have hpos : 0 < tenants.length := List.length_pos_of_mem htenant
  have hturn : ∀ k ∈ Finset.range tenants.length, scheduledTenantsOn word tenants (times k) limit =
      Rotation.turn tenants (first + k) (min limit tenants.length) := by
    intro k hk
    obtain ⟨htime, hword⟩ := htimes k (Finset.mem_range.mp hk)
    have hsteps : (times k / 300).toNat = first + k := by omega
    rw [scheduledTenantsOn_eq_turn (by omega) (by omega), hsteps]
  constructor
  · rw [← Rotation.card_turns htenants htenant (Nat.min_le_right limit _) first]
    exact congrArg _ (Finset.filter_congr fun k hk => by rw [hturn k hk])
  · rw [← Rotation.card_turns htenants htenant (show 1 ≤ tenants.length from hpos) first]
    refine congrArg _ (Finset.filter_congr fun k hk => ?_)
    rw [hturn k hk, Rotation.head?_turn_iff (by omega)]

/-! ## Watches that cannot be claimed -/

/-- A watch cannot be claimed at an instant: it is not due, or under a lease. -/
def Watch.HeldAt (now : ℤ) (watch : Watch) : Prop :=
  now < watch.nextDueEpochSeconds ∨
    ∃ expires, watch.leaseExpiresEpochSeconds = some expires ∧ now < expires

/-- What other parties may have the store do beside a pass: completions finish at its instant or
later, and claims are those of other passes. -/
def StoreOp.ConcurrentWith (now : ℤ) : StoreOp → Prop
  | .completeWatchRun request => now ≤ request.finishedAtEpochSeconds
  | .claimDueWatch request => request.nowEpochSeconds / 300 < 2 ^ 32
  | _ => True

/-- A watch that is due is due later than it was held. -/
lemma Watch.HeldAt.lt_of_isDue {now now' : ℤ} {watch : Watch} {tenantId : String}
    (h : watch.HeldAt now) (hdue : watch.isDue tenantId now' = true) : now < now' := by
  obtain ⟨-, -, hnext, hlease⟩ := Watch.isDue_iff.mp hdue
  rcases h with h | ⟨expires, hexpires, h⟩
  · omega
  · rw [hexpires] at hlease
    simp only [reduceCtorEq, isPast, Option.any_some, decide_eq_true_eq, false_or] at hlease
    omega

section Instants

variable {now : ℤ} (hnow : 0 ≤ now) (hword : now / 300 < 2 ^ 32)

include hnow hword

/-- The instant of a pass is bound as it is. -/
lemma int_eq_self_of_pass : D1Store.int now = now :=
  Double.ofInt_eq_self (by omega) (by omega)

/-- A completion at the instant of a pass or later schedules its watch for later. -/
lemma lt_nextDue {finishedAt interval : ℤ} (hfinished : now ≤ finishedAt) (hinterval : 1 ≤ interval) :
    now < Adapter.d1.nextDue finishedAt interval := by
  have hmono : now ≤ D1Store.int finishedAt := by
    rw [← int_eq_self_of_pass hnow hword]
    exact Double.ofInt_mono hfinished
  change now < D1Store.sqlAdd (D1Store.int finishedAt) interval
  rw [D1Store.sqlAdd]
  split
  · omega
  · have hnext : Double.ofInt (now + 1) = now + 1 := Double.ofInt_eq_self (by omega) (by omega)
    have hle : Double.ofInt (now + 1) ≤ Double.ofInt (D1Store.int finishedAt + interval) :=
      Double.ofInt_mono (by omega)
    omega

end Instants

/-- A claim of a pass leases its watch for later. -/
lemma lt_leaseExpires {request : ClaimDueWatch} (hnow : 0 ≤ request.nowEpochSeconds)
    (hword : request.nowEpochSeconds / 300 < 2 ^ 32) (hvalid : request.validate = .ok ()) :
    request.nowEpochSeconds < D1Store.int request.leaseExpires := by
  obtain ⟨hlow, hhigh⟩ := ClaimDueWatch.lease_of_validate hvalid
  have hadd : request.leaseExpires = request.nowEpochSeconds + request.leaseSeconds :=
    Int.bmod_eq_of_le (by omega) (by omega)
  rw [hadd, D1Store.int, Double.ofInt_eq_self (by omega) (by omega)]
  omega

/-- A watch keeps its key when it is leased. -/
@[simp] lemma Watch.key_withLease (watch : Watch) (owner : String) (expires : ℤ) :
    (watch.withLease owner expires).key = watch.key := rfl

/-- A leased watch is held before the lease expires. -/
lemma Watch.heldAt_withLease {now expires : ℤ} (watch : Watch) (owner : String)
    (h : now < expires) : (watch.withLease owner expires).HeldAt now :=
  .inr ⟨expires, rfl, h⟩

/-- A watch is held after a completion at the instant or later. -/
lemma heldAt_of_mem_watchesAfter {now : ℤ} (hnow : 0 ≤ now) (hword : now / 300 < 2 ^ 32) {db : Db}
    (hdb : db.WellFormed) {request : CompleteWatchRun}
    (hfinished : now ≤ request.finishedAtEpochSeconds) {key : String × String}
    (hheld : ∀ w ∈ db.watches, w.key = key → w.HeldAt now) {watch : Watch}
    (hwatch : watch ∈ Adapter.d1.watchesAfter request db.watches) (hkey : watch.key = key) :
    watch.HeldAt now := by
  rcases Table.mem_update.mp hwatch with ⟨hold, -⟩ | ⟨old, hold, -, rfl⟩
  · exact hheld watch hold hkey
  · have hinterval : (1 : ℤ) ≤ old.intervalSeconds := by
      exact_mod_cast (hdb.intervals old hold).1
    exact .inl (lt_nextDue hnow hword hfinished hinterval)

/-- **One step of another party**: a watch that is held stays held as long as it exists.

**Proof sketch.** A claim of another pass takes a held watch only at a later instant, and leases it
for longer; a completion schedules it for later; a deleted watch is gone, and a created one is
another watch. -/
theorem HeldAt.step [ExternalParsers] {now : ℤ} (hnow : 0 ≤ now) (hword : now / 300 < 2 ^ 32)
    {db : Db} (hdb : db.WellFormed) {op : StoreOp} (hop : op.ConcurrentWith now)
    {key : String × String} (hmem : key ∈ db.watches.map Watch.key)
    (hheld : ∀ w ∈ db.watches, w.key = key → w.HeldAt now) :
    ∀ w ∈ (Adapter.d1.step db op).1.watches, w.key = key → w.HeldAt now := by
  have heffect := Adapter.d1.step_effect hdb op
  generalize Adapter.d1.step db op = result at heffect ⊢
  intro watch hwatch hkey
  cases heffect with
  | unchanged h => exact hheld watch hwatch hkey
  | source request row h => exact hheld watch hwatch hkey
  | created request hvalid hfree =>
    rcases List.mem_append.mp hwatch with hold | hnew
    · exact hheld watch hold hkey
    · obtain rfl := List.mem_singleton.mp hnew
      rw [Adapter.storedWatch_key] at hkey
      exact absurd (hkey ▸ hmem) hfree
  | deleted request found => exact hheld watch (List.mem_filter.mp hwatch).1 hkey
  | claimed request due hvalid hdue =>
    obtain ⟨hdueMem, hisDue⟩ := Db.dueWatch_eq_some hdue
    rcases Table.mem_update.mp hwatch with ⟨hold, -⟩ | ⟨old, hold, hsame, rfl⟩
    · exact hheld watch hold hkey
    · obtain rfl := Table.eq_of_key_eq hdb.watches hold hdueMem (by simpa using hsame)
      have hlater : now < D1Store.int request.nowEpochSeconds :=
        (hheld old hold hkey).lt_of_isDue hisDue
      have hlt : now < request.nowEpochSeconds := by
        refine Double.lt_of_ofInt_lt (lt_of_eq_of_lt ?_ hlater)
        exact int_eq_self_of_pass hnow hword
      exact old.heldAt_withLease _
        (hlt.trans (lt_leaseExpires (by omega) hop hvalid))
  | started request hleased hidempotency hfresh => exact hheld watch hwatch hkey
  | completed request hvalid hcan =>
    exact heldAt_of_mem_watchesAfter hnow hword hdb hop hheld hwatch hkey
  | stale request message hd1 hstale =>
    exact heldAt_of_mem_watchesAfter hnow hword hdb hop hheld hwatch hkey
  | deliveryLeased request delivery hvalid hdelivery => exact hheld watch hwatch hkey
  | deliveryFinished request delivery hdeliveryMem hleased => exact hheld watch hwatch hkey

/-! ## The pass -/

/-- A pass, and what other parties have the store do before its claims and between a claim and the
message about it. -/
structure ClaimPass where
  environment : WorkerEnvironment
  tenantIds : List String
  before : String → ℕ → List StoreOp
  between : String → ℕ → List StoreOp

/-- The store, the watches that have ceased to be, the incarnations that the pass has claimed, and
the messages it has sent with the incarnations they are about. -/
structure PassState where
  db : Db
  ended : List (String × String)
  claimed : List ((String × String) × ℕ)
  sent : List (WatchClaimMessage × ℕ)

namespace PassState

variable [ExternalParsers]

/-- The watches that an operation ends. -/
def endedBy (db db' : Db) : List (String × String) :=
  (db.watches.map Watch.key).filter fun key => !(db'.watches.map Watch.key).contains key

/-- An operation of another party. -/
def apply (state : PassState) (op : StoreOp) : PassState :=
  let db := (Adapter.d1.step state.db op).1
  { state with db := db, ended := state.ended ++ endedBy state.db db }

/-- Operations of other parties. -/
def applyAll (state : PassState) (ops : List StoreOp) : PassState := ops.foldl apply state

end PassState

namespace ClaimPass

variable [HttpLibrary] [ExternalParsers] (pass : ClaimPass)

/-- A claim of the pass. -/
def claim (tenantId : String) (count : ℕ) (state : PassState) :
    PassState × StoreResult (Option ClaimedWatch) :=
  let state := state.applyAll (pass.before tenantId count)
  match pass.environment.claim .d1 tenantId count state.db with
  | (db, .ok (some claimed)) =>
    ({ state with
        db := db
        claimed := state.claimed ++ [(claimed.watch.key, state.ended.count claimed.watch.key)] },
      .ok (some claimed))
  | (db, reply) => ({ state with db := db }, reply)

/-- The message about the watch that was claimed last. -/
def send (tenantId : String) (count : ℕ) (message : WatchClaimMessage) (state : PassState) :
    PassState × StoreResult Unit :=
  let state := state.applyAll (pass.between tenantId count)
  match pass.environment.sent tenantId count with
  | .ok () =>
    let incarnation := (state.claimed.getLast?.map Prod.snd).getD 0
    ({ state with sent := state.sent ++ [(message, incarnation)] }, .ok ())
  | .error error => (state, .error error)

/-- The surroundings of the pass. -/
def surroundings : Surroundings PassState where
  claim := pass.claim
  send := pass.send
  deliver tenantId state :=
    let (db, result) := pass.environment.deliverOne .d1 tenantId state.db
    ({ state with db := db }, result)

/-- When the pass is. -/
def now : ℤ := pass.environment.config.nowEpochSeconds

/-- How many watches the pass may claim. -/
def claimLimit : ℕ := pass.environment.config.claimLimit

/-- The tenants of the pass: the words of a Worker have 32 bits. -/
def order : List String :=
  scheduledTenantsOn (2 ^ 32) pass.tenantIds pass.now pass.claimLimit

/-- The pass over a store. -/
def run (db : Db) : PassState × List (String × TenantTurn) :=
  enqueueDueWatchesForTenants pass.surroundings pass.claimLimit 0 pass.order ⟨db, [], [], []⟩

/-- Other parties finish at the instant of the pass or later. -/
def Concurrent : Prop :=
  ∀ tenantId count, (∀ op ∈ pass.before tenantId count, op.ConcurrentWith pass.now) ∧
    ∀ op ∈ pass.between tenantId count, op.ConcurrentWith pass.now

end ClaimPass

/-! ## What a pass keeps -/

/-- The incarnations that the pass has claimed are different ones, and those that still exist cannot
be claimed at its instant. -/
structure PassState.Sound (now : ℤ) (state : PassState) : Prop where
  wellFormed : state.db.WellFormed
  nodup : state.claimed.Nodup
  past : ∀ entry ∈ state.claimed, entry.2 ≤ state.ended.count entry.1
  held : ∀ entry ∈ state.claimed, entry.2 = state.ended.count entry.1 →
    entry.1 ∈ state.db.watches.map Watch.key ∧
      ∀ w ∈ state.db.watches, w.key = entry.1 → w.HeldAt now

namespace PassState

variable [ExternalParsers] {now : ℤ} {state : PassState}

/-- Operations of other parties leave alone what the pass has claimed and sent. -/
lemma applyAll_claimed (state : PassState) (ops : List StoreOp) :
    (state.applyAll ops).claimed = state.claimed ∧ (state.applyAll ops).sent = state.sent := by
  induction ops generalizing state with
  | nil => exact ⟨rfl, rfl⟩
  | cons op ops ih => exact ih (state.apply op)

/-- An operation of another party keeps a pass sound. -/
lemma Sound.apply (hnow : 0 ≤ now) (hword : now / 300 < 2 ^ 32) (h : state.Sound now) {op : StoreOp}
    (hop : op.ConcurrentWith now) : (state.apply op).Sound now where
  wellFormed := (Adapter.d1.step_effect h.wellFormed op).wellFormed h.wellFormed
  nodup := h.nodup
  past entry hentry := by
    rw [PassState.apply, List.count_append]
    exact Nat.le_add_right_of_le (h.past entry hentry)
  held entry hentry hcount := by
    rw [PassState.apply, List.count_append] at hcount
    have hpast := h.past entry hentry
    -- the incarnation still exists, so the operation has not ended it
    have hnone : (endedBy state.db (Adapter.d1.step state.db op).1).count entry.1 = 0 := by omega
    obtain ⟨hmem, hheld⟩ := h.held entry hentry (by omega)
    refine ⟨?_, HeldAt.step hnow hword h.wellFormed hop hmem hheld⟩
    by_contra hgone
    refine List.count_eq_zero.mp hnone (List.mem_filter.mpr ⟨hmem, ?_⟩)
    rw [Bool.not_eq_true', List.contains_eq_mem]
    exact decide_eq_false hgone

/-- Operations of other parties keep a pass sound. -/
lemma Sound.applyAll (hnow : 0 ≤ now) (hword : now / 300 < 2 ^ 32) (h : state.Sound now)
    {ops : List StoreOp} (hops : ∀ op ∈ ops, op.ConcurrentWith now) :
    (state.applyAll ops).Sound now := by
  induction ops generalizing state with
  | nil => exact h
  | cons op ops ih =>
    exact ih (h.apply hnow hword (hops op (List.mem_cons_self ..)))
      fun op hop => hops op (List.mem_cons_of_mem _ hop)

/-- A claim at the instant of a pass keeps it sound. -/
lemma Sound.leased (hnow : 0 ≤ now) (hword : now / 300 < 2 ^ 32) (h : state.Sound now)
    {request : ClaimDueWatch} (hrequest : request.nowEpochSeconds = now) :
    ({ state with db := (Adapter.d1.claimDueWatch state.db request).1 } : PassState).Sound now := by
  have hstep : (Adapter.d1.step state.db (.claimDueWatch request)).1 =
    (Adapter.d1.claimDueWatch state.db request).1 := rfl
  have hop : (StoreOp.claimDueWatch request).ConcurrentWith now := by
    rw [StoreOp.ConcurrentWith, hrequest]
    exact hword
  have hkeys : (Adapter.d1.claimDueWatch state.db request).1.watches.map Watch.key =
      state.db.watches.map Watch.key := by
    rcases Adapter.d1.claimDueWatch_cases request h.wellFormed.watches with
      ⟨e, heq⟩ | ⟨-, heq⟩ | ⟨due, -, -, -, heq⟩
    · rw [heq]
    · rw [heq]
    · rw [heq]
      exact Table.map_update fun _ _ _ => rfl
  refine ⟨?_, h.nodup, h.past, fun entry hentry hcount => ?_⟩
  · rw [← hstep]
    exact (Adapter.d1.step_effect h.wellFormed _).wellFormed h.wellFormed
  · obtain ⟨hmem, hheld⟩ := h.held entry hentry hcount
    refine ⟨hkeys ▸ hmem, ?_⟩
    rw [← hstep]
    exact HeldAt.step hnow hword h.wellFormed hop hmem hheld

/-- A claim that is answered takes an incarnation that the pass has not claimed before. -/
lemma Sound.claimed (hnow : 0 ≤ now) (hword : now / 300 < 2 ^ 32) (h : state.Sound now)
    {request : ClaimDueWatch} (hrequest : request.nowEpochSeconds = now) {claimed : ClaimedWatch}
    (hclaimed : (Adapter.d1.claimDueWatch state.db request).2 = .ok (some claimed)) :
    ({ state with
        db := (Adapter.d1.claimDueWatch state.db request).1
        claimed := state.claimed ++
          [(claimed.watch.key, state.ended.count claimed.watch.key)] } : PassState).Sound now := by
  have hleased := h.leased hnow hword hrequest
  rcases Adapter.d1.claimDueWatch_cases request h.wellFormed.watches with
    ⟨e, heq⟩ | ⟨-, heq⟩ | ⟨due, hdue, hvalid, -, heq⟩
  · rw [heq] at hclaimed
    cases hclaimed
  · rw [heq] at hclaimed
    cases hclaimed
  · rw [heq] at hclaimed hleased ⊢
    obtain rfl := Adapter.eq_of_claimReply hclaimed
    obtain ⟨hdueMem, hisDue⟩ := Db.dueWatch_eq_some hdue
    have hinstant : Adapter.d1.bind request.nowEpochSeconds = now := by
      rw [hrequest]
      exact int_eq_self_of_pass hnow hword
    rw [hinstant] at hisDue
    refine ⟨hleased.wellFormed, ?_, fun entry hentry => ?_, fun entry hentry hcount => ?_⟩
    · -- a watch that was claimed before would be held
      rw [Adapter.claimedWatch_key, List.nodup_append]
      refine ⟨h.nodup, List.nodup_singleton _, fun entry hentry entry' hentry' heq => ?_⟩
      obtain rfl := List.mem_singleton.mp hentry'
      subst heq
      exact lt_irrefl now (((h.held _ hentry rfl).2 due hdueMem rfl).lt_of_isDue hisDue)
    · rcases List.mem_append.mp hentry with hold | hnew
      · exact h.past entry hold
      · obtain rfl := List.mem_singleton.mp hnew
        exact le_rfl
    · rcases List.mem_append.mp hentry with hold | hnew
      · exact hleased.held entry hold hcount
      · obtain rfl := List.mem_singleton.mp hnew
        simp only [Adapter.claimedWatch_key]
        constructor
        · have hkeys : (Adapter.d1.leaseWatch state.db due request).watches.map Watch.key =
              state.db.watches.map Watch.key := Table.map_update fun _ _ _ => rfl
          rw [hkeys]
          exact List.mem_map_of_mem hdueMem
        · intro watch hwatch hkey
          rcases Table.mem_update.mp hwatch with ⟨-, hother⟩ | ⟨old, -, -, rfl⟩
          · exact absurd hkey (by simpa using hother)
          · have hlt := lt_leaseExpires (by omega) (by rw [hrequest]; exact hword) hvalid
            exact old.heldAt_withLease _ (hrequest ▸ hlt)

end PassState

namespace ClaimPass

variable [HttpLibrary] [ExternalParsers] {pass : ClaimPass}

omit [HttpLibrary] in
/-- A claim of the pass keeps it sound, and an answer adds the incarnation to those it has claimed.
-/
lemma sound_claim (hnow : 0 ≤ pass.now) (hword : pass.now / 300 < 2 ^ 32)
    (hconcurrent : pass.Concurrent) {state : PassState} (h : state.Sound pass.now)
    (tenantId : String) (count : ℕ) :
    (pass.claim tenantId count state).1.Sound pass.now ∧
      (pass.claim tenantId count state).1.sent = state.sent ∧
      match (pass.claim tenantId count state).2 with
      | .ok (some claimed) => ∃ incarnation, (pass.claim tenantId count state).1.claimed =
          state.claimed ++ [(claimed.watch.key, incarnation)]
      | _ => (pass.claim tenantId count state).1.claimed = state.claimed := by
  have hothers := h.applyAll hnow hword (hconcurrent tenantId count).1
  obtain ⟨hclaimed, hsent⟩ := state.applyAll_claimed (pass.before tenantId count)
  have hrequest : (CloudWatch.claimRequest tenantId pass.environment.config
    (pass.environment.nonce tenantId count) count).nowEpochSeconds = pass.now := rfl
  rw [claim]
  generalize state.applyAll (pass.before tenantId count) = state' at hothers hclaimed hsent ⊢
  dsimp only [WorkerEnvironment.claim]
  cases hfault : pass.environment.claimFault tenantId count with
  | some fault =>
    refine ⟨?_, hsent, hclaimed⟩
    dsimp only [Fault.apply]
    split
    · exact hothers.leased hnow hword hrequest
    · exact hothers
  | none =>
    dsimp only [Fault.apply]
    rcases hresult : Adapter.d1.claimDueWatch state'.db (CloudWatch.claimRequest tenantId
      pass.environment.config (pass.environment.nonce tenantId count) count) with ⟨db, e | found⟩
    · have hsound := hothers.leased hnow hword hrequest
      rw [hresult] at hsound
      exact ⟨hsound, hsent, hclaimed⟩
    · cases found with
      | none =>
        have hsound := hothers.leased hnow hword hrequest
        rw [hresult] at hsound
        exact ⟨hsound, hsent, hclaimed⟩
      | some claimed =>
        have hsound := hothers.claimed hnow hword hrequest (by rw [hresult])
        rw [hresult] at hsound
        exact ⟨hsound, hsent, _, by rw [hclaimed]⟩

/-- Every message is about an incarnation that the pass has claimed, in the order of the claims. -/
def Tracked (state : PassState) : Prop :=
  (state.sent.map fun entry => ((entry.1.tenantId, entry.1.watchId), entry.2)).Sublist state.claimed

omit [HttpLibrary] in
/-- Sending the message about the watch that was claimed last keeps the messages in the order of the
claims. -/
lemma tracked_send {tenantId : String} {count : ℕ} {state : PassState} {claimed : ClaimedWatch}
    {before : List ((String × String) × ℕ)} {incarnation : ℕ}
    (hlast : state.claimed = before ++ [(claimed.watch.key, incarnation)])
    (hsent : (state.sent.map fun entry =>
      ((entry.1.tenantId, entry.1.watchId), entry.2)).Sublist before) :
    Tracked (pass.send tenantId count (.ofClaimed claimed) state).1 := by
  obtain ⟨hclaimed', hsent'⟩ := state.applyAll_claimed (pass.between tenantId count)
  rw [send]
  generalize state.applyAll (pass.between tenantId count) = state' at hclaimed' hsent' ⊢
  rw [hlast] at hclaimed'
  rw [Tracked]
  cases pass.environment.sent tenantId count with
  | error e =>
    rw [hclaimed', hsent']
    exact hsent.trans (List.sublist_append_left _ _)
  | ok u =>
    simp only [hclaimed', hsent', List.map_append, List.map_cons, List.map_nil,
      List.getLast?_concat, Option.map_some, Option.getD_some]
    exact hsent.append (List.Sublist.refl _)

omit [HttpLibrary] in
/-- Sending a message keeps a pass sound. -/
lemma sound_send (hnow : 0 ≤ pass.now) (hword : pass.now / 300 < 2 ^ 32)
    (hconcurrent : pass.Concurrent) {state : PassState} (h : state.Sound pass.now)
    (tenantId : String) (count : ℕ) (message : WatchClaimMessage) :
    (pass.send tenantId count message state).1.Sound pass.now := by
  have hothers := h.applyAll hnow hword (hconcurrent tenantId count).2
  rw [send]
  cases pass.environment.sent tenantId count with
  | error e => exact hothers
  | ok u => exact ⟨hothers.wellFormed, hothers.nodup, hothers.past, hothers.held⟩

/-- Claiming for a tenant keeps a pass sound, and its messages in the order of the claims. -/
lemma sound_enqueueDueWatches (hnow : 0 ≤ pass.now) (hword : pass.now / 300 < 2 ^ 32)
    (hconcurrent : pass.Concurrent) (tenantId : String) (remaining : ℕ) :
    ∀ (count : ℕ) (state : PassState), state.Sound pass.now → Tracked state →
      (enqueueDueWatches pass.surroundings tenantId remaining count state).1.Sound pass.now ∧
        Tracked (enqueueDueWatches pass.surroundings tenantId remaining count state).1 := by
  induction remaining with
  | zero => exact fun _ _ h htracked => ⟨h, htracked⟩
  | succ remaining ih =>
    intro count state h htracked
    obtain ⟨hclaim, hsent, hclaimed⟩ := sound_claim hnow hword hconcurrent h tenantId count
    rw [enqueueDueWatches]
    dsimp only [surroundings]
    rcases hresult : pass.claim tenantId count state with ⟨state', e | found⟩
    · rw [hresult] at hclaim hsent hclaimed
      dsimp only at hclaim hsent hclaimed
      exact ⟨hclaim, by rw [Tracked, hsent, hclaimed]; exact htracked⟩
    · rw [hresult] at hclaim hsent hclaimed
      cases found with
      | none =>
        dsimp only at hclaim hsent hclaimed
        exact ⟨hclaim, by rw [Tracked, hsent, hclaimed]; exact htracked⟩
      | some claimed =>
        dsimp only at hclaim hsent hclaimed
        obtain ⟨incarnation, hlast⟩ := hclaimed
        have hsound := sound_send hnow hword hconcurrent hclaim tenantId count (.ofClaimed claimed)
        have htracked' : Tracked (pass.send tenantId count (.ofClaimed claimed) state').1 :=
          tracked_send hlast (by rw [hsent]; exact htracked)
        dsimp only
        rcases hsend : pass.send tenantId count (.ofClaimed claimed) state' with ⟨state'', e | u⟩
        · rw [hsend] at hsound htracked'
          exact ⟨hsound, htracked'⟩
        · rw [hsend] at hsound htracked'
          exact ih (count + 1) state'' hsound htracked'

/-- Claiming for the tenants keeps a pass sound, and its messages in the order of the claims. -/
lemma sound_enqueueDueWatchesForTenants (hnow : 0 ≤ pass.now) (hword : pass.now / 300 < 2 ^ 32)
    (hconcurrent : pass.Concurrent) (limit : ℕ) (order : List String) :
    ∀ (total : ℕ) (state : PassState), state.Sound pass.now → Tracked state →
      (enqueueDueWatchesForTenants pass.surroundings limit total order state).1.Sound pass.now ∧
        Tracked (enqueueDueWatchesForTenants pass.surroundings limit total order state).1 := by
  induction order with
  | nil => exact fun _ _ h htracked => ⟨h, htracked⟩
  | cons tenantId rest ih =>
    intro total state h htracked
    obtain ⟨hsound, htracked'⟩ := sound_enqueueDueWatches hnow hword hconcurrent tenantId
      (limit - total) 0 state h htracked
    rw [enqueueDueWatchesForTenants]
    split
    · exact ⟨h, htracked⟩
    · dsimp only
      split
      · exact ⟨hsound, htracked'⟩
      · exact ih _ _ hsound htracked'

end ClaimPass

/-! ## The budget -/

section Budget

variable {σ : Type} (surroundings : Surroundings σ)

/-- A turn sends no more messages than it may. -/
lemma length_enqueueDueWatches_le (tenantId : String) (remaining : ℕ) :
    ∀ (count : ℕ) (s : σ),
      (enqueueDueWatches surroundings tenantId remaining count s).2.enqueued.length ≤ remaining := by
  induction remaining with
  | zero => exact fun _ _ => le_rfl
  | succ remaining ih =>
    intro count s
    rw [enqueueDueWatches]
    split
    · exact Nat.zero_le _
    · exact Nat.zero_le _
    · next s' claimed hclaim =>
      dsimp only
      split
      · exact Nat.zero_le _
      · next s'' hsend =>
        rw [List.length_cons]
        exact Nat.succ_le_succ (ih (count + 1) s'')

/-- The turns together send no more messages than the budget allows. -/
lemma length_enqueueDueWatchesForTenants_le (limit : ℕ) (order : List String) :
    ∀ (total : ℕ) (s : σ), total ≤ limit →
      total + ((enqueueDueWatchesForTenants surroundings limit total order s).2.flatMap
        fun entry => entry.2.enqueued).length ≤ limit := by
  induction order with
  | nil => exact fun total s h => by simpa [enqueueDueWatchesForTenants] using h
  | cons tenantId rest ih =>
    intro total s htotal
    have hturn := length_enqueueDueWatches_le surroundings tenantId (limit - total) 0 s
    rw [enqueueDueWatchesForTenants]
    split
    · simpa using htotal
    · dsimp only
      split
      · simp only [List.flatMap_cons, List.flatMap_nil, List.append_nil]
        omega
      · have hrest := ih (total + (enqueueDueWatches surroundings tenantId (limit - total) 0
          s).2.enqueued.length) (enqueueDueWatches surroundings tenantId (limit - total) 0 s).1
          (by omega)
        simp only [List.flatMap_cons, List.length_append]
        omega

/-- The first tenant has the whole budget. -/
lemma head?_enqueueDueWatchesForTenants {limit : ℕ} (hlimit : 0 < limit) (order : List String)
    (s : σ) : (enqueueDueWatchesForTenants surroundings limit 0 order s).2.head? =
      order.head?.map fun tenantId =>
        (tenantId, (enqueueDueWatches surroundings tenantId limit 0 s).2) := by
  cases order with
  | nil => rfl
  | cons tenantId rest =>
    rw [enqueueDueWatchesForTenants, if_neg (by omega)]
    dsimp only
    split <;> rfl

end Budget

/-! ## Fairness -/

namespace ClaimPass

variable [HttpLibrary] [ExternalParsers] (pass : ClaimPass)

omit [HttpLibrary] in
/-- The message that is sent is kept with what was sent before. -/
lemma sent_send (tenantId : String) (count : ℕ) (message : WatchClaimMessage) (state : PassState) :
    (pass.send tenantId count message state).1.sent.map Prod.fst = state.sent.map Prod.fst ++
      match (pass.send tenantId count message state).2 with
      | .ok () => [message]
      | .error _ => [] := by
  obtain ⟨-, hsent⟩ := state.applyAll_claimed (pass.between tenantId count)
  rw [send]
  cases pass.environment.sent tenantId count with
  | error e => simp [hsent]
  | ok u => simp [hsent]

omit [HttpLibrary] in
/-- A claim sends no message. -/
lemma sent_claim (tenantId : String) (count : ℕ) (state : PassState) :
    (pass.claim tenantId count state).1.sent = state.sent := by
  obtain ⟨-, hsent⟩ := state.applyAll_claimed (pass.before tenantId count)
  rw [claim]
  rcases pass.environment.claim .d1 tenantId count
    (state.applyAll (pass.before tenantId count)).db with ⟨db, e | found⟩
  · exact hsent
  · cases found with
    | none => exact hsent
    | some claimed => exact hsent

/-- The messages of a turn are sent. -/
lemma sent_enqueueDueWatches (tenantId : String) (remaining : ℕ) :
    ∀ (count : ℕ) (state : PassState),
      (enqueueDueWatches pass.surroundings tenantId remaining count state).1.sent.map Prod.fst =
        state.sent.map Prod.fst ++
          (enqueueDueWatches pass.surroundings tenantId remaining count state).2.enqueued := by
  induction remaining with
  | zero => exact fun _ _ => by simp [enqueueDueWatches, TenantTurn.idle]
  | succ remaining ih =>
    intro count state
    have hclaim := pass.sent_claim tenantId count state
    have hclaims : pass.surroundings.claim = pass.claim := rfl
    have hsends : pass.surroundings.send = pass.send := rfl
    rw [enqueueDueWatches, hclaims, hsends]
    rcases hresult : pass.claim tenantId count state with ⟨state', e | found⟩
    · rw [hresult] at hclaim
      simpa using congrArg (List.map Prod.fst) hclaim
    · rw [hresult] at hclaim
      cases found with
      | none => simpa [TenantTurn.idle] using congrArg (List.map Prod.fst) hclaim
      | some claimed =>
        have hsend := pass.sent_send tenantId count (.ofClaimed claimed) state'
        dsimp only at hclaim ⊢
        rcases hresult' : pass.send tenantId count (.ofClaimed claimed) state' with ⟨state'', e | u⟩
        · rw [hresult', hclaim] at hsend
          simpa using hsend
        · rw [hresult', hclaim] at hsend
          dsimp only at hsend ⊢
          rw [ih (count + 1) state'', hsend, List.append_assoc]
          rfl

/-- The messages of the turns are sent. -/
lemma sent_enqueueDueWatchesForTenants (limit : ℕ) (order : List String) :
    ∀ (total : ℕ) (state : PassState),
      (enqueueDueWatchesForTenants pass.surroundings limit total order state).1.sent.map Prod.fst =
        state.sent.map Prod.fst ++ (enqueueDueWatchesForTenants pass.surroundings limit total order
          state).2.flatMap fun entry => entry.2.enqueued := by
  induction order with
  | nil => exact fun _ _ => by simp [enqueueDueWatchesForTenants]
  | cons tenantId rest ih =>
    intro total state
    have hturn := pass.sent_enqueueDueWatches tenantId (limit - total) 0 state
    rw [enqueueDueWatchesForTenants]
    split
    · simp
    · dsimp only
      split
      · simpa using hturn
      · rw [ih, hturn, List.flatMap_cons, List.append_assoc]

end ClaimPass

/-- **The rotation of the tenants is fair, and a pass keeps to its budget.** In each window as many
tenants as there are, up to the limit, have their turn; over as many windows as there are tenants
each has as many turns as a window has, and is the first once. A pass sends no more messages than it
may, leaves the whole limit to the first tenant, and sends at most one message for an incarnation of
a watch as long as completions finish at its instant or later.

**Proof sketch.** The places of a tenant over the windows are those of a rotation. A claimed watch
is held at the instant of the pass until it ceases to be (`HeldAt.step`), so a later claim of the
pass takes another watch, or a later incarnation. -/
theorem tenant_rotation_fair [HttpLibrary] [ExternalParsers] :
    (∀ (word limit : ℕ) (tenants : List String) (now : ℤ), tenants ≠ [] → tenants.Nodup →
      1 ≤ limit → 0 ≤ now → now / 300 < word →
        (scheduledTenantsOn word tenants now limit).length = min limit tenants.length ∧
        (scheduledTenantsOn word tenants now limit).Nodup ∧
        ∀ tenant ∈ scheduledTenantsOn word tenants now limit, tenant ∈ tenants) ∧
    (∀ (word limit first : ℕ) (tenants : List String) (times : ℕ → ℤ), tenants.Nodup → 1 ≤ limit →
      (∀ k < tenants.length, times k / 300 = first + k ∧ first + k < word) →
        ∀ tenant ∈ tenants,
          ((Finset.range tenants.length).filter fun k =>
            tenant ∈ scheduledTenantsOn word tenants (times k) limit).card =
              min limit tenants.length ∧
          ((Finset.range tenants.length).filter fun k =>
            (scheduledTenantsOn word tenants (times k) limit).head? = some tenant).card = 1) ∧
    ∀ (pass : ClaimPass) (ops : List StoreOp), 1 ≤ pass.claimLimit → 0 ≤ pass.now →
      pass.now / 300 < 2 ^ 32 →
        let db := Adapter.d1.store.run ops
        let run := pass.run db
        run.1.sent.map Prod.fst = (run.2.flatMap fun entry => entry.2.enqueued) ∧
        run.1.sent.length ≤ pass.claimLimit ∧
        run.2.head? = pass.order.head?.map (fun tenantId => (tenantId,
          (enqueueDueWatches pass.surroundings tenantId pass.claimLimit 0 ⟨db, [], [], []⟩).2)) ∧
        (pass.Concurrent → (run.1.sent.map fun entry =>
          ((entry.1.tenantId, entry.1.watchId), entry.2)).Nodup) := by
  refine ⟨?_, ?_, ?_⟩
  · intro word limit tenants now _ htenants _ _ _
    refine ⟨length_scheduledTenantsOn word tenants now limit,
      nodup_scheduledTenantsOn htenants word now limit, fun tenant htenant => ?_⟩
    exact List.mem_rotate.mp (List.mem_of_mem_take htenant)
  · intro word limit first tenants times htenants hlimit htimes tenant htenant
    exact card_scheduledTenantsOn htenants hlimit htimes htenant
  · intro pass ops hlimit hnow hword
    have hsent := pass.sent_enqueueDueWatchesForTenants pass.claimLimit pass.order 0
      ⟨Adapter.d1.store.run ops, [], [], []⟩
    have hbudget := length_enqueueDueWatchesForTenants_le pass.surroundings pass.claimLimit
      pass.order 0 ⟨Adapter.d1.store.run ops, [], [], []⟩ (Nat.zero_le _)
    rw [List.map_nil, List.nil_append] at hsent
    refine ⟨hsent, ?_, head?_enqueueDueWatchesForTenants _ hlimit _ _, ?_⟩
    · have hlength := congrArg List.length hsent
      rw [List.length_map] at hlength
      rw [Nat.zero_add, ← hlength] at hbudget
      exact hbudget
    · intro hconcurrent
      have hinit : (⟨Adapter.d1.store.run ops, [], [], []⟩ : PassState).Sound pass.now :=
        ⟨Adapter.d1.wellFormed_run ops, List.nodup_nil, by simp, by simp⟩
      obtain ⟨hsound, htracked⟩ := ClaimPass.sound_enqueueDueWatchesForTenants hnow hword
        hconcurrent pass.claimLimit pass.order 0 _ hinit (List.Sublist.refl _)
      exact hsound.nodup.sublist htracked

/-- A pass for two tenants, during which the watch that was claimed is deleted and created again. -/
def recreatedPass : ClaimPass where
  environment := { silentForFirst with claimFault := fun _ _ => none }
  tenantIds := ["a", "b"]
  before tenantId count := if tenantId = "b" ∧ count = 1 then .deleteWatch ⟨"b", "w"⟩ :: dueForSecond
    else []
  between _ _ := [.completeWatchRun ⟨"b", "w", "r", "cloud:10:0:0", 10, [], .obj [], none, none⟩]

/-- Three tenants in rotation, and a pass that meets two incarnations of a watch. -/
theorem tenant_rotation_fair_recreated :
    letI : ExternalParsers := .ofHost "example.com"
    letI : HttpLibrary := .ofHost "example.com"
    (scheduledTenantsOn (2 ^ 32) ["a", "b", "c"] 300 2).length = min 2 3 ∧
      ((Finset.range 3).filter fun k =>
        "b" ∈ scheduledTenantsOn (2 ^ 32) ["a", "b", "c"] (300 * (k : ℕ)) 2).card = min 2 3 ∧
      ((recreatedPass.run (Adapter.d1.store.run dueForSecond)).1.sent.map fun entry =>
        ((entry.1.tenantId, entry.1.watchId), entry.2)).Nodup := by
  let _ : ExternalParsers := .ofHost "example.com"
  let _ : HttpLibrary := .ofHost "example.com"
  obtain ⟨hrotation, hfair, hpass⟩ := tenant_rotation_fair
  have hconcurrent : recreatedPass.Concurrent := by
    intro tenantId count
    constructor
    · intro op hop
      dsimp only [recreatedPass] at hop
      split at hop
      · simp only [dueForSecond, List.mem_cons, List.not_mem_nil, or_false] at hop
        rcases hop with rfl | rfl <;> trivial
      · cases hop
    · intro op hop
      obtain rfl := List.mem_singleton.mp hop
      exact show (10 : ℤ) ≤ 10 from le_rfl
  have hrun := hpass recreatedPass dueForSecond (by decide) (by decide) (by decide)
  have hdistinct := hrun.2.2.2 hconcurrent
  refine ⟨(hrotation (2 ^ 32) 2 ["a", "b", "c"] 300 (by decide) (by decide) (by decide) (by decide)
    (by decide)).1, ?_, hdistinct⟩
  · exact (hfair (2 ^ 32) 2 0 ["a", "b", "c"] (fun k => 300 * k) (by decide) (by decide)
      (fun k hk => ⟨by omega, by simp only [List.length_cons, List.length_nil] at hk; omega⟩) "b"
      (by decide)).1

end Comsat
