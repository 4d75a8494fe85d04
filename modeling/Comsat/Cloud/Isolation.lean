import Comsat.Cloud.Scheduled

set_option relaxedAutoImplicit false
set_option autoImplicit false

/-!
# Isolation of the tenants of an invocation

An invocation serves many tenants. It isolates them if what it does for a tenant does not depend
on the failures of the others; it does so exactly when no failure cuts anything off.

## Main definitions

* `ScheduledInvocation.Spared` — surroundings in which only one tenant meets its failures.
* `ScheduledInvocation.Isolated` — every tenant is served as when it is spared.
* `ScheduledInvocation.NothingCutOff` — what is left out after a failure would have come to
  nothing.

## Main results

* `ScheduledInvocation.isolated_iff` — the tenants are isolated exactly when nothing is cut off.

## Design

* Failures reach the tenants that come later through the order of the rotation only, so the
  rounds are those of `SharedBudget`.
-/

namespace Comsat

/-! ## The turn of a tenant -/

namespace TenantAnswers

variable (answers : TenantAnswers)

/-- A watch is claimed and its message sent. -/
def Serves (count : ℕ) : Prop :=
  (∃ watch, answers.claim count = .ok (some watch)) ∧ answers.send count = .ok ()

/-- Claiming a watch or sending its message fails. -/
def Fails (count : ℕ) : Prop :=
  (∃ error, answers.claim count = .error error) ∨
    (∃ watch, answers.claim count = .ok (some watch)) ∧ ∃ error, answers.send count = .error error

/-- After so many watches there is none left. -/
def StopsAt (count : ℕ) : Prop :=
  (∀ k < count, answers.Serves k) ∧ answers.claim count = .ok none

/-- After so many watches an operation fails. -/
def FailsAt (count : ℕ) : Prop := (∀ k < count, answers.Serves k) ∧ answers.Fails count

/-- No operation fails. -/
structure Succeeds : Prop where
  claim : ∀ count, ∃ watch, answers.claim count = .ok watch
  send : ∀ count, answers.send count = .ok ()
  delivery : ∃ delivery, answers.delivery = .ok delivery

/-- The turn of a tenant that gets these answers. -/
def turn : ℕ → ℕ → TenantTurn
  | 0, _ => .idle
  | remaining + 1, count =>
    match answers.claim count with
    | .error error => ⟨[], [], some error⟩
    | .ok none => .idle
    | .ok (some claimed) =>
      match answers.send count with
      | .error error => ⟨[claimed], [], some error⟩
      | .ok () =>
        let rest := turn remaining (count + 1)
        ⟨claimed :: rest.claimed, WatchClaimMessage.ofClaimed claimed :: rest.enqueued, rest.error⟩

/-- A turn serves watches until the budget is used, no watch is left, or an operation fails. -/
lemma turn_cases (remaining count : ℕ) :
    ∃ n ≤ remaining, (∀ k < n, answers.Serves (count + k)) ∧
      (answers.turn remaining count).enqueued.length = n ∧
      ((answers.turn remaining count).error = none ∧
          (n = remaining ∨ answers.claim (count + n) = .ok none) ∨
        (answers.turn remaining count).error ≠ none ∧ n < remaining ∧ answers.Fails (count + n)) := by
  induction remaining generalizing count with
  | zero => exact ⟨0, le_rfl, by simp, rfl, .inl ⟨rfl, .inl rfl⟩⟩
  | succ remaining ih =>
    rw [turn]
    cases hclaim : answers.claim count with
    | error e =>
      exact ⟨0, Nat.zero_le _, by simp, rfl, .inr ⟨by simp, by omega, .inl ⟨e, hclaim⟩⟩⟩
    | ok found =>
      cases found with
      | none => exact ⟨0, Nat.zero_le _, by simp, rfl, .inl ⟨rfl, .inr hclaim⟩⟩
      | some watch =>
        cases hsend : answers.send count with
        | error e =>
          exact ⟨0, Nat.zero_le _, by simp, rfl,
            .inr ⟨by simp, by omega, .inr ⟨⟨watch, hclaim⟩, e, hsend⟩⟩⟩
        | ok u =>
          obtain ⟨n, hn, hserves, hlength, hrest⟩ := ih (count + 1)
          have hshift : count + 1 + n = count + (n + 1) := by omega
          rw [hshift] at hrest
          refine ⟨n + 1, by omega, fun k hk => ?_, by simpa using hlength, ?_⟩
          · cases k with
            | zero => exact ⟨⟨watch, hclaim⟩, hsend⟩
            | succ k =>
              rw [show count + (k + 1) = count + 1 + k by omega]
              exact hserves k (by omega)
          · rcases hrest with ⟨herror, hend⟩ | ⟨herror, hlt, hfails⟩
            · exact .inl ⟨herror, hend.imp (congrArg (· + 1)) id⟩
            · exact .inr ⟨herror, by omega, hfails⟩

variable {answers} {n m budget : ℕ}

/-- Where a watch is served, watches have not run out. -/
lemma Serves.ne_none (h : answers.Serves n) : answers.claim n ≠ .ok none := by
  obtain ⟨⟨watch, hwatch⟩, -⟩ := h
  simp [hwatch]

/-- Where a watch is served, nothing fails. -/
lemma Serves.not_fails (h : answers.Serves n) : ¬answers.Fails n := by
  obtain ⟨⟨watch, hwatch⟩, hsend⟩ := h
  rintro (⟨e, he⟩ | ⟨-, e, he⟩)
  · simp [hwatch] at he
  · simp [hsend] at he

/-- Where watches have run out, nothing fails. -/
lemma not_fails_of_none (h : answers.claim n = .ok none) : ¬answers.Fails n := by
  rintro (⟨e, he⟩ | ⟨⟨watch, hwatch⟩, -⟩)
  · simp [h] at he
  · simp [h] at hwatch

/-- A turn enqueues no more than its budget. -/
lemma length_turn_le (answers : TenantAnswers) (budget count : ℕ) :
    (answers.turn budget count).enqueued.length ≤ budget := by
  obtain ⟨n, hn, -, hlength, -⟩ := answers.turn_cases budget count
  omega

/-- The turn of a tenant that runs out of watches within its budget. -/
lemma StopsAt.turn (h : answers.StopsAt n) (hn : n ≤ budget) :
    (answers.turn budget 0).enqueued.length = n ∧ (answers.turn budget 0).error = none := by
  obtain ⟨m, hm, hserves, hlength, hend⟩ := answers.turn_cases budget 0
  simp only [Nat.zero_add] at hserves hend
  rcases Nat.lt_trichotomy m n with hlt | rfl | hlt
  · rcases hend with ⟨-, rfl | hnone⟩ | ⟨-, -, hfails⟩
    · omega
    · exact absurd hnone (h.1 m hlt).ne_none
    · exact absurd hfails (h.1 m hlt).not_fails
  · rcases hend with ⟨herror, -⟩ | ⟨-, -, hfails⟩
    · exact ⟨hlength, herror⟩
    · exact absurd hfails (not_fails_of_none h.2)
  · exact absurd h.2 (hserves n hlt).ne_none

/-- The turn of a tenant that fails within its budget. -/
lemma FailsAt.turn (h : answers.FailsAt n) (hn : n < budget) :
    (answers.turn budget 0).enqueued.length = n ∧ (answers.turn budget 0).error ≠ none := by
  obtain ⟨m, hm, hserves, hlength, hend⟩ := answers.turn_cases budget 0
  simp only [Nat.zero_add] at hserves hend
  rcases Nat.lt_trichotomy m n with hlt | rfl | hlt
  · rcases hend with ⟨-, rfl | hnone⟩ | ⟨-, -, hfails⟩
    · omega
    · exact absurd hnone (h.1 m hlt).ne_none
    · exact absurd hfails (h.1 m hlt).not_fails
  · rcases hend with ⟨-, rfl | hnone⟩ | ⟨herror, -, -⟩
    · omega
    · exact absurd h.2 (not_fails_of_none hnone)
    · exact ⟨hlength, herror⟩
  · exact absurd h.2 (hserves n hlt).not_fails

/-- A turn fails where the tenant does. -/
lemma failsAt_of_turn (h : (answers.turn budget 0).error ≠ none) :
    ∃ n < budget, answers.FailsAt n := by
  obtain ⟨n, -, hserves, -, ⟨herror, -⟩ | ⟨-, hlt, hfails⟩⟩ := answers.turn_cases budget 0
  · exact absurd herror h
  · simp only [Nat.zero_add] at hserves hfails
    exact ⟨n, hlt, hserves, hfails⟩

/-- A turn that does not fail and leaves some of the budget has run out of watches. -/
lemma stopsAt_of_turn (h : (answers.turn budget 0).error = none)
    (hlt : (answers.turn budget 0).enqueued.length < budget) :
    answers.StopsAt (answers.turn budget 0).enqueued.length := by
  obtain ⟨n, -, hserves, hlength, ⟨-, hend⟩ | ⟨herror, -⟩⟩ := answers.turn_cases budget 0
  · simp only [Nat.zero_add] at hserves hend
    rw [hlength]
    exact ⟨hserves, hend.resolve_left (by omega)⟩
  · exact absurd h herror

/-- Nothing is claimed in a turn when there is no watch at first. -/
lemma turn_eq_of_not_some (h : ∀ watch, answers.claim 0 ≠ .ok (some watch)) (budget : ℕ) :
    (answers.turn budget 0).claimed = [] ∧ (answers.turn budget 0).enqueued = [] := by
  cases budget with
  | zero => exact ⟨rfl, rfl⟩
  | succ budget =>
    rw [TenantAnswers.turn]
    cases hclaim : answers.claim 0 with
    | error e => exact ⟨rfl, rfl⟩
    | ok found =>
      cases found with
      | none => exact ⟨rfl, rfl⟩
      | some watch => exact absurd hclaim (h watch)

/-- A watch is claimed in a turn when there is one at first. -/
lemma claimed_turn_ne_nil {watch : ClaimedWatch} (h : answers.claim 0 = .ok (some watch))
    (hbudget : 0 < budget) : (answers.turn budget 0).claimed ≠ [] := by
  obtain ⟨budget, rfl⟩ := Nat.exists_eq_succ_of_ne_zero hbudget.ne'
  rw [TenantAnswers.turn, h]
  cases answers.send 0 with
  | error e => simp
  | ok u => simp

/-- A tenant without failures has a turn without one. -/
lemma Succeeds.error_turn (h : answers.Succeeds) (budget : ℕ) :
    (answers.turn budget 0).error = none := by
  by_contra herror
  obtain ⟨n, -, -, ⟨e, he⟩ | ⟨-, e, he⟩⟩ := failsAt_of_turn herror
  · obtain ⟨watch, hwatch⟩ := h.claim n
    simp [hwatch] at he
  · simp [h.send n] at he

end TenantAnswers


/-! ## The rounds -/

section

variable {answers : String → TenantAnswers}

/-- Claiming for a tenant is its turn. -/
lemma enqueueDueWatches_ofAnswers (tenantId : String) (remaining count : ℕ) :
    enqueueDueWatches (.ofAnswers answers) tenantId remaining count () =
      ((), (answers tenantId).turn remaining count) := by
  induction remaining generalizing count with
  | zero => rfl
  | succ remaining ih =>
    rw [enqueueDueWatches, TenantAnswers.turn]
    simp only [Surroundings.ofAnswers]
    cases (answers tenantId).claim count with
    | error e => rfl
    | ok found =>
      cases found with
      | none => rfl
      | some watch =>
        dsimp only
        cases (answers tenantId).send count with
        | error e => rfl
        | ok u =>
          have ih' := ih (count + 1)
          simp only [Surroundings.ofAnswers] at ih'
          simp only [ih']

/-- Claiming for the tenants is a round on the budget. -/
lemma enqueueDueWatchesForTenants_ofAnswers (limit total : ℕ) (order : List String) :
    enqueueDueWatchesForTenants (.ofAnswers answers) limit total order () =
      ((), SharedBudget.serve (fun tenantId budget => (answers tenantId).turn budget 0) limit total
        order) := by
  induction order generalizing total with
  | nil => rfl
  | cons tenantId rest ih =>
    rw [enqueueDueWatchesForTenants, SharedBudget.serve]
    split
    · rfl
    · rw [enqueueDueWatches_ofAnswers]
      simp only [SharedBudget.Outcome.failed, SharedBudget.Outcome.used]
      cases herror : ((answers tenantId).turn (limit - total) 0).error with
      | some e => simp
      | none => simp [ih]

/-- A delivery is tried when those before it have not failed. -/
lemma mem_deliverScheduled_iff {tenantId : String} {result : StoreResult (Option Delivery)}
    (order : List String) :
    (tenantId, result) ∈ (deliverScheduled (.ofAnswers answers) order ()).2 ↔
      result = (answers tenantId).delivery ∧ ∃ before after, order = before ++ tenantId :: after ∧
        ∀ other ∈ before, ∃ delivery, (answers other).delivery = .ok delivery := by
  induction order with
  | nil => simp [deliverScheduled]
  | cons head tail ih =>
    rw [deliverScheduled]
    simp only [Surroundings.ofAnswers] at ih ⊢
    cases hhead : (answers head).delivery with
    | error e =>
      simp only [List.mem_singleton, Prod.mk.injEq]
      constructor
      · rintro ⟨rfl, rfl⟩
        exact ⟨hhead.symm, [], tail, rfl, by simp⟩
      · rintro ⟨rfl, before, after, hsplit, hbefore⟩
        cases before with
        | nil =>
          obtain ⟨rfl, -⟩ := List.cons.inj hsplit
          exact ⟨rfl, hhead⟩
        | cons b before =>
          obtain ⟨rfl, -⟩ := List.cons.inj hsplit
          obtain ⟨delivery, hdelivery⟩ := hbefore head (List.mem_cons_self ..)
          simp [hhead] at hdelivery
    | ok delivery =>
      simp only [List.mem_cons, Prod.mk.injEq, ih]
      constructor
      · rintro (⟨rfl, rfl⟩ | ⟨rfl, before, after, rfl, hbefore⟩)
        · exact ⟨hhead.symm, [], tail, rfl, by simp⟩
        · refine ⟨rfl, head :: before, after, rfl, fun other hother => ?_⟩
          rcases List.mem_cons.mp hother with rfl | hother
          · exact ⟨delivery, hhead⟩
          · exact hbefore other hother
      · rintro ⟨rfl, before, after, hsplit, hbefore⟩
        cases before with
        | nil =>
          obtain ⟨rfl, -⟩ := List.cons.inj hsplit
          exact .inl ⟨rfl, hhead⟩
        | cons b before =>
          obtain ⟨rfl, rfl⟩ := List.cons.inj hsplit
          exact .inr ⟨rfl, before, after, rfl,
            fun other hother => hbefore other (List.mem_cons_of_mem _ hother)⟩

/-- Tenants that have their turns one after another, with no failure and budget to spare, and how
many watches they enqueue. -/
def Stop (answers : String → TenantAnswers) : List String → ℕ → Prop
  | [], total => total = 0
  | tenantId :: rest, total =>
    ∃ count remaining, (answers tenantId).StopsAt count ∧ Stop answers rest remaining ∧
      total = count + remaining

/-- What is used after some turns is what the tenants have enqueued in them. -/
lemma passed_eq_some_iff {limit : ℕ} {before : List String} {total total' : ℕ}
    (hlt : total' < limit) :
    SharedBudget.passed (fun tenantId budget => (answers tenantId).turn budget 0) limit total before =
        some total' ↔ ∃ count, Stop answers before count ∧ total' = total + count := by
  induction before generalizing total with
  | nil =>
    simp only [SharedBudget.passed, Stop, Option.some.injEq]
    constructor
    · rintro rfl
      exact ⟨0, rfl, rfl⟩
    · rintro ⟨-, rfl, rfl⟩
      rfl
  | cons head tail ih =>
    rw [SharedBudget.passed]
    by_cases htotal : limit ≤ total
    · rw [if_pos htotal]
      refine ⟨by simp, ?_⟩
      rintro ⟨count, -, rfl⟩
      omega
    · simp only [if_neg htotal, SharedBudget.Outcome.failed, SharedBudget.Outcome.used]
      cases herror : ((answers head).turn (limit - total) 0).error with
      | some e =>
        simp only [Option.isSome_some, if_true]
        refine ⟨by simp, ?_⟩
        rintro ⟨-, ⟨count, remaining, hstops, -, rfl⟩, rfl⟩
        have hle : count ≤ limit - total := by omega
        have hnone := (hstops.turn hle).2
        rw [herror] at hnone
        cases hnone
      | none =>
        simp only [Option.isSome_none, Bool.false_eq_true, if_false, ih]
        constructor
        · rintro ⟨remaining, hrest, rfl⟩
          exact ⟨_, ⟨_, remaining, TenantAnswers.stopsAt_of_turn herror (by omega), hrest, rfl⟩,
            by omega⟩
        · rintro ⟨-, ⟨count, remaining, hstops, hrest, rfl⟩, rfl⟩
          have hle : count ≤ limit - total := by omega
          rw [(hstops.turn hle).1]
          exact ⟨remaining, hrest, by omega⟩

end

/-! ## Isolation -/

namespace ScheduledInvocation

variable (invocation : ScheduledInvocation) (answers : String → TenantAnswers)

/-- What an invocation does when it gets some answers. -/
def run : ScheduledRun := (scheduled invocation (.ofAnswers answers) ()).2

/-- Surroundings that spare a tenant the failures of the others: they answer it as before, all
operations of the other tenants succeed, and as many messages are enqueued for each of them. -/
structure Spared (tenantId : String) (answers' : String → TenantAnswers) : Prop where
  same : answers' tenantId = answers tenantId
  succeeds : ∀ other, other ≠ tenantId → (answers' other).Succeeds
  counts : ∀ other, other ≠ tenantId →
    ((invocation.run answers').turnOf other).enqueued.length =
      ((invocation.run answers).turnOf other).enqueued.length

/-- The tenants are isolated: for each of them the same watches are claimed and enqueued as when
it is spared, and a delivery is attempted if one is then. -/
def Isolated : Prop :=
  ∀ tenantId answers', invocation.Spared answers tenantId answers' →
    ((invocation.run answers).turnOf tenantId).claimed =
        ((invocation.run answers').turnOf tenantId).claimed ∧
      ((invocation.run answers).turnOf tenantId).enqueued =
        ((invocation.run answers').turnOf tenantId).enqueued ∧
      ((invocation.run answers).Attempted tenantId ↔ (invocation.run answers').Attempted tenantId)

/-- Claiming breaks off: after the turns of some tenants there is budget left when an operation of
the next one fails. -/
structure BreaksOff (before : List String) (first : String) (after : List String)
    (total count : ℕ) : Prop where
  order : invocation.claimOrder = before ++ first :: after
  stop : Stop answers before total
  fails : (answers first).FailsAt count
  budget : total + count < invocation.claimLimit

/-- A failure cuts nothing off. -/
structure NothingCutOff : Prop where
  /-- When claiming breaks off, the tenants whose turn has not come have no due watch. -/
  claims : ∀ before first after total count,
    invocation.BreaksOff answers before first after total count →
      ∀ tenantId ∈ after, ∀ watch, (answers tenantId).claim 0 ≠ .ok (some watch)
  /-- Then nobody else has a delivery waiting, unless its own claim would have failed as well. -/
  deliveries : ∀ before first after total count,
    invocation.BreaksOff answers before first after total count →
      ∀ tenantId ∈ invocation.deliveryOrder, tenantId ≠ first →
        (answers tenantId).delivery ≠ .ok none →
          tenantId ∈ after ∧ ∃ error, (answers tenantId).claim 0 = .error error
  /-- Otherwise nobody has a delivery waiting after one that fails. -/
  failures : (∀ before first after total count,
      ¬invocation.BreaksOff answers before first after total count) →
    ∀ before first after, invocation.deliveryOrder = before ++ first :: after →
      (∃ error, (answers first).delivery = .error error) →
        ∀ tenantId ∈ after, (answers tenantId).delivery = .ok none

variable {invocation answers} {answers' : String → TenantAnswers} {tenantId : String}

/-- The turns of an invocation are a round on its budget. -/
lemma turns_run (invocation : ScheduledInvocation) (answers : String → TenantAnswers) :
    (invocation.run answers).turns =
      SharedBudget.serve (fun tenantId budget => (answers tenantId).turn budget 0)
        invocation.claimLimit 0 invocation.claimOrder := by
  rw [run, scheduled, enqueueDueWatchesForTenants_ofAnswers]
  dsimp only
  split <;> rfl

/-- A round leaves tenants out exactly when claiming breaks off. -/
lemma leftOut_eq_some_iff {first : String} {budget : ℕ} {after : List String} :
    SharedBudget.leftOut (fun tenantId budget => (answers tenantId).turn budget 0)
        invocation.claimLimit 0 invocation.claimOrder = some (first, budget, after) ↔
      ∃ before total count, invocation.BreaksOff answers before first after total count ∧
        budget = invocation.claimLimit - (total + count) := by
  rw [SharedBudget.leftOut_eq_some_iff]
  constructor
  · rintro ⟨before, total, horder, hpassed, hlt, hfailed, rfl⟩
    obtain ⟨total, hstop, rfl⟩ := (passed_eq_some_iff hlt).mp hpassed
    rw [Nat.zero_add] at hlt hfailed ⊢
    obtain ⟨count, hcount, hfails⟩ :=
      TenantAnswers.failsAt_of_turn (Option.isSome_iff_ne_none.mp hfailed)
    refine ⟨before, total, count, ⟨horder, hstop, hfails, by omega⟩, ?_⟩
    simp only [SharedBudget.Outcome.used]
    rw [(hfails.turn hcount).1]
  · rintro ⟨before, total, count, ⟨horder, hstop, hfails, hbudget⟩, rfl⟩
    have hcount : count < invocation.claimLimit - total := by omega
    refine ⟨before, total, horder,
      (passed_eq_some_iff (by omega)).mpr ⟨total, hstop, (Nat.zero_add _).symm⟩, by omega,
      Option.isSome_iff_ne_none.mpr (hfails.turn hcount).2, ?_⟩
    simp only [SharedBudget.Outcome.used]
    rw [(hfails.turn hcount).1]

/-- A turn fails exactly when claiming breaks off. -/
lemma any_failed_iff :
    ((invocation.run answers).turns.any fun entry => entry.2.error.isSome) = true ↔
      ∃ before first after total count,
        invocation.BreaksOff answers before first after total count := by
  rw [turns_run, List.any_eq_true]
  constructor
  · rintro ⟨⟨first, turn⟩, hmem, hfailed⟩
    obtain ⟨budget, after, hleft⟩ := SharedBudget.failed_serve_iff.mp ⟨turn, hmem, hfailed⟩
    obtain ⟨before, total, count, hbreaks, -⟩ := leftOut_eq_some_iff.mp hleft
    exact ⟨before, first, after, total, count, hbreaks⟩
  · rintro ⟨before, first, after, total, count, hbreaks⟩
    obtain ⟨turn, hmem, hfailed⟩ := SharedBudget.failed_serve_iff.mpr
      ⟨_, _, leftOut_eq_some_iff.mpr ⟨before, total, count, hbreaks, rfl⟩⟩
    exact ⟨(first, turn), hmem, hfailed⟩

/-- When claiming breaks off, no delivery is attempted. -/
lemma not_attempted_of_breaksOff {before after : List String} {first : String} {total count : ℕ}
    (h : invocation.BreaksOff answers before first after total count) :
    ¬(invocation.run answers).Attempted tenantId := by
  have hany := any_failed_iff.mpr ⟨before, first, after, total, count, h⟩
  rintro ⟨result, hmem, -⟩
  rw [turns_run] at hany
  rw [run, scheduled, enqueueDueWatchesForTenants_ofAnswers] at hmem
  simp [hany] at hmem

/-- When claiming does not break off, a delivery is attempted where the rotation comes to one
that waits. -/
lemma attempted_iff (h : ∀ before first after total count,
      ¬invocation.BreaksOff answers before first after total count) :
    (invocation.run answers).Attempted tenantId ↔
      (answers tenantId).delivery ≠ .ok none ∧
        ∃ before after, invocation.deliveryOrder = before ++ tenantId :: after ∧
          ∀ other ∈ before, ∃ delivery, (answers other).delivery = .ok delivery := by
  have hany : ¬((invocation.run answers).turns.any fun entry => entry.2.error.isSome) = true := by
    rw [any_failed_iff]
    rintro ⟨before, first, after, total, count, hbreaks⟩
    exact h before first after total count hbreaks
  rw [turns_run] at hany
  have hdeliveries : (invocation.run answers).deliveries =
      (deliverScheduled (.ofAnswers answers) invocation.deliveryOrder ()).2 := by
    rw [run, scheduled, enqueueDueWatchesForTenants_ofAnswers]
    dsimp only
    rw [if_neg hany]
  rw [ScheduledRun.Attempted, hdeliveries]
  simp only [mem_deliverScheduled_iff]
  constructor
  · rintro ⟨result, ⟨rfl, horder⟩, hresult⟩
    exact ⟨hresult, horder⟩
  · rintro ⟨hresult, horder⟩
    exact ⟨_, ⟨rfl, horder⟩, hresult⟩

/-- How many messages are enqueued for a tenant is what it has used of the budget. -/
lemma length_enqueued_turnOf (invocation : ScheduledInvocation) (answers : String → TenantAnswers)
    (tenantId : String) :
    ((invocation.run answers).turnOf tenantId).enqueued.length =
      SharedBudget.usedBy tenantId (invocation.run answers).turns := by
  rw [ScheduledRun.turnOf, SharedBudget.usedBy]
  cases SharedBudget.resultOf tenantId (invocation.run answers).turns <;> rfl

/-- A tenant that is spared has a turn in an undisturbed round. -/
lemma Spared.undisturbed (h : invocation.Spared answers tenantId answers') :
    SharedBudget.Undisturbed tenantId (fun other budget => (answers other).turn budget 0)
      (fun other budget => (answers' other).turn budget 0) invocation.claimLimit 0
      invocation.claimOrder where
  same := by rw [h.same]
  succeeds other hother budget := by
    rw [SharedBudget.Outcome.failed]
    exact Option.isSome_eq_false_iff.mpr
      (Option.isNone_iff_eq_none.mpr ((h.succeeds other hother).error_turn budget))
  counts other hother := by
    rw [← turns_run, ← turns_run, ← length_enqueued_turnOf, ← length_enqueued_turnOf]
    exact h.counts other hother

/-- The turn that a tenant has when it is spared. -/
lemma Spared.resultOf (h : invocation.Spared answers tenantId answers') :
    SharedBudget.resultOf tenantId (invocation.run answers').turns =
      (SharedBudget.share (fun other budget => (answers other).turn budget 0)
        invocation.claimLimit tenantId 0 invocation.claimOrder).map
          fun budget => (answers tenantId).turn budget 0 := by
  rw [turns_run]
  exact SharedBudget.resultOf_undisturbed invocation.claimOrder_nodup h.undisturbed

/-- A tenant whose turn comes before claiming breaks off has the same turn when it is spared. -/
lemma Spared.resultOf_eq (h : invocation.Spared answers tenantId answers')
    (hserved : ∀ before first after total count,
      invocation.BreaksOff answers before first after total count → tenantId ∉ after) :
    SharedBudget.resultOf tenantId (invocation.run answers').turns =
      SharedBudget.resultOf tenantId (invocation.run answers).turns := by
  rw [h.resultOf, turns_run]
  refine (SharedBudget.resultOf_of_served fun first budget rest hleft => ?_).symm
  obtain ⟨before, total, count, hbreaks, -⟩ := leftOut_eq_some_iff.mp hleft
  exact hserved before first rest total count hbreaks

/-- A tenant that is left out when claiming breaks off has no turn; when it is spared, it has one
with what is left of the budget. -/
lemma Spared.resultOf_after (h : invocation.Spared answers tenantId answers')
    {before after : List String} {first : String} {total count : ℕ}
    (hbreaks : invocation.BreaksOff answers before first after total count)
    (hmem : tenantId ∈ after) :
    SharedBudget.resultOf tenantId (invocation.run answers).turns = none ∧
      SharedBudget.resultOf tenantId (invocation.run answers').turns =
        some ((answers tenantId).turn (invocation.claimLimit - (total + count)) 0) := by
  obtain ⟨hnone, hshare⟩ := SharedBudget.resultOf_of_leftOut invocation.claimOrder_nodup
    (leftOut_eq_some_iff.mpr ⟨before, total, count, hbreaks, rfl⟩) hmem
  have hbudget := hbreaks.budget
  refine ⟨by rw [turns_run, hnone], ?_⟩
  rw [h.resultOf, hshare, if_pos (by omega)]
  rfl

/-- Claiming breaks off where the turn of a tenant fails. -/
lemma breaksOff_of_resultOf {turn : TenantTurn}
    (h : SharedBudget.resultOf tenantId (invocation.run answers).turns = some turn)
    (herror : turn.error ≠ none) :
    ∃ before after total count,
      invocation.BreaksOff answers before tenantId after total count := by
  have hmem : (tenantId, turn) ∈ (invocation.run answers).turns := SharedBudget.mem_of_resultOf h
  rw [turns_run] at hmem
  obtain ⟨budget, after, hleft⟩ :=
    SharedBudget.failed_serve_iff.mp ⟨turn, hmem, Option.isSome_iff_ne_none.mpr herror⟩
  obtain ⟨before, total, count, hbreaks, -⟩ := leftOut_eq_some_iff.mp hleft
  exact ⟨before, after, total, count, hbreaks⟩

/-- The tenant at which claiming breaks off has a turn that fails. -/
lemma BreaksOff.resultOf {before after : List String} {first : String} {total count : ℕ}
    (h : invocation.BreaksOff answers before first after total count) :
    ∃ turn, SharedBudget.resultOf first (invocation.run answers).turns = some turn ∧
      turn.error ≠ none := by
  obtain ⟨turn, hmem, hfailed⟩ := SharedBudget.failed_serve_iff.mpr
    ⟨_, _, leftOut_eq_some_iff.mpr ⟨before, total, count, h, rfl⟩⟩
  rw [turns_run]
  exact ⟨turn, SharedBudget.resultOf_of_mem invocation.claimOrder_nodup hmem,
    Option.isSome_iff_ne_none.mp hfailed⟩

/-- Claiming does not break off for a spared tenant whose turn does not fail. -/
lemma Spared.not_breaksOff (h : invocation.Spared answers tenantId answers')
    (hturn : ∀ turn, SharedBudget.resultOf tenantId (invocation.run answers').turns = some turn →
      turn.error = none) (before : List String) (first : String) (after : List String)
    (total count : ℕ) : ¬invocation.BreaksOff answers' before first after total count := by
  intro hbreaks
  by_cases hfirst : first = tenantId
  · subst hfirst
    obtain ⟨turn, hresult, herror⟩ := hbreaks.resultOf
    exact herror (hturn turn hresult)
  · exact hbreaks.fails.2.elim
      (fun ⟨e, he⟩ => by
        obtain ⟨watch, hwatch⟩ := (h.succeeds first hfirst).claim count
        simp [hwatch] at he)
      (fun ⟨_, e, he⟩ => by simp [(h.succeeds first hfirst).send count] at he)

/-- Where nothing is cut off, a tenant has the watches that it has when it is spared. -/
lemma NothingCutOff.turnOf (hnothing : invocation.NothingCutOff answers)
    (h : invocation.Spared answers tenantId answers') :
    ((invocation.run answers).turnOf tenantId).claimed =
        ((invocation.run answers').turnOf tenantId).claimed ∧
      ((invocation.run answers).turnOf tenantId).enqueued =
        ((invocation.run answers').turnOf tenantId).enqueued := by
  by_cases hserved : ∀ before first after total count,
      invocation.BreaksOff answers before first after total count → tenantId ∉ after
  · simp only [ScheduledRun.turnOf, h.resultOf_eq hserved, and_self]
  · push Not at hserved
    obtain ⟨before, first, after, total, count, hbreaks, hmem⟩ := hserved
    obtain ⟨hnone, hsome⟩ := h.resultOf_after hbreaks hmem
    obtain ⟨hclaimed, henqueued⟩ := TenantAnswers.turn_eq_of_not_some
      (hnothing.claims before first after total count hbreaks tenantId hmem)
      (invocation.claimLimit - (total + count))
    simp only [ScheduledRun.turnOf, hnone, hsome, Option.getD_none, Option.getD_some, hclaimed,
      henqueued]
    exact ⟨rfl, rfl⟩

/-- Where nothing is cut off, a delivery is attempted if one is when the tenant is spared. -/
lemma NothingCutOff.attempted_iff (hnothing : invocation.NothingCutOff answers)
    (h : invocation.Spared answers tenantId answers') :
    (invocation.run answers).Attempted tenantId ↔ (invocation.run answers').Attempted tenantId := by
  by_cases hbreaks : ∃ before first after total count,
      invocation.BreaksOff answers before first after total count
  · obtain ⟨before, first, after, total, count, hbreaks⟩ := hbreaks
    refine iff_of_false (not_attempted_of_breaksOff hbreaks) fun hattempted => ?_
    -- when the tenant is spared its own turn fails, or it has nothing to deliver
    have hfails : ∃ turn, SharedBudget.resultOf tenantId (invocation.run answers').turns = some turn ∧
        turn.error ≠ none := by
      by_cases hfirst : tenantId = first
      · subst hfirst
        obtain ⟨turn, hresult, herror⟩ := hbreaks.resultOf
        refine ⟨turn, ?_, herror⟩
        rw [h.resultOf_eq fun before' first' after' total' count' hbreaks' hmem => ?_]
        · exact hresult
        · rw [(h.resultOf_after hbreaks' hmem).1] at hresult
          cases hresult
      · by_contra hnever
        push Not at hnever
        obtain ⟨hdelivery, b, a, horder, -⟩ :=
          (ScheduledInvocation.attempted_iff (h.not_breaksOff hnever)).mp hattempted
        rw [h.same] at hdelivery
        obtain ⟨hmem, e, he⟩ := hnothing.deliveries before first after total count hbreaks tenantId
          (by rw [horder]; simp) hfirst hdelivery
        have hfailsAt : (answers tenantId).FailsAt 0 := ⟨by simp, .inl ⟨e, he⟩⟩
        have hbudget := hbreaks.budget
        exact (hfailsAt.turn (by omega)).2 (hnever _ (h.resultOf_after hbreaks hmem).2)
    obtain ⟨turn, hresult, herror⟩ := hfails
    obtain ⟨before', after', total', count', hbreaks'⟩ := breaksOff_of_resultOf hresult herror
    exact not_attempted_of_breaksOff hbreaks' hattempted
  · have hnever : ∀ before first after total count,
        ¬invocation.BreaksOff answers before first after total count :=
      fun before first after total count hb => hbreaks ⟨before, first, after, total, count, hb⟩
    have hturn : ∀ turn, SharedBudget.resultOf tenantId (invocation.run answers').turns = some turn →
        turn.error = none := by
      intro turn hresult
      by_contra herror
      rw [h.resultOf_eq fun before first after total count hb => absurd hb (hnever _ _ _ _ _)]
        at hresult
      obtain ⟨before, after, total, count, hb⟩ := breaksOff_of_resultOf hresult herror
      exact hnever _ _ _ _ _ hb
    rw [ScheduledInvocation.attempted_iff hnever,
      ScheduledInvocation.attempted_iff (h.not_breaksOff hturn), h.same]
    refine and_congr_right fun hdelivery => ?_
    constructor
    · rintro ⟨before, after, horder, -⟩
      refine ⟨before, after, horder, fun other hother => (h.succeeds other ?_).delivery⟩
      have hnodup := invocation.deliveryOrder_nodup
      rw [horder] at hnodup
      rintro rfl
      exact (List.disjoint_of_nodup_append hnodup) hother (List.mem_cons_self ..)
    · rintro ⟨before, after, horder, -⟩
      refine ⟨before, after, horder, fun other hother => ?_⟩
      cases hother' : (answers other).delivery with
      | ok delivery => exact ⟨delivery, rfl⟩
      | error e =>
        obtain ⟨b, a, rfl⟩ := List.append_of_mem hother
        refine absurd (hnothing.failures hnever b other (a ++ tenantId :: after) ?_ ⟨e, hother'⟩
          tenantId (by simp)) hdelivery
        simpa using horder

end ScheduledInvocation

/-! ## What failures cut off -/

/-- Some watch under a lease. -/
def ClaimedWatch.sample : ClaimedWatch where
  watch :=
    { tenantId := "tenant"
      watchId := "watch"
      query := ⟨"query", none, none, none⟩
      sourceIds := []
      intervalSeconds := 60
      cursor := .obj []
      enabled := true
      createdAtEpochSeconds := 0
      nextDueEpochSeconds := 0
      leaseOwner := some "owner"
      leaseExpiresEpochSeconds := some 60 }
  leaseOwner := "owner"
  leaseExpiresEpochSeconds := 60

/-- The answers to a tenant that has so many due watches and no delivery. -/
def TenantAnswers.serving (due : ℕ) : TenantAnswers where
  claim count := .ok (if count < due then some .sample else none)
  send _ := .ok ()
  delivery := .ok none

/-- Such a tenant meets no failure. -/
lemma TenantAnswers.serving_succeeds (due : ℕ) : (TenantAnswers.serving due).Succeeds where
  claim _ := ⟨_, rfl⟩
  send _ := rfl
  delivery := ⟨_, rfl⟩

/-- Such a tenant enqueues its watches as far as the budget goes. -/
lemma TenantAnswers.length_turn_serving (due budget count : ℕ) :
    ((TenantAnswers.serving due).turn budget count).enqueued.length = min (due - count) budget := by
  induction budget generalizing count with
  | zero => simp [TenantAnswers.turn, TenantTurn.idle]
  | succ budget ih =>
    rw [TenantAnswers.turn]
    by_cases hdue : count < due
    · have hih := ih (count + 1)
      simp only [TenantAnswers.serving, if_pos hdue] at hih ⊢
      rw [List.length_cons, hih]
      omega
    · simp only [TenantAnswers.serving, if_neg hdue, TenantTurn.idle, List.length_nil]
      omega

namespace ScheduledInvocation

variable {invocation : ScheduledInvocation} {answers : String → TenantAnswers} {tenantId : String}

/-- Surroundings that spare a tenant. -/
def sparing (invocation : ScheduledInvocation) (answers : String → TenantAnswers)
    (tenantId : String) : String → TenantAnswers := fun other =>
  if other = tenantId then answers tenantId
  else .serving ((invocation.run answers).turnOf other).enqueued.length

/-- There are surroundings that spare a tenant. -/
lemma spared_sparing (invocation : ScheduledInvocation) (answers : String → TenantAnswers)
    (tenantId : String) :
    invocation.Spared answers tenantId (invocation.sparing answers tenantId) := by
  have hsucceeds : ∀ other, other ≠ tenantId →
      (invocation.sparing answers tenantId other).Succeeds := by
    intro other hother
    rw [sparing, if_neg hother]
    exact TenantAnswers.serving_succeeds _
  have hcounts : ∀ other, other ≠ tenantId → ∀ budget,
      SharedBudget.Outcome.used ((invocation.sparing answers tenantId other).turn budget 0) =
        min ((invocation.run answers).turnOf other).enqueued.length budget := by
    intro other hother budget
    simp only [sparing, if_neg hother]
    exact TenantAnswers.length_turn_serving _ _ _
  refine ⟨if_pos rfl, hsucceeds, fun other hother => ?_⟩
  simp only [length_enqueued_turnOf, turns_run]
  refine SharedBudget.usedBy_of_counts invocation.claimOrder_nodup ?_ ?_ ?_ hcounts ?_ hother
  · simp only [sparing, if_pos]
  · intro other hother budget
    rw [SharedBudget.Outcome.failed]
    exact Option.isSome_eq_false_iff.mpr
      (Option.isNone_iff_eq_none.mpr ((hsucceeds other hother).error_turn budget))
  · exact fun other budget => TenantAnswers.length_turn_le _ _ _
  · intro other _ _
    simp only [length_enqueued_turnOf, turns_run]

/-- When tenants are isolated, those that are left out when claiming breaks off have no due
watch. -/
lemma Isolated.claims (hisolated : invocation.Isolated answers) {before after : List String}
    {first : String} {total count : ℕ}
    (hbreaks : invocation.BreaksOff answers before first after total count)
    (hmem : tenantId ∈ after) (watch : ClaimedWatch) :
    (answers tenantId).claim 0 ≠ .ok (some watch) := by
  intro hclaim
  have hspared := invocation.spared_sparing answers tenantId
  obtain ⟨hnone, hsome⟩ := hspared.resultOf_after hbreaks hmem
  have hclaimed := (hisolated tenantId _ hspared).1
  simp only [ScheduledRun.turnOf, hnone, hsome, Option.getD_none, Option.getD_some] at hclaimed
  have hbudget := hbreaks.budget
  exact TenantAnswers.claimed_turn_ne_nil hclaim (by omega) hclaimed.symm

/-- A tenant that is spared has its delivery attempted unless its own turn fails. -/
lemma Spared.attempted {answers' : String → TenantAnswers}
    (h : invocation.Spared answers tenantId answers')
    (hturn : ∀ turn, SharedBudget.resultOf tenantId (invocation.run answers').turns = some turn →
      turn.error = none) (hmem : tenantId ∈ invocation.deliveryOrder)
    (hdelivery : (answers tenantId).delivery ≠ .ok none) :
    (invocation.run answers').Attempted tenantId := by
  rw [attempted_iff (h.not_breaksOff hturn), h.same]
  obtain ⟨before, after, horder⟩ := List.append_of_mem hmem
  refine ⟨hdelivery, before, after, horder, fun other hother => (h.succeeds other ?_).delivery⟩
  have hnodup := invocation.deliveryOrder_nodup
  rw [horder] at hnodup
  rintro rfl
  exact (List.disjoint_of_nodup_append hnodup) hother (List.mem_cons_self ..)

/-- A turn that is not that of a tenant at which claiming breaks off does not fail. -/
lemma error_of_resultOf {turn : TenantTurn}
    (h : SharedBudget.resultOf tenantId (invocation.run answers).turns = some turn)
    (hnever : ∀ before after total count,
      ¬invocation.BreaksOff answers before tenantId after total count) : turn.error = none := by
  by_contra herror
  obtain ⟨before, after, total, count, hbreaks⟩ := breaksOff_of_resultOf h herror
  exact hnever before after total count hbreaks

/-- Claiming breaks off at one tenant only. -/
lemma BreaksOff.unique {before after before' after' : List String} {first first' : String}
    {total count total' count' : ℕ}
    (h : invocation.BreaksOff answers before first after total count)
    (h' : invocation.BreaksOff answers before' first' after' total' count') :
    first = first' ∧ after = after' := by
  have hleft := leftOut_eq_some_iff.mpr ⟨before, total, count, h, rfl⟩
  have hleft' := leftOut_eq_some_iff.mpr ⟨before', total', count', h', rfl⟩
  rw [hleft] at hleft'
  simp only [Option.some.injEq, Prod.mk.injEq] at hleft'
  exact ⟨hleft'.1, hleft'.2.2⟩

/-- When tenants are isolated, nobody but the tenant at which claiming breaks off has a delivery
waiting, unless its own claim would have failed as well. -/
lemma Isolated.deliveries (hisolated : invocation.Isolated answers) {before after : List String}
    {first : String} {total count : ℕ}
    (hbreaks : invocation.BreaksOff answers before first after total count)
    (hmem : tenantId ∈ invocation.deliveryOrder) (hfirst : tenantId ≠ first)
    (hdelivery : (answers tenantId).delivery ≠ .ok none) :
    tenantId ∈ after ∧ ∃ error, (answers tenantId).claim 0 = .error error := by
  have hspared := invocation.spared_sparing answers tenantId
  by_contra hneither
  refine not_attempted_of_breaksOff hbreaks ((hisolated tenantId _ hspared).2.2.mpr ?_)
  refine hspared.attempted (fun turn hresult => ?_) hmem hdelivery
  by_cases hafter : tenantId ∈ after
  · -- its turn begins with a claim that finds nothing
    rw [(hspared.resultOf_after hbreaks hafter).2] at hresult
    obtain rfl := Option.some.inj hresult
    have hclaim : (answers tenantId).claim 0 = .ok none := by
      cases hclaim : (answers tenantId).claim 0 with
      | error e => exact absurd ⟨hafter, e, hclaim⟩ hneither
      | ok found =>
        cases found with
        | none => rfl
        | some watch => exact absurd hclaim (hisolated.claims hbreaks hafter watch)
    have hstops : (answers tenantId).StopsAt 0 := ⟨by simp, hclaim⟩
    exact (hstops.turn (Nat.zero_le _)).2
  · rw [hspared.resultOf_eq fun before' first' after' total' count' hbreaks' =>
      (hbreaks.unique hbreaks').2 ▸ hafter] at hresult
    exact error_of_resultOf hresult fun before' after' total' count' hbreaks' =>
      hfirst (hbreaks.unique hbreaks').1.symm

/-- When tenants are isolated and claiming does not break off, nobody has a delivery waiting after
one that fails. -/
lemma Isolated.failures (hisolated : invocation.Isolated answers)
    (hnever : ∀ before first after total count,
      ¬invocation.BreaksOff answers before first after total count)
    {before after : List String} {first : String}
    (horder : invocation.deliveryOrder = before ++ first :: after)
    (hfails : ∃ error, (answers first).delivery = .error error) (hmem : tenantId ∈ after) :
    (answers tenantId).delivery = .ok none := by
  have hspared := invocation.spared_sparing answers tenantId
  by_contra hdelivery
  have hattempted := (hisolated tenantId _ hspared).2.2.mpr <| by
    refine hspared.attempted (fun turn hresult => ?_) (by rw [horder]; simp [hmem]) hdelivery
    rw [hspared.resultOf_eq fun _ _ _ _ _ hbreaks => absurd hbreaks (hnever _ _ _ _ _)] at hresult
    exact error_of_resultOf hresult fun _ _ _ _ => hnever _ _ _ _ _
  obtain ⟨-, before', after', horder', hbefore⟩ := (attempted_iff hnever).mp hattempted
  -- the delivery that fails comes before that of the tenant
  have hfirst : first ∈ before' := by
    have hnodup := invocation.deliveryOrder_nodup
    rw [horder] at horder' hnodup
    obtain ⟨c, d, rfl⟩ := List.append_of_mem hmem
    have hsplit : (before ++ first :: c) ++ tenantId :: d = before' ++ tenantId :: after' := by
      simpa using horder'
    have hnodup' : ((before ++ first :: c) ++ tenantId :: d).Nodup := by simpa using hnodup
    have hc : tenantId ∉ before ++ first :: c := fun hmem =>
      (List.disjoint_of_nodup_append hnodup') hmem (List.mem_cons_self ..)
    have hd : tenantId ∉ d := (List.nodup_cons.mp (hnodup'.of_append_right)).1
    rw [← ((List.append_cons_inj_of_notMem hc hd).mp hsplit).1]
    simp
  obtain ⟨e, he⟩ := hfails
  obtain ⟨delivery, hok⟩ := hbefore first hfirst
  simp [he] at hok

/-- **Isolation of the tenants**: an invocation isolates its tenants exactly when no failure cuts
anything off.

**Proof sketch.** A tenant whose turn comes has the same turn when it is spared, since the turns
before its own use as much of the budget. A tenant that is left out would have had the turn that
the rest of the budget allows, and any delivery that its own failures do not prevent. -/
theorem isolated_iff (invocation : ScheduledInvocation) (answers : String → TenantAnswers) :
    invocation.Isolated answers ↔ invocation.NothingCutOff answers := by
  constructor
  · intro hisolated
    refine ⟨?_, ?_, ?_⟩
    · exact fun before first after total count hbreaks tenantId hmem watch =>
        hisolated.claims hbreaks hmem watch
    · exact fun before first after total count hbreaks tenantId hmem hfirst hdelivery =>
        hisolated.deliveries hbreaks hmem hfirst hdelivery
    · exact fun hnever before first after horder hfails tenantId hmem =>
        hisolated.failures hnever horder hfails hmem
  · intro hnothing tenantId answers' hspared
    obtain ⟨hclaimed, henqueued⟩ := hnothing.turnOf hspared
    exact ⟨hclaimed, henqueued, hnothing.attempted_iff hspared⟩

end ScheduledInvocation

end Comsat
