import Comsat.Plugins.CooldownRuns

set_option relaxedAutoImplicit false
set_option autoImplicit false

/-!
# The arithmetic of cooling down

Which waits can be added to the clock, and whether waiting for as long as a call is told to is
enough.

## Main definitions

* `CooldownState.Intact` — no wait has made the code panic, and a check returns.
* `CooldownSystem.Representable` — the waits of an answer end at instants that the clock can
  represent.
* `CooldownObservation`, `Cooldowns.afterObservations` — what a source notes, and the deadlines that
  this leaves.
* `Cooldowns.HintSufficient` — after the announced seconds the operation need not wait.

## Main results

* `CooldownSystem.intact_iff_representable` — the deadlines of a run stay intact exactly when every
  wait that is noted can be represented.
* `cooldown_hint_sufficient` — a hint is enough exactly when the wait is a whole number of seconds,
  or less than one.
-/

namespace Comsat

/-! ## Waits that the clock cannot represent -/

/-- No wait has made the code panic, and a check returns what there is to wait. -/
structure CooldownState.Intact (last : ℕ) (state : CooldownState) : Prop where
  unpoisoned : state.cooldowns.poisoned = false
  check : ∀ (operation : OperationKind) (next : Option ℕ → Program Unit),
    (Program.check operation next).advance last state.now state.cooldowns =
      (next (state.cooldowns.check state.now operation)).advance last state.now state.cooldowns

/-- A check returns unless the lock is poisoned. -/
lemma CooldownState.intact_iff {last : ℕ} {state : CooldownState} :
    state.Intact last ↔ state.cooldowns.poisoned = false := by
  refine ⟨Intact.unpoisoned, fun h => ⟨h, fun operation next => ?_⟩⟩
  rw [Program.advance, if_neg (by simp [h])]

/-- **Calls panic** exactly when one of the waits they note ends after the last instant, and always
when the lock is poisoned.

**Proof sketch.** Induction on the call: the first wait that ends too late poisons the lock. -/
theorem Program.poisoned_advance {last now : ℕ} {operation : OperationKind}
    {waits : HttpRequest → HttpResponse → List ℕ} {call : Program Unit} {pending : List ℕ}
    {cooldowns : Cooldowns} (h : call.Observes operation waits pending) :
    (call.advance last now cooldowns).1.poisoned = false ↔
      cooldowns.poisoned = false ∧ ∀ seconds ∈ pending, waitUntil now seconds ≤ last := by
  induction call generalizing pending cooldowns with
  | done result =>
    obtain rfl : pending = [] := h
    simp [advance]
  | check other next ih => exact h.elim
  | note noted seconds next ih =>
    obtain ⟨rfl, rest, rfl, hnext⟩ := h
    rw [advance]
    cases hpoisoned : cooldowns.poisoned with
    | true => simp [hpoisoned]
    | false =>
      rw [if_neg (by simp), List.forall_mem_cons]
      by_cases hlast : last < waitUntil now seconds
      · have hset : (cooldowns.set last now noted seconds).poisoned = true := by
          rw [Cooldowns.set, if_pos hlast]
        simp only [hset, if_true]
        simp [hlast]
      · have hset : (cooldowns.set last now noted seconds).poisoned = false := by
          rw [Cooldowns.set, if_neg hlast]
          exact hpoisoned
        simp only [hset, Bool.false_eq_true, if_false]
        rw [ih hnext, hset]
        simp [not_lt.mp hlast]
  | send request next ih =>
    obtain ⟨rfl, hnext⟩ := h
    simp [advance]

namespace CooldownSystem

variable (system : CooldownSystem)

/-- The waits that the source notes for an answer that arrives end at instants that the clock can
represent. -/
def Representable (state : CooldownState) : CooldownAction → Prop
  | .respond index (.ok response) =>
    ∀ operation owed request next,
      state.calls[index]? = some ⟨operation, owed, .awaiting request next⟩ →
        ∀ seconds ∈ system.notes operation request response,
          waitUntil state.now seconds ≤ system.last
  | _ => True

/-- Every call that waits for an answer observes the waits in it. -/
def Observing (state : CooldownState) : Prop :=
  ∀ call ∈ state.calls, ∀ request next, call.stage = .awaiting request next →
    ∀ answer, (next answer).Observes call.operation (system.notes call.operation)
      (waitsOf (system.notes call.operation) request answer)

variable {system}

/-- What a call leaves when it goes on. -/
lemma proceed_of_observes (state : CooldownState) {operation : OperationKind} (owed : ℕ)
    {pending : List ℕ} {call : Program Unit}
    (hcall : call.Observes operation (system.notes operation) pending) :
    ((system.proceed state operation owed call).1.cooldowns.poisoned = false ↔
      state.cooldowns.poisoned = false ∧ ∀ seconds ∈ pending, waitUntil state.now seconds ≤
        system.last) ∧
    ∀ request next, (system.proceed state operation owed call).2.stage = .awaiting request next →
      ∀ answer, (next answer).Observes operation (system.notes operation)
        (waitsOf (system.notes operation) request answer) :=
  ⟨Program.poisoned_advance hcall, (Program.advance_of_observes hcall).observes⟩

/-- A call that begins leaves the lock as it was, and observes the waits in answers. -/
lemma proceed_of_ready (hready : system.CallsReady) (state : CooldownState)
    (invocation : Invocation) (owed : ℕ) :
    ((system.proceed state invocation.operation owed
        (system.source.call invocation)).1.cooldowns.poisoned = false ↔
      state.cooldowns.poisoned = false) ∧
    ∀ request next, (system.proceed state invocation.operation owed
        (system.source.call invocation)).2.stage = .awaiting request next →
      ∀ answer, (next answer).Observes invocation.operation (system.notes invocation.operation)
        (waitsOf (system.notes invocation.operation) request answer) := by
  have hdone : ∀ result : Unit, (Program.done result).Observes invocation.operation
      (system.notes invocation.operation) [] := fun _ => rfl
  obtain ⟨result, hcall⟩ | ⟨next, hcall, hnext, hwait⟩ := hready invocation
  · rw [hcall]
    simpa using proceed_of_observes state owed (hdone result)
  · rw [hcall]
    cases hpoisoned : state.cooldowns.poisoned with
    | true =>
      have hadvance : (Program.check invocation.operation next).advance system.last state.now
          state.cooldowns = (state.cooldowns, .finished) := by
        rw [Program.advance, if_pos hpoisoned]
      simp only [proceed, hadvance]
      exact ⟨by simp [hpoisoned], fun _ _ hstage => by cases hstage⟩
    | false =>
      have hintact : state.Intact system.last := CooldownState.intact_iff.mpr hpoisoned
      have hcheck := hintact.check invocation.operation next
      have hproceed : system.proceed state invocation.operation owed
          (.check invocation.operation next) = system.proceed state invocation.operation owed
            (next (state.cooldowns.check state.now invocation.operation)) := by
        simp only [proceed, hcheck]
      rw [hproceed]
      cases state.cooldowns.check state.now invocation.operation with
      | none =>
        obtain ⟨hstep, hobserves⟩ := proceed_of_observes state owed hnext
        exact ⟨hstep.trans (by simp [hpoisoned]), hobserves⟩
      | some remaining =>
        obtain ⟨result, hresult⟩ := hwait remaining
        rw [hresult]
        obtain ⟨hstep, hobserves⟩ := proceed_of_observes state owed (hdone result)
        exact ⟨hstep.trans (by simp [hpoisoned]), hobserves⟩

/-- **One step**: calls go on observing the waits in answers, and the lock is not poisoned exactly
when it was not and the waits of the step can be represented. -/
lemma Observing.step (hready : system.CallsReady) {state : CooldownState}
    (h : system.Observing state) (action : CooldownAction) :
    system.Observing (system.step state action) ∧
      ((system.step state action).cooldowns.poisoned = false ↔
        state.cooldowns.poisoned = false ∧ system.Representable state action) := by
  cases action with
  | pass duration => exact ⟨h, by simp [CooldownSystem.step, Representable]⟩
  | start invocation =>
    obtain ⟨hpoisoned, hobserves⟩ := proceed_of_ready hready state invocation
      (state.announced invocation.operation)
    refine ⟨fun call hcall => ?_, by simpa [CooldownSystem.step, Representable] using hpoisoned⟩
    rcases List.mem_append.mp hcall with hcall | hcall
    · exact h call hcall
    · obtain rfl := List.mem_singleton.mp hcall
      exact hobserves
  | respond index answer =>
    cases hcall : state.calls[index]? with
    | none =>
      refine ⟨by simpa [CooldownSystem.step, hcall] using h, ?_⟩
      cases answer <;> simp [CooldownSystem.step, hcall, Representable]
    | some call =>
      obtain ⟨operation, owed, stage⟩ := call
      cases stage with
      | finished =>
        refine ⟨by simpa [CooldownSystem.step, hcall] using h, ?_⟩
        cases answer <;> simp [CooldownSystem.step, hcall, Representable]
      | awaiting request next =>
        have hnext := h _ (List.mem_of_getElem? hcall) request next rfl answer
        have hstep := proceed_of_observes { state with
          announced := system.announcedAfter state operation request answer } owed hnext
        obtain ⟨hpoisoned, hobserves⟩ := hstep
        refine ⟨?_, ?_⟩
        · simp only [CooldownSystem.step, hcall]
          intro old hold
          rcases List.mem_or_eq_of_mem_set hold with hold | rfl
          · exact h old hold
          · exact hobserves
        · simp only [CooldownSystem.step, hcall]
          refine hpoisoned.trans (and_congr_right fun _ => ?_)
          cases answer with
          | error e => simp [waitsOf, Representable]
          | ok response =>
            refine ⟨fun hfits operation' owed' request' next' hcall' => ?_, fun hfits => ?_⟩
            · rw [hcall] at hcall'
              cases hcall'
              exact hfits
            · exact hfits operation owed request next hcall

/-- **The deadlines of a run stay intact** exactly when every wait that is noted ends at an instant
that the clock can represent.

**Proof sketch.** One step poisons the lock exactly when a wait ends too late, and a poisoned lock
stays poisoned. -/
theorem intact_iff_representable (hready : system.CallsReady) (actions : List CooldownAction) :
    (∀ step ∈ system.machine.trace actions, step.after.Intact system.last) ↔
      ∀ step ∈ system.machine.trace actions, system.Representable step.before step.input := by
  have hrun := Machine.run_induction system.machine
    (P := fun trace state => system.Observing state ∧
      (state.cooldowns.poisoned = false ↔
        ∀ step ∈ trace, system.Representable step.before step.input) ∧
      ((∀ step ∈ trace, step.after.Intact system.last) ↔ state.cooldowns.poisoned = false))
    ⟨fun _ hcall => (List.not_mem_nil hcall).elim, ?_, ?_⟩
    (fun trace state action ⟨hobserving, hbefore, hafter⟩ => ?_) actions
  · exact hrun.2.2.trans hrun.2.1
  · exact ⟨fun _ _ hstep => (List.not_mem_nil hstep).elim, fun _ => rfl⟩
  · exact ⟨fun _ => rfl, fun _ _ hstep => (List.not_mem_nil hstep).elim⟩
  · obtain ⟨hobserving', hstep⟩ := hobserving.step hready action
    refine ⟨hobserving', ?_, ?_⟩
    · rw [List.forall_mem_append, ← hbefore, List.forall_mem_singleton]
      exact hstep
    · rw [List.forall_mem_append, hafter, List.forall_mem_singleton, CooldownState.intact_iff]
      exact ⟨And.right, fun h => ⟨(hstep.mp h).1, h⟩⟩

end CooldownSystem

/-- The deadlines of both sources stay intact in every run whose steps all meet a condition. -/
def CooldownsIntact [UpstreamLibrary] [UrlLibrary]
    (condition : CooldownSystem → CooldownState → CooldownAction → Prop) : Prop :=
  ∀ last, (∀ (source : GitHubSource) (actions : List CooldownAction),
      (∀ step ∈ (source.system last).machine.trace actions,
        condition (source.system last) step.before step.input) →
      ∀ step ∈ (source.system last).machine.trace actions, step.after.Intact last) ∧
    ∀ (source : StackExchangeSource) (actions : List CooldownAction),
      (∀ step ∈ (source.system last).machine.trace actions,
        condition (source.system last) step.before step.input) →
      ∀ step ∈ (source.system last).machine.trace actions, step.after.Intact last

/-- **Recording a wait never panics** as long as the waits that are noted end at instants that the
clock can represent, and in no other run: after every step of a run of either source the lock is not
poisoned, and a check returns, exactly when this held of every wait.

**Proof sketch.** The calls of both sources note the waits of their answers and nothing else. -/
theorem cooldowns_intact [UpstreamLibrary] [UrlLibrary] (last : ℕ) :
    (∀ (source : GitHubSource) (actions : List CooldownAction),
      (∀ step ∈ (source.system last).machine.trace actions, step.after.Intact last) ↔
        ∀ step ∈ (source.system last).machine.trace actions,
          (source.system last).Representable step.before step.input) ∧
    ∀ (source : StackExchangeSource) (actions : List CooldownAction),
      (∀ step ∈ (source.system last).machine.trace actions, step.after.Intact last) ↔
        ∀ step ∈ (source.system last).machine.trace actions,
          (source.system last).Representable step.before step.input :=
  ⟨fun source actions => CooldownSystem.intact_iff_representable (source.callsReady last) actions,
    fun source actions => CooldownSystem.intact_iff_representable (source.callsReady last) actions⟩

/-- The last instant of a clock with a signed 64-bit number of seconds. -/
def lastInstant : ℕ := (2 ^ 63 - 1) * nanoseconds + (nanoseconds - 1)

/-- A search is answered with the longest wait of 64 bits, which the clock cannot represent. -/
theorem cooldown_panics :
    letI : UpstreamLibrary := .plain
    letI : UrlLibrary := .gitHub
    ¬CooldownsIntact fun _ _ _ => True := by
  let _ : UpstreamLibrary := .plain
  let _ : UrlLibrary := .gitHub
  intro hclaim
  have hintact := (hclaim lastInstant).1 ⟨none⟩
    [.start (.search sampleQuery), .respond 0 (.ok (rateLimited "18446744073709551615"))]
    fun _ _ => trivial
  exact absurd (hintact _ (List.mem_cons_of_mem _ (List.mem_singleton_self _))).unpoisoned
    (by decide)

/-! ## Hints -/

/-- What a source notes about the answer to a call of an operation. -/
inductive CooldownObservation where
  /-- GitHub has answered with an error. -/
  | error (operation : OperationKind) (error : SourceError)
  /-- Stack Exchange has asked for a wait, or for none. -/
  | backoff (operation : OperationKind) (seconds : Option ℕ)

/-- What the source does about it. -/
def CooldownObservation.program : CooldownObservation → Program Unit
  | .error operation failure => GitHub.observeError operation failure (.done ())
  | .backoff operation seconds => StackExchange.observeBackoff operation seconds (.done ())

namespace Cooldowns

/-- The deadlines that observations leave, each of them made at some instant. -/
def afterObservations (last : ℕ) (observations : List (ℕ × CooldownObservation)) : Cooldowns :=
  observations.foldl
    (fun cooldowns observation =>
      (observation.2.program.advance last observation.1 cooldowns).1)
    .empty

/-- If a check fails, the operation need not wait any more after the seconds that it announces, of
which there is one at least. When the lock is poisoned the check does not fail but panics. -/
def HintSufficient (cooldowns : Cooldowns) (operation : OperationKind) (now : ℕ) : Prop :=
  cooldowns.poisoned = false → ∀ remaining, cooldowns.check now operation = some remaining →
    1 ≤ remaining ∧ ∀ later, now + nanoseconds * remaining ≤ later →
      cooldowns.check later operation = none

/-- How long the operation still has to wait. -/
def remainingWait (cooldowns : Cooldowns) (operation : OperationKind) (now : ℕ) : ℕ :=
  (cooldowns.deadline operation).getD 0 - now

/-- The wait is a whole number of seconds, or less than one. -/
def WholeWait (cooldowns : Cooldowns) (operation : OperationKind) (now : ℕ) : Prop :=
  cooldowns.remainingWait operation now < nanoseconds ∨
    nanoseconds ∣ cooldowns.remainingWait operation now

/-- A check fails when there is something left to wait, and announces whole seconds. -/
lemma check_eq_some_iff {cooldowns : Cooldowns} {operation : OperationKind} {now remaining : ℕ} :
    cooldowns.check now operation = some remaining ↔
      0 < cooldowns.remainingWait operation now ∧
        remaining = max 1 (cooldowns.remainingWait operation now / nanoseconds) := by
  rw [check, remainingWait]
  cases cooldowns.deadline operation with
  | none => simp
  | some deadline =>
    simp only [Option.getD_some]
    split
    · rename_i hover
      simp [Nat.sub_eq_zero_of_le hover]
    · rename_i hwait
      rw [Option.some.injEq]
      exact ⟨fun h => ⟨by omega, h.symm⟩, fun h => h.2.symm⟩

/-- Whole seconds, of which there is one at least, cover a wait exactly when it is a whole number of
seconds or less than one. -/
lemma le_hint_iff {wait : ℕ} :
    wait ≤ nanoseconds * max 1 (wait / nanoseconds) ↔ wait < nanoseconds ∨ nanoseconds ∣ wait := by
  rcases lt_or_ge wait nanoseconds with hshort | hlong
  · rw [Nat.div_eq_of_lt hshort]
    simp only [hshort, true_or, iff_true, Nat.max_zero, Nat.mul_one]
    exact hshort.le
  · have hone : 1 ≤ wait / nanoseconds := (Nat.one_le_div_iff (by decide)).mpr hlong
    rw [max_eq_right hone]
    constructor
    · intro hle
      exact .inr ⟨_, le_antisymm hle (Nat.mul_div_le wait nanoseconds)⟩
    · rintro (hshort | hdvd)
      · omega
      · exact (Nat.mul_div_cancel' hdvd).ge

end Cooldowns

/-- After any observations the hint of a failing check is enough. -/
def HintsSufficient : Prop :=
  ∀ last observations operation now,
    (Cooldowns.afterObservations last observations).HintSufficient operation now

/-- **When a hint is enough**: after any observations, exactly when the wait that is left at the check
is a whole number of seconds or less than one, or the lock is poisoned.

**Proof sketch.** The hint is the wait in whole seconds, rounded down, and one at least; the deadline
is over after the hint exactly when nothing was rounded away (`Cooldowns.le_hint_iff`). -/
theorem cooldown_hint_sufficient (last : ℕ) (observations : List (ℕ × CooldownObservation))
    (operation : OperationKind) (now : ℕ) :
    (Cooldowns.afterObservations last observations).HintSufficient operation now ↔
      (Cooldowns.afterObservations last observations).poisoned = true ∨
        (Cooldowns.afterObservations last observations).WholeWait operation now := by
  generalize Cooldowns.afterObservations last observations = cooldowns
  rw [Cooldowns.HintSufficient, Cooldowns.WholeWait]
  cases cooldowns.poisoned with
  | true => simp
  | false =>
    simp only [forall_true_left, Bool.false_eq_true, false_or]
    rcases Nat.eq_zero_or_pos (cooldowns.remainingWait operation now) with hzero | hpos
    · refine ⟨fun _ => .inr (hzero ▸ Nat.dvd_zero _), fun _ remaining hcheck => ?_⟩
      rw [Cooldowns.check_eq_some_iff, hzero] at hcheck
      exact absurd hcheck.1 (lt_irrefl 0)
    · rw [← Cooldowns.le_hint_iff]
      simp only [Cooldowns.check_eq_some_iff, Cooldowns.check_eq_none_iff]
      constructor
      · intro h
        have hlater := (h _ ⟨hpos, rfl⟩).2 _ le_rfl
        rw [Cooldowns.remainingWait] at hlater ⊢
        omega
      · rintro hle remaining ⟨-, rfl⟩
        refine ⟨le_max_left _ _, fun later hlater => ?_⟩
        rw [Cooldowns.remainingWait] at hle hlater hpos
        omega

/-- Five seconds after an observation are announced as four, a tenth of a second later. -/
theorem cooldown_hint_too_short : ¬HintsSufficient := by
  intro hclaim
  have hhint := hclaim (1000 * nanoseconds) [(0, .backoff .search (some 5))] .search
    (nanoseconds / 10) rfl 4 (by decide)
  exact absurd (hhint.2 (nanoseconds / 10 + nanoseconds * 4) le_rfl) (by decide)

end Comsat
