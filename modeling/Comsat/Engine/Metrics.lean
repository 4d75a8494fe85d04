import Comsat.Engine.Plan
import Mathlib

set_option relaxedAutoImplicit false
set_option autoImplicit false

/-!
# Metrics of the engine

The engine counts, for every registered source and every operation, how many requests were started
and how they ended, and for every source how many records were emitted and dropped.

## Main definitions

* `OperationMetrics`, `SourceMetrics`, `EngineMetrics` — the counters.
* `EngineMetrics.start`, `EngineMetrics.terminal`, `EngineMetrics.recordEmitted`,
  `EngineMetrics.recordDeduplicated` — what is counted.
* `OperationGuard` — an operation that was started and has not been counted as ended yet.
* `Ledger` — the counters agree with the guards that are held and with those that have ended.

## Main results

* `Ledger.start`, `Ledger.terminal` — starting and ending operations keeps the ledger.

## Design

* The counters are natural numbers: no run counts up to the largest number of 64 bits.
* `OperationGuard.id` numbers the started operations; nothing reads it.
-/

namespace Comsat

/-! ## Counters -/

/-- The counters of an operation of a source. -/
structure OperationMetrics where
  requests : ℕ
  successes : ℕ
  failures : ℕ
  rateLimits : ℕ
  cancelled : ℕ
deriving DecidableEq

/-- The counters of a source. -/
structure SourceMetrics where
  search : OperationMetrics
  fetch : OperationMetrics
  follow : OperationMetrics
  recordsEmitted : ℕ
  recordsDeduplicated : ℕ
deriving DecidableEq

/-- Nothing is counted yet. -/
def OperationMetrics.zero : OperationMetrics := ⟨0, 0, 0, 0, 0⟩

/-- How an operation ends. -/
inductive TerminalOutcome where
  | success
  | failure (rateLimited : Bool)
  | cancelled
deriving DecidableEq

/-- The counters after an operation has ended. -/
def OperationMetrics.ended (metrics : OperationMetrics) : TerminalOutcome → OperationMetrics
  | .success => { metrics with successes := metrics.successes + 1 }
  | .cancelled => { metrics with cancelled := metrics.cancelled + 1 }
  | .failure rateLimited =>
    { metrics with
      failures := metrics.failures + 1
      rateLimits := if rateLimited then metrics.rateLimits + 1 else metrics.rateLimits }

namespace SourceMetrics

/-- Nothing is counted yet. -/
def zero : SourceMetrics := ⟨.zero, .zero, .zero, 0, 0⟩

/-- The counters of an operation. -/
def operation (metrics : SourceMetrics) : OperationKind → OperationMetrics
  | .search => metrics.search
  | .fetch => metrics.fetch
  | .follow => metrics.follow

/-- The counters after those of an operation have changed. -/
def operationMut (metrics : SourceMetrics) (operation : OperationKind)
    (f : OperationMetrics → OperationMetrics) : SourceMetrics :=
  match operation with
  | .search => { metrics with search := f metrics.search }
  | .fetch => { metrics with fetch := f metrics.fetch }
  | .follow => { metrics with follow := f metrics.follow }

/-- Only the counters of the operation change. -/
lemma operation_operationMut (metrics : SourceMetrics) (changed read : OperationKind)
    (f : OperationMetrics → OperationMetrics) :
    (metrics.operationMut changed f).operation read =
      if read = changed then f (metrics.operation read) else metrics.operation read := by
  cases changed <;> cases read <;> rfl

/-- The records that were emitted stay counted. -/
@[simp] lemma recordsEmitted_operationMut (metrics : SourceMetrics) (operation : OperationKind)
    (f : OperationMetrics → OperationMetrics) :
    (metrics.operationMut operation f).recordsEmitted = metrics.recordsEmitted := by
  cases operation <;> rfl

/-- The records that were dropped stay counted. -/
@[simp] lemma recordsDeduplicated_operationMut (metrics : SourceMetrics)
    (operation : OperationKind) (f : OperationMetrics → OperationMetrics) :
    (metrics.operationMut operation f).recordsDeduplicated = metrics.recordsDeduplicated := by
  cases operation <;> rfl

end SourceMetrics

/-- The counters of the registered sources. -/
structure EngineMetrics where
  inner : List (SourceId × SourceMetrics)

namespace EngineMetrics

/-- The counters of some sources, before anything is counted. -/
def new (sources : List SourceId) : EngineMetrics := ⟨sources.map fun source => (source, .zero)⟩

/-- The counters of a source. -/
def get (metrics : EngineMetrics) (source : SourceId) : Option SourceMetrics :=
  (metrics.inner.find? fun entry => entry.1 = source).map Prod.snd

/-- Changes the counters of a source, if it has any. -/
def update (metrics : EngineMetrics) (source : SourceId) (f : SourceMetrics → SourceMetrics) :
    EngineMetrics :=
  ⟨metrics.inner.map fun entry => if entry.1 = source then (entry.1, f entry.2) else entry⟩

/-- Counts a request. -/
def start (metrics : EngineMetrics) (source : SourceId) (operation : OperationKind) :
    EngineMetrics :=
  metrics.update source fun counters => counters.operationMut operation fun counters =>
    { counters with requests := counters.requests + 1 }

/-- Counts the end of an operation. -/
def terminal (metrics : EngineMetrics) (source : SourceId) (operation : OperationKind)
    (outcome : TerminalOutcome) : EngineMetrics :=
  metrics.update source fun counters => counters.operationMut operation fun counters =>
    counters.ended outcome

/-- Counts an emitted record. -/
def recordEmitted (metrics : EngineMetrics) (source : SourceId) : EngineMetrics :=
  metrics.update source fun counters =>
    { counters with recordsEmitted := counters.recordsEmitted + 1 }

/-- Counts a dropped record. -/
def recordDeduplicated (metrics : EngineMetrics) (source : SourceId) : EngineMetrics :=
  metrics.update source fun counters =>
    { counters with recordsDeduplicated := counters.recordsDeduplicated + 1 }

/-- Every source has counters. -/
lemma get_new {sources : List SourceId} {source : SourceId} (h : source ∈ sources) :
    (new sources).get source = some .zero := by
  induction sources with
  | nil => exact absurd h (by simp)
  | cons first rest ih =>
    by_cases hfirst : first = source
    · simp [new, get, hfirst]
    · have hrest := ih ((List.mem_cons.mp h).resolve_left (Ne.symm hfirst))
      simpa [new, get, hfirst] using hrest

/-- What is counted for a source before anything is counted. -/
lemma eq_zero_of_get_new {sources : List SourceId} {source : SourceId} {counters : SourceMetrics}
    (h : (new sources).get source = some counters) : counters = .zero := by
  obtain ⟨entry, hentry, rfl⟩ := Option.map_eq_some_iff.mp h
  obtain ⟨other, -, rfl⟩ := List.mem_map.mp (List.mem_of_find?_eq_some hentry)
  rfl

/-- Only the counters of the source change. -/
lemma get_update (metrics : EngineMetrics) (changed read : SourceId)
    (f : SourceMetrics → SourceMetrics) :
    (metrics.update changed f).get read =
      (metrics.get read).map fun counters => if read = changed then f counters else counters := by
  have hkey : ((fun entry : SourceId × SourceMetrics => decide (entry.1 = read)) ∘
      fun entry => if entry.1 = changed then (entry.1, f entry.2) else entry) =
      fun entry => decide (entry.1 = read) := by
    funext entry
    by_cases h : entry.1 = changed <;> simp [h]
  rw [get, update, List.find?_map, hkey, get]
  cases hfind : metrics.inner.find? fun entry => decide (entry.1 = read) with
  | none => rfl
  | some entry =>
    have hread : entry.1 = read := by simpa using List.find?_some hfind
    subst hread
    by_cases h : entry.1 = changed <;> simp [h]

end EngineMetrics

/-! ## Guards -/

/-- An operation that was started. Its end is counted when the guard is consumed, or when it is
dropped. -/
structure OperationGuard where
  id : ℕ
  source : SourceId
  operation : OperationKind
deriving DecidableEq

/-- Whether a guard is for an operation of a source. -/
def OperationGuard.isFor (source : SourceId) (operation : OperationKind) (guard : OperationGuard) :
    Bool :=
  guard.source = source ∧ guard.operation = operation

/-- The end that a failure of a class counts as. -/
def TerminalOutcome.ofFailure (errorClass : ErrorClass) : TerminalOutcome :=
  .failure (errorClass = .rateLimit)

/-- The end that an error of a tool counts as. -/
def TerminalOutcome.recordFailure (errorClass : ErrorClass) : TerminalOutcome :=
  if errorClass = .cancelled then .cancelled else .ofFailure errorClass

/-! ## The ledger -/

/-- The counters agree with the guards that are held and those that have ended: each of the
operations started so far is one of them, once. -/
structure Ledger (metrics : EngineMetrics) (next : ℕ) (held ended : List OperationGuard) : Prop where
  issued : ((held ++ ended).map OperationGuard.id).Perm (List.range next)
  requests : ∀ source counters, metrics.get source = some counters → ∀ operation,
    (counters.operation operation).requests =
      held.countP (OperationGuard.isFor source operation) +
        ended.countP (OperationGuard.isFor source operation)
  terminals : ∀ source counters, metrics.get source = some counters → ∀ operation,
    (counters.operation operation).successes + (counters.operation operation).failures +
      (counters.operation operation).cancelled =
        ended.countP (OperationGuard.isFor source operation)
  rateLimits : ∀ source counters, metrics.get source = some counters → ∀ operation,
    (counters.operation operation).rateLimits ≤ (counters.operation operation).failures

namespace Ledger

variable {metrics : EngineMetrics} {next : ℕ} {held ended : List OperationGuard}

/-- At first nothing is counted. -/
lemma new (sources : List SourceId) : Ledger (.new sources) 0 [] [] where
  issued := by simp
  requests source counters h operation := by
    rw [EngineMetrics.eq_zero_of_get_new h]
    cases operation <;> rfl
  terminals source counters h operation := by
    rw [EngineMetrics.eq_zero_of_get_new h]
    cases operation <;> rfl
  rateLimits source counters h operation := by
    rw [EngineMetrics.eq_zero_of_get_new h]
    cases operation <;> exact le_refl _

/-- The order of the guards does not matter. -/
lemma perm (h : Ledger metrics next held ended) {held' : List OperationGuard}
    (hperm : held.Perm held') : Ledger metrics next held' ended where
  issued := ((hperm.symm.append_right ended).map _).trans h.issued
  requests source counters hget operation := by
    rw [h.requests source counters hget operation, hperm.countP_eq]
  terminals := h.terminals
  rateLimits := h.rateLimits

/-- What the counters of a source were before an update. -/
lemma get_of_update {metrics : EngineMetrics} {changed source : SourceId}
    {f : SourceMetrics → SourceMetrics} {counters' : SourceMetrics}
    (h : (metrics.update changed f).get source = some counters') :
    ∃ counters, metrics.get source = some counters ∧
      counters' = if source = changed then f counters else counters := by
  rw [EngineMetrics.get_update] at h
  obtain ⟨counters, hcounters, rfl⟩ := Option.map_eq_some_iff.mp h
  exact ⟨counters, hcounters, rfl⟩

/-- Counters of operations that do not change keep the ledger. -/
lemma update (h : Ledger metrics next held ended) (changed : SourceId)
    {f : SourceMetrics → SourceMetrics}
    (hf : ∀ counters operation, (f counters).operation operation = counters.operation operation) :
    Ledger (metrics.update changed f) next held ended := by
  have hget : ∀ source counters', (metrics.update changed f).get source = some counters' →
      ∃ counters, metrics.get source = some counters ∧
        ∀ operation, counters'.operation operation = counters.operation operation := by
    intro source counters' h'
    obtain ⟨counters, hcounters, rfl⟩ := get_of_update h'
    refine ⟨counters, hcounters, fun operation => ?_⟩
    split
    · exact hf counters operation
    · rfl
  refine ⟨h.issued, fun source counters' h' operation => ?_, fun source counters' h' operation => ?_,
    fun source counters' h' operation => ?_⟩
  all_goals
    obtain ⟨counters, hcounters, heq⟩ := hget source counters' h'
    rw [heq operation]
  · exact h.requests source counters hcounters operation
  · exact h.terminals source counters hcounters operation
  · exact h.rateLimits source counters hcounters operation

/-- What the counters were before those of the operation of a guard have changed. -/
lemma operation_of_update {metrics : EngineMetrics} (guard : OperationGuard)
    {f : OperationMetrics → OperationMetrics} {source : SourceId} {counters' : SourceMetrics}
    (h : (metrics.update guard.source fun counters =>
      counters.operationMut guard.operation f).get source = some counters') :
    ∃ counters, metrics.get source = some counters ∧ ∀ operation,
      counters'.operation operation =
        if guard.isFor source operation then f (counters.operation operation)
        else counters.operation operation := by
  obtain ⟨counters, hcounters, rfl⟩ := get_of_update h
  refine ⟨counters, hcounters, fun operation => ?_⟩
  by_cases hsource : source = guard.source
  · by_cases hoperation : operation = guard.operation
    · simp [OperationGuard.isFor, SourceMetrics.operation_operationMut, hsource, hoperation]
    · simp [OperationGuard.isFor, SourceMetrics.operation_operationMut, hsource, hoperation,
        Ne.symm hoperation]
  · simp [OperationGuard.isFor, hsource, Ne.symm hsource]

/-- **A started operation** is counted and held. -/
theorem start (h : Ledger metrics next held ended) (source : SourceId) (operation : OperationKind) :
    Ledger (metrics.start source operation) (next + 1) (⟨next, source, operation⟩ :: held)
      ended where
  issued := by
    rw [List.cons_append, List.map_cons, List.range_succ]
    exact (h.issued.cons next).trans (List.perm_append_singleton next _).symm
  requests other counters' h' read := by
    obtain ⟨counters, hcounters, heq⟩ := operation_of_update ⟨next, source, operation⟩ h'
    have hrequests := h.requests other counters hcounters read
    rw [heq, List.countP_cons]
    split
    · dsimp only
      omega
    · omega
  terminals other counters' h' read := by
    obtain ⟨counters, hcounters, heq⟩ := operation_of_update ⟨next, source, operation⟩ h'
    have hterminals := h.terminals other counters hcounters read
    rw [heq]
    split <;> exact hterminals
  rateLimits other counters' h' read := by
    obtain ⟨counters, hcounters, heq⟩ := operation_of_update ⟨next, source, operation⟩ h'
    have hrate := h.rateLimits other counters hcounters read
    rw [heq]
    split <;> exact hrate

/-- **An ended operation** is counted once and held no longer. -/
theorem terminal {guard : OperationGuard} (h : Ledger metrics next (guard :: held) ended)
    (outcome : TerminalOutcome) :
    Ledger (metrics.terminal guard.source guard.operation outcome) next held
      (guard :: ended) where
  issued := (List.perm_middle.map _).trans h.issued
  requests other counters' h' read := by
    obtain ⟨counters, hcounters, heq⟩ := operation_of_update guard h'
    have hrequests := h.requests other counters hcounters read
    have hended : ((counters.operation read).ended outcome).requests =
        (counters.operation read).requests := by cases outcome <;> rfl
    rw [List.countP_cons] at hrequests ⊢
    rw [heq]
    cases hfor : guard.isFor other read with
    | true =>
      simp only [hfor, ↓reduceIte, hended] at hrequests ⊢
      omega
    | false =>
      simp only [hfor, Bool.false_eq_true, ↓reduceIte] at hrequests ⊢
      omega
  terminals other counters' h' read := by
    obtain ⟨counters, hcounters, heq⟩ := operation_of_update guard h'
    have hterminals := h.terminals other counters hcounters read
    rw [heq, List.countP_cons]
    split
    · cases outcome <;> simp only [OperationMetrics.ended] <;> omega
    · omega
  rateLimits other counters' h' read := by
    obtain ⟨counters, hcounters, heq⟩ := operation_of_update guard h'
    have hrate := h.rateLimits other counters hcounters read
    rw [heq]
    split
    · cases outcome with
      | success => exact hrate
      | cancelled => exact hrate
      | failure rateLimited =>
        simp only [OperationMetrics.ended]
        split <;> omega
    · exact hrate

end Ledger

end Comsat
