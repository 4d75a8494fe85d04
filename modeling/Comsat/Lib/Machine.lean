import Mathlib

set_option relaxedAutoImplicit false
set_option autoImplicit false

/-!
# Deterministic machines with replies

A machine takes one input at a time, moves to a next state and answers with a reply. A run is
a list of inputs; its trace records, for every input, the state before it, the reply and the
state after it. Everything here is over arbitrary types.

## Main definitions

* `Machine`, `Machine.run`, `Machine.trace` — machines, their runs and the recorded steps.
* `Machine.replies` — the replies of a run, in order.

## Main results

* `Machine.run_induction` — what holds initially and is carried by one more step holds of
  every run and of its trace.
* `Machine.noninterference` — the unwinding theorem: if, under an invariant, foreign inputs leave
  a view of the state alone and own inputs act on that view only, purging the foreign inputs of a
  run does not change the replies to the own ones.
* `Machine.simulation` — two machines whose steps keep a relation between their states keep it
  along every run whose inputs are admissible.
-/

/-- A deterministic machine with states `σ`, inputs `ι` and replies `ο`. -/
structure Machine (σ ι ο : Type*) where
  /-- The state in which every run starts. -/
  init : σ
  /-- The state after an input, and the reply to it. -/
  step : σ → ι → σ × ο

namespace Machine

variable {σ σ' ι ο ο' : Type*}

/-- One recorded step of a run. -/
structure Step (σ ι ο : Type*) where
  /-- The state before the input. -/
  before : σ
  /-- The input. -/
  input : ι
  /-- The reply. -/
  reply : ο
  /-- The state after the input. -/
  after : σ

/-- The recorded step of `M` at state `s` on input `i`. -/
def stepAt (M : Machine σ ι ο) (s : σ) (i : ι) : Step σ ι ο :=
  ⟨s, i, (M.step s i).2, (M.step s i).1⟩

/-- The state after the inputs `is`, from `s`. -/
def runFrom (M : Machine σ ι ο) (s : σ) (is : List ι) : σ :=
  is.foldl (fun s i => (M.step s i).1) s

/-- The recorded steps of the inputs `is`, from `s`. -/
def traceFrom (M : Machine σ ι ο) : σ → List ι → List (Step σ ι ο)
  | _, [] => []
  | s, i :: is => M.stepAt s i :: traceFrom M (M.step s i).1 is

/-- The state after a whole run. -/
def run (M : Machine σ ι ο) (is : List ι) : σ := M.runFrom M.init is

/-- The recorded steps of a whole run. -/
def trace (M : Machine σ ι ο) (is : List ι) : List (Step σ ι ο) := M.traceFrom M.init is

/-- The replies of a whole run, in order. -/
def replies (M : Machine σ ι ο) (is : List ι) : List ο := (M.trace is).map Step.reply

section Basic

variable (M : Machine σ ι ο)

@[simp] theorem stepAt_before (s : σ) (i : ι) : (M.stepAt s i).before = s := rfl

@[simp] theorem stepAt_input (s : σ) (i : ι) : (M.stepAt s i).input = i := rfl

@[simp] theorem stepAt_reply (s : σ) (i : ι) : (M.stepAt s i).reply = (M.step s i).2 := rfl

@[simp] theorem stepAt_after (s : σ) (i : ι) : (M.stepAt s i).after = (M.step s i).1 := rfl

@[simp] theorem run_nil : M.run [] = M.init := rfl

@[simp] theorem trace_nil : M.trace [] = [] := rfl

/-- One more input runs from the state reached so far. -/
theorem runFrom_snoc (s : σ) (is : List ι) (i : ι) :
    M.runFrom s (is ++ [i]) = (M.step (M.runFrom s is) i).1 := by
  simp [runFrom]

/-- One more input appends one step to the trace. -/
theorem traceFrom_snoc (s : σ) (is : List ι) (i : ι) :
    M.traceFrom s (is ++ [i]) = M.traceFrom s is ++ [M.stepAt (M.runFrom s is) i] := by
  induction is generalizing s with
  | nil => rfl
  | cons j is ih =>
    simp only [List.cons_append, traceFrom, ih]
    rfl

/-- One more input runs from the state reached so far. -/
theorem run_snoc (is : List ι) (i : ι) : M.run (is ++ [i]) = (M.step (M.run is) i).1 :=
  M.runFrom_snoc M.init is i

/-- One more input appends one step to the trace. -/
theorem trace_snoc (is : List ι) (i : ι) :
    M.trace (is ++ [i]) = M.trace is ++ [M.stepAt (M.run is) i] :=
  M.traceFrom_snoc M.init is i

/-- The inputs of a trace are those of the run. -/
theorem map_input_trace (is : List ι) : (M.trace is).map Step.input = is := by
  induction is using List.reverseRecOn with
  | nil => rfl
  | append_singleton is i ih =>
    rw [trace_snoc, List.map_append, ih]
    rfl

/-- A step of a trace answers an input in the state that the inputs before it lead to. -/
theorem exists_of_mem_trace {is : List ι} {x : Step σ ι ο} (hx : x ∈ M.trace is) :
    ∃ js i, js ++ [i] <+: is ∧ x = M.stepAt (M.run js) i := by
  induction is using List.reverseRecOn with
  | nil => exact absurd hx (by simp)
  | append_singleton is i ih =>
    rw [trace_snoc] at hx
    rcases List.mem_append.mp hx with hx | hx
    · obtain ⟨js, j, hjs, rfl⟩ := ih hx
      exact ⟨js, j, hjs.trans (List.prefix_append _ _), rfl⟩
    · exact ⟨is, i, List.prefix_refl _, List.mem_singleton.mp hx⟩

/-- **Run induction**: a property of a trace and its final state that holds of the empty run
and is carried by one more step holds of every run.

**Proof sketch.** Induction on the inputs from the right, by `run_snoc` and `trace_snoc`. -/
theorem run_induction {P : List (Step σ ι ο) → σ → Prop} (h0 : P [] M.init)
    (hstep : ∀ tr s i, P tr s → P (tr ++ [M.stepAt s i]) (M.step s i).1) (is : List ι) :
    P (M.trace is) (M.run is) := by
  induction is using List.reverseRecOn with
  | nil => exact h0
  | append_singleton is i ih =>
    rw [trace_snoc, run_snoc]
    exact hstep _ _ i ih

end Basic

/-! ## Noninterference -/

/-- Unwinding, from two states with the same view.

**Proof sketch.** Induction on the inputs. An own input gets the same reply from states with
the same view and leads to states with the same view; a foreign input is dropped on the right
and leaves the view on the left alone. -/
private theorem noninterference_from {ν : Type*} (M : Machine σ ι ο) (inv : σ → Prop)
    (view : σ → ν) (mine : ι → Bool) (hinv : ∀ s i, inv s → inv (M.step s i).1)
    (hforeign : ∀ s i, inv s → mine i = false → view (M.step s i).1 = view s)
    (hown : ∀ s t i, inv s → inv t → mine i = true → view s = view t →
      (M.step s i).2 = (M.step t i).2 ∧ view (M.step s i).1 = view (M.step t i).1)
    (is : List ι) : ∀ s t, inv s → inv t → view s = view t →
      ((M.traceFrom s is).filter fun x => mine x.input).map Step.reply =
        (M.traceFrom t (is.filter mine)).map Step.reply := by
  induction is with
  | nil => intro s t _ _ _; rfl
  | cons i is ih =>
    intro s t hs ht hst
    cases hi : mine i with
    | true =>
      obtain ⟨hreply, hnext⟩ := hown s t i hs ht hi hst
      simp only [traceFrom, List.filter_cons, stepAt_input, hi, ↓reduceIte, List.map_cons,
        stepAt_reply, hreply, ih _ _ (hinv s i hs) (hinv t i ht) hnext]
    | false =>
      have hnext : view (M.step s i).1 = view t := (hforeign s i hs hi).trans hst
      simp only [traceFrom, List.filter_cons, stepAt_input, hi, Bool.false_eq_true, ↓reduceIte,
        ih _ _ (hinv s i hs) ht hnext]

/-- **Noninterference by unwinding**: if, in the states that satisfy an invariant, every foreign
input leaves a view of the state alone and every own input answers and acts through that view,
then deleting the foreign inputs of a run leaves the replies to the own inputs unchanged. -/
theorem noninterference {ν : Type*} (M : Machine σ ι ο) (inv : σ → Prop) (view : σ → ν)
    (mine : ι → Bool) (hinit : inv M.init) (hinv : ∀ s i, inv s → inv (M.step s i).1)
    (hforeign : ∀ s i, inv s → mine i = false → view (M.step s i).1 = view s)
    (hown : ∀ s t i, inv s → inv t → mine i = true → view s = view t →
      (M.step s i).2 = (M.step t i).2 ∧ view (M.step s i).1 = view (M.step t i).1)
    (is : List ι) :
    ((M.trace is).filter fun x => mine x.input).map Step.reply = M.replies (is.filter mine) :=
  noninterference_from M inv view mine hinv hforeign hown is _ _ hinit hinit rfl

/-! ## Simulation -/

/-- The inputs of a shorter run leave the beginning of the trace. -/
lemma trace_prefix (M : Machine σ ι ο) {is js : List ι} (h : is <+: js) :
    M.trace is <+: M.trace js := by
  obtain ⟨ks, rfl⟩ := h
  induction ks using List.reverseRecOn with
  | nil => simp
  | append_singleton ks k ih =>
    rw [← List.append_assoc, trace_snoc]
    exact ih.trans (List.prefix_append _ _)

/-- **Simulation**: let `R` relate the states of two machines and `Q` their replies. If every
admissible input leads from related states to related states, with related replies, then every run
whose inputs are admissible one after the other ends in related states and gives related replies.

**Proof sketch.** Induction on the inputs from the right, both machines following input by input. -/
theorem simulation (M : Machine σ ι ο) (N : Machine σ' ι ο') (R : σ → σ' → Prop)
    (Q : ο → ο' → Prop) (adm : σ → ι → Prop) (hinit : R M.init N.init)
    (hstep : ∀ s t i, adm s i → R s t → R (M.step s i).1 (N.step t i).1 ∧
      Q (M.step s i).2 (N.step t i).2)
    (is : List ι) (hadm : ∀ js i, js ++ [i] <+: is → adm (M.run js) i) :
    R (M.run is) (N.run is) ∧ List.Forall₂ Q (M.replies is) (N.replies is) := by
  induction is using List.reverseRecOn with
  | nil => exact ⟨hinit, .nil⟩
  | append_singleton is i ih =>
    obtain ⟨hstates, hreplies⟩ := ih fun js j hjs => hadm js j (hjs.trans (List.prefix_append _ _))
    obtain ⟨hstates', hreply⟩ := hstep _ _ i (hadm is i (List.prefix_refl _)) hstates
    refine ⟨by rwa [run_snoc, run_snoc], ?_⟩
    unfold replies at hreplies ⊢
    rw [trace_snoc, trace_snoc, List.map_append, List.map_append]
    exact List.rel_append hreplies (.cons hreply .nil)

end Machine
