import Comsat.Lib.Machine
import Mathlib

set_option relaxedAutoImplicit false
set_option autoImplicit false

/-!
# Dialogues with a machine

A dialogue gives a machine one input after the other, goes on as the replies tell it to, and returns
a result. Any number of dialogues are held with one machine at the same time. Everything here is
over arbitrary types.

## Main definitions

* `Dialogue` — what is still to be asked, and what is returned in the end.
* `Dialogue.expand` — a dialogue whose inputs are dialogues with another machine.
* `Dialogue.Asks`, `Dialogue.Returns` — everything that is asked, and everything that is returned,
  has a property, whatever the replies are.
* `dialogues` — the machine whose steps are those of the dialogues, in any order, and inputs from
  elsewhere.

## Main results

* `Dialogues.step_cases` — what a step does.
* `Dialogues.noninterference` — noninterference for dialogues: those of the others can be deleted
  from a run, together with the inputs of the others from elsewhere.
* `Dialogues.replies_congr` — what is left then does not depend on the dialogues of the others.
* `Dialogues.state_invariant` — what all inputs that are asked keep holds in every state.
* `Dialogues.mem_result` — every result has the properties of the results of its dialogue.

## Design

* An input of the machine comes with a circumstance, which is chosen when the input is given. The
  dialogue knows nothing about it but the reply.
-/

/-- A dialogue with a machine. -/
inductive Dialogue (ι ο α : Type*) where
  /-- It has come to its result. -/
  | done (result : α)
  /-- It gives an input and goes on with the reply. -/
  | ask (input : ι) (next : ο → Dialogue ι ο α)

namespace Dialogue

variable {ι ο α β : Type*}

/-- Goes on with the result of a dialogue. -/
def bind (f : α → Dialogue ι ο β) : Dialogue ι ο α → Dialogue ι ο β
  | done result => f result
  | ask input next => ask input fun reply => (next reply).bind f

/-- A dialogue with another result. -/
def map (f : α → β) (dialogue : Dialogue ι ο α) : Dialogue ι ο β :=
  dialogue.bind fun result => done (f result)

/-- The result, once it is there. -/
def result? : Dialogue ι ο α → Option α
  | done result => some result
  | ask _ _ => none

/-- Everything that is asked has a property, whatever the replies are. -/
def Asks (p : ι → Prop) : Dialogue ι ο α → Prop
  | done _ => True
  | ask input next => p input ∧ ∀ reply, (next reply).Asks p

/-- Everything that is returned has a property, whatever the replies are. -/
def Returns (q : α → Prop) : Dialogue ι ο α → Prop
  | done result => q result
  | ask _ next => ∀ reply, (next reply).Returns q

@[simp] lemma asks_done {p : ι → Prop} {result : α} :
    (done result : Dialogue ι ο α).Asks p ↔ True := Iff.rfl

@[simp] lemma asks_ask {p : ι → Prop} {input : ι} {next : ο → Dialogue ι ο α} :
    (ask input next).Asks p ↔ p input ∧ ∀ reply, (next reply).Asks p := Iff.rfl

@[simp] lemma returns_done {q : α → Prop} {result : α} :
    (done result : Dialogue ι ο α).Returns q ↔ q result := Iff.rfl

@[simp] lemma returns_ask {q : α → Prop} {input : ι} {next : ο → Dialogue ι ο α} :
    (ask input next).Returns q ↔ ∀ reply, (next reply).Returns q := Iff.rfl

variable {p p' : ι → Prop} {q : α → Prop} {dialogue : Dialogue ι ο α}

/-- There is nothing that every dialogue must not ask. -/
lemma asks_true (dialogue : Dialogue ι ο α) : dialogue.Asks fun _ => True := by
  induction dialogue with
  | done result => trivial
  | ask input next ih => exact ⟨trivial, ih⟩

/-- There is nothing that every dialogue must not return. -/
lemma returns_true (dialogue : Dialogue ι ο α) : dialogue.Returns fun _ => True := by
  induction dialogue with
  | done result => trivial
  | ask input next ih => exact ih

/-- A result that is there has the properties of the results. -/
lemma Returns.of_result? {result : α} (h : dialogue.Returns q) (hresult : dialogue.result? = some result) :
    q result := by
  cases dialogue with
  | done a =>
    obtain rfl := Option.some.inj hresult
    exact h
  | ask input next => cases hresult

/-- A weaker property of the inputs. -/
lemma Asks.mono (h : dialogue.Asks p) (hp : ∀ input, p input → p' input) : dialogue.Asks p' := by
  induction dialogue with
  | done result => trivial
  | ask input next ih => exact ⟨hp input h.1, fun reply => ih reply (h.2 reply)⟩

/-- A weaker property of the results. -/
lemma Returns.mono {q' : α → Prop} (h : dialogue.Returns q) (hq : ∀ result, q result → q' result) :
    dialogue.Returns q' := by
  induction dialogue with
  | done result => exact hq result h
  | ask input next ih => exact fun reply => ih reply (h reply)

/-- What is asked by a dialogue that goes on. -/
lemma Asks.bind {f : α → Dialogue ι ο β} (h : dialogue.Asks p) (hf : ∀ result, (f result).Asks p) :
    (dialogue.bind f).Asks p := by
  induction dialogue with
  | done result => exact hf result
  | ask input next ih => exact ⟨h.1, fun reply => ih reply (h.2 reply)⟩

/-- What is returned by a dialogue that goes on. -/
lemma Returns.bind {f : α → Dialogue ι ο β} {r : β → Prop} (h : dialogue.Returns q)
    (hf : ∀ result, q result → (f result).Returns r) : (dialogue.bind f).Returns r := by
  induction dialogue with
  | done result => exact hf result h
  | ask input next ih => exact fun reply => ih reply (h reply)

/-- What is asked by a dialogue with another result. -/
lemma Asks.map (h : dialogue.Asks p) (f : α → β) : (dialogue.map f).Asks p :=
  h.bind fun _ => trivial

/-- What is returned by a dialogue with another result. -/
lemma Returns.map {f : α → β} {r : β → Prop} (h : dialogue.Returns q)
    (hf : ∀ result, q result → r (f result)) : (dialogue.map f).Returns r :=
  h.bind hf

/-! ## Dialogues within a dialogue -/

/-- Holds a dialogue for each input of another one, whose result is the reply. The dialogues know how
many there were before. -/
def expand {ι' ο' : Type*} (f : ℕ → ι → Dialogue ι' ο' ο) (n : ℕ) :
    Dialogue ι ο α → Dialogue ι' ο' α
  | done result => done result
  | ask input next => (f n input).bind fun reply => (next reply).expand f (n + 1)

/-- What is asked by the dialogues within a dialogue. -/
lemma Asks.expand {ι' ο' : Type*} {f : ℕ → ι → Dialogue ι' ο' ο} {r : ι' → Prop}
    (hf : ∀ n input, (f n input).Asks r) (dialogue : Dialogue ι ο α) :
    ∀ n, (dialogue.expand f n).Asks r := by
  induction dialogue with
  | done result => exact fun n => trivial
  | ask input next ih => exact fun n => (hf n input).bind fun reply => ih reply (n + 1)

/-- Inputs that are asked for can be given by other dialogues that agree on them. -/
lemma expand_congr {ι' ο' : Type*} {f g : ℕ → ι → Dialogue ι' ο' ο}
    (hfg : ∀ n input, p input → f n input = g n input) (h : dialogue.Asks p) :
    ∀ n, dialogue.expand f n = dialogue.expand g n := by
  induction dialogue with
  | done result => exact fun n => rfl
  | ask input next ih =>
    intro n
    rw [expand, expand, hfg n input h.1]
    exact congrArg (fun rest => (g n input).bind rest)
      (funext fun reply => ih reply (h.2 reply) (n + 1))

end Dialogue

/-! ## Many dialogues -/

/-- The state of a machine, and the dialogues that are held with it. -/
structure Dialogues (σ κ ι ο α : Type*) where
  state : σ
  held : κ → Option (Dialogue ι ο α)

/-- A step of a dialogue, or an input from elsewhere. -/
inductive DialogueStep (κ ι φ : Type*) where
  /-- A dialogue begins. -/
  | start (k : κ)
  /-- It gives its next input. -/
  | proceed (k : κ) (circumstance : φ)
  /-- Somebody else gives an input. -/
  | input (i : ι) (circumstance : φ)

section

variable {σ κ ι φ ο α : Type*} [DecidableEq κ] (M : Machine σ (ι × φ) ο)
  (dialogue : κ → Dialogue ι ο α)

/-- A step. It replies with the result of a dialogue that comes to its end. -/
def Dialogues.step (s : Dialogues σ κ ι ο α) : DialogueStep κ ι φ → Dialogues σ κ ι ο α × Option α
  | .start k =>
    match s.held k with
    | some _ => (s, none)
    | none =>
      ({ s with held := Function.update s.held k (some (dialogue k)) }, (dialogue k).result?)
  | .proceed k circumstance =>
    match s.held k with
    | some (.ask i next) =>
      let (state, reply) := M.step s.state (i, circumstance)
      (⟨state, Function.update s.held k (some (next reply))⟩, (next reply).result?)
    | _ => (s, none)
  | .input i circumstance => ({ s with state := (M.step s.state (i, circumstance)).1 }, none)

/-- The dialogues that are held with a machine. -/
def dialogues : Machine (Dialogues σ κ ι ο α) (DialogueStep κ ι φ) (Option α) where
  init := ⟨M.init, fun _ => none⟩
  step := Dialogues.step M dialogue

namespace Dialogues

variable {M dialogue}

/-- A step of the machine. -/
lemma dialogues_step (s : Dialogues σ κ ι ο α) (x : DialogueStep κ ι φ) :
    (dialogues M dialogue).step s x = step M dialogue s x := rfl

variable (M dialogue) in
/-- What a step does: nothing; or a dialogue begins; or it gives its input and goes on with the reply;
or an input is given from elsewhere. -/
lemma step_cases (s : Dialogues σ κ ι ο α) (x : DialogueStep κ ι φ) :
    step M dialogue s x = (s, none) ∨
      (∃ k, x = .start k ∧ s.held k = none ∧ step M dialogue s x =
        ({ s with held := Function.update s.held k (some (dialogue k)) }, (dialogue k).result?)) ∨
      (∃ k c i next, x = .proceed k c ∧ s.held k = some (.ask i next) ∧ step M dialogue s x =
        (⟨(M.step s.state (i, c)).1,
            Function.update s.held k (some (next (M.step s.state (i, c)).2))⟩,
          (next (M.step s.state (i, c)).2).result?)) ∨
      ∃ i c, x = .input i c ∧
        step M dialogue s x = ({ s with state := (M.step s.state (i, c)).1 }, none) := by
  cases x with
  | start k =>
    cases h : s.held k with
    | some d => exact .inl (by simp only [step, h])
    | none => exact .inr (.inl ⟨k, rfl, h, by simp only [step, h]⟩)
  | proceed k c =>
    cases h : s.held k with
    | none => exact .inl (by simp only [step, h])
    | some d =>
      cases d with
      | done a => exact .inl (by simp only [step, h])
      | ask i next => exact .inr (.inr (.inl ⟨k, c, i, next, rfl, h, by simp only [step, h]⟩))
  | input i c => exact .inr (.inr (.inr ⟨i, c, rfl, rfl⟩))

variable {p : κ → ι → Prop}

/-- What the dialogues that are held may still ask, and return. -/
def Keeps (p : κ → ι → Prop) (q : κ → α → Prop) (s : Dialogues σ κ ι ο α) : Prop :=
  ∀ k d, s.held k = some d → d.Asks (p k) ∧ d.Returns (q k)

omit [DecidableEq κ] in
/-- No dialogue is held. -/
lemma keeps_init {q : κ → α → Prop} (state : σ) :
    Keeps p q (⟨state, fun _ => none⟩ : Dialogues σ κ ι ο α) := by
  intro k d h
  cases h

variable {q : κ → α → Prop} {s : Dialogues σ κ ι ο α}

/-- A dialogue is held instead of another one. -/
lemma Keeps.update (h : Keeps p q s) {k : κ} {d : Dialogue ι ο α} (hasks : d.Asks (p k))
    (hreturns : d.Returns (q k)) (state : σ) :
    Keeps p q ⟨state, Function.update s.held k (some d)⟩ := by
  intro k' d' hheld
  dsimp only at hheld
  by_cases hk : k' = k
  · subst hk
    rw [Function.update_self] at hheld
    obtain rfl := Option.some.inj hheld
    exact ⟨hasks, hreturns⟩
  · rw [Function.update_of_ne hk] at hheld
    exact h k' d' hheld

/-- A step keeps it. -/
lemma Keeps.step (h : Keeps p q s) (hasks : ∀ k, (dialogue k).Asks (p k))
    (hreturns : ∀ k, (dialogue k).Returns (q k)) (x : DialogueStep κ ι φ) :
    Keeps p q (step M dialogue s x).1 := by
  obtain hnone | ⟨k, -, -, hstart⟩ | ⟨k, c, i, next, -, hheld, hproceed⟩ | ⟨i, c, -, hinput⟩ :=
    step_cases M dialogue s x
  · rwa [hnone]
  · rw [hstart]
    exact h.update (hasks k) (hreturns k) s.state
  · obtain ⟨hask, hreturn⟩ := h k _ hheld
    rw [hproceed]
    exact h.update (hask.2 _) (hreturn _) _
  · rw [hinput]
    exact h

/-- Along every run, the dialogues ask and return only what they may. -/
lemma keeps_run (hasks : ∀ k, (dialogue k).Asks (p k)) (hreturns : ∀ k, (dialogue k).Returns (q k))
    (steps : List (DialogueStep κ ι φ)) : Keeps p q ((dialogues M dialogue).run steps) :=
  (dialogues M dialogue).run_induction (P := fun _ s => Keeps p q s) (keeps_init M.init)
    (fun _ _ x h => h.step hasks hreturns x) steps

/-- **Results**: in every run, a step that replies with a result is a step of a dialogue that may
return it. -/
theorem mem_result (hreturns : ∀ k, (dialogue k).Returns (q k)) (steps : List (DialogueStep κ ι φ))
    (x : DialogueStep κ ι φ) {result : α}
    (hresult : ((dialogues M dialogue).step ((dialogues M dialogue).run steps) x).2 = some result) :
    ∃ k, (x = .start k ∨ ∃ c, x = .proceed k c) ∧ q k result := by
  have hkeeps := keeps_run (M := M) (fun k => (dialogue k).asks_true) hreturns steps
  obtain hnone | ⟨k, hx, -, hstart⟩ | ⟨k, c, i, next, hx, hheld, hproceed⟩ | ⟨i, c, -, hinput⟩ :=
    step_cases M dialogue ((dialogues M dialogue).run steps) x
  · rw [dialogues_step, hnone] at hresult
    cases hresult
  · rw [dialogues_step, hstart] at hresult
    exact ⟨k, .inl hx, (hreturns k).of_result? hresult⟩
  · rw [dialogues_step, hproceed] at hresult
    exact ⟨k, .inr ⟨c, hx⟩, ((hkeeps k _ hheld).2 _).of_result? hresult⟩
  · rw [dialogues_step, hinput] at hresult
    cases hresult

/-- **Invariants**: if all inputs that are admitted keep a property of the machine, and the dialogues
and everybody else give only such inputs, then it holds in every state that is reached. -/
theorem state_invariant (inv : σ → Prop) (admitted : ι → Prop) (hinit : inv M.init)
    (hstep : ∀ s i c, inv s → admitted i → inv (M.step s (i, c)).1)
    (hasks : ∀ k, (dialogue k).Asks admitted) (steps : List (DialogueStep κ ι φ))
    (hinputs : ∀ i c, .input i c ∈ steps → admitted i) :
    inv ((dialogues M dialogue).run steps).state := by
  induction steps using List.reverseRecOn with
  | nil => exact hinit
  | append_singleton steps x ih =>
    have hbefore := ih fun i c hmem => hinputs i c (List.mem_append_left _ hmem)
    have hkeeps := keeps_run (M := M) (p := fun _ => admitted) hasks
      (fun k => (dialogue k).returns_true) steps
    rw [Machine.run_snoc]
    obtain hnone | ⟨k, -, -, hstart⟩ | ⟨k, c, i, next, -, hheld, hproceed⟩ | ⟨i, c, hx, hinput⟩ :=
      step_cases M dialogue ((dialogues M dialogue).run steps) x
    · rwa [dialogues_step, hnone]
    · rwa [dialogues_step, hstart]
    · rw [dialogues_step, hproceed]
      exact hstep _ i c hbefore (hkeeps k _ hheld).1.1
    · rw [dialogues_step, hinput]
      exact hstep _ i c hbefore (hinputs i c (by simp [hx]))

/-! ## Noninterference -/

/-- Whether a step is one of ours: a step of a dialogue of ours, or an input of ours. -/
def ours (holds : κ → Bool) (mine : ι → Bool) : DialogueStep κ ι φ → Bool
  | .start k => holds k
  | .proceed k _ => holds k
  | .input i _ => mine i

/-- What we see: a view of the machine, and the dialogues of ours. -/
def view {ν : Type*} (look : σ → ν) (holds : κ → Bool) (s : Dialogues σ κ ι ο α) :
    ν × (κ → Option (Dialogue ι ο α)) :=
  (look s.state, fun k => if holds k then s.held k else none)

/-- A dialogue of the others changes. -/
private lemma view_update_of_not {ν : Type*} {look : σ → ν} {holds : κ → Bool} {k : κ}
    (hk : holds k = false) (state : σ) (d : Option (Dialogue ι ο α)) :
    view look holds ⟨state, Function.update s.held k d⟩ = view look holds ⟨state, s.held⟩ := by
  refine Prod.ext rfl (funext fun k' => ?_)
  by_cases hk' : k' = k
  · subst hk'
    simp only [view, hk, Bool.false_eq_true, ↓reduceIte]
  · simp only [view, Function.update_of_ne hk']

/-- A dialogue of ours changes. -/
private lemma view_update {ν : Type*} {look : σ → ν} {holds : κ → Bool} {t : Dialogues σ κ ι ο α}
    (h : view look holds s = view look holds t) {state state' : σ} (hstate : look state = look state')
    (k : κ) (d : Option (Dialogue ι ο α)) :
    view look holds ⟨state, Function.update s.held k d⟩ =
      view look holds ⟨state', Function.update t.held k d⟩ := by
  refine Prod.ext hstate (funext fun k' => ?_)
  by_cases hk' : k' = k
  · subst hk'
    simp only [view, Function.update_self]
  · have hheld := congrFun (congrArg Prod.snd h) k'
    simpa only [view, Function.update_of_ne hk'] using hheld

/-- **Noninterference**: let an invariant hold of the machine in every state; let the inputs of the
others leave a view of it alone, and ours act on it and reply through this view. If our dialogues give
our inputs only, and the dialogues of the others none of them, then what comes of our steps in a run
stays the same when the steps of the others are deleted.

**Proof sketch.** Unwinding, with the view of the machine and our dialogues as the view. -/
theorem noninterference {ν : Type*} (inv : σ → Prop) (look : σ → ν) (holds : κ → Bool)
    (mine : ι → Bool) (hinit : inv M.init) (hinv : ∀ s i, inv s → inv (M.step s i).1)
    (hforeign : ∀ s i c, inv s → mine i = false → look (M.step s (i, c)).1 = look s)
    (hown : ∀ s t i c, inv s → inv t → mine i = true → look s = look t →
      (M.step s (i, c)).2 = (M.step t (i, c)).2 ∧
        look (M.step s (i, c)).1 = look (M.step t (i, c)).1)
    (hasks : ∀ k, (dialogue k).Asks fun i => mine i = holds k)
    (steps : List (DialogueStep κ ι φ)) :
    (((dialogues M dialogue).trace steps).filter fun x => ours holds mine x.input).map
        Machine.Step.reply =
      (dialogues M dialogue).replies (steps.filter (ours holds mine)) := by
  refine (dialogues M dialogue).noninterference
    (fun s => inv s.state ∧ Keeps (fun k i => mine i = holds k) (fun _ _ => True) s)
    (view look holds) (ours holds mine) ⟨hinit, keeps_init M.init⟩ ?_ ?_ ?_ steps
  · rintro s x ⟨hs, hkeeps⟩
    refine ⟨?_, hkeeps.step hasks (fun k => (dialogue k).returns_true) x⟩
    obtain hnone | ⟨k, -, -, hstart⟩ | ⟨k, c, i, next, -, -, hproceed⟩ | ⟨i, c, -, hinput⟩ :=
      step_cases M dialogue s x
    · rwa [dialogues_step, hnone]
    · rwa [dialogues_step, hstart]
    · rw [dialogues_step, hproceed]
      exact hinv _ _ hs
    · rw [dialogues_step, hinput]
      exact hinv _ _ hs
  · rintro s x ⟨hs, hkeeps⟩ hx
    obtain hnone | ⟨k, rfl, -, hstart⟩ | ⟨k, c, i, next, rfl, hheld, hproceed⟩ |
      ⟨i, c, rfl, hinput⟩ := step_cases M dialogue s x
    · rw [dialogues_step, hnone]
    · have hk : holds k = false := hx
      rw [dialogues_step, hstart]
      exact view_update_of_not hk _ _
    · have hk : holds k = false := hx
      have hi : mine i = false := (hkeeps k _ hheld).1.1.trans hk
      rw [dialogues_step, hproceed, view_update_of_not hk]
      exact Prod.ext (hforeign s.state i c hs hi) rfl
    · rw [dialogues_step, hinput]
      exact Prod.ext (hforeign s.state i c hs hx) rfl
  · rintro s t x ⟨hs, hkeeps⟩ ⟨ht, -⟩ hx hview
    have hlook : look s.state = look t.state := congrArg Prod.fst hview
    have hheld : ∀ k, holds k = true → s.held k = t.held k := fun k hk => by
      simpa only [view, hk, ↓reduceIte] using congrFun (congrArg Prod.snd hview) k
    cases x with
    | start k =>
      have hk := hheld k hx
      cases h : t.held k with
      | some d =>
        rw [h] at hk
        simp only [dialogues, step, h, hk]
        exact ⟨trivial, hview⟩
      | none =>
        rw [h] at hk
        simp only [dialogues, step, h, hk]
        exact ⟨trivial, view_update hview hlook k _⟩
    | proceed k c =>
      have hk := hheld k hx
      cases h : t.held k with
      | none =>
        rw [h] at hk
        simp only [dialogues, step, h, hk]
        exact ⟨trivial, hview⟩
      | some d =>
        rw [h] at hk
        cases d with
        | done a =>
          simp only [dialogues, step, h, hk]
          exact ⟨trivial, hview⟩
        | ask i next =>
          have hi : mine i = true := (hkeeps k _ hk).1.1.trans hx
          obtain ⟨hreply, hnext⟩ := hown s.state t.state i c hs ht hi hlook
          simp only [dialogues, step, h, hk, hreply]
          exact ⟨trivial, view_update hview hnext k _⟩
    | input i c =>
      obtain ⟨-, hnext⟩ := hown s.state t.state i c hs ht hx hlook
      have hheld' := congrArg Prod.snd hview
      exact ⟨rfl, Prod.ext hnext hheld'⟩

/-- A run of our steps does not depend on the dialogues of the others. -/
theorem replies_congr {dialogue' : κ → Dialogue ι ο α} {holds : κ → Bool} {mine : ι → Bool}
    (h : ∀ k, holds k = true → dialogue k = dialogue' k) {steps : List (DialogueStep κ ι φ)}
    (hsteps : ∀ x ∈ steps, ours holds mine x = true) :
    (dialogues M dialogue).replies steps = (dialogues M dialogue').replies steps := by
  have hstep : ∀ s t x, ours holds mine x = true → s = t →
      ((dialogues M dialogue).step s x).1 = ((dialogues M dialogue').step t x).1 ∧
        ((dialogues M dialogue).step s x).2 = ((dialogues M dialogue').step t x).2 := by
    rintro s _ x hx rfl
    have hsame : step M dialogue s x = step M dialogue' s x := by
      cases x with
      | start k => simp only [step, h k hx]
      | proceed k c => rfl
      | input i c => rfl
    rw [dialogues_step, dialogues_step, hsame]
    exact ⟨rfl, rfl⟩
  -- the two machines go through the same states
  have hreplies := (Machine.simulation (dialogues M dialogue) (dialogues M dialogue') Eq Eq
    (fun _ x => ours holds mine x = true) rfl hstep steps
    fun first x hfirst => hsteps x (hfirst.subset (by simp))).2
  rwa [List.forall₂_eq_eq_eq] at hreplies

end Dialogues

end
