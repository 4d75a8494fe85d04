import Comsat.Lib.Machine
import Comsat.Plugins.Identity

set_option relaxedAutoImplicit false
set_option autoImplicit false

/-!
# Cooling down

A source that was told to wait does not begin another call of the operation until the wait is over.
Calls run side by side and share the deadlines: what a call does between two answers is one step.

## Main definitions

* `Cooldowns`, `Cooldowns.check`, `Cooldowns.set` — the deadline of each operation.
* `Program.advance` — what a call does until it sends its next request.
* `CooldownSystem` — a source, and the waits that its upstream service announces.
* `CooldownSystem.machine` — any interleaving of calls, answers and the passing of time.
* `CooldownState.Honoured` — no request was sent before a deadline announced before its call began.

## Main results

* `Program.advance_of_observes` — a call that notes the waits of its answers sets the deadlines.
* `CooldownSystem.honoured_of_covers` — deadlines are honoured in every run in which no deadline is
  forgotten.

## Design

* Time is counted in nanoseconds. An instant after the last one that the clock can represent makes
  the code panic while it holds the lock, and every later access to the deadlines panics as well.
-/

namespace Comsat

/-! ## Deadlines -/

/-- The deadline of each operation, and whether the lock around them is poisoned. -/
structure Cooldowns where
  deadline : OperationKind → Option ℕ
  poisoned : Bool

/-- The nanoseconds of a second. -/
def nanoseconds : ℕ := 10 ^ 9

/-- When a wait that begins now is over: it takes a second at least. -/
def waitUntil (now seconds : ℕ) : ℕ := now + nanoseconds * max 1 seconds

namespace Cooldowns

/-- No deadlines. -/
def empty : Cooldowns := ⟨fun _ => none, false⟩

/-- For how many more seconds the operation has to wait. -/
def check (cooldowns : Cooldowns) (now : ℕ) (operation : OperationKind) : Option ℕ :=
  match cooldowns.deadline operation with
  | none => none
  | some deadline =>
    if deadline ≤ now then none else some (max 1 ((deadline - now) / nanoseconds))

/-- Sets the deadline of an operation, which forgets the one before. -/
def set (cooldowns : Cooldowns) (last now : ℕ) (operation : OperationKind) (seconds : ℕ) :
    Cooldowns :=
  if last < waitUntil now seconds then { cooldowns with poisoned := true }
  else
    { cooldowns with
      deadline := fun other =>
        if other = operation then some (waitUntil now seconds) else cooldowns.deadline other }

/-- An operation need not wait exactly when its deadline is over. -/
lemma check_eq_none_iff {cooldowns : Cooldowns} {now : ℕ} {operation : OperationKind} :
    cooldowns.check now operation = none ↔ (cooldowns.deadline operation).getD 0 ≤ now := by
  rw [check]
  cases cooldowns.deadline operation with
  | none => simp
  | some deadline => by_cases h : deadline ≤ now <;> simp [h]

end Cooldowns

/-! ## Calls between two answers -/

/-- Where a call stands. -/
inductive CallStage where
  /-- It waits for the answer to a request. -/
  | awaiting (request : HttpRequest) (next : Except SourceError HttpResponse → Program Unit)
  /-- It has returned, or panicked. -/
  | finished

/-- What a call does until it sends its next request. -/
def Program.advance (last now : ℕ) : Cooldowns → Program Unit → Cooldowns × CallStage
  | cooldowns, .done _ => (cooldowns, .finished)
  | cooldowns, .check operation next =>
    if cooldowns.poisoned then (cooldowns, .finished)
    else advance last now cooldowns (next (cooldowns.check now operation))
  | cooldowns, .note operation seconds next =>
    if cooldowns.poisoned then (cooldowns, .finished)
    else
      let noted := cooldowns.set last now operation seconds
      if noted.poisoned then (noted, .finished) else advance last now noted next
  | cooldowns, .send request next => (cooldowns, .awaiting request next)

/-- The waits in an answer. -/
def waitsOf (waits : HttpRequest → HttpResponse → List ℕ) (request : HttpRequest) :
    Except SourceError HttpResponse → List ℕ
  | .ok response => waits request response
  | .error _ => []

/-- A call notes some waits, and then those of each answer, and does not look at the deadlines
again. -/
def Program.Observes {α : Type} (operation : OperationKind)
    (waits : HttpRequest → HttpResponse → List ℕ) : List ℕ → Program α → Prop
  | pending, .done _ => pending = []
  | _, .check _ _ => False
  | pending, .note noted seconds next =>
    noted = operation ∧ ∃ rest, pending = seconds :: rest ∧ Observes operation waits rest next
  | pending, .send request next =>
    pending = [] ∧ ∀ answer, Observes operation waits (waitsOf waits request answer) (next answer)

/-- A call returns at once, or it begins when the operation need not wait, and observes the waits in
the answers. -/
def Program.Ready {α : Type} (operation : OperationKind)
    (waits : HttpRequest → HttpResponse → List ℕ) (call : Program α) : Prop :=
  (∃ result, call = .done result) ∨
    ∃ next, call = .check operation next ∧ (next none).Observes operation waits [] ∧
      ∀ remaining, ∃ result, next (some remaining) = .done result

namespace Program

variable {α β : Type} {operation : OperationKind} {waits : HttpRequest → HttpResponse → List ℕ}

/-- One call after another observes the waits when both do. -/
lemma Observes.bind {call : Program α} {f : α → Program β} {pending : List ℕ}
    (h : call.Observes operation waits pending) (hf : ∀ a, (f a).Observes operation waits []) :
    (call.bind f).Observes operation waits pending := by
  induction call generalizing pending with
  | done result =>
    obtain rfl : pending = [] := h
    exact hf result
  | check other next ih => exact h.elim
  | note noted seconds next ih =>
    obtain ⟨hnoted, rest, hpending, hnext⟩ := h
    exact ⟨hnoted, rest, hpending, ih hnext⟩
  | send request next ih =>
    obtain ⟨hpending, hnext⟩ := h
    exact ⟨hpending, fun answer => ih answer (hnext answer)⟩

/-- One call after another that has not failed observes the waits when both do. -/
lemma Observes.andThen {call : Program (Except SourceError α)}
    {f : α → Program (Except SourceError β)} {pending : List ℕ}
    (h : call.Observes operation waits pending) (hf : ∀ a, (f a).Observes operation waits []) :
    (call.andThen f).Observes operation waits pending := by
  refine h.bind fun result => ?_
  cases result with
  | ok a => exact hf a
  | error e => rfl

/-- A call that is ready stays ready when its result is read further. -/
lemma Ready.bind {call : Program α} {f : α → Program β} (h : call.Ready operation waits)
    (hf : ∀ a, ∃ b, f a = .done b) : (call.bind f).Ready operation waits := by
  obtain ⟨result, rfl⟩ | ⟨next, rfl, hnext, hwait⟩ := h
  · exact .inl (hf result)
  · refine .inr ⟨_, rfl, hnext.bind fun a => ?_, fun remaining => ?_⟩
    · obtain ⟨b, hb⟩ := hf a
      rw [hb]
      rfl
    · obtain ⟨result, hresult⟩ := hwait remaining
      rw [hresult]
      exact hf result

/-- A call whose records are returned together is ready when the call is. -/
lemma Ready.together {call : Program (Except SourceError (List Record))}
    (h : call.Ready operation waits) : call.together.Ready operation waits :=
  h.bind fun result => by cases result <;> exact ⟨_, rfl⟩

/-- What a call that observes the waits in answers leaves behind. -/
structure Leaves (last now : ℕ) (operation : OperationKind)
    (waits : HttpRequest → HttpResponse → List ℕ) (pending : List ℕ) (before : Cooldowns)
    (after : Cooldowns × CallStage) : Prop where
  poisoned : before.poisoned = true → after.1.poisoned = true
  others : ∀ other, other ≠ operation → after.1.deadline other = before.deadline other
  deadline : after.1.poisoned = false → after.1.deadline operation =
    (pending.getLast?.map (waitUntil now)).or (before.deadline operation)
  observes : ∀ request next, after.2 = .awaiting request next →
    ∀ answer, (next answer).Observes operation waits (waitsOf waits request answer)

/-- **Calls set deadlines.** A call that notes some waits sets the deadline of its operation to the
end of the last of them, and no other deadline, unless it panics.

**Proof sketch.** Induction on the call: every wait that is noted replaces the deadline. -/
theorem advance_of_observes {last now : ℕ} {call : Program Unit} {pending : List ℕ}
    {cooldowns : Cooldowns} (h : call.Observes operation waits pending) :
    Leaves last now operation waits pending cooldowns (call.advance last now cooldowns) := by
  induction call generalizing pending cooldowns with
  | done result =>
    obtain rfl : pending = [] := h
    exact ⟨id, fun _ _ => rfl, fun _ => rfl, fun _ _ hstage => by cases hstage⟩
  | check other next ih => exact h.elim
  | note noted seconds next ih =>
    obtain ⟨rfl, rest, rfl, hnext⟩ := h
    rw [advance]
    split
    · rename_i hpoisoned
      exact ⟨id, fun _ _ => rfl, fun hafter => absurd (hpoisoned.symm.trans hafter) (by simp),
        fun _ _ hstage => by cases hstage⟩
    · rename_i hpoisoned
      by_cases hlast : last < waitUntil now seconds
      · have hset : cooldowns.set last now noted seconds = { cooldowns with poisoned := true } :=
          if_pos hlast
        simp only [hset, if_true]
        exact ⟨fun _ => rfl, fun _ _ => rfl, fun hafter => (Bool.noConfusion hafter),
          fun _ _ hstage => CallStage.noConfusion hstage⟩
      · have hset : (cooldowns.set last now noted seconds).poisoned = false := by
          rw [Cooldowns.set, if_neg hlast]
          exact Bool.eq_false_iff.mpr hpoisoned
        simp only [hset, Bool.false_eq_true, if_false]
        have hrest : Leaves last now noted waits rest (cooldowns.set last now noted seconds)
            (advance last now (cooldowns.set last now noted seconds) next) := ih hnext
        obtain ⟨-, hothers, hdeadline, hobserves⟩ := hrest
        refine ⟨fun hbefore => absurd hbefore hpoisoned, fun other hother => ?_, fun hafter => ?_,
          hobserves⟩
        · rw [hothers other hother, Cooldowns.set, if_neg hlast]
          exact if_neg hother
        · rw [hdeadline hafter, Cooldowns.set, if_neg hlast, List.getLast?_cons]
          cases rest.getLast? <;> simp
  | send request next ih =>
    obtain ⟨rfl, hnext⟩ := h
    exact ⟨id, fun _ _ => rfl, fun _ => rfl, fun asked continuation hstage => by
      cases hstage
      exact hnext⟩

end Program

/-! ## Calls side by side -/

/-- A call that is asked for. -/
inductive Invocation where
  | search (query : Query)
  | fetch (target : Target)
  | follow (target : Target)

/-- The operation of a call. -/
def Invocation.operation : Invocation → OperationKind
  | search _ => .search
  | fetch _ => .fetch
  | follow _ => .follow

/-- A call of a source, whatever it returns. -/
def UpstreamSource.call (source : UpstreamSource) : Invocation → Program Unit
  | .search query => (source.search query).bind fun _ => .done ()
  | .fetch target => (source.fetch target).bind fun _ => .done ()
  | .follow target => (source.follow target).bind fun _ => .done ()

/-- A call that has begun. -/
structure CallState where
  operation : OperationKind
  /-- The last deadline that was announced for the operation before the call began. -/
  owed : ℕ
  stage : CallStage

/-- A request that was sent. -/
structure SentRequest where
  time : ℕ
  /-- The last deadline that was announced for the operation before the call began. -/
  owed : ℕ
deriving DecidableEq

/-- The calls of a source, and the deadlines that the upstream service has announced. -/
structure CooldownState where
  now : ℕ
  cooldowns : Cooldowns
  /-- The last deadline that was announced for each operation. -/
  announced : OperationKind → ℕ
  calls : List CallState
  sent : List SentRequest

/-- What happens next. -/
inductive CooldownAction where
  /-- Time passes. -/
  | pass (duration : ℕ)
  | start (invocation : Invocation)
  /-- A call that waits is answered. -/
  | respond (index : ℕ) (answer : Except SourceError HttpResponse)

/-- A source, the waits that its upstream service announces and those that the source notes. -/
structure CooldownSystem where
  source : UpstreamSource
  /-- The last instant that the clock can represent. -/
  last : ℕ
  /-- The waits that an answer to a call of an operation announces. -/
  announces : OperationKind → HttpRequest → HttpResponse → List ℕ
  /-- The waits that the source notes for it, in order. -/
  notes : OperationKind → HttpRequest → HttpResponse → List ℕ

/-- No request was sent before a deadline that was announced before its call began. -/
def CooldownState.Honoured (state : CooldownState) : Prop :=
  ∀ request ∈ state.sent, request.owed ≤ request.time

namespace CooldownSystem

variable (system : CooldownSystem)

/-- Before the first call. -/
def init : CooldownState := ⟨0, .empty, fun _ => 0, [], []⟩

/-- A call goes on until it sends its next request. -/
def proceed (state : CooldownState) (operation : OperationKind) (owed : ℕ) (call : Program Unit) :
    CooldownState × CallState :=
  let (cooldowns, stage) := call.advance system.last state.now state.cooldowns
  ({ state with
      cooldowns
      sent :=
        match stage with
        | .awaiting _ _ => ⟨state.now, owed⟩ :: state.sent
        | .finished => state.sent },
    ⟨operation, owed, stage⟩)

/-- The deadlines that are announced when an answer arrives. -/
def announcedAfter (state : CooldownState) (operation : OperationKind) (request : HttpRequest)
    (answer : Except SourceError HttpResponse) : OperationKind → ℕ := fun other =>
  if other = operation then
    (waitsOf (system.announces operation) request answer).foldl
      (fun deadline seconds => max deadline (waitUntil state.now seconds)) (state.announced operation)
  else state.announced other

/-- One step of the calls. -/
def step (state : CooldownState) : CooldownAction → CooldownState
  | .pass duration => { state with now := state.now + duration }
  | .start invocation =>
    let (state, call) := system.proceed state invocation.operation
      (state.announced invocation.operation) (system.source.call invocation)
    { state with calls := state.calls ++ [call] }
  | .respond index answer =>
    match state.calls[index]? with
    | some ⟨operation, owed, .awaiting request next⟩ =>
      let (state, call) := system.proceed
        { state with announced := system.announcedAfter state operation request answer }
        operation owed (next answer)
      { state with calls := state.calls.set index call }
    | _ => state

/-- Any interleaving of calls, answers and the passing of time. -/
def machine : Machine CooldownState CooldownAction Unit :=
  ⟨init, fun state action => (system.step state action, ())⟩

/-- No deadline is forgotten: when an answer arrives, the deadline of the operation is afterwards
no earlier than it was, nor than any deadline that the answer announces. -/
def Covers (state : CooldownState) : CooldownAction → Prop
  | .respond index (.ok response) =>
    ∀ operation owed request next,
      state.calls[index]? = some ⟨operation, owed, .awaiting request next⟩ →
        state.cooldowns.poisoned = true ∨
        ∀ deadline ∈ (state.cooldowns.deadline operation).toList ++
            (system.announces operation request response).map (waitUntil state.now),
          deadline ≤ (((system.notes operation request response).getLast?.map
            (waitUntil state.now)).or (state.cooldowns.deadline operation)).getD 0
  | _ => True

/-! ## What holds of every run -/

/-- What holds when no deadline has been forgotten. -/
structure Sound (state : CooldownState) : Prop where
  covered : state.cooldowns.poisoned = false → ∀ operation,
    state.announced operation ≤ (state.cooldowns.deadline operation).getD 0
  owed : ∀ call ∈ state.calls, ∀ request next, call.stage = .awaiting request next →
    call.owed ≤ state.now
  observes : ∀ call ∈ state.calls, ∀ request next, call.stage = .awaiting request next →
    ∀ answer, (next answer).Observes call.operation (system.notes call.operation)
      (waitsOf (system.notes call.operation) request answer)
  honoured : state.Honoured

/-- The calls of the source are ready and observe the waits that the source notes. -/
def CallsReady : Prop :=
  ∀ invocation, (system.source.call invocation).Ready invocation.operation
    (system.notes invocation.operation)

variable {system}

/-- Before the first call nothing is owed. -/
lemma sound_init : system.Sound init :=
  ⟨fun _ _ => Nat.zero_le _, fun _ hcall => (List.not_mem_nil hcall).elim,
    fun _ hcall => (List.not_mem_nil hcall).elim, fun _ hrequest => (List.not_mem_nil hrequest).elim⟩

/-- Time that passes forgets nothing. -/
lemma Sound.pass {state : CooldownState} (h : system.Sound state) (duration : ℕ) :
    system.Sound (system.step state (.pass duration)) :=
  ⟨h.covered,
    fun call hcall request next hstage =>
      (h.owed call hcall request next hstage).trans (Nat.le_add_right ..),
    h.observes, h.honoured⟩

/-- A call that has ended leaves everything as it was. -/
lemma Sound.finished {state : CooldownState} (h : system.Sound state) (operation : OperationKind)
    (owed : ℕ) : system.Sound { state with calls := state.calls ++ [⟨operation, owed, .finished⟩] } := by
  refine ⟨h.covered, fun call hcall request next hstage => ?_,
    fun call hcall request next hstage => ?_, h.honoured⟩ <;>
    rcases List.mem_append.mp hcall with hcall | hcall
  · exact h.owed call hcall request next hstage
  · obtain rfl := List.mem_singleton.mp hcall
    cases hstage
  · exact h.observes call hcall request next hstage
  · obtain rfl := List.mem_singleton.mp hcall
    cases hstage

/-- **A call goes on.** A call that observes the waits in answers, and owes nothing that is not over,
leaves a sound state when the deadlines that it leaves cover what is announced.

**Proof sketch.** The deadline of its operation is the end of the last wait noted, all others stay,
and what it sends now is sent after what it owed. -/
lemma Sound.proceed {state : CooldownState} (h : system.Sound state) {operation : OperationKind}
    {owed : ℕ} {announced : OperationKind → ℕ} {pending : List ℕ} {call : Program Unit}
    (hcall : call.Observes operation (system.notes operation) pending) (howed : owed ≤ state.now)
    (hcovered : state.cooldowns.poisoned = false → announced operation ≤
      ((pending.getLast?.map (waitUntil state.now)).or
        (state.cooldowns.deadline operation)).getD 0)
    (hothers : ∀ other, other ≠ operation → announced other = state.announced other)
    (calls : CallState → List CallState)
    (hcalls : ∀ new, ∀ old ∈ calls new, old = new ∨ old ∈ state.calls) :
    system.Sound
      { (system.proceed { state with announced } operation owed call).1 with
        calls := calls (system.proceed { state with announced } operation owed call).2 } := by
  have hleaves : Program.Leaves system.last state.now operation (system.notes operation) pending
      state.cooldowns (call.advance system.last state.now state.cooldowns) :=
    Program.advance_of_observes hcall
  obtain ⟨hpoisoned, hkept, hdeadline, hobserves⟩ := hleaves
  rw [CooldownSystem.proceed]
  cases hadvance : call.advance system.last state.now state.cooldowns with
  | mk cooldowns stage =>
  rw [hadvance] at hpoisoned hkept hdeadline hobserves
  refine ⟨fun hafter other => ?_, fun old hold request next hstage => ?_,
    fun old hold request next hstage => ?_, ?_⟩
  · have hbefore : state.cooldowns.poisoned = false := by
      by_contra hcontra
      exact absurd (hpoisoned (Bool.eq_true_of_not_eq_false hcontra)) (by simpa using hafter)
    by_cases hother : other = operation
    · subst hother
      change announced other ≤ (cooldowns.deadline other).getD 0
      rw [hdeadline hafter]
      exact hcovered hbefore
    · change announced other ≤ (cooldowns.deadline other).getD 0
      rw [hothers other hother, hkept other hother]
      exact h.covered hbefore other
  · rcases hcalls _ old hold with rfl | hold
    · exact howed
    · exact h.owed old hold request next hstage
  · rcases hcalls _ old hold with rfl | hold
    · exact hobserves request next hstage
    · exact h.observes old hold request next hstage
  · intro request hrequest
    cases stage with
    | finished => exact h.honoured request hrequest
    | awaiting asked next =>
      rcases List.mem_cons.mp hrequest with rfl | hrequest
      · exact howed
      · exact h.honoured request hrequest

/-- **A call begins.** Beginning a call keeps a state sound.

**Proof sketch.** The call returns at once, or its operation need not wait: then its deadline is over,
and so is every deadline announced before. -/
lemma Sound.start (hready : system.CallsReady) {state : CooldownState} (h : system.Sound state)
    (invocation : Invocation) : system.Sound (system.step state (.start invocation)) := by
  have hfinished : ∀ {call : Program Unit},
      call.advance system.last state.now state.cooldowns = (state.cooldowns, .finished) →
      system.source.call invocation = call →
        system.Sound (system.step state (.start invocation)) := by
    intro call hadvance hcall
    rw [step, hcall, CooldownSystem.proceed, hadvance]
    exact h.finished _ _
  obtain ⟨result, hdone⟩ | ⟨next, hcheck, hnext, hwait⟩ := hready invocation
  · exact hfinished rfl hdone
  · cases hpoisoned : state.cooldowns.poisoned with
    | true =>
      refine hfinished ?_ hcheck
      rw [Program.advance, if_pos hpoisoned]
    | false =>
      have hadvance : (Program.check invocation.operation next).advance system.last state.now
          state.cooldowns = (next (state.cooldowns.check state.now invocation.operation)).advance
            system.last state.now state.cooldowns := by
        rw [Program.advance, if_neg (by simp [hpoisoned])]
      cases hremaining : state.cooldowns.check state.now invocation.operation with
      | some remaining =>
        obtain ⟨result, hresult⟩ := hwait remaining
        refine hfinished ?_ hcheck
        rw [hadvance, hremaining, hresult]
        rfl
      | none =>
        have hover := Cooldowns.check_eq_none_iff.mp hremaining
        have hproceed : system.step state (.start invocation) =
            { (system.proceed { state with announced := state.announced } invocation.operation
                (state.announced invocation.operation) (next none)).1 with
              calls := state.calls ++ [(system.proceed { state with announced := state.announced }
                invocation.operation (state.announced invocation.operation) (next none)).2] } := by
          rw [step, hcheck]
          simp only [CooldownSystem.proceed, hadvance, hremaining]
        rw [hproceed]
        refine h.proceed hnext ((h.covered hpoisoned _).trans hover)
          (fun hbefore => h.covered hbefore _) (fun _ _ => rfl)
          (fun new => state.calls ++ [new]) fun new old hold => ?_
        rcases List.mem_append.mp hold with hold | hold
        · exact .inr hold
        · exact .inl (List.mem_singleton.mp hold)

/-- The last deadline is no later than a bound on all of them. -/
lemma foldl_max_le {now bound start : ℕ} {waits : List ℕ} (hstart : start ≤ bound)
    (hwaits : ∀ deadline ∈ waits.map (waitUntil now), deadline ≤ bound) :
    waits.foldl (fun deadline seconds => max deadline (waitUntil now seconds)) start ≤ bound := by
  induction waits generalizing start with
  | nil => exact hstart
  | cons seconds waits ih =>
    obtain ⟨hfirst, hrest⟩ := List.forall_mem_cons.mp hwaits
    exact ih (max_le hstart hfirst) hrest

/-- **An answer arrives.** An answer keeps a state sound when no deadline is forgotten.

**Proof sketch.** What was announced before is covered by the deadline of the operation, which is no
later than the deadline that is left. -/
lemma Sound.respond {state : CooldownState} (h : system.Sound state) {index : ℕ}
    {answer : Except SourceError HttpResponse} (hcovers : system.Covers state (.respond index answer)) :
    system.Sound (system.step state (.respond index answer)) := by
  rw [step]
  split
  · rename_i operation owed request next hcall
    have hmem := List.mem_of_getElem? hcall
    refine h.proceed (h.observes _ hmem request next rfl answer) (h.owed _ hmem request next rfl)
      (fun hbefore => ?_) (fun other hother => if_neg hother) (fun new => state.calls.set index new)
      fun new old hold => (List.mem_or_eq_of_mem_set hold).symm
    simp only [if_true]
    have hannounced := h.covered hbefore operation
    cases answer with
    | error e => exact hannounced
    | ok response =>
      have hbound := (hcovers operation owed request next hcall).resolve_left (by simp [hbefore])
      refine foldl_max_le ?_ fun deadline hdeadline =>
        hbound deadline (List.mem_append_right _ hdeadline)
      cases hold : state.cooldowns.deadline operation with
      | none =>
        rw [hold] at hannounced
        exact hannounced.trans (Nat.zero_le _)
      | some deadline =>
        rw [hold] at hannounced hbound
        exact hannounced.trans (hbound deadline (List.mem_append_left _ (List.mem_singleton_self _)))
  · exact h

/-- **Deadlines are honoured.** In every run in which no deadline is forgotten, no request is sent
before a deadline that was announced for its operation before its call began.

**Proof sketch.** Every step keeps what holds of every run: the deadlines of the source cover what
was announced, and calls that go on owe nothing. -/
theorem honoured_of_covers (hready : system.CallsReady) (actions : List CooldownAction)
    (hcovers : ∀ step ∈ system.machine.trace actions, system.Covers step.before step.input) :
    (system.machine.run actions).Honoured := by
  have hsound := Machine.run_induction system.machine
    (P := fun trace state => (∀ step ∈ trace, system.Covers step.before step.input) →
      system.Sound state) (fun _ => sound_init) (fun trace state action ih hall => ?_) actions
  · exact (hsound hcovers).honoured
  · have hbefore := ih fun step hstep => hall step (List.mem_append_left _ hstep)
    have hlast : system.Covers state action :=
      hall (system.machine.stepAt state action) (List.mem_append_right _ (List.mem_singleton_self _))
    cases action with
    | pass duration => exact hbefore.pass duration
    | start invocation => exact hbefore.start hready invocation
    | respond index answer => exact hbefore.respond hlast

end CooldownSystem

end Comsat
